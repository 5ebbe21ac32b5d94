import Reticulum.Core.Path

/-!
# Links

A file system with symbolic links, at any places and to any targets.  `Reaches` follows a path as an
operating system does: `..` goes up from where the links have led to, and a link is replaced by what
it says.  `resolve` is Go's `EvalSymlinks`: it gives a path without links, and counts the links that
it follows.  Permissions are left out.
-/

open Path

namespace Links

open List

inductive Node where
  | file
  | dir
  | link (target : Name)
deriving DecidableEq

/-- What is at each location, and where the process runs. -/
structure Tree where
  node : List Name → Option Node
  cwd : List Name

inductive Errno where
  | notExist
  | notDirectory
  | invalid
  | tooManyLinks
deriving DecidableEq

def Dots (c : Name) : Prop := Skipped c ∨ c = up

instance instDecidableDots (c : Name) : Decidable (Dots c) := inferInstanceAs (Decidable (_ ∨ _))

namespace Tree

inductive Reaches (T : Tree) : List Name → List Name → List Name → Prop where
  | done (loc : List Name) : Reaches T loc [] loc
  | dots {loc cs l : List Name} {c : Name} (hc : Dots c) (h : Reaches T (move loc c) cs l) :
    Reaches T loc (c :: cs) l
  | dir {loc cs l : List Name} {c : Name} (hc : ¬ Dots c) (hnode : T.node (loc ++ [c]) = some .dir)
    (h : Reaches T (loc ++ [c]) cs l) : Reaches T loc (c :: cs) l
  | file {loc : List Name} {c : Name} (hc : ¬ Dots c) (hnode : T.node (loc ++ [c]) = some .file) :
    Reaches T loc [c] (loc ++ [c])
  | link {loc cs l : List Name} {c t : Name} (hc : ¬ Dots c)
    (hnode : T.node (loc ++ [c]) = some (.link t))
    (h : Reaches T (if isAbs t then [] else loc) (pieces t ++ cs) l) : Reaches T loc (c :: cs) l

def Opens (T : Tree) (p : Name) (l : List Name) : Prop :=
  T.Reaches (if isAbs p then [] else T.cwd) (pieces p) l

/-- The loop of `walkSymlinks`, up to the next link.  The result is cleaned as it grows. -/
def evalWith (T : Tree) (next : Lex → List Name → Except Errno Lex) :
    Lex → List Name → Except Errno Lex
  | x, [] => .ok x
  | x, c :: cs =>
    if Dots c then evalWith T next (x.push c) cs
    else if 0 ∈ c then .error .invalid
    else
      match T.node (x.place T.cwd ++ [c]) with
      | none => .error .notExist
      | some .dir => evalWith T next (x.push c) cs
      | some .file => if cs = [] then .ok (x.push c) else .error .notDirectory
      | some (.link t) => next (if isAbs t then ⟨true, 0, []⟩ else x) (pieces t ++ cs)

def eval (T : Tree) : ℕ → Lex → List Name → Except Errno Lex
  | 0 => T.evalWith fun _ _ => .error .tooManyLinks
  | n + 1 => T.evalWith (T.eval n)

def resolve (T : Tree) (p : Name) : Except Errno Lex := T.eval 255 ⟨isAbs p, 0, []⟩ (pieces p)

structure Dirs (T : Tree) (x : Lex) : Prop where
  proper : x.Proper
  node : ∀ ns c, ns ++ [c] <+: x.names → T.node (x.root T.cwd ++ (ns ++ [c])) = some .dir

def Ends (T : Tree) (y : Lex) : Prop :=
  ∃ x c, T.Dirs x ∧ IsName c ∧ y = x.push c ∧ T.node (x.place T.cwd ++ [c]) = some .file

/-- **The ways a path is resolved.**  Where the path leads to if pieces come after it is `P`, and
what is resolved then is `f`.  The result is a directory or a file that the path leads to, or an
error, which stays; and if it says that something does not exist, the path leads nowhere. -/
def Outcome (T : Tree) (P : List Name → List Name → Prop) (f : List Name → Except Errno Lex) :
    Except Errno Lex → Prop
  | .ok y =>
    T.Dirs y ∧ (∀ qs l, P qs l ↔ T.Reaches (y.place T.cwd) qs l) ∨
      T.Ends y ∧ ∀ qs l, P qs l ↔ qs = [] ∧ l = y.place T.cwd
  | .error e => (∀ qs, f qs = .error e) ∧ (e = .notExist → ∀ qs l, ¬ P qs l)

section

variable {T : Tree} {x y : Lex} {loc l cs qs : List Name} {c p : Name} {n : ℕ}

/-! ## Following pieces -/

lemma reaches_nil : T.Reaches loc [] l ↔ l = loc := by
  constructor
  · rintro ⟨⟩
    rfl
  · rintro rfl
    exact .done l

lemma reaches_cons_dots (hc : Dots c) :
    T.Reaches loc (c :: cs) l ↔ T.Reaches (move loc c) cs l := by
  constructor
  · rintro (_ | h | _ | _ | _) <;> first | assumption | contradiction
  · exact .dots hc

lemma reaches_cons (hc : ¬ Dots c) :
    T.Reaches loc (c :: cs) l ↔
      match T.node (loc ++ [c]) with
      | none => False
      | some .dir => T.Reaches (loc ++ [c]) cs l
      | some .file => cs = [] ∧ l = loc ++ [c]
      | some (.link t) => T.Reaches (if isAbs t then [] else loc) (pieces t ++ cs) l := by
  constructor
  · intro h
    cases h with
    | dots hdots h => exact absurd hdots hc
    | dir _ hnode h => rwa [hnode]
    | file _ hnode => rw [hnode]; exact ⟨rfl, rfl⟩
    | link _ hnode h => rwa [hnode]
  · intro h
    split at h
    · exact h.elim
    · next hnode => exact .dir hc hnode h
    · next hnode => obtain ⟨rfl, rfl⟩ := h; exact .file hc hnode
    · next hnode => exact .link hc hnode h

lemma reaches_dots (hcs : ∀ c ∈ cs, Dots c) :
    T.Reaches loc (cs ++ qs) l ↔ T.Reaches (cs.foldl move loc) qs l := by
  induction cs generalizing loc with
  | nil => rfl
  | cons c cs ih =>
    rw [cons_append, reaches_cons_dots (hcs c mem_cons_self), foldl_cons,
      ih fun d hd => hcs d (mem_cons_of_mem c hd)]

lemma reaches_dirs (hcs : ∀ c ∈ cs, IsName c)
    (h : ∀ ns c, ns ++ [c] <+: cs → T.node (loc ++ (ns ++ [c])) = some .dir) :
    T.Reaches loc (cs ++ qs) l ↔ T.Reaches (loc ++ cs) qs l := by
  induction cs generalizing loc with
  | nil => simp
  | cons c cs ih =>
    have hc := hcs c mem_cons_self
    have hnode := h [] c (by simp)
    rw [cons_append, reaches_cons (by simp [Dots, hc.not_skipped, hc.ne_up])]
    have hrest : ∀ ns d, ns ++ [d] <+: cs → T.node (loc ++ [c] ++ (ns ++ [d])) = some .dir := by
      intro ns d hns
      simpa using h (c :: ns) d (by simpa using hns)
    rw [nil_append] at hnode
    rw [hnode, append_cons loc c cs, ← ih (fun d hd => hcs d (mem_cons_of_mem c hd)) hrest]

lemma root_eq (hx : x.Proper) :
    (replicate x.ups up).foldl move (if x.rooted then [] else T.cwd) = x.root T.cwd := by
  cases hroot : x.rooted with
  | true => simp [hx.ups hroot, Lex.root, hroot]
  | false =>
    have h := Lex.place_foldl ⟨false, 0, []⟩ (replicate x.ups up) T.cwd
    rw [Lex.foldl_push_ups] at h
    simpa [Lex.place, Lex.root, hroot] using h.symm

/-- **A clean path** goes up first and then along its names, whatever comes after it. -/
lemma reaches_text (hx : x.Proper) :
    T.Reaches (if isAbs x.text then [] else T.cwd) (pieces x.text ++ qs) l ↔
      T.Reaches (x.root T.cwd) (x.names ++ qs) l := by
  obtain ⟨ds, hpieces, hds⟩ := Lex.pieces_text hx
  have hskip (loc : List Name) : ds.foldl move loc = loc := by
    have h := Lex.foldl_push_rooted loc ds
    rw [Lex.foldl_push_of_skipped hds] at h
    exact (congrArg Lex.names h).symm
  rw [Lex.isAbs_text hx, hpieces, append_assoc, reaches_dots fun d hd => .inl (hds d hd), hskip,
    Lex.comps, append_assoc, reaches_dots fun d hd => .inr (eq_of_mem_replicate hd), root_eq hx]

lemma opens_text (hx : x.Proper) : T.Opens x.text l ↔ T.Reaches (x.root T.cwd) x.names l := by
  have h : _ ↔ T.Reaches (x.root T.cwd) (x.names ++ []) l := reaches_text hx
  simpa [Opens] using h

/-! ## Resolving -/

lemma IsName.of_not_dots (hc : ¬ Dots c) (hslash : slash ∉ c) : IsName c :=
  ⟨fun h => hc (.inl (.inl h)), fun h => hc (.inl (.inr h)), fun h => hc (.inr h), hslash⟩

lemma place_push_of_isName (hc : IsName c) : (x.push c).place T.cwd = x.place T.cwd ++ [c] := by
  simp [Lex.push_of_isName hc, Lex.place, Lex.root]

lemma Dirs.push_dots (hx : T.Dirs x) (hc : Dots c) (hslash : slash ∉ c) : T.Dirs (x.push c) := by
  refine ⟨hx.proper.push hslash, ?_⟩
  rw [Lex.push]
  split_ifs with hskip hup hne hroot
  · exact hx.node
  · exact absurd hc (by simp [Dots, hskip, hup])
  · exact fun ns d hns => hx.node ns d (hns.trans ( dropLast_prefix _))
  · exact hx.node
  · rw [not_not] at hne
    simp [hne]

lemma Dirs.push (hx : T.Dirs x) (hc : IsName c)
    (hnode : T.node (x.place T.cwd ++ [c]) = some .dir) : T.Dirs (x.push c) := by
  refine ⟨hx.proper.push hc.slash_not_mem, ?_⟩
  rw [Lex.push_of_isName hc]
  intro ns d hns
  obtain hall | hns := prefix_concat_iff.mp hns
  · rw [hall]
    simpa [Lex.place, Lex.root] using hnode
  · exact hx.node ns d hns

lemma dirs_nil (rooted : Bool) : T.Dirs ⟨rooted, 0, []⟩ :=
  ⟨⟨by simp, fun _ => rfl⟩, by simp⟩

lemma Dirs.reaches (hx : T.Dirs x) :
    T.Reaches (x.root T.cwd) (x.names ++ qs) l ↔ T.Reaches (x.place T.cwd) qs l :=
  reaches_dirs hx.proper.names hx.node

lemma Ends.proper (hy : T.Ends y) : y.Proper := by
  obtain ⟨x, c, hx, hc, rfl, -⟩ := hy
  exact hx.proper.push hc.slash_not_mem

lemma Ends.reaches (hy : T.Ends y) :
    T.Reaches (y.root T.cwd) (y.names ++ qs) l ↔ qs = [] ∧ l = y.place T.cwd := by
  obtain ⟨x, c, hx, hc, rfl, hnode⟩ := hy
  have h : T.Reaches (x.root T.cwd) (x.names ++ c :: qs) l ↔ _ := hx.reaches
  rw [reaches_cons (by simp [Dots, hc.not_skipped, hc.ne_up]), hnode] at h
  rw [place_push_of_isName hc, Lex.push_of_isName hc]
  simpa [Lex.root] using h

lemma Outcome.congr {P P' : List Name → List Name → Prop} {f f' : List Name → Except Errno Lex}
    {r : Except Errno Lex} (h : T.Outcome P' f' r) (hP : ∀ qs l, P qs l ↔ P' qs l)
    (hf : ∀ qs, f qs = f' qs) : T.Outcome P f r := by
  obtain rfl : P = P' := by
    funext qs l
    exact propext (hP qs l)
  obtain rfl := funext hf
  exact h

lemma outcome_evalWith {next : Lex → List Name → Except Errno Lex}
    (hnext : ∀ x cs, T.Dirs x → (∀ c ∈ cs, slash ∉ c) →
      T.Outcome (fun qs l => T.Reaches (x.place T.cwd) (cs ++ qs) l)
        (fun qs => next x (cs ++ qs)) (next x cs))
    (hx : T.Dirs x) (hcs : ∀ c ∈ cs, slash ∉ c) :
    T.Outcome (fun qs l => T.Reaches (x.place T.cwd) (cs ++ qs) l)
      (fun qs => T.evalWith next x (cs ++ qs)) (T.evalWith next x cs) := by
  induction cs generalizing x with
  | nil => exact .inl ⟨hx, fun _ _ => .rfl⟩
  | cons c cs ih =>
    have hslash := hcs c mem_cons_self
    have hrest : ∀ c ∈ cs, slash ∉ c := fun d hd => hcs d (mem_cons_of_mem c hd)
    by_cases hc : Dots c
    · rw [evalWith, if_pos hc]
      refine (ih (hx.push_dots hc hslash) hrest).congr (fun qs l => ?_)
        fun qs => by simp [evalWith, hc]
      rw [cons_append, reaches_cons_dots hc, Lex.place_push]
    have hname := IsName.of_not_dots hc hslash
    by_cases hzero : 0 ∈ c
    · simp [evalWith, hc, hzero, Outcome]
    cases hnode : T.node (x.place T.cwd ++ [c]) with
    | none => simp [evalWith, hc, hzero, hnode, Outcome, reaches_cons hc]
    | some node =>
      cases node with
      | dir =>
        simp only [evalWith, if_neg hc, if_neg hzero, hnode]
        refine (ih (hx.push hname hnode) hrest).congr (fun qs l => ?_)
          fun qs => by simp [evalWith, hzero, hnode]
        rw [cons_append, reaches_cons hc, hnode, place_push_of_isName hname]
      | file =>
        by_cases hnil : cs = []
        · simp only [evalWith, hc, hzero, hnode, hnil, Outcome]
          refine .inr ⟨⟨x, c, hx, hname, rfl, hnode⟩, ?_⟩
          simp_all [reaches_cons hc, place_push_of_isName hname]
        · simp [evalWith, hc, hzero, hnode, hnil, Outcome]
      | link t =>
        have h := hnext (if isAbs t then ⟨true, 0, []⟩ else x) (pieces t ++ cs)
          (by split_ifs; exacts [dirs_nil true, hx]) fun d hd =>
            (mem_append.mp hd).elim slash_not_mem_of_mem_pieces (hrest d)
        have hplace : (if isAbs t then (⟨true, 0, []⟩ : Lex) else x).place T.cwd =
            if isAbs t then [] else x.place T.cwd := by
          split_ifs <;> rfl
        simp only [evalWith, if_neg hc, if_neg hzero, hnode]
        refine h.congr (fun qs l => ?_) fun qs => by simp [evalWith, hc, hzero, hnode]
        rw [cons_append, reaches_cons hc, hnode, hplace, append_assoc]

/-- **Every path is resolved in one of these ways.** -/
theorem outcome_eval (n : ℕ) (hx : T.Dirs x) (hcs : ∀ c ∈ cs, slash ∉ c) :
    T.Outcome (fun qs l => T.Reaches (x.place T.cwd) (cs ++ qs) l)
      (fun qs => T.eval n x (cs ++ qs)) (T.eval n x cs) := by
  induction n generalizing x cs with
  | zero => exact outcome_evalWith (fun _ _ _ _ => ⟨fun _ => rfl, by simp⟩) hx hcs
  | succ n ih => exact outcome_evalWith (fun _ _ hx hcs => ih hx hcs) hx hcs

end

end Tree

end Links
