import Mathlib.Data.List.Infix

/-!
# Paths

A path is a byte string whose **pieces** are set apart by slashes.  `parse` reads it without looking
at any directory: empty pieces and `.` are left out, and `..` takes the name before it away.  `text`
writes the result (`Lex`) down again, and nothing is lost by it (**`parse_text`**).  A **location**
is the list of names from the root on.

The functions are those of Go's `path/filepath` on systems where a slash separates.
-/

namespace Path

open List

abbrev Name := List UInt8

def slash : UInt8 := 47

def here : Name := [46]

def up : Name := [46, 46]

/-- A name that a directory can have an entry for. -/
structure IsName (c : Name) : Prop where
  ne_nil : c ≠ []
  ne_here : c ≠ here
  ne_up : c ≠ up
  slash_not_mem : slash ∉ c

def isAbs (p : Name) : Bool := p.head? == some slash

def pieces (p : Name) : List Name := p.splitOn slash

def Skipped (c : Name) : Prop := c = [] ∨ c = here

instance instDecidableSkipped (c : Name) : Decidable (Skipped c) :=
  inferInstanceAs (Decidable (_ ∨ _))

/-- What a path says: where it starts, how often it goes up, and the names after that. -/
structure Lex where
  rooted : Bool
  ups : ℕ
  names : List Name
deriving DecidableEq

namespace Lex

variable (x : Lex)

def push (c : Name) : Lex :=
  if Skipped c then x
  else if c ≠ up then { x with names := x.names ++ [c] }
  else if x.names ≠ [] then { x with names := x.names.dropLast }
  else if x.rooted then x
  else { x with ups := x.ups + 1 }

def comps : List Name := replicate x.ups up ++ x.names

def text : Name :=
  if x.rooted then slash :: [slash].intercalate x.comps
  else if x.comps = [] then here
  else [slash].intercalate x.comps

def parent : Lex :=
  if x.names ≠ [] then { x with names := x.names.dropLast } else { x with ups := x.ups - 1 }

def root (cwd : List Name) : List Name :=
  if x.rooted then [] else cwd.take (cwd.length - x.ups)

def place (cwd : List Name) : List Name := x.root cwd ++ x.names

structure Proper : Prop where
  names : ∀ c ∈ x.names, IsName c
  ups : x.rooted = true → x.ups = 0

end Lex

def parse (p : Name) : Lex := (pieces p).foldl .push ⟨isAbs p, 0, []⟩

def clean (p : Name) : Name := (parse p).text

def join (a b : Name) : Name :=
  if a = [] then if b = [] then [] else clean b
  else if b = [] then clean a
  else clean (a ++ slash :: b)

def base (p : Name) : Name :=
  if p = [] then here else (((pieces p).filter (· ≠ [])).getLast?).getD [slash]

def dir (p : Name) : Name := clean ([slash].intercalate ((pieces p).dropLast ++ [[]]))

def move (loc : List Name) (c : Name) : List Name :=
  if Skipped c then loc else if c = up then loc.dropLast else loc ++ [c]

/-! ## Pieces -/

section

variable {p q c t : Name} {cs : List Name}

lemma pieces_append_slash (p q : Name) : pieces (p ++ slash :: q) = pieces p ++ pieces q :=
  splitOn_append_cons_self p q

lemma intercalate_pieces (p : Name) : [slash].intercalate (pieces p) = p :=
  intercalate_splitOn slash

lemma pieces_intercalate (hcs : ∀ c ∈ cs, slash ∉ c) (hne : cs ≠ []) :
    pieces ([slash].intercalate cs) = cs :=
  splitOn_intercalate slash hcs hne

lemma pieces_of_not_mem (h : slash ∉ c) : pieces c = [c] := splitOn_eq_singleton h

lemma pieces_ne_nil (p : Name) : pieces p ≠ [] := splitOn_ne_nil slash p

lemma slash_not_mem_of_mem_pieces (h : c ∈ pieces p) : slash ∉ c := by
  induction p generalizing c with
  | nil =>
    obtain rfl : c = [] := by simpa [pieces] using h
    simp
  | cons a p ih =>
    rw [pieces, splitOn_cons_eq_if_modifyHead] at h
    cases hp : pieces p with
    | nil => exact absurd hp (pieces_ne_nil p)
    | cons d ds =>
      rw [← pieces, hp] at h
      grind [modifyHead_cons]

lemma intercalate_append (hne : cs ≠ []) {ds : List Name} (hds : ds ≠ []) :
    [slash].intercalate (cs ++ ds) = [slash].intercalate cs ++ slash :: [slash].intercalate ds := by
  induction cs with
  | nil => exact absurd rfl hne
  | cons d cs ih =>
    by_cases hcs : cs = []
    · subst hcs
      simp [intercalate_cons_of_ne_nil hds]
    · rw [cons_append, intercalate_cons_of_ne_nil (by simp [hcs]),
        intercalate_cons_of_ne_nil hcs, ih hcs]
      simp

lemma length_le_intercalate (h : ∀ c ∈ cs, c ≠ []) :
    cs.length ≤ ([slash].intercalate cs).length := by
  induction cs with
  | nil => simp
  | cons c cs ih =>
    rw [forall_mem_cons] at h
    by_cases hcs : cs = []
    · simpa [hcs, Nat.one_le_iff_ne_zero] using h.1
    · have := ih h.2
      rw [intercalate_cons_of_ne_nil hcs]
      simp
      omega

lemma intercalate_concat (hne : cs ≠ []) (c : Name) :
    [slash].intercalate (cs ++ [c]) = [slash].intercalate cs ++ slash :: c := by
  simp [intercalate_append hne]

lemma isAbs_append (hp : p ≠ []) (q : Name) : isAbs (p ++ q) = isAbs p := by
  cases p with
  | nil => exact absurd rfl hp
  | cons a p => rfl

end

/-! ## What a path says -/

section

variable {x y : Lex} {p q c t : Name} {cs cwd : List Name}

lemma not_skipped_up : ¬ Skipped up := by decide

lemma IsName.not_skipped (h : IsName c) : ¬ Skipped c := by
  rintro (rfl | rfl)
  · exact h.ne_nil rfl
  · exact h.ne_here rfl

namespace Lex

lemma push_of_skipped (h : Skipped c) : x.push c = x := if_pos h

lemma push_of_isName (h : IsName c) : x.push c = { x with names := x.names ++ [c] } := by
  rw [push, if_neg h.not_skipped, if_pos h.ne_up]

lemma foldl_push_of_skipped (h : ∀ c ∈ cs, Skipped c) : cs.foldl push x = x := by
  induction cs with
  | nil => rfl
  | cons c cs ih =>
    rw [foldl_cons, push_of_skipped (h c mem_cons_self)]
    exact ih fun d hd => h d (mem_cons_of_mem c hd)

lemma Proper.push (h : x.Proper) (hc : slash ∉ c) : (x.push c).Proper := by
  obtain ⟨hnames, hups⟩ := h
  rw [Lex.push]
  split_ifs with hskip hup hne hroot
  · exact ⟨hnames, hups⟩
  · refine ⟨fun d hd => ?_, hups⟩
    obtain hd | hd := mem_append.mp hd
    · exact hnames d hd
    · rw [mem_singleton.mp hd]
      exact ⟨fun h => hskip (.inl h), fun h => hskip (.inr h), hup, hc⟩
  · exact ⟨fun d hd => hnames d (mem_of_mem_dropLast hd), hups⟩
  · exact ⟨hnames, hups⟩
  · exact ⟨hnames, fun h => absurd h hroot⟩

lemma Proper.foldl (h : x.Proper) (hcs : ∀ c ∈ cs, slash ∉ c) : (cs.foldl .push x).Proper := by
  induction cs generalizing x with
  | nil => exact h
  | cons c cs ih =>
    exact ih (h.push (hcs c mem_cons_self)) fun d hd => hcs d (mem_cons_of_mem c hd)

lemma place_push (x : Lex) (c : Name) (cwd : List Name) :
    (x.push c).place cwd = move (x.place cwd) c := by
  rw [push, move]
  by_cases hskip : Skipped c
  · rw [if_pos hskip, if_pos hskip]
  · rw [if_neg hskip, if_neg hskip]
    by_cases hup : c = up
    · rw [if_neg (not_not.mpr hup), if_pos hup]
      split_ifs with hne hroot
      · simp [place, root, dropLast_append_of_ne_nil hne]
      · simp_all [place, root]
      · simp_all only [place, root, append_nil, dropLast_eq_take, take_take, length_take, not_not,
          if_false, Bool.false_eq_true]
        congr 1
        omega
    · rw [if_pos hup, if_neg hup]
      simp [place, root]

lemma place_foldl (x : Lex) (cs cwd : List Name) :
    (cs.foldl push x).place cwd = cs.foldl move (x.place cwd) := by
  induction cs generalizing x with
  | nil => rfl
  | cons c cs ih => rw [foldl_cons, foldl_cons, ih, place_push]

lemma foldl_push_rooted (loc cs : List Name) :
    cs.foldl push ⟨true, 0, loc⟩ = ⟨true, 0, cs.foldl move loc⟩ := by
  induction cs generalizing loc with
  | nil => rfl
  | cons c cs ih =>
    have hpush : push ⟨true, 0, loc⟩ c = ⟨true, 0, move loc c⟩ := by
      rw [push, move]
      split_ifs <;> simp_all
    rw [foldl_cons, foldl_cons, hpush, ih]

lemma foldl_push_ups (k : ℕ) : (replicate k up).foldl push ⟨false, 0, []⟩ = ⟨false, k, []⟩ := by
  induction k with
  | zero => rfl
  | succ k ih =>
    rw [replicate_succ', foldl_append, ih]
    simp [push, not_skipped_up]

lemma foldl_push_names (hns : ∀ c ∈ cs, IsName c) :
    cs.foldl push x = { x with names := x.names ++ cs } := by
  induction cs generalizing x with
  | nil => simp
  | cons c cs ih =>
    rw [foldl_cons, push_of_isName (hns c mem_cons_self),
      ih fun d hd => hns d (mem_cons_of_mem c hd)]
    simp

lemma Proper.foldl_comps (h : x.Proper) : x.comps.foldl .push ⟨x.rooted, 0, []⟩ = x := by
  obtain ⟨rooted, ups, names⟩ := x
  rw [comps, foldl_append]
  cases rooted with
  | false => rw [foldl_push_ups, foldl_push_names h.names, nil_append]
  | true =>
    obtain rfl : ups = 0 := h.ups rfl
    exact (foldl_push_names h.names).trans (by simp)

lemma Proper.slash_not_mem (h : x.Proper) (hc : c ∈ x.comps) : slash ∉ c := by
  obtain hc | hc := mem_append.mp hc
  · rw [eq_of_mem_replicate hc]
    decide
  · exact (h.names c hc).slash_not_mem

lemma Proper.ne_nil (h : x.Proper) (hc : c ∈ x.comps) : c ≠ [] := by
  obtain hc | hc := mem_append.mp hc
  · rw [eq_of_mem_replicate hc]
    decide
  · exact (h.names c hc).ne_nil

lemma comps_parent (x : Lex) : x.parent.comps = x.comps.dropLast := by
  rw [parent, comps]
  split_ifs with hne
  · simp [comps, dropLast_append_of_ne_nil hne]
  · simp_all [comps]

lemma Proper.parent (h : x.Proper) : x.parent.Proper := by
  rw [Lex.parent]
  split_ifs
  · exact ⟨fun c hc => h.names c (mem_of_mem_dropLast hc), h.ups⟩
  · exact ⟨h.names, fun hroot => by simp [h.ups hroot]⟩

end Lex

lemma parse_proper (p : Name) : (parse p).Proper := by
  have hstart : (⟨isAbs p, 0, []⟩ : Lex).Proper := ⟨by simp, fun _ => rfl⟩
  exact hstart.foldl fun c hc => slash_not_mem_of_mem_pieces hc

namespace Lex

lemma intercalate_comps (h : x.Proper) (hne : x.comps ≠ []) :
    ∃ b p, [slash].intercalate x.comps = b :: p ∧ b ≠ slash := by
  obtain ⟨c, cs, hcs⟩ := exists_cons_of_ne_nil hne
  have hc : c ∈ x.comps := by simp [hcs]
  obtain ⟨b, d, rfl⟩ := exists_cons_of_ne_nil (h.ne_nil hc)
  have hb : b ≠ slash := fun heq => h.slash_not_mem hc (by simp [heq])
  by_cases hnil : cs = []
  · exact ⟨b, d, by simp [hcs, hnil], hb⟩
  · exact ⟨b, d ++ [slash] ++ [slash].intercalate cs,
      by simp [hcs, intercalate_cons_of_ne_nil hnil], hb⟩

lemma text_ne_nil (h : x.Proper) : x.text ≠ [] := by
  rw [text]
  split_ifs with hroot hne
  · simp
  · decide
  · obtain ⟨b, p, hp, -⟩ := intercalate_comps h hne
    simp [hp]

lemma isAbs_text (h : x.Proper) : isAbs x.text = x.rooted := by
  rw [text]
  split_ifs with hroot hne
  · rw [hroot]
    rfl
  · simp [isAbs, here, slash, hroot]
  · obtain ⟨b, p, hp, hb⟩ := intercalate_comps h hne
    simp [hp, isAbs, hb, hroot]

lemma pieces_text (h : x.Proper) : ∃ ds, pieces x.text = ds ++ x.comps ∧ ∀ d ∈ ds, Skipped d := by
  rw [text]
  split_ifs with hroot hne
  · have hpieces : pieces (slash :: [slash].intercalate x.comps)
        = [] :: pieces ([slash].intercalate x.comps) := pieces_append_slash [] _
    by_cases hnil : x.comps = []
    · refine ⟨[[], []], ?_, by simp [Skipped]⟩
      rw [hpieces, hnil]
      rfl
    · refine ⟨[[]], ?_, by simp [Skipped]⟩
      rw [hpieces, pieces_intercalate (fun c hc => h.slash_not_mem hc) hnil]
      rfl
  · refine ⟨[here], ?_, by simp [Skipped]⟩
    rw [hne]
    rfl
  · refine ⟨[], ?_, by simp⟩
    rw [pieces_intercalate (fun c hc => h.slash_not_mem hc) hne]
    rfl

lemma filter_pieces_text (h : x.Proper) :
    (pieces x.text).filter (fun c => ¬ Skipped c) = x.comps := by
  obtain ⟨ds, hpieces, hds⟩ := pieces_text h
  rw [hpieces, filter_append, filter_eq_nil_iff.mpr (by simpa using hds),
    nil_append, filter_eq_self]
  intro c hc
  obtain hc | hc := mem_append.mp hc
  · simpa [eq_of_mem_replicate hc] using not_skipped_up
  · simpa using (h.names c hc).not_skipped

end Lex

/-- The text says what it was written for. -/
theorem parse_text (h : x.Proper) : parse x.text = x := by
  obtain ⟨ds, hpieces, hds⟩ := Lex.pieces_text h
  rw [parse, hpieces, foldl_append, Lex.foldl_push_of_skipped hds, Lex.isAbs_text h, h.foldl_comps]

lemma text_inj (hx : x.Proper) (hy : y.Proper) (h : x.text = y.text) : x = y := by
  rw [← parse_text hx, h, parse_text hy]

lemma parse_append_slash (hp : p ≠ []) (q : Name) :
    parse (p ++ slash :: q) = (pieces q).foldl .push (parse p) := by
  rw [parse, pieces_append_slash, foldl_append, isAbs_append hp, ← parse]

lemma join_eq (hp : p ≠ []) (hq : q ≠ []) : join p q = ((pieces q).foldl .push (parse p)).text := by
  rw [join, if_neg hp, if_neg hq, clean, parse_append_slash hp]

/-- A path that begins with another one and a slash has its components first. -/
theorem isPrefix_of_text_isPrefix (hx : x.Proper) (hy : y.Proper)
    (h : x.text ++ [slash] <+: y.text) : x.rooted = y.rooted ∧ x.comps <+: y.comps := by
  obtain ⟨q, hq⟩ := h
  have htext : x.text ++ slash :: q = y.text := by simpa using hq
  have hrooted : x.rooted = y.rooted := by
    rw [← Lex.isAbs_text hx, ← Lex.isAbs_text hy, ← htext, isAbs_append (Lex.text_ne_nil hx)]
  refine ⟨hrooted, (pieces q).filter (fun c => ¬ Skipped c), ?_⟩
  rw [← Lex.filter_pieces_text hx, ← Lex.filter_pieces_text hy, ← htext, pieces_append_slash,
    filter_append]

/-! ## The last piece -/

namespace Lex

lemma rooted_parent (x : Lex) : x.parent.rooted = x.rooted := by
  rw [parent]
  split_ifs <;> rfl

lemma exists_last (h : x.Proper) :
    ∃ cs c, pieces x.text = cs ++ [c] ∧ slash ∉ c ∧
      cs.foldl push ⟨x.rooted, 0, []⟩ = x.parent := by
  obtain ⟨ds, hpieces, hds⟩ := pieces_text h
  have hslash : ∀ c ∈ pieces x.text, slash ∉ c := fun c hc => slash_not_mem_of_mem_pieces hc
  obtain hnil | ⟨cs, c, hcs⟩ := eq_nil_or_concat' x.comps
  · rw [hnil, append_nil] at hpieces
    obtain rfl | ⟨ds, d, rfl⟩ := eq_nil_or_concat' ds
    · exact absurd hpieces (pieces_ne_nil _)
    · refine ⟨ds, d, hpieces, hslash d (by simp [hpieces]), ?_⟩
      rw [foldl_push_of_skipped fun c hc => hds c (by simp [hc])]
      obtain ⟨hups, hnames⟩ : x.ups = 0 ∧ x.names = [] := by simpa [comps] using hnil
      simp [parent, hups, hnames]
  · have hparent : x.parent.comps = cs := by rw [comps_parent, hcs, dropLast_concat]
    refine ⟨ds ++ cs, c, by rw [hpieces, hcs, append_assoc], hslash c (by simp [hpieces, hcs]),
      ?_⟩
    rw [foldl_append, foldl_push_of_skipped hds, ← hparent, ← rooted_parent, h.parent.foldl_comps]

lemma length_names_le (h : x.Proper) : x.names.length ≤ x.text.length := by
  have hcomps : x.comps.length ≤ ([slash].intercalate x.comps).length := by
    refine length_le_intercalate fun c hc => ?_
    obtain hup | hname := mem_append.mp hc
    · simp [eq_of_mem_replicate hup, up]
    · exact (h.names c hname).ne_nil
  have hnames : x.names.length ≤ x.comps.length := by simp [comps]
  unfold text
  split_ifs with hroot hnil
  · rw [length_cons]
    omega
  · simp_all
  · omega

end Lex

lemma dir_text (h : x.Proper) : dir x.text = x.parent.text := by
  obtain ⟨cs, c, hpieces, hslash, hfold⟩ := Lex.exists_last h
  have hcs : ∀ d ∈ cs ++ [[]], slash ∉ d := by
    intro d hd
    obtain hd | hd := mem_append.mp hd
    · exact slash_not_mem_of_mem_pieces (p := x.text) (by simp [hpieces, hd])
    · simp [mem_singleton.mp hd]
  have habs : isAbs ([slash].intercalate (cs ++ [[]])) = x.rooted := by
    rw [← Lex.isAbs_text h, ← intercalate_pieces x.text, hpieces]
    by_cases hnil : cs = []
    · subst hnil
      cases c with
      | nil => rfl
      | cons b c => simpa [isAbs] using fun heq => hslash (by simp [heq])
    · rw [intercalate_concat hnil, intercalate_concat hnil]
      cases [slash].intercalate cs <;> rfl
  rw [dir, hpieces, dropLast_concat, clean, parse, pieces_intercalate hcs (by simp), habs,
    foldl_append, hfold]
  rfl

lemma base_text (h : x.Proper) (hc : IsName c) (hx : x.names = cs ++ [c]) : base x.text = c := by
  obtain ⟨ds, hpieces, -⟩ := Lex.pieces_text h
  rw [base, if_neg (Lex.text_ne_nil h), hpieces, Lex.comps, hx]
  simp [hc.ne_nil]

end

end Path
