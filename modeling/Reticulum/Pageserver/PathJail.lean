import Reticulum.Core.Links

/-!
# The jail of the page server

`resolveJailedPath` (`pkg/pageserver/path_jail.go`) resolves the links in the base directory and in
the requested path, and then compares the two **as strings**.  A base directory that is given
relative to the working directory and resolves to `..` is a prefix of `../..` as well, so a link in
it may lead out of it (`jail_left`).  This is the only way out: **`jailed_iff`**.
-/

namespace Reticulum

open Path Links Lex List

variable (T : Tree)

def evalSymlinks (p : Name) : Except Errno Name := (T.resolve p).map text

/-- The loop of `evalExistingAncestor`, with `n` passes at most (`evalExistingAncestor_eq`). -/
def ancestorLoop : ℕ → Name → Name → Option Name
  | 0, _, _ => none
  | n + 1, cur, suffix =>
    match evalSymlinks T cur with
    | .ok resolved => if suffix = [] then some resolved else some (join resolved suffix)
    | .error e =>
      if e ≠ .notExist then none
      else if dir cur = cur then none
      else ancestorLoop n (dir cur) (if suffix = [] then base cur else join (base cur) suffix)

def evalExistingAncestor (path : Name) : Option Name := ancestorLoop T (path.length + 1) path []

section

variable (baseDir : Name)

def Under (path : Name) : Prop := path = baseDir ∨ baseDir ++ [slash] <+: path

instance instDecidableUnder (path : Name) : Decidable (Under baseDir path) :=
  inferInstanceAs (Decidable (_ ∨ _))

def resolveJailedPath (joinedPath : Name) : Option Name :=
  let baseDir := clean baseDir
  let joinedPath := clean joinedPath
  if ¬ Under baseDir joinedPath then none
  else
    let resolvedBase :=
      match evalSymlinks T baseDir with
      | .ok resolved => resolved
      | .error _ => baseDir
    match evalExistingAncestor T joinedPath with
    | none => none
    | some resolved => if ¬ Under resolvedBase resolved then none else some resolved

def Jailed (joinedPath : Name) : Prop :=
  ∀ p l, resolveJailedPath T baseDir joinedPath = some p → T.Opens p l →
    ∃ B, T.Opens (clean baseDir) B ∧ B <+: l

/-- The base directory is resolved to `..`, `../..` and so on, and the path to one that goes up
further, and not back. -/
def Climbs (joinedPath : Name) : Prop :=
  ∃ b y, T.resolve (clean baseDir) = .ok b ∧ T.resolve (clean joinedPath) = .ok y ∧
    Under (clean baseDir) (clean joinedPath) ∧ (b.rooted = false ∧ b.names = [] ∧ 0 < b.ups) ∧
    (y.rooted = false ∧ b.ups < y.ups) ∧ ¬ b.place T.cwd <+: y.place T.cwd

end

section

variable {T} {x y b : Lex} {p q : Name} {l : List Name}

lemma outcome_resolve (p : Name) :
    T.Outcome (fun qs l => T.Reaches (if isAbs p then [] else T.cwd) (pieces p ++ qs) l)
      (fun qs => T.eval 255 ⟨isAbs p, 0, []⟩ (pieces p ++ qs)) (T.resolve p) := by
  have h := Tree.outcome_eval (T := T) 255 (Tree.dirs_nil (isAbs p))
    fun _ => slash_not_mem_of_mem_pieces (p := p)
  have hplace : (⟨isAbs p, 0, []⟩ : Lex).place T.cwd = if isAbs p then [] else T.cwd := by
    simp [place, root]
  rwa [hplace] at h

/-- **What is resolved is opened.** -/
lemma of_resolve (h : T.resolve p = .ok y) :
    y.Proper ∧ (T.Opens p l ↔ l = y.place T.cwd) ∧ (T.Opens y.text l ↔ l = y.place T.cwd) := by
  have hout := outcome_resolve (T := T) p
  rw [h] at hout
  obtain ⟨hdirs, hreach⟩ | ⟨hends, hreach⟩ := hout
  · have hnames : T.Reaches (y.root T.cwd) (y.names ++ []) l ↔ _ := hdirs.reaches
    refine ⟨hdirs.proper, by simpa [Tree.Opens, Tree.reaches_nil] using hreach [] l, ?_⟩
    simpa [Tree.opens_text hdirs.proper, Tree.reaches_nil] using hnames
  · have hnames : T.Reaches (y.root T.cwd) (y.names ++ []) l ↔ _ := hends.reaches
    refine ⟨hends.proper, by simpa [Tree.Opens] using hreach [] l, ?_⟩
    simpa [Tree.opens_text hends.proper] using hnames

lemma intercalate_ne_nil {c : Name} {rest : List Name} (h : ∀ d ∈ c :: rest, IsName d) :
    [slash].intercalate (c :: rest) ≠ [] := by
  have hc := (h c mem_cons_self).ne_nil
  cases rest <;> simp [hc]

lemma join_names {c : Name} {rest : List Name} (h : ∀ d ∈ c :: rest, IsName d) :
    (if [slash].intercalate rest = [] then c else join c ([slash].intercalate rest)) =
      [slash].intercalate (c :: rest) := by
  have hc := h c mem_cons_self
  cases rest with
  | nil => simp
  | cons d rest =>
    have hrest : ∀ e ∈ d :: rest, IsName e := fun e he => h e (mem_cons_of_mem c he)
    have habs : isAbs c = false := by
      cases c with
      | nil => rfl
      | cons b c => simpa [isAbs] using fun hb => hc.slash_not_mem (by simp [hb])
    have hparse : parse c = ⟨false, 0, [c]⟩ := by
      rw [parse, pieces_of_not_mem hc.slash_not_mem, habs]
      exact push_of_isName hc
    rw [if_neg (intercalate_ne_nil hrest), join_eq hc.ne_nil (intercalate_ne_nil hrest), hparse,
      pieces_intercalate (fun e he => (hrest e he).slash_not_mem) (by simp), foldl_push_names hrest]
    simp [text, comps]

lemma outcome_text (hx : x.Proper) :
    T.Outcome (fun qs l => T.Reaches (x.root T.cwd) (x.names ++ qs) l)
      (fun qs => T.eval 255 ⟨isAbs x.text, 0, []⟩ (pieces x.text ++ qs)) (T.resolve x.text) :=
  (outcome_resolve x.text).congr (fun _ _ => (Tree.reaches_text hx).symm) fun _ => rfl

lemma not_reaches (hx : x.Proper) (h : T.resolve x.text = .error .notExist) (qs : List Name) :
    ¬ T.Reaches (x.root T.cwd) (x.names ++ qs) l := by
  have hout := outcome_text (T := T) hx
  rw [h] at hout
  exact hout.2 rfl qs l

lemma not_opens_join {c : Name} {rest : List Name} (hx : x.Proper)
    (hrest : ∀ d ∈ c :: rest, IsName d) (hok : T.resolve x.text = .ok y)
    (hmissing : T.resolve (x.push c).text = .error .notExist) :
    ¬ T.Opens (join y.text ([slash].intercalate (c :: rest))) l := by
  have hy : y.Proper := (of_resolve (l := []) hok).1
  have hc := hrest c mem_cons_self
  have hz : ({ y with names := y.names ++ c :: rest } : Lex).Proper :=
    ⟨fun d hd => (mem_append.mp hd).elim (hy.names d) (hrest d), hy.ups⟩
  rw [join_eq (text_ne_nil hy) (intercalate_ne_nil hrest), parse_text hy,
    pieces_intercalate (fun d hd => (hrest d hd).slash_not_mem) (by simp),
    foldl_push_names hrest, Tree.opens_text hz]
  intro hopens
  have hout := outcome_text (T := T) hx
  rw [hok] at hout
  obtain ⟨hdirs, hreach⟩ | ⟨hends, -⟩ := hout
  · have hgone := not_reaches (l := l) (hx.push hc.slash_not_mem) hmissing rest
    rw [push_of_isName hc, append_assoc] at hgone
    exact hgone ((hreach (c :: rest) l).mpr (hdirs.reaches.mp hopens))
  · exact absurd (hends.reaches.mp hopens).1 (by simp)

/-- What only goes up is there. -/
lemma exists_last_of_notExist (hx : x.Proper) (h : T.resolve x.text = .error .notExist) :
    ∃ cs c, x.names = cs ++ [c] := by
  refine (eq_nil_or_concat' x.names).resolve_left fun hnil => ?_
  exact absurd (Tree.reaches_nil.mpr rfl) (by simpa [hnil] using not_reaches hx h [])

lemma ancestorLoop_add {n : ℕ} (hx : x.Proper) (hn : x.names.length < n) (extra : ℕ)
    (suffix : Name) :
    ancestorLoop T (n + extra) x.text suffix = ancestorLoop T n x.text suffix := by
  induction n generalizing x suffix with
  | zero => omega
  | succ n ih =>
    rw [Nat.succ_add, ancestorLoop, ancestorLoop, evalSymlinks]
    cases hres : T.resolve x.text with
    | ok y => rfl
    | error e =>
      dsimp only [Except.map]
      split_ifs with he hroot
      · rfl
      · rfl
      all_goals
        obtain ⟨cs, c, hcs⟩ := exists_last_of_notExist hx (not_not.mp he ▸ hres)
        rw [dir_text hx]
        refine ih hx.parent ?_ _
        simp [parent, hcs] at hn ⊢
        omega

/-- **The loop ends by itself**: each pass takes a name away, so the length of the path is enough,
and more passes make no difference. -/
lemma evalExistingAncestor_eq (p : Name) (extra : ℕ) :
    ancestorLoop T ((clean p).length + 1 + extra) (clean p) [] =
      evalExistingAncestor T (clean p) :=
  ancestorLoop_add (parse_proper p) (Nat.lt_succ_of_le (length_names_le (parse_proper p))) extra []

/-- **A path with an end that is missing leads nowhere.** -/
lemma ancestorLoop_spec {n : ℕ} {rest : List Name} (hx : x.Proper) (hrest : ∀ c ∈ rest, IsName c)
    (hmissing : ∀ c ∈ rest.head?, T.resolve (x.push c).text = .error .notExist)
    (h : ancestorLoop T n x.text ([slash].intercalate rest) = some p) :
    rest = [] ∧ (∃ y, T.resolve x.text = .ok y ∧ p = y.text) ∨ ∀ l, ¬ T.Opens p l := by
  induction n generalizing x rest with
  | zero => cases h
  | succ n ih =>
    rw [ancestorLoop, evalSymlinks] at h
    cases hres : T.resolve x.text with
    | ok y =>
      rw [hres] at h
      cases rest with
      | nil => exact .inl ⟨rfl, y, rfl, (Option.some.inj h).symm⟩
      | cons c rest =>
        dsimp only [Except.map] at h
        rw [if_neg (intercalate_ne_nil hrest)] at h
        rw [← Option.some.inj h]
        exact .inr fun l => not_opens_join hx hrest hres (hmissing c rfl)
    | error e =>
      rw [hres] at h
      dsimp only [Except.map] at h
      split at h
      · cases h
      next he =>
      split at h
      · cases h
      obtain rfl := not_not.mp he
      obtain ⟨cs, c, hcs⟩ := exists_last_of_notExist hx hres
      have hc := hx.names c (by simp [hcs])
      have hparent : x.parent = { x with names := cs } := by simp [parent, hcs]
      have hpush : x.parent.push c = x := by rw [hparent, push_of_isName hc, ← hcs]
      have hall : ∀ d ∈ c :: rest, IsName d := by simpa using ⟨hc, hrest⟩
      rw [dir_text hx, base_text hx hc hcs, join_names hall] at h
      refine (ih hx.parent hall ?_ h).imp (by simp) id
      rintro _ ⟨⟩
      rw [hpush, hres]

/-! ## Comparing strings -/

lemma under_of_isPrefix (hrooted : b.rooted = y.rooted) (hne : b.comps ≠ [])
    (h : b.comps <+: y.comps) : Under b.text y.text := by
  obtain ⟨qs, hqs⟩ := h
  by_cases hnil : qs = []
  · left
    rw [hnil, append_nil] at hqs
    rw [text, text, hqs, hrooted]
  · right
    have hny : y.comps ≠ [] := by simp [← hqs, hne]
    rw [text, text, if_neg hne, if_neg hny, ← hqs, intercalate_append hne hnil, hrooted]
    split_ifs <;> simp

lemma ups_of_isPrefix {k m : ℕ} {ns ms : List Name} (hns : up ∉ ns) (hms : up ∉ ms)
    (h : replicate k up ++ ns <+: replicate m up ++ ms) : k = m ∧ ns <+: ms ∨ k < m ∧ ns = [] := by
  induction k generalizing m with
  | zero =>
    cases m with
    | zero => exact .inl ⟨rfl, h⟩
    | succ m =>
      cases ns with
      | nil => exact .inr ⟨m.succ_pos, rfl⟩
      | cons c ns =>
        exact absurd (cons_prefix_cons.mp h).1 fun hc => hns (by simp [hc])
  | succ k ih =>
    cases m with
    | zero =>
      cases ms with
      | nil => simp [replicate_succ] at h
      | cons c ms => exact absurd (cons_prefix_cons.mp h).1 fun hc => hms (by simp [hc])
    | succ m =>
      simpa using ih (cons_prefix_cons.mp h).2

/-- **Inside, or further up.** -/
lemma place_of_under (hb : b.Proper) (hy : y.Proper) (h : Under b.text y.text) :
    b.place T.cwd <+: y.place T.cwd ∨
      (b.rooted = false ∧ b.names = [] ∧ 0 < b.ups) ∧ y.rooted = false ∧ b.ups < y.ups := by
  have hname {x : Lex} (hx : x.Proper) : up ∉ x.names := fun h => (hx.names up h).ne_up rfl
  obtain heq | hpre := h
  · rw [text_inj hy hb heq]
    exact .inl (prefix_refl _)
  obtain ⟨hrooted, hcomps⟩ := isPrefix_of_text_isPrefix hb hy hpre
  obtain ⟨hups, hnames⟩ | ⟨hlt, hnil⟩ := ups_of_isPrefix (hname hb) (hname hy) hcomps
  · left
    rw [place, place, root, root, hrooted, hups]
    exact (prefix_append_right_inj _).mpr hnames
  · have hyroot : y.rooted = false := by
      by_contra hroot
      simp [hy.ups (by simpa using hroot)] at hlt
    refine .inr ⟨⟨hrooted.trans hyroot, hnil, Nat.pos_of_ne_zero fun hzero => ?_⟩, hyroot, hlt⟩
    -- the working directory is written as a dot, which no other path begins with
    obtain ⟨k, hk⟩ := Nat.exists_eq_add_of_lt hlt
    have hup : y.comps = up :: (replicate (b.ups + k) up ++ y.names) := by
      rw [comps, hk, replicate_succ, cons_append]
    obtain ⟨t, ht⟩ : ∃ t, y.text = up ++ t := by
      rw [text, hup, hyroot]
      cases replicate (b.ups + k) up ++ y.names with
      | nil => exact ⟨[], rfl⟩
      | cons c cs => exact ⟨slash :: [slash].intercalate (c :: cs), by simp⟩
    have hdot : b.text = here := by simp [text, comps, hrooted.trans hyroot, hzero, hnil]
    rw [hdot, ht] at hpre
    simp [here, up, slash] at hpre

/-! ## The jail -/

lemma exists_resolve (h : Under p q) (hp : p ≠ []) (hy : T.resolve q = .ok y) :
    ∃ b, T.resolve p = .ok b := by
  obtain rfl | ⟨t, rfl⟩ := h
  · exact ⟨y, hy⟩
  · have hout := outcome_resolve (T := T) p
    cases hb : T.resolve p with
    | ok b => exact ⟨b, rfl⟩
    | error e =>
      rw [hb] at hout
      rw [Tree.resolve, append_assoc, singleton_append, isAbs_append hp, pieces_append_slash] at hy
      exact absurd ((hout.1 (pieces t)).symm.trans hy) (by simp)

/-- **The jail holds** unless the path climbs. -/
theorem jailed_iff (T : Tree) (baseDir joinedPath : Name) :
    Jailed T baseDir joinedPath ↔ ¬ Climbs T baseDir joinedPath := by
  have hbase := parse_proper baseDir
  have hjoined := parse_proper joinedPath
  constructor
  · rintro hjail ⟨b, y, hb, hy, hunder, ⟨hroot, hnames, hpos⟩, ⟨hyroot, hlt⟩, hout⟩
    have hresolved : Under b.text y.text := by
      refine under_of_isPrefix (hroot.trans hyroot.symm) (by simp [comps, hpos.ne']) ?_
      obtain ⟨k, hk⟩ := Nat.exists_eq_add_of_lt hlt
      rw [comps, comps, hnames, hk, Nat.add_assoc, replicate_add, append_nil, append_assoc]
      exact prefix_append _ _
    have hjailed : resolveJailedPath T baseDir joinedPath = some y.text := by
      simp [resolveJailedPath, hunder, evalSymlinks, hb, evalExistingAncestor, ancestorLoop, hy,
        Except.map, hresolved]
    obtain ⟨B, hB, hin⟩ := hjail _ _ hjailed ((of_resolve hy).2.2.mpr rfl)
    rw [(of_resolve hb).2.1.mp hB] at hin
    exact hout hin
  · intro hclimbs p l hp hopens
    simp only [resolveJailedPath] at hp
    split_ifs at hp with hunder
    cases hancestor : evalExistingAncestor T (clean joinedPath) with
    | none =>
      rw [hancestor] at hp
      cases hp
    | some resolved =>
      rw [hancestor] at hp
      dsimp only at hp
      split_ifs at hp with hresolved
      obtain rfl := Option.some.inj hp
      obtain ⟨-, y, hy, rfl⟩ | hnone :=
        @ancestorLoop_spec T _ _ _ [] hjoined (by simp) (by simp) hancestor
      · obtain ⟨b, hb⟩ := exists_resolve hunder (text_ne_nil hbase) hy
        obtain ⟨hyproper, -, hyopens⟩ := of_resolve hy
        obtain ⟨hbproper, hbopens, -⟩ := of_resolve hb
        rw [evalSymlinks, hb] at hresolved
        rw [hyopens.mp hopens]
        refine ⟨_, hbopens.mpr rfl, ?_⟩
        by_contra hout
        obtain hin | ⟨hups, hmore⟩ := place_of_under hbproper hyproper hresolved
        · exact hout hin
        · exact hclimbs ⟨b, y, hb, hy, hunder, hups, hmore, hout⟩
      · exact absurd hopens (hnone l)

end

/-- The process runs in `/h/w`; the link `/h/l` says `../s`, and the file `/s` is there. -/
def sideTree : Tree where
  node loc :=
    if loc = [] ∨ loc = [[104]] ∨ loc = [[104], [119]] then some .dir
    else if loc = [[104], [108]] then some (.link [46, 46, 47, 115])
    else if loc = [[115]] then some .file
    else none
  cwd := [[104], [119]]

/-- **The jail is left**: with the base directory `..`, the link `../l` in it is resolved to
`../../s`, and the file `/s` is opened, which is not in `/h`. -/
theorem jail_left :
    resolveJailedPath sideTree [46, 46] [46, 46, 47, 108] = some [46, 46, 47, 46, 46, 47, 115] ∧
      ¬ Jailed sideTree [46, 46] [46, 46, 47, 108] := by
  have hpath : resolveJailedPath sideTree [46, 46] [46, 46, 47, 108] =
      some [46, 46, 47, 46, 46, 47, 115] := by decide +kernel
  have hopened : sideTree.resolve [46, 46, 47, 46, 46, 47, 115] = .ok ⟨false, 2, [[115]]⟩ := by
    decide +kernel
  have hbase : sideTree.resolve (clean [46, 46]) = .ok ⟨false, 1, []⟩ := by decide +kernel
  refine ⟨hpath, fun hjail => ?_⟩
  obtain ⟨B, hB, hin⟩ := hjail _ [[115]] hpath ((of_resolve hopened).2.1.mpr (by decide))
  rw [(of_resolve hbase).2.1.mp hB] at hin
  exact absurd hin (by decide)

end Reticulum
