import Mathlib.Algebra.Group.Int.Defs
import Mathlib.Algebra.Group.Nat.Defs
import Mathlib.Data.List.GetD
import Mathlib.Order.PiLex
import Reticulum.Core.Text

/-!
# Versions

`VersionAtLeast` decides whether a peer runs a recent version (`pkg/discovery/discovery.go`).  The
components are read into integers of 64 bits and compared one by one; those that are missing count
as zero.  A component that does not fit wraps around (`wrapped_not_atLeast`).  Otherwise the order
is that of the numbers: `compared_iff_fits`.
-/

namespace Reticulum.Discovery

open List Text

/-- `strings.TrimPrefix` for one character. -/
def trimPrefix (x : Char) (s : List Char) : List Char := if s.head? = some x then s.tail else s

/-- `n = n*10 + int(c-'0')` for the digits in turn, in 64 bits. -/
def readDigits (ds : List Char) : ℤ :=
  ds.foldl (fun n c => (n * 10 + ((c.toNat : ℤ) - 48)).bmod (2 ^ 64)) 0

/-- The loop over the components, which ends at the first one that does not begin with a digit. -/
def readComponents : List (List Char) → List ℤ
  | [] => []
  | component :: rest =>
    let ds := component.takeWhile Char.isDigit
    if ds = [] then [] else readDigits ds :: readComponents rest

/-- Nothing if there is no component. -/
def versionTuple (version : List Char) : Option (List ℤ) :=
  let version := trimSpace version
  if version = [] then none
  else
    let out := readComponents ((trimPrefix 'V' (trimPrefix 'v' version)).splitOn '.')
    if out = [] then none else some out

/-- The loop over the components of the minimum. -/
def versionAtLeastLoop (v : List ℤ) : List ℤ → Bool
  | [] => true
  | m :: ms =>
    if v.headD 0 > m then true
    else if v.headD 0 < m then false
    else versionAtLeastLoop v.tail ms

def versionAtLeast (version minimum : List Char) : Bool :=
  match versionTuple version, versionTuple minimum with
  | some v, some m => versionAtLeastLoop v m
  | _, _ => false

/-! ## What a version says -/

/-- The number that the digits stand for. -/
def decimal (g : List Char) : ℕ := g.foldl (fun n c => n * 10 + (c.toNat - 48)) 0

/-- A version of groups of digits, perhaps after a `v`. -/
structure Version where
  v : Bool
  groups : List (List Char)
  ne_nil : groups ≠ []
  digits : ∀ g ∈ groups, g ≠ [] ∧ ∀ c ∈ g, c.isDigit = true

variable {a : Version}

namespace Version

def text (a : Version) : List Char := (if a.v then ['v'] else []) ++ ['.'].intercalate a.groups

/-- The components, and zero for those that are missing. -/
def component (a : Version) (i : ℕ) : ℕ := (a.groups.map decimal).getD i 0

/-- Every component is an integer of 64 bits. -/
def Fits (a : Version) : Prop := ∀ g ∈ a.groups, decimal g < 2 ^ 63

end Version

/-- What is read never exceeds the greatest integer of 64 bits. -/
lemma readDigits_lt (g : List Char) : readDigits g < 2 ^ 63 := by
  suffices h : ∀ n : ℤ, n < 2 ^ 63 →
      g.foldl (fun n c => (n * 10 + ((c.toNat : ℤ) - 48)).bmod (2 ^ 64)) n < 2 ^ 63 from
    h 0 (by decide)
  induction g with
  | nil => exact fun _ hn => hn
  | cons c g ih => exact fun n _ => ih _ (Int.bmod_lt (by decide))

lemma readDigits_eq {g : List Char} (hg : ∀ c ∈ g, c.isDigit) (hfit : decimal g < 2 ^ 63) :
    readDigits g = decimal g := by
  -- the number that has been read never exceeds the one that is read in the end
  suffices h : ∀ n : ℕ, g.foldl (fun n c => n * 10 + (c.toNat - 48)) n < 2 ^ 63 →
      g.foldl (fun (n) c => (n * 10 + ((c.toNat : ℤ) - 48)).bmod (2 ^ 64)) n =
        ((g.foldl (fun n c => n * 10 + (c.toNat - 48)) n : ℕ) : ℤ) ∧
      n ≤ g.foldl (fun n c => n * 10 + (c.toNat - 48)) n from (h 0 hfit).1
  clear hfit
  induction g with
  | nil => simp
  | cons c g ih =>
    intro n hn
    rw [foldl_cons] at hn ⊢
    obtain ⟨heq, hle⟩ := ih (fun d hd => hg d (mem_cons_of_mem c hd)) _ hn
    have hc : 48 ≤ c.toNat := (Char.isDigit_iff_toNat.1 (hg c mem_cons_self)).1
    have hcast : n * 10 + ((c.toNat : ℤ) - 48) = (n * 10 + (c.toNat - 48) : ℕ) := by omega
    rw [foldl_cons, hcast, Int.bmod_eq_of_le (by omega) (by omega)]
    exact ⟨heq, by omega⟩

lemma readComponents_eq {gs : List (List Char)} (hgs : ∀ g ∈ gs, g ≠ [] ∧ ∀ c ∈ g, c.isDigit) :
    readComponents gs = gs.map readDigits := by
  induction gs with
  | nil => rfl
  | cons g gs ih =>
    obtain ⟨hne, hg⟩ := hgs g mem_cons_self
    have htake : g.takeWhile Char.isDigit = g := takeWhile_eq_self_iff.2 hg
    rw [readComponents]
    simp only [htake, hne, if_false, map_cons]
    rw [ih fun g' hg' => hgs g' (mem_cons_of_mem g hg')]

namespace Version

/-- What is left without the `v` begins with a digit. -/
lemma exists_intercalate_eq (a : Version) :
    ∃ c rest, c.isDigit ∧ ['.'].intercalate a.groups = c :: rest := by
  obtain ⟨v, groups, hne, hdigits⟩ := a
  cases groups with
  | nil => contradiction
  | cons g gs =>
    obtain ⟨hg, hds⟩ := hdigits g mem_cons_self
    cases g with
    | nil => contradiction
    | cons c g => cases gs <;> exact ⟨c, _, hds c mem_cons_self, rfl⟩

lemma trimSpace_text (a : Version) : trimSpace a.text = a.text := by
  have hall : ∀ c ∈ a.text, isSpace c = false := by
    refine forall_mem_append.2 ⟨?_, ?_⟩
    · cases a.v <;> simp [isSpace]
    · refine forall_mem_intercalate rfl fun g hg c hc => ?_
      obtain ⟨hlow, hhigh⟩ := Char.isDigit_iff_toNat.1 ((a.digits g hg).2 c hc)
      simp only [Char.reduceToNat] at hlow hhigh
      simp [isSpace]
      omega
  exact trimSpace_eq_self (fun c hc => hall c (mem_of_mem_head? hc))
    (fun c hc => hall c (mem_of_mem_getLast? hc))

lemma versionTuple_text (a : Version) : versionTuple a.text = some (a.groups.map readDigits) := by
  obtain ⟨c, rest, hc, hrest⟩ := a.exists_intercalate_eq
  have hv : c ≠ 'v' ∧ c ≠ 'V' := by
    constructor <;> rintro rfl <;> contradiction
  have hne : a.text ≠ [] := by simp [text, hrest]
  have htrim : trimPrefix 'V' (trimPrefix 'v' a.text) = ['.'].intercalate a.groups := by
    cases h : a.v <;> simp [trimPrefix, text, h, hrest, hv]
  have hsplit : (['.'].intercalate a.groups).splitOn '.' = a.groups := by
    refine splitOn_intercalate '.' (fun g hg hdot => ?_) a.ne_nil
    exact absurd ((a.digits g hg).2 '.' hdot) (by decide)
  simp only [versionTuple, a.trimSpace_text, hne, htrim, hsplit, readComponents_eq a.digits]
  simp [a.ne_nil]

lemma versionTuple_of_fits (ha : a.Fits) :
    versionTuple a.text = some ((a.groups.map decimal).map (↑)) := by
  rw [versionTuple_text, map_map]
  exact congrArg some (map_congr_left fun g hg => readDigits_eq (a.digits g hg).2 (ha g hg))

end Version

/-- Sequences are compared lexicographically by their first terms, and then by the others. -/
lemma toLex_le_toLex_iff {x y : ℕ → ℕ} : toLex x ≤ toLex y ↔
    x 0 < y 0 ∨ x 0 = y 0 ∧ toLex (x <| · + 1) ≤ toLex (y <| · + 1) := by
  constructor
  · intro h
    rcases (Pi.apply_le_of_toLex (i := 0) h (by simp)).lt_or_eq with h0 | h0
    · exact .inl h0
    · refine .inr ⟨h0, not_lt.1 fun ⟨k, hk, hlt⟩ => not_lt.2 h ⟨k + 1, ?_, hlt⟩⟩
      rintro (_ | j) hj
      · exact h0.symm
      · exact hk j (by omega)
  · rintro (h0 | ⟨h0, h⟩)
    · exact le_of_lt ⟨0, by simp, h0⟩
    · refine not_lt.1 fun ⟨k, hk, hlt⟩ => ?_
      cases k with
      | zero => exact hlt.ne' h0
      | succ k => exact not_lt.2 h ⟨k, fun j hj => hk (j + 1) (by omega), hlt⟩

lemma versionAtLeastLoop_iff (v m : List ℕ) : versionAtLeastLoop (v.map (↑)) (m.map (↑)) ↔
      toLex (m.getD · 0) ≤ toLex (v.getD · 0) := by
  induction m generalizing v with
  | nil => simpa [versionAtLeastLoop] using Pi.toLex_monotone fun i => Nat.zero_le (v.getD i 0)
  | cons x m ih =>
    have hhead : (v.map ((↑) : ℕ → ℤ)).headD 0 = v.getD 0 0 := by cases v <;> rfl
    have htail : ∀ i, v.tail.getD i 0 = v.getD (i + 1) 0 := by cases v <;> simp
    have ih := ih v.tail
    simp only [htail] at ih
    rw [map_cons, versionAtLeastLoop, hhead, toLex_le_toLex_iff]
    simp only [getD_cons_zero, getD_cons_succ, ← ih]
    split_ifs with hgt hlt
    · simp only [true_iff]
      exact .inl (by omega)
    · simp only [false_iff]
      omega
    · have heq : x = v.getD 0 0 := by omega
      simp [heq]

lemma versionAtLeast_iff {b : Version} (ha : a.Fits) (hb : b.Fits) :
    versionAtLeast a.text b.text ↔ toLex b.component ≤ toLex a.component := by
  simp only [versionAtLeast, Version.versionTuple_of_fits ha, Version.versionTuple_of_fits hb]
  exact versionAtLeastLoop_iff _ _

/-- A version is compared as claimed with all versions whose components fit. -/
structure Version.Compared (a : Version) : Prop where
  numeric : ∀ b : Version, b.Fits →
    (versionAtLeast a.text b.text = true ↔ toLex b.component ≤ toLex a.component) ∧
      (versionAtLeast b.text a.text = true ↔ toLex a.component ≤ toLex b.component)
  total : ∀ b : Version, b.Fits →
    versionAtLeast a.text b.text = true ∨ versionAtLeast b.text a.text = true
  trans : ∀ b c : Version, b.Fits → c.Fits → versionAtLeast a.text b.text = true →
    versionAtLeast b.text c.text = true → versionAtLeast a.text c.text = true

lemma Version.Fits.compared (ha : a.Fits) : a.Compared where
  numeric b hb := ⟨versionAtLeast_iff ha hb, versionAtLeast_iff hb ha⟩
  total b hb := by
    rw [versionAtLeast_iff ha hb, versionAtLeast_iff hb ha]
    exact le_total _ _
  trans b c hb hc := by
    rw [versionAtLeast_iff ha hb, versionAtLeast_iff hb hc, versionAtLeast_iff ha hc]
    exact fun hab hbc => hbc.trans hab

/-! ### A version that is too great -/

/-- The greatest component that fits. -/
def greatest : List Char := "9223372036854775807".toList

lemma decimal_greatest : decimal greatest = 2 ^ 63 - 1 := by decide +kernel

lemma readDigits_greatest : readDigits greatest = 2 ^ 63 - 1 := by decide +kernel

lemma versionAtLeastLoop_append (l v m : List ℤ) :
    versionAtLeastLoop (l ++ v) (l ++ m) = versionAtLeastLoop v m := by
  induction l with
  | nil => rfl
  | cons x l ih => simp [versionAtLeastLoop, ih]

/-- Whatever is read, it is not as great as more components of the greatest number. -/
lemma versionAtLeastLoop_replicate {x : ℤ} (hx : 0 < x) {v : List ℤ} (hv : ∀ y ∈ v, y ≤ x) {n : ℕ}
    (hn : v.length < n) : versionAtLeastLoop v (replicate n x) = false := by
  induction n generalizing v with
  | zero => cases hn
  | succ n ih =>
    rw [replicate_succ, versionAtLeastLoop]
    cases v with
    | nil => simp [hx, hx.le]
    | cons y v =>
      obtain ⟨hy, hv⟩ := forall_mem_cons.1 hv
      simp [hy.not_gt, ih hv (Nat.lt_of_succ_lt_succ hn)]

/-- The components of `a` that fit, and from then on the greatest ones. -/
lemma exists_refused (ha : ¬ a.Fits) :
    ∃ b : Version, b.Fits ∧ versionAtLeast a.text b.text = false ∧
      toLex b.component < toLex a.component := by
  have hfind : (a.groups.find? fun g => decide (2 ^ 63 ≤ decimal g)).isSome := by
    simpa [Version.Fits] using ha
  obtain ⟨g, hg⟩ := Option.isSome_iff_exists.1 hfind
  obtain ⟨hgreat, pre, post, hgroups, hpre⟩ := find?_eq_some_iff_append.1 hg
  simp only [decide_eq_true_eq, Bool.not_eq_true', decide_eq_false_iff_not, not_le] at hgreat hpre
  have hdigits : ∀ g ∈ pre ++ replicate (post.length + 2) greatest,
      g ≠ [] ∧ ∀ c ∈ g, c.isDigit := by
    intro g' hg'
    rcases mem_append.1 hg' with hold | hnew
    · exact a.digits g' (hgroups ▸ mem_append_left _ hold)
    · rw [eq_of_mem_replicate hnew]
      exact ⟨by decide, all_eq_true.1 (by decide)⟩
  refine ⟨⟨false, pre ++ replicate (post.length + 2) greatest, by simp, hdigits⟩, ?_, ?_, ?_⟩
  · intro g' hg'
    rcases mem_append.1 hg' with hold | hnew
    · exact hpre g' hold
    · rw [eq_of_mem_replicate hnew, decimal_greatest]
      decide
  · simp only [versionAtLeast, Version.versionTuple_text, hgroups, map_append, map_replicate]
    rw [versionAtLeastLoop_append, readDigits_greatest]
    refine versionAtLeastLoop_replicate (by decide) (fun y hy => ?_) (by simp)
    obtain ⟨g', -, rfl⟩ := mem_map.1 hy
    exact Int.le_sub_one_of_lt (readDigits_lt g')
  · refine ⟨pre.length, fun j hj => ?_, ?_⟩
    · have hj : j < (pre.map decimal).length := by simpa using hj
      simp [Version.component, hgroups, getElem?_append_left hj]
    · have hlt : decimal greatest < decimal g := by
        rw [decimal_greatest]
        exact hgreat.trans_lt' (by decide)
      simpa [Version.component, hgroups, getD_append_right, replicate_succ] using hlt

/-- **Versions are compared by their numbers**, as the lexicographic order has it, where missing
components count as zero, totally and transitively: a version is so compared with all versions
whose components fit into 64 bits *exactly* if its own do. -/
theorem compared_iff_fits (a : Version) : a.Compared ↔ a.Fits := by
  refine ⟨fun h => by_contra fun ha => ?_, Version.Fits.compared⟩
  obtain ⟨b, hb, hrefused, hlt⟩ := exists_refused ha
  have htaken := (h.numeric b hb).1.2 hlt.le
  exact Bool.false_ne_true (hrefused.symm.trans htaken)

def oneNine : Version := ⟨false, [['1'], ['9'], ['3']], by simp, by simp⟩

/-- `9223372036854775808`, which is read as a negative number. -/
def wrapped : Version := ⟨false, ["9223372036854775808".toList], by simp, by simp⟩

theorem wrapped_not_atLeast : toLex oneNine.component ≤ toLex wrapped.component ∧
    versionAtLeast wrapped.text oneNine.text = false := by
  constructor
  · exact le_of_lt (show toLex _ < toLex _ from ⟨0, by simp, by decide⟩)
  · decide +kernel

end Reticulum.Discovery
