import Mathlib.Data.List.DropRight

/-!
# Text

A text is the list of its characters.  `trimSpace` is `strings.TrimSpace` of Go's standard library;
it leaves a text alone that begins and ends with something else (`trimSpace_eq_self`).
-/

namespace Text

/-- `unicode.IsSpace`. -/
def isSpace (c : Char) : Bool :=
  (9 ≤ c.toNat && c.toNat ≤ 13) || (0x2000 ≤ c.toNat && c.toNat ≤ 0x200A) ||
    [0x20, 0x85, 0xA0, 0x1680, 0x2028, 0x2029, 0x202F, 0x205F, 0x3000].contains c.toNat

def trimSpace (s : List Char) : List Char := (s.dropWhile isSpace).rdropWhile isSpace

lemma trimSpace_eq_self {s : List Char} (hhead : ∀ c ∈ s.head?, isSpace c = false)
    (hlast : ∀ c ∈ s.getLast?, isSpace c = false) : trimSpace s = s := by
  have hdrop : s.dropWhile isSpace = s := by
    cases s with
    | nil => rfl
    | cons c s => rw [List.dropWhile_cons_of_neg (by simp [hhead c rfl])]
  rw [trimSpace, hdrop, List.rdropWhile_eq_self_iff]
  intro hne
  simp [hlast _ (List.getLast?_eq_getLast_of_ne_nil hne)]

lemma forall_mem_intercalate {P : Char → Prop} {x : Char} {ls : List (List Char)} (hx : P x)
    (h : ∀ g ∈ ls, ∀ c ∈ g, P c) : ∀ c ∈ [x].intercalate ls, P c := by
  induction ls with
  | nil => simp
  | cons g ls ih =>
    have hg := h g List.mem_cons_self
    have hrest := ih fun g' hg' => h g' (List.mem_cons_of_mem g hg')
    cases ls with
    | nil => simpa using hg
    | cons g' ls =>
      simp only [List.intercalate, List.intersperse_cons_cons, List.flatten_cons,
        List.forall_mem_append,
        List.forall_mem_singleton] at hrest ⊢
      exact ⟨hg, hx, hrest⟩

end Text
