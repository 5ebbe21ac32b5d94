import Mathlib.Data.List.Basic

/-!
# Memory

A memory has a value at each address.  `read` takes a number of values from an address on, `write`
puts values there, and a memory that starts with a list is `load` of it.  What is written is read
back (`read_write`), and a place that is disjoint reads as before (`read_write_of_disjoint`).
-/

namespace Memory

universe u

variable {α : Type u} {m m' : ℕ → α} {i j n : ℕ} {l l' : List α}

def read (m : ℕ → α) (i n : ℕ) : List α := (List.range' i n).map m

def write (m : ℕ → α) (i : ℕ) (l : List α) : ℕ → α :=
  fun a => if i ≤ a then (l[a - i]?).getD (m a) else m a

def load (d : α) (l : List α) : ℕ → α := fun a => (l[a]?).getD d

@[simp] lemma length_read (m : ℕ → α) (i n : ℕ) : (read m i n).length = n := by
  simp [read]

lemma read_add (m : ℕ → α) (i n k : ℕ) : read m i (n + k) = read m i n ++ read m (i + n) k := by
  rw [read, read, read, ← List.map_append, List.range'_append_1]

lemma read_congr (h : ∀ a, i ≤ a → a < i + n → m a = m' a) : read m i n = read m' i n := by
  refine List.map_congr_left fun a ha => ?_
  obtain ⟨hi, hn⟩ := List.mem_range'_1.mp ha
  exact h a hi hn

lemma write_of_lt (h : j < i) : write m i l j = m j := by
  rw [write, if_neg (by omega)]

lemma write_of_le (h : i + l.length ≤ j) : write m i l j = m j := by
  rw [write]
  split
  · rw [List.getElem?_eq_none (by omega), Option.getD_none]
  · rfl

/-- **What is written is read back.** -/
lemma read_write (m : ℕ → α) (i : ℕ) (l : List α) : read (write m i l) i l.length = l := by
  refine List.ext_getElem (by simp) fun k hk hl => ?_
  simp only [read, List.getElem_map, List.getElem_range', Nat.one_mul]
  rw [write, if_pos (by omega), Nat.add_sub_cancel_left, List.getElem?_eq_getElem hl,
    Option.getD_some]

lemma read_write_of_disjoint (h : i + l.length ≤ j ∨ j + n ≤ i) :
    read (write m i l) j n = read m j n := by
  refine read_congr fun a hj hn => ?_
  obtain h | h := h
  · exact write_of_le (by omega)
  · exact write_of_lt (by omega)

lemma write_write (h : l.length = l'.length) : write (write m i l) i l' = write m i l' := by
  funext a
  by_cases hi : i ≤ a
  · by_cases hl : a - i < l'.length
    · simp [write, hi, hl]
    · rw [write_of_le (by omega), write_of_le (by omega), write_of_le (by omega)]
  · rw [write_of_lt (by omega), write_of_lt (by omega), write_of_lt (by omega)]

lemma load_read (d : α) (m : ℕ → α) {a : ℕ} (h : a < n) : load d (read m 0 n) a = m a := by
  have hlen : a < (read m 0 n).length := by rwa [length_read]
  rw [load, List.getElem?_eq_getElem hlen, Option.getD_some]
  simp [read]

/-! ## Blocks -/

def blocks (m : ℕ → α) (k : ℕ) : ℕ → ℕ → List (List α)
  | _, 0 => []
  | i, n + 1 => read m i k :: blocks m k (i + k) n

lemma flatten_blocks (m : ℕ → α) (k i n : ℕ) : (blocks m k i n).flatten = read m i (n * k) := by
  induction n generalizing i with
  | zero => simp [blocks, read]
  | succ n ih => rw [blocks, List.flatten_cons, ih, Nat.succ_mul, Nat.add_comm (n * k), read_add]

lemma blocks_congr {k : ℕ} (h : ∀ a, i ≤ a → a < i + n * k → m a = m' a) :
    blocks m k i n = blocks m' k i n := by
  induction n generalizing i with
  | zero => rfl
  | succ n ih =>
    rw [Nat.succ_mul] at h
    rw [blocks, blocks, read_congr fun a hi hk => h a hi (by omega),
      ih fun a hi hn => h a (by omega) (by omega)]

lemma length_of_mem_blocks {k : ℕ} (h : l ∈ blocks m k i n) : l.length = k := by
  induction n generalizing i with
  | zero => cases h
  | succ n ih =>
    obtain rfl | hmem := List.mem_cons.mp h
    · exact length_read m i k
    · exact ih hmem

end Memory
