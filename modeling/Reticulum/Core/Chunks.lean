import Mathlib.Data.List.Basic

/-!
# Cutting a list into chunks

A long list is sent as **chunks** of a fixed width, the last one possibly shorter.  `slice k l i` is
chunk number `i` of `l` and `count k n` the number of chunks of a list of length `n`.
-/

namespace Chunks

open List

universe u

variable {α : Type u} {k : ℕ} {n : ℕ}

/-- Chunk number `i` of `l`, of width `k` except perhaps at the end. -/
def slice (k : ℕ) (l : List α) (i : ℕ) : List α := (l.drop (i * k)).take k

def count (k n : ℕ) : ℕ := (n + k - 1) / k

@[simp] lemma length_slice (k : ℕ) (l : List α) (i : ℕ) :
    (slice k l i).length = min k (l.length - i * k) := by
  simp [slice]

lemma le_count_mul (hk : 0 < k) (n : ℕ) : n ≤ count k n * k := by
  have h := Nat.div_add_mod (n + k - 1) k
  have hlt := Nat.mod_lt (n + k - 1) hk
  rw [count, Nat.mul_comm]
  omega

lemma count_le_iff (hk : 0 < k) {m : ℕ} : count k n ≤ m ↔ n ≤ m * k := by
  rw [count, ← Nat.lt_succ_iff, Nat.div_lt_iff_lt_mul hk, Nat.succ_mul]
  omega

lemma mul_lt_of_lt_count {i : ℕ} (hi : i < count k n) : i * k < n := by
  rcases Nat.eq_zero_or_pos k with rfl | hk
  · simp [count] at hi
  · have h := (Nat.le_div_iff_mul_le hk).1 (Nat.succ_le_of_lt hi)
    rw [Nat.succ_mul] at h
    omega

lemma slice_ne_nil {l : List α} {i : ℕ} (hi : i < count k l.length) : slice k l i ≠ [] := by
  have hlt := mul_lt_of_lt_count hi
  have hk : 0 < k := by
    rcases Nat.eq_zero_or_pos k with rfl | hk
    · simp [count] at hi
    · exact hk
  rw [← length_pos_iff_ne_nil, length_slice]
  omega

lemma flatMap_slice_range (k : ℕ) (l : List α) (m : ℕ) :
    (range m).flatMap (slice k l) = l.take (m * k) := by
  induction m with
  | zero => simp
  | succ m ih =>
    rw [range_succ, flatMap_append, ih, Nat.succ_mul, take_add]
    simp [slice]

/-- **All chunks join to the list.** -/
lemma flatMap_slice (hk : 0 < k) (l : List α) :
    (range (count k l.length)).flatMap (slice k l) = l := by
  rw [flatMap_slice_range, take_of_length_le (le_count_mul hk l.length)]

lemma length_flatMap_range {f : ℕ → List α} (hf : ∀ i < n, (f i).length = k) :
    ((range n).flatMap f).length = n * k := by
  induction n with
  | zero => simp
  | succ n ih =>
    rw [range_succ, flatMap_append, length_append, ih fun i hi => hf i (Nat.lt_succ_of_lt hi)]
    simp [hf n (Nat.lt_succ_self n), Nat.succ_mul]

/-- **The chunks of joined blocks are the blocks.** -/
lemma slice_flatMap {i : ℕ} {f : ℕ → List α} (hf : ∀ i < n, (f i).length = k) (hi : i < n) :
    slice k ((range n).flatMap f) i = f i := by
  induction n with
  | zero => omega
  | succ n ih =>
    have hlen := length_flatMap_range fun j hj => hf j (Nat.lt_succ_of_lt hj)
    rw [range_succ, flatMap_append, slice]
    rcases Nat.lt_succ_iff_lt_or_eq.1 hi with hlt | rfl
    · have hle : i * k + k ≤ n * k := by
        have := Nat.mul_le_mul_right k (Nat.succ_le_of_lt hlt)
        rwa [Nat.succ_mul] at this
      rw [drop_append_of_le_length (by omega), take_append_of_le_length]
      · exact ih (fun j hj => hf j (Nat.lt_succ_of_lt hj)) hlt
      · rw [length_drop]
        omega
    · rw [← hlen, drop_left, flatMap_singleton]
      exact take_of_length_le (Nat.le_of_eq (hf i (Nat.lt_succ_self i)))

end Chunks
