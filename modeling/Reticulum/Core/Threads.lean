import Mathlib.Data.List.Basic

/-!
# Threads with actions to do

A thread is given by the actions it has still to do, and a pool is a list of threads.  When a thread
takes its first action, others may take the place of it, and new threads may be started.
-/

namespace Threads

open List

universe u

variable {α : Type u} {ts : List (List α)} {a b : α} {n : ℕ} {script rest : List α}

def Pending (ts : List (List α)) (a : α) : Prop := a ∈ ts.flatten

def count (p : α → Bool) (ts : List (List α)) : ℕ := ts.flatten.countP p

@[simp] lemma pending_append (ts us : List (List α)) :
    Pending (ts ++ us) a ↔ Pending ts a ∨ Pending us a := by
  simp [Pending]

@[simp] lemma pending_cons : Pending (script :: ts) a ↔ a ∈ script ∨ Pending ts a := by
  simp [Pending]

@[simp] lemma not_pending_nil : ¬ Pending [] a := by
  simp [Pending]

@[simp] lemma count_append (p : α → Bool) (ts us : List (List α)) :
    count p (ts ++ us) = count p ts + count p us := by
  simp [count]

@[simp] lemma count_cons (p : α → Bool) :
    count p (script :: ts) = script.countP p + count p ts := by
  simp [count]

section

variable (h : ts[n]? = some (b :: rest))
include h

lemma exists_split :
    ∃ us vs, ts = us ++ (b :: rest) :: vs ∧
      ∀ script, ts.set n (script ++ rest) = us ++ (script ++ rest) :: vs := by
  obtain ⟨hn, hget⟩ := List.getElem?_eq_some_iff.mp h
  refine ⟨ts.take n, ts.drop (n + 1), ?_, fun script => set_eq_take_cons_drop _ hn⟩
  rw [← hget, getElem_cons_drop, take_append_drop]

lemma pending_head : Pending ts b := by
  obtain ⟨us, vs, rfl, -⟩ := exists_split h
  simp

lemma Pending.of_set (ha : Pending (ts.set n (script ++ rest)) a) : Pending ts a ∨ a ∈ script := by
  obtain ⟨us, vs, rfl, hset⟩ := exists_split h
  rw [hset] at ha
  simp only [pending_append, pending_cons, mem_append] at ha ⊢
  tauto

lemma Pending.set (ha : Pending ts a) (hne : a ≠ b) : Pending (ts.set n (script ++ rest)) a := by
  obtain ⟨us, vs, rfl, hset⟩ := exists_split h
  rw [hset]
  simp only [pending_append, pending_cons, mem_append, mem_cons] at ha ⊢
  tauto

lemma pending_set_of_mem (ha : a ∈ script) : Pending (ts.set n (script ++ rest)) a := by
  obtain ⟨us, vs, rfl, hset⟩ := exists_split h
  rw [hset]
  simp [ha]

lemma count_set (p : α → Bool) (script : List α) :
    count p (ts.set n (script ++ rest)) + (if p b then 1 else 0) =
      count p ts + script.countP p := by
  obtain ⟨us, vs, rfl, hset⟩ := exists_split h
  rw [hset]
  simp only [count_append, count_cons, countP_append, countP_cons]
  omega

end

end Threads
