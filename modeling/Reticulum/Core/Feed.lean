import Reticulum.Core.Run

/-!
# Machines that are fed

A machine reads symbols and puts out items: `step : σ → α → σ × List φ` takes a state and a symbol
to the next state and the items that are complete with it.  **`run`** feeds a list of symbols.

The symbols of a machine may themselves be lists of symbols of another one, as those of a decoder
are that reads a stream in **chunks**.  `run_chunks` says when the cuts do not matter.
-/

namespace Feed

universe u v w x

variable {σ τ : Type u} {α : Type v} {φ : Type w}

def andThen (r : σ × List φ) (k : σ → σ × List φ) : σ × List φ := ((k r.1).1, r.2 ++ (k r.1).2)

def run (step : σ → α → σ × List φ) : σ → List α → σ × List φ
  | s, [] => (s, [])
  | s, a :: as => andThen (step s a) fun s => run step s as

variable {step : σ → α → σ × List φ}

@[simp] lemma andThen_nil (s : σ) (k : σ → σ × List φ) : andThen (s, []) k = k s := rfl

lemma andThen_assoc (r : σ × List φ) (k l : σ → σ × List φ) :
    andThen (andThen r k) l = andThen r fun s => andThen (k s) l := by
  simp [andThen]

@[simp] lemma run_nil (s : σ) : run step s [] = (s, []) := rfl

@[simp] lemma run_cons (s : σ) (a : α) (as : List α) :
    run step s (a :: as) = andThen (step s a) fun s => run step s as := rfl

lemma run_singleton (s : σ) (a : α) : run step s [a] = step s a := by
  simp [andThen]

lemma run_append (s : σ) (as bs : List α) :
    run step s (as ++ bs) = andThen (run step s as) fun s => run step s bs := by
  induction as generalizing s with
  | nil => rfl
  | cons a as ih =>
    simp [ih, andThen_assoc]

/-- The state a run ends in does not depend on what is put out. -/
lemma run_fst (s : σ) (as : List α) :
    (run step s as).1 = Run.exec (fun s a => (step s a).1) s as := by
  induction as generalizing s with
  | nil => rfl
  | cons a as ih => exact ih (step s a).1

/-- **Cuts do not matter** where each chunk is read as its symbols are, one after the other. -/
theorem run_chunks {feed : σ → List α → σ × List φ} {P : σ → List α → Prop}
    (hfeed : ∀ s c, P s c → feed s c = run step s c) {s : σ} {cs : List (List α)}
    (h : Run.Along (fun s c => (feed s c).1) P s cs) : run feed s cs = run step s cs.flatten := by
  induction cs generalizing s with
  | nil => rfl
  | cons c cs ih =>
    obtain ⟨hc, hcs⟩ := (Run.along_cons _ _ _ _).1 h
    rw [hfeed s c hc] at hcs
    rw [run_cons, hfeed s c hc, List.flatten_cons, run_append, andThen, andThen, ih hcs]

lemma run_singletons {feed : σ → List α → σ × List φ} (hfeed : ∀ s a, feed s [a] = step s a)
    (s : σ) (as : List α) : run feed s (as.map fun a => [a]) = run step s as := by
  induction as generalizing s with
  | nil => rfl
  | cons a as ih =>
    simp [hfeed, ih]

/-- A machine that another one simulates, as long as the invariant holds, puts out the same. -/
theorem run_sim {step' : τ → α → τ × List φ} {f : σ → τ} {I : σ → Prop}
    (hsim : ∀ s a, I s → I (step s a).1 ∧ step' (f s) a = (f (step s a).1, (step s a).2))
    {s : σ} (hs : I s) (as : List α) :
    I (run step s as).1 ∧ run step' (f s) as = (f (run step s as).1, (run step s as).2) := by
  induction as generalizing s with
  | nil => exact ⟨hs, rfl⟩
  | cons a as ih =>
    obtain ⟨hI, heq⟩ := hsim s a hs
    obtain ⟨hrest, hrun⟩ := ih hI
    refine ⟨hrest, ?_⟩
    rw [run_cons, heq, andThen, hrun]
    rfl

lemma along_sim {step' : τ → α → τ × List φ} {f : σ → τ} {I : σ → Prop}
    (hsim : ∀ s a, I s → I (step s a).1 ∧ step' (f s) a = (f (step s a).1, (step s a).2))
    {P : σ → α → Prop} {Q : τ → α → Prop} (hPQ : ∀ s a, I s → Q (f s) a → P s a)
    {s : σ} (hs : I s) {as : List α} (h : Run.Along (fun t a => (step' t a).1) Q (f s) as) :
    Run.Along (fun s a => (step s a).1) P s as := by
  induction as generalizing s with
  | nil => exact Run.along_nil P s
  | cons a as ih =>
    obtain ⟨hI, heq⟩ := hsim s a hs
    simp only [Run.along_cons, heq] at h ⊢
    exact ⟨hPQ s a hs h.1, ih hI h.2⟩

/-- **A stream of frames** gives the contents of the frames, in order. -/
theorem run_flatMap {π : Type x} {G : σ → Prop} {frame : π → List α} {item : π → φ} {ps : List π}
    (hframe : ∀ s, G s → ∀ p ∈ ps, G (run step s (frame p)).1 ∧ (run step s (frame p)).2 = [item p])
    {s : σ} (hs : G s) : (run step s (ps.flatMap frame)).2 = ps.map item := by
  induction ps generalizing s with
  | nil => rfl
  | cons p ps ih =>
    obtain ⟨hG, hout⟩ := hframe s hs p List.mem_cons_self
    have hrest := ih (fun s hs q hq => hframe s hs q (List.mem_cons_of_mem p hq)) hG
    rw [List.flatMap_cons, run_append, andThen, hout, hrest]
    rfl

end Feed
