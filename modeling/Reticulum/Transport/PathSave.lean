import Reticulum.Transport.PathPersist

/-!
# When the path table is saved

The path table is changed under the lock of the node, and saved in the background by one caller at a
time (`markPathTableDirty` and `savePathTable` in `pkg/transport/path_persist.go`).  A mutation
counts a **generation** up and sets a **dirty flag** afterwards; a save reads the generation, copies
the table, writes it, and clears the flag if the generation has not moved.

* A mutation that sets the flag between the comparison and the clearing is lost.
* A forced save that finds another save in progress returns at once.
* After an error nothing is saved any more, and the flag is clear.
* Some mutations do not mark the table, and loading it may leave records out.

There is nothing else: `mutation_lost`, `saves_keep_up`.
-/

namespace Reticulum

/-! ## Mutations and saves -/

/-- How far a mutation has got: the table has been changed, the generation has been counted up.
After that it sets the flag and is over. -/
inductive MutationStage where
  | changed
  | bumped
deriving DecidableEq

inductive SaveStage (τ : Type) where
  | locked
  | loaded (gen : ℕ)
  | snapped (gen : ℕ) (table : τ) (version : ℕ)
  | written (gen : ℕ)
  | clearing

/-- The save that has the lock.  `started` is the number of mutations made before it was called. -/
structure SaveCall (τ : Type) where
  force : Bool
  started : ℕ
  stage : SaveStage τ

inductive WriteOutcome where
  | ok
  | marshalFailed
  | writeFailed
deriving DecidableEq

/-- A node that saves its path table.  `made` counts the mutations of the table, `onDisk` those that
the file has; `forced` records for each forced save that has returned how many mutations had been
made when it was called and how many the file had when it returned. -/
structure PathSaving (τ : Type) where
  table : τ
  made : ℕ
  gen : ℕ
  dirty : Bool
  /-- persistence is off -/
  disabled : Bool
  disk : τ
  onDisk : ℕ
  mutation : Option MutationStage
  /-- the callers that have seen the flag and not yet tried the lock -/
  checked : ℕ
  saving : Option (SaveCall τ)
  forced : List (ℕ × ℕ)

/-- What happens.  `unmarked` is a mutation that neither counts the generation up nor sets the flag:
one by `ExpirePath`, `PrepareFreshPathRequest`, `DropAllViaRPC`, `UnregisterLink` or
`activatePendingPathsForInterface`. -/
inductive PathSavingEvent (τ : Type) where
  | mutate (f : τ → τ)
  | unmarked (f : τ → τ)
  | bump
  | mark
  | check
  | tryLock (force : Bool)
  | saveStep (outcome : WriteOutcome)

namespace PathSaving

variable {τ : Type}

def finish (s : PathSaving τ) (call : SaveCall τ) : PathSaving τ :=
  { s with
    saving := none
    forced := if call.force then s.forced ++ [(call.started, s.onDisk)] else s.forced }

def disablePathPersistence (s : PathSaving τ) : PathSaving τ :=
  { s with disabled := true, dirty := false }

/-- The first steps of `savePathTable`, up to the lock.  A forced save does not look at the flag. -/
def tryLock (force : Bool) (s : PathSaving τ) : PathSaving τ :=
  if force then
    if s.disabled ∨ s.saving.isSome then { s with forced := s.forced ++ [(s.made, s.onDisk)] }
    else { s with saving := some ⟨true, s.made, .locked⟩ }
  else if s.checked = 0 then s
  else if s.saving.isSome then { s with checked := s.checked - 1 }
  else { s with checked := s.checked - 1, saving := some ⟨false, s.made, .locked⟩ }

/-- The next step of the save that has the lock.  It waits with the copy of the table until no
mutation is under way. -/
def saveStep (outcome : WriteOutcome) (s : PathSaving τ) : PathSaving τ :=
  match s.saving with
  | none => s
  | some call =>
    match call.stage with
    | .locked => { s with saving := some { call with stage := .loaded s.gen } }
    | .loaded gen =>
      if s.mutation = none then
        { s with saving := some { call with stage := .snapped gen s.table s.made } }
      else s
    | .snapped gen table version =>
      match outcome with
      | .ok =>
        { s with
          disk := table
          onDisk := version
          saving := some { call with stage := .written gen } }
      | .marshalFailed => s.finish call
      | .writeFailed => s.disablePathPersistence.finish call
    | .written gen =>
      if s.gen = gen then { s with saving := some { call with stage := .clearing } }
      else s.finish call
    | .clearing => { s with dirty := false }.finish call

def step (s : PathSaving τ) : PathSavingEvent τ → PathSaving τ
  | .mutate f =>
    if s.mutation = none then
      { s with table := f s.table, made := s.made + 1, mutation := some .changed }
    else s
  | .unmarked f => if s.mutation = none then { s with table := f s.table } else s
  | .bump =>
    if s.mutation = some .changed then
      if s.disabled then { s with mutation := none }
      else { s with gen := s.gen + 1, mutation := some .bumped }
    else s
  | .mark => if s.mutation = some .bumped then { s with dirty := true, mutation := none } else s
  | .check => if !s.disabled && s.dirty then { s with checked := s.checked + 1 } else s
  | .tryLock force => s.tryLock force
  | .saveStep outcome => s.saveStep outcome

/-- A node that has made `table` of the file.  Loading leaves out the records that are too old, and
those of interfaces that are not registered. -/
def start (disk table : τ) : PathSaving τ where
  table
  made := 0
  gen := 0
  dirty := false
  disabled := false
  disk
  onDisk := 0
  mutation := none
  checked := 0
  saving := none
  forced := []

/-! ## What is expected of a save -/

/-- No mutation is lost: if nothing is under way and the flag is clear, the file has the current
table; and a forced save has returned with all earlier mutations in the file. -/
structure Safe (s : PathSaving τ) : Prop where
  clean : s.saving = none → s.mutation = none → s.dirty = false → s.disk = s.table
  forced : ∀ p ∈ s.forced, p.1 ≤ p.2

def clears : Option (SaveCall τ) → Bool
  | some ⟨_, _, .clearing⟩ => true
  | _ => false

/-- The step does not set the flag between the comparison and the clearing, does not force a save
while there is another and something to save, changes nothing without marking it, and does not
fail. -/
def orderly (s : PathSaving τ) : PathSavingEvent τ → Prop
  | .unmarked f => f s.table = s.table
  | .mark => clears s.saving = false
  | .tryLock true => s.saving.isNone = true ∨ s.made ≤ s.onDisk
  | .saveStep outcome => outcome = .ok
  | _ => True

def completed (s : PathSaving τ) : ℕ := if s.mutation = none then s.made else s.made - 1

/-- The comparison of the generations is right: if the generation has not moved since it was read,
all mutations that are over are among the first `version`. -/
structure Compares (s : PathSaving τ) (gen version : ℕ) : Prop where
  le : gen ≤ s.gen
  eq : s.gen = gen → s.completed ≤ version
  bumped : s.mutation = some .bumped → gen < s.gen

def Progress (s : PathSaving τ) (call : SaveCall τ) : Prop :=
  match call.stage with
  | .locked => call.started ≤ s.made
  | .loaded gen => call.started ≤ s.made ∧ gen ≤ s.gen
  | .snapped gen table version =>
    call.started ≤ version ∧ s.onDisk ≤ version ∧ version ≤ s.made ∧
      (version = s.made → table = s.table) ∧ s.Compares gen version
  | .written gen => call.started ≤ s.onDisk ∧ s.Compares gen s.onDisk
  | .clearing => call.started ≤ s.onDisk ∧ s.completed ≤ s.onDisk

structure Inv (s : PathSaving τ) : Prop where
  enabled : s.disabled = false
  le : s.onDisk ≤ s.made
  current : s.onDisk = s.made → s.disk = s.table
  clean : s.dirty = false → s.completed ≤ s.onDisk
  forced : ∀ p ∈ s.forced, p.1 ≤ p.2
  call : ∀ call, s.saving = some call → s.Progress call

section

variable {s : PathSaving τ} {call : SaveCall τ}

lemma Inv.safe (h : s.Inv) : s.Safe where
  clean := by
    intro _ hmutation hdirty
    have hle := h.clean hdirty
    rw [completed, if_pos hmutation] at hle
    exact h.current (le_antisymm h.le hle)
  forced := h.forced

lemma inv_start (table : τ) : (start table table).Inv where
  enabled := rfl
  le := le_refl _
  current := fun _ => rfl
  clean := fun _ => le_refl _
  forced := fun p hp => absurd hp List.not_mem_nil
  call := by
    intro call hcall
    cases hcall

/-! ## The steps of a mutation -/

/-- A step that changes neither the file nor what has been forced, and lets neither the number of
mutations nor the generation go back, keeps a save in order if it keeps the comparison right. -/
lemma Progress.mono {s' : PathSaving τ} (h : s.Progress call) (hdisk : s'.onDisk = s.onDisk)
    (hmade : s.made ≤ s'.made) (hgen : s.gen ≤ s'.gen)
    (htable : s'.made = s.made → s'.table = s.table)
    (hcompares : ∀ gen version, s.Compares gen version → s'.Compares gen version)
    (hcompleted : call.stage = .clearing → s'.completed ≤ s.completed) : s'.Progress call := by
  obtain ⟨force, started, stage⟩ := call
  cases stage with
  | locked => exact le_trans h hmade
  | loaded gen => exact ⟨h.1.trans hmade, h.2.trans hgen⟩
  | snapped gen table version =>
    obtain ⟨hstarted, hle, hversion, heq, hcomp⟩ := h
    refine ⟨hstarted, hdisk ▸ hle, hversion.trans hmade, ?_, hcompares gen version hcomp⟩
    intro hlast
    have hsame : s'.made = s.made := le_antisymm (hlast ▸ hversion) hmade
    rw [htable hsame]
    exact heq (hlast.trans hsame)
  | written gen =>
    refine ⟨hdisk ▸ h.1, ?_⟩
    rw [hdisk]
    exact hcompares gen _ h.2
  | clearing =>
    refine ⟨hdisk ▸ h.1, ?_⟩
    rw [hdisk]
    exact (hcompleted rfl).trans h.2

lemma Progress.congr {s' : PathSaving τ} (h : s.Progress call) (hdisk : s'.onDisk = s.onDisk)
    (hmade : s'.made = s.made) (hgen : s'.gen = s.gen) (htable : s'.table = s.table)
    (hmutation : s'.mutation = s.mutation) : s'.Progress call := by
  have hcompleted : s'.completed = s.completed := by
    rw [completed, completed, hmade, hmutation]
  refine h.mono hdisk hmade.ge hgen.ge (fun _ => htable) ?_ fun _ => hcompleted.le
  intro gen version hcomp
  refine ⟨hgen ▸ hcomp.le, ?_, ?_⟩
  · rw [hgen, hcompleted]
    exact hcomp.eq
  · rw [hgen, hmutation]
    exact hcomp.bumped

lemma Inv.mutate (h : s.Inv) (f : τ → τ) : (s.step (.mutate f)).Inv := by
  show (if s.mutation = none then _ else s).Inv
  split
  · rename_i hidle
    have hcompleted :
        ({ s with table := f s.table, made := s.made + 1, mutation := some .changed } :
        PathSaving τ).completed = s.completed := by
      simp [completed, hidle]
    refine ⟨h.enabled, h.le.trans (Nat.le_succ _), ?_, ?_, h.forced, ?_⟩
    · intro hdisk
      have hle := h.le
      exact absurd (show s.onDisk = s.made + 1 from hdisk) (by omega)
    · intro hdirty
      rw [hcompleted]
      exact h.clean hdirty
    · intro call hcall
      refine (h.call call hcall).mono rfl (Nat.le_succ _) le_rfl ?_ ?_ fun _ => hcompleted.le
      · intro hmade
        exact absurd (show s.made + 1 = s.made from hmade) (by omega)
      · intro gen version hcomp
        refine ⟨hcomp.le, fun hgen => ?_, fun hbumped => by cases hbumped⟩
        rw [hcompleted]
        exact hcomp.eq hgen
  · exact h

lemma Inv.bump (h : s.Inv) : (s.step .bump).Inv := by
  show (if s.mutation = some .changed then _ else s).Inv
  split
  · rename_i hchanged
    have hon : ¬ s.disabled := by
      rw [h.enabled]
      exact Bool.false_ne_true
    rw [if_neg hon]
    have hcompleted : ({ s with gen := s.gen + 1, mutation := some .bumped } :
        PathSaving τ).completed = s.completed := by
      simp [completed, hchanged]
    refine { h with clean := ?_, call := ?_ }
    · intro hdirty
      rw [hcompleted]
      exact h.clean hdirty
    · intro call hcall
      refine (h.call call hcall).mono rfl le_rfl (Nat.le_succ _) (fun _ => rfl) ?_
        fun _ => hcompleted.le
      -- from now on the generation is not the one that was read
      intro gen version hcomp
      have hle := hcomp.le
      refine ⟨hle.trans (Nat.le_succ _), fun hgen => ?_, fun _ => Nat.lt_succ_of_le hle⟩
      exact absurd (show s.gen + 1 = gen from hgen) (by omega)
  · exact h

lemma Inv.mark (h : s.Inv) (horderly : clears s.saving = false) : (s.step .mark).Inv := by
  show (if s.mutation = some .bumped then _ else s).Inv
  split
  · rename_i hbumped
    refine { h with clean := ?_, call := ?_ }
    · intro hdirty
      cases hdirty
    intro call hcall
    refine (h.call call hcall).mono rfl le_rfl le_rfl (fun _ => rfl) ?_ ?_
    · intro gen version hcomp
      have hlt := hcomp.bumped hbumped
      refine ⟨hcomp.le, fun hgen => ?_, fun hnone => by cases hnone⟩
      exact absurd (show s.gen = gen from hgen) (by omega)
    · intro hstage
      obtain ⟨force, started, stage⟩ := call
      subst hstage
      rw [hcall] at horderly
      cases horderly
  · exact h

/-! ## The steps of a save -/

lemma Inv.finish (h : s.Inv) (hcall : call.force → call.started ≤ s.onDisk) :
    (s.finish call).Inv := { h with
  forced := by
    intro p hp
    by_cases hforce : call.force
    · rw [PathSaving.finish, if_pos hforce] at hp
      rcases List.mem_append.1 hp with hp | hp
      · exact h.forced p hp
      · rw [List.mem_singleton.1 hp]
        exact hcall hforce
    · rw [PathSaving.finish, if_neg hforce] at hp
      exact h.forced p hp
  call := by
    intro call' hcall'
    cases hcall' }

lemma Inv.tryLock (h : s.Inv) (force : Bool) (horderly : s.orderly (.tryLock force)) :
    (s.tryLock force).Inv := by
  unfold PathSaving.tryLock
  cases force with
  | true =>
    rw [if_pos rfl]
    split
    · rename_i hbusy
      refine { h with
        forced := ?_
        call := fun call hcall => (h.call call hcall).congr rfl rfl rfl rfl rfl }
      have hmade : s.made ≤ s.onDisk := by
        refine horderly.resolve_left ?_
        intro hnone
        rcases hbusy with hoff | hsaving
        · rw [h.enabled] at hoff
          cases hoff
        · rw [Option.isNone_iff_eq_none.1 hnone] at hsaving
          cases hsaving
      intro p hp
      rcases List.mem_append.1 hp with hp | hp
      · exact h.forced p hp
      · rw [List.mem_singleton.1 hp]
        exact hmade
    · refine { h with call := ?_ }
      rintro _ ⟨⟩
      exact le_refl s.made
  | false =>
    rw [if_neg Bool.false_ne_true]
    split
    · exact h
    split
    · exact { h with call := fun call hcall => (h.call call hcall).congr rfl rfl rfl rfl rfl }
    · refine { h with call := ?_ }
      rintro _ ⟨⟩
      exact le_refl s.made

lemma Inv.saveStep (h : s.Inv) : (s.saveStep .ok).Inv := by
  unfold PathSaving.saveStep
  cases hsaving : s.saving with
  | none => exact h
  | some call =>
    have hcall := h.call call hsaving
    obtain ⟨force, started, stage⟩ := call
    cases stage with
    | locked =>
      refine { h with call := ?_ }
      rintro _ ⟨⟩
      exact ⟨hcall, le_refl s.gen⟩
    | loaded gen =>
      show (if s.mutation = none then _ else s).Inv
      split
      · rename_i hidle
        refine { h with call := ?_ }
        rintro _ ⟨⟩
        refine ⟨hcall.1, h.le, le_refl s.made, fun _ => rfl, hcall.2, fun _ => ?_, ?_⟩
        · show (if s.mutation = none then s.made else s.made - 1) ≤ s.made
          rw [if_pos hidle]
        · intro hbumped
          rw [hidle] at hbumped
          cases hbumped
      · exact h
    | snapped gen table version =>
      obtain ⟨hstarted, hdisk, hversion, htable, hcomp⟩ := hcall
      refine ⟨h.enabled, hversion, htable, ?_, h.forced, ?_⟩
      · intro hdirty
        exact (h.clean hdirty).trans hdisk
      · rintro _ ⟨⟩
        exact ⟨hstarted, hcomp.le, hcomp.eq, hcomp.bumped⟩
    | written gen =>
      show (if s.gen = gen then _ else _ : PathSaving τ).Inv
      split
      · rename_i hgen
        refine { h with call := ?_ }
        rintro _ ⟨⟩
        exact ⟨hcall.1, hcall.2.eq hgen⟩
      · exact h.finish fun _ => hcall.1
    | clearing =>
      have hclear : ({ s with dirty := false } : PathSaving τ).Inv := by
        refine { h with clean := fun _ => hcall.2, call := ?_ }
        intro call' hcall'
        exact (h.call call' hcall').congr rfl rfl rfl rfl rfl
      exact hclear.finish fun _ => hcall.1

lemma Inv.step (h : s.Inv) (e : PathSavingEvent τ) (horderly : s.orderly e) : (s.step e).Inv := by
  cases e with
  | mutate f => exact h.mutate f
  | unmarked f =>
    have hsame : f s.table = s.table := horderly
    simp only [PathSaving.step, hsame]
    split_ifs <;> exact h
  | bump => exact h.bump
  | mark => exact h.mark horderly
  | check =>
    show (if !s.disabled && s.dirty then _ else s).Inv
    split
    · exact { h with call := fun call hcall => (h.call call hcall).congr rfl rfl rfl rfl rfl }
    · exact h
  | tryLock force => exact h.tryLock force horderly
  | saveStep outcome =>
    subst horderly
    exact h.saveStep

end

/-- **No mutation is lost in an orderly run**, if loading has left nothing out. -/
theorem saves_keep_up (disk table : τ) (hload : table = disk) (es : List (PathSavingEvent τ))
    (h : Run.Along step orderly (start disk table) es) :
    Run.Always step Safe (start disk table) es := by
  subst hload
  have hinv : Run.Always step Inv (start table table) es := by
    refine Run.always_of_along ?_ (inv_start table) h
    intro s e hs horderly
    exact hs.step e horderly
  exact hinv.mono fun s hs => hs.safe

def learn : PathNode → PathNode := fun _ => .onePath PathNode.announcedPath

/-- A save compares the generation, the node learns a path, and the save clears the flag. -/
def clearedLate : PathSaving PathNode :=
  Run.exec step (start .empty .empty)
    [.tryLock true, .saveStep .ok, .saveStep .ok, .saveStep .ok, .saveStep .ok,
      .mutate learn, .bump, .mark, .saveStep .ok]

/-- While a save is writing, the node learns a path and another save is forced. -/
def forcedLate : PathSaving PathNode :=
  Run.exec step (start .empty .empty)
    [.tryLock true, .saveStep .ok, .saveStep .ok, .mutate learn, .bump, .mark, .tryLock true]

/-- In the first run the flag is clear, and the file does not have the path.  In the second the
forced save had one mutation to save, and has returned with none in the file. -/
theorem mutation_lost :
    clearedLate.saving.isNone = true ∧ clearedLate.mutation = none ∧ clearedLate.dirty = false ∧
      clearedLate.disk.paths.keys = [] ∧
      clearedLate.table.paths.keys = [pathMapKey (List.replicate 16 1)] ∧
      forcedLate.forced = [(1, 0)] :=
  ⟨rfl, rfl, rfl, rfl, rfl, rfl⟩

theorem learn_saved :
    Run.Always step Safe (start PathNode.empty .empty)
      [.mutate learn, .bump, .mark, .check, .tryLock false, .saveStep .ok, .saveStep .ok,
        .saveStep .ok, .saveStep .ok, .saveStep .ok, .unmarked id, .tryLock true] := by
  apply saves_keep_up _ _ rfl
  simp only [Run.along_cons, Run.along_nil, orderly, and_true, true_and]
  exact ⟨rfl, rfl, .inl rfl⟩

end PathSaving

end Reticulum
