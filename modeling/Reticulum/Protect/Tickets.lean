import Reticulum.Core.Run

/-!
# Admission tickets

A protection engine (`pkg/protect`) bounds what is in use at a time.  A call that admits counts, and
returns a function that gives the place back when it is first called: **`TicketEngine.conserved`**.

Whether mode `auto` prevents is read twice by a call that finds no place.  If the engine has begun
to learn anew in between, the call admits after all and counts nothing.
-/

namespace Reticulum

inductive ProtectMode where
  | off
  | detect
  | prevent
  | auto
deriving DecidableEq

/-- What is counted: the connections of an interface, resources, and work in progress. -/
inductive TicketSlot where
  | conn (iface : String)
  | resource
  | crypto
  | handshake
deriving DecidableEq

/-- How many connections of an interface an engine that is off accepts. -/
def offModeMaxConns : ℕ := 8192

/-- An admission.  The release function of one that is not counted does nothing. -/
structure Ticket where
  slot : TicketSlot
  counted : Bool
  released : Bool

/-- An engine with its counters (for an engine that is off, those of the connections are `offConns`
in the source) and the tickets it has given out. -/
structure TicketEngine where
  mode : ProtectMode
  limit : TicketSlot → ℕ
  inUse : TicketSlot → ℕ
  tickets : List Ticket

/-- `shed`: memory or a cool-down refuses.  `armed` and `armedAfter`: mode `auto` prevents, when the
call looks under the lock and when it decides. -/
inductive TicketEvent where
  | request (slot : TicketSlot) (shed armed armedAfter : Bool)
  | release (n : ℕ)

namespace TicketEngine

def new (mode : ProtectMode) (limit : TicketSlot → ℕ) : TicketEngine :=
  ⟨mode, limit, fun _ => 0, []⟩

section

variable (e : TicketEngine)

/-- `enforcementMode() == ModePrevent`. -/
def enforces (armed : Bool) : Bool :=
  e.mode = .prevent ∨ e.mode = .auto ∧ armed

/-- A place is taken and a ticket given out. -/
def count (slot : TicketSlot) : TicketEngine :=
  { e with
    inUse := Function.update e.inUse slot (e.inUse slot + 1)
    tickets := e.tickets ++ [⟨slot, true, false⟩] }

/-- `Decision{Allow: true}` with a release function that does nothing. -/
def admitUncounted (slot : TicketSlot) : TicketEngine :=
  { e with tickets := e.tickets ++ [⟨slot, false, false⟩] }

/-- An engine that is off counts connections only. -/
def counts : ProtectMode → TicketSlot → Bool
  | .off, .conn _ => true
  | mode, _ => mode ≠ .off

/-- `AdmitConn`, `AdmitResource` and `admitSlot`, as far as they count. -/
def admitSlot (slot : TicketSlot) (shed armed armedAfter : Bool) : TicketEngine :=
  if !counts e.mode slot then e.admitUncounted slot
  else if e.mode = .off then
    if offModeMaxConns ≤ e.inUse slot then e else e.count slot
  else if shed then e
  else if e.limit slot ≤ e.inUse slot ∧ e.enforces armed then
    -- `decide` looks at the mode once more
    if e.enforces armedAfter then e else e.admitUncounted slot
  else e.count slot

/-- A call of the release function of a ticket, which only the first time does anything. -/
def release (n : ℕ) : TicketEngine :=
  match e.tickets[n]? with
  | some ⟨slot, counted, false⟩ =>
    { e with
      inUse := if counted then Function.update e.inUse slot (e.inUse slot - 1) else e.inUse
      tickets := e.tickets.set n ⟨slot, counted, true⟩ }
  | _ => e

def step : TicketEvent → TicketEngine
  | .request slot shed armed armedAfter => e.admitSlot slot shed armed armedAfter
  | .release n => e.release n

/-- The tickets that are admitted and not yet released. -/
def held (slot : TicketSlot) : ℕ :=
  e.tickets.countP fun t => t.slot = slot ∧ !t.released

structure Conserved (e : TicketEngine) : Prop where
  inUse_eq : ∀ slot, counts e.mode slot → e.inUse slot = e.held slot
  inUse_le : e.mode = .prevent → ∀ slot, e.inUse slot ≤ e.limit slot

/-- Mode `auto` does not begin to learn anew while a call is refused. -/
def Steady : TicketEvent → Prop
  | .request _ _ armed armedAfter => e.mode = .auto → armed = true → armedAfter = true
  | .release _ => True

end

/-- Besides: a ticket is counted if its kind is. -/
structure Inv (e : TicketEngine) : Prop extends Conserved e where
  counted : ∀ t ∈ e.tickets, t.counted = counts e.mode t.slot

variable {e : TicketEngine} {slot : TicketSlot}

lemma Inv.count (h : e.Inv) (hcounts : counts e.mode slot)
    (hroom : e.mode = .prevent → e.inUse slot < e.limit slot) : (e.count slot).Inv := by
  refine ⟨⟨fun t ht => ?_, fun hmode t => ?_⟩, fun t ht => ?_⟩
  · have heq := h.inUse_eq t ht
    rcases eq_or_ne t slot with rfl | hslot
    · simpa [count, held] using heq
    · simpa [TicketEngine.count, held, hslot, hslot.symm] using heq
  · simp only [TicketEngine.count, Function.update_apply]
    split_ifs with hslot
    · exact hslot ▸ hroom hmode
    · exact h.inUse_le hmode t
  · rcases List.mem_append.1 ht with hold | hnew
    · exact h.counted t hold
    · obtain rfl := List.mem_singleton.1 hnew
      exact hcounts.symm

lemma Inv.admitUncounted (h : e.Inv) (hcounts : counts e.mode slot = false) :
    (e.admitUncounted slot).Inv := by
  refine ⟨⟨fun t ht => ?_, h.inUse_le⟩, fun t ht => ?_⟩
  · have hne : slot ≠ t := by
      rintro rfl
      exact Bool.false_ne_true (hcounts.symm.trans ht)
    simpa [TicketEngine.admitUncounted, held, hne] using h.inUse_eq t ht
  · rcases List.mem_append.1 ht with hold | hnew
    · exact h.counted t hold
    · obtain rfl := List.mem_singleton.1 hnew
      exact hcounts.symm

lemma Inv.release (h : e.Inv) (n : ℕ) : (e.release n).Inv := by
  rw [TicketEngine.release]
  split
  · rename_i slot counted hn
    obtain ⟨hlt, hget⟩ := getElem?_eq_some_iff.1 hn
    have hcounted : counted = counts e.mode slot := h.counted _ (List.mem_of_getElem? hn)
    refine ⟨⟨fun t ht => ?_, fun hmode t => ?_⟩, fun t ht => ?_⟩
    · have heq := h.inUse_eq t ht
      rcases eq_or_ne t slot with rfl | hslot
      · simp_all [held, List.countP_set hlt]
      · simp only [ite_apply, Function.update_of_ne hslot, heq, held, List.countP_set hlt, hget]
        simp [hslot.symm]
    · have hle := h.inUse_le hmode t
      simp only [ite_apply, Function.update_apply]
      split_ifs with _ hslot
      · subst hslot
        exact Nat.sub_le_of_le_add (Nat.le_succ_of_le hle)
      · exact hle
      · exact hle
    · rcases List.mem_or_eq_of_mem_set ht with hold | rfl
      · exact h.counted t hold
      · exact hcounted
  · exact h

lemma enforces_of_steady {shed armed armedAfter : Bool}
    (hsteady : e.Steady (.request slot shed armed armedAfter)) (h : e.enforces armed) :
    e.enforces armedAfter := by
  simp only [enforces, decide_eq_true_eq] at h ⊢
  exact h.imp_right fun ⟨hauto, harmed⟩ => ⟨hauto, hsteady hauto harmed⟩

lemma Inv.step (h : e.Inv) (event : TicketEvent) (hsteady : e.Steady event) :
    (e.step event).Inv := by
  cases event with
  | request slot shed armed armedAfter =>
    rw [TicketEngine.step, admitSlot]
    split_ifs with hskip hoff hfull hshed hover hagain
    · exact h.admitUncounted (by simpa using hskip)
    · exact h
    · exact h.count (by simpa using hskip) fun hmode => by simp [hoff] at hmode
    · exact h
    · exact h
    · exact absurd (enforces_of_steady hsteady hover.2) hagain
    · refine h.count (by simpa using hskip) fun hmode => Nat.lt_of_not_le fun hle => ?_
      exact hover ⟨hle, by simp [enforces, hmode]⟩
  | release n => exact h.release n

/-- **Tickets are conserved**, and in prevent mode no counter exceeds its limit, in every run in
which mode `auto` does not begin to learn anew while a call is refused. -/
theorem conserved (mode : ProtectMode) (limit : TicketSlot → ℕ) (es : List TicketEvent)
    (hsteady : Run.Along step Steady (new mode limit) es) :
    Run.Always step Conserved (new mode limit) es := by
  have hnew : (new mode limit).Inv :=
    ⟨⟨fun _ _ => rfl, fun _ _ => Nat.zero_le _⟩, fun _ ht => by cases ht⟩
  have hinv := Run.always_of_along (I := Inv) (fun _ e h he => h.step e he) hnew hsteady
  exact hinv.mono fun _ h => h.toConserved

/-- One place: the second call is refused, the first ticket is released twice, and while the engine
learns, two more are admitted. -/
theorem conserved_of_double_release :
    let es := [.request .resource false true true, .request .resource false true true, .release 0,
      .release 0, .request .resource false false true, .request .resource false false false]
    (Run.exec step (new .auto fun _ => 1) (es.take 4)).inUse .resource = 0 ∧
      (Run.exec step (new .auto fun _ => 1) es).inUse .resource = 2 ∧
      Run.Always step Conserved (new .auto fun _ => 1) es := by
  refine ⟨by decide, by decide, conserved _ _ _ ?_⟩
  simp [Steady]

/-- An engine that is off admits a resource and does not count it. -/
theorem resource_not_counted :
    let e := Run.exec step (new .off fun _ => 1) [.request .resource false false false]
    e.held .resource = 1 ∧ e.inUse .resource = 0 := by
  decide

end TicketEngine

end Reticulum
