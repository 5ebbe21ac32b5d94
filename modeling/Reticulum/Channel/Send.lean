import Reticulum.Channel.Receive

/-!
# The sending side

`Send` takes a sequence number, hands the envelope to the link and, if the link transmitted it,
keeps the envelope in `txRing` until its packet is proved.  `Sender.step` has one event per stretch
of code under the channel's lock, so that every interleaving of `Send` with the two callbacks is a
list of events.

The callback for timeouts gives an envelope up when it is out of tries or cannot be resent, and the
channel carries on.  This is exactly what opens a hole in the sequence (**`noHole_iff`**).
-/

namespace Reticulum

open List Channel

namespace Channel

variable {M P : Type}

/-! ## What each operation does to the outstanding envelopes -/

section

variable (c : Channel M P) (rtt : ℚ)

def outstanding : List (P × UInt16) :=
  c.txRing.map fun env => (env.packet, env.sequence)

lemma reserve_ok [MessageBase M] {o : Outlet} {c c' : Channel M P} {msg : M} {r : Reservation M}
    (h : reserve o c msg = .ok (r, c')) :
    r.sequence = c.nextSequence ∧ c' = { c with nextSequence := nextSeq c.nextSequence } ∧
      ∃ body, packEnvelope (MessageBase.getType msg) c.nextSequence body = .ok r.raw := by
  simp only [reserve, bind, Except.bind] at h
  split_ifs at h with hready
  cases hbody : MessageBase.pack msg with
  | error err => simp [hbody] at h
  | ok body =>
    cases hraw : packEnvelope (MessageBase.getType msg) c.nextSequence body with
    | error err => simp [hbody, hraw] at h
    | ok raw =>
      simp only [hbody, hraw] at h
      split_ifs at h with hbig
      obtain ⟨rfl, rfl⟩ := h
      exact ⟨rfl, rfl, body, hraw⟩

@[simp] lemma outstanding_commit (r : Reservation M) (packet : P) :
    (c.commit r packet).outstanding = c.outstanding ++ [(packet, r.sequence)] := by
  simp [outstanding, commit]

lemma adjustWindowOnDelivered_frame :
    ∃ window windowMax windowMin fastRateRounds mediumRateRounds, c.adjustWindowOnDelivered rtt =
        { c with window, windowMax, windowMin, fastRateRounds, mediumRateRounds } := by
  -- first the window grows, then the rounds are counted
  obtain ⟨window, hgrown⟩ : ∃ window,
      (if c.window < c.windowMax then { c with window := c.window + 1 } else c) =
        { c with window } := by
    split
    · exact ⟨_, rfl⟩
    · exact ⟨_, rfl⟩
  simp only [adjustWindowOnDelivered, hgrown]
  split
  · exact ⟨_, _, _, _, _, rfl⟩
  split
  · split
    · exact ⟨_, _, _, _, _, rfl⟩
    · split
      · exact ⟨_, _, _, _, _, rfl⟩
      · exact ⟨_, _, _, _, _, rfl⟩
  · split
    · exact ⟨_, _, _, _, _, rfl⟩
    · exact ⟨_, _, _, _, _, rfl⟩

@[simp] lemma txRing_adjustWindowOnDelivered :
    (c.adjustWindowOnDelivered rtt).txRing = c.txRing := by
  obtain ⟨_, _, _, _, _, hframe⟩ := c.adjustWindowOnDelivered_frame rtt
  rw [hframe]

@[simp] lemma nextSequence_adjustWindowOnDelivered :
    (c.adjustWindowOnDelivered rtt).nextSequence = c.nextSequence := by
  obtain ⟨_, _, _, _, _, hframe⟩ := c.adjustWindowOnDelivered_frame rtt
  rw [hframe]

end

section Callbacks

variable [DecidableEq P]

lemma outstanding_dropPacket (packet : P) (ring : List (Envelope M P)) :
    (dropPacket packet ring).map (fun env => (env.packet, env.sequence)) =
      (ring.map fun env => (env.packet, env.sequence)).eraseP (·.1 = packet) := by
  rw [eraseP_map]
  rfl

lemma outstanding_countTry (packet : P) (ring : List (Envelope M P)) :
    (countTry packet ring).map (fun env => (env.packet, env.sequence)) =
      ring.map fun env => (env.packet, env.sequence) := by
  induction ring with
  | nil => rfl
  | cons env ring ih =>
    rw [countTry] at ih ⊢
    by_cases h : env.packet = packet
    · simp [h]
    · simp [h, ih]

variable (c : Channel M P) (rtt : ℚ) (packet : P)

/-- Whether the timeout of `packet` makes the channel give its envelope up: it is out of tries, or
the link cannot resend it. -/
def givesUp (resent : Bool) : Bool :=
  match c.txRing.find? (·.packet = packet) with
  | none => false
  | some env => decide (c.maxTries ≤ env.tries) || !resent

lemma outstanding_handleTimeout (resent : Bool) :
    (c.handleTimeout packet resent).outstanding =
      if c.givesUp packet resent then c.outstanding.eraseP (·.1 = packet) else c.outstanding := by
  rw [handleTimeout, givesUp]
  cases hfind : c.txRing.find? (·.packet = packet) with
  | none => simp
  | some env =>
    simp only [shrinkWindowOnTimeout, outstanding]
    by_cases htries : c.maxTries ≤ env.tries
    · simp [htries, outstanding_dropPacket]
    · cases resent with
      | true => simp [htries, outstanding_countTry]
      | false => simp [outstanding_dropPacket]

lemma outstanding_handleDelivered :
    (c.handleDelivered rtt packet).outstanding = c.outstanding.eraseP (·.1 = packet) := by
  rw [handleDelivered]
  cases hfind : c.txRing.find? (·.packet = packet) with
  | none =>
    have hne : ∀ x ∈ c.outstanding, x.1 ≠ packet := by
      intro x hx
      obtain ⟨env, henv, rfl⟩ := mem_map.1 hx
      exact Keyed.find?_eq_none.1 hfind env henv
    exact (eraseP_of_forall_not (by simpa using hne)).symm
  | some env => simp [outstanding, outstanding_dropPacket]

lemma nextSequence_handleTimeout (resent : Bool) :
    (c.handleTimeout packet resent).nextSequence = c.nextSequence := by
  rw [handleTimeout]
  cases c.txRing.find? (·.packet = packet) with
  | none => rfl
  | some env =>
    dsimp only
    split_ifs <;> rfl

lemma nextSequence_handleDelivered :
    (c.handleDelivered rtt packet).nextSequence = c.nextSequence := by
  rw [handleDelivered]
  cases c.txRing.find? (·.packet = packet) with
  | none => rfl
  | some env => simp

end Callbacks

end Channel

/-! ## The sender as a transition function -/

/-- How far the `Send` in progress has come; a lock keeps a second one out.  `transmitted` is the
stretch between the link's return and the envelope's way into the ring. -/
inductive Sending (M : Type) where
  | idle
  | reserved (r : Reservation M)
  | transmitted (r : Reservation M) (packet : ℕ)

/-- The sending side over time.  Packets are numbered as the link transmits them, `wire` holding
their contents; `sent` is the packet and sequence number of every `Send` that has succeeded, and
`acked` the packets whose envelope left the ring because a proof arrived. -/
structure Sender (M : Type) where
  channel : Channel M ℕ
  pending : Sending M
  wire : List Bytes
  sent : List (ℕ × UInt16)
  acked : List ℕ

/-- What happens to a sender: a `Send` starts, the link returns to it with a transmitted packet or
without, the envelope enters the ring; a packet times out, with the result of the link's `Resend`;
a packet is proved. -/
inductive SenderEvent (M : Type) where
  | send (o : Outlet) (msg : M)
  | linkSend (transmitted : Bool)
  | emplace
  | timeout (packet : ℕ) (resent : Bool)
  | delivered (packet : ℕ) (rtt : ℚ)

namespace Sender

variable {M : Type}

def new (rtt : ℚ) : Sender M := ⟨.new rtt, .idle, [], [], []⟩

def step [MessageBase M] (s : Sender M) : SenderEvent M → Sender M
  | .send o msg =>
    match s.pending with
    | .idle =>
      match s.channel.reserve o msg with
      | .ok (r, c) => { s with channel := c, pending := .reserved r }
      | .error _ => s
    | _ => s
  | .linkSend transmitted =>
    match s.pending with
    | .reserved r =>
      if transmitted then
        { s with pending := .transmitted r s.wire.length, wire := s.wire ++ [r.raw] }
      else { s with channel := s.channel.rewind r, pending := .idle }
    | _ => s
  | .emplace =>
    match s.pending with
    | .transmitted r packet =>
      { s with
        channel := s.channel.commit r packet
        pending := .idle
        sent := s.sent ++ [(packet, r.sequence)] }
    | _ => s
  | .timeout packet resent => { s with channel := s.channel.handleTimeout packet resent }
  | .delivered packet rtt =>
    { s with
      channel := s.channel.handleDelivered rtt packet
      acked := if s.channel.txRing.any (·.packet = packet) then s.acked ++ [packet] else s.acked }

/-- **What one event can make of a sender.** -/
inductive Change [MessageBase M] (s : Sender M) : SenderEvent M → Sender M → Prop
  | same (e : SenderEvent M) : Change s e s
  | reserved {o : Outlet} {msg : M} {r : Reservation M} {c : Channel M ℕ}
      (hpend : s.pending = .idle) (hres : s.channel.reserve o msg = .ok (r, c)) :
      Change s (.send o msg) { s with channel := c, pending := .reserved r }
  | failed {r : Reservation M} (hpend : s.pending = .reserved r) :
      Change s (.linkSend false) { s with channel := s.channel.rewind r, pending := .idle }
  | transmitted {r : Reservation M} (hpend : s.pending = .reserved r) :
      Change s (.linkSend true)
        { s with pending := .transmitted r s.wire.length, wire := s.wire ++ [r.raw] }
  | emplaced {r : Reservation M} {packet : ℕ} (hpend : s.pending = .transmitted r packet) :
      Change s .emplace { s with
        channel := s.channel.commit r packet
        pending := .idle
        sent := s.sent ++ [(packet, r.sequence)] }
  | timeout (packet : ℕ) (resent : Bool) : Change s (.timeout packet resent)
      { s with channel := s.channel.handleTimeout packet resent }
  | delivered (packet : ℕ) (rtt : ℚ) : Change s (.delivered packet rtt) { s with
      channel := s.channel.handleDelivered rtt packet
      acked := if s.channel.txRing.any (·.packet = packet) then s.acked ++ [packet] else s.acked }

lemma change_step [MessageBase M] (s : Sender M) (e : SenderEvent M) : Change s e (s.step e) := by
  cases e with
  | send o msg =>
    rw [step]
    cases hpend : s.pending with
    | idle =>
      cases hres : s.channel.reserve o msg with
      | error err => exact .same _
      | ok rc => exact .reserved hpend hres
    | reserved r | transmitted r p => exact .same _
  | linkSend transmitted =>
    rw [step]
    cases hpend : s.pending with
    | reserved r =>
      cases transmitted with
      | false => exact .failed hpend
      | true => exact .transmitted hpend
    | idle | transmitted r p => exact .same _
  | emplace =>
    rw [step]
    cases hpend : s.pending with
    | transmitted r p => exact .emplaced hpend
    | idle | reserved r => exact .same _
  | timeout packet resent => exact .timeout packet resent
  | delivered packet rtt => exact .delivered packet rtt

/-- **No sequence hole**: every sequence number of a successful `Send` has been acknowledged, or
its envelope is still in the ring. -/
def NoHole (s : Sender M) : Prop :=
  ∀ x ∈ s.sent, x.1 ∈ s.acked ∨ x ∈ s.channel.outstanding

def KeepsTrying (s : Sender M) : SenderEvent M → Prop
  | .timeout packet resent => s.channel.givesUp packet resent = false
  | _ => True

/-- What holds of the bookkeeping in every state, as long as nothing was given up. -/
structure Inv (s : Sender M) : Prop where
  sent_lt : ∀ x ∈ s.sent, x.1 < s.wire.length
  pending_fresh : ∀ r p, s.pending = .transmitted r p →
    p < s.wire.length ∧ p ∉ s.sent.map Prod.fst
  nodup : (s.channel.outstanding.map Prod.fst).Nodup
  outstanding_sent : ∀ x ∈ s.channel.outstanding, x ∈ s.sent
  acked_sent : ∀ p ∈ s.acked, p ∈ s.sent.map Prod.fst
  not_acked : ∀ x ∈ s.channel.outstanding, x.1 ∉ s.acked
  noHole : NoHole s

@[simp] lemma outstanding_new (rtt : ℚ) : (new rtt : Sender M).channel.outstanding = [] := by
  rw [new, Channel.new]
  split_ifs <;> rfl

lemma Inv.init (rtt : ℚ) : Inv (new rtt : Sender M) where
  sent_lt := by simp [new]
  pending_fresh := by simp [new]
  nodup := by simp
  outstanding_sent := by simp
  acked_sent := by simp [new]
  not_acked := by simp
  noHole := by simp [NoHole, new]

section Steps

variable {s : Sender M}

lemma Inv.of_same (h : Inv s) {c : Channel M ℕ} {pending : Sending M} {wire : List Bytes}
    (hout : c.outstanding = s.channel.outstanding) (hwire : s.wire.length ≤ wire.length)
    (hpend : ∀ r p, pending = .transmitted r p → p < wire.length ∧ p ∉ s.sent.map Prod.fst) :
    Inv ⟨c, pending, wire, s.sent, s.acked⟩ where
  sent_lt x hx := lt_of_lt_of_le (h.sent_lt x hx) hwire
  pending_fresh := hpend
  nodup := by simpa only [hout] using h.nodup
  outstanding_sent := by simpa only [hout] using h.outstanding_sent
  acked_sent := h.acked_sent
  not_acked := by simpa only [hout] using h.not_acked
  noHole := by simpa [NoHole, hout] using h.noHole

lemma Inv.emplace (h : Inv s) {r : Reservation M} {p : ℕ} (hpend : s.pending = .transmitted r p) :
    Inv ⟨s.channel.commit r p, .idle, s.wire, s.sent ++ [(p, r.sequence)], s.acked⟩ := by
  obtain ⟨hlt, hfresh⟩ := h.pending_fresh r p hpend
  have hnew : p ∉ s.channel.outstanding.map Prod.fst := by
    intro hp
    obtain ⟨x, hx, rfl⟩ := mem_map.1 hp
    exact hfresh (mem_map_of_mem (h.outstanding_sent x hx))
  constructor
  · intro x hx
    rcases mem_append.1 hx with hx | hx
    · exact h.sent_lt x hx
    · rw [mem_singleton.1 hx]
      exact hlt
  · intro r' p' hp'
    cases hp'
  · rw [outstanding_commit, map_append]
    exact h.nodup.append (by simp) (by simpa using hnew)
  · intro x hx
    rw [outstanding_commit] at hx
    exact mem_append.2 ((mem_append.1 hx).imp_left (h.outstanding_sent x))
  · intro q hq
    rw [map_append]
    exact mem_append_left _ (h.acked_sent q hq)
  · intro x hx
    rw [outstanding_commit] at hx
    rcases mem_append.1 hx with hx | hx
    · exact h.not_acked x hx
    · rw [mem_singleton.1 hx]
      exact fun hack => hfresh (h.acked_sent p hack)
  · intro x hx
    rw [outstanding_commit]
    rcases mem_append.1 hx with hx | hx
    · exact (h.noHole x hx).imp_right (mem_append_left _)
    · exact .inr (mem_append_right _ hx)

lemma Inv.delivered (h : Inv s) (rtt : ℚ) {p : ℕ} (hp : p ∈ s.channel.outstanding.map Prod.fst) :
    Inv { s with channel := s.channel.handleDelivered rtt p, acked := s.acked ++ [p] } := by
  have hmem : ∀ x, x ∈ (s.channel.handleDelivered rtt p).outstanding ↔
      x ∈ s.channel.outstanding ∧ x.1 ≠ p := by
    intro x
    rw [outstanding_handleDelivered]
    exact Keyed.mem_eraseP_iff h.nodup
  constructor
  · exact h.sent_lt
  · exact h.pending_fresh
  · rw [outstanding_handleDelivered]
    exact (eraseP_sublist.map _).nodup h.nodup
  · exact fun x hx => h.outstanding_sent x ((hmem x).1 hx).1
  · intro q hq
    rcases mem_append.1 hq with hq | hq
    · exact h.acked_sent q hq
    · rw [mem_singleton.1 hq]
      obtain ⟨x, hx, rfl⟩ := mem_map.1 hp
      exact mem_map_of_mem (h.outstanding_sent x hx)
  · intro x hx hack
    obtain ⟨hx, hne⟩ := (hmem x).1 hx
    rcases mem_append.1 hack with hack | hack
    · exact h.not_acked x hx hack
    · exact hne (mem_singleton.1 hack)
  · intro x hx
    by_cases hxp : x.1 = p
    · exact .inl (mem_append_right _ (mem_singleton.2 hxp))
    · rcases h.noHole x hx with hack | hout
      · exact .inl (mem_append_left _ hack)
      · exact .inr ((hmem x).2 ⟨hout, hxp⟩)

lemma any_packet_iff (c : Channel M ℕ) (p : ℕ) :
    c.txRing.any (·.packet = p) ↔ p ∈ c.outstanding.map Prod.fst := by
  simp [outstanding]

variable [MessageBase M]

/-- **Every step that gives nothing up keeps the bookkeeping.** -/
lemma Inv.step (h : Inv s) {e : SenderEvent M} (he : KeepsTrying s e) : Inv (s.step e) := by
  have hstep := s.change_step e
  generalize s.step e = s' at hstep ⊢
  cases hstep with
  | same => exact h
  | reserved hpend hres =>
    obtain ⟨-, rfl, -⟩ := reserve_ok hres
    exact h.of_same rfl (le_refl _) (fun r p hp => by cases hp)
  | failed hpend => exact h.of_same rfl (le_refl _) (fun r p hp => by cases hp)
  | transmitted hpend =>
    refine h.of_same rfl (by simp) ?_
    intro r' p hp
    cases hp
    refine ⟨by simp, ?_⟩
    intro hmem
    obtain ⟨x, hx, hlen⟩ := mem_map.1 hmem
    exact absurd (h.sent_lt x hx) (by omega)
  | emplaced hpend => exact h.emplace hpend
  | timeout packet resent =>
    refine h.of_same ?_ (le_refl _) h.pending_fresh
    rw [outstanding_handleTimeout, if_neg (by simpa [KeepsTrying] using he)]
  | delivered packet rtt =>
    split_ifs with hany
    · exact h.delivered rtt ((any_packet_iff _ _).1 hany)
    · refine h.of_same ?_ (le_refl _) h.pending_fresh
      rw [any_packet_iff] at hany
      rw [outstanding_handleDelivered]
      refine eraseP_of_forall_not fun x hx hxp => hany ?_
      rw [← of_decide_eq_true hxp]
      exact mem_map_of_mem hx

/-- **Giving an envelope up opens a hole at once**: its sequence number is neither acknowledged nor
outstanding any more. -/
lemma Inv.not_noHole (h : Inv s) {e : SenderEvent M} (he : ¬ KeepsTrying s e) :
    ¬ NoHole (s.step e) := by
  cases e with
  | timeout packet resent =>
    simp only [KeepsTrying] at he
    obtain ⟨env, henv, hpacket⟩ : ∃ env ∈ s.channel.txRing, env.packet = packet := by
      by_contra hnone
      have hfind : s.channel.txRing.find? (·.packet = packet) = none :=
        Keyed.find?_eq_none.2 fun env henv hp => hnone ⟨env, henv, hp⟩
      simp [givesUp, hfind] at he
    have hout : (env.packet, env.sequence) ∈ s.channel.outstanding := mem_map_of_mem henv
    intro hhole
    rcases hhole _ (h.outstanding_sent _ hout) with hack | hleft
    · exact h.not_acked _ hout hack
    · simp only [Sender.step, outstanding_handleTimeout, he] at hleft
      exact ((Keyed.mem_eraseP_iff h.nodup).1 hleft).2 hpacket
  | send o msg | linkSend transmitted | emplace | delivered packet rtt => exact absurd trivial he

end Steps

/-! ## Sequence numbers are handed out without a gap -/

def Carries (k : ℕ) (raw : Bytes) : Prop :=
  ∃ msgType body, packEnvelope msgType (.ofNat k) body = .ok raw

/-- The `k`-th transmitted packet carries sequence number `k`, and the next one to be handed out
follows the last. -/
structure Numbered (s : Sender M) : Prop where
  wire_ok : ∀ k raw, s.wire[k]? = some raw → Carries k raw
  next_ok : (∀ r, s.pending ≠ .reserved r) → s.channel.nextSequence = .ofNat s.wire.length
  reserved_ok : ∀ r, s.pending = .reserved r → r.sequence = .ofNat s.wire.length ∧
    s.channel.nextSequence = .ofNat (s.wire.length + 1) ∧ Carries s.wire.length r.raw

lemma Numbered.init (rtt : ℚ) : Numbered (new rtt : Sender M) where
  wire_ok := by simp [new]
  next_ok _ := by
    rw [new, Channel.new]
    split_ifs <;> rfl
  reserved_ok := by simp [new]

lemma Numbered.step [MessageBase M] {s : Sender M} (h : Numbered s) (e : SenderEvent M) :
    Numbered (s.step e) := by
  have hstep := s.change_step e
  generalize s.step e = s' at hstep ⊢
  cases hstep with
  | same => exact h
  | @reserved o msg r c hpend hres =>
    obtain ⟨hseq, rfl, body, hraw⟩ := reserve_ok hres
    have hnext := h.next_ok (by simp [hpend])
    refine ⟨h.wire_ok, fun hne => absurd rfl (hne r), ?_⟩
    intro r' hr'
    obtain rfl : r = r' := by simpa using hr'
    refine ⟨hseq.trans hnext, ?_, _, body, hnext ▸ hraw⟩
    simp [hnext, nextSeq_ofNat]
  | failed hpend => exact ⟨h.wire_ok, fun _ => (h.reserved_ok _ hpend).1, by simp⟩
  | @transmitted r hpend =>
    obtain ⟨-, hnext, hcar⟩ := h.reserved_ok r hpend
    refine ⟨fun k raw hk => ?_, fun _ => by simpa using hnext, by simp⟩
    rcases Keyed.getElem?_concat.1 hk with hk | ⟨rfl, rfl⟩
    · exact h.wire_ok k raw hk
    · exact hcar
  | emplaced hpend => exact ⟨h.wire_ok, fun _ => h.next_ok (by simp [hpend]), by simp⟩
  | timeout packet resent =>
    refine ⟨h.wire_ok, fun hne => ?_, fun r hr => ?_⟩
    · exact (nextSequence_handleTimeout _ _ _).trans (h.next_ok hne)
    · rw [nextSequence_handleTimeout]
      exact h.reserved_ok r hr
  | delivered packet rtt =>
    refine ⟨h.wire_ok, fun hne => ?_, fun r hr => ?_⟩
    · exact (nextSequence_handleDelivered _ _ _).trans (h.next_ok hne)
    · rw [nextSequence_handleDelivered]
      exact h.reserved_ok r hr

/-! ## Holes -/

/-- **The sender leaves no sequence hole in exactly the runs in which it gives nothing up**: no
timeout finds an envelope that is out of tries, and no `Resend` of an outstanding envelope
fails. -/
theorem noHole_iff [MessageBase M] (rtt : ℚ) (events : List (SenderEvent M)) :
    Run.Always step NoHole (new rtt) events ↔
      Run.Along step KeepsTrying (new rtt) events :=
  Run.always_iff_along (fun _ h => h.noHole) (fun _ _ h he => h.step he)
    (fun _ _ h he => h.not_noHole he) (Inv.init rtt)

/-- One message is sent and never proved; the fifth timeout finds it out of tries.  Then a second
message is sent. -/
def abandonedRun : List (SenderEvent GenericMessage) :=
  [.send ⟨2, none, 0⟩ ⟨1, [], 0⟩, .linkSend true, .emplace,
    .timeout 0 true, .timeout 0 true, .timeout 0 true, .timeout 0 true, .timeout 0 true,
    .send ⟨2, none, 0⟩ ⟨1, [], 0⟩, .linkSend true, .emplace]

/-- The channel gives the first message up and goes on to send the second: sequence number 0 is
neither acknowledged nor outstanding, and number 1 is on its way. -/
theorem abandonedRun_hole :
    (Run.exec step (new 0) abandonedRun).sent = [(0, 0), (1, 1)] ∧
      (Run.exec step (new 0) abandonedRun).channel.outstanding = [(1, 1)] ∧
      ¬ Run.Always step NoHole (new 0) abandonedRun := by
  have hsent : (Run.exec step (new 0) abandonedRun).sent = [(0, 0), (1, 1)] := by
    decide +kernel
  have hout : (Run.exec step (new 0) abandonedRun).channel.outstanding =
      [(1, 1)] := by
    decide +kernel
  have hacked : (Run.exec step (new 0) abandonedRun).acked = [] := by
    decide +kernel
  refine ⟨hsent, hout, ?_⟩
  intro h
  have hhole := h.last (0, 0) (by rw [hsent]; decide)
  rw [hacked, hout] at hhole
  revert hhole
  decide

end Sender

end Reticulum
