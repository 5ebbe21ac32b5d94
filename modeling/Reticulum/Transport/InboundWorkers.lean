import Reticulum.Core.Run
import Reticulum.Transport.Relay

/-!
# Inbound packets in parallel

Packets are handled by several workers at once (`pkg/transport/packet_handler.go`).  Every handler
**checks** the packet with `packetFilter`, which looks its hash up, **remembers** the hash with
`maybeRememberPacketHash`, and then the packet is **dispatched**.  The lookup and the insertion take
the lock of the hash list each for itself, so two workers with copies of one packet may both
dispatch it (`copies_dispatched_twice`).  If every packet that passes the filter is **alone**, this
cannot happen: **`dispatched_once_of_alone`**.
-/

namespace Reticulum

open List

/-- A packet that passed the filter, and whether its hash has been remembered since. -/
structure Worker where
  pkt : Packet
  remembered : Bool
deriving DecidableEq

/-- The node, the workers on their way from the check to the dispatch, and the hashes that were
dispatched and have not been forgotten since. -/
structure Inbound where
  transport : Transport
  workers : List Worker
  dispatched : List Bytes

inductive InboundEvent where
  /-- a worker takes a packet and checks it -/
  | check (pkt : Packet)
  /-- the worker at place `i` remembers its packet -/
  | remember (i : ℕ)
  /-- the worker at place `i` dispatches its packet -/
  | dispatch (i : ℕ)
  /-- a hash is remembered elsewhere -/
  | rememberForced (pkt : Packet)
  /-- the link table changes -/
  | relink (linkTable : Map Bytes LinkRelayEntry)

/-- A packet for which the filter looks at the hash. -/
structure NotExempt (pkt : Packet) : Prop where
  context : pkt.context ∉ Transport.exemptContexts
  not_plain : pkt.destinationType ≠ .plain
  not_group : pkt.destinationType ≠ .group
  not_announce : ¬ (pkt.packetType = .announce ∧ pkt.destinationType = .single)

namespace Inbound

variable {t : Transport}

/-- The node has changed; what it has forgotten is dropped from the record. -/
def become (s : Inbound) (t : Transport) : Inbound :=
  { s with transport := t, dispatched := s.dispatched.filter t.packetHashes.seen }

def step (sha : Sha256) (s : Inbound) : InboundEvent → Inbound
  | .check pkt =>
    if s.transport.packetFilter sha pkt then { s with workers := s.workers ++ [⟨pkt, false⟩] }
    else s
  | .remember i =>
    match s.workers[i]? with
    | some ⟨pkt, false⟩ =>
      { s with workers := s.workers.set i ⟨pkt, true⟩ }.become
        (s.transport.maybeRememberPacketHash sha pkt)
    | _ => s
  | .dispatch i =>
    match s.workers[i]? with
    | some ⟨pkt, true⟩ =>
      { s with
        workers := s.workers.eraseIdx i
        dispatched :=
          if s.transport.packetHashes.seen (pkt.getHash sha) then
            s.dispatched ++ [pkt.getHash sha]
          else s.dispatched }
    | _ => s
  | .rememberForced pkt => s.become (s.transport.rememberPacketHashForced sha pkt)
  | .relink linkTable => { s with transport := { s.transport with linkTable } }

def start (t : Transport) : Inbound := ⟨t, [], []⟩

def DispatchedOnce (s : Inbound) : Prop := s.dispatched.Nodup

def hashes (sha : Sha256) (s : Inbound) : List Bytes := s.workers.map (·.pkt.getHash sha)

/-- A packet that passes the filter is not exempt, and alone: no other copy is on its way. -/
def Alone (sha : Sha256) (s : Inbound) : InboundEvent → Prop
  | .check pkt =>
    NotExempt pkt ∧ (s.transport.packetFilter sha pkt = true → pkt.getHash sha ∉ s.hashes sha)
  | _ => True

/-! ## The filter and the hash list -/

lemma packetFilter_notExempt {sha : Sha256} {pkt : Packet}
    (ht : t.connectedToSharedInstance = false) (hpkt : NotExempt pkt) :
    t.packetFilter sha pkt = !t.packetHashes.seen (pkt.getHash sha) := by
  simp only [Transport.packetFilter, ht, hpkt.context, hpkt.not_plain, hpkt.not_group,
    hpkt.not_announce, or_self, if_false]
  cases t.packetHashes.seen (pkt.getHash sha) <;> rfl

lemma connected_maybeRemember (sha : Sha256) (t : Transport) (pkt : Packet) :
    (t.maybeRememberPacketHash sha pkt).connectedToSharedInstance =
      t.connectedToSharedInstance := by
  obtain ⟨hashes, heq⟩ := t.maybeRememberPacketHash_eq sha pkt
  rw [heq]
  rfl

lemma connected_rememberForced (sha : Sha256) (t : Transport) (pkt : Packet) :
    (t.rememberPacketHashForced sha pkt).connectedToSharedInstance =
      t.connectedToSharedInstance := by
  obtain ⟨hashes, heq⟩ := t.rememberPacketHashForced_eq sha pkt
  rw [heq]
  rfl

/-! ## Every hash is in one place -/

/-- A hash is on its way with one worker, or has been dispatched and is remembered, or neither. -/
structure Inv (sha : Sha256) (s : Inbound) : Prop where
  connected : s.transport.connectedToSharedInstance = false
  nodup : (s.hashes sha ++ s.dispatched).Nodup
  seen : ∀ h ∈ s.dispatched, s.transport.packetHashes.seen h = true

namespace Inv

variable {sha : Sha256} {s : Inbound}

lemma start (ht : t.connectedToSharedInstance = false) : Inv sha (start t) where
  connected := ht
  nodup := nodup_nil
  seen := by nofun

lemma dispatchedOnce (h : Inv sha s) : s.DispatchedOnce := h.nodup.of_append_right

lemma become (h : Inv sha s) (ht : t.connectedToSharedInstance = false)
    {workers : List Worker} (hw : workers.map (·.pkt.getHash sha) = s.hashes sha) :
    Inv sha ({ s with workers }.become t) where
  connected := ht
  nodup := by
    have hsub : (s.dispatched.filter t.packetHashes.seen).Sublist s.dispatched :=
      filter_sublist
    simp only [Inbound.become, hashes]
    rw [hw]
    exact h.nodup.sublist (hsub.append_left _)
  seen := by
    intro x hx
    exact (mem_filter.1 hx).2

lemma check (h : Inv sha s) {pkt : Packet} (he : s.Alone sha (.check pkt)) :
    Inv sha (s.step sha (.check pkt)) := by
  obtain ⟨hpkt, halone⟩ := he
  simp only [step]
  split
  · rename_i hpass
    -- the hash is not in the list, so it has not been dispatched and remembered
    have hnew : pkt.getHash sha ∉ s.dispatched := by
      intro hmem
      rw [packetFilter_notExempt h.connected hpkt, h.seen _ hmem] at hpass
      cases hpass
    refine { h with nodup := ?_ }
    have hperm : (s.hashes sha ++ [pkt.getHash sha] ++ s.dispatched).Perm
        (pkt.getHash sha :: (s.hashes sha ++ s.dispatched)) := by
      rw [append_assoc]
      exact perm_middle
    simp only [hashes, map_append]
    refine hperm.nodup_iff.2 (nodup_cons.2 ⟨?_, h.nodup⟩)
    rw [mem_append]
    rintro (hway | hdone)
    · exact halone hpass hway
    · exact hnew hdone
  · exact h

lemma remember (h : Inv sha s) (i : ℕ) : Inv sha (s.step sha (.remember i)) := by
  simp only [step]
  split
  · rename_i pkt hi
    refine h.become ?_ ?_
    · rw [connected_maybeRemember]
      exact h.connected
    · -- the worker carries the same packet as before
      obtain ⟨hlt, hget⟩ := List.getElem?_eq_some_iff.1 hi
      refine ext_getElem? ?_
      intro j
      rw [hashes, getElem?_map, getElem?_map, getElem?_set]
      split
      · rename_i hij
        subst hij
        simp [hlt, hget]
      · rfl
  · exact h

lemma dispatch (h : Inv sha s) (i : ℕ) : Inv sha (s.step sha (.dispatch i)) := by
  simp only [step]
  split
  · rename_i pkt hi
    obtain ⟨hlt, hget⟩ := List.getElem?_eq_some_iff.1 hi
    -- the worker that leaves takes its hash from the ones on their way
    have hperm : (s.hashes sha).Perm
        (pkt.getHash sha :: (s.workers.eraseIdx i).map (·.pkt.getHash sha)) := by
      have hw := (getElem_cons_eraseIdx_perm hlt).symm.map (·.pkt.getHash sha)
      rw [hget] at hw
      exact hw
    have hnodup := (hperm.append_right s.dispatched).nodup_iff.1 h.nodup
    refine ⟨h.connected, ?_, ?_⟩
    · split
      · rw [← append_assoc]
        exact (perm_append_singleton _ _).nodup_iff.2 hnodup
      · exact (nodup_cons.1 hnodup).2
    · intro x hx
      split at hx
      · rename_i hseen
        rcases mem_append.1 hx with hx | hx
        · exact h.seen x hx
        · rw [mem_singleton.1 hx]
          exact hseen
      · exact h.seen x hx
  · exact h

/-- **One step keeps every hash in one place**, if a packet that passes the filter is alone. -/
lemma step {e : InboundEvent} (h : Inv sha s) (he : s.Alone sha e) : Inv sha (s.step sha e) := by
  cases e with
  | check pkt => exact h.check he
  | remember i => exact h.remember i
  | dispatch i => exact h.dispatch i
  | rememberForced pkt =>
    refine h.become ?_ rfl
    rw [connected_rememberForced]
    exact h.connected
  | relink linkTable => exact { h with }

end Inv

/-! ## Duplicates -/

/-- **No packet is dispatched twice while it is remembered**, in any interleaving of any number of
workers in which every packet that passes the filter is alone. -/
theorem dispatched_once_of_alone (sha : Sha256) (t : Transport)
    (ht : t.connectedToSharedInstance = false) (es : List InboundEvent)
    (hes : Run.Along (step sha) (Alone sha) (start t) es) :
    Run.Always (step sha) DispatchedOnce (start t) es := by
  refine (Run.always_of_along (I := Inv sha) ?_ (.start ht) hes).mono ?_
  · intro s e h he
    exact h.step he
  · intro s h
    exact h.dispatchedOnce

def copied : Packet where
  headerType := .headerType1
  packetType := .data
  transportType := 0
  context := Packet.Constants.contextNone
  contextFlag := 0
  hops := 0
  destinationType := .single
  transportID := []
  destinationHash := replicate 16 0xAA
  data := []
  raw := [0, 0] ++ replicate 16 0xAA ++ [0]

def quietNode : Transport where
  config := none
  interfaces _ := ⟨"", true, true, false⟩
  links := []
  linkTable := ∅
  reverseTable := ∅
  packetHashes := ⟨100, [], []⟩
  receipts := []
  receiptsByHash := ∅

/-- Two workers that both check their copy before one of them remembers it both dispatch it. -/
theorem copies_dispatched_twice :
    NotExempt copied ∧
      ¬ Run.Always (step Sha256.padded) DispatchedOnce (start quietNode)
        [.check copied, .check copied, .remember 0, .remember 1, .dispatch 0, .dispatch 0] := by
  refine ⟨⟨by decide, by decide, by decide, by decide⟩, ?_⟩
  intro h
  have hnodup := h.last
  rw [DispatchedOnce] at hnodup
  exact absurd hnodup (by decide +kernel)

/-- A worker that dispatches its copy before the other one checks is alone. -/
theorem copies_dispatched_once :
    Run.Always (step Sha256.padded) DispatchedOnce (start quietNode)
      [.check copied, .remember 0, .dispatch 0, .check copied] := by
  refine dispatched_once_of_alone .padded quietNode rfl _ ?_
  have hcopied : NotExempt copied := ⟨by decide, by decide, by decide, by decide⟩
  refine ⟨⟨hcopied, by nofun⟩, trivial, trivial, ⟨hcopied, ?_⟩, trivial⟩
  decide +kernel

end Inbound

end Reticulum
