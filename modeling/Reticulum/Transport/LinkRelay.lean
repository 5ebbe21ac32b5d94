import Reticulum.Transport.Relay

/-!
# What a transport node carries of a relayed link

A packet of a relayed link that arrives on one of its two interfaces, with the hop count of that
**side**, should go out on the other one.  This holds of the data packets of the link, and of the
proofs of its resources.  But `handleProofPacket` sends **every other proof** by the reverse table,
which is indexed by the hashes of single packets and has no entry for a link.
-/

namespace Reticulum

open Packet.Constants LinkRelayEntry

/-! ## The two sides of an entry -/

/-- Where a packet of a relayed link comes from: the destination's side, or the initiator's. -/
inductive Side where
  | nextHop
  | received
deriving DecidableEq

namespace LinkRelayEntry

variable (entry : LinkRelayEntry)

def ifaceOf : Side → ℕ
  | .nextHop => entry.nextHopIface
  | .received => entry.receivedIface

def otherIface : Side → ℕ
  | .nextHop => entry.receivedIface
  | .received => entry.nextHopIface

def hopsOf : Side → ℤ
  | .nextHop => entry.remainingHops
  | .received => entry.takenHops

end LinkRelayEntry

namespace Transport

/-! ## The property -/

/-- **Exactly one packet leaves the node, on the given interface.**  It is the one that came in,
with whatever hop count. -/
def CarriedOnce (raw : Bytes) (out : ℕ) (effects : List Effect) : Prop :=
  ∃ hops, transmissions effects = [⟨out, rewriteHopsOnly raw hops⟩]

/-- A packet of a relayed link arrives on one side of the validated entry of that link, at a node
with transport, and is not a duplicate. -/
structure Arrives (sha : Sha256) (t : Transport) (raw : Bytes) (pkt : Packet) (iface : ℕ)
    (entry : LinkRelayEntry) (side : Side) : Prop where
  unpacked : Packet.unpack raw = .ok pkt
  enabled : t.transportEnabled = true
  lookup : t.linkTable.lookup pkt.destinationHash = some entry
  validated : entry.validated = true
  destinationType : pkt.destinationType = .link
  packetType : pkt.packetType = .data ∨ pkt.packetType = .proof
  iface_eq : iface = entry.ifaceOf side
  hops_eq : ((t.accountInboundHops pkt.hops iface).toNat : ℤ) = entry.hopsOf side
  fresh : t.packetHashes.seen (pkt.getHash sha) = false

def canTransmit (t : Transport) (iface : ℕ) : Bool :=
  (t.interfaces iface).isEnabled && (t.interfaces iface).allowsOutgoing

/-- **Which packets of a relayed link the node carries.**  The other interface takes packets, and

* data packets and proofs of resources do not belong to a link that ends at this node;
* neither does the proof of a link request, which comes from the destination's side and verifies;
* for any other proof, the reverse table has an entry under the identity of the link, with the same
  two interfaces. -/
def Carries (env : Surroundings) (t : Transport) (pkt : Packet) (iface : ℕ)
    (entry : LinkRelayEntry) (side : Side) : Prop :=
  t.canTransmit (entry.otherIface side) = true ∧
    if pkt.packetType = .data ∨ pkt.context = contextResourcePRF then
      pkt.destinationHash ∉ t.links
    else if pkt.context = contextLRProof then
      pkt.destinationHash ∉ t.links ∧ iface = entry.nextHopIface ∧
        ((t.accountInboundHops pkt.hops iface).toNat : ℤ) = entry.remainingHops ∧
        lrProofVerifies env pkt.destinationHash entry.destinationHash pkt.data = true
    else t.reverseTable.lookup pkt.destinationHash = some ⟨entry.otherIface side, iface⟩

variable {env : Surroundings} {t : Transport} {now : ℕ} {raw : Bytes} {pkt : Packet} {iface : ℕ}
  {entry : LinkRelayEntry} {side : Side} {effects : List Effect}

/-! ## Sending -/

@[simp] lemma transmissions_nil : transmissions [] = [] := rfl

lemma transmissions_sent (t : Transport) (out : ℕ) (data : Bytes) :
    transmissions (sent (t.sendOnInterface out data)) =
      if t.canTransmit out then [⟨out, data⟩] else [] := by
  cases he : (t.interfaces out).isEnabled <;> cases ho : (t.interfaces out).allowsOutgoing <;>
    simp [sendOnInterface, canTransmit, sent, transmissions, he, ho]

lemma transmissions_ite_isEnabled (t t₁ t₂ : Transport) (out : ℕ) (data : Bytes) :
    transmissions (if !(t.interfaces out).isEnabled then (⟨true, t₁, []⟩ : Outcome)
      else ⟨true, t₂, sent (t.sendOnInterface out data)⟩).effects =
      if t.canTransmit out then [⟨out, data⟩] else [] := by
  cases hon : (t.interfaces out).isEnabled with
  | false => simp [canTransmit, hon]
  | true =>
    exact transmissions_sent t out data

lemma interfaces_modifyEntry (t : Transport) (linkID : Bytes)
    (f : LinkRelayEntry → LinkRelayEntry) : (t.modifyEntry linkID f).interfaces = t.interfaces := by
  unfold modifyEntry
  split <;> rfl

lemma carriedOnce_of_ite {p : Prop} [Decidable p] {o out : ℕ} {hops : UInt8}
    (h : transmissions effects = if p then [⟨o, rewriteHopsOnly raw hops⟩] else []) :
    CarriedOnce raw out effects ↔ p ∧ o = out := by
  unfold CarriedOnce
  by_cases hp : p
  · rw [h, if_pos hp]
    constructor
    · rintro ⟨hops', heq⟩
      have htx := List.singleton_inj.1 heq
      exact ⟨hp, congrArg Transmission.iface htx⟩
    · rintro ⟨-, rfl⟩
      exact ⟨hops, rfl⟩
  · simp [h, hp]

/-! ## The filter -/

lemma transportLRProof_transmissions (linkID : Bytes) (accounted : UInt8) :
    transmissions (transportLRProof env t now pkt iface linkID entry accounted).effects =
      if t.canTransmit entry.receivedIface ∧ iface = entry.nextHopIface ∧
          lrProofVerifies env linkID entry.destinationHash pkt.data then
        [⟨entry.receivedIface, rewriteHopsOnly pkt.raw accounted⟩] else [] := by
  have hcan : (t.markValidated now linkID).canTransmit entry.receivedIface =
      t.canTransmit entry.receivedIface := by
    rw [canTransmit, markValidated, interfaces_modifyEntry, canTransmit]
  unfold transportLRProof
  by_cases hiface : iface = entry.nextHopIface
  · rw [if_neg (by simpa using hiface)]
    cases hver : lrProofVerifies env linkID entry.destinationHash pkt.data with
    | false => simp
    | true =>
      simp only [hiface, and_true, ← hcan]
      exact transmissions_ite_isEnabled _ _ _ _ _
  · simp [hiface]

lemma tryTransitLRProofRebalance_of_validated (hval : entry.validated) (linkID : Bytes)
    (accounted : UInt8) :
    tryTransitLRProofRebalance env t now pkt iface linkID entry accounted = (false, t) := by
  simp only [tryTransitLRProofRebalance]
  split_ifs <;> rfl

namespace Arrives

variable (h : Arrives env.sha t raw pkt iface entry side)
include h

lemma raw_eq : pkt.raw = raw := (Packet.unpack_ok h.unpacked).1

lemma wellFormed : pkt.WellFormed := (Packet.unpack_ok h.unpacked).2

lemma key_eq : hash16FromSlice pkt.destinationHash = pkt.destinationHash :=
  List.take_of_length_le h.wellFormed.length_destinationHash.le

lemma packetFilter : t.packetFilter env.sha pkt := by
  simp [Transport.packetFilter, h.destinationType, h.fresh]

lemma maybeRememberPacketHash : t.maybeRememberPacketHash env.sha pkt = t := by
  rw [Transport.maybeRememberPacketHash, h.key_eq, h.lookup,
    connectedToSharedInstance_of_enabled h.enabled]
  rfl

/-! ## The three ways -/

lemma relayIface :
    relayIface entry iface (t.accountInboundHops pkt.hops iface) =
      some (entry.otherIface side) := by
  unfold Transport.relayIface
  simp only [h.hops_eq]
  rw [h.iface_eq]
  by_cases hsame : entry.nextHopIface = entry.receivedIface
  · rw [if_pos hsame]
    cases side with
    | nextHop => simp [hopsOf, otherIface, hsame]
    | received => simp [hopsOf, otherIface]
  · cases side with
    | nextHop => simp [hopsOf, otherIface, ifaceOf]
    | received =>
      have hne : entry.receivedIface ≠ entry.nextHopIface := fun heq => hsame heq.symm
      simp [hopsOf, otherIface, ifaceOf, hne]

lemma forwardLinkData_transmissions :
    transmissions (t.forwardLinkData now pkt.destinationHash raw iface).effects =
      if t.canTransmit (entry.otherIface side) then
        [⟨entry.otherIface side, rewriteHopsOnly raw (t.accountInboundHops pkt.hops iface)⟩]
      else [] := by
  have hwf := h.wellFormed
  have hlen : ¬ (raw.length < truncatedHashLength + 2 ∨ pkt.destinationHash = []) := by
    rintro (hlt | hnil)
    · have := hwf.length_raw
      rw [h.raw_eq] at this
      simp only [minPacketSize] at this hlt
      omega
    · have := hwf.length_destinationHash
      simp [hnil, truncatedHashLength] at this
  have hacc : linkRelayAccountedHops (raw.getD 1 0) (t.isLocalClientInterface iface) =
      t.accountInboundHops pkt.hops iface := by
    rw [accountInboundHops, hwf.hops_eq, h.raw_eq]
  rw [forwardLinkData, if_neg hlen, h.key_eq, h.lookup]
  simp only [mayRelay_of_enabled h.enabled, hacc, h.relayIface]
  exact transmissions_ite_isEnabled t _ _ _ _

/-- The proof of a link request goes to the initiator's side, if it comes from the destination's and
verifies.  The entry is validated already, so its hop count is not corrected. -/
lemma validateAndForwardLRProof_transmissions :
    transmissions (t.validateAndForwardLRProof env now pkt iface).effects =
      if t.canTransmit entry.receivedIface ∧ iface = entry.nextHopIface ∧
          ((t.accountInboundHops pkt.hops iface).toNat : ℤ) = entry.remainingHops ∧
          lrProofVerifies env pkt.destinationHash entry.destinationHash pkt.data then
        [⟨entry.receivedIface, rewriteHopsOnly raw (t.accountInboundHops pkt.hops iface)⟩]
      else [] := by
  rw [validateAndForwardLRProof, h.key_eq]
  simp only [h.lookup, mayRelay_of_enabled h.enabled, Bool.not_true, Bool.false_eq_true, if_false]
  by_cases hhops : (t.accountInboundHops pkt.hops iface).toNat = entry.remainingHops
  · rw [if_pos hhops, transportLRProof_transmissions, h.raw_eq]
    simp [hhops]
  · simp [tryTransitLRProofRebalance_of_validated h.validated, hhops]

lemma carriedOnce_forwardReverseProof (out : ℕ) :
    CarriedOnce raw out (t.forwardReverseProof pkt iface).effects ↔ t.canTransmit out ∧
        t.reverseTable.lookup pkt.destinationHash = some ⟨out, iface⟩ := by
  rw [forwardReverseProof, h.key_eq, h.raw_eq]
  cases hrev : t.reverseTable.lookup pkt.destinationHash with
  | none => simp [CarriedOnce]
  | some back =>
    obtain ⟨backIface, outboundIface⟩ := back
    simp only [mayRelay_of_enabled h.enabled, Bool.not_true, Bool.false_eq_true, if_false,
      Option.some.injEq, ReverseEntry.mk.injEq]
    by_cases hiface : iface = outboundIface
    · rw [if_neg (by simpa using hiface)]
      refine (carriedOnce_of_ite (transmissions_ite_isEnabled t t _ backIface _)).trans ?_
      constructor
      · rintro ⟨hcan, rfl⟩
        exact ⟨hcan, rfl, hiface.symm⟩
      · rintro ⟨hcan, rfl, -⟩
        exact ⟨hcan, rfl⟩
    · rw [if_pos hiface]
      simp [CarriedOnce, Ne.symm hiface]

/-! ## Dispatch -/

lemma dispatch_data (hdata : pkt.packetType = .data) :
    (dispatchInboundPacket env t now pkt iface).2 =
      if pkt.destinationHash ∈ t.links then [.handleInbound pkt.destinationHash pkt]
      else (t.forwardLinkData now pkt.destinationHash raw iface).effects := by
  rw [dispatchInboundPacket, hdata]
  simp only [h.destinationType]
  rw [handleLinkPacket, h.packetFilter, h.maybeRememberPacketHash, h.key_eq, h.raw_eq]
  simp only [Bool.not_true, if_false, reduceCtorEq]
  split_ifs <;> rfl

lemma dispatch_proof (hproof : pkt.packetType = .proof) :
    (dispatchInboundPacket env t now pkt iface).2 =
      if pkt.context = contextLRProof then
        if pkt.destinationHash ∈ t.links then [.validateLinkProof pkt.destinationHash pkt iface]
        else (t.validateAndForwardLRProof env now pkt iface).effects
      else if pkt.context = contextResourcePRF then
        if pkt.destinationHash ∈ t.links then [.handleInbound pkt.destinationHash pkt]
        else (t.forwardLinkData now pkt.destinationHash raw iface).effects
      else (t.forwardReverseProof pkt iface).effects := by
  have hne : raw ≠ [] := by
    rintro rfl
    have hlen := h.wellFormed.length_raw
    rw [h.raw_eq] at hlen
    simp [minPacketSize] at hlen
  rw [dispatchInboundPacket, hproof]
  rw [handleProofPacket, h.packetFilter, h.maybeRememberPacketHash, h.key_eq, h.raw_eq]
  simp only [Bool.not_true, Bool.false_eq_true, if_false]
  split_ifs <;> rfl

lemma carriedOnce_forwardLinkData : CarriedOnce raw (entry.otherIface side)
      (t.forwardLinkData now pkt.destinationHash raw iface).effects ↔
      t.canTransmit (entry.otherIface side) := by
  rw [carriedOnce_of_ite h.forwardLinkData_transmissions, and_iff_left rfl]

lemma carriedOnce_validateAndForwardLRProof : CarriedOnce raw (entry.otherIface side)
      (t.validateAndForwardLRProof env now pkt iface).effects ↔
      t.canTransmit (entry.otherIface side) ∧ iface = entry.nextHopIface ∧
        ((t.accountInboundHops pkt.hops iface).toNat : ℤ) = entry.remainingHops ∧
        lrProofVerifies env pkt.destinationHash entry.destinationHash pkt.data := by
  -- a packet on the next-hop interface is on its way to the received one, also where the two agree
  have hother : iface = entry.nextHopIface → entry.otherIface side = entry.receivedIface := by
    intro hiface
    cases side with
    | nextHop => rfl
    | received => exact hiface.symm.trans h.iface_eq
  rw [carriedOnce_of_ite h.validateAndForwardLRProof_transmissions]
  constructor
  · rintro ⟨⟨hcan, hiface, hrest⟩, -⟩
    exact ⟨by rwa [hother hiface], hiface, hrest⟩
  · rintro ⟨hcan, hiface, hrest⟩
    exact ⟨⟨by rwa [hother hiface] at hcan, hiface, hrest⟩, (hother hiface).symm⟩

end Arrives

lemma not_carriedOnce {out : ℕ} (h : transmissions effects = []) :
    ¬ CarriedOnce raw out effects := by
  rintro ⟨hops, heq⟩
  rw [h] at heq
  cases heq

lemma carriedOnce_ite {p : Prop} [Decidable p] {kept : List Effect} {out : ℕ}
    (hkept : transmissions kept = []) :
    CarriedOnce raw out (if p then kept else effects) ↔ CarriedOnce raw out effects ∧ ¬ p := by
  by_cases hp : p
  · simp [hp, not_carriedOnce hkept]
  · simp [hp]

/-- **Which packets of a relayed link are carried, exactly.** -/
theorem carriedOnce_iff (env : Surroundings) (t : Transport) (now : ℕ) (raw : Bytes) (pkt : Packet)
    (iface : ℕ) (entry : LinkRelayEntry) (side : Side)
    (h : Arrives env.sha t raw pkt iface entry side) :
    CarriedOnce raw (entry.otherIface side) (dispatchInboundPacket env t now pkt iface).2 ↔
      Carries env t pkt iface entry side := by
  unfold Carries
  rcases h.packetType with hdata | hproof
  · rw [h.dispatch_data hdata, if_pos (Or.inl hdata), carriedOnce_ite rfl,
      h.carriedOnce_forwardLinkData]
  · have hne : pkt.packetType ≠ .data := by
      rw [hproof]
      nofun
    rw [h.dispatch_proof hproof]
    by_cases hlr : pkt.context = contextLRProof
    · have hprf : pkt.context ≠ contextResourcePRF := by
        rw [hlr]
        decide
      rw [if_pos hlr, if_neg (not_or.2 ⟨hne, hprf⟩), if_pos hlr, carriedOnce_ite rfl,
        h.carriedOnce_validateAndForwardLRProof]
      tauto
    · rw [if_neg hlr]
      by_cases hprf : pkt.context = contextResourcePRF
      · rw [if_pos hprf, if_pos (Or.inr hprf), carriedOnce_ite rfl, h.carriedOnce_forwardLinkData]
      · rw [if_neg hprf, if_neg (not_or.2 ⟨hne, hprf⟩), if_neg hlr,
          h.carriedOnce_forwardReverseProof]

/-! ## A relay between two interfaces -/

def someLink : Bytes := .replicate 16 7

def someEntry : LinkRelayEntry where
  nextHopIface := 0
  receivedIface := 1
  remainingHops := 1
  takenHops := 1
  destinationHash := .replicate 16 9
  validated := true
  timestamp := 0

def someRelay : Transport where
  config := some ⟨false, true, none⟩
  interfaces i := ⟨s!"if{i}", true, true, false⟩
  links := []
  linkTable := .singleton someLink someEntry
  reverseTable := ∅
  packetHashes := ⟨100, [], []⟩
  receipts := []
  receiptsByHash := ∅

def quietSurroundings : Surroundings where
  sha := .padded
  identityRecall _ := none
  verify _ _ _ := false
  applyPathHopRebalance _ _ _ := false
  validateProofPacket _ _ := false
  handleAnnouncePacket t _ _ := (t, [])
  handleLinkRequest t _ _ := (t, [])
  handleTransportPacket t _ _ := (t, [])

def somePacket (packetType : PacketType) (context : UInt8) (data : Bytes) : Packet :=
  let flags : UInt8 := match packetType with
    | .data => 0x0C
    | .announce => 0x0D
    | .linkReq => 0x0E
    | .proof => 0x0F
  { headerType := .headerType1, packetType, transportType := 0, context, contextFlag := 0, hops := 0
    destinationType := .link, transportID := [], destinationHash := someLink, data
    raw := flags :: 0 :: someLink ++ context :: data }

def dataPacket : Packet := somePacket .data contextNone [1, 2, 3]

def packetProof : Packet := somePacket .proof contextNone (.replicate explicitLength 5)

/-- A data packet from the initiator is carried to the destination. -/
theorem carriedOnce_dataPacket :
    Arrives Sha256.padded someRelay dataPacket.raw dataPacket 1 someEntry .received ∧
      CarriedOnce dataPacket.raw 0
        (dispatchInboundPacket quietSurroundings someRelay 5 dataPacket 1).2 := by
  have h : Arrives quietSurroundings.sha someRelay dataPacket.raw dataPacket 1 someEntry
      .received :=
    { unpacked := by decide +kernel
      enabled := rfl
      lookup := by decide +kernel
      validated := rfl
      destinationType := rfl
      packetType := .inl rfl
      iface_eq := rfl
      hops_eq := by decide +kernel
      fresh := by decide +kernel }
  exact ⟨h, (carriedOnce_iff quietSurroundings someRelay 5 _ _ 1 someEntry .received h).2
    ⟨by decide +kernel, by decide +kernel⟩⟩

/-- **The ordinary proof of a packet is not carried.**  It comes back from the destination over the
relayed link, the node has no reverse entry for the link, and nothing is sent. -/
theorem packetProof_dropped :
    Arrives Sha256.padded someRelay packetProof.raw packetProof 0 someEntry .nextHop ∧
      ¬ CarriedOnce packetProof.raw (someEntry.otherIface .nextHop)
        (dispatchInboundPacket quietSurroundings someRelay 5 packetProof 0).2 :=
  ⟨{ unpacked := by decide +kernel
     enabled := rfl
     lookup := by decide +kernel
     validated := rfl
     destinationType := rfl
     packetType := .inr rfl
     iface_eq := rfl
     hops_eq := by decide +kernel
     fresh := by decide +kernel },
    not_carriedOnce (by decide +kernel)⟩

end Transport

end Reticulum
