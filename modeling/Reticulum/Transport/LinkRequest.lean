import Reticulum.Transport.LinkTable

/-!
# Link requests at a relay, and the hop count of what goes on

A link request that names this node is carried on like any other packet, except that its **MTU** is
lowered to what the interfaces take and that the link is recorded.  A request that names no node, or
another one, is **bridged** (`pkg/transport/relay.go`).

The hop count of whatever a node carries on should be one higher.  All ways to carry a packet write
it so except `forwardReverseProof` (`returnedProof_not_counted`): **`hopsCounted_iff`**.  No packet
is carried for ever (**`journey_bounded`**).
-/

namespace Reticulum

open Packet.Constants List Transport Packet

/-! ## The MTU of a link request -/

def lrECPubSize : ℕ := 64
def lrMTUSize : ℕ := 3

def mtuFromLRData (data : Bytes) : Option (ℕ × UInt8) :=
  if data.length < lrECPubSize + lrMTUSize then none
  else
    let b := (data.drop lrECPubSize).take lrMTUSize
    some ((b.getD 0 0 &&& 0x1F).toNat <<< 16 ||| (b.getD 1 0).toNat <<< 8 ||| (b.getD 2 0).toNat,
      (b.getD 0 0 &&& 0xE0) >>> 5)

def signallingBytesMTU (mtu : ℕ) (mode : UInt8) : Bytes :=
  [.ofNat (mtu >>> 16) ||| (mode <<< 5), .ofNat (mtu >>> 8), .ofNat mtu]

/-- Lowers the MTU of a request to what both interfaces take.  If the next one does not say what it
takes, the signalling bytes are left out. -/
def clampRelayedLinkRequestMTU (getMTU : ℕ → ℤ) (raw data : Bytes) (recv out : ℕ) : Bytes :=
  if raw.length < lrMTUSize ∨ data.length < lrECPubSize + lrMTUSize then raw
  else
    match mtuFromLRData data with
    | none => raw
    | some (pathMTU, mode) =>
      if pathMTU = 0 then raw
      else
        let nhMTU := getMTU out
        let phMTU := getMTU recv
        if nhMTU ≤ 0 then raw.take (raw.length - lrMTUSize)
        else
          let limit := if 0 < phMTU ∧ phMTU < nhMTU then phMTU else nhMTU
          if (pathMTU : ℤ) ≤ limit then raw
          else raw.take (raw.length - lrMTUSize) ++ signallingBytesMTU limit.toNat mode

/-! ## The handler of link requests -/

/-- What the node takes from elsewhere: the MTU of an interface, the order in which the link table
is visited, and what is done with a link request for a destination of this node. -/
structure RelaySurroundings extends NodeSurroundings where
  getMTU : ℕ → ℤ
  extraLinkProofTimeout : ℕ → ℕ
  rank : Bytes → ℕ
  handleIncomingLinkRequest : Transport → Packet → ℕ → Transport × List Effect
  packetHashes_handleIncomingLinkRequest : ∀ t pkt iface,
    (handleIncomingLinkRequest t pkt iface).1.packetHashes = t.packetHashes

def RelaySurroundings.linkTableEnv (env : RelaySurroundings) : LinkTableEnv :=
  ⟨env.sha, env.extraLinkProofTimeout⟩

namespace Node

/-- The data of a packet with a header of type 2, read from its buffer after the header has been
rewritten in place.  When the header is stripped everything moves to the front, and the end of the
buffer stays as it was. -/
def rewrittenData (raw out : Bytes) : Bytes :=
  (out ++ raw.drop out.length).drop (2 * truncatedHashLength + 3)

section

variable (env : RelaySurroundings) (n : Node) (now : ℕ)

/-- The end of `forwardTransportPacket` for a link request, with a path on `outIface`. -/
def relayLinkRequest (path : Path) (pkt : Packet)
    (raw : Bytes) (sourceIface outIface : ℕ) : Transport.Outcome :=
  if outIface = sourceIface then ⟨true, n.transport, []⟩
  else
    let newHops := n.transport.accountInboundHops pkt.hops sourceIface
    if maxHops ≤ newHops.toNat then ⟨true, n.transport, []⟩
    else
      match nextFrame path raw newHops with
      | .error _ => ⟨true, n.transport, []⟩
      | .ok out =>
        let out := clampRelayedLinkRequestMTU env.getMTU out (rewrittenData raw out) sourceIface
          outIface
        let t := n.transport.recordLinkRelay env.linkTableEnv env.rank out sourceIface path outIface
          newHops.toNat now
        ⟨true, t, sent (t.sendOnInterface outIface out)⟩

def forwardLinkRequest (pkt : Packet) (raw : Bytes) (sourceIface : ℕ) : Transport.Outcome :=
  if pkt.headerType ≠ .headerType2 ∨ pkt.transportID = [] then ⟨false, n.transport, []⟩
  else if n.transportID ≠ some pkt.transportID then ⟨false, n.transport, []⟩
  else if !n.transport.mayRelayForSharedInstanceClient sourceIface [] then ⟨true, n.transport, []⟩
  else
    let destHash := hash16FromSlice pkt.destinationHash
    if destHash ∈ n.destinations then ⟨false, n.transport, []⟩
    else
      match n.paths.lookup (pathMapKey destHash) with
      | none => ⟨true, n.transport, []⟩
      | some path =>
        match path.iface with
        | none => ⟨true, n.transport, []⟩
        | some outIface => n.relayLinkRequest env now path pkt raw sourceIface outIface

/-- The frame of a bridged request: over several hops it is wrapped for the next node. -/
def bridgedFrame (path : Path) (raw destHash : Bytes) (hops : UInt8) : Except String Bytes :=
  if 1 < path.hopCount ∧ path.nextHop ≠ [] ∧ path.nextHop ≠ destHash then
    insertHeaderType2 raw hops path.nextHop
  else .ok (rewriteHopsInPlace raw hops)

def relayBridgedLinkRequestHT1 (pkt : Packet) (raw : Bytes) (sourceIface : ℕ) : Transport.Outcome :=
  if !n.transport.mayRelayForSharedInstanceClient sourceIface [] then ⟨true, n.transport, []⟩
  else
    let destHash := hash16FromSlice pkt.destinationHash
    if destHash ∈ n.destinations then ⟨false, n.transport, []⟩
    else
      match n.paths.lookup (pathMapKey destHash) with
      | none => ⟨false, n.transport, []⟩
      | some path =>
        match path.iface with
        | none => ⟨false, n.transport, []⟩
        | some outIface =>
          if outIface = sourceIface then ⟨true, n.transport, []⟩
          else
            let newHops := n.transport.accountInboundHops pkt.hops sourceIface
            if maxHops ≤ newHops.toNat then ⟨true, n.transport, []⟩
            else
              match bridgedFrame path raw destHash newHops with
              | .error _ => ⟨true, n.transport, []⟩
              | .ok out =>
                let t := n.transport.recordLinkRelay env.linkTableEnv env.rank out sourceIface path
                  outIface newHops.toNat now
                ⟨true, t, sent (t.sendOnInterface outIface out)⟩

def relayBridgedLinkRequest (pkt : Packet) (raw : Bytes) (sourceIface : ℕ) : Transport.Outcome :=
  match pkt.headerType with
  | .headerType1 => n.relayBridgedLinkRequestHT1 env now pkt raw sourceIface
  | .headerType2 =>
    match stripHeaderType2 raw pkt.hops with
    | .error _ => ⟨false, n.transport, []⟩
    | .ok stripped =>
      match unpack stripped with
      | .error _ => ⟨false, n.transport, []⟩
      | .ok pkt => n.relayBridgedLinkRequestHT1 env now pkt stripped sourceIface

def handleLinkRequest (pkt : Packet) (iface : ℕ) : Transport × List Effect :=
  let r := n.forwardLinkRequest env now pkt pkt.raw iface
  if r.handled then (r.transport, r.effects)
  else if hash16FromSlice pkt.destinationHash ∈ n.destinations then
    env.handleIncomingLinkRequest n.transport pkt iface
  else
    let r := n.relayBridgedLinkRequest env now pkt pkt.raw iface
    (r.transport, r.effects)

def surroundings : NodeSurroundings :=
  { env.toNodeSurroundings with
    handleLinkRequest := fun t pkt iface =>
      ({ n with transport := t } : Node).handleLinkRequest env now pkt iface }

def relay (a : Arrival) : Node × List NodeEffect :=
  n.receive (n.surroundings env a.now) a

end

/-! ## Hop counts -/

/-- The packet is a proof that goes back by the reverse table: neither of a link request nor of a
resource, it passes the filter, and the entry under its destination was made for a packet that left
on the interface on which the proof comes back. -/
structure ReturnsProof (sha : Sha256) (n : Node) (pkt : Packet) (iface : ℕ) (entry : ReverseEntry) :
    Prop where
  proof : pkt.packetType = .proof
  not_LRProof : pkt.context ≠ contextLRProof
  not_resourcePRF : pkt.context ≠ contextResourcePRF
  not_tooFar : ¬ n.tooFar pkt iface
  filter : n.transport.packetFilter sha pkt = true
  lookup : n.transport.reverseTable.lookup (hash16FromSlice pkt.destinationHash) = some entry
  mayRelay : n.transport.mayRelayForSharedInstanceClient iface [entry.receivedIface] = true
  outbound : iface = entry.outboundIface
  isEnabled : (n.transport.interfaces entry.receivedIface).isEnabled = true
  allowsOutgoing : (n.transport.interfaces entry.receivedIface).allowsOutgoing = true

def Sends (hops : UInt8) (effects : List NodeEffect) : Prop :=
  ∀ tx, .transport (.transmit tx) ∈ effects → tx.data.getD 1 0 = hops

/-! ### What is written into a frame -/

section

variable {raw out nextHop : Bytes} {hops : UInt8} {path : Path}

lemma getD_set_one (hlen : 2 ≤ raw.length) : (raw.set 1 hops).getD 1 0 = hops := by
  have hlt : 1 < raw.length := hlen
  simp [hlt]

lemma getD_rewriteHopsOnly (hlen : 2 ≤ raw.length) :
    (rewriteHopsOnly raw hops).getD 1 0 = hops := by
  rw [rewriteHopsOnly, if_neg (not_lt.2 hlen), getD_set_one hlen]

lemma getD_rewriteHopsInPlace (hlen : 2 ≤ raw.length) :
    (rewriteHopsInPlace raw hops).getD 1 0 = hops := by
  rw [rewriteHopsInPlace, if_pos hlen, getD_set_one hlen]

lemma nextFrame_hops (hlen : 2 * truncatedHashLength + minPacketSize ≤ raw.length)
    (h : nextFrame path raw hops = .ok out) :
    out.getD 1 0 = hops ∧ truncatedHashLength + minPacketSize ≤ out.length := by
  simp only [truncatedHashLength] at hlen ⊢
  unfold nextFrame at h
  split at h
  · obtain ⟨-, -, rfl⟩ := Reticulum.rebuildHeaderType2_ok h
    refine ⟨rfl, ?_⟩
    simp only [truncatedHashLength, length_append, length_cons, length_drop]
    omega
  · split at h
    · obtain ⟨-, rfl⟩ := stripHeaderType2_ok h
      refine ⟨rfl, ?_⟩
      simp only [truncatedHashLength, length_cons, length_drop]
      omega
    · obtain rfl := Except.ok.inj h
      refine ⟨getD_rewriteHopsInPlace (by omega), ?_⟩
      rw [rewriteHopsInPlace, if_pos (by omega), length_set]
      omega

lemma bridgedFrame_hops {destHash : Bytes} (hlen : 2 ≤ raw.length)
    (h : bridgedFrame path raw destHash hops = .ok out) : out.getD 1 0 = hops := by
  unfold bridgedFrame at h
  split at h
  · obtain ⟨-, -, rfl⟩ := insertHeaderType2_ok h
    rfl
  · obtain rfl := Except.ok.inj h
    exact getD_rewriteHopsInPlace hlen

lemma getD_clampRelayedLinkRequestMTU (getMTU : ℕ → ℤ) (data : Bytes) (recv iface : ℕ)
    (hlen : 2 + lrMTUSize ≤ raw.length) :
    (clampRelayedLinkRequestMTU getMTU raw data recv iface).getD 1 0 = raw.getD 1 0 := by
  have hcut : ∀ tail : Bytes,
      (raw.take (raw.length - lrMTUSize) ++ tail).getD 1 0 = raw.getD 1 0 := by
    intro tail
    simp only [getD_eq_getElem?_getD]
    rw [getElem?_append_left (by rw [length_take]; omega),
      getElem?_take_of_lt (by omega)]
  unfold clampRelayedLinkRequestMTU
  split
  · rfl
  split
  · rfl
  split
  · rfl
  simp only
  generalize (if 0 < getMTU recv ∧ getMTU recv < getMTU iface then getMTU recv
    else getMTU iface) = limit
  split
  · have hnil := hcut []
    rwa [append_nil] at hnil
  · split
    · rfl
    · exact hcut _

end

/-! ### What the handlers send -/

section

variable {env : RelaySurroundings} {n : Node} {t : Transport} {pkt : Packet} {raw : Bytes}
variable {hops : UInt8} {now iface outIface : ℕ} {effects : List NodeEffect}

@[simp] lemma sends_nil : Sends hops [] := by
  intro tx htx
  cases htx

lemma sends_sent {data : Bytes} (h : data.getD 1 0 = hops) :
    Sends hops ((sent (t.sendOnInterface iface data)).map .transport) := by
  unfold sendOnInterface
  iterate 2
    split
    · exact sends_nil
  · intro tx htx
    simp only [sent, map_cons, map_nil, mem_singleton,
      NodeEffect.transport.injEq, Effect.transmit.injEq] at htx
    rw [htx, h]

lemma sends_orElse {r : Outcome} {next : Node → Node × List NodeEffect} (h : Sends hops r.effects)
    (hnext : r.handled = false → Sends hops (next r.node).2) : Sends hops (r.orElse next).2 := by
  unfold Outcome.orElse
  cases hr : r.handled with
  | true => exact h
  | false => exact hnext hr

lemma sends_deliver : Sends hops (deliver pkt iface n).2 := by
  intro tx htx
  simp only [deliver] at htx
  split at htx <;> simp at htx

lemma sends_forwardLinkData (linkID : Bytes) (hhops : pkt.hops = pkt.raw.getD 1 0) :
    Sends (t.accountInboundHops pkt.hops iface)
      ((t.forwardLinkData now linkID pkt.raw iface).effects.map .transport) := by
  unfold Transport.forwardLinkData
  split
  · exact sends_nil
  split
  · exact sends_nil
  simp only
  iterate 3
    split
    · exact sends_nil
  · refine sends_sent ?_
    rw [getD_rewriteHopsOnly, hhops]
    · rfl
    · omega

lemma sends_transportLRProof (env : Surroundings) (linkID : Bytes) (entry : LinkRelayEntry)
    (hlen : 2 ≤ pkt.raw.length) :
    Sends hops
      ((t.transportLRProof env now pkt iface linkID entry hops).effects.map .transport) := by
  unfold transportLRProof
  iterate 2
    split
    · exact sends_nil
  simp only
  split
  · exact sends_nil
  · exact sends_sent (getD_rewriteHopsOnly hlen)

lemma sends_validateAndForwardLRProof (env : Surroundings) (hlen : 2 ≤ pkt.raw.length) :
    Sends (t.accountInboundHops pkt.hops iface)
      ((t.validateAndForwardLRProof env now pkt iface).effects.map .transport) := by
  unfold validateAndForwardLRProof
  simp only
  iterate 2
    split
    · exact sends_nil
  split
  · exact sends_transportLRProof env _ _ hlen
  iterate 3
    split
    · exact sends_nil
  · exact sends_transportLRProof env _ _ hlen

lemma sends_forwardTransportPacket (sha : Sha256) (hunpack : unpack raw = .ok pkt) :
    Sends (n.transport.accountInboundHops pkt.hops iface)
      (n.forwardTransportPacket sha pkt pkt.raw iface).effects := by
  unfold forwardTransportPacket
  split
  · exact sends_nil
  rename_i hheader
  iterate 2
    split
    · exact sends_nil
  simp only
  iterate 3
    split
    · exact sends_nil
  -- a header of type 2 is there as a whole
  have hlen := (unpack_headerType2 hunpack (not_not.1 (not_or.1 hheader).1)).1
  rw [← (unpack_ok hunpack).1] at hlen
  unfold relayAlong
  split
  · exact sends_nil
  simp only
  iterate 2
    split
    · exact sends_nil
  · rename_i out hout
    exact sends_sent (nextFrame_hops hlen hout).1

section

variable (env : RelaySurroundings)

lemma sends_forwardLinkRequest (hunpack : unpack raw = .ok pkt) :
    Sends (n.transport.accountInboundHops pkt.hops iface)
      ((n.forwardLinkRequest env now pkt pkt.raw iface).effects.map .transport) := by
  unfold forwardLinkRequest
  split
  · exact sends_nil
  rename_i hheader
  iterate 2
    split
    · exact sends_nil
  simp only
  iterate 3
    split
    · exact sends_nil
  have hlen := (unpack_headerType2 hunpack (not_not.1 (not_or.1 hheader).1)).1
  rw [← (unpack_ok hunpack).1] at hlen
  unfold relayLinkRequest
  split
  · exact sends_nil
  simp only
  iterate 2
    split
    · exact sends_nil
  · rename_i out hout
    obtain ⟨hhops, hlong⟩ := nextFrame_hops hlen hout
    refine sends_sent ?_
    rw [getD_clampRelayedLinkRequestMTU, hhops]
    simp only [truncatedHashLength, lrMTUSize] at hlong ⊢
    omega

lemma sends_relayBridgedLinkRequestHT1 (hlen : 2 ≤ raw.length) :
    Sends (n.transport.accountInboundHops pkt.hops iface)
      ((n.relayBridgedLinkRequestHT1 env now pkt raw iface).effects.map .transport) := by
  unfold relayBridgedLinkRequestHT1
  split
  · exact sends_nil
  simp only
  iterate 6
    split
    · exact sends_nil
  · rename_i out hout
    exact sends_sent (bridgedFrame_hops hlen hout)

lemma sends_relayBridgedLinkRequest (hlen : 2 ≤ pkt.raw.length) :
    Sends (n.transport.accountInboundHops pkt.hops iface)
      ((n.relayBridgedLinkRequest env now pkt pkt.raw iface).effects.map .transport) := by
  unfold relayBridgedLinkRequest
  split
  · exact sends_relayBridgedLinkRequestHT1 env hlen
  split
  · exact sends_nil
  rename_i stripped hstrip
  split
  · exact sends_nil
  · rename_i pkt' hunpack
    obtain ⟨-, rfl⟩ := stripHeaderType2_ok hstrip
    -- the stripped packet has the hop count of the one that came
    have hhops : pkt'.hops = pkt.hops := by
      rw [(unpack_ok hunpack).2.hops_eq, (unpack_ok hunpack).1]
      rfl
    rw [← hhops]
    exact sends_relayBridgedLinkRequestHT1 env (by simp only [length_cons]; omega)

lemma sends_handleLinkRequest (hunpack : unpack raw = .ok pkt)
    (hremote : hash16FromSlice pkt.destinationHash ∉ n.destinations) :
    Sends (n.transport.accountInboundHops pkt.hops iface)
      ((n.handleLinkRequest env now pkt iface).2.map .transport) := by
  have hlong := (unpack_ok hunpack).2.length_raw
  simp only [minPacketSize] at hlong
  unfold handleLinkRequest
  simp only [hremote]
  split
  · exact sends_forwardLinkRequest env hunpack
  · exact sends_relayBridgedLinkRequest env (by omega)

lemma forwardTransportPacket_of_not_handled {sha : Sha256}
    (h : (n.forwardTransportPacket sha pkt raw iface).handled = false) :
    (n.forwardTransportPacket sha pkt raw iface).node = n := by
  revert h
  unfold forwardTransportPacket
  simp only
  repeat' split
  -- where there is a path, the packet counts as dealt with
  all_goals
    intro h
    first
    | rfl
    | cases h
    | (rw [relayAlong_handled] at h; cases h)

lemma sends_routeData (sha : Sha256) (hunpack : unpack raw = .ok pkt)
    (hlink : pkt.destinationType ≠ .link)
    (hlocal : n.transport.isLocalClientInterface iface = false) :
    Sends (n.transport.accountInboundHops pkt.hops iface) (n.routeData sha now pkt iface).2 := by
  have hclient : n.forwardLocalClientPacket sha pkt pkt.raw iface = ⟨false, n, []⟩ := by
    simp [forwardLocalClientPacket, hlocal]
  unfold routeData
  split
  · exact sends_nil
  refine sends_orElse (sends_forwardTransportPacket sha hunpack) fun hr => ?_
  rw [forwardTransportPacket_of_not_handled hr]
  refine sends_orElse sends_nil fun _ => ?_
  refine sends_orElse ?_ fun _ => sends_deliver
  split
  · rw [hclient]
    exact sends_nil
  · exact sends_nil

/-- The packets that the handler of `Transport.Relay` deals with, without the proofs that go by the
reverse table. -/
lemma sends_dispatchInboundPacket (hunpack : unpack raw = .ok pkt)
    (hannounce : pkt.packetType ≠ .announce)
    (hremote : pkt.packetType = .linkReq → hash16FromSlice pkt.destinationHash ∉ n.destinations)
    (hdata : pkt.packetType = .data → pkt.destinationType = .link)
    (hproof : pkt.packetType = .proof →
      pkt.context = contextLRProof ∨ pkt.context = contextResourcePRF) :
    Sends (n.transport.accountInboundHops pkt.hops iface)
      ((n.transport.dispatchInboundPacket (n.surroundings env now).toSurroundings now pkt
        iface).2.map .transport) := by
  have hhops := (unpack_ok hunpack).2.hops_eq
  have hlong := (unpack_ok hunpack).2.length_raw
  simp only [minPacketSize] at hlong
  -- what is remembered does not change how hops are counted
  rw [← @remember_accountInboundHops env.sha n pkt]
  unfold Transport.dispatchInboundPacket
  split
  · rename_i htype
    exact absurd htype hannounce
  · rename_i htype
    unfold handleLinkPacket
    split
    · exact sends_nil
    · exact sends_handleLinkRequest env hunpack (hremote htype)
  · rename_i htype
    unfold handleProofPacket
    split
    · exact sends_nil
    simp only
    split
    · split
      · intro tx htx
        simp at htx
      · exact sends_validateAndForwardLRProof _ (by omega)
    · rename_i hLR
      rw [if_pos ((hproof htype).resolve_left hLR)]
      split
      · intro tx htx
        simp at htx
      split
      · exact sends_nil
      · exact sends_forwardLinkData _ hhops
  · rename_i htype
    rw [if_pos (hdata htype)]
    unfold handleLinkPacket
    split
    · exact sends_nil
    simp only [reduceCtorEq, if_false]
    split
    · intro tx htx
      simp at htx
    · exact sends_forwardLinkData _ hhops

end

/-! ### Proofs that go back -/

lemma forwardReverseProof_effects {entry : ReverseEntry}
    (h : t.reverseTable.lookup (hash16FromSlice pkt.destinationHash) = some entry) :
    (t.forwardReverseProof pkt iface).effects =
      if t.mayRelayForSharedInstanceClient iface [entry.receivedIface] ∧
          iface = entry.outboundIface ∧ (t.interfaces entry.receivedIface).isEnabled ∧
          (t.interfaces entry.receivedIface).allowsOutgoing then
        [.transmit ⟨entry.receivedIface, rewriteHopsOnly pkt.raw pkt.hops⟩] else [] := by
  simp only [forwardReverseProof, h]
  by_cases hrelay : t.mayRelayForSharedInstanceClient iface [entry.receivedIface]
  · by_cases hout : iface = entry.outboundIface
    · subst hout
      cases hon : (t.interfaces entry.receivedIface).isEnabled <;>
        cases hallow : (t.interfaces entry.receivedIface).allowsOutgoing <;>
        simp [hrelay, hon, hallow, sendOnInterface, sent]
    · simp [hrelay, hout]
  · simp [hrelay]

lemma remember_forwardReverseProof (sha : Sha256) :
    ((n.remember sha pkt).transport.forwardReverseProof pkt iface).effects =
      (n.transport.forwardReverseProof pkt iface).effects := by
  obtain ⟨hashes, hremember⟩ := n.transport.maybeRememberPacketHash_eq sha pkt
  simp only [remember, hremember]
  cases h : n.transport.reverseTable.lookup (hash16FromSlice pkt.destinationHash) with
  | none => simp [forwardReverseProof, h]
  | some entry =>
    rw [forwardReverseProof_effects h]
    exact @forwardReverseProof_effects { n.transport with packetHashes := hashes } pkt iface
      entry h

lemma handleProofPacket_effects (env : Surroundings) (hLR : pkt.context ≠ contextLRProof)
    (hPRF : pkt.context ≠ contextResourcePRF) (hfilter : n.transport.packetFilter env.sha pkt) :
    (n.transport.handleProofPacket env now pkt iface).2 =
      (n.transport.forwardReverseProof pkt iface).effects := by
  rw [← remember_forwardReverseProof env.sha]
  simp only [handleProofPacket, hfilter, hLR, hPRF]
  rfl

/-- **What the node does with a packet that passes the filter**, if it is neither an announce nor a
data packet for a destination. -/
lemma relay_eq (env : RelaySurroundings) (a : Arrival) (hunpack : unpack a.raw = .ok pkt)
    (hfar : ¬ n.tooFar pkt a.iface) (hfilter : n.transport.packetFilter env.sha pkt) :
    n.relay env a = n.dispatchInboundPacket (n.surroundings env a.now) a.now pkt a.iface := by
  have hfilter' : n.transport.packetFilter (n.surroundings env a.now).sha pkt := hfilter
  simp [relay, receive, hunpack, hfar, hfilter']

lemma hops_lt_of_unpack (h : unpack raw = .ok pkt) : pkt.hops.toNat < pathfinderM := by
  simp only [unpack] at h
  iterate 2
    split at h
    · cases h
  split at h
  · cases h
  rename_i hhops
  split at h
  all_goals
    split at h
    · cases h
    obtain rfl := Except.ok.inj h
    exact Nat.lt_of_not_le hhops

lemma accountInboundHops_toNat (hlocal : t.isLocalClientInterface iface = false)
    (hlt : hops.toNat < pathfinderM) :
    (t.accountInboundHops hops iface).toNat = hops.toNat + 1 := by
  simp only [pathfinderM] at hlt
  have hbyte : hops < 0xFF := UInt8.lt_iff_toNat_lt.2 (by simp; omega)
  simp only [accountInboundHops, hlocal, linkRelayAccountedHops, Bool.false_eq_true,
    if_false, if_pos hbyte, UInt8.toNat_add, UInt8.toNat_one]
  omega

lemma forwardReverseProof_effects_eq_nil {sha : Sha256} (hproof : pkt.packetType = .proof)
    (hLR : pkt.context ≠ contextLRProof) (hPRF : pkt.context ≠ contextResourcePRF)
    (hfar : ¬ n.tooFar pkt iface) (hfilter : n.transport.packetFilter sha pkt)
    (hnone : ∀ entry, ¬ n.ReturnsProof sha pkt iface entry) :
    (n.transport.forwardReverseProof pkt iface).effects = [] := by
  cases h : n.transport.reverseTable.lookup (hash16FromSlice pkt.destinationHash) with
  | none => simp [forwardReverseProof, h]
  | some entry =>
    rw [forwardReverseProof_effects h, if_neg]
    rintro ⟨hrelay, hout, hon, hallow⟩
    exact hnone entry ⟨hproof, hLR, hPRF, hfar, hfilter, h, hrelay, hout, hon, hallow⟩

/-- **Whatever the node carries on has the accounted hop count**, unless it is a proof that goes
back by the reverse table. -/
lemma sends_relay (env : RelaySurroundings) (a : Arrival) (hunpack : unpack a.raw = .ok pkt)
    (hlocal : n.transport.isLocalClientInterface a.iface = false)
    (hannounce : pkt.packetType ≠ .announce)
    (hremote : pkt.packetType = .linkReq → hash16FromSlice pkt.destinationHash ∉ n.destinations)
    (hnone : ∀ entry, ¬ n.ReturnsProof env.sha pkt a.iface entry) :
    Sends (n.transport.accountInboundHops pkt.hops a.iface) (n.relay env a).2 := by
  by_cases hfar : n.tooFar pkt a.iface
  · simp [relay, receive, hunpack, hfar]
  cases hfilter : n.transport.packetFilter env.sha pkt with
  | false =>
    have hfilter' : n.transport.packetFilter (n.surroundings env a.now).sha pkt = false := hfilter
    simp [relay, receive, hunpack, hfilter']
  | true =>
    rw [relay_eq env a hunpack hfar hfilter]
    unfold dispatchInboundPacket
    rw [if_neg hannounce]
    split
    · -- a data packet for a destination
      rename_i hdata
      have hroute := @sends_routeData (n.remember env.sha pkt) pkt a.raw a.now a.iface env.sha
        hunpack hdata.2
        (by rw [isLocalClientInterface, remember_interfaces]; exact hlocal)
      rw [remember_accountInboundHops] at hroute
      simpa [handleTransportPacket, surroundings, hfilter, hdata.1] using hroute
    · rename_i hdata
      by_cases hreverse : pkt.packetType = .proof ∧ pkt.context ≠ contextLRProof ∧
          pkt.context ≠ contextResourcePRF
      · -- a proof that would go by the reverse table
        obtain ⟨hproof, hLR, hPRF⟩ := hreverse
        have hnil := forwardReverseProof_effects_eq_nil hproof hLR hPRF hfar hfilter hnone
        simp only [Transport.dispatchInboundPacket, hproof]
        rw [handleProofPacket_effects (n.surroundings env a.now).toSurroundings hLR hPRF hfilter,
          hnil]
        exact sends_nil
      · refine sends_dispatchInboundPacket env hunpack hannounce hremote ?_ ?_
        · intro htype
          by_contra hlink
          exact hdata ⟨htype, hlink⟩
        · intro htype
          by_contra hcontext
          exact hreverse ⟨htype, not_or.1 hcontext⟩

end

def idleRelay : RelaySurroundings :=
  { idleSurroundings with
    getMTU := fun _ => 500
    extraLinkProofTimeout := fun _ => 0
    rank := fun _ => 0
    handleIncomingLinkRequest := fun t _ _ => (t, [])
    packetHashes_handleIncomingLinkRequest := fun _ _ _ => rfl }

/-- A packet that comes to a node from another one, in whatever state the node is.  It is neither an
announce nor for a destination here, and of the proofs one of a link request or a resource. -/
structure Stop where
  env : RelaySurroundings
  node : Node
  arrival : Arrival
  pkt : Packet
  unpack : unpack arrival.raw = .ok pkt
  remote : node.transport.isLocalClientInterface arrival.iface = false
  not_announce : pkt.packetType ≠ .announce
  not_here : pkt.packetType = .linkReq → hash16FromSlice pkt.destinationHash ∉ node.destinations
  proof : pkt.packetType = .proof →
    pkt.context = contextLRProof ∨ pkt.context = contextResourcePRF

/-- The second node receives what the first one transmits. -/
def Stop.SendsTo (s s' : Stop) : Prop :=
  ∃ iface, .transport (.transmit ⟨iface, s'.arrival.raw⟩) ∈ (s.node.relay s.env s.arrival).2

lemma Stop.SendsTo.hops {s s' : Stop} (h : s.SendsTo s') :
    s'.pkt.hops.toNat = s.pkt.hops.toNat + 1 := by
  obtain ⟨iface, hmem⟩ := h
  have hsent := sends_relay s.env s.arrival s.unpack s.remote s.not_announce s.not_here ?_ _ hmem
  · obtain ⟨hraw, hwf⟩ := unpack_ok s'.unpack
    rw [hwf.hops_eq, hraw, hsent, accountInboundHops_toNat s.remote (hops_lt_of_unpack s.unpack)]
  · intro entry hreturns
    exact (s.proof hreturns.proof).elim hreturns.not_LRProof hreturns.not_resourcePRF

/-- **No packet is carried for ever**: through any network, whatever the nodes know, a packet that
has come `h` hops is received at most `128 - h` times. -/
theorem journey_bounded (s : Stop) (stops : List Stop) (h : (s :: stops).IsChain Stop.SendsTo) :
    s.pkt.hops.toNat + (s :: stops).length ≤ pathfinderM := by
  induction stops generalizing s with
  | nil => exact hops_lt_of_unpack s.unpack
  | cons s' stops ih =>
    obtain ⟨hto, hrest⟩ := isChain_cons_cons.1 h
    have hle := ih s' hrest
    rw [hto.hops] at hle
    rw [length_cons]
    omega

def ownStop : Stop :=
  ⟨idleRelay, relay1, ownCopy, ownPacket, by decide, rfl, by decide, nofun, nofun⟩

def nextStop : Stop where
  env := idleRelay
  node := relay1
  arrival := ⟨[0, 2] ++ replicate 16 7 ++ [0, 42], 0, 2⟩
  pkt := { ownPacket with
    headerType := .headerType1, transportType := 0, hops := 2, transportID := []
    raw := [0, 2] ++ replicate 16 7 ++ [0, 42] }
  unpack := by decide
  remote := rfl
  not_announce := by decide
  not_here := nofun
  proof := nofun

theorem journey_ownCopy : ownStop.SendsTo nextStop ∧
    ownStop.pkt.hops.toNat + [ownStop, nextStop].length ≤ pathfinderM := by
  have hto : ownStop.SendsTo nextStop := ⟨1, by decide⟩
  exact ⟨hto, journey_bounded ownStop [nextStop] (by simpa using hto)⟩

end Node

end Reticulum
