import Reticulum.Transport.PathSelection
import Reticulum.Transport.Relay

/-!
# Forwarding packets along paths

A packet with a header of type 2 names the **transport node** that is to carry it on.  That node
looks up its path to the destination, rewrites the header for the next hop and transmits the packet
on the interface of the path (`pkg/transport/relay.go`): **`ToForward.forwards_receive_iff`**.  What
is remembered of a history is the subject of `Transport.Overhearing`.
-/

namespace Reticulum

open Packet.Constants Transport

/-! ## The node -/

/-- The node with what it needs to forward packets: its identity, the hashes of the destinations
that are registered at it, and its paths. -/
structure Node where
  transport : Transport
  transportID : Option Bytes
  destinations : List Bytes
  paths : Map Bytes Path

/-- What the node does: an effect of the packet handler, or a packet for one of its destinations. -/
inductive NodeEffect where
  | transport (effect : Effect)
  | receive (destination : Bytes) (pkt : Packet) (iface : ℕ)
deriving DecidableEq

structure Arrival where
  raw : Bytes
  iface : ℕ
  now : ℕ
deriving DecidableEq

/-- The surroundings of the packet handler, with a handler of announces, which changes paths. -/
structure NodeSurroundings extends Surroundings where
  handleAnnounce : Node → Packet → ℕ → (Map Bytes Path) × List NodeEffect

def maxHops : ℕ := 128
def minTransportPacketSize : ℕ := 19
def pathMapKeySize : ℕ := 32
def contextPathResponse : UInt8 := 0x0B

def pathMapKey (h : Bytes) : Bytes :=
  h.take pathMapKeySize ++ List.replicate (pathMapKeySize - h.length) 0

/-! ## Headers for the next hop -/

def nextHopError (nextHop : Bytes) : String :=
  s!"next hop must be {truncatedHashLength} bytes, got {nextHop.length}"

/-- Another transport node follows: its identity takes the place of ours. -/
def rebuildHeaderType2 (raw : Bytes) (hops : UInt8) (nextHop : Bytes) : Except String Bytes :=
  if raw.length < truncatedHashLength + 2 then .error "packet too short for HeaderType2 rewrite"
  else if nextHop.length ≠ truncatedHashLength then .error (nextHopError nextHop)
  else .ok (raw.getD 0 0 :: hops :: nextHop ++ raw.drop (truncatedHashLength + 2))

/-- The destination follows: the transport identity is taken out. -/
def stripHeaderType2 (raw : Bytes) (hops : UInt8) : Except String Bytes :=
  if raw.length < truncatedHashLength + 2 then .error "packet too short for HeaderType2 strip"
  else .ok ((raw.getD 0 0 &&& 0x0F) :: hops :: raw.drop (truncatedHashLength + 2))

def rewriteHopsInPlace (raw : Bytes) (hops : UInt8) : Bytes :=
  if 2 ≤ raw.length then raw.set 1 hops else raw

/-- A packet of a local client is given a transport identity. -/
def insertHeaderType2 (raw : Bytes) (hops : UInt8) (nextHop : Bytes) : Except String Bytes :=
  if raw.length < 2 then .error "packet too short for HeaderType2 insert"
  else if nextHop.length ≠ truncatedHashLength then .error (nextHopError nextHop)
  else
    let flags := headerMaskHeaderType ||| headerMaskTransportType |||
      (raw.getD 0 0 &&& (headerMaskContextFlag ||| 0x0F))
    .ok (flags :: hops :: nextHop ++ raw.drop 2)

def nextFrame (path : Path) (raw : Bytes) (hops : UInt8) : Except String Bytes :=
  if 1 < path.hopCount then rebuildHeaderType2 raw hops path.nextHop
  else if path.hopCount = 1 then stripHeaderType2 raw hops
  else .ok (rewriteHopsInPlace raw hops)

namespace Node

variable (env : NodeSurroundings)

/-! ## Forwarding -/

structure Outcome where
  handled : Bool
  node : Node
  effects : List NodeEffect

def recordReverseEntry (sha : Sha256) (n : Node) (pkt : Packet) (recvIface outIface : ℕ) : Node :=
  let th := hash16FromSlice (pkt.getHash sha)
  if th = [] then n
  else { n with transport := { n.transport with
    reverseTable := n.transport.reverseTable.insert th ⟨recvIface, outIface⟩ } }

def send (n : Node) (iface : ℕ) (data : Bytes) : List NodeEffect :=
  (sent (n.transport.sendOnInterface iface data)).map .transport

section

variable (sha : Sha256) (n : Node)

def relayAlong (path : Path) (pkt : Packet) (raw : Bytes) (sourceIface outIface : ℕ) : Outcome :=
  if outIface = sourceIface then ⟨true, n, []⟩
  else
    let newHops := n.transport.accountInboundHops pkt.hops sourceIface
    if maxHops ≤ newHops.toNat then ⟨true, n, []⟩
    else
      match nextFrame path raw newHops with
      | .error _ => ⟨true, n, []⟩
      | .ok out =>
        let n := if pkt.packetType = .announce then n
          else n.recordReverseEntry sha pkt sourceIface outIface
        ⟨true, n, n.send outIface out⟩

def forwardTransportPacket (pkt : Packet) (raw : Bytes) (sourceIface : ℕ) : Outcome :=
  if pkt.headerType ≠ .headerType2 ∨ pkt.transportID = [] then ⟨false, n, []⟩
  else if n.transportID ≠ some pkt.transportID then ⟨false, n, []⟩
  else if !n.transport.mayRelayForSharedInstanceClient sourceIface [] then ⟨true, n, []⟩
  else
    let destHash := hash16FromSlice pkt.destinationHash
    if destHash ∈ n.destinations then ⟨false, n, []⟩
    else
      match n.paths.lookup (pathMapKey destHash) with
      | none => ⟨true, n, []⟩
      | some path =>
        match path.iface with
        | none => ⟨true, n, []⟩
        | some outIface => relayAlong sha n path pkt raw sourceIface outIface

def forwardLocalClientPacket (pkt : Packet) (raw : Bytes) (sourceIface : ℕ) : Outcome :=
  if !n.transport.isLocalClientInterface sourceIface then ⟨false, n, []⟩
  else
    let destHash := hash16FromSlice pkt.destinationHash
    if destHash ∈ n.destinations then ⟨false, n, []⟩
    else
      match n.paths.lookup (pathMapKey destHash) with
      | none => ⟨false, n, []⟩
      | some path =>
        match path.iface with
        | none => ⟨false, n, []⟩
        | some outIface =>
          if outIface = sourceIface then ⟨true, n, []⟩
          else
            let newHops := linkRelayAccountedHops (raw.getD 1 0) true
            if maxHops ≤ newHops.toNat then ⟨true, n, []⟩
            else
              let out :=
                if 1 < path.hopCount ∧ path.nextHop ≠ [] ∧ path.nextHop ≠ destHash then
                  insertHeaderType2 raw newHops path.nextHop
                else .ok (rewriteHopsInPlace raw newHops)
              match out with
              | .error _ => ⟨true, n, []⟩
              | .ok out =>
                let n := if pkt.packetType = .announce then n
                  else n.recordReverseEntry sha pkt sourceIface outIface
                ⟨true, n, n.send outIface out⟩

def forwardLinkData (now : ℕ) (pkt : Packet) (iface : ℕ) : Outcome :=
  let r := n.transport.forwardLinkData now pkt.destinationHash pkt.raw iface
  ⟨r.handled, { n with transport := r.transport }, r.effects.map .transport⟩

/-! ## Handlers -/

def remember (pkt : Packet) : Node :=
  { n with transport := n.transport.maybeRememberPacketHash sha pkt }

def Outcome.orElse (r : Outcome) (next : Node → Node × List NodeEffect) : Node × List NodeEffect :=
  if r.handled then (r.node, r.effects) else next r.node

def deliver (pkt : Packet) (iface : ℕ) (n : Node) : Node × List NodeEffect :=
  let destHash := hash16FromSlice pkt.destinationHash
  if destHash ∈ n.destinations then (n, [.receive destHash pkt iface]) else (n, [])

/-- What `handleTransportPacket` does with a data packet that has passed the filter.  A plain packet
with the context of a path response where a header of type 1 has it is ignored. -/
def routeData (now : ℕ) (pkt : Packet) (iface : ℕ) : Node × List NodeEffect :=
  if pkt.destinationType = .plain ∧
      (pkt.raw.length < minTransportPacketSize ∨
        pkt.raw.getD (minTransportPacketSize - 1) 0 = contextPathResponse) then (n, [])
  else
    (n.forwardTransportPacket sha pkt pkt.raw iface).orElse fun n =>
      (if pkt.destinationType = .link then n.forwardLinkData now pkt iface
        else ⟨false, n, []⟩).orElse fun n =>
          (if pkt.destinationType = .single then n.forwardLocalClientPacket sha pkt pkt.raw iface
            else ⟨false, n, []⟩).orElse (deliver pkt iface)

def handleTransportPacket (now : ℕ) (pkt : Packet) (iface : ℕ) : Node × List NodeEffect :=
  if !n.transport.packetFilter sha pkt then (n, [])
  else if pkt.packetType = .data then (n.remember sha pkt).routeData sha now pkt iface
  else (n.remember sha pkt, [])

end

def dispatchInboundPacket (n : Node) (now : ℕ) (pkt : Packet)
    (iface : ℕ) : Node × List NodeEffect :=
  if pkt.packetType = .announce then
    let r := env.handleAnnounce n pkt iface
    ({ n with paths := r.1 }, r.2)
  else if pkt.packetType = .data ∧ pkt.destinationType ≠ .link then
    n.handleTransportPacket env.sha now pkt iface
  else
    let r := n.transport.dispatchInboundPacket env.toSurroundings now pkt iface
    ({ n with transport := r.1 }, r.2.map .transport)

def tooFar (n : Node) (pkt : Packet) (iface : ℕ) : Prop :=
  pkt.packetType ≠ .announce ∧ (pkt.destinationType = .plain ∨ pkt.destinationType = .group) ∧
    1 < n.transport.accountInboundHops pkt.hops iface

instance (n : Node) (pkt : Packet) (iface : ℕ) : Decidable (n.tooFar pkt iface) :=
  inferInstanceAs (Decidable (_ ∧ _ ∧ _))

def receive (n : Node) (a : Arrival) : Node × List NodeEffect :=
  match Packet.unpack a.raw with
  | .error _ => (n, [])
  | .ok pkt =>
    if n.tooFar pkt a.iface then (n, [])
    else if !n.transport.packetFilter env.sha pkt then (n, [])
    else n.dispatchInboundPacket env a.now pkt a.iface

/-! ## The packets that are to be forwarded -/

/-- A data packet for a destination that names this node, which is a transport node with a path to
the destination on an enabled interface. -/
structure ToForward (n : Node) (raw : Bytes) (pkt : Packet) (path : Path) (outIface : ℕ) :
    Prop where
  unpack : Packet.unpack raw = .ok pkt
  data : pkt.packetType = .data
  not_link : pkt.destinationType ≠ .link
  headerType : pkt.headerType = .headerType2
  transportID : n.transportID = some pkt.transportID
  enabled : n.transport.transportEnabled = true
  lookup_path : n.paths.lookup (pathMapKey (hash16FromSlice pkt.destinationHash)) = some path
  path_iface : path.iface = some outIface
  isEnabled : (n.transport.interfaces outIface).isEnabled = true

section

variable {sha : Sha256} {n : Node} {raw : Bytes} {pkt : Packet} {path : Path}
variable {sourceIface outIface now : ℕ}

lemma rebuildHeaderType2_ok {hops : UInt8} {nextHop out : Bytes} :
    rebuildHeaderType2 raw hops nextHop = .ok out →
      nextHop.length = truncatedHashLength := by
  unfold rebuildHeaderType2
  split_ifs with hlen hnext
  · nofun
  · nofun
  · intro _
    exact not_not.1 hnext

lemma relayAlong_handled (raw : Bytes) :
    (relayAlong sha n path pkt raw sourceIface outIface).handled := by
  simp only [relayAlong]
  repeat' split
  all_goals rfl

lemma unpack_headerType2 (h : Packet.unpack raw = .ok pkt) (h2 : pkt.headerType = .headerType2) :
    2 * truncatedHashLength + minPacketSize ≤ raw.length ∧
      pkt.transportID = (raw.drop 2).take truncatedHashLength ∧
      pkt.destinationHash = (raw.drop (2 + truncatedHashLength)).take truncatedHashLength := by
  simp only [Packet.unpack] at h
  iterate 3
    split at h
    · cases h
  split at h
  all_goals
    split at h
    · cases h
    obtain rfl := Except.ok.inj h
  · rename_i hlen
    exact ⟨not_lt.1 hlen, rfl, rfl⟩
  · cases h2

lemma remember_config : (n.remember sha pkt).transport.config = n.transport.config := by
  obtain ⟨hashes, heq⟩ := n.transport.maybeRememberPacketHash_eq sha pkt
  simp [remember, heq]

lemma remember_interfaces : (n.remember sha pkt).transport.interfaces = n.transport.interfaces := by
  obtain ⟨hashes, heq⟩ := n.transport.maybeRememberPacketHash_eq sha pkt
  simp [remember, heq]

lemma remember_accountInboundHops (hops : UInt8) (iface : ℕ) :
    (n.remember sha pkt).transport.accountInboundHops hops iface =
      n.transport.accountInboundHops hops iface := by
  simp [accountInboundHops, isLocalClientInterface, remember_interfaces]

namespace ToForward

section

variable (h : ToForward n raw pkt path outIface)
include h

lemma length_raw : 2 * truncatedHashLength + minPacketSize ≤ pkt.raw.length := by
  rw [(Packet.unpack_ok h.unpack).1]
  exact (unpack_headerType2 h.unpack h.headerType).1

lemma remember (sha : Sha256) : ToForward (n.remember sha pkt) raw pkt path outIface := by
  refine { h with enabled := ?_, isEnabled := ?_ }
  · have henabled := h.enabled
    unfold transportEnabled at henabled ⊢
    rwa [remember_config]
  · rw [remember_interfaces]
    exact h.isEnabled

end

end ToForward

end

/-! ## A relay -/

def idleSurroundings : NodeSurroundings where
  sha := .padded
  identityRecall := fun _ => none
  verify := fun _ _ _ => false
  applyPathHopRebalance := fun _ _ _ => false
  validateProofPacket := fun _ _ => false
  handleAnnouncePacket := fun t _ _ => (t, [])
  handleLinkRequest := fun t _ _ => (t, [])
  handleTransportPacket := fun t _ _ => (t, [])
  handleAnnounce := fun n _ _ => (n.paths, [])

def frameFor (id : UInt8) : Bytes :=
  0x50 :: 1 :: .replicate 16 id ++ .replicate 16 7 ++ [0, 42]

def pathTo7 : Path :=
  { nextHop := .replicate 16 7, iface := some 1, hopCount := 1, randomBlobs := [],
    expires := none }

def relay1 : Node where
  transport :=
    { config := some ⟨false, true, none⟩
      interfaces := fun _ => ⟨"radio", true, true, false⟩
      links := [], linkTable := ∅, reverseTable := ∅, packetHashes := ⟨1000000, [], []⟩
      receipts := [], receiptsByHash := ∅ }
  transportID := some (.replicate 16 1)
  destinations := []
  paths := (∅ : Map Bytes Path).insert (pathMapKey (.replicate 16 7)) pathTo7

def ownCopy : Arrival := ⟨frameFor 1, 0, 1⟩

def ownPacket : Packet :=
  { headerType := .headerType2, packetType := .data, transportType := 1, context := 0,
    contextFlag := 0, hops := 1, destinationType := .single
    transportID := .replicate 16 1, destinationHash := .replicate 16 7, data := [42]
    raw := frameFor 1 }

end Node

end Reticulum
