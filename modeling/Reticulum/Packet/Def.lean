import Reticulum.Core.Bytes

/-!
# Packets

A packet on the wire is a byte of flags, a **hop count**, an optional transport identity (**header
type** 2), the hash of a destination, a **context** byte and data (`pkg/packet`).  The **packet
hash** is taken over what relays do not change: not the hop count, nor the transport identity, nor
the upper half of the flags.  The **link identifier** of a link request is taken over the same
bytes, up to the keys of the initiator.
-/

namespace Reticulum

/-! ## Hashes -/

/-- SHA-256, as far as the code depends on it: a function with values of 32 bytes. -/
structure Sha256 where
  sum : Bytes → Bytes
  length_sum : ∀ b, (sum b).length = 32

namespace Sha256

def size : ℕ := 32

def padded : Sha256 where
  sum b := (b ++ List.replicate 32 0).take 32
  length_sum b := by simp

end Sha256

/-! ## Constants -/

namespace Packet.Constants

def truncatedHashLength : ℕ := 16
def minPacketSize : ℕ := 3
def pathfinderM : ℕ := 128
def maxInboundPacketSize : ℕ := 262144
def linkRequestECPubSize : ℕ := 64

def headerMaskHeaderType : UInt8 := 0x40
def headerMaskContextFlag : UInt8 := 0x20
def headerMaskTransportType : UInt8 := 0x10
def headerMaskDestinationType : UInt8 := 0x0C
def headerMaskPacketType : UInt8 := 0x03
def hashableFlagsMask : UInt8 := 0x0F

def contextNone : UInt8 := 0x00
def contextResource : UInt8 := 0x01
def contextResourceReq : UInt8 := 0x03
def contextResourcePRF : UInt8 := 0x05
def contextCacheReq : UInt8 := 0x08
def contextChannel : UInt8 := 0x0E
def contextKeepalive : UInt8 := 0xFA
def contextLRProof : UInt8 := 0xFF

end Packet.Constants

open Packet.Constants

/-! ## The fields of the flags -/

inductive HeaderType where
  | headerType1
  | headerType2
deriving DecidableEq

inductive DestinationType where
  | single
  | group
  | plain
  | link
deriving DecidableEq

inductive PacketType where
  | data
  | announce
  | linkReq
  | proof
deriving DecidableEq

def HeaderType.ofFlags (flags : UInt8) : HeaderType :=
  if (flags &&& headerMaskHeaderType) >>> 6 = 1 then .headerType2 else .headerType1

def DestinationType.ofFlags (flags : UInt8) : DestinationType :=
  match ((flags &&& headerMaskDestinationType) >>> 2).toNat with
  | 0 => .single
  | 1 => .group
  | 2 => .plain
  | _ => .link

def PacketType.ofFlags (flags : UInt8) : PacketType :=
  match (flags &&& headerMaskPacketType).toNat with
  | 0 => .data
  | 1 => .announce
  | 2 => .linkReq
  | _ => .proof

/-! ## Packets -/

/-- A packet and the bytes it was read from.  The transport identity is empty where the header has
none. -/
structure Packet where
  headerType : HeaderType
  packetType : PacketType
  transportType : UInt8
  context : UInt8
  contextFlag : UInt8
  hops : UInt8
  destinationType : DestinationType
  transportID : Bytes
  destinationHash : Bytes
  data : Bytes
  raw : Bytes
deriving DecidableEq

namespace Packet

def unpack (raw : Bytes) : Except String Packet :=
  let flags := raw.getD 0 0
  let hops := raw.getD 1 0
  let dstLen := truncatedHashLength
  if raw.length < minPacketSize then .error "packet too short"
  else if maxInboundPacketSize < raw.length then .error "packet exceeds maximum inbound size"
  else if pathfinderM ≤ hops.toNat then .error s!"invalid hop count {hops}"
  else
    let contextFlag := (flags &&& headerMaskContextFlag) >>> 5
    let transportType := (flags &&& headerMaskTransportType) >>> 4
    let destinationType := .ofFlags flags
    let packetType := .ofFlags flags
    match HeaderType.ofFlags flags with
    | .headerType2 =>
      if raw.length < 2 * dstLen + minPacketSize then .error "packet too short for header type 2"
      else .ok {
        headerType := .headerType2, packetType, transportType, contextFlag, hops, destinationType
        transportID := (raw.drop 2).take dstLen
        destinationHash := (raw.drop (dstLen + 2)).take dstLen
        context := raw.getD (2 * dstLen + 2) 0
        data := raw.drop (2 * dstLen + 3)
        raw }
    | .headerType1 =>
      if raw.length < dstLen + minPacketSize then .error "packet too short for header type 1"
      else .ok {
        headerType := .headerType1, packetType, transportType, contextFlag, hops, destinationType
        transportID := []
        destinationHash := (raw.drop 2).take dstLen
        context := raw.getD (dstLen + 2) 0
        data := raw.drop (dstLen + 3)
        raw }

def hashable (p : Packet) : Bytes :=
  (p.raw.getD 0 0 &&& hashableFlagsMask) ::
    match p.headerType with
    | .headerType2 => p.raw.drop (truncatedHashLength + 2)
    | .headerType1 => p.raw.drop 2

def getHash (sha : Sha256) (p : Packet) : Bytes := sha.sum p.hashable

/-- The identifier of the link that a link request asks for.  Of the data it covers the two keys,
and not the signalling bytes behind them. -/
def linkIDFromLinkRequest (sha : Sha256) (p : Packet) : Bytes :=
  if p.raw = [] then []
  else
    let diff := p.data.length - linkRequestECPubSize
    let hashable :=
      if linkRequestECPubSize < p.data.length ∧ diff ≤ p.hashable.length then
        p.hashable.take (p.hashable.length - diff)
      else p.hashable
    (sha.sum hashable).take truncatedHashLength

/-- What the parser accepts: the packet keeps its bytes, which hold at least a header; the hop count
is the second byte; the destination hash has its full length. -/
structure WellFormed (p : Packet) : Prop where
  length_raw : truncatedHashLength + minPacketSize ≤ p.raw.length
  hops_eq : p.hops = p.raw.getD 1 0
  length_destinationHash : p.destinationHash.length = truncatedHashLength

/-- **A packet that is parsed is well formed.** -/
theorem unpack_ok {raw : Bytes} {p : Packet} (h : unpack raw = .ok p) :
    p.raw = raw ∧ p.WellFormed := by
  simp only [unpack] at h
  -- the three refusals that both header types share
  iterate 3
    split at h
    · cases h
  split at h
  all_goals
    split at h
    · cases h
    rename_i hlen
    obtain rfl := Except.ok.inj h
    simp only [truncatedHashLength, minPacketSize] at hlen
    refine ⟨rfl, ?_, rfl, ?_⟩
    · simp only [truncatedHashLength, minPacketSize]
      omega
    · simp only [truncatedHashLength, List.length_take, List.length_drop]
      omega

end Packet

end Reticulum
