import Reticulum.Transport.AnnounceOrder
import Reticulum.Transport.AnnounceTable
import Reticulum.Transport.Rewriting

/-!
# Announces: one encoder and two parsers

`CreatePacket` (`pkg/announce`) writes an announce: the public key of an identity, the hash of the
name of a destination, a **random hash** that ends with the time, perhaps a **ratchet**, a signature
over all of this, and application data.  It is read by `handleAnnouncePacket` of the transport
(`AnnounceIntake`) and by `HandleAnnounce`, each with offsets of its own; in between, relays wrap it
anew (`pkg/transport`).
-/

namespace Reticulum

open Packet.Constants Wire.Constants

/-! ## Constants -/

namespace Announce.Constants

def packetTypeAnnounce : UInt8 := 0x01
def headerType1 : UInt8 := 0x00
def propTypeBroadcast : UInt8 := 0x00
def destTypeSingle : UInt8 := 0x00
def ifacNone : UInt8 := 0x00

def packetMTU : ℕ := 500

def headerType1Offset : ℕ := headerSize + addrHashSize + contextByteLen
def headerType2Offset : ℕ := headerSize + 2 * addrHashSize + contextByteLen

def pubKeyHalfSize : ℕ := 32
def pubKeySize : ℕ := 2 * pubKeyHalfSize
def nameHashSize : ℕ := 10
def randomHashSize : ℕ := 10
def ratchetSize : ℕ := 32
def signatureSize : ℕ := 64

def minAnnouncePacketSizeNoRatchet : ℕ :=
  headerType1Offset + pubKeySize + nameHashSize + randomHashSize + signatureSize

def headerPacketTypeMask : UInt8 := 0x03
def headerPropTypeMask : UInt8 := 0x10

end Announce.Constants

open Announce.Constants

/-! ## Writing an announce -/

structure AnnounceIdentity where
  pubKey : Bytes
  sign : Bytes → Except String Bytes
  length_pubKey : pubKey.length = 64

/-- What `CreatePacket` draws: five random bytes, and the time in seconds. -/
structure AnnounceDraw where
  random : Bytes
  unix : UInt64
  length_random : random.length = 5

def AnnounceDraw.randomHash (draw : AnnounceDraw) : Bytes :=
  draw.random ++ (List.range 5).map fun i => UInt8.ofNat (draw.unix.toNat / 256 ^ (4 - i))

structure OutgoingAnnounce where
  identity : AnnounceIdentity
  destinationHash : Bytes
  destinationName : Bytes
  appData : Bytes
  ratchetPub : Bytes
  pathResponse : Bool
  hops : UInt8

def AnnounceFields.payload (ann : AnnounceFields) : Bytes :=
  ann.pubKey ++ ann.nameHash ++ ann.randomHash ++ ann.ratchetData ++ ann.signature ++ ann.appData

def announceNameHash (sha : Sha256) (destName : Bytes) : Bytes :=
  (sha.sum destName).take nameHashSize

def AnnounceIdentity.destinationHash (sha : Sha256) (id : AnnounceIdentity) (destName : Bytes) :
    Bytes :=
  (sha.sum (announceNameHash sha destName ++ (sha.sum id.pubKey).take 16)).take addrHashSize

namespace OutgoingAnnounce

def createHeader (ifacFlag headerType contextFlag propType destType packetType hops : UInt8) :
    Bytes :=
  [ifacFlag ||| (headerType <<< 6) ||| (contextFlag <<< 5) ||| (propType <<< 4) |||
    (destType <<< 2) ||| packetType, hops]

def ratchetData (a : OutgoingAnnounce) : Bytes :=
  if a.ratchetPub.length = ratchetSize then a.ratchetPub else []

def unsigned (sha : Sha256) (draw : AnnounceDraw) (a : OutgoingAnnounce) : AnnounceFields where
  pubKey := a.identity.pubKey
  nameHash := announceNameHash sha a.destinationName
  randomHash := draw.randomHash
  ratchetData := a.ratchetData
  signature := []
  appData := a.appData

def createPacket (sha : Sha256) (draw : AnnounceDraw) (a : OutgoingAnnounce) :
    Except String Bytes :=
  let destHash := a.destinationHash.take 16
  let contextFlag := if a.ratchetData = [] then 0 else 1
  let header := createHeader ifacNone headerType1 contextFlag propTypeBroadcast destTypeSingle
    packetTypeAnnounce a.hops
  let contextByte := if a.pathResponse then 0x0B else 0
  let ann := a.unsigned sha draw
  match a.identity.sign (ann.signData destHash) with
  | .error err => .error s!"sign announce packet: {err}"
  | .ok signature =>
    let packet := header ++ destHash ++ [contextByte] ++ { ann with signature }.payload
    if packetMTU < packet.length then
      .error s!"announce packet size {packet.length} exceeds MTU {packetMTU}"
    else .ok packet

end OutgoingAnnounce

/-! ## Reading an announce -/

def readAnnounceData (hasRatchet : Bool) (packetData : Bytes) : Except String AnnounceFields :=
  let minPayload := pubKeySize + nameHashSize + randomHashSize + signatureSize +
    if hasRatchet then ratchetSize else 0
  if packetData.length < minPayload then .error "announce data too short"
  else
    let encKey := packetData.take pubKeyHalfSize
    let pos := pubKeyHalfSize
    let signKey := (packetData.drop pos).take pubKeyHalfSize
    let pos := pos + pubKeyHalfSize
    let nameHash := (packetData.drop pos).take nameHashSize
    let pos := pos + nameHashSize
    let randomHash := (packetData.drop pos).take randomHashSize
    let pos := pos + randomHashSize
    if hasRatchet && decide (packetData.length < pos + ratchetSize + signatureSize) then
      .error "announce data too short for ratchet"
    else
      let ratchetData := if hasRatchet then (packetData.drop pos).take ratchetSize else []
      let pos := if hasRatchet then pos + ratchetSize else pos
      .ok {
        pubKey := encKey ++ signKey
        nameHash, randomHash, ratchetData
        signature := (packetData.drop pos).take signatureSize
        appData := packetData.drop (pos + signatureSize) }

def readAnnounce (data : Bytes) : Except String (Bytes × AnnounceFields) :=
  let hasRatchet : Bool := data.getD 0 0 &&& headerContextFlagMask ≠ 0
  if data.length < minAnnouncePacketSizeNoRatchet then .error "invalid announce data length"
  else if data.getD 0 0 &&& headerPacketTypeMask ≠ packetTypeAnnounce then
    .error "not an announce packet"
  else if maxHops ≤ (data.getD 1 0).toNat then .error "announce exceeded maximum hop count"
  else if doubleHeader data then
    if data.length < headerType2Offset then .error "header type 2 packet too short"
    else
      (readAnnounceData hasRatchet (data.drop headerType2Offset)).map fun ann =>
        ((data.drop (headerSize + addrHashSize)).take addrHashSize, ann)
  else if data.length < headerType1Offset then .error "header type 1 packet too short"
  else
    (readAnnounceData hasRatchet (data.drop headerType1Offset)).map fun ann =>
      ((data.drop headerSize).take addrHashSize, ann)

/-- `Remember`, for the public key that is known for a destination: the first one stays. -/
def remembers (known : Bytes → Option Bytes) (destHash pubKey : Bytes) : Bool :=
  match known destHash with
  | none => true
  | some key => key = pubKey

structure HandlerAnswer where
  receivePathResponses : Bool
  err : Option String
deriving DecidableEq

/-- The handlers are told one after the other; whether they take path responses is held against the
announce that listens, not against the packet. -/
def notifyHandlers (pathResponse : Bool) : List HandlerAnswer → Except String Unit
  | [] => .ok ()
  | handler :: handlers =>
    if handler.receivePathResponses || !pathResponse then
      match handler.err with
      | some err => .error err
      | none => notifyHandlers pathResponse handlers
    else notifyHandlers pathResponse handlers

namespace AnnounceEnv

variable (env : AnnounceEnv)

/-- `HandleAnnounce` up to the handlers: the destination hash and the fields of an announce that is
accepted. -/
def acceptAnnounce (known : Bytes → Option Bytes) (data : Bytes) :
    Except String (Bytes × AnnounceFields) :=
  match readAnnounce data with
  | .error err => .error err
  | .ok (destHash, ann) =>
    if ann.pubKey.length ≠ 64 then .error "invalid identity public key"
    else if !env.verify ann.pubKey (ann.signData destHash) ann.signature then
      .error "invalid announce signature"
    else if destHash ≠
        (env.sha.sum (ann.nameHash ++ env.identityHash ann.pubKey)).take addrHashSize then
      .error "destination hash mismatch"
    else if !remembers known destHash ann.pubKey then .error "announce public key mismatch"
    else .ok (destHash, ann)

def handleAnnounce (known : Bytes → Option Bytes) (pathResponse : Bool)
    (handlers : List HandlerAnswer) (data : Bytes) : Except String (Bytes × AnnounceFields) :=
  match env.acceptAnnounce known data with
  | .error err => .error err
  | .ok accepted => (notifyHandlers pathResponse handlers).map fun _ => accepted

end AnnounceEnv

/-! ## Passing an announce on -/

/-- The announce as `forwardAnnouncePacket` sends it: with a header of type 2 and the transport
identity of the relay, if it has one. -/
def forwardedAnnounce (transportID : Bytes) (data : Bytes) : Bytes :=
  if transportID.length = truncatedHashLength ∧ 2 < data.length then
    let wrapped := if doubleHeader data then rebuildHeaderType2 data (data.getD 1 0) transportID
      else insertHeaderType2 data (data.getD 1 0) transportID
    match wrapped with
    | .error _ => data
    | .ok wrapped => wrapped.set 0 (wrapped.getD 0 0 &&& ~~~headerPropTypeMask)
  else data

def cachedAnnounce (data : Bytes) (hdr : AnnounceHeader) : Packet where
  headerType := .ofFlags (data.getD 0 0)
  packetType := .ofFlags (data.getD 0 0)
  transportType := (data.getD 0 0 &&& headerMaskTransportType) >>> 4
  context := hdr.context
  contextFlag := (data.getD 0 0 &&& headerContextFlagMask) >>> 5
  hops := data.getD 1 0
  destinationType := .ofFlags (data.getD 0 0)
  transportID := []
  destinationHash := hdr.destinationHash
  data := hdr.payload
  raw := []

inductive Rewrapped : Bytes → Bytes → Prop where
  /-- `scheduleAnnounceForward` and `forwardAnnouncePacket` -/
  | forwarded (transportID data : Bytes) (hops : UInt8) :
      Rewrapped data (forwardedAnnounce transportID (rewriteHopsInPlace data hops))
  /-- `forwardAnnounceToLocalClients` -/
  | toLocalClients (data : Bytes) (hops : UInt8) : Rewrapped data (rewriteHopsInPlace data hops)
  /-- `cacheAnnouncePacket`, and `buildPathResponseWire` when there is a request -/
  | pathResponse {data wire : Bytes} {hdr : AnnounceHeader} (h : announceHeader data = .ok hdr)
      (transportIdentity : Option Bytes) (entry : PathAnnounceEntry)
      (hentry : entry.packet.toPacket = cachedAnnounce data hdr)
      (hwire : entry.buildPathResponseWire transportIdentity = .ok wire) : Rewrapped data wire

end Reticulum
