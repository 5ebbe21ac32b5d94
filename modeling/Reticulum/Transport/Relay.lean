import Reticulum.Core.Table
import Reticulum.Packet.Def

/-!
# The packet handler of a transport node

A node that carries a link between others keeps an entry for it in its **link table**
(`pkg/transport/relay.go`), and remembers in the **reverse table** where single packets it has
carried came from (`pkg/transport/reverse.go`).  This file is the model of what
`dispatchInboundPacket` does with the packets of a link.

A handler returns the node and its **effects**: the packets it gives to interfaces and to the links
that end here.  Handlers for announces, link requests and other destinations are arguments, as are
signatures, the known identities and the path table.
-/

namespace Reticulum

open Packet.Constants

/-! ## Interfaces and effects -/

/-- What the handler asks of an interface.  Local clients, the programs that share this node, are
attached by a Unix socket. -/
structure NetworkInterface where
  name : String
  isEnabled : Bool
  allowsOutgoing : Bool
  localClient : Bool
deriving DecidableEq

structure Transmission where
  iface : ℕ
  data : Bytes
deriving DecidableEq

inductive Effect where
  | transmit (tx : Transmission)
  | handleInbound (linkID : Bytes) (pkt : Packet)
  | validateLinkProof (linkID : Bytes) (pkt : Packet) (iface : ℕ)
deriving DecidableEq

def transmissions (effects : List Effect) : List Transmission :=
  effects.filterMap fun
    | .transmit tx => some tx
    | _ => none

def rewriteHopsOnly (raw : Bytes) (hops : UInt8) : Bytes :=
  if raw.length < 2 then raw else raw.set 1 hops

/-- The hop count of a packet on arrival.  A local client is no hop. -/
def linkRelayAccountedHops (wireHops : UInt8) (fromLocalClient : Bool) : UInt8 :=
  if fromLocalClient then wireHops
  else if wireHops < 0xFF then wireHops + 1
  else wireHops

/-! ## The memory of packet hashes -/

/-- Two generations of hashes.  The list is kept as the sets it stands for, without the slots of the
hash tables. -/
structure PacketHashList where
  max : ℕ
  cur : List Bytes
  prev : List Bytes
deriving DecidableEq

namespace PacketHashList

def seen (hl : PacketHashList) (h : Bytes) : Bool := decide (h ∈ hl.cur) || decide (h ∈ hl.prev)

def add (hl : PacketHashList) (h : Bytes) : PacketHashList :=
  let cur := hl.cur.insert h
  let rotateAt := .max (hl.max / 2) 1
  if rotateAt < cur.length then { hl with prev := cur, cur := [] } else { hl with cur }

end PacketHashList

/-! ## Tables -/

def hash16FromSlice (b : Bytes) : Bytes := b.take truncatedHashLength

structure LinkRelayEntry where
  nextHopIface : ℕ
  receivedIface : ℕ
  remainingHops : ℤ
  takenHops : ℤ
  destinationHash : Bytes
  validated : Bool
  timestamp : ℕ
deriving DecidableEq

structure ReverseEntry where
  receivedIface : ℕ
  outboundIface : ℕ
deriving DecidableEq

structure PacketReceipt where
  id : ℕ
  hash : Bytes
deriving DecidableEq

structure ReticulumConfig where
  connectedToSharedInstance : Bool
  enableTransport : Bool
  /-- `AllowLinkPathRebalance` where it is set. -/
  allowLinkPathRebalance : Option Bool
deriving DecidableEq

structure Transport where
  config : Option ReticulumConfig
  interfaces : ℕ → NetworkInterface
  /-- the links that end at this node -/
  links : List Bytes
  linkTable : Map Bytes LinkRelayEntry
  reverseTable : Map Bytes ReverseEntry
  packetHashes : PacketHashList
  receipts : List PacketReceipt
  receiptsByHash : Map Bytes PacketReceipt

/-- What the packet handler calls and this file does not model. -/
structure Surroundings where
  sha : Sha256
  /-- the public key of a destination's identity, if it is known -/
  identityRecall : Bytes → Option Bytes
  /-- public key, message, signature -/
  verify : Bytes → Bytes → Bytes → Bool
  applyPathHopRebalance : Bytes → UInt8 → ℕ → Bool
  validateProofPacket : PacketReceipt → Packet → Bool
  handleAnnouncePacket : Transport → Packet → ℕ → Transport × List Effect
  /-- what `handleLinkPacket` does with a link request that has passed the filter -/
  handleLinkRequest : Transport → Packet → ℕ → Transport × List Effect
  handleTransportPacket : Transport → Packet → ℕ → Transport × List Effect

namespace Transport

variable (sha : Sha256)

section

variable (t : Transport)

def isLocalClientInterface (iface : ℕ) : Bool := (t.interfaces iface).localClient

def transportEnabled : Bool :=
  match t.config with
  | none => false
  | some config => !config.connectedToSharedInstance && config.enableTransport

/-- Relaying needs transport, unless it is for a local client. -/
def mayRelayForSharedInstanceClient (source : ℕ) (related : List ℕ) : Bool :=
  t.transportEnabled || t.isLocalClientInterface source || related.any t.isLocalClientInterface

def accountInboundHops (wireHops : UInt8) (iface : ℕ) : UInt8 :=
  linkRelayAccountedHops wireHops (t.isLocalClientInterface iface)

def connectedToSharedInstance : Bool :=
  match t.config with
  | none => false
  | some config => config.connectedToSharedInstance

def linkPathRebalanceAllowed : Bool :=
  match t.config with
  | none => true
  | some config => config.allowLinkPathRebalance.getD true

def sendOnInterface (iface : ℕ) (data : Bytes) : Except String Transmission :=
  let name := (t.interfaces iface).name
  if !(t.interfaces iface).isEnabled then .error s!"interface \"{name}\" offline or disabled"
  else if !(t.interfaces iface).allowsOutgoing then .error "interface is receive-only"
  else .ok ⟨iface, data⟩

def sent : Except String Transmission → List Effect
  | .ok tx => [.transmit tx]
  | .error _ => []

/-! ## The filter against duplicates -/

/-- Contexts that may come several times. -/
def exemptContexts : List UInt8 :=
  [contextKeepalive, contextResourceReq, contextResourcePRF, contextResource, contextCacheReq,
    contextChannel]

def packetFilter (t : Transport) (pkt : Packet) : Bool :=
  if t.connectedToSharedInstance then true
  else if pkt.context ∈ exemptContexts then true
  else if pkt.destinationType = .plain ∨ pkt.destinationType = .group then
    if pkt.packetType = .announce then false
    else !decide (1 < pkt.hops)
  else if !t.packetHashes.seen (pkt.getHash sha) then true
  else decide (pkt.packetType = .announce ∧ pkt.destinationType = .single)

def rememberPacketHashForced (t : Transport) (pkt : Packet) : Transport :=
  if t.connectedToSharedInstance then t
  else { t with packetHashes := t.packetHashes.add (pkt.getHash sha) }

/-- Packets of a link in the link table are not remembered, nor are proofs of link requests. -/
def maybeRememberPacketHash (t : Transport) (pkt : Packet) : Transport :=
  if t.connectedToSharedInstance then t
  else if (t.linkTable.lookup (hash16FromSlice pkt.destinationHash)).isSome then t
  else if pkt.packetType = .proof ∧ pkt.context = contextLRProof then t
  else { t with packetHashes := t.packetHashes.add (pkt.getHash sha) }

/-! ## The link table -/

def modifyEntry (linkID : Bytes) (f : LinkRelayEntry → LinkRelayEntry) : Transport :=
  match t.linkTable.lookup (hash16FromSlice linkID) with
  | none => t
  | some entry => { t with linkTable := t.linkTable.insert (hash16FromSlice linkID) (f entry) }

def touch (now : ℕ) (linkID : Bytes) : Transport :=
  t.modifyEntry linkID fun entry => { entry with timestamp := now }

def markValidated (now : ℕ) (linkID : Bytes) : Transport :=
  t.modifyEntry linkID fun entry => { entry with validated := true, timestamp := now }

def setRemainingHops (now : ℕ) (linkID : Bytes) (hops : ℤ) : Transport :=
  t.modifyEntry linkID fun entry =>
    if entry.validated then entry else { entry with remainingHops := hops, timestamp := now }

end

structure Outcome where
  handled : Bool
  transport : Transport
  effects : List Effect

/-- The interface on which a packet of a relayed link goes on: the other one, if the hop count is
that of the side it came from. -/
def relayIface (entry : LinkRelayEntry) (sourceIface : ℕ) (accounted : UInt8) : Option ℕ :=
  let accounted : ℤ := accounted.toNat
  if entry.nextHopIface = entry.receivedIface then
    if accounted ≠ entry.remainingHops ∧ accounted ≠ entry.takenHops then none
    else some entry.nextHopIface
  else if sourceIface = entry.nextHopIface then
    if accounted ≠ entry.remainingHops then none else some entry.receivedIface
  else if sourceIface = entry.receivedIface then
    if accounted ≠ entry.takenHops then none else some entry.nextHopIface
  else none

def forwardLinkData (t : Transport) (now : ℕ) (linkID raw : Bytes) (sourceIface : ℕ) : Outcome :=
  if raw.length < truncatedHashLength + 2 ∨ linkID = [] then ⟨false, t, []⟩
  else
    match t.linkTable.lookup (hash16FromSlice linkID) with
    | none => ⟨false, t, []⟩
    | some entry =>
      let related := [entry.receivedIface, entry.nextHopIface]
      if !t.mayRelayForSharedInstanceClient sourceIface related then ⟨true, t, []⟩
      else
        let fromLocal := t.isLocalClientInterface sourceIface
        let accounted := linkRelayAccountedHops (raw.getD 1 0) fromLocal
        match relayIface entry sourceIface accounted with
        | none => ⟨true, t, []⟩
        | some outIface =>
          if !(t.interfaces outIface).isEnabled then ⟨true, t, []⟩
          else
            let out := rewriteHopsOnly raw accounted
            ⟨true, t.touch now linkID, sent (t.sendOnInterface outIface out)⟩

/-! ## Proofs of link requests -/

def sigLen : ℕ := 64
def lrProofX25519Size : ℕ := 32
def lrProofMTUSize : ℕ := 3

section

variable (env : Surroundings) (t : Transport) (now : ℕ) (pkt : Packet) (iface : ℕ)

/-- Whether the data of a proof are a signature of the destination, and a key and perhaps signalling
bytes that it signs together with the link. -/
def lrProofVerifies (linkID destinationHash data : Bytes) : Bool :=
  let minLen := sigLen + lrProofX25519Size
  let maxLen := minLen + lrProofMTUSize
  if data.length ≠ minLen ∧ data.length ≠ maxLen then false
  else
    match env.identityRecall destinationHash with
    | none => false
    | some pub =>
      if pub.length < lrProofX25519Size * 2 then false
      else
        let signature := data.take sigLen
        let peerPub := (data.drop sigLen).take lrProofX25519Size
        let signalling := if data.length = maxLen then data.drop minLen else []
        let peerSigPub := (pub.drop lrProofX25519Size).take lrProofX25519Size
        env.verify pub (linkID ++ peerPub ++ peerSigPub ++ signalling) signature

/-- Corrects the hop count of an entry that is not validated yet. -/
def tryTransitLRProofRebalance
    (linkID : Bytes) (entry : LinkRelayEntry) (accounted : UInt8) : Bool × Transport :=
  if !t.linkPathRebalanceAllowed then (false, t)
  else if iface ≠ entry.nextHopIface then (false, t)
  else if entry.validated then (false, t)
  else if !lrProofVerifies env linkID entry.destinationHash pkt.data then (false, t)
  else if !env.applyPathHopRebalance entry.destinationHash accounted iface then (false, t)
  else (true, t.setRemainingHops now linkID accounted.toNat)

/-- The second half of `validateAndForwardLRProof`, for a proof whose hop count is the one of the
entry. -/
def transportLRProof (linkID : Bytes) (entry : LinkRelayEntry) (accounted : UInt8) : Outcome :=
  if iface ≠ entry.nextHopIface then ⟨true, t, []⟩
  else if !lrProofVerifies env linkID entry.destinationHash pkt.data then ⟨true, t, []⟩
  else
    let t := t.markValidated now linkID
    if !(t.interfaces entry.receivedIface).isEnabled then ⟨true, t, []⟩
    else
      let out := rewriteHopsOnly pkt.raw accounted
      ⟨true, t.rememberPacketHashForced env.sha pkt,
        sent (t.sendOnInterface entry.receivedIface out)⟩

/-- Checks the proof of a link request, and relays it towards the initiator. -/
def validateAndForwardLRProof : Outcome :=
  let linkID := hash16FromSlice pkt.destinationHash
  match t.linkTable.lookup linkID with
  | none => ⟨false, t, []⟩
  | some entry =>
    if !t.mayRelayForSharedInstanceClient iface [entry.receivedIface] then ⟨false, t, []⟩
    else
      let accounted := t.accountInboundHops pkt.hops iface
      if (accounted.toNat : ℤ) = entry.remainingHops then
        transportLRProof env t now pkt iface linkID entry accounted
      else
        let (rebalanced, t) :=
          tryTransitLRProofRebalance env t now pkt iface linkID entry accounted
        if !rebalanced then ⟨true, t, []⟩
        else
          match t.linkTable.lookup linkID with
          | none => ⟨true, t, []⟩
          | some entry =>
            if (accounted.toNat : ℤ) ≠ entry.remainingHops then ⟨true, t, []⟩
            else transportLRProof env t now pkt iface linkID entry accounted

/-! ## Other proofs -/

/-- Sends a proof back where the packet came from.  The entry serves once. -/
def forwardReverseProof : Outcome :=
  let dest := hash16FromSlice pkt.destinationHash
  match t.reverseTable.lookup dest with
  | none => ⟨false, t, []⟩
  | some entry =>
    if !t.mayRelayForSharedInstanceClient iface [entry.receivedIface] then ⟨false, t, []⟩
    else if iface ≠ entry.outboundIface then ⟨true, t, []⟩
    else if !(t.interfaces entry.receivedIface).isEnabled then ⟨true, t, []⟩
    else
      let out := rewriteHopsOnly pkt.raw pkt.hops
      ⟨true, { t with reverseTable := t.reverseTable.erase dest },
        sent (t.sendOnInterface entry.receivedIface out)⟩

def unregisterReceipt (receipt : PacketReceipt) : Transport :=
  { t with
    receiptsByHash := if receipt.hash.length = Sha256.size then t.receiptsByHash.erase receipt.hash
      else t.receiptsByHash
    receipts := t.receipts.erase receipt }

def explicitLength : ℕ := Sha256.size + sigLen

/-- Looks for a receipt that the proof settles: by its hash if the proof is explicit, one after
another if not. -/
def settleReceipt : Transport :=
  if pkt.data.length = explicitLength then
    match t.receiptsByHash.lookup (pkt.data.take Sha256.size) with
    | none => t
    | some receipt => if env.validateProofPacket receipt pkt then t.unregisterReceipt receipt else t
  else
    match t.receipts.find? (env.validateProofPacket · pkt) with
    | none => t
    | some receipt => t.unregisterReceipt receipt

/-! ## The handlers -/

/-- Proofs of link requests and of resources belong to a link that ends here or passes through; all
other proofs go by the reverse table and to the receipts. -/
def handleProofPacket : Transport × List Effect :=
  if !t.packetFilter env.sha pkt then (t, [])
  else
    let t := t.maybeRememberPacketHash env.sha pkt
    let linkID := hash16FromSlice pkt.destinationHash
    if pkt.context = contextLRProof then
      if linkID ∈ t.links then (t, [.validateLinkProof linkID pkt iface])
      else
        let r := t.validateAndForwardLRProof env now pkt iface
        (r.transport, r.effects)
    else if pkt.context = contextResourcePRF then
      if linkID ∈ t.links then (t, [.handleInbound linkID pkt])
      else if pkt.raw = [] then (t, [])
      else
        let r := t.forwardLinkData now linkID pkt.raw iface
        (r.transport, r.effects)
    else
      let r := t.forwardReverseProof pkt iface
      (r.transport.settleReceipt env pkt, r.effects)

def handleLinkPacket (packetType : PacketType) : Transport × List Effect :=
  if !t.packetFilter env.sha pkt then (t, [])
  else
    let t := t.maybeRememberPacketHash env.sha pkt
    if packetType = .linkReq then env.handleLinkRequest t pkt iface
    else
      let linkID := hash16FromSlice pkt.destinationHash
      if linkID ∈ t.links then (t, [.handleInbound linkID pkt])
      else
        let r := t.forwardLinkData now linkID pkt.raw iface
        (r.transport, r.effects)

def dispatchInboundPacket : Transport × List Effect :=
  match pkt.packetType with
  | .announce => env.handleAnnouncePacket t pkt iface
  | .linkReq => handleLinkPacket env t now pkt iface .linkReq
  | .proof => handleProofPacket env t now pkt iface
  | .data =>
    if pkt.destinationType = .link then handleLinkPacket env t now pkt iface .data
    else env.handleTransportPacket t pkt iface

end

/-! ## Transport nodes and what they remember -/

section

variable {t : Transport} {iface : ℕ}

lemma connectedToSharedInstance_of_enabled (h : t.transportEnabled) :
    t.connectedToSharedInstance = false := by
  unfold transportEnabled at h
  unfold connectedToSharedInstance
  split at h
  · rfl
  · simp only [Bool.and_eq_true, Bool.not_eq_true'] at h
    exact h.1

lemma mayRelay_of_enabled (h : t.transportEnabled) (related : List ℕ) :
    t.mayRelayForSharedInstanceClient iface related := by
  simp [mayRelayForSharedInstanceClient, h]

lemma maybeRememberPacketHash_eq (t : Transport) (pkt : Packet) :
    ∃ hashes, t.maybeRememberPacketHash sha pkt = { t with packetHashes := hashes } := by
  unfold maybeRememberPacketHash
  repeat' split
  all_goals exact ⟨_, rfl⟩

lemma rememberPacketHashForced_eq (t : Transport) (pkt : Packet) :
    ∃ hashes, t.rememberPacketHashForced sha pkt = { t with packetHashes := hashes } := by
  unfold rememberPacketHashForced
  split <;> exact ⟨_, rfl⟩

end

end Transport

end Reticulum
