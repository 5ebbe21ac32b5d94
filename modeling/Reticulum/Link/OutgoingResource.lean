import Reticulum.Link.Inbound
import Reticulum.Resource.Def

/-!
# Sending a resource over a link

`Link.SendResource` prepares a resource, makes it the current one, advertises it and waits; the
receiver's packets are handled by another goroutine (`pkg/link/link_resource.go`).  The two meet in
the **current resource**, the part from which the receiver has no hashes yet, and the **completion
channel**, on which every way in which a transfer can end sends.

The sender and the packet handler are two threads, each with a place in its code; a step is a
section under one lock, or a call out of the link with its answer.  The reads that the handler of a
proof makes of one resource are one step.
-/

namespace Reticulum

open Resource.Constants

namespace Resource

def mapHashAt (r : Resource) (i : ℕ) : Option Bytes :=
  if r.hashmap.length < i * mapHashLen + mapHashLen then none
  else some (Chunks.slice mapHashLen r.hashmap i)

def hashmapSegment (r : Resource) (linkMDU : ℤ) (segment : ℕ) : Bytes :=
  let entries := hashmapEntriesPerSegment linkMDU
  let totalEntries := r.hashmap.length / mapHashLen
  let startEntry := segment * entries
  if totalEntries ≤ startEntry then []
  else
    let endEntry := min (startEntry + entries) totalEntries
    (r.hashmap.drop (startEntry * mapHashLen)).take ((endEntry - startEntry) * mapHashLen)

/-- The hashmap segment for a receiver whose last hash is the anchor, and the part it starts with.
An anchor at the end of a hashmap segment is preferred to the first one found. -/
def chooseHashmapUpdateSegment (r : Resource) (linkMDU : ℤ) (anchorHash : Bytes)
    (receiverMinPart : ℕ) : Option (ℕ × ℕ) :=
  let entries := hashmapEntriesPerSegment linkMDU
  let totalParts := r.segments.toNat
  if anchorHash.length ≠ mapHashLen ∨ totalParts = 0 then none
  else
    -- one segment is looked back, so that a lost update can be sent again
    let searchStart :=
      if totalParts ≤ receiverMinPart - entries then 0 else receiverMinPart - entries
    let searchEnd := min (receiverMinPart + collisionGuardSize) totalParts
    let searchEnd := if searchEnd < searchStart + entries then
      min (searchStart + collisionGuardSize) totalParts else searchEnd
    let found := (List.range' searchStart (searchEnd - searchStart)).filter fun i =>
      r.mapHashAt i = some anchorHash
    let atEnd := found.find? fun i => decide (i + 1 < totalParts ∧ (i + 1) % entries = 0)
    match atEnd <|> found.head? with
    | none => none
    | some target =>
      let segment := (target + 1) / entries
      if segment = 0 then none else some (segment, target + 1)

end Resource

/-! ## The state -/

inductive SendPhase where
  | idle
  | preparing (res : ℕ)
  | prepared (res : ℕ)
  | advertising (res chan : ℕ)
  | advertised (res chan : ℕ)
  | empty (res chan : ℕ)
  | waiting (res chan : ℕ)
deriving DecidableEq

inductive SignalCause where
  | proven (out : ℕ)
  | prepareFailed
  | advertiseFailed
  | rejected
  | emptyHashmap
deriving DecidableEq

inductive HandlerPhase where
  | idle
  | proofFor (out : ℕ) (data : Bytes)
  | advancing (out : ℕ)
  | nextPrepared (out : ℕ)
  | nextCurrent (out : ℕ)
  | rejectFor (out : ℕ) (resourceHash : Bytes)
  | requestRead (plaintext : Bytes)
  | requestFor (out : ℕ) (receiverMinPart : ℕ) (anchorHash : Option Bytes)
  | hashmapSent (out : ℕ) (nextMin : ℕ)
  | signalling (cause : SignalCause)
deriving DecidableEq

/-- A proof packet that was checked, with the resource it was checked against as it then was. -/
structure ProofReceipt where
  res : ℕ
  resource : Resource
  data : Bytes
deriving DecidableEq

/-- A link, as far as sending resources is concerned.  Resources are pointers, here numbers of
`heap`, and so are channels.  `returned` and `proofs` record what happened. -/
structure OutgoingLink where
  status : LinkStatus
  sdu : ℤ
  mdu : ℤ
  heap : ℕ → Resource
  outgoingRes : Option ℕ
  outgoingReceiverMinPart : ℕ
  outgoingResCompleteChan : Option ℕ
  chans : ℕ
  signalled : List ℕ
  sender : SendPhase
  handler : HandlerPhase
  closing : Bool
  returned : List (ℕ × Except String Unit)
  proofs : List ProofReceipt

/-- What the calls out of the link answer: the codecs and the random source, whether a packet could
be sent, whether all parts that were asked for could, and whether the rate limit allows a
request. -/
structure OutgoingAnswer where
  codec : OutboundCodec
  random : Except String RandomHash
  sent : Option String
  partsSent : Bool
  allowed : Bool

namespace OutgoingLink

def init (heap : ℕ → Resource) (sdu mdu : ℤ) : OutgoingLink where
  status := .active
  sdu
  mdu
  heap
  outgoingRes := none
  outgoingReceiverMinPart := 0
  outgoingResCompleteChan := none
  chans := 0
  signalled := []
  sender := .idle
  handler := .idle
  closing := false
  returned := []
  proofs := []

section

variable (l : OutgoingLink)

def signalOutgoingResourceComplete : OutgoingLink :=
  { l with
    outgoingRes := none
    outgoingReceiverMinPart := 0
    outgoingResCompleteChan := none
    signalled := l.outgoingResCompleteChan.toList ++ l.signalled }

/-! ## The sender -/

def abandon : OutgoingLink :=
  { l with outgoingRes := none, outgoingReceiverMinPart := 0, outgoingResCompleteChan := none }

def finish (res : ℕ) (result : Except String Unit) : OutgoingLink :=
  { l with sender := .idle, returned := l.returned ++ [(res, result)] }

def sendResource (res : ℕ) : OutgoingLink :=
  match l.sender with
  | .idle =>
    if l.status ≠ .active then l.finish res (.error msgLinkNotActive)
    else { l with sender := .preparing res }
  | _ => l

def senderStep (sha : Sha256) (l : OutgoingLink) (a : OutgoingAnswer) : OutgoingLink :=
  match l.sender with
  | .idle => l
  | .preparing res =>
    match (l.heap res).prepareOutboundForLink sha (some a.codec) a.random l.sdu with
    | .error err => l.finish res (.error err)
    | .ok r => { l with heap := Function.update l.heap res r, sender := .prepared res }
  | .prepared res =>
    { l with
      outgoingRes := some res
      outgoingReceiverMinPart := 0
      outgoingResCompleteChan := some l.chans
      chans := l.chans + 1
      sender := .advertising res l.chans }
  | .advertising res chan =>
    match a.sent with
    | some err => l.abandon.finish res (.error s!"resource advertisement: {err}")
    | none => { l with sender := .advertised res chan }
  | .advertised res chan =>
    if (l.heap res).segments = 0 then { l with sender := .empty res chan }
    else { l with sender := .waiting res chan }
  | .empty res _ =>
    match a.sent with
    | some err => l.abandon.finish res (.error err)
    | none => l.signalOutgoingResourceComplete.finish res (.ok ())
  | .waiting _ _ => l

def wake : OutgoingLink :=
  match l.sender with
  | .waiting res chan => if chan ∈ l.signalled then l.finish res (.ok ()) else l
  | _ => l

end

def timeout (l : OutgoingLink) : OutgoingLink :=
  match l.sender with
  | .waiting res _ => l.abandon.finish res (.error "resource transfer timeout")
  | _ => l

/-! ## The packet handler -/

/-- Packets that concern the outgoing resource, decrypted where they are encrypted. -/
inductive OutgoingPacket where
  | proof (data : Bytes)
  | reject (plaintext : Bytes)
  | request (plaintext : Bytes)

def receive (l : OutgoingLink) (p : OutgoingPacket) : OutgoingLink :=
  if l.status = .closed ∨ l.handler ≠ .idle then l
  else
    match l.outgoingRes with
    | none => l
    | some out =>
      match p with
      | .proof data =>
        if data.length < 2 * Sha256.size then l else { l with handler := .proofFor out data }
      | .reject plaintext =>
        if plaintext.length < Sha256.size then l
        else { l with handler := .rejectFor out (plaintext.take Sha256.size) }
      | .request plaintext =>
        if plaintext.length < 1 + Sha256.size then l
        else { l with handler := .requestRead plaintext }

def checkProof (sha : Sha256) (l : OutgoingLink) (out : ℕ) (data : Bytes) : OutgoingLink :=
  let r := l.heap out
  let l := { l with proofs := l.proofs ++ [(⟨out, r, data⟩ : ProofReceipt)] }
  if r.hash ≠ data.take Sha256.size ∨
      r.expectedProof sha ≠ some ((data.drop Sha256.size).take Sha256.size) then
    { l with handler := .idle }
  else if r.split ∧ r.segmentIndex < r.totalSegments then { l with handler := .advancing out }
  else { l with handler := .signalling (.proven out) }

def linkResourceMappedFlag : UInt8 := 0xff

/-- A part request: the anchor of a receiver that has run out of map hashes, the resource, and the
hashes it asks for. -/
def parseResourceRequest (plaintext : Bytes) : Option (Option Bytes × Bytes × Bytes) :=
  match plaintext with
  | [] => none
  | flag :: rest =>
    if flag = linkResourceMappedFlag then
      if rest.length < mapHashLen + Sha256.size then none
      else some (some (rest.take mapHashLen), (rest.drop mapHashLen).take Sha256.size,
        rest.drop (mapHashLen + Sha256.size))
    else if rest.length < Sha256.size then none
    else some (none, rest.take Sha256.size, rest.drop Sha256.size)

section

variable (l : OutgoingLink)

/-- The handler of a request reads again which resource is current, and checks that it is meant. -/
def dispatchOutgoingResourceRequests (plaintext : Bytes) : OutgoingLink :=
  match l.outgoingRes, parseResourceRequest plaintext with
  | some out, some (anchorHash, resourceHash, reqHashes) =>
    if resourceHash ≠ (l.heap out).hash ∨ reqHashes.length % mapHashLen ≠ 0 then
      { l with handler := .idle }
    else { l with handler := .requestFor out l.outgoingReceiverMinPart anchorHash }
  | _, _ => { l with handler := .idle }

/-- Answer a receiver that has run out of map hashes.  If there are none to send the transfer is
given up. -/
def sendResourceHashmapUpdate (out : ℕ) (anchorHash : Bytes)
    (receiverMinPart : ℕ) (sent : Option String) : OutgoingLink :=
  match (l.heap out).chooseHashmapUpdateSegment l.mdu anchorHash receiverMinPart with
  | none => { l with handler := .idle }
  | some (segment, nextMin) =>
    if (l.heap out).hashmapSegment l.mdu segment = [] then
      { l with handler := .signalling .emptyHashmap }
    else
      match sent with
      | some _ => { l with handler := .idle }
      | none => { l with handler := .hashmapSent out nextMin }

def handlerStep (sha : Sha256) (l : OutgoingLink) (a : OutgoingAnswer) : OutgoingLink :=
  match l.handler with
  | .idle => l
  | .proofFor out data => l.checkProof sha out data
  | .advancing out =>
    match (l.heap out).prepareNextOutboundSegment sha (some a.codec) a.random l.sdu with
    | .error _ => { l with handler := .signalling .prepareFailed }
    | .ok r => { l with heap := Function.update l.heap out r, handler := .nextPrepared out }
  | .nextPrepared out =>
    { l with outgoingRes := some out, outgoingReceiverMinPart := 0, handler := .nextCurrent out }
  | .nextCurrent _ =>
    match a.sent with
    | some _ => { l with handler := .signalling .advertiseFailed }
    | none => { l with handler := .idle }
  | .rejectFor out resourceHash =>
    if (l.heap out).hash = resourceHash then { l with handler := .signalling .rejected }
    else { l with handler := .idle }
  | .requestRead plaintext =>
    if a.allowed then l.dispatchOutgoingResourceRequests plaintext else { l with handler := .idle }
  | .requestFor out receiverMinPart anchorHash =>
    match a.partsSent, anchorHash with
    | true, some anchorHash => l.sendResourceHashmapUpdate out anchorHash receiverMinPart a.sent
    | _, _ => { l with handler := .idle }
  | .hashmapSent out nextMin =>
    { l with
      handler := .idle
      outgoingReceiverMinPart :=
        if l.outgoingRes = some out then nextMin else l.outgoingReceiverMinPart }
  | .signalling _ => { l.signalOutgoingResourceComplete with handler := .idle }

/-! ## Closing and runs -/

def close : OutgoingLink :=
  if l.status = .closed then l else { l with status := .closed, closing := true }

def closeSignal : OutgoingLink :=
  if l.closing then { l.signalOutgoingResourceComplete with closing := false } else l

def setStatus (status : LinkStatus) : OutgoingLink :=
  if l.status = .closed ∨ status = .closed then l else { l with status }

end

inductive Event where
  | sendResource (res : ℕ)
  | senderStep (a : OutgoingAnswer)
  | wake
  | timeout
  | packet (p : OutgoingPacket)
  | handlerStep (a : OutgoingAnswer)
  | close
  | closeSignal
  | setStatus (status : LinkStatus)

def step (sha : Sha256) (l : OutgoingLink) : Event → OutgoingLink
  | .sendResource res => l.sendResource res
  | .senderStep a => l.senderStep sha a
  | .wake => l.wake
  | .timeout => l.timeout
  | .packet p => l.receive p
  | .handlerStep a => l.handlerStep sha a
  | .close => l.close
  | .closeSignal => l.closeSignal
  | .setStatus status => l.setStatus status

end OutgoingLink

end Reticulum
