import Reticulum.Channel.Def

/-!
# Channel packets on a link

How a link feeds its channel (`pkg/link`): inbound packets are queued and handled one at a time,
channel packets that arrive before the application is ready are held back, and one that has been
handed to the channel is **proved** to the sender.  The status byte, the session keys and the gate
are fields that a run may set at any time.
-/

namespace Reticulum

inductive LinkStatus where
  | pending
  | handshake
  | active
  | stale
  | closed
  | failed
deriving DecidableEq

def msgLinkNotActive : String :=
  "link not active (wait for the established callback before Send, Request, or Identify)"

/-- The encryption of an established link: whatever the sender seals, with any initialisation
vector, the receiver opens. -/
structure LinkCipher where
  encrypt : ℕ → Bytes → Bytes
  decrypt : Bytes → Except String Bytes
  decrypt_encrypt : ∀ iv plain, decrypt (encrypt iv plain) = .ok plain

structure ChannelPacket where
  id : ℕ
  data : Bytes
deriving DecidableEq

/-- The registry that marks every message with the packet it came in.  The code keeps no such
mark; it is how a run is observed. -/
def Registry.tag {M : Type} (reg : Registry M) (packet : ℕ) : Registry (M × ℕ) where
  factories t := (reg.factories t).map fun ctor body => (ctor body).map (·, packet)
  generic g := (reg.generic g, packet)
  messageHandlers := reg.messageHandlers.map (.map fun h m => h m.1)

structure ChannelLink (M : Type) where
  status : LinkStatus
  hasSessionKeys : Bool
  channelGate : Bool
  earlyChannel : List ChannelPacket
  inboundQ : List ChannelPacket
  channel : Channel (M × ℕ) ℕ

/-- What one packet does: the link after it, the envelopes handed to the message handlers, whether
a proof went out, and the error returned. -/
structure Handled (M : Type) where
  link : ChannelLink M
  delivered : List (RxEnvelope (M × ℕ))
  proved : Bool
  result : Except String Unit

namespace ChannelLink

variable {M : Type}

def maxEarlyChannelPackets : ℕ := 32

def queueEarlyChannel (l : ChannelLink M) (pkt : ChannelPacket) : ChannelLink M :=
  if maxEarlyChannelPackets ≤ l.earlyChannel.length then l
  else { l with earlyChannel := l.earlyChannel ++ [pkt] }

/-- What an attempt to decrypt a packet and to prove it meets: the protection engine may refuse
the decryption, and the proof may fail to be signed or sent. -/
structure Attempt where
  admitted : Bool
  provable : Bool

/-- A channel packet.  The proof is sent whatever `HandleInbound` returned. -/
def handleChannelPacket (cipher : LinkCipher) (reg : Registry M) (attempt : Attempt)
    (l : ChannelLink M) (pkt : ChannelPacket) : Handled M :=
  if l.channelGate then
    if l.status = .closed then ⟨l, [], false, .error msgLinkNotActive⟩
    else ⟨l.queueEarlyChannel pkt, [], false, .ok ()⟩
  else if l.status ≠ .active then
    if l.status = .handshake ∧ l.hasSessionKeys then ⟨l.queueEarlyChannel pkt, [], false, .ok ()⟩
    else ⟨l, [], false, .error msgLinkNotActive⟩
  else if !attempt.admitted then ⟨l, [], false, .error "dos_protection refused crypto"⟩
  else
    match cipher.decrypt pkt.data with
    | .error err => ⟨l, [], false, .error err⟩
    | .ok plaintext =>
      let r := Channel.handleInbound (reg.tag pkt.id) l.channel plaintext
      ⟨{ l with channel := r.channel }, r.delivered, attempt.provable, r.result⟩

/-- The part of `processInbound` and `handleDataPacket` that a channel packet goes through. -/
def processInbound (cipher : LinkCipher) (reg : Registry M) (attempt : Attempt)
    (l : ChannelLink M) (pkt : ChannelPacket) : Handled M :=
  if l.status = .closed then ⟨l, [], false, .ok ()⟩
  else
    let l := if l.status = .stale then { l with status := .active } else l
    if l.status ≠ .active ∧ l.status ≠ .handshake then ⟨l, [], false, .error msgLinkNotActive⟩
    else if !l.hasSessionKeys then ⟨l, [], false, .error "link packet requires session keys"⟩
    else handleChannelPacket cipher reg attempt l pkt

def markChannelReady (l : ChannelLink M) : ChannelLink M :=
  { l with
    channelGate := false
    earlyChannel := []
    inboundQ := l.earlyChannel ++ l.inboundQ }

def drainInbound (cipher : LinkCipher) (reg : Registry M) (attempt : Attempt)
    (l : ChannelLink M) : Option (ChannelPacket × Handled M) :=
  match l.inboundQ with
  | [] => none
  | pkt :: rest => some (pkt, processInbound cipher reg attempt { l with inboundQ := rest } pkt)

end ChannelLink

end Reticulum
