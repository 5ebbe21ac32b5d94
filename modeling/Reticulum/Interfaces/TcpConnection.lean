import Reticulum.Interfaces.Ifac
import Reticulum.Interfaces.StreamDecoders

/-!
# Packets over a TCP connection

A packet is masked, framed and written (`Send` in `pkg/interfaces/tcp.go`).  The other end reads the
stream in chunks; a frame has to be admitted, and what lacks the access code is dropped
(`ProcessIncomingFrom` in `pkg/interfaces/interface.go`, or `preprocessInboundPacket` if the
interface is registered with a node).  The admitted packets arrive as they were:
**`delivered_of_sent`**.
-/

namespace Reticulum

open List IfacIdentity

/-- One end of a connection: the framing, the limit for frames, the access code, and whether that
is left to the node. -/
structure TCPClientInterface where
  kissFraming : Bool
  mtu : ℤ
  crypto : IfacCrypto
  ifac : Option IfacIdentity
  deferInboundIFAC : Bool

namespace TCPClientInterface

variable (tc : TCPClientInterface)

/-- The decoder that `readLoop` makes. -/
def mode : StreamMode := if tc.kissFraming then .kiss else .tcp

/-- `ApplyIFACOutbound`: with an access code the packet is masked. -/
def applyIFACOutbound (raw : Bytes) : Except String Bytes :=
  match tc.ifac with
  | none => .ok raw
  | some i => i.mask tc.crypto raw

/-- `ApplyIFACInbound`: what is to be dropped is `none`. -/
def applyIFACInbound (raw : Bytes) : Option Bytes :=
  if raw.length < 2 then none
  else
    match tc.ifac with
    | none => if raw.getD 0 0 &&& ifacFlag = ifacFlag then none else some raw
    | some i =>
      if raw.getD 0 0 &&& ifacFlag ≠ ifacFlag then none
      else
        match i.unmask tc.crypto raw with
        | .ok (stripped, true) => some stripped
        | _ => none

/-- What has been written to the connection after one more packet. -/
def send (written raw : Bytes) : Bytes :=
  match tc.applyIFACOutbound raw with
  | .error _ => written
  | .ok masked => tc.mode.appendFrame written masked

/-- The frames that the decoder finds in the reads. -/
def frames (chunks : List Bytes) : List Bytes :=
  (Feed.run StreamDecoder.feed (tc.mode.fresh tc.mtu) chunks).2

/-- `handlePacket`: what the callback is given of a frame, which is admitted or not. -/
def handlePacket (admitted : Bool) (data : Bytes) : Option Bytes :=
  if data.length < 1 then none
  else if ¬ admitted then none
  else if tc.deferInboundIFAC then some data
  else tc.applyIFACInbound data

/-- What the callback is given of a stream that is read in chunks; `admits` has the answers to
`admitIncomingFrom` for the frames by their numbers. -/
def readLoop (admits : ℕ → Bool) (chunks : List Bytes) : List Bytes :=
  (tc.frames chunks).zipIdx.filterMap fun f => tc.handlePacket (admits f.2) f.1

/-- What comes of it: a node unmasks what was left to it (`preprocessInboundPacket`). -/
def received (admits : ℕ → Bool) (chunks : List Bytes) : List Bytes :=
  (tc.readLoop admits chunks).filterMap
    fun data => if tc.deferInboundIFAC then tc.applyIFACInbound data else some data

variable {tc} {raw data : Bytes}

lemma inbound_of_outbound (hclear : ¬ Flagged raw) (hlong : 2 < raw.length)
    (h : tc.applyIFACOutbound raw = .ok data) : tc.applyIFACInbound data = some raw := by
  obtain ⟨_, _, _, _ | i⟩ := tc
  · obtain rfl := Except.ok.inj h
    rw [applyIFACInbound, if_neg (by omega)]
    exact if_neg hclear
  · have hback := (unmask_mask_iff hclear h).2 hlong
    obtain ⟨x, y, rest, sig, m, -, -, -, rfl⟩ := mask_eq_ok.1 h
    simp only [applyIFACInbound, hback]
    rw [if_neg (by simp)]
    exact if_neg (not_not.2 (flag_or _))

/-- The first bit of the packet is clear, and its frame is neither too short nor too long. -/
structure Sendable (tc : TCPClientInterface) (raw : Bytes) : Prop where
  clear : ¬ Flagged raw
  long : 2 < raw.length
  fits : ∀ masked, tc.applyIFACOutbound raw = .ok masked → tc.mode.WithinLimits tc.mtu masked

/-- A frame that unmasks to `raw` gives just that, if it is admitted. -/
lemma received_frame (h : tc.applyIFACInbound data = some raw) (admitted : Bool) :
    ((tc.handlePacket admitted data).bind
      fun data => if tc.deferInboundIFAC then tc.applyIFACInbound data else some data) =
      if admitted then some raw else none := by
  have hlen : ¬ data.length < 1 := by
    intro hlen
    rw [applyIFACInbound, if_pos (by omega)] at h
    cases h
  rw [handlePacket, if_neg hlen]
  cases admitted <;> cases hdefer : tc.deferInboundIFAC <;> simp [h]

/-- **What is sent is delivered**, in order and once, as far as it is admitted; what cannot be
masked is not sent. -/
theorem delivered_of_sent {raws : List Bytes} (h : ∀ raw ∈ raws, tc.Sendable raw)
    {chunks : List Bytes} (hchunks : chunks.flatten = raws.foldl tc.send []) (admits : ℕ → Bool) :
    tc.received admits chunks =
      (raws.filter fun raw => (tc.applyIFACOutbound raw).isOk).zipIdx.filterMap
        fun raw => if admits raw.2 then some raw.1 else none := by
  have hstream : raws.foldl tc.send [] =
      tc.mode.encodeFrames (raws.filterMap fun raw => (tc.applyIFACOutbound raw).toOption) := by
    rw [StreamMode.encodeFrames, foldl_filterMap]
    congr
    funext written raw
    rw [send]
    cases tc.applyIFACOutbound raw <;> rfl
  have hframes : tc.frames chunks = _ := StreamMode.round_trip ?_ (hchunks.trans hstream)
  · -- the frames are the masked forms of the packets that are sent
    have hmasked : tc.frames chunks =
        (raws.filter fun raw => (tc.applyIFACOutbound raw).isOk).map
          fun raw => (tc.applyIFACOutbound raw).toOption.getD [] := by
      rw [hframes, ← filterMap_eq_filter, map_filterMap]
      refine filterMap_congr fun raw _ => ?_
      cases hout : tc.applyIFACOutbound raw <;>
        simp [hout, Option.guard, Except.toOption, Except.isOk, Except.toBool]
    rw [received, readLoop, hmasked, zipIdx_map, filterMap_map, filterMap_filterMap]
    refine filterMap_congr fun f hf => received_frame ?_ _
    obtain ⟨hraw, hok⟩ := mem_filter.1 (fst_mem_of_mem_zipIdx hf)
    cases hout : tc.applyIFACOutbound f.1 with
    | error err => simp [hout, Except.isOk, Except.toBool] at hok
    | ok masked =>
      simpa [hout, Except.toOption] using inbound_of_outbound (h _ hraw).clear (h _ hraw).long hout
  · intro masked hmasked
    obtain ⟨raw, hraw, hout⟩ := mem_filterMap.1 hmasked
    refine (h raw hraw).fits masked ?_
    cases hok : tc.applyIFACOutbound raw <;> simp_all [Except.toOption]

/-- Of two packets in three reads, the second is admitted. -/
theorem second_delivered :
    let tc : TCPClientInterface := ⟨true, 500, flatCrypto, some flatIdentity, true⟩
    tc.received (· = 1) [[0xc0, 0, 0x80, 1, 7, 2], [0xc0, 0xc0, 0, 0x80, 3], [7, 4, 0xc0]] =
      [[0, 3, 4]] := by
  refine @delivered_of_sent _ [[0, 1, 2], [0, 3, 4]] ?_ _ rfl _
  rintro raw (_ | ⟨_, _ | ⟨_, ⟨⟩⟩⟩)
  all_goals
    refine ⟨by unfold Flagged; decide, by decide, ?_⟩
    rintro masked ⟨⟩
    decide

end TCPClientInterface

end Reticulum
