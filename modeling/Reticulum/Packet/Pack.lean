import Reticulum.Packet.Def

/-!
# Packing

`Pack` writes a packet as the bytes that `unpack` reads (`pkg/packet`).  It refuses identifiers of
the wrong length and results longer than the MTU, and does nothing to a packet that is marked as
**packed** already.  **`pack_unpack_roundTrip`** puts the two together.  A header can also be
written into a buffer to which the data are added later (`Outgoing.prepare_commit_eq_pack`).
-/

namespace Reticulum

open Packet.Constants List

namespace Packet.Constants

def mtu : ℕ := 500

end Packet.Constants

/-! ## The byte of flags -/

def HeaderType.toByte : HeaderType → UInt8
  | .headerType1 => 0x00
  | .headerType2 => 0x01

def DestinationType.toByte : DestinationType → UInt8
  | .single => 0x00
  | .group => 0x01
  | .plain => 0x02
  | .link => 0x03

def PacketType.toByte : PacketType → UInt8
  | .data => 0x00
  | .announce => 0x01
  | .linkReq => 0x02
  | .proof => 0x03

namespace Packet

def headerFlags (p : Packet) : UInt8 :=
  ((p.headerType.toByte <<< 6) &&& headerMaskHeaderType)
    ||| ((p.contextFlag <<< 5) &&& headerMaskContextFlag)
    ||| ((p.transportType <<< 4) &&& headerMaskTransportType)
    ||| ((p.destinationType.toByte <<< 2) &&& headerMaskDestinationType)
    ||| (p.packetType.toByte &&& headerMaskPacketType)

/-! ## Packing -/

/-- The transport identity as the header carries it: only a header of type 2 has one. -/
def wireTransportID (p : Packet) : Bytes :=
  match p.headerType with
  | .headerType2 => p.transportID
  | .headerType1 => []

def wire (p : Packet) : Bytes :=
  [p.headerFlags, p.hops] ++ p.wireTransportID ++ p.destinationHash ++ [p.context] ++ p.data

/-- Why packing refuses a packet with a header of type 2, if it does. -/
def transportIDError (p : Packet) : Option String :=
  match p.headerType with
  | .headerType2 =>
    if p.transportID = [] then some "transport ID required for header type 2"
    else if p.transportID.length ≠ truncatedHashLength then
      some s!"transport ID must be {truncatedHashLength} bytes, got {p.transportID.length}"
    else none
  | .headerType1 => none

/-- `Pack`: the packet with its bytes filled in.  A packet marked as packed is left alone. -/
def pack (packed : Bool) (p : Packet) : Except String Packet :=
  if packed then .ok p
  else if p.destinationHash.length ≠ 0 ∧ p.destinationHash.length ≠ truncatedHashLength then
    .error s!"destination hash must be {truncatedHashLength} bytes, got {p.destinationHash.length}"
  else
    match p.transportIDError with
    | some e => .error e
    | none =>
      if mtu < p.wire.length then .error "packet size exceeds MTU"
      else .ok { p with raw := p.wire }

/-- Each field within the range its place in the header has: identifiers of the full length, one
bit for each of the two one-bit flags, and a hop count that a parser accepts.  The remaining fields
cannot be out of range. -/
structure InRange (p : Packet) : Prop where
  destinationHash : p.destinationHash.length = truncatedHashLength
  transportID : p.headerType = .headerType2 → p.transportID.length = truncatedHashLength
  contextFlag : p.contextFlag = 0 ∨ p.contextFlag = 1
  transportType : p.transportType = 0 ∨ p.transportType = 1
  hops : p.hops.toNat < pathfinderM

/-! ## The fields of the flags, there and back -/

lemma forall_byte {P : UInt8 → Prop} (h : ∀ n : Fin 256, P (.ofFin n)) (b : UInt8) : P b := by
  have hb := h b.toFin
  rwa [UInt8.ofFin_toFin] at hb

variable {p : Packet}

/-- **Each field is read back from the flags it was packed into.** -/
lemma ofFlags_headerFlags (hp : p.InRange) :
    .ofFlags p.headerFlags = p.headerType ∧
      (p.headerFlags &&& headerMaskContextFlag) >>> 5 = p.contextFlag ∧
      (p.headerFlags &&& headerMaskTransportType) >>> 4 = p.transportType ∧
      .ofFlags p.headerFlags = p.destinationType ∧
      .ofFlags p.headerFlags = p.packetType := by
  have hc := hp.contextFlag
  have ht := hp.transportType
  obtain ⟨headerType, packetType, transportType, context, contextFlag, hops, destinationType,
    transportID, destinationHash, data, raw⟩ := p
  simp only [headerFlags]
  rcases hc with rfl | rfl <;> rcases ht with rfl | rfl <;> cases headerType <;>
    cases destinationType <;> cases packetType <;> decide

/-- **A byte whose top bit is clear is packed again from the fields read from it.** -/
lemma headerFlags_of_top_clear (flags : UInt8) (htop : flags &&& 0x80 = 0)
    (hh : p.headerType = .ofFlags flags)
    (hc : p.contextFlag = (flags &&& headerMaskContextFlag) >>> 5)
    (ht : p.transportType = (flags &&& headerMaskTransportType) >>> 4)
    (hd : p.destinationType = .ofFlags flags)
    (hp : p.packetType = .ofFlags flags) : p.headerFlags = flags := by
  simp only [headerFlags, hh, hc, ht, hd, hp]
  clear hh hc ht hd hp
  revert flags
  apply forall_byte
  decide +kernel

/-! ## Packing a packet and parsing the bytes -/

lemma pack_ok {q : Packet} (h : p.pack false = .ok q) :
    p.wire.length ≤ mtu ∧ q = { p with raw := p.wire } := by
  simp only [pack, Bool.false_eq_true, if_false] at h
  split at h
  · cases h
  split at h
  · cases h
  split at h
  · cases h
  · rename_i hlen
    exact ⟨Nat.le_of_not_lt hlen, (Except.ok.inj h).symm⟩

lemma length_transportID_of_pack {q : Packet} (h : p.pack false = .ok q)
    (htype : p.headerType = .headerType2) : p.transportID.length = truncatedHashLength := by
  simp only [pack, Bool.false_eq_true, if_false, transportIDError, htype] at h
  split at h
  · cases h
  by_contra hlength
  by_cases hnil : p.transportID = []
  · simp [hnil] at h
  · simp [hnil, hlength] at h

lemma pack_of_fits (hdst : p.destinationHash.length = truncatedHashLength)
    (hid : p.headerType = .headerType2 → p.transportID.length = truncatedHashLength)
    (hlen : p.wire.length ≤ mtu) : p.pack false = .ok { p with raw := p.wire } := by
  have herr : p.transportIDError = none := by
    unfold transportIDError
    cases hh : p.headerType with
    | headerType1 => rfl
    | headerType2 =>
      have hid := hid hh
      have hne : p.transportID ≠ [] := by
        rintro h
        simp [h, truncatedHashLength] at hid
      simp [hid, hne]
  simp only [pack, Bool.false_eq_true, if_false, hdst, ne_eq, not_true_eq_false, and_false, herr]
  exact if_neg (not_lt.2 hlen)

/-- **The parser reads a packet back from its bytes.** -/
lemma unpack_wire (hp : p.InRange) (hlen : p.wire.length ≤ mtu) :
    unpack p.wire = .ok { p with raw := p.wire, transportID := p.wireTransportID } := by
  obtain ⟨hht, hcf, htt, hdt, hpt⟩ := ofFlags_headerFlags hp
  have hdst : p.destinationHash.length = 16 := hp.destinationHash
  have hhops : p.hops.toNat < 128 := hp.hops
  have hcons : p.wire = p.headerFlags :: p.hops ::
      (p.wireTransportID ++ (p.destinationHash ++ p.context :: p.data)) := by
    simp [wire]
  have h0 : p.wire.getD 0 0 = p.headerFlags := rfl
  have h1 : p.wire.getD 1 0 = p.hops := rfl
  have hwlen : p.wire.length = p.wireTransportID.length + p.data.length + 19 := by
    simp only [hcons, length_cons, length_append]
    omega
  simp only [mtu] at hlen
  simp only [unpack, h0, h1, hht, hcf, htt, hdt, hpt, minPacketSize, maxInboundPacketSize,
    pathfinderM, truncatedHashLength]
  rw [if_neg (by omega), if_neg (by omega), if_neg (by omega)]
  cases hh : p.headerType with
  | headerType1 =>
    have hid : p.wireTransportID = [] := by simp [wireTransportID, hh]
    rw [hid, nil_append] at hcons
    simp only
    have hdestination : (p.wire.drop 2).take 16 = p.destinationHash := by simp [hcons, hdst]
    have hcontext : p.wire.getD (16 + 2) 0 = p.context := by simp [hcons, hdst]
    have hdata : p.wire.drop (16 + 3) = p.data := by simp [hcons, hdst, drop_append]
    rw [if_neg (by omega), hid, hdestination, hcontext, hdata]
  | headerType2 =>
    have hid : p.wireTransportID = p.transportID := by simp [wireTransportID, hh]
    have hlid : p.transportID.length = 16 := hp.transportID hh
    rw [hid] at hcons
    have htransport : (p.wire.drop 2).take 16 = p.transportID := by simp [hcons, hlid]
    have hdestination : (p.wire.drop (16 + 2)).take 16 = p.destinationHash := by
      simp [hcons, hdst, hlid]
    have hcontext : p.wire.getD (2 * 16 + 2) 0 = p.context := by
      simp [hcons, hdst, hlid, getElem?_append_right]
    have hdata : p.wire.drop (2 * 16 + 3) = p.data := by
      simp [hcons, hdst, hlid, drop_append, drop_eq_nil_of_le]
    rw [if_neg (by simp only [hid] at hwlen; omega), hid, htransport, hdestination,
      hcontext, hdata]

/-! ## Parsing bytes and packing the packet -/

lemma drop_eq_getD_cons {raw : Bytes} {n : ℕ} (h : n < raw.length) :
    raw.drop n = raw.getD n 0 :: raw.drop (n + 1) := by
  rw [drop_eq_getElem_cons h, getD_eq_getElem?_getD, getElem?_eq_getElem h]
  rfl

lemma drop_eq_take_append (raw : Bytes) (n k : ℕ) :
    raw.drop n = (raw.drop n).take k ++ raw.drop (n + k) := by
  rw [← drop_drop, take_append_drop]

lemma eq_cons_cons_drop {raw : Bytes} (h : 2 ≤ raw.length) :
    raw = raw.getD 0 0 :: raw.getD 1 0 :: raw.drop 2 := by
  rw [← drop_eq_getD_cons (by omega), ← drop_eq_getD_cons (by omega), drop_zero]

/-- **A packet that was parsed from bytes with the top bit clear is packed into these bytes.** -/
lemma wire_of_unpack {raw : Bytes} (h : unpack raw = .ok p) (htop : raw.getD 0 0 &&& 0x80 = 0) :
    p.wire = raw ∧ (p.headerType = .headerType2 → p.transportID.length = truncatedHashLength) := by
  have hflags := headerFlags_of_top_clear (p := p) (raw.getD 0 0) htop
  simp only [unpack] at h
  iterate 3
    split at h
    · cases h
  split at h
  all_goals
    rename_i hh
    split at h
    · cases h
    rename_i hlen
    obtain rfl := Except.ok.inj h
    simp only [truncatedHashLength, minPacketSize] at hlen
    have hflags := hflags hh.symm rfl rfl rfl rfl
    have hraw := @eq_cons_cons_drop raw (by omega)
  · constructor
    · rw [drop_eq_take_append raw 2 16, drop_eq_take_append raw 18 16,
        drop_eq_getD_cons (n := 34) (by omega)] at hraw
      rw [wire, hflags]
      conv_rhs => rw [hraw]
      simp [wireTransportID, truncatedHashLength]
    · simp only [truncatedHashLength, length_take, length_drop]
      omega
  · constructor
    · rw [drop_eq_take_append raw 2 16, drop_eq_getD_cons (n := 18) (by omega)] at hraw
      rw [wire, hflags]
      conv_rhs => rw [hraw]
      simp [wireTransportID, truncatedHashLength]
    · intro hheader
      cases hheader

/-! ## The round trip -/

/-- **The wire format is a round trip in both directions.**  For a packet with every field in its
range that packing accepts, the parser accepts the bytes and returns the packet: every field and
the data as they were, with a transport identity where the header has one.  A packet may be marked
as packed already, as long as its bytes are the ones an earlier packing left there.  And every byte
string the parser accepts, if its top bit is clear and it fits the MTU, is what packing the parsed
packet gives. -/
theorem pack_unpack_roundTrip :
    (∀ (packed : Bool) (p q : Packet), p.InRange →
      (packed = true → p.pack false = .ok p) → p.pack packed = .ok q →
      unpack q.raw = .ok { p with raw := q.raw, transportID := p.wireTransportID }) ∧
    (∀ (raw : Bytes) (p : Packet), unpack raw = .ok p → raw.getD 0 0 &&& 0x80 = 0 →
      raw.length ≤ mtu → p.raw = raw ∧ p.pack false = .ok p) := by
  constructor
  · intro packed p q hp hpacked h
    have hq : p.pack false = .ok q := by
      cases packed with
      | false => exact h
      | true =>
        obtain rfl : p = q := Except.ok.inj h
        exact hpacked rfl
    obtain ⟨hlen, rfl⟩ := pack_ok hq
    exact unpack_wire hp hlen
  · intro raw p h htop hlen
    obtain ⟨hraw, hwf⟩ := unpack_ok h
    obtain ⟨hwire, hid⟩ := wire_of_unpack h htop
    refine ⟨hraw, ?_⟩
    rw [pack_of_fits hwf.length_destinationHash hid (by rw [hwire]; exact hlen), hwire, ← hraw]

/-! ## Packing in place -/

def headerType1Overhead : ℕ := 2 + truncatedHashLength + 1

structure Outgoing where
  packet : Packet
  packed : Bool
  packetHash : Bytes

namespace Outgoing

def markPacked (sha : Sha256) (p : Packet) : Outgoing := ⟨p, true, p.getHash sha⟩

def pack (sha : Sha256) (p : Outgoing) : Except String Outgoing :=
  if p.packed then .ok p else (p.packet.pack false).map (markPacked sha)

/-- Write the header, and leave `payloadLen` bytes for the data behind it.  They are what the array
of the bytes holds there, if it is large enough. -/
def prepareHT1Buffer (p : Outgoing) (array destHash : Bytes) (payloadLen : ℕ) :
    Except String Outgoing :=
  let need := headerType1Overhead + payloadLen
  if destHash.length ≠ truncatedHashLength then
    .error s!"destination hash must be {truncatedHashLength} bytes, got {destHash.length}"
  else if p.packet.headerType ≠ .headerType1 then
    .error "PrepareHT1Buffer requires header type 1"
  else if mtu < need then .error "packet size exceeds MTU"
  else
    let raw := if array.length < need then replicate need 0 else array.take need
    let data := raw.drop headerType1Overhead
    .ok { p with
      packet := { p.packet with
        destinationHash := destHash, data
        raw := p.packet.headerFlags :: p.packet.hops :: (destHash ++ p.packet.context :: data) }
      packed := false }

/-- The caller writes the data into the buffer that was returned, which is the end of the bytes. -/
def writeBuffer (p : Outgoing) (data : Bytes) : Outgoing :=
  { p with packet := { p.packet with
      data, raw := p.packet.raw.take headerType1Overhead ++ data } }

def commitPacked (sha : Sha256) (p : Outgoing) : Except String Outgoing :=
  if mtu < p.packet.raw.length then .error "packet size exceeds MTU"
  else .ok (markPacked sha p.packet)

/-- **Packing in place is packing.**  The buffer is returned for a destination hash of the full
length and data that fit; and whatever the array held, writing the data there and committing gives
the packet, the mark and the hash that `Pack` gives for these fields. -/
theorem prepare_commit_eq_pack (sha : Sha256) (p : Outgoing) (array destHash data : Bytes)
    (hheader : p.packet.headerType = .headerType1) :
    (destHash.length = truncatedHashLength → headerType1Overhead + data.length ≤ mtu →
      ∃ q, p.prepareHT1Buffer array destHash data.length = .ok q) ∧
    ∀ q, p.prepareHT1Buffer array destHash data.length = .ok q →
      (q.writeBuffer data).commitPacked sha = pack sha { p with
        packed := false, packet := { p.packet with destinationHash := destHash, data } } := by
  simp only [prepareHT1Buffer]
  generalize (if array.length < _ then _ else _ : Bytes) = raw
  constructor
  · intro hdest hfit
    simp [hdest, hheader, not_lt.2 hfit]
  · intro q hq
    split_ifs at hq with hdest _ hfit
    have hdest : destHash.length = truncatedHashLength := not_not.1 hdest
    have hover : headerType1Overhead = destHash.length + 1 + 1 + 1 := by rw [hdest]; rfl
    rw [← Except.ok.inj hq]
    -- what is packed is the header that was prepared, and the data
    have hwire : ({ p.packet with destinationHash := destHash, data } : Packet).wire =
        p.packet.headerFlags :: p.packet.hops :: (destHash ++ p.packet.context :: data) := by
      simp [wire, wireTransportID, hheader, headerFlags]
    have hlen : (p.packet.headerFlags :: p.packet.hops ::
        (destHash ++ p.packet.context :: data)).length ≤ mtu := by
      simp only [length_cons, length_append]
      omega
    have hwritten : (p.packet.headerFlags :: p.packet.hops :: (destHash ++ p.packet.context ::
        raw.drop headerType1Overhead)).take headerType1Overhead ++ data =
          p.packet.headerFlags :: p.packet.hops :: (destHash ++ p.packet.context :: data) := by
      simp [hover, take_append]
    rw [pack, if_neg (by simp), pack_of_fits hdest (by simp [hheader]) (hwire ▸ hlen), hwire]
    simp only [commitPacked, writeBuffer, hwritten, if_neg (not_lt.2 hlen)]
    rfl

end Outgoing

/-- A packet with a header of type 2, every flag set, on its way to a plain destination. -/
def relayed : Packet where
  headerType := .headerType2
  packetType := .data
  transportType := 1
  context := contextChannel
  contextFlag := 1
  hops := 127
  destinationType := .plain
  transportID := replicate 16 0xAA
  destinationHash := replicate 16 0xBB
  data := [1, 2, 3]
  raw := []

/-- The packet `relayed` is packed, parsed from its bytes, and packed into the same bytes again. -/
theorem relayed_roundTrip :
    unpack relayed.wire = .ok { relayed with raw := relayed.wire } ∧
      ({ relayed with raw := relayed.wire } : Packet).pack false =
        .ok { relayed with raw := relayed.wire } := by
  have hunpack := pack_unpack_roundTrip.1 false relayed { relayed with raw := relayed.wire }
    ⟨rfl, fun _ => rfl, .inr rfl, .inr rfl, by decide⟩ (by nofun) rfl
  exact ⟨hunpack, (pack_unpack_roundTrip.2 relayed.wire _ hunpack (by decide) (by decide)).2⟩

def direct : Outgoing := ⟨{ relayed with headerType := .headerType1, data := [1, 2, 3] }, false, []⟩

theorem prepare_commit_direct :
    ∃ q, direct.prepareHT1Buffer [] relayed.destinationHash 3 = .ok q ∧
      (q.writeBuffer [1, 2, 3]).commitPacked .padded = direct.pack .padded := by
  obtain ⟨hready, hsame⟩ := Outgoing.prepare_commit_eq_pack .padded direct []
    relayed.destinationHash [1, 2, 3] rfl
  obtain ⟨q, hq⟩ := hready rfl (by decide)
  exact ⟨q, hq, hsame q hq⟩

end Packet

end Reticulum
