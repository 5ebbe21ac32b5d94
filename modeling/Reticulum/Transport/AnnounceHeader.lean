import Reticulum.Packet.Def

/-!
# The header of an announce

The parser of `pkg/packet`, the beginning of `handleAnnouncePacket`, and `destinationHashFromRaw`
(`pkg/transport`) each find the destination hash of a packet.  **`parsers_agree_iff`** compares them
on whatever the parser accepts.  For a packet with a transport identity, `destinationHashFromRaw`
makes sure that both hashes are there and then returns the *first*.
-/

namespace Reticulum

open Packet.Constants

/-! ## Constants -/

namespace Wire.Constants

def headerIFACMask : UInt8 := 0x80
def headerTypeMask : UInt8 := 0x40
def headerDestTypeMask : UInt8 := 0x0C

def headerSize : ℕ := 2
def addrHashSize : ℕ := 16
def doubleAddrSize : ℕ := 32
def contextByteLen : ℕ := 1

end Wire.Constants

open Wire.Constants

/-! ## Offsets -/

section

variable (data : Bytes)

/-- Where the addresses begin: after flags, hop count and the byte that the IFAC flag stands for. -/
def startIdx : ℕ :=
  if (data.getD 0 0 &&& headerIFACMask) >>> 7 = 1 then headerSize + 1 else headerSize

def doubleHeader : Bool := (data.getD 0 0 &&& headerTypeMask) >>> 6 = 1

def addrSize : ℕ := if doubleHeader data then doubleAddrSize else addrHashSize

/-- What `handleAnnouncePacket` reads out of a header, and the hop from which the announce came. -/
structure AnnounceHeader where
  destinationHash : Bytes
  context : UInt8
  payload : Bytes
  receivedFrom : Bytes
deriving DecidableEq

def announceHeader : Except String AnnounceHeader :=
  let start := startIdx data
  if data.length < 2 then .error "packet too small for header"
  else if data.length < start + addrSize data + contextByteLen then
    .error s!"packet too small: {data.length} bytes"
  else if doubleHeader data then
    .ok {
      receivedFrom := (data.drop start).take addrHashSize
      destinationHash := (data.drop (start + addrHashSize)).take addrHashSize
      context := data.getD (start + doubleAddrSize) 0
      payload := data.drop (start + doubleAddrSize + contextByteLen) }
  else
    .ok {
      destinationHash := (data.drop start).take addrHashSize
      context := data.getD (start + addrHashSize) 0
      payload := data.drop (start + addrHashSize + contextByteLen)
      receivedFrom := (data.drop start).take addrHashSize }

/-- The bytes over which the hash of an announce is taken: all from the destination hash on. -/
def announceHashed : Bytes :=
  data.drop (startIdx data + addrSize data - addrHashSize)

lemma announceHeader_hashed {data : Bytes} {hdr : AnnounceHeader}
    (h : announceHeader data = .ok hdr) :
    hdr.destinationHash = (announceHashed data).take addrHashSize ∧
      hdr.payload = (announceHashed data).drop (addrHashSize + contextByteLen) := by
  simp only [announceHeader] at h
  iterate 2
    split at h
    · cases h
  cases hdouble : doubleHeader data with
  | true =>
    simp only [hdouble] at h
    obtain rfl := Except.ok.inj h
    simp only [announceHashed, addrSize, hdouble, List.drop_drop]
    exact ⟨rfl, rfl⟩
  | false =>
    simp only [hdouble] at h
    obtain rfl := Except.ok.inj h
    simp only [announceHashed, addrSize, hdouble, Bool.false_eq_true, if_false, List.drop_drop,
      Nat.add_sub_cancel]
    exact ⟨trivial, rfl⟩

lemma exists_announceHeader_iff {data : Bytes} :
    (∃ hdr, announceHeader data = .ok hdr) ↔
      startIdx data + addrSize data + contextByteLen ≤ data.length := by
  have hstart : 2 ≤ startIdx data := by
    rw [startIdx, headerSize]
    split_ifs
    · omega
    · omega
  constructor
  · rintro ⟨hdr, h⟩
    simp only [announceHeader] at h
    split at h
    · cases h
    · split at h
      · cases h
      · omega
  · intro hlen
    simp only [announceHeader]
    rw [if_neg (by omega), if_neg (by omega)]
    split_ifs
    · exact ⟨_, rfl⟩
    · exact ⟨_, rfl⟩

def destinationHashFromRaw : Bytes :=
  let start := startIdx data
  if data.length < 2 then []
  else if data.length < start + addrSize data then []
  else (data.drop start).take addrHashSize

end

/-! ## The three readings -/

lemma startIdx_of_clear {data : Bytes} (h : data.getD 0 0 &&& headerIFACMask = 0) :
    startIdx data = 2 := by
  rw [startIdx, h]
  rfl

lemma ofFlags_eq (data : Bytes) :
    HeaderType.ofFlags (data.getD 0 0) =
      if doubleHeader data then .headerType2 else .headerType1 := by
  simp [HeaderType.ofFlags, doubleHeader, headerTypeMask, headerMaskHeaderType]

variable {raw : Bytes} {pkt : Packet}

lemma unpack_reads (h : Packet.unpack raw = .ok pkt) : (doubleHeader raw ∧ 35 ≤ raw.length ∧
        pkt.destinationHash = (raw.drop 18).take 16 ∧ pkt.context = raw.getD 34 0 ∧
        pkt.data = raw.drop 35) ∨ (doubleHeader raw = false ∧ 19 ≤ raw.length ∧
        pkt.destinationHash = (raw.drop 2).take 16 ∧ pkt.context = raw.getD 18 0 ∧
        pkt.data = raw.drop 19) := by
  simp only [Packet.unpack, ofFlags_eq] at h
  iterate 3
    split at h
    · cases h
  cases hdouble : doubleHeader raw with
  | true =>
    simp only [hdouble, if_true] at h
    split at h
    next => cases h
    next hlen =>
        obtain rfl := Except.ok.inj h
        exact .inl ⟨rfl, not_lt.1 hlen, rfl, rfl, rfl⟩
  | false =>
    simp only [hdouble, Bool.false_eq_true, if_false] at h
    split at h
    next => cases h
    next hlen =>
        obtain rfl := Except.ok.inj h
        exact .inr ⟨rfl, not_lt.1 hlen, rfl, rfl, rfl⟩

/-- The three readings of a header give the same destination hash, and the two that read more the
same context and data. -/
structure ParsersAgree (raw : Bytes) (pkt : Packet) : Prop where
  announce : ∃ hdr, announceHeader raw = .ok hdr ∧ hdr.destinationHash = pkt.destinationHash ∧
    hdr.context = pkt.context ∧ hdr.payload = pkt.data
  classified : destinationHashFromRaw raw = pkt.destinationHash

lemma announceHeader_of_unpack (h : Packet.unpack raw = .ok pkt)
    (hifac : raw.getD 0 0 &&& headerIFACMask = 0) :
    ∃ hdr, announceHeader raw = .ok hdr ∧ hdr.destinationHash = pkt.destinationHash ∧
      hdr.context = pkt.context ∧ hdr.payload = pkt.data := by
  have hstart := startIdx_of_clear hifac
  rcases unpack_reads h with ⟨hdouble, hlen, hdest, hcontext, hdata⟩ |
    ⟨hdouble, hlen, hdest, hcontext, hdata⟩
  · have hsize : ¬ raw.length < 2 + addrSize raw + contextByteLen := by
      rw [addrSize, hdouble, if_pos rfl, doubleAddrSize, contextByteLen]
      omega
    simp only [announceHeader, hstart, if_neg (show ¬ raw.length < 2 by omega), if_neg hsize,
      if_pos hdouble]
    exact ⟨_, rfl, hdest.symm, hcontext.symm, hdata.symm⟩
  · have hsize : ¬ raw.length < 2 + addrSize raw + contextByteLen := by
      rw [addrSize, hdouble, if_neg Bool.false_ne_true, addrHashSize, contextByteLen]
      omega
    simp only [announceHeader, hstart, if_neg (show ¬ raw.length < 2 by omega), if_neg hsize,
      hdouble]
    exact ⟨_, rfl, hdest.symm, hcontext.symm, hdata.symm⟩

lemma destinationHashFromRaw_of_unpack (h : Packet.unpack raw = .ok pkt)
    (hifac : raw.getD 0 0 &&& headerIFACMask = 0) :
    destinationHashFromRaw raw = (raw.drop 2).take 16 := by
  have hsize : ¬ raw.length < 2 + addrSize raw := by
    rcases unpack_reads h with ⟨hdouble, hlen, -⟩ | ⟨hdouble, hlen, -⟩
    · rw [addrSize, hdouble, if_pos rfl, doubleAddrSize]
      omega
    · rw [addrSize, hdouble, if_neg Bool.false_ne_true, addrHashSize]
      omega
  simp only [destinationHashFromRaw, startIdx_of_clear hifac, if_neg hsize]
  rw [if_neg (by omega)]
  rfl

/-- **Three parsers.**  On a packet that the parser accepts, with the top flag clear, the three
readings agree exactly if the header has no transport identity, or one that is the destination hash
as well. -/
theorem parsers_agree_iff (h : Packet.unpack raw = .ok pkt)
    (hifac : raw.getD 0 0 &&& headerIFACMask = 0) :
    ParsersAgree raw pkt ↔
      HeaderType.ofFlags (raw.getD 0 0) = .headerType1 ∨
        (raw.drop 2).take 16 = (raw.drop 18).take 16 := by
  have hclassified := destinationHashFromRaw_of_unpack h hifac
  have hagree : ParsersAgree raw pkt ↔ (raw.drop 2).take 16 = pkt.destinationHash := by
    rw [← hclassified]
    exact ⟨fun hparsers => hparsers.classified,
      fun heq => ⟨announceHeader_of_unpack h hifac, heq⟩⟩
  rw [hagree, ofFlags_eq]
  rcases unpack_reads h with ⟨hdouble, -, hdest, -, -⟩ | ⟨hdouble, -, hdest, -, -⟩
  · rw [hdest, hdouble, if_pos rfl]
    simp
  · rw [hdest, hdouble, if_neg Bool.false_ne_true]
    simp

def transported : Bytes := [0x48, 0] ++ .replicate 16 1 ++ .replicate 16 2 ++ [0, 7]

/-- It is classified by the transport identity. -/
theorem transported_disagree :
    ∃ pkt, Packet.unpack transported = .ok pkt ∧ transported.getD 0 0 &&& headerIFACMask = 0 ∧
      pkt.destinationHash = List.replicate 16 2 ∧
      destinationHashFromRaw transported = List.replicate 16 1 :=
  ⟨_, rfl, by decide, by decide, by decide⟩

/-- A header without a transport identity is read alike. -/
theorem parsers_agree_single :
    ∃ pkt, Packet.unpack ([0, 0] ++ List.replicate 16 1 ++ [0, 7]) = .ok pkt ∧
      ParsersAgree ([0, 0] ++ List.replicate 16 1 ++ [0, 7]) pkt :=
  ⟨_, rfl, (parsers_agree_iff rfl (by decide)).2 (.inl (by decide))⟩

end Reticulum
