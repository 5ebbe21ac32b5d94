import Reticulum.Announce.Def

/-!
# Announces survive

What `CreatePacket` writes is accepted by both parsers, however often relays have wrapped it anew
(`Wraps`), and nothing is accepted that has not been signed as a whole for the destination that it
names: **`announce_survives`**.  The number of hops has to be below the limit (`relayed_too_far`),
and the flag for the ratchet is *not* signed (`acceptAnnounce_moveRatchet`).
-/

namespace Reticulum

variable {handlers : List HandlerAnswer}

open Packet.Constants Wire.Constants Announce.Constants List AnnounceFields AnnounceEnv

/-! ## The flags -/

structure AnnounceFlags (ratchet : Bool) (flags : UInt8) : Prop where
  ifac : flags &&& headerIFACMask = 0
  low : flags &&& hashableFlagsMask = packetTypeAnnounce
  context : (flags &&& headerContextFlagMask) >>> 5 = if ratchet then 1 else 0

section

variable {ratchet : Bool} {flags : UInt8}

lemma AnnounceFlags.announces (h : AnnounceFlags ratchet flags) :
    flags &&& headerPacketTypeMask = packetTypeAnnounce ∧
      (flags &&& headerDestTypeMask) >>> 2 = destTypeSingle := by
  have hlow := h.low
  clear h
  revert flags
  apply Packet.forall_byte
  decide +kernel

lemma contextFlag_eq_one_iff (flags : UInt8) :
    (flags &&& headerContextFlagMask) >>> 5 = 1 ↔ flags &&& headerContextFlagMask ≠ 0 := by
  revert flags
  apply Packet.forall_byte
  decide +kernel

lemma announceFlags_created (ratchet : Bool) :
    AnnounceFlags ratchet (ifacNone ||| (headerType1 <<< 6) |||
      ((if ratchet then (1 : UInt8) else 0) <<< 5) ||| (propTypeBroadcast <<< 4) |||
      (destTypeSingle <<< 2) ||| packetTypeAnnounce) := by
  cases ratchet
  · exact ⟨by decide, by decide, by decide⟩
  · exact ⟨by decide, by decide, by decide⟩

lemma AnnounceFlags.clear (h : AnnounceFlags ratchet flags) :
    AnnounceFlags ratchet (flags &&& ~~~headerPropTypeMask) := by
  have hbits : ∀ f : UInt8,
      (f &&& ~~~headerPropTypeMask) &&& headerIFACMask = f &&& headerIFACMask ∧
      (f &&& ~~~headerPropTypeMask) &&& hashableFlagsMask = f &&& hashableFlagsMask ∧
      (f &&& ~~~headerPropTypeMask) &&& headerContextFlagMask = f &&& headerContextFlagMask := by
    apply Packet.forall_byte
    decide +kernel
  obtain ⟨hifac, hlow, hcontext⟩ := hbits flags
  exact ⟨hifac.trans h.ifac, hlow.trans h.low, by rw [hcontext]; exact h.context⟩

lemma AnnounceFlags.inserted (h : AnnounceFlags ratchet flags) :
    AnnounceFlags ratchet (insertedFlags flags) := by
  have hbits : ∀ f : UInt8, insertedFlags f &&& headerIFACMask = 0 ∧
      insertedFlags f &&& hashableFlagsMask = f &&& hashableFlagsMask ∧
      insertedFlags f &&& headerContextFlagMask = f &&& headerContextFlagMask := by
    apply Packet.forall_byte
    decide +kernel
  obtain ⟨hifac, hlow, hcontext⟩ := hbits flags
  exact ⟨hifac, hlow.trans h.low, by rw [hcontext]; exact h.context⟩

def doubleFlag (flags : UInt8) : Bool := (flags &&& headerTypeMask) >>> 6 = 1

lemma doubleFlag_clear (flags : UInt8) :
    doubleFlag (flags &&& ~~~headerPropTypeMask) = doubleFlag flags := by
  revert flags
  apply Packet.forall_byte
  decide +kernel

lemma doubleFlag_inserted (flags : UInt8) : doubleFlag (insertedFlags flags) := by
  revert flags
  apply Packet.forall_byte
  decide +kernel

lemma announceFlags_response (relay : Bytes) {entry : PathAnnounceEntry}
    (h : entry.packet.contextFlag = if ratchet then 1 else 0) :
    AnnounceFlags ratchet (entry.responsePacket relay).headerFlags ∧
      doubleFlag (entry.responsePacket relay).headerFlags := by
  simp only [Packet.headerFlags, PathAnnounceEntry.responsePacket, h]
  cases ratchet
  · exact ⟨⟨by decide, by decide, by decide⟩, by decide⟩
  · exact ⟨⟨by decide, by decide, by decide⟩, by decide⟩

end

/-! ## Packets that carry an announce -/

/-- A packet that carries the announce of a destination, in a header of either type. -/
inductive Wraps (dest payload : Bytes) (ratchet : Bool) : Bytes → Prop where
  | wrap (flags hops context : UInt8) (transportID : Bytes) (hflags : AnnounceFlags ratchet flags)
      (hdest : dest.length = addrHashSize)
      (hid : transportID.length = if doubleFlag flags then addrHashSize else 0) :
      Wraps dest payload ratchet
        (flags :: hops :: (transportID ++ (dest ++ context :: payload)))

namespace Wraps

variable {dest payload data : Bytes} {ratchet : Bool}

section

variable (h : Wraps dest payload ratchet data)
include h

lemma flags : AnnounceFlags ratchet (data.getD 0 0) := by
  obtain ⟨flags, hops, context, transportID, hflags, hdest, hid⟩ := h
  exact hflags

lemma hashed : ∃ context, announceHashed data = dest ++ context :: payload := by
  have hstart := startIdx_of_clear h.flags.ifac
  obtain ⟨flags, hops, context, transportID, hflags, hdest, hid⟩ := h
  refine ⟨context, ?_⟩
  rw [announceHashed, hstart]
  change drop (2 + (if doubleFlag flags then doubleAddrSize else addrHashSize) - addrHashSize)
    _ = _
  have hoffset : 2 + (if doubleFlag flags then doubleAddrSize else addrHashSize) - addrHashSize =
      transportID.length + 2 := by
    rw [hid]
    split_ifs <;> rfl
  rw [hoffset, drop_succ_cons, drop_succ_cons, drop_left]

lemma length_header :
    startIdx data + addrSize data + contextByteLen + payload.length = data.length := by
  rw [startIdx_of_clear h.flags.ifac]
  obtain ⟨flags, hops, context, transportID, hflags, hdest, hid⟩ := h
  change 2 + (if doubleFlag flags then doubleAddrSize else addrHashSize) + _ + _ = _
  simp only [length_cons, length_append, hdest, hid, doubleAddrSize, addrHashSize, contextByteLen]
  split_ifs <;> omega

lemma header :
    ∃ hdr, announceHeader data = .ok hdr ∧ hdr.destinationHash = dest ∧ hdr.payload = payload := by
  have hlength := h.length_header
  obtain ⟨context, hhashed⟩ := h.hashed
  have hdest : dest.length = addrHashSize := by
    obtain ⟨_, _, _, _, _, hdest, _⟩ := h
    exact hdest
  obtain ⟨hdr, hhdr⟩ := exists_announceHeader_iff.2 (show _ ≤ data.length by omega)
  obtain ⟨hread, hpayload⟩ := announceHeader_hashed hhdr
  refine ⟨hdr, hhdr, ?_, ?_⟩
  · rw [hread, hhashed, take_left' hdest]
  · rw [hpayload, hhashed, ← drop_drop, drop_left' hdest]
    rfl

lemma rewriteHops (hops : UInt8) : Wraps dest payload ratchet (rewriteHopsInPlace data hops) := by
  obtain ⟨flags, _, context, transportID, hflags, hdest, hid⟩ := h
  exact .wrap flags hops context transportID hflags hdest hid

lemma forwarded (relay : Bytes) : Wraps dest payload ratchet (forwardedAnnounce relay data) := by
  rw [forwardedAnnounce]
  split_ifs with hrelay hdouble
  · -- the transport identity of the last relay gives way to this one's
    cases hwrapped : rebuildHeaderType2 data (data.getD 1 0) relay with
    | error err => exact h
    | ok wrapped =>
      obtain ⟨-, -, rfl⟩ := rebuildHeaderType2_ok hwrapped
      obtain ⟨flags, hops, context, transportID, hflags, hdest, hid⟩ := h
      have hflag : doubleFlag flags := hdouble
      rw [hflag] at hid
      have hdrop : (flags :: hops :: (transportID ++ (dest ++ context :: payload))).drop
          (truncatedHashLength + 2) = dest ++ context :: payload := by
        exact drop_left' hid
      rw [hdrop]
      refine .wrap (flags &&& ~~~headerPropTypeMask) hops context relay hflags.clear hdest ?_
      rw [doubleFlag_clear, hflag]
      exact hrelay.1
  · -- there was none, and one is inserted
    cases hwrapped : insertHeaderType2 data (data.getD 1 0) relay with
    | error err => exact h
    | ok wrapped =>
      obtain ⟨-, -, rfl⟩ := insertHeaderType2_ok hwrapped
      obtain ⟨flags, hops, context, transportID, hflags, hdest, hid⟩ := h
      have hflag : doubleFlag flags = false := Bool.eq_false_iff.2 hdouble
      rw [hflag, if_neg Bool.false_ne_true, length_eq_zero_iff] at hid
      subst hid
      refine .wrap (insertedFlags flags &&& ~~~headerPropTypeMask) hops context relay
        hflags.inserted.clear hdest ?_
      rw [doubleFlag_clear, doubleFlag_inserted]
      exact hrelay.1
  · exact h

lemma pathResponse {hdr : AnnounceHeader}
    (hhdr : announceHeader data = .ok hdr) {relay : Option Bytes} {entry : PathAnnounceEntry}
    (hentry : entry.packet.toPacket = cachedAnnounce data hdr) {wire : Bytes}
    (hwire : entry.buildPathResponseWire relay = .ok wire) : Wraps dest payload ratchet wire := by
  obtain ⟨hdr', hhdr', hread, hpayload⟩ := h.header
  obtain rfl : hdr' = hdr := Except.ok.inj (hhdr'.symm.trans hhdr)
  obtain ⟨flags, hops, context, transportID, hflags, hdest, hid⟩ := h
  cases relay with
  | none => cases hwire
  | some relay =>
    simp only [PathAnnounceEntry.buildPathResponseWire] at hwire
    cases hpack : (entry.responsePacket relay).pack false with
    | error err =>
      rw [hpack] at hwire
      cases hwire
    | ok out =>
      rw [hpack] at hwire
      obtain rfl := Except.ok.inj hwire
      have hrelay : relay.length = addrHashSize := Packet.length_transportID_of_pack hpack rfl
      obtain ⟨-, rfl⟩ := Packet.pack_ok hpack
      have hcontext : entry.packet.contextFlag = if ratchet then 1 else 0 := by
        rw [hentry]
        exact hflags.context
      have hto : entry.packet.destinationHash = dest := by
        rw [hentry]
        exact hread
      have hdata : entry.packet.data = payload := by
        rw [hentry]
        exact hpayload
      have hwire : (entry.responsePacket relay).wire =
          (entry.responsePacket relay).headerFlags :: entry.announceHops ::
            (relay ++ (dest ++ (entry.responsePacket relay).context :: payload)) := by
        simp [Packet.wire, Packet.wireTransportID, PathAnnounceEntry.responsePacket, hto, hdata]
      rw [hwire]
      obtain ⟨hresponse, hdouble⟩ := announceFlags_response relay hcontext
      refine .wrap _ _ _ relay hresponse hdest ?_
      rw [hdouble]
      exact hrelay

/-- **A packet that carries an announce is passed on as one.** -/
lemma rewrapped {data' : Bytes}
    (hstep : Rewrapped data data') : Wraps dest payload ratchet data' := by
  cases hstep with
  | forwarded transportID _ hops => exact (h.rewriteHops hops).forwarded transportID
  | toLocalClients _ hops => exact h.rewriteHops hops
  | pathResponse hhdr transportIdentity entry hentry hwire =>
    exact h.pathResponse hhdr hentry hwire

lemma relayed {data' : Bytes}
    (hrun : Relation.ReflTransGen Rewrapped data data') : Wraps dest payload ratchet data' := by
  induction hrun with
  | refl => exact h
  | tail _ hstep ih => exact ih.rewrapped hstep

end

end Wraps

/-! ## The two parsers -/

def minPayload (ratchet : Bool) : ℕ := if ratchet then 180 else 148

namespace AnnounceFields

def cut (ratchet : Bool) (payload : Bytes) : AnnounceFields :=
  let pos := if ratchet then 116 else 84
  { pubKey := payload.take 64
    nameHash := (payload.drop 64).take 10
    randomHash := (payload.drop 74).take 10
    ratchetData := (payload.take pos).drop 84
    signature := (payload.drop pos).take 64
    appData := payload.drop (pos + 64) }

structure Sized (ann : AnnounceFields) : Prop where
  pubKey : ann.pubKey.length = 64
  nameHash : ann.nameHash.length = 10
  randomHash : ann.randomHash.length = 10
  ratchetData : ann.ratchetData.length = 32 ∨ ann.ratchetData = []
  signature : ann.signature.length = 64

def hasRatchet (ann : AnnounceFields) : Bool := ann.ratchetData ≠ []

end AnnounceFields

section

variable {ratchet : Bool} {payload data : Bytes} {ann : AnnounceFields}

lemma announceFields_eq_ok :
    announceFields ratchet payload = .ok ann ↔
      minPayload ratchet ≤ payload.length ∧ cut ratchet payload = ann := by
  cases ratchet with
  | true =>
    simp only [announceFields, Bool.true_and, decide_eq_true_eq, if_true, Fallible.ite_error_eq_ok,
      Except.ok.injEq, minPayload]
    constructor
    · rintro ⟨-, hlong, hcut⟩
      exact ⟨by omega, hcut⟩
    · rintro ⟨hlong, hcut⟩
      exact ⟨by omega, by omega, hcut⟩
  | false =>
    simp only [announceFields, Bool.false_and, Bool.false_eq_true, if_false,
      Fallible.ite_error_eq_ok, Except.ok.injEq, minPayload]
    exact and_congr_left fun _ => by omega

lemma readAnnounceData_eq_ok :
    readAnnounceData ratchet payload = .ok ann ↔
      minPayload ratchet ≤ payload.length ∧ cut ratchet payload = ann := by
  have hpub : payload.take 32 ++ (payload.drop 32).take 32 = payload.take 64 := by
    rw [← take_add]
  cases ratchet with
  | true =>
    have hratchet : (payload.drop 84).take 32 = (payload.take 116).drop 84 := by
      rw [drop_take]
    simp only [readAnnounceData, pubKeySize, pubKeyHalfSize, nameHashSize, randomHashSize,
      signatureSize, ratchetSize, if_true, hpub, hratchet, Fallible.ite_error_eq_ok,
      Except.ok.injEq, minPayload, cut, Nat.reduceMul]
    constructor
    · rintro ⟨hlong, -, hcut⟩
      exact ⟨by omega, hcut⟩
    · rintro ⟨hlong, hcut⟩
      exact ⟨by omega, fun hshort => absurd (of_decide_eq_true hshort) (by omega), hcut⟩
  | false =>
    have hnone : (payload.take 84).drop 84 = [] := drop_of_length_le (by simp)
    simp only [readAnnounceData, pubKeySize, pubKeyHalfSize, nameHashSize, randomHashSize,
      signatureSize, ratchetSize, Bool.false_eq_true, if_false, hpub, hnone, Bool.false_and,
      Fallible.ite_error_eq_ok, Except.ok.injEq, minPayload, cut, Nat.reduceMul]
    exact and_congr_left fun _ => by omega

/-- **The fields are read back from the payload** into which they were put. -/
lemma cut_payload (h : ann.Sized) :
    cut ann.hasRatchet ann.payload = ann ∧
      minPayload ann.hasRatchet ≤ ann.payload.length := by
  obtain ⟨pubKey, nameHash, randomHash, ratchetData, signature, appData⟩ := ann
  obtain ⟨hpub, hname, hrandom, hratchet, hsig⟩ := h
  simp only at hpub hname hrandom hratchet hsig
  simp only [payload, hasRatchet, append_assoc]
  set payload := pubKey ++ (nameHash ++ (randomHash ++ (ratchetData ++ (signature ++ appData))))
    with hpayload
  have h0 : payload.drop 0 = _ := hpayload
  have h64 := Bytes.drop_next h0 hpub (zero_add 64)
  have h74 := Bytes.drop_next h64 hname rfl
  have h84 := Bytes.drop_next h74 hrandom rfl
  have hlength : payload.length = 64 + 10 + 10 + ratchetData.length + 64 + appData.length := by
    simp only [hpayload, length_append, hpub, hsig]
    omega
  rcases hratchet with hratchet | rfl
  · have hne : ratchetData ≠ [] := by
      rintro rfl
      simp at hratchet
    have h116 := Bytes.drop_next h84 hratchet rfl
    have h180 := Bytes.drop_next h116 hsig rfl
    simp only [cut, minPayload, hne, ne_eq, not_false_eq_true, decide_true, if_true]
    refine ⟨?_, by omega⟩
    rw [drop_take, h64, h74, h84, h116, h180, take_left' hname, take_left' hrandom,
      take_left' hratchet, take_left' hsig, take_left' hpub]
  · rw [nil_append] at h84
    have h148 := Bytes.drop_next h84 hsig rfl
    simp only [cut, minPayload, ne_eq, not_true_eq_false, decide_false,
      Bool.false_eq_true, if_false]
    refine ⟨?_, by rw [hlength]; simp⟩
    rw [drop_take, h64, h74, h84, h148, take_left' hname, take_left' hrandom, take_left' hsig,
      take_left' hpub]
    rfl

lemma sized_of_fields (h : announceFields ratchet payload = .ok ann) :
    ann.Sized ∧ ann.hasRatchet = ratchet := by
  obtain ⟨hmin, rfl⟩ := announceFields_eq_ok.1 h
  cases ratchet
  all_goals
    simp only [minPayload, Bool.false_eq_true, if_true, if_false] at hmin
    refine ⟨⟨?_, ?_, ?_, ?_, ?_⟩, ?_⟩
    · simp only [cut, length_take]
      omega
    · simp only [cut, length_take, length_drop]
      omega
    · simp only [cut, length_take, length_drop]
      omega
    · simp only [cut, drop_eq_nil_iff, Bool.false_eq_true, if_true, if_false, length_take,
        length_drop]
      omega
    · simp only [cut, Bool.false_eq_true, if_true, if_false, length_take, length_drop]
      omega
    · simp only [hasRatchet, cut, ne_eq, drop_eq_nil_iff, Bool.false_eq_true, if_true, if_false,
        length_take, decide_eq_true_eq, decide_eq_false_iff_not]
      omega

lemma readAnnounce_eq_ok {dest : Bytes} :
    readAnnounce data = .ok (dest, ann) ↔
      data.getD 0 0 &&& headerPacketTypeMask = packetTypeAnnounce ∧
        (data.getD 1 0).toNat < maxHops ∧
        (data.drop (2 + addrSize data - 16)).take 16 = dest ∧
        announceFields (ratcheted data) (data.drop (2 + addrSize data - 16 + 17)) = .ok ann := by
  have hratchet : decide (data.getD 0 0 &&& headerContextFlagMask ≠ 0) = ratcheted data := by
    rw [ratcheted, decide_eq_decide]
    exact (contextFlag_eq_one_iff _).symm
  -- a payload that is long enough makes a packet that is long enough
  have hlong : ∀ n, announceFields (ratcheted data) (data.drop n) = .ok ann →
      n + 148 ≤ data.length := by
    intro n hfields
    have hmin := (announceFields_eq_ok.1 hfields).1
    rw [length_drop, minPayload] at hmin
    split_ifs at hmin <;> omega
  have hmap n x :
      (readAnnounceData (ratcheted data) (data.drop n)).map (fun ann => (x, ann)) =
          .ok (dest, ann) ↔
        x = dest ∧ announceFields (ratcheted data) (data.drop n) = .ok ann := by
    rw [Fallible.map_eq_ok]
    constructor
    · rintro ⟨ann', hread, heq⟩
      obtain ⟨rfl, rfl⟩ := Prod.mk.inj heq
      exact ⟨rfl, announceFields_eq_ok.2 (readAnnounceData_eq_ok.1 hread)⟩
    · rintro ⟨rfl, hfields⟩
      exact ⟨ann, readAnnounceData_eq_ok.2 (announceFields_eq_ok.1 hfields), rfl⟩
  simp only [readAnnounce, hratchet, Fallible.ite_error_eq_ok, minAnnouncePacketSizeNoRatchet,
    headerType1Offset, headerType2Offset, headerSize, addrHashSize, contextByteLen, pubKeySize,
    pubKeyHalfSize, nameHashSize, randomHashSize, signatureSize, not_not, not_le]
  -- the two headers differ in the offset alone
  cases hdouble : doubleHeader data
  all_goals
    simp only [addrSize, hdouble, Bool.false_eq_true, if_false, if_true, doubleAddrSize,
      addrHashSize, Fallible.ite_error_eq_ok, hmap]
    constructor
    · rintro ⟨-, htype, hhops, -, hdest, hfields⟩
      exact ⟨htype, hhops, hdest, hfields⟩
    · rintro ⟨htype, hhops, hdest, hfields⟩
      have hlength := hlong _ hfields
      exact ⟨by omega, htype, hhops, by omega, hdest, hfields⟩

/-- **The two parsers agree**, on every packet without the IFAC flag: `HandleAnnounce` reads what
the transport reads, if the packet is an announce that has not come too far. -/
lemma readAnnounce_iff (hifac : data.getD 0 0 &&& headerIFACMask = 0) {dest : Bytes} :
    readAnnounce data = .ok (dest, ann) ↔
      data.getD 0 0 &&& headerPacketTypeMask = packetTypeAnnounce ∧
        (data.getD 1 0).toNat < maxHops ∧
        ∃ hdr, announceHeader data = .ok hdr ∧ hdr.destinationHash = dest ∧
          announceFields (ratcheted data) hdr.payload = .ok ann := by
  have hhashed : announceHashed data = data.drop (2 + addrSize data - 16) := by
    rw [announceHashed, startIdx_of_clear hifac, addrHashSize]
  rw [readAnnounce_eq_ok, ← drop_drop, ← hhashed]
  refine and_congr_right fun _ => and_congr_right fun _ => ?_
  constructor
  · rintro ⟨hdest, hfields⟩
    have hlength := (announceFields_eq_ok.1 hfields).1
    have hmin : 148 ≤ minPayload (ratcheted data) := by
      rw [minPayload]
      split_ifs <;> omega
    rw [hhashed, length_drop, length_drop] at hlength
    obtain ⟨hdr, hhdr⟩ := exists_announceHeader_iff.2
      (show startIdx data + addrSize data + contextByteLen ≤ data.length by
        rw [startIdx_of_clear hifac, contextByteLen]
        omega)
    obtain ⟨hread, hpayload⟩ := announceHeader_hashed hhdr
    exact ⟨hdr, hhdr, hread.trans hdest, by rw [hpayload]; exact hfields⟩
  · rintro ⟨hdr, hhdr, hdest, hfields⟩
    obtain ⟨hread, hpayload⟩ := announceHeader_hashed hhdr
    rw [hpayload] at hfields
    exact ⟨hread.symm.trans hdest, hfields⟩

end

/-! ## What is accepted -/

def AnnounceEnv.Derived (env : AnnounceEnv) (dest : Bytes) (ann : AnnounceFields) : Prop :=
  dest = (env.sha.sum (ann.nameHash ++ env.identityHash ann.pubKey)).take 16

def AnnounceEnv.Covered (env : AnnounceEnv) (dest : Bytes) (ann : AnnounceFields) : Prop :=
  env.verify ann.pubKey (ann.signData dest) ann.signature = true

namespace AnnounceEnv

variable {env : AnnounceEnv} {ans : AnnounceAnswers} {data dest : Bytes} {iface : Option ℕ}
  {hdr : AnnounceHeader} {ann : AnnounceFields} {known : Bytes → Option Bytes}

lemma verifiedAnnounce_eq_ok {cryptoAllowed : Bool} :
    env.verifiedAnnounce cryptoAllowed data hdr = .ok ann ↔
      announceFields (ratcheted data) hdr.payload = .ok ann ∧ cryptoAllowed ∧
        env.Covered hdr.destinationHash ann ∧ env.blackholed (env.identityHash ann.pubKey) = false ∧
        env.Derived hdr.destinationHash ann := by
  rw [verifiedAnnounce]
  cases hfields : announceFields (ratcheted data) hdr.payload with
  | error err => simp
  | ok ann' =>
    simp only [Fallible.ite_error_eq_ok, Except.ok.injEq, Covered]
    constructor
    · rintro ⟨hcrypto, hverify, hblack, hdest, rfl⟩
      exact ⟨rfl, by simpa using hcrypto, by simpa using hverify, by simpa using hblack,
        not_not.1 hdest⟩
    · rintro ⟨rfl, hcrypto, hverify, hblack, hdest⟩
      exact ⟨by simpa using hcrypto, by simpa using hverify, by simpa using hblack,
        not_not.2 hdest, rfl⟩

/-- **What the transport accepts.** -/
lemma validated_eq_some : env.validated ans data iface = some (hdr, ann) ↔
      unannounceable data = false ∧ announceHeader data = .ok hdr ∧
        env.verifiedAnnounce ans.cryptoAllowed data hdr = .ok ann ∧
        ans.rememberIdentity ∧ env.announceHops data iface ≤ maxHops := by
  rw [validated]
  cases hun : unannounceable data with
  | true => simp
  | false =>
    simp only [Bool.false_eq_true, if_false, true_and]
    cases hheader : announceHeader data with
    | error err => simp
    | ok hdr' =>
      cases hverified : env.verifiedAnnounce ans.cryptoAllowed data hdr' with
      | error err =>
        simp only [hverified, reduceCtorEq, Except.ok.injEq, false_iff, not_and]
        rintro rfl hok
        rw [hverified] at hok
        cases hok
      | ok ann' =>
        simp only [hverified, Option.ite_none_right_eq_some, Option.some.injEq,
          Prod.mk.injEq, Except.ok.injEq]
        constructor
        · rintro ⟨hans, rfl, rfl⟩
          exact ⟨rfl, hverified, hans⟩
        · rintro ⟨rfl, hok, hans⟩
          exact ⟨hans, rfl, Except.ok.inj (hverified.symm.trans hok)⟩

/-- **What `HandleAnnounce` accepts.** -/
lemma acceptAnnounce_eq_ok : env.acceptAnnounce known data = .ok (dest, ann) ↔
      readAnnounce data = .ok (dest, ann) ∧ ann.pubKey.length = 64 ∧ env.Covered dest ann ∧
        env.Derived dest ann ∧ remembers known dest ann.pubKey := by
  rw [acceptAnnounce]
  cases hread : readAnnounce data with
  | error err => simp
  | ok r =>
    obtain ⟨dest', ann'⟩ := r
    simp only [Fallible.ite_error_eq_ok, Except.ok.injEq, Prod.mk.injEq, Covered]
    constructor
    · rintro ⟨hkey, hverify, hderived, hknown, rfl, rfl⟩
      exact ⟨⟨rfl, rfl⟩, not_not.1 hkey, by simpa using hverify, not_not.1 hderived,
        by simpa using hknown⟩
    · rintro ⟨⟨rfl, rfl⟩, hkey, hverify, hderived, hknown⟩
      exact ⟨not_not.2 hkey, by simpa using hverify, not_not.2 hderived, by simpa using hknown,
        rfl, rfl⟩

end AnnounceEnv

/-! ## What is accepted of a packet that carries an announce -/

namespace Wraps

variable {env : AnnounceEnv} {dest data : Bytes} {ann : AnnounceFields}

lemma ratcheted_eq {payload : Bytes} {ratchet : Bool} (h : Wraps dest payload ratchet data) :
    ratcheted data = ratchet := by
  rw [ratcheted, h.flags.context]
  cases ratchet <;> rfl

section

variable (h : Wraps dest ann.payload ann.hasRatchet data)
include h

/-- **The fields are read back from a packet that carries them.** -/
lemma fields (hsized : ann.Sized) :
    ∃ hdr, announceHeader data = .ok hdr ∧ hdr.destinationHash = dest ∧
      announceFields (ratcheted data) hdr.payload = .ok ann := by
  obtain ⟨hdr, hhdr, hdest, hpayload⟩ := h.header
  obtain ⟨hcut, hmin⟩ := cut_payload hsized
  refine ⟨hdr, hhdr, hdest, ?_⟩
  rw [hpayload, h.ratcheted_eq]
  exact announceFields_eq_ok.2 ⟨hmin, hcut⟩

lemma validated (hsized : ann.Sized) (hcovered : env.Covered dest ann)
    (hderived : env.Derived dest ann) (hhops : (data.getD 1 0).toNat < maxHops)
    (hblack : env.blackholed (env.identityHash ann.pubKey) = false) (ans : AnnounceAnswers)
    (hcrypto : ans.cryptoAllowed) (hremember : ans.rememberIdentity) (iface : Option ℕ) :
    ∃ hdr, env.validated ans data iface = some (hdr, ann) ∧ hdr.destinationHash = dest := by
  obtain ⟨hdr, hhdr, rfl, hfields⟩ := h.fields hsized
  refine ⟨hdr, validated_eq_some.2 ⟨?_, hhdr, ?_, hremember, ?_⟩, rfl⟩
  · simp only [unannounceable, h.flags.announces.2]
    decide
  · exact verifiedAnnounce_eq_ok.2 ⟨hfields, hcrypto, hcovered, hblack, hderived⟩
  · rw [AnnounceEnv.announceHops]
    split_ifs <;> omega

lemma accepted (hsized : ann.Sized) (hcovered : env.Covered dest ann)
    (hderived : env.Derived dest ann) (hhops : (data.getD 1 0).toNat < maxHops)
    (known : Bytes → Option Bytes) (hknown : remembers known dest ann.pubKey) :
    env.acceptAnnounce known data = .ok (dest, ann) := by
  refine acceptAnnounce_eq_ok.2 ⟨?_, hsized.pubKey, hcovered, hderived, hknown⟩
  exact (readAnnounce_iff h.flags.ifac).2 ⟨h.flags.announces.1, hhops, h.fields hsized⟩

end

end Wraps

/-! ## Announces survive -/

def AnnounceIdentity.Signs (env : AnnounceEnv) (id : AnnounceIdentity) : Prop :=
  ∀ message signature, id.sign message = .ok signature →
    signature.length = 64 ∧ env.verify id.pubKey message signature = true

/-- Only what the holder of a key has signed verifies under it. -/
def Unforgeable (env : AnnounceEnv) (signed : Bytes → Bytes → Prop) : Prop :=
  ∀ key message signature, env.verify key message signature = true → signed key message

namespace OutgoingAnnounce

variable {env : AnnounceEnv} {draw : AnnounceDraw} {a : OutgoingAnnounce} {wire : Bytes}

structure ReadBack (sha : Sha256) (draw : AnnounceDraw) (a : OutgoingAnnounce) (dest : Bytes)
    (ann : AnnounceFields) : Prop where
  destinationHash : dest = a.destinationHash
  pubKey : ann.pubKey = a.identity.pubKey
  nameHash : ann.nameHash = announceNameHash sha a.destinationName
  randomHash : ann.randomHash = draw.randomHash
  ratchetData : ann.ratchetData = a.ratchetData
  appData : ann.appData = a.appData

lemma sized_ratchetData (a : OutgoingAnnounce) :
    a.ratchetData.length = 32 ∨ a.ratchetData = [] := by
  rw [ratchetData]
  by_cases h : a.ratchetPub.length = ratchetSize
  · exact .inl (by rw [if_pos h]; exact h)
  · exact .inr (if_neg h)

/-- **What `CreatePacket` writes** carries an announce of the right sizes, which is signed. -/
lemma createPacket_ok (h : a.createPacket env.sha draw = .ok wire)
    (hsigns : a.identity.Signs env) (hlength : a.destinationHash.length = 16) :
    ∃ ann, a.ReadBack env.sha draw a.destinationHash ann ∧ ann.Sized ∧
      env.Covered a.destinationHash ann ∧
      Wraps a.destinationHash ann.payload ann.hasRatchet wire := by
  have htake : a.destinationHash.take 16 = a.destinationHash :=
    take_of_length_le (by omega)
  simp only [createPacket, htake] at h
  cases hsign : a.identity.sign ((a.unsigned env.sha draw).signData a.destinationHash) with
  | error err =>
    rw [hsign] at h
    cases h
  | ok signature =>
    rw [hsign] at h
    simp only [Fallible.ite_error_eq_ok, Except.ok.injEq] at h
    obtain ⟨-, rfl⟩ := h
    obtain ⟨hsig, hverify⟩ := hsigns _ _ hsign
    refine ⟨{ a.unsigned env.sha draw with signature }, ⟨rfl, rfl, rfl, rfl, rfl, rfl⟩,
      ⟨a.identity.length_pubKey, ?_, ?_, ?_, hsig⟩, hverify, ?_⟩
    · simp [unsigned, announceNameHash, nameHashSize, env.sha.length_sum]
    · simp [unsigned, AnnounceDraw.randomHash, draw.length_random]
    · exact a.sized_ratchetData
    · have hflag : (if a.ratchetData = [] then (0 : UInt8) else 1) =
          if { a.unsigned env.sha draw with signature }.hasRatchet then 1 else 0 := by
        by_cases hratchet : a.ratchetData = []
        · simp [hratchet, hasRatchet, unsigned]
        · simp [hratchet, hasRatchet, unsigned]
      rw [hflag]
      simp only [append_assoc]
      exact .wrap _ a.hops _ [] (announceFlags_created _) hlength (by
        cases hasRatchet _ <;> rfl)

end OutgoingAnnounce

lemma notifyHandlers_ok {pathResponse : Bool} (h : ∀ handler ∈ handlers, handler.err = none) :
    notifyHandlers pathResponse handlers = .ok () := by
  induction handlers with
  | nil => rfl
  | cons handler handlers ih =>
    have hrest := ih fun handler hmem => h handler (mem_cons_of_mem _ hmem)
    rw [notifyHandlers, h handler mem_cons_self, hrest]
    simp

/-- What is to hold of a node that receives an announce: it has not blackholed the identity, has the
means to check a signature, knows no other key for the destination, and no handler fails. -/
structure Receptive (env : AnnounceEnv) (ans : AnnounceAnswers) (known : Bytes → Option Bytes)
    (handlers : List HandlerAnswer) (dest pubKey : Bytes) : Prop where
  not_blackholed : env.blackholed (env.identityHash pubKey) = false
  cryptoAllowed : ans.cryptoAllowed = true
  rememberIdentity : ans.rememberIdentity = true
  known : remembers known dest pubKey = true
  handlers : ∀ handler ∈ handlers, handler.err = none

namespace AnnounceEnv

variable {env : AnnounceEnv} {signed : Bytes → Bytes → Prop} {data dest : Bytes}
  {ann : AnnounceFields}

/-- An announce for the destination that its key and the hash of its name give, the whole of which
the holder of the key has signed. -/
def Authentic (env : AnnounceEnv) (signed : Bytes → Bytes → Prop) (dest : Bytes)
    (ann : AnnounceFields) : Prop :=
  env.Derived dest ann ∧ signed ann.pubKey (ann.signData dest)

lemma authentic_of_validated (hunforgeable : Unforgeable env signed) {ans : AnnounceAnswers}
    {iface : Option ℕ} {hdr : AnnounceHeader} (h : env.validated ans data iface = some (hdr, ann)) :
    env.Authentic signed hdr.destinationHash ann := by
  obtain ⟨-, -, hverified, -, -⟩ := validated_eq_some.1 h
  obtain ⟨-, -, hcovered, -, hderived⟩ := verifiedAnnounce_eq_ok.1 hverified
  exact ⟨hderived, hunforgeable _ _ _ hcovered⟩

lemma acceptAnnounce_of_handle {known : Bytes → Option Bytes} {pathResponse : Bool}
    (h : env.handleAnnounce known pathResponse handlers data = .ok (dest, ann)) :
    env.acceptAnnounce known data = .ok (dest, ann) := by
  rw [handleAnnounce] at h
  cases haccept : env.acceptAnnounce known data with
  | error err =>
    rw [haccept] at h
    cases h
  | ok accepted =>
    rw [haccept] at h
    obtain ⟨-, -, rfl⟩ := Fallible.map_eq_ok.1 h
    rfl

lemma authentic_of_handled (hunforgeable : Unforgeable env signed) {known : Bytes → Option Bytes}
    {pathResponse : Bool}
    (h : env.handleAnnounce known pathResponse handlers data = .ok (dest, ann)) :
    env.Authentic signed dest ann := by
  obtain ⟨-, -, hcovered, hderived, -⟩ := acceptAnnounce_eq_ok.1 (acceptAnnounce_of_handle h)
  exact ⟨hderived, hunforgeable _ _ _ hcovered⟩

end AnnounceEnv

/-- **Announces survive.**  An announce that `CreatePacket` has written for the destination of an
identity is accepted by the transport and by `HandleAnnounce` after any relays, as long as its hop
count is below the limit, and both read the fields that were written.  And what either of them
accepts is authentic. -/
theorem announce_survives (env : AnnounceEnv) (signed : Bytes → Bytes → Prop)
    (hunforgeable : Unforgeable env signed) :
    (∀ (a : OutgoingAnnounce) (draw : AnnounceDraw) (wire data : Bytes),
      a.identity.Signs env → a.createPacket env.sha draw = .ok wire →
      a.destinationHash = a.identity.destinationHash env.sha a.destinationName →
      Relation.ReflTransGen Rewrapped wire data → (data.getD 1 0).toNat < maxHops →
      ∀ (ans : AnnounceAnswers) (iface : Option ℕ) (known : Bytes → Option Bytes)
        (pathResponse : Bool) (handlers : List HandlerAnswer),
        Receptive env ans known handlers a.destinationHash a.identity.pubKey →
        ∃ hdr ann, env.validated ans data iface = some (hdr, ann) ∧
          env.handleAnnounce known pathResponse handlers data = .ok (hdr.destinationHash, ann) ∧
          a.ReadBack env.sha draw hdr.destinationHash ann) ∧
    (∀ data ans iface hdr ann, env.validated ans data iface = some (hdr, ann) →
      env.Authentic signed hdr.destinationHash ann) ∧
    ∀ data known pathResponse handlers dest ann,
      env.handleAnnounce known pathResponse handlers data = .ok (dest, ann) →
      env.Authentic signed dest ann := by
  refine ⟨?_, fun data ans iface hdr ann h => authentic_of_validated hunforgeable h,
    fun data known pathResponse handlers dest ann h =>
      authentic_of_handled hunforgeable h⟩
  intro a draw wire data hsigns hcreate hdest hrelayed hhops ans iface known pathResponse handlers
    hnode
  have hlength : a.destinationHash.length = 16 := by
    rw [hdest, AnnounceIdentity.destinationHash, length_take, env.sha.length_sum]
    rfl
  obtain ⟨ann, hread, hsized, hcovered, hwire⟩ :=
    OutgoingAnnounce.createPacket_ok hcreate hsigns hlength
  have hderived : env.Derived a.destinationHash ann := by
    rw [Derived, hread.nameHash, hread.pubKey]
    exact hdest
  have hdata := hwire.relayed hrelayed
  have hblack : env.blackholed (env.identityHash ann.pubKey) = false := by
    rw [hread.pubKey]
    exact hnode.not_blackholed
  have hknown : remembers known a.destinationHash ann.pubKey = true := by
    rw [hread.pubKey]
    exact hnode.known
  obtain ⟨hdr, hvalidated, hhdr⟩ := hdata.validated hsized hcovered hderived hhops hblack ans
    hnode.cryptoAllowed hnode.rememberIdentity iface
  refine ⟨hdr, ann, hvalidated, ?_, hhdr ▸ hread⟩
  rw [handleAnnounce, hdata.accepted hsized hcovered hderived hhops known hknown,
    notifyHandlers_ok hnode.handlers, hhdr]
  rfl

/-! ## What is not signed -/

/-- The first bytes of the application data in the place of the ratchet. -/
def AnnounceFields.moveRatchet (ann : AnnounceFields) : AnnounceFields :=
  { ann with ratchetData := ann.appData.take 32, appData := ann.appData.drop 32 }

/-- **The flag for the ratchet is not signed**: of an announce without one, the application data can
be passed off as a ratchet, in every packet whose flags say so. -/
theorem acceptAnnounce_moveRatchet {env : AnnounceEnv} {known : Bytes → Option Bytes}
    {dest data data' : Bytes} {ann : AnnounceFields}
    (h : env.acceptAnnounce known data = .ok (dest, ann)) (hnone : ann.ratchetData = [])
    (hlong : 32 ≤ ann.appData.length) (hmoved : Wraps dest ann.moveRatchet.payload true data')
    (hhops : (data'.getD 1 0).toNat < maxHops) :
    env.acceptAnnounce known data' = .ok (dest, ann.moveRatchet) := by
  obtain ⟨hread, -, hcovered, hderived, hknown⟩ := acceptAnnounce_eq_ok.1 h
  obtain ⟨hsized, -⟩ := sized_of_fields (readAnnounce_eq_ok.1 hread).2.2.2
  have hratchet : ann.moveRatchet.ratchetData.length = 32 := by
    simp only [moveRatchet, length_take]
    omega
  have hhas : ann.moveRatchet.hasRatchet = true := by
    have hne : ann.moveRatchet.ratchetData ≠ [] := by
      intro hnil
      simp [hnil] at hratchet
    simpa [hasRatchet] using hne
  have hsame : ann.moveRatchet.signData dest = ann.signData dest := by
    simp [signData, moveRatchet, hnone]
  rw [← hhas] at hmoved
  refine hmoved.accepted { hsized with ratchetData := .inl hratchet } ?_ hderived hhops known hknown
  rw [Covered, hsame]
  exact hcovered

/-! ## One hop too many -/

def relayAnnounce (transportID data : Bytes) : Bytes :=
  forwardedAnnounce transportID (rewriteHopsInPlace data (data.getD 1 0 + 1))

lemma rewrapped_relayAnnounce (transportID data : Bytes) (n : ℕ) :
    Relation.ReflTransGen Rewrapped data ((relayAnnounce transportID)^[n] data) := by
  induction n with
  | zero => exact .refl
  | succ n ih =>
    rw [Function.iterate_succ_apply']
    exact ih.tail (.forwarded _ _ _)

namespace Wraps

variable {dest payload data : Bytes} {ratchet : Bool}

section

variable (h : Wraps dest payload ratchet data)
include h

lemma hops_rewriteHops (hops : UInt8) : (rewriteHopsInPlace data hops).getD 1 0 = hops := by
  obtain ⟨flags, _, context, transportID, hflags, hdest, hid⟩ := h
  rfl

lemma hops_forwarded (relay : Bytes) : (forwardedAnnounce relay data).getD 1 0 = data.getD 1 0 := by
  obtain ⟨flags, hops, context, transportID, hflags, hdest, hid⟩ := h
  rw [forwardedAnnounce]
  split_ifs
  · cases hwrapped : rebuildHeaderType2 _ _ relay with
    | error err => rfl
    | ok wrapped =>
      obtain ⟨-, -, rfl⟩ := rebuildHeaderType2_ok hwrapped
      rfl
  · cases hwrapped : insertHeaderType2 _ _ relay with
    | error err => rfl
    | ok wrapped =>
      obtain ⟨-, -, rfl⟩ := insertHeaderType2_ok hwrapped
      rfl
  · rfl

lemma hops_relayed (relay : Bytes) (n : ℕ) :
    ((relayAnnounce relay)^[n] data).getD 1 0 = data.getD 1 0 + .ofNat n := by
  induction n with
  | zero => simp
  | succ n ih =>
    have hn := h.relayed (rewrapped_relayAnnounce relay data n)
    rw [Function.iterate_succ_apply', relayAnnounce, (hn.rewriteHops _).hops_forwarded,
      hn.hops_rewriteHops, ih, add_assoc]
    congr 1
    exact (UInt8.ofNat_add n 1).symm

lemma refused (env : AnnounceEnv)
    (hpayload : 148 ≤ payload.length) (hhops : maxHops ≤ (data.getD 1 0).toNat)
    (ans : AnnounceAnswers) (known : Bytes → Option Bytes) :
    env.validated ans data none = none ∧
      env.acceptAnnounce known data = .error "announce exceeded maximum hop count" := by
  constructor
  · cases hvalidated : env.validated ans data none with
    | none => rfl
    | some r =>
      obtain ⟨-, -, -, -, hlimit⟩ := validated_eq_some.1 hvalidated
      simp only [AnnounceEnv.announceHops, isLocalClientInterface, Option.any_none,
        Bool.false_eq_true, if_false] at hlimit
      omega
  · have hlength := h.length_header
    rw [startIdx_of_clear h.flags.ifac, addrSize, doubleAddrSize, addrHashSize,
      contextByteLen] at hlength
    have hlong : ¬ data.length < minAnnouncePacketSizeNoRatchet := by
      simp only [minAnnouncePacketSizeNoRatchet, headerType1Offset, headerSize, addrHashSize,
        contextByteLen, pubKeySize, pubKeyHalfSize, nameHashSize, randomHashSize, signatureSize]
      split_ifs at hlength <;> omega
    simp only [acceptAnnounce, readAnnounce, if_neg hlong, h.flags.announces.1,
      ne_eq, not_true_eq_false, if_false, if_pos hhops]

end

end Wraps

def beginning (message : Bytes) : Bytes := (message ++ replicate 64 0).take 64

def bareNode : AnnounceEnv where
  sha := .padded
  verify _ message signature := signature = beginning message
  blackholed _ := false
  iface _ := ⟨[], false, .full, 0⟩
  interfaces _ := none
  penalty _ := 0
  handlers := []
  handlers_nodup := nodup_nil
  transportEnabled := true
  maxInMemoryPaths := 0
  rank _ := 0

def onesIdentity : AnnounceIdentity where
  pubKey := replicate 64 1
  sign message := .ok (beginning message)
  length_pubKey := rfl

def onesAnnounce : OutgoingAnnounce where
  identity := onesIdentity
  destinationHash := onesIdentity.destinationHash .padded [97]
  destinationName := [97]
  appData := [104, 105]
  ratchetPub := replicate 32 2
  pathResponse := false
  hops := 0

def onesDraw : AnnounceDraw := ⟨replicate 5 3, 1700000000, rfl⟩

def onesWire : Bytes :=
  [0x21, 0] ++ onesAnnounce.destinationHash ++ [0] ++ replicate 64 1 ++
    announceNameHash .padded [97] ++ onesDraw.randomHash ++ replicate 32 2 ++
    beginning ((onesAnnounce.unsigned .padded onesDraw).signData onesAnnounce.destinationHash) ++
    [104, 105]

def plainFields : AnnounceFields :=
  { onesAnnounce.unsigned .padded onesDraw with
    ratchetData := []
    appData := replicate 32 2 ++ [104, 105]
    signature :=
      beginning ((onesAnnounce.unsigned .padded onesDraw).signData onesAnnounce.destinationHash) }

theorem ratchet_from_appData :
    bareNode.acceptAnnounce (fun _ => none) onesWire =
      .ok (onesAnnounce.destinationHash, plainFields.moveRatchet) :=
  @acceptAnnounce_moveRatchet _ _ _
    ([1, 0] ++ onesAnnounce.destinationHash ++ [0] ++ plainFields.payload) _ _
    (by decide +kernel) rfl (by decide)
    (.wrap 0x21 0 0 [] ⟨by decide, by decide, by decide⟩ rfl rfl) (by decide)

lemma createPacket_ones : onesAnnounce.createPacket bareNode.sha onesDraw = .ok onesWire := by
  decide +kernel

lemma signs_ones : onesAnnounce.identity.Signs bareNode := by
  intro message signature hsign
  obtain rfl := Except.ok.inj hsign
  exact ⟨by simp [beginning], by simp [bareNode]⟩

/-- **The announce that has passed 127 relays is accepted by both, after one more by neither.** -/
theorem relayed_too_far :
    let relayed (n : ℕ) := (relayAnnounce (replicate 16 7))^[n] onesWire
    onesAnnounce.createPacket bareNode.sha onesDraw = .ok onesWire ∧
      onesAnnounce.destinationHash =
        onesAnnounce.identity.destinationHash bareNode.sha onesAnnounce.destinationName ∧
      (∀ n, Relation.ReflTransGen Rewrapped onesWire (relayed n)) ∧
      (∃ hdr ann, bareNode.validated ⟨true, true, true, 0⟩ (relayed 127) none = some (hdr, ann)) ∧
      (∃ dest ann, bareNode.acceptAnnounce (fun _ => none) (relayed 127) = .ok (dest, ann)) ∧
      bareNode.validated ⟨true, true, true, 0⟩ (relayed 128) none = none ∧
      bareNode.acceptAnnounce (fun _ => none) (relayed 128) =
        .error "announce exceeded maximum hop count" := by
  intro relayed
  obtain ⟨ann, hread, hsized, hcovered, hwire⟩ :=
    OutgoingAnnounce.createPacket_ok createPacket_ones signs_ones (by decide)
  have hderived : bareNode.Derived onesAnnounce.destinationHash ann := by
    rw [Derived, hread.nameHash, hread.pubKey]
    rfl
  have hwraps n := hwire.relayed (rewrapped_relayAnnounce (replicate 16 7) onesWire n)
  have hhops n : (relayed n).getD 1 0 = 0 + .ofNat n := hwire.hops_relayed _ n
  have hnear : ((relayed 127).getD 1 0).toNat < maxHops := by
    rw [hhops]
    decide
  have hfar : maxHops ≤ ((relayed 128).getD 1 0).toNat := by
    rw [hhops]
    decide
  have hlong : 148 ≤ ann.payload.length := by
    have hmin := (cut_payload hsized).2
    rw [minPayload] at hmin
    split_ifs at hmin <;> omega
  obtain ⟨hdr, hvalidated, -⟩ := (hwraps 127).validated hsized hcovered hderived hnear rfl
    ⟨true, true, true, 0⟩ rfl rfl none
  have haccepted := (hwraps 127).accepted hsized hcovered hderived hnear (fun _ => none) rfl
  have hrefused := (hwraps 128).refused bareNode hlong hfar ⟨true, true, true, 0⟩ fun _ => none
  exact ⟨createPacket_ones, rfl, rewrapped_relayAnnounce _ _, ⟨hdr, ann, hvalidated⟩,
    ⟨_, ann, haccepted⟩, hrefused.1, hrefused.2⟩

/-- After three relays both accept it. -/
theorem announce_survives_three_relays :
    ∃ hdr ann, bareNode.validated ⟨true, true, true, 0⟩
        ((relayAnnounce (replicate 16 7))^[3] onesWire) none = some (hdr, ann) ∧
      bareNode.handleAnnounce (fun _ => none) false [⟨true, none⟩]
        ((relayAnnounce (replicate 16 7))^[3] onesWire) = .ok (hdr.destinationHash, ann) ∧
      onesAnnounce.ReadBack bareNode.sha onesDraw hdr.destinationHash ann := by
  have hforge : Unforgeable bareNode fun key message =>
      ∃ signature, bareNode.verify key message signature = true :=
    fun _ _ signature h => ⟨signature, h⟩
  exact (announce_survives bareNode _ hforge).1 onesAnnounce onesDraw onesWire _ signs_ones
    createPacket_ones rfl (rewrapped_relayAnnounce _ _ 3) (by decide +kernel)
    ⟨true, true, true, 0⟩ none (fun _ => none) false [⟨true, none⟩] ⟨rfl, rfl, rfl, rfl, by simp⟩

end Reticulum
