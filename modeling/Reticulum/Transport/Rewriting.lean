import Reticulum.Core.Fallible
import Reticulum.Packet.Pack
import Reticulum.Transport.Forwarding

/-!
# What relays rewrite

Every node that carries a packet rewrites its header: the hop count always, and the flags and the
transport identity when a header of type 2 is **inserted** at the source, **rebuilt** at a relay or
**stripped** at the last one (`pkg/transport/relay.go`).  The packet hash and the link identifier
stay (**`hash_linkID_invariant`**), but not if the bit of the header type is changed alone
(`headerBit_changes_hash`).

`insertHeaderType2` keeps the context flag and `stripHeaderType2` does not:
**`relayed_transparent_iff`** is about the journey as a whole.
-/

namespace Reticulum

open Packet.Constants Packet List

/-! ## The bytes that are hashed -/

def headerTypeOf (raw : Bytes) : HeaderType := .ofFlags (raw.getD 0 0)

def hashOffset : HeaderType → ℕ
  | .headerType1 => 2
  | .headerType2 => truncatedHashLength + 2

def hashableOf (raw : Bytes) : Bytes :=
  (raw.getD 0 0 &&& hashableFlagsMask) :: raw.drop (hashOffset (headerTypeOf raw))

/-- The bytes of a link request up to its two keys that count for the link identifier: the flags,
the destination, the context and the keys. -/
def linkIDLength : ℕ := truncatedHashLength + 1 + linkRequestECPubSize + 1

section

variable {raw raw' : Bytes} {p : Packet}

lemma hashable_of_unpack (h : unpack raw = .ok p) :
    p.raw = raw ∧ p.hashable = hashableOf raw ∧
      p.hashable.length = 1 + (truncatedHashLength + 1) + p.data.length := by
  simp only [unpack] at h
  iterate 3
    split at h
    · cases h
  split at h
  all_goals
    rename_i htype
    split at h
    · cases h
    rename_i hlen
    obtain rfl := Except.ok.inj h
    simp only [truncatedHashLength, minPacketSize] at hlen
    refine ⟨rfl, ?_, ?_⟩
    · simp only [hashable, hashableOf, headerTypeOf, htype, hashOffset]
    · simp only [hashable, truncatedHashLength, length_cons, length_drop]
      omega

/-- **The link identifier is taken over the hashed bytes up to the keys.** -/
lemma linkIDFromLinkRequest_eq (sha : Sha256) (h : unpack raw = .ok p) :
    p.linkIDFromLinkRequest sha =
      (sha.sum ((hashableOf raw).take linkIDLength)).take truncatedHashLength := by
  obtain ⟨hraw, hhash, hlen⟩ := hashable_of_unpack h
  have hne : p.raw ≠ [] := by
    intro hnil
    have hlong := (unpack_ok h).2.length_raw
    simp [hnil, minPacketSize] at hlong
  simp only [linkIDFromLinkRequest, if_neg hne, ← hhash]
  simp only [truncatedHashLength] at hlen
  congr 2
  split
  · rename_i hlong
    congr 1
    simp only [linkIDLength, truncatedHashLength] at hlong ⊢
    omega
  · rename_i hshort
    rw [take_of_length_le]
    simp only [linkIDLength, truncatedHashLength] at hshort ⊢
    omega

end

/-! ## Rewritings -/

/-- The bits of the flags that no relay changes by themselves: the header type, the kind of the
destination and the type of the packet. -/
def keptFlags : UInt8 := headerMaskHeaderType ||| hashableFlagsMask

inductive Rewrite : Bytes → Bytes → Prop where
  | hops (raw : Bytes) (hops : UInt8) : Rewrite raw (rewriteHopsOnly raw hops)
  /-- the bits 4, 5 and 7 of the flags -/
  | flags (raw : Bytes) (flags : UInt8) (h : flags &&& keptFlags = raw.getD 0 0 &&& keptFlags) :
      Rewrite raw (raw.set 0 flags)
  | insert {raw out : Bytes} (hops : UInt8) (nextHop : Bytes)
      (htype : headerTypeOf raw = .headerType1)
      (h : insertHeaderType2 raw hops nextHop = .ok out) : Rewrite raw out
  | rebuild {raw out : Bytes} (hops : UInt8) (nextHop : Bytes)
      (htype : headerTypeOf raw = .headerType2)
      (h : rebuildHeaderType2 raw hops nextHop = .ok out) : Rewrite raw out
  | strip {raw out : Bytes} (hops : UInt8) (htype : headerTypeOf raw = .headerType2)
      (h : stripHeaderType2 raw hops = .ok out) : Rewrite raw out

def headerLength (raw : Bytes) : ℕ := hashOffset (headerTypeOf raw) + (truncatedHashLength + 1)

/-- One rewriting of a link request, which may also end otherwise behind its keys. -/
inductive RewriteRequest : Bytes → Bytes → Prop where
  | rewrite {raw raw' : Bytes} (h : Rewrite raw raw') : RewriteRequest raw raw'
  | trailing (raw tail : Bytes) (h : headerLength raw + linkRequestECPubSize ≤ raw.length) :
      RewriteRequest raw (raw.take (headerLength raw + linkRequestECPubSize) ++ tail)

/-! ### What the helpers return -/

section

variable {raw out nextHop : Bytes} {hops : UInt8}

/-- The flags that `insertHeaderType2` writes. -/
abbrev insertedFlags (flags : UInt8) : UInt8 :=
  headerMaskHeaderType ||| headerMaskTransportType ||| (flags &&& (headerMaskContextFlag ||| 0x0F))

lemma insertHeaderType2_ok (h : insertHeaderType2 raw hops nextHop = .ok out) :
    2 ≤ raw.length ∧ nextHop.length = truncatedHashLength ∧
      out = insertedFlags (raw.getD 0 0) :: hops :: nextHop ++ raw.drop 2 := by
  simp only [insertHeaderType2, Fallible.ite_error_eq_ok] at h
  obtain ⟨hlen, hhop, heq⟩ := h
  exact ⟨Nat.le_of_not_lt hlen, not_not.1 hhop, (Except.ok.inj heq).symm⟩

lemma rebuildHeaderType2_ok (h : rebuildHeaderType2 raw hops nextHop = .ok out) :
    truncatedHashLength + 2 ≤ raw.length ∧ nextHop.length = truncatedHashLength ∧
      out = raw.getD 0 0 :: hops :: nextHop ++ raw.drop (truncatedHashLength + 2) := by
  simp only [rebuildHeaderType2, Fallible.ite_error_eq_ok] at h
  obtain ⟨hlen, hhop, heq⟩ := h
  exact ⟨Nat.le_of_not_lt hlen, not_not.1 hhop, (Except.ok.inj heq).symm⟩

lemma stripHeaderType2_ok (h : stripHeaderType2 raw hops = .ok out) :
    truncatedHashLength + 2 ≤ raw.length ∧
      out = (raw.getD 0 0 &&& 0x0F) :: hops :: raw.drop (truncatedHashLength + 2) := by
  simp only [stripHeaderType2, Fallible.ite_error_eq_ok] at h
  exact ⟨Nat.le_of_not_lt h.1, (Except.ok.inj h.2).symm⟩

end

/-! ### The flags -/

lemma insertedFlags_covers (flags : UInt8) :
    HeaderType.ofFlags (insertedFlags flags) = .headerType2 ∧
      insertedFlags flags &&& hashableFlagsMask = flags &&& hashableFlagsMask := by
  revert flags
  apply forall_byte
  decide +kernel

lemma strippedFlags (flags : UInt8) :
    HeaderType.ofFlags (flags &&& 0x0F) = .headerType1 ∧
      (flags &&& 0x0F) &&& hashableFlagsMask = flags &&& hashableFlagsMask := by
  revert flags
  apply forall_byte
  decide +kernel

lemma keptFlags_covers (flags : UInt8) :
    .ofFlags (flags &&& keptFlags) = HeaderType.ofFlags flags ∧
      (flags &&& keptFlags) &&& hashableFlagsMask = flags &&& hashableFlagsMask := by
  revert flags
  apply forall_byte
  decide +kernel

lemma ofFlags_eq_of_kept {flags flags' : UInt8} (h : flags &&& keptFlags = flags' &&& keptFlags) :
    .ofFlags flags = HeaderType.ofFlags flags' ∧
      flags &&& hashableFlagsMask = flags' &&& hashableFlagsMask := by
  obtain ⟨htype, hmask⟩ := keptFlags_covers flags
  obtain ⟨htype', hmask'⟩ := keptFlags_covers flags'
  exact ⟨by rw [← htype, h, htype'], by rw [← hmask, h, hmask']⟩

/-! ## The hashed bytes stay -/

section

variable {raw raw' : Bytes}

lemma hashableOf_cons (flags hops : UInt8) (rest : Bytes) :
    hashableOf (flags :: hops :: rest) =
      (flags &&& hashableFlagsMask) :: rest.drop (hashOffset (.ofFlags flags) - 2) := by
  unfold hashableOf headerTypeOf
  simp only [getD_cons_zero]
  cases HeaderType.ofFlags flags with
  | headerType1 => rfl
  | headerType2 => rfl

lemma hashableOf_rewriteHopsOnly (raw : Bytes) (hops : UInt8) :
    hashableOf (rewriteHopsOnly raw hops) = hashableOf raw := by
  unfold rewriteHopsOnly
  split
  · rfl
  · rename_i hlen
    rw [eq_cons_cons_drop (Nat.le_of_not_lt hlen), set_cons_succ, set_cons_zero,
      hashableOf_cons, hashableOf_cons]

lemma hashableOf_set_flags {flags : UInt8} (h : flags &&& keptFlags = raw.getD 0 0 &&& keptFlags) :
    hashableOf (raw.set 0 flags) = hashableOf raw := by
  cases raw with
  | nil => rfl
  | cons b rest =>
    obtain ⟨htype, hmask⟩ := ofFlags_eq_of_kept h
    have hoffset : ∀ t, ∃ n, hashOffset t = n + 1 := by
      intro t
      cases t
      · exact ⟨1, rfl⟩
      · exact ⟨17, rfl⟩
    obtain ⟨n, hn⟩ := hoffset (.ofFlags b)
    simp only [set_cons_zero, hashableOf, headerTypeOf, getD_cons_zero, htype, hmask,
      hn, drop_succ_cons]

/-- **A rewriting leaves the hashed bytes alone.** -/
lemma Rewrite.hashableOf_eq (h : Rewrite raw raw') : hashableOf raw' = hashableOf raw := by
  cases h with
  | hops => exact hashableOf_rewriteHopsOnly raw _
  | flags flags h => exact hashableOf_set_flags h
  | insert hops nextHop htype h =>
    obtain ⟨hlen, hhop, rfl⟩ := insertHeaderType2_ok h
    obtain ⟨htype', hmask⟩ := insertedFlags_covers (raw.getD 0 0)
    rw [cons_append, cons_append, hashableOf_cons, htype', hmask]
    simp only [hashableOf, htype, hashOffset]
    rw [Nat.add_sub_cancel, drop_left' hhop]
  | rebuild hops nextHop htype h =>
    obtain ⟨hlen, hhop, rfl⟩ := rebuildHeaderType2_ok h
    rw [cons_append, cons_append, hashableOf_cons]
    simp only [headerTypeOf] at htype
    simp only [hashableOf, headerTypeOf, htype, hashOffset]
    rw [Nat.add_sub_cancel, drop_left' hhop]
  | strip hops htype h =>
    obtain ⟨hlen, rfl⟩ := stripHeaderType2_ok h
    obtain ⟨htype', hmask⟩ := strippedFlags (raw.getD 0 0)
    rw [hashableOf_cons, htype', hmask]
    simp only [hashableOf, htype]
    rfl

lemma take_hashableOf_trailing (tail : Bytes)
    (h : headerLength raw + linkRequestECPubSize ≤ raw.length) :
    (hashableOf (raw.take (headerLength raw + linkRequestECPubSize) ++ tail)).take linkIDLength =
      (hashableOf raw).take linkIDLength := by
  have hoffset : 0 < headerLength raw := by
    simp only [headerLength]
    omega
  have hflags : (raw.take (headerLength raw + linkRequestECPubSize) ++ tail).getD 0 0 =
      raw.getD 0 0 := by
    simp only [getD_eq_getElem?_getD]
    rw [getElem?_append_left (by rw [length_take]; omega),
      getElem?_take_of_lt (by omega)]
  simp only [hashableOf, headerTypeOf, hflags, linkIDLength, take_succ_cons]
  congr 1
  -- both sides are the bytes between the offset and the end of the keys
  simp only [headerLength, headerTypeOf] at h ⊢
  rw [drop_append_of_le_length (by rw [length_take]; omega), drop_take,
    take_append_of_le_length (by simp only [length_take, length_drop]; omega),
    take_take]
  congr 1
  omega

lemma RewriteRequest.take_hashableOf_eq (h : RewriteRequest raw raw') :
    (hashableOf raw').take linkIDLength = (hashableOf raw).take linkIDLength := by
  cases h with
  | rewrite h => rw [h.hashableOf_eq]
  | trailing tail h => exact take_hashableOf_trailing tail h

end

/-- **Packet hash and link identifier are what relays do not change.**  However often a packet is
rewritten on its way, its hash is the one it had; and however often a link request is rewritten and
given another end behind its keys, it asks for the same link. -/
theorem hash_linkID_invariant (sha : Sha256) (raw raw' : Bytes) (p p' : Packet)
    (hp : unpack raw = .ok p) (hp' : unpack raw' = .ok p') :
    (Relation.ReflTransGen Rewrite raw raw' → p'.getHash sha = p.getHash sha) ∧
      (Relation.ReflTransGen RewriteRequest raw raw' →
        p'.linkIDFromLinkRequest sha = p.linkIDFromLinkRequest sha) := by
  constructor
  · intro h
    have hsame : hashableOf raw' = hashableOf raw := by
      clear hp'
      induction h with
      | refl => rfl
      | tail _ hstep ih => rw [hstep.hashableOf_eq, ih]
    unfold getHash
    rw [(hashable_of_unpack hp).2.1, (hashable_of_unpack hp').2.1, hsame]
  · intro h
    have hsame : (hashableOf raw').take linkIDLength = (hashableOf raw).take linkIDLength := by
      clear hp'
      induction h with
      | refl => rfl
      | tail _ hstep ih => rw [hstep.take_hashableOf_eq, ih]
    rw [linkIDFromLinkRequest_eq sha hp, linkIDFromLinkRequest_eq sha hp', hsame]

/-! ### A link request on its way -/

def requestFrame : Bytes :=
  [0x02, 0] ++ replicate 16 9 ++ [0] ++ replicate 64 5 ++ [0x20, 1, 0xF4]

/-- The request after a relay has inserted a header for `1…1`, a second one has named `2…2`, the
last one has stripped the header again, and its signalling bytes are gone. -/
def strippedFrame : Bytes := [0x02, 3] ++ replicate 16 9 ++ [0] ++ replicate 64 5

theorem strippedFrame_same_link :
    ∃ p p', unpack requestFrame = .ok p ∧ unpack strippedFrame = .ok p' ∧
      p'.linkIDFromLinkRequest Sha256.padded = p.linkIDFromLinkRequest Sha256.padded := by
  refine ⟨_, _, rfl, rfl, (hash_linkID_invariant _ requestFrame strippedFrame _ _ rfl rfl).2 ?_⟩
  have hinsert := @Rewrite.insert requestFrame _ 1 (replicate 16 1) rfl rfl
  have hrebuild := @Rewrite.rebuild _ _ 2 (replicate 16 2) rfl (.refl
    (rebuildHeaderType2 ([0x52, 1] ++ replicate 16 1 ++ requestFrame.drop 2) 2 _))
  have hstrip := @Rewrite.strip _ _ 3 rfl (refl
    (stripHeaderType2 ([0x52, 2] ++ replicate 16 2 ++ requestFrame.drop 2) 3))
  have htrailing := RewriteRequest.trailing (requestFrame.set 1 3) [] (by decide)
  exact (((Relation.ReflTransGen.single (.rewrite hinsert)).tail (.rewrite hrebuild)).tail
    (.rewrite hstrip)).tail htrailing

/-- **The header type alone is no rewriting.**  A packet whose header type is changed in the flags,
and nothing else, is another packet. -/
theorem headerBit_changes_hash :
    ∃ p p', unpack requestFrame = .ok p ∧
      unpack (requestFrame.set 0 (0x02 ||| headerMaskHeaderType)) = .ok p' ∧
      p'.hashable ≠ p.hashable ∧ p'.getHash Sha256.padded ≠ p.getHash Sha256.padded ∧
      p'.linkIDFromLinkRequest Sha256.padded ≠ p.linkIDFromLinkRequest Sha256.padded :=
  ⟨_, _, rfl, rfl, by decide, by decide, by decide⟩

/-! ## The whole journey -/

structure RelayHop where
  hops : UInt8
  nextHop : Bytes
  length_nextHop : nextHop.length = truncatedHashLength

/-- The journey of a packet with a header of type 1: the source inserts a header for the first
relay, every relay but the last names the next one, and the last one strips the header. -/
def relayed (raw : Bytes) (source : RelayHop) (relays : List RelayHop) (hops : UInt8) :
    Except String Bytes := do
  let wrapped ← insertHeaderType2 raw source.hops source.nextHop
  let last ←
    relays.foldlM (fun raw relay => rebuildHeaderType2 raw relay.hops relay.nextHop) wrapped
  stripHeaderType2 last hops

def framed (flags : UInt8) (hop : RelayHop) (rest : Bytes) : Bytes :=
  flags :: hop.hops :: hop.nextHop ++ rest

section

variable (flags : UInt8) (rest : Bytes)

lemma drop_framed (hop : RelayHop) :
    (framed flags hop rest).drop (truncatedHashLength + 2) = rest := by
  simp only [framed, cons_append]
  exact drop_left' hop.length_nextHop

lemma length_framed (hop : RelayHop) :
    (framed flags hop rest).length = truncatedHashLength + 2 + rest.length := by
  simp only [framed, cons_append, length_cons, length_append, hop.length_nextHop]
  omega

lemma rebuildHeaderType2_framed (hop hop' : RelayHop) :
    rebuildHeaderType2 (framed flags hop rest) hop'.hops hop'.nextHop =
      .ok (framed flags hop' rest) := by
  unfold rebuildHeaderType2
  rw [if_neg (by rw [length_framed]; omega), if_neg (not_not.2 hop'.length_nextHop), drop_framed]
  rfl

lemma foldlM_rebuild_framed (relays : List RelayHop) : ∀ hop : RelayHop, ∃ hop' : RelayHop,
    relays.foldlM (fun raw relay => rebuildHeaderType2 raw relay.hops relay.nextHop)
      (framed flags hop rest) = .ok (framed flags hop' rest) := by
  induction relays with
  | nil =>
    intro hop
    exact ⟨hop, rfl⟩
  | cons relay relays ih =>
    intro hop
    rw [foldlM_cons, rebuildHeaderType2_framed]
    exact ih relay

lemma stripHeaderType2_framed (hop : RelayHop) (hops : UInt8) :
    stripHeaderType2 (framed flags hop rest) hops = .ok ((flags &&& 0x0F) :: hops :: rest) := by
  unfold stripHeaderType2
  rw [if_neg (by rw [length_framed]; omega), drop_framed]
  rfl

end

/-- **What arrives at the end of the journey**: of the flags only the lower half. -/
lemma relayed_eq (flags hops₀ : UInt8) (rest : Bytes) (source : RelayHop) (relays : List RelayHop)
    (hops : UInt8) :
    relayed (flags :: hops₀ :: rest) source relays hops =
      .ok ((flags &&& 0x0F) :: hops :: rest) := by
  have hinsert : insertHeaderType2 (flags :: hops₀ :: rest) source.hops source.nextHop =
      .ok (framed (insertedFlags flags) source rest) := by
    unfold insertHeaderType2
    rw [if_neg (not_not.2 source.length_nextHop)]
    rfl
  obtain ⟨hop, hfold⟩ := foldlM_rebuild_framed (insertedFlags flags) rest relays source
  unfold relayed
  rw [hinsert]
  change (relays.foldlM _ (framed _ source rest) >>= fun last => stripHeaderType2 last hops) = _
  rw [hfold]
  change stripHeaderType2 (framed _ hop rest) hops = _
  rw [stripHeaderType2_framed]
  -- the lower half went through the insertion unchanged
  exact congrArg (fun b => Except.ok (b :: hops :: rest)) (insertedFlags_covers flags).2

/-! ### The flags of a source -/

lemma contextFlag_shift (b : UInt8) :
    (b <<< 5) &&& headerMaskContextFlag = if b &&& 1 = 0 then 0 else headerMaskContextFlag := by
  revert b
  apply forall_byte
  decide +kernel

lemma transportType_shift (b : UInt8) :
    (b <<< 4) &&& headerMaskTransportType = if b &&& 1 = 0 then 0 else headerMaskTransportType := by
  revert b
  apply forall_byte
  decide +kernel

/-- The upper half of the flags of a packet with a header of type 1: the context flag and the
transport type. -/
lemma headerFlags_lower_iff {p : Packet} (hh : p.headerType = .headerType1) :
    p.headerFlags &&& 0x0F = p.headerFlags ↔
      p.contextFlag &&& 1 = 0 ∧ p.transportType &&& 1 = 0 := by
  unfold headerFlags
  rw [hh, contextFlag_shift, transportType_shift]
  by_cases hc : p.contextFlag &&& 1 = 0 <;> by_cases ht : p.transportType &&& 1 = 0 <;>
    simp only [hc, ht, if_true, and_true] <;>
    cases p.destinationType <;> cases p.packetType <;> decide

lemma wire_headerType1 {p : Packet} (hh : p.headerType = .headerType1) :
    p.wire = p.headerFlags :: p.hops :: (p.destinationHash ++ [p.context] ++ p.data) := by
  simp [wire, wireTransportID, hh]

/-- **A packet with a header of type 1 comes out of any chain of relays as it went in, apart from
the hop count, exactly if it has neither the context flag nor the transport type set.** -/
theorem relayed_transparent_iff (p q : Packet) (hh : p.headerType = .headerType1)
    (hpack : p.pack false = .ok q) (source : RelayHop) (relays : List RelayHop) (hops : UInt8) :
    relayed q.raw source relays hops = .ok (q.raw.set 1 hops) ↔
      p.contextFlag &&& 1 = 0 ∧ p.transportType &&& 1 = 0 := by
  obtain ⟨-, rfl⟩ := pack_ok hpack
  simp only [wire_headerType1 hh, relayed_eq, set_cons_succ, set_cons_zero]
  rw [← headerFlags_lower_iff hh]
  constructor
  · intro h
    exact (cons.inj (Except.ok.inj h)).1
  · intro h
    rw [h]

def sourcePacket (contextFlag : UInt8) : Packet :=
  { headerType := .headerType1, packetType := .data, transportType := 0, context := 0, contextFlag
    hops := 0, destinationType := .single, transportID := [], destinationHash := replicate 16 9
    data := [42], raw := [] }

def hopTo (id : UInt8) (hops : UInt8) : RelayHop := ⟨hops, replicate 16 id, rfl⟩

/-- A packet without the flag goes over three relays. -/
theorem plainPacket_transparent :
    ∃ q, (sourcePacket 0).pack false = .ok q ∧
      relayed q.raw (hopTo 1 0) [hopTo 2 1, hopTo 3 2] 3 = .ok (q.raw.set 1 3) :=
  ⟨_, rfl, (relayed_transparent_iff (sourcePacket 0) _ rfl rfl (hopTo 1 0) [hopTo 2 1, hopTo 3 2]
    3).2 (by decide)⟩

/-- **A packet with the context flag arrives without it**, after one relay. -/
theorem contextFlag_lost :
    ∃ q out, (sourcePacket 1).pack false = .ok q ∧ relayed q.raw (hopTo 1 0) [] 1 = .ok out ∧
      q.raw.getD 0 0 = 0x20 ∧ out.getD 0 0 = 0 ∧
      relayed q.raw (hopTo 1 0) [] 1 ≠ .ok (q.raw.set 1 1) :=
  ⟨_, _, rfl, rfl, by decide, by decide, by decide⟩

end Reticulum
