import Reticulum.Packet.Def

/-!
# The tags of path requests

A path request is handled once: `handlePathRequest` keeps a key of 32 bytes for each request it has
seen, made of the destination and the tag (`pkg/transport/transport.go`).  A tag has one to sixteen
bytes, and the key is filled up with zeros behind it.  Hence the keys do not tell a tag from the
same tag with zeros at its end, and they tell all others apart (`tagKeys_faithful_iff`).
-/

namespace Reticulum

open List Packet.Constants

structure PathRequest where
  destHash : Bytes
  requestorTransportID : Option Bytes
  tag : Bytes
deriving DecidableEq

def parsePathRequestWire (data : Bytes) : Option PathRequest :=
  if data.length < truncatedHashLength then none
  else if data.length > truncatedHashLength * 2 then
    some {
      destHash := data.take truncatedHashLength
      requestorTransportID := some ((data.drop truncatedHashLength).take truncatedHashLength)
      tag := (data.drop (truncatedHashLength * 2)).take truncatedHashLength }
  else if data.length > truncatedHashLength then
    some {
      destHash := data.take truncatedHashLength
      requestorTransportID := none
      tag := (data.drop truncatedHashLength).take truncatedHashLength }
  else none

def discoveryPRTagKey (destHash tag : Bytes) : Bytes :=
  (destHash ++ tag ++ replicate 32 0).take 32

def PathRequest.tagKey (r : PathRequest) : Bytes := discoveryPRTagKey r.destHash r.tag

/-- One of the tags is the other one with zeros at its end. -/
def PaddedAlike (s t : Bytes) : Prop :=
  ∃ n, t = s ++ replicate n 0 ∨ s = t ++ replicate n 0

lemma lengths_of_parse {data : Bytes} {r : PathRequest} (h : parsePathRequestWire data = some r) :
    r.destHash.length = 16 ∧ r.tag.length ≤ 16 := by
  unfold parsePathRequestWire at h
  split_ifs at h with hshort
  all_goals
    cases h
    simp only [truncatedHashLength, length_take] at hshort ⊢
    omega

lemma tagKey_eq {r : PathRequest} (hd : r.destHash.length = 16) (ht : r.tag.length ≤ 16) :
    r.tagKey = r.destHash ++ (r.tag ++ replicate (16 - r.tag.length) 0) := by
  rw [PathRequest.tagKey, discoveryPRTagKey, append_assoc, take_append,
    take_of_length_le (by omega),
    hd, take_append, take_of_length_le ht, take_replicate, min_eq_left (by omega)]

lemma PaddedAlike.symm {s t : Bytes} (h : PaddedAlike s t) : PaddedAlike t s := by
  obtain ⟨n, h⟩ := h
  exact ⟨n, h.symm⟩

lemma PaddedAlike.of_padded_eq {s t : Bytes} {n : ℕ} (hs : s.length ≤ n) (ht : t.length ≤ n)
    (h : s ++ replicate (n - s.length) 0 = t ++ replicate (n - t.length) 0) : PaddedAlike s t := by
  wlog hle : s.length ≤ t.length
  · exact (this ht hs h.symm (by omega)).symm
  refine ⟨t.length - s.length, .inl ?_⟩
  have hcut := congrArg (take t.length) h
  rwa [take_append, take_of_length_le hle, take_replicate, take_left, min_eq_left (by omega),
    eq_comm] at hcut

lemma PaddedAlike.padded_eq {s t : Bytes} {n : ℕ} (hs : s.length ≤ n) (ht : t.length ≤ n)
    (h : PaddedAlike s t) : s ++ replicate (n - s.length) 0 = t ++ replicate (n - t.length) 0 := by
  obtain ⟨k, rfl | rfl⟩ := h
  · rw [length_append, length_replicate] at ht ⊢
    rw [append_assoc, replicate_append_replicate]
    congr 2
    omega
  · rw [length_append, length_replicate] at hs ⊢
    rw [append_assoc, replicate_append_replicate]
    congr 2
    omega

/-- **When the keys are faithful**, for two requests that are accepted: exactly if the tags, where
the destination is the same, do not differ by zeros at their end alone. -/
theorem tagKeys_faithful_iff {data data' : Bytes} {r r' : PathRequest}
    (h : parsePathRequestWire data = some r) (h' : parsePathRequestWire data' = some r') :
    (r.tagKey = r'.tagKey ↔ r.destHash = r'.destHash ∧ r.tag = r'.tag) ↔
      (r.destHash = r'.destHash → PaddedAlike r.tag r'.tag → r.tag = r'.tag) := by
  obtain ⟨hd, ht⟩ := lengths_of_parse h
  obtain ⟨hd', ht'⟩ := lengths_of_parse h'
  rw [tagKey_eq hd ht, tagKey_eq hd' ht']
  constructor
  · intro hiff hdest halike
    exact (hiff.1 (by rw [hdest, halike.padded_eq ht ht'])).2
  · intro hpad
    constructor
    · intro heq
      obtain ⟨hdest, htag⟩ := append_inj heq (by rw [hd, hd'])
      exact ⟨hdest, hpad hdest (.of_padded_eq ht ht' htag)⟩
    · rintro ⟨hdest, htag⟩
      rw [hdest, htag]

theorem tagKeys_faithful_two : ((PathRequest.mk (replicate 16 7) none [1, 2]).tagKey =
      (PathRequest.mk (replicate 16 7) none [1, 3]).tagKey ↔
      (replicate 16 7 : Bytes) = replicate 16 7 ∧ ([1, 2] : Bytes) = [1, 3]) := by
  apply (@tagKeys_faithful_iff (replicate 16 7 ++ [1, 2]) (replicate 16 7 ++ [1, 3]) _ _
    (by decide) (by decide)).2
  rintro - ⟨n, h | h⟩ <;> simp at h

/-- A tag of one byte, and the same with a zero behind it. -/
theorem tagKey_collision :
    parsePathRequestWire (replicate 16 7 ++ [1]) = some ⟨replicate 16 7, none, [1]⟩ ∧
    parsePathRequestWire (replicate 16 7 ++ [1, 0]) = some ⟨replicate 16 7, none, [1, 0]⟩ ∧
    (PathRequest.mk (replicate 16 7) none [1]).tagKey =
      (PathRequest.mk (replicate 16 7) none [1, 0]).tagKey := by
  decide

end Reticulum
