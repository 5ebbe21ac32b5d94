import Reticulum.Link.Proof

/-!
# Two checks of one proof

The proof of a link request is checked by the relays on its way (`pkg/transport/lrproof.go`) and by
the initiator at its end (`pkg/link/link_proof.go`).  A relay takes proofs of 96 bytes, without
**signalling**, and of 99 bytes, with signalling; the initiator takes every proof of at least 96
bytes, and expects **three zero bytes** where signalling is missing.  **`checks_agree_iff`** says
when the two agree; `bareProof_relayed_refused` is a proof that is relayed and then refused.
-/

namespace Reticulum

namespace PendingLink

def proofVerifies (env : ProofSurroundings) (l : PendingLink) (proof : LinkProof) : Bool :=
  if proof.TooShort then false
  else
    match l.identity with
    | none => false
    | some pub => env.verify pub (proof.signedData l.linkID l.proofSigPub) proof.signature

/-- **The check is the one of the validation**: where the destination is known, a proof that passes
it is completed, and any other is refused. -/
theorem checkProof_of_identity (env : ProofSurroundings) (attempt : ProofAttempt) (l : PendingLink)
    (proof : LinkProof) (pub : Bytes) (hid : l.identity = some pub) (hcrash : ¬ l.Crashes) :
    l.checkProof env attempt proof =
      if l.proofVerifies env proof then (l.readProof proof).completeProof env attempt
      else if proof.TooShort then (l, .refused "link proof data too short")
      else (l.readProof proof, .refused "link proof signature validation failed") := by
  have hread : (l.readProof proof).identity = some pub := hid
  by_cases hshort : proof.TooShort
  · simp [checkProof, proofVerifies, hshort]
  · simp only [checkProof, proofVerifies, hshort, hcrash, if_false, hread, hid]
    cases hsigned : env.verify pub (proof.signedData l.linkID l.proofSigPub) proof.signature with
    | true =>
      simp only [if_true]
      rw [if_neg]
      simpa [readProof] using hsigned
    | false =>
      simp only [Bool.false_eq_true, if_false]
      rw [if_pos]
      simpa [readProof] using hsigned

end PendingLink

/-! ## One destination, seen from both ends -/

open LinkProof

/-- A relay and the initiator check the same signatures of the same destination, whose public key
has 64 bytes.  A signature is one of a single message. -/
structure SameDestination (relay : Surroundings) (env : ProofSurroundings) (l : PendingLink)
    (destinationHash pub : Bytes) : Prop where
  verify_eq : env.verify = relay.verify
  exact_message : ∀ key m m' signature, relay.verify key m signature = true →
    relay.verify key m' signature = true → m = m'
  recalled : relay.identityRecall destinationHash = some pub
  identity : l.identity = some pub
  length_pub : pub.length = ecPubSize

def ChecksAgree (relay : Surroundings) (env : ProofSurroundings) (l : PendingLink)
    (destinationHash : Bytes) (proof : LinkProof) : Prop :=
  Transport.lrProofVerifies relay l.linkID destinationHash proof.data = true ↔
    l.proofVerifies env proof = true

namespace SameDestination

variable {relay : Surroundings} {env : ProofSurroundings} {l : PendingLink}
variable {destinationHash pub : Bytes} {proof : LinkProof}

section

variable (h : SameDestination relay env l destinationHash pub)
include h

lemma proofSigPub_eq : l.proofSigPub = (pub.drop keySize).take keySize := by
  simp [PendingLink.proofSigPub, PendingLink.destinationSigPub, h.identity, h.length_pub]

lemma proofVerifies_eq (hlen : sigLength + keySize ≤ proof.data.length) :
    l.proofVerifies env proof =
      relay.verify pub (l.linkID ++ proof.peerPub ++ (pub.drop keySize).take keySize ++
        proof.signalling) proof.signature := by
  have hshort : ¬ proof.TooShort := not_lt.2 hlen
  simp [PendingLink.proofVerifies, hshort, h.identity, h.proofSigPub_eq, h.verify_eq, signedData]

lemma lrProofVerifies_eq (hlen : proof.data.length = 96 ∨ proof.data.length = 99) :
    Transport.lrProofVerifies relay l.linkID destinationHash proof.data =
      relay.verify pub (l.linkID ++ proof.peerPub ++ (pub.drop keySize).take keySize ++
        proof.data.drop 96) proof.signature := by
  have hpub : ¬ pub.length < 32 * 2 := by
    rw [h.length_pub]
    decide
  rcases hlen with hlen | hlen
  · have hdrop : proof.data.drop 96 = [] := List.drop_eq_nil_of_le (by omega)
    simp [Transport.lrProofVerifies, Transport.sigLen, Transport.lrProofX25519Size, hlen,
      h.recalled, hpub, hdrop, peerPub, signature, sigLength, keySize]
  · simp [Transport.lrProofVerifies, Transport.sigLen, Transport.lrProofX25519Size,
      Transport.lrProofMTUSize, hlen, h.recalled, hpub, peerPub, signature, sigLength, keySize]

end

lemma lrProofVerifies_of_length (relay : Surroundings) (linkID destinationHash data : Bytes)
    (hbare : data.length ≠ 96) (hfull : data.length ≠ 99) :
    Transport.lrProofVerifies relay linkID destinationHash data = false := by
  simp [Transport.lrProofVerifies, Transport.sigLen, Transport.lrProofX25519Size,
    Transport.lrProofMTUSize, hbare, hfull]

lemma checksAgree_of_signalling (h : SameDestination relay env l destinationHash pub)
    (hlen : proof.data.length = 99) : ChecksAgree relay env l destinationHash proof := by
  have hsignalling : proof.signalling = proof.data.drop 96 := by
    simp [signalling, hasSignalling, sigLength, keySize, linkMTUSize, hlen]
  rw [ChecksAgree, h.lrProofVerifies_eq (.inr hlen), h.proofVerifies_eq, hsignalling]
  simp only [sigLength, keySize]
  omega

lemma checksAgree_of_short (hlen : proof.data.length < 96) :
    ChecksAgree relay env l destinationHash proof := by
  have hshort : proof.TooShort := hlen
  rw [ChecksAgree, lrProofVerifies_of_length _ _ _ _ (by omega) (by omega)]
  simp [PendingLink.proofVerifies, hshort]

end SameDestination

/-! ## A destination that has signed one message -/

def signedOnly (message : Bytes) : Bytes → Bytes → Bytes → Bool := fun _ m _ => decide (m = message)

def relayFor (message : Bytes) : Surroundings where
  sha := .padded
  identityRecall := fun _ => some (.replicate 64 8)
  verify := signedOnly message
  applyPathHopRebalance := fun _ _ _ => false
  validateProofPacket := fun _ _ => false
  handleAnnouncePacket := fun t _ _ => (t, [])
  handleLinkRequest := fun t _ _ => (t, [])
  handleTransportPacket := fun t _ _ => (t, [])

def initiatorFor (message : Bytes) : ProofSurroundings :=
  { PendingLink.toySurroundings with verify := signedOnly message }

lemma sameDestination_signedOnly (message destinationHash : Bytes) :
    SameDestination (relayFor message) (initiatorFor message) .waitingLink
      destinationHash
      (.replicate 64 8) where
  verify_eq := rfl
  exact_message := by
    intro key m m' signature hm hm'
    exact (of_decide_eq_true hm).trans (of_decide_eq_true hm').symm
  recalled := rfl
  identity := rfl
  length_pub := rfl

/-- A proof of any other length that the initiator takes and a relay does not: the destination has
signed what the initiator reads from it. -/
lemma exists_not_checksAgree {n : ℕ} (hlong : 96 ≤ n) (hn : n ≠ 99) :
    ∃ relay env l destinationHash pub, SameDestination relay env l destinationHash pub ∧
      ∃ proof : LinkProof, proof.data.length = n ∧
        ¬ ChecksAgree relay env l destinationHash proof := by
  -- the proof is zeros throughout
  obtain ⟨proof, hproof⟩ : ∃ proof : LinkProof, proof = ⟨0, .replicate n 0, none⟩ := ⟨_, rfl⟩
  have hlen : proof.data.length = n := by simp [hproof]
  obtain ⟨body, hbody⟩ : ∃ body, body = PendingLink.waitingLink.linkID ++ proof.peerPub ++
    ((List.replicate 64 8).drop keySize).take keySize := ⟨_, rfl⟩
  have h := sameDestination_signedOnly (body ++ proof.signalling) []
  refine ⟨_, _, _, _, _, h, proof, hlen, ?_⟩
  have hinitiator : PendingLink.waitingLink.proofVerifies
      (initiatorFor (body ++ proof.signalling)) proof := by
    rw [h.proofVerifies_eq (by rw [hlen]; exact hlong), ← hbody]
    exact decide_eq_true rfl
  have hrelay : Transport.lrProofVerifies (relayFor (body ++ proof.signalling))
      PendingLink.waitingLink.linkID [] proof.data = false := by
    by_cases hbare : n = 96
    · -- a relay checks the message without signalling bytes
      have hdrop : proof.data.drop 96 = [] := List.drop_eq_nil_of_le (by omega)
      have hsignalling : proof.signalling = [0, 0, 0] := by
        simp [signalling, hasSignalling, sigLength, keySize, linkMTUSize, hlen, hbare]
      rw [h.lrProofVerifies_eq (.inl (hlen.trans hbare)), ← hbody, hdrop, hsignalling]
      refine decide_eq_false fun heq => ?_
      simp at heq
    · exact SameDestination.lrProofVerifies_of_length _ _ _ _ (hlen.trans_ne hbare)
        (hlen.trans_ne hn)
  unfold ChecksAgree
  rw [hinitiator, hrelay]
  simp

/-- **A relay and the initiator agree on all proofs of a given length, whatever the keys, exactly if
this is the length of a proof with signalling or too short for a proof.** -/
theorem checks_agree_iff (n : ℕ) :
    (∀ relay env l destinationHash pub, SameDestination relay env l destinationHash pub →
        ∀ proof : LinkProof, proof.data.length = n →
          ChecksAgree relay env l destinationHash proof) ↔
      n = 99 ∨ n < 96 := by
  constructor
  · intro hagree
    by_contra hn
    obtain ⟨hfull, hshort⟩ := not_or.1 hn
    obtain ⟨relay, env, l, destinationHash, pub, h, proof, hlen, hnot⟩ :=
      exists_not_checksAgree (Nat.le_of_not_lt hshort) hfull
    exact hnot (hagree relay env l destinationHash pub h proof hlen)
  · rintro (rfl | hshort) relay env l destinationHash pub h proof hlen
    · exact h.checksAgree_of_signalling hlen
    · exact SameDestination.checksAgree_of_short (hlen.trans_lt hshort)

/-- What the destination signs for `PendingLink.genuineProof`, without signalling bytes. -/
def bareMessage : Bytes := .replicate 16 5 ++ .replicate 32 1 ++ List.replicate 32 8

/-- **A proof without signalling, signed without signalling, is good for every relay, and the
initiator refuses it.** -/
theorem bareProof_relayed_refused :
    SameDestination (relayFor bareMessage) (initiatorFor bareMessage) PendingLink.waitingLink
        (List.replicate 16 7) (List.replicate 64 8) ∧
      PendingLink.genuineProof.data.length = 96 ∧
      Transport.lrProofVerifies (relayFor bareMessage) PendingLink.waitingLink.linkID
        (List.replicate 16 7) PendingLink.genuineProof.data = true ∧
      (PendingLink.waitingLink.validateLinkProofLocked (initiatorFor bareMessage)
        PendingLink.quietAttempt PendingLink.genuineProof).2 =
          .refused "link proof signature validation failed" ∧
      ¬ ChecksAgree (relayFor bareMessage) (initiatorFor bareMessage) PendingLink.waitingLink
        (List.replicate 16 7) PendingLink.genuineProof := by
  refine ⟨sameDestination_signedOnly _ _, by decide, by decide, by decide, ?_⟩
  unfold ChecksAgree
  decide

end Reticulum
