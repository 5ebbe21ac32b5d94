import Reticulum.Core.Table
import Reticulum.Packet.Receipt

/-!
# The index of receipts

A node keeps the receipts of the packets it has sent in a list, and beside it an **index** by packet
hash (`receipts` and `receiptsByHash` in `pkg/transport/transport.go`).  The index is **exact** if
it has a receipt under a hash exactly when the receipt is in the list and has this hash.  Four
functions change the two, and not one of them keeps the index exact by itself:
**`index_exact_iff`**.  `cleanupExpiredReceipts` does only when it has nothing to do.
-/

namespace Reticulum

open Packet List

/-! ## The node -/

namespace Packet.Receipt

def isTimedOut (pr : Receipt) (now : ℤ) : Bool := pr.timeout < now - pr.sentAt

/-- The clean-up keeps a receipt that has not timed out and has neither failed nor been culled. -/
def outstanding (pr : Receipt) (now : ℤ) : Bool :=
  !pr.isTimedOut now && (pr.status == .sent || pr.status == .delivered)

end Packet.Receipt

/-- The receipts of a node.  A receipt is known by its address, what is there is in `heap`, and
`links` has the link a receipt belongs to, if there is one. -/
structure ReceiptTable where
  heap : ℕ → Receipt
  links : ℕ → Option ℕ
  receipts : List ℕ
  receiptsByHash : Map Bytes ℕ

namespace ReceiptTable

section

variable (s : ReceiptTable)

def hash (r : ℕ) : Bytes := (s.heap r).hash

def registerReceipt (r : ℕ) : ReceiptTable :=
  { s with
    receipts := s.receipts ++ [r]
    receiptsByHash := if (s.hash r).length = Receipt.hashLength then
      s.receiptsByHash.insert (s.hash r) r else s.receiptsByHash }

def unregisterReceipt (r : ℕ) : ReceiptTable :=
  { s with
    receipts := s.receipts.erase r
    receiptsByHash := if (s.hash r).length = Receipt.hashLength then
      s.receiptsByHash.erase (s.hash r) else s.receiptsByHash }

/-- Whether the proof is valid for the receipt.  A link comes with the packet or with the
receipt. -/
def validateProofPacket (env : Verifiers) (s : ReceiptTable) (pkt : Packet) (link : Option ℕ)
    (r : ℕ) : Bool :=
  match link with
  | some link => (s.heap r).validateLinkProof env pkt.data link
  | none =>
    match s.links r with
    | some link => (s.heap r).validateLinkProof env pkt.data link
    | none => (s.heap r).validateProof env pkt.data

/-- The receipt that a proof concludes: an explicit proof is looked up in the index, any other is
tried on the receipts of the list. -/
def settledBy (env : Verifiers) (s : ReceiptTable) (pkt : Packet) (link : Option ℕ) : Option ℕ :=
  if pkt.data.length = Receipt.explicitLength then
    (s.receiptsByHash.lookup (pkt.data.take Receipt.hashLength)).filter
      (s.validateProofPacket env pkt link)
  else s.receipts.find? (s.validateProofPacket env pkt link)

def concludeReceipt (r : ℕ) (pkt : Packet) (now : ℤ) : ReceiptTable :=
  { s with heap := Function.update s.heap r ((s.heap r).conclude now (some pkt)).1 }

/-- What `handleProofPacket` does with the receipts: the one that the proof is for is concluded and
unregistered. -/
def settleReceipt (env : Verifiers) (s : ReceiptTable) (pkt : Packet) (link : Option ℕ) (now : ℤ) :
    ReceiptTable :=
  match s.settledBy env pkt link with
  | none => s
  | some r => (s.concludeReceipt r pkt now).unregisterReceipt r

def cleanupExpiredReceipts (now : ℤ) : ReceiptTable :=
  { s with receipts := s.receipts.filter fun r => (s.heap r).outstanding now }

end

/-- What happens to the receipts of a node.  `changeReceipt` is a call of the receipt itself, a
timeout, say, or a cancellation; the hash of a receipt is never changed. -/
inductive Event where
  | registerReceipt (r : ℕ)
  | unregisterReceipt (r : ℕ)
  | settleReceipt (pkt : Packet) (link : Option ℕ) (now : ℤ)
  | cleanupExpiredReceipts (now : ℤ)
  | changeReceipt (r : ℕ) (pr : Receipt)

def step (env : Verifiers) (s : ReceiptTable) : Event → ReceiptTable
  | .registerReceipt r => s.registerReceipt r
  | .unregisterReceipt r => s.unregisterReceipt r
  | .settleReceipt pkt link now => s.settleReceipt env pkt link now
  | .cleanupExpiredReceipts now => s.cleanupExpiredReceipts now
  | .changeReceipt r pr =>
    { s with heap := Function.update s.heap r { pr with hash := s.hash r } }

/-! ## Exactness -/

def Exact (s : ReceiptTable) : Prop :=
  ∀ h r, s.receiptsByHash.lookup h = some r ↔ r ∈ s.receipts ∧ s.hash r = h

/-- The index is exact, it is no larger than the list, and a proof concludes only receipts of the
list. -/
structure Correct (env : Verifiers) (s : ReceiptTable) : Prop where
  exact : s.Exact
  bounded : s.receiptsByHash.entries.length ≤ s.receipts.length
  listed : ∀ pkt link r, s.settledBy env pkt link = some r → r ∈ s.receipts

def keepsExact (env : Verifiers) (s : ReceiptTable) : Event → Prop
  | .registerReceipt r =>
    (s.hash r).length = Receipt.hashLength ∧ ∀ r' ∈ s.receipts, s.hash r' = s.hash r → r' = r
  | .unregisterReceipt r => ∀ r' ∈ s.receipts.erase r, s.hash r' ≠ s.hash r
  | .settleReceipt pkt link _ =>
    ∀ r, s.settledBy env pkt link = some r → r ∉ s.receipts.erase r
  | .cleanupExpiredReceipts now => ∀ r ∈ s.receipts, (s.heap r).outstanding now = true
  | .changeReceipt _ _ => True

def empty (heap : ℕ → Receipt) (links : ℕ → Option ℕ) : ReceiptTable := ⟨heap, links, [], ∅⟩

section

variable {env : Verifiers} {s : ReceiptTable} {r : ℕ}

lemma correct_of_exact (h : s.Exact) : s.Correct env where
  exact := h
  bounded := by
    -- different hashes have different receipts, for a receipt has one hash
    have hvalue : ∀ e ∈ s.receiptsByHash.entries, e.2 ∈ s.receipts ∧ s.hash e.2 = e.1 :=
      fun e he => (h e.1 e.2).1 (Table.lookup_eq_some_iff.2 he)
    have hnodup : (s.receiptsByHash.entries.map Sigma.snd).Nodup := by
      refine .map_on ?_ (NodupKeys.nodup s.receiptsByHash.nodupKeys)
      intro a ha b hb hab
      obtain ⟨h₁, r₁⟩ := a
      obtain ⟨h₂, r₂⟩ := b
      subst hab
      have hhash : h₁ = h₂ := (hvalue _ ha).2.symm.trans (hvalue _ hb).2
      rw [hhash]
    have hsub : s.receiptsByHash.entries.map Sigma.snd ⊆ s.receipts := by
      intro r hr
      obtain ⟨e, he, rfl⟩ := mem_map.1 hr
      exact (hvalue e he).1
    have hle := (subperm_of_subset hnodup hsub).length_le
    rwa [length_map] at hle
  listed := by
    intro pkt link r hr
    unfold settledBy at hr
    split at hr
    · obtain ⟨hlookup, -⟩ := Option.filter_eq_some_iff.1 hr
      exact ((h _ r).1 hlookup).1
    · exact mem_of_find?_eq_some hr

lemma hash_conclude (s : ReceiptTable) (r : ℕ) (pkt : Packet) (now : ℤ) (r' : ℕ) :
    (s.concludeReceipt r pkt now).hash r' = s.hash r' := by
  show (Function.update s.heap r _ r').hash = (s.heap r').hash
  by_cases hr : r' = r
  · subst hr
    rw [Function.update_self]
    rfl
  · rw [Function.update_of_ne hr]

def KeysFit (s : ReceiptTable) : Prop :=
  ∀ h r, s.receiptsByHash.lookup h = some r → h.length = Receipt.hashLength

lemma KeysFit.unregister (h : s.KeysFit) (r : ℕ) : (s.unregisterReceipt r).KeysFit := by
  intro k r' hlookup
  unfold unregisterReceipt at hlookup
  split at hlookup
  · by_cases hk : k = s.hash r
    · rw [hk, AList.lookup_erase] at hlookup
      cases hlookup
    · rw [AList.lookup_erase_ne hk] at hlookup
      exact h k r' hlookup
  · exact h k r' hlookup

lemma KeysFit.step (h : s.KeysFit) (e : Event) : (s.step env e).KeysFit := by
  cases e with
  | registerReceipt r =>
    intro k r' hlookup
    simp only [ReceiptTable.step, registerReceipt] at hlookup
    split at hlookup
    · rename_i hlen
      by_cases hk : k = s.hash r
      · rw [hk]
        exact hlen
      · rw [AList.lookup_insert_ne hk] at hlookup
        exact h k r' hlookup
    · exact h k r' hlookup
  | unregisterReceipt r => exact h.unregister r
  | settleReceipt pkt link now =>
    show (s.settleReceipt env pkt link now).KeysFit
    unfold settleReceipt
    cases s.settledBy env pkt link with
    | none => exact h
    | some r => exact unregister (by exact h) r
  | cleanupExpiredReceipts now | changeReceipt r pr => exact h

section

variable (h : s.Exact)
include h

lemma Exact.length_hash (hkeys : s.KeysFit) (hr : r ∈ s.receipts) :
    (s.hash r).length = Receipt.hashLength :=
  hkeys _ r ((h _ r).2 ⟨hr, rfl⟩)

lemma Exact.eq_of_hash {r' : ℕ} (hr : r ∈ s.receipts) (hr' : r' ∈ s.receipts)
    (hash : s.hash r' = s.hash r) : r' = r := by
  have hlookup := (h _ r').2 ⟨hr', rfl⟩
  rw [hash, (h _ r).2 ⟨hr, rfl⟩] at hlookup
  exact (Option.some.inj hlookup).symm

lemma exact_register_iff (hkeys : s.KeysFit) (r : ℕ) :
    (s.registerReceipt r).Exact ↔ s.keepsExact env (.registerReceipt r) := by
  have hmem : ∀ r', r' ∈ (s.registerReceipt r).receipts ↔ r' ∈ s.receipts ∨ r' = r := by
    intro r'
    show r' ∈ s.receipts ++ [r] ↔ _
    rw [mem_append, mem_singleton]
  by_cases hlen : (s.hash r).length = Receipt.hashLength
  · have hlookup : ∀ k, (s.registerReceipt r).receiptsByHash.lookup k =
        if k = s.hash r then some r else s.receiptsByHash.lookup k := by
      intro k
      simp only [registerReceipt]
      split_ifs with hk
      · rw [hk, AList.lookup_insert]
      · rw [AList.lookup_insert_ne hk]
    constructor
    · intro hexact
      refine ⟨hlen, ?_⟩
      intro r' hr' hash
      have hthis := (hexact (s.hash r) r').2 ⟨(hmem r').2 (.inl hr'), hash⟩
      rw [hlookup, if_pos rfl] at hthis
      exact (Option.some.inj hthis).symm
    · rintro ⟨-, honly⟩ k r'
      rw [hlookup, hmem]
      show _ ↔ _ ∧ s.hash r' = k
      split_ifs with hk
      · subst hk
        constructor
        · intro heq
          rw [← Option.some.inj heq]
          exact ⟨.inr rfl, rfl⟩
        · rintro ⟨hr' | rfl, hash⟩
          · rw [honly r' hr' hash]
          · rfl
      · rw [h]
        refine and_congr_left ?_
        intro hash
        refine ⟨.inl, ?_⟩
        rintro (hr' | rfl)
        · exact hr'
        · exact absurd hash.symm hk
  · refine iff_of_false ?_ fun hkeep => hlen hkeep.1
    intro hexact
    -- the receipt is in the list and has no entry
    have hthis := (hexact (s.hash r) r).2 ⟨(hmem r).2 (.inr rfl), rfl⟩
    simp only [registerReceipt, if_neg hlen] at hthis
    exact hlen (hkeys _ r hthis)

lemma exact_unregister_iff (hkeys : s.KeysFit) (r : ℕ) :
    (s.unregisterReceipt r).Exact ↔ ∀ r' ∈ s.receipts.erase r, s.hash r' ≠ s.hash r := by
  by_cases hlen : (s.hash r).length = Receipt.hashLength
  · have hlookup : ∀ k, (s.unregisterReceipt r).receiptsByHash.lookup k =
        if k = s.hash r then none else s.receiptsByHash.lookup k := by
      intro k
      simp only [unregisterReceipt]
      split_ifs with hk
      · rw [hk, AList.lookup_erase]
      · rw [AList.lookup_erase_ne hk]
    constructor
    · intro hexact r' hr' hash
      have hthis := (hexact (s.hash r) r').2 ⟨hr', hash⟩
      rw [hlookup, if_pos rfl] at hthis
      cases hthis
    · intro honly k r'
      rw [hlookup]
      show _ ↔ r' ∈ s.receipts.erase r ∧ s.hash r' = k
      split_ifs with hk
      · subst hk
        refine iff_of_false (by simp) ?_
        rintro ⟨hr', hash⟩
        exact honly r' hr' hash
      · rw [h]
        refine and_congr_left ?_
        intro hash
        have hne : r' ≠ r := by
          rintro rfl
          exact hk hash.symm
        rw [mem_erase_of_ne hne]
  · -- a receipt of the list has a hash of 32 bytes
    have hnot : r ∉ s.receipts := fun hr => hlen (h.length_hash hkeys hr)
    refine iff_of_true ?_ ?_
    · rw [unregisterReceipt, if_neg hlen, erase_of_not_mem hnot]
      exact h
    · intro r' hr' hash
      have hlength := h.length_hash hkeys (mem_of_mem_erase hr')
      rw [hash] at hlength
      exact hlen hlength

lemma exact_settle_iff (hkeys : s.KeysFit) (pkt : Packet) (link : Option ℕ) (now : ℤ) :
    (s.settleReceipt env pkt link now).Exact ↔ s.keepsExact env (.settleReceipt pkt link now) := by
  show _ ↔ ∀ r, s.settledBy env pkt link = some r → r ∉ s.receipts.erase r
  unfold settleReceipt
  cases hsettled : s.settledBy env pkt link with
  | none =>
    refine iff_of_true h ?_
    intro r hr
    cases hr
  | some r =>
    have hexact : (s.concludeReceipt r pkt now).Exact := by
      intro k r'
      rw [hash_conclude]
      exact h k r'
    have hr : r ∈ s.receipts := (correct_of_exact h).listed pkt link r hsettled
    rw [show Exact _ ↔ _ from exact_unregister_iff hexact hkeys r]
    constructor
    · rintro honly _ ⟨⟩ hagain
      exact honly r hagain rfl
    · intro honly r' hr' hash
      rw [hash_conclude, hash_conclude] at hash
      rw [h.eq_of_hash hr (mem_of_mem_erase hr') hash] at hr'
      exact honly r rfl hr'

lemma exact_cleanup_iff (now : ℤ) :
    (s.cleanupExpiredReceipts now).Exact ↔ s.keepsExact env (.cleanupExpiredReceipts now) := by
  constructor
  · intro hexact r hr
    have hthis := (hexact (s.hash r) r).1 ((h (s.hash r) r).2 ⟨hr, rfl⟩)
    exact (mem_filter.1 hthis.1).2
  · intro hall
    rw [cleanupExpiredReceipts, filter_eq_self.2 hall]
    exact h

lemma exact_change (r : ℕ) (pr : Receipt) : (s.step env (.changeReceipt r pr)).Exact := by
  intro k r'
  have hhash : (s.step env (.changeReceipt r pr)).hash r' = s.hash r' := by
    show (Function.update s.heap r _ r').hash = _
    by_cases hr : r' = r
    · subst hr
      rw [Function.update_self]
    · rw [Function.update_of_ne hr]
      rfl
  rw [hhash]
  exact h k r'

lemma exact_step_iff (hkeys : s.KeysFit) (e : Event) :
    (s.step env e).Exact ↔ s.keepsExact env e := by
  cases e with
  | registerReceipt r => exact exact_register_iff h hkeys r
  | unregisterReceipt r => exact exact_unregister_iff h hkeys r
  | settleReceipt pkt link now => exact exact_settle_iff h hkeys pkt link now
  | cleanupExpiredReceipts now => exact exact_cleanup_iff h now
  | changeReceipt r pr => exact iff_of_true (exact_change h r pr) trivial

end

end

/-- **When the index of receipts is exact.**  It is exact in every state of a run, and with it no
larger than the list and of no use to a proof for a receipt outside of it, exactly if every step of
the run keeps it so. -/
theorem index_exact_iff (env : Verifiers) (heap : ℕ → Receipt) (links : ℕ → Option ℕ)
    (es : List Event) :
    Run.Always (step env) (Correct env) (empty heap links) es ↔
      Run.Along (step env) (keepsExact env) (empty heap links) es := by
  refine Run.always_iff_along (I := fun s => s.Exact ∧ s.KeysFit) ?_ ?_ ?_ ?_
  · intro s hs
    exact correct_of_exact hs.1
  · intro s e hs hkeep
    exact ⟨(exact_step_iff hs.1 hs.2 e).2 hkeep, hs.2.step e⟩
  · intro s e hs hkeep hcorrect
    exact hkeep ((exact_step_iff hs.1 hs.2 e).1 hcorrect.exact)
  · refine ⟨fun k r => ?_, fun k r hlookup => ?_⟩
    · show (∅ : Map Bytes ℕ).lookup k = some r ↔ r ∈ [] ∧ _
      simp
    · cases hlookup

/-! ## A receipt that has expired -/

def shortReceipt : Receipt where
  hash := replicate 32 1
  sentAt := 0
  proved := false
  status := .sent
  timeout := 5
  concludedAt := none
  proofPacket := none
  deliveryCallback := some 1
  timeoutCallback := some 2
  destinationIdent := some [3]

def lateProof : Packet where
  headerType := .headerType1
  packetType := .proof
  transportType := 0
  destinationType := .single
  destinationHash := replicate 16 1
  transportID := []
  context := 0
  contextFlag := 0
  data := replicate 32 1 ++ replicate 64 2
  hops := 0
  raw := []

/-- The receipt is registered, fails, and is cleaned up.  It is not in the list any more, but the
index still has it, and a late proof makes a failed receipt a delivered one. -/
theorem expired_receipt_concluded :
    let env : Verifiers := ⟨fun _ _ _ => true, fun _ => none⟩
    let s := Run.exec (step env) (empty (fun _ => shortReceipt) fun _ => none)
      [.registerReceipt 0, .changeReceipt 0 (shortReceipt.checkTimeout 6).1,
        .cleanupExpiredReceipts 7]
    s.receipts = [] ∧ s.receiptsByHash.lookup shortReceipt.hash = some 0 ∧
      (s.heap 0).status = .failed ∧
      ((s.step env (.settleReceipt lateProof none 8)).heap 0).status = .delivered ∧
      ¬ s.Correct env := by
  refine ⟨by decide, by decide, by decide, by decide +kernel, ?_⟩
  intro hcorrect
  exact absurd hcorrect.bounded (by decide)

end ReceiptTable

end Reticulum
