import Reticulum.Packet.Pack

/-!
# Stamps

A stamp is 32 bytes whose hash together with a workblock is small (`pkg/lxstamper`).  The miner
compares the hash with a power of two, up to which it accepts it; `MeetsCost` counts the leading
zeros besides, of which the target itself has one too few.  So a stamp that has been mined is
accepted unless its hash is the target (`meetsCost_mined_iff`).
-/

namespace Reticulum.Lxstamper

open List

def stampSize : ℕ := 32

def hashWorkblockStamp (sha : Sha256) (workblock stamp : Bytes) : Bytes :=
  sha.sum (workblock ++ stamp)

/-- The bits of a byte before the first one that is set, from the highest on. -/
def leadingZeros (b : UInt8) : ℕ :=
  ((range 8).takeWhile fun i => b &&& (1 <<< (7 - UInt8.ofNat i)) = 0).length

def countZeros : Bytes → ℕ
  | [] => 0
  | b :: bs => if b = 0 then 8 + countZeros bs else leadingZeros b

def stampValue (sha : Sha256) (workblock stamp : Bytes) : ℕ :=
  if stamp.length = 0 then 0 else countZeros (hashWorkblockStamp sha workblock stamp)

/-- One bit is set, number `k` of the byte between `n` and `m` zeros. -/
def oneBit (n k m : ℕ) : Bytes :=
  replicate n (0 : UInt8) ++ (1 : UInt8) <<< UInt8.ofNat k :: replicate m 0

/-- The number `2 ^ (256 - cost)`, or zero if it does not fit. -/
def stampTarget (cost : ℤ) : Bytes :=
  let pos := (256 - cost).toNat
  if cost ≥ 256 ∨ 31 < pos / 8 then replicate 32 0
  else oneBit (31 - pos / 8) (pos % 8) (pos / 8)

/-- `bytes.Compare(a, b) <= 0` -/
def bytesLE : Bytes → Bytes → Bool
  | [], _ => true
  | _ :: _, [] => false
  | a :: as, b :: bs => a < b || (a = b && bytesLE as bs)

def stampValid (sha : Sha256) (stamp : Bytes) (targetCost : ℤ) (workblock : Bytes) : Bool :=
  if targetCost ≤ 0 then true
  else if stamp.length ≠ stampSize then false
  else if targetCost > 256 then false
  else bytesLE (hashWorkblockStamp sha workblock stamp) (stampTarget targetCost)

def meetsCost (sha : Sha256) (stamp : Bytes) (targetCost : ℤ) (workblock : Bytes) : Bool :=
  if !stampValid sha stamp targetCost workblock then false
  else if targetCost ≤ 0 then stamp.length = stampSize
  else stampValue sha workblock stamp ≥ targetCost

/-! ## Mining -/

/-- The `n` lower bytes of an integer, the highest first. -/
def bigEndian : ℕ → ℕ → Bytes
  | 0, _ => []
  | n + 1, v => bigEndian n (v / 256) ++ [.ofNat v]

/-- Attempt number `counter` of a worker. -/
def minerStamp (seed : Bytes) (worker counter : ℕ) : Bytes :=
  seed.takeD 12 0 ++ bigEndian 4 worker ++ bigEndian 8 counter ++
    bigEndian 4 (counter / 2 ^ 32 ^^^ worker * 0x9e3779b9) ++
    bigEndian 4 (counter ^^^ worker <<< 16)

/-- The loop of a worker, which ends after `n` attempts if the miner is cancelled or another worker
has found a stamp. -/
def mineLoop (sha : Sha256) (workblock seed : Bytes) (cost : ℤ) (worker : ℕ) :
    ℕ → ℕ → Option Bytes
  | 0, _ => none
  | n + 1, counter =>
    let stamp := minerStamp seed worker (counter + 1)
    if bytesLE (hashWorkblockStamp sha workblock stamp) (stampTarget cost) then some stamp
    else mineLoop sha workblock seed cost worker n (counter + 1)

/-- What `cpuMineStamp` and its fallback return where `worker` is the first to find a stamp. -/
def cpuMineStamp (sha : Sha256) (workblock seed : Bytes) (cost : ℤ) (worker attempts : ℕ) :
    Option (Bytes × ℕ) :=
  (mineLoop sha workblock seed cost worker attempts 0).map fun stamp =>
    (stamp, stampValue sha workblock stamp)

/-! ## Leading zeros -/

lemma eq_zeros_of_bytesLE {m : ℕ} {l : Bytes} (hlen : l.length = m)
    (h : bytesLE l (replicate m 0)) : l = replicate m 0 := by
  induction l generalizing m with
  | nil => simp_all
  | cons b l ih =>
    obtain rfl : l.length + 1 = m := hlen
    simp only [replicate_succ, bytesLE, Bool.or_eq_true, Bool.and_eq_true, decide_eq_true_eq] at h ⊢
    obtain hlt | ⟨rfl, hle⟩ := h
    · simp at hlt
    · rw [← ih rfl hle]

lemma le_leadingZeros {k : ℕ} (hk : k < 8) (b : UInt8) (hb : b < 1 <<< UInt8.ofNat k) :
    8 - k ≤ leadingZeros b := by
  have hall : ∀ (k : Fin 8) n, .ofFin n < 1 <<< UInt8.ofNat k →
      8 - k.val ≤ leadingZeros (.ofFin n) := by decide +kernel
  exact Packet.forall_byte (P := fun b => b < _ → 8 - k ≤ leadingZeros b) (hall ⟨k, hk⟩) b hb

/-- **Below a power of two** there are as many leading zeros as before its bit, and that one. -/
lemma le_countZeros {n k m : ℕ} (hk : k < 8) {l : Bytes} (hlen : l.length = n + (m + 1))
    (hle : bytesLE l (oneBit n k m)) (hne : l ≠ oneBit n k m) : 8 * n + 8 - k ≤ countZeros l := by
  induction n generalizing l with
  | zero =>
    obtain ⟨b, l, rfl⟩ := exists_cons_of_length_pos (by omega : 0 < l.length)
    simp only [oneBit, replicate_zero, nil_append, bytesLE, Bool.or_eq_true,
      Bool.and_eq_true, decide_eq_true_eq] at hle hne
    obtain hlt | ⟨rfl, hle⟩ := hle
    · have hb := le_leadingZeros hk b hlt
      rw [countZeros]
      split_ifs <;> omega
    · rw [eq_zeros_of_bytesLE (by simpa using hlen) hle] at hne
      exact absurd rfl hne
  | succ n ih =>
    obtain ⟨b, l, rfl⟩ := exists_cons_of_length_pos (by omega : 0 < l.length)
    have hbit : oneBit (n + 1) k m = 0 :: oneBit n k m := rfl
    simp only [hbit, bytesLE, Bool.or_eq_true, Bool.and_eq_true, decide_eq_true_eq] at hle hne
    obtain hlt | ⟨rfl, hle⟩ := hle
    · simp at hlt
    · have := ih (by simp at hlen; omega) hle fun h => hne (h ▸ rfl)
      rw [countZeros, if_pos rfl]
      omega

lemma countZeros_stampTarget {cost : ℤ} (hpos : 0 < cost) (hlt : cost < 256) :
    countZeros (stampTarget cost) < cost := by
  have hall : ∀ c : Fin 256, 0 < c.val → countZeros (stampTarget c.val) < c.val := by decide +kernel
  obtain ⟨c, rfl⟩ := Int.eq_ofNat_of_zero_le hpos.le
  exact_mod_cast hall ⟨c, by omega⟩ (by simpa using hpos)

/-- **What has enough leading zeros** of the hashes that the miner accepts: all but the target. -/
lemma le_countZeros_iff {cost : ℤ} (hpos : 0 < cost) (hcost : cost ≤ 256) {l : Bytes}
    (hlen : l.length = 32) (hle : bytesLE l (stampTarget cost)) :
    cost ≤ countZeros l ↔ cost = 256 ∨ l ≠ stampTarget cost := by
  obtain rfl | hlt := hcost.eq_or_lt
  · have hl := eq_zeros_of_bytesLE hlen hle
    simp only [hl, true_or]
    decide +kernel
  · constructor
    · rintro h
      refine .inr ?_
      rintro rfl
      exact absurd (countZeros_stampTarget hpos hlt) (not_lt.2 h)
    · rintro (rfl | hne)
      · omega
      · have htarget : stampTarget cost =
            oneBit (31 - (256 - cost).toNat / 8) ((256 - cost).toNat % 8)
              ((256 - cost).toNat / 8) :=
          if_neg (by omega)
        rw [htarget] at hle hne
        have := le_countZeros (Nat.mod_lt _ (by decide)) (by omega) hle hne
        omega

lemma length_bigEndian (n v : ℕ) : (bigEndian n v).length = n := by
  induction n generalizing v with
  | zero => rfl
  | succ n ih => rw [bigEndian, length_append, ih, length_singleton]

lemma length_minerStamp (seed : Bytes) (worker counter : ℕ) :
    (minerStamp seed worker counter).length = stampSize := by
  simp only [minerStamp, length_append, takeD_length, length_bigEndian, stampSize]

lemma mineLoop_eq_some {sha : Sha256} {workblock seed : Bytes} {cost : ℤ} {worker n counter : ℕ}
    {stamp : Bytes} (h : mineLoop sha workblock seed cost worker n counter = some stamp) :
    stamp.length = stampSize ∧
      bytesLE (hashWorkblockStamp sha workblock stamp) (stampTarget cost) := by
  induction n generalizing counter with
  | zero => cases h
  | succ n ih =>
    simp only [mineLoop] at h
    split_ifs at h with hle
    · cases h
      exact ⟨length_minerStamp .., hle⟩
    · exact ih h

/-- **When a stamp that has been mined meets its cost**: unless its hash is the target, which is
zero for the highest cost. -/
theorem meetsCost_mined_iff {sha : Sha256} {workblock seed : Bytes} {cost : ℤ} {worker attempts : ℕ}
    {stamp : Bytes} {value : ℕ} (hpos : 1 ≤ cost) (hcost : cost ≤ 256)
    (h : cpuMineStamp sha workblock seed cost worker attempts = some (stamp, value)) :
    meetsCost sha stamp cost workblock = true ↔
      cost = 256 ∨ hashWorkblockStamp sha workblock stamp ≠ stampTarget cost := by
  obtain ⟨_, hmined, heq⟩ := Option.map_eq_some_iff.1 h
  cases heq
  obtain ⟨hlen, hle⟩ := mineLoop_eq_some hmined
  have hvalid : stampValid sha stamp cost workblock = true := by
    simp [stampValid, hlen, hle, hcost]
  refine trans ?_ (le_countZeros_iff hpos hcost (sha.length_sum _) hle)
  simp [meetsCost, hvalid, stampValue, hlen, stampSize, show ¬cost ≤ 0 by omega]

def constantHash (cost : ℤ) : Sha256 where
  sum _ := (stampTarget cost ++ replicate 32 0).take 32
  length_sum _ := by simp

theorem meetsCost_mined_below :
    cpuMineStamp (constantHash 2) [] [] 1 0 1 = some (minerStamp [] 0 1, 1) ∧
      meetsCost (constantHash 2) (minerStamp [] 0 1) 1 [] = true := by
  have h : cpuMineStamp (constantHash 2) [] [] 1 0 1 = some (minerStamp [] 0 1, 1) := by
    decide +kernel
  exact ⟨h, (meetsCost_mined_iff (by decide) (by decide) h).2 (.inr (by decide +kernel))⟩

/-- The first stamp that is tried is accepted for its cost, and has no leading zero. -/
theorem mined_not_meetsCost : ∃ stamp,
    cpuMineStamp (constantHash 1) [] [] 1 0 1 = some (stamp, 0) ∧
      meetsCost (constantHash 1) stamp 1 [] = false :=
  ⟨minerStamp [] 0 1, by decide +kernel, by decide +kernel⟩

end Reticulum.Lxstamper
