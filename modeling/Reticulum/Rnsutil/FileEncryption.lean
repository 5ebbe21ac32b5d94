import Mathlib.Data.List.SplitLengths
import Reticulum.Core.Bytes

/-!
# Encrypted files

`EncryptFileRFE` writes a token for each piece of the file that it reads, and `DecryptFileRFE` takes
each piece that it reads for a token (`pkg/rnsutil/rsg.go`).  The format has no lengths, so all is
well if every read but the last fills its buffer.  Otherwise several tokens may be read as one, or
one as several: **`fileRoundTrips_iff`**.
-/

namespace Reticulum.Rnsutil

open List

/-- The buffer of `EncryptFileRFE`. -/
def encChunk : ℕ := 1024 * 1024 * 16

/-- The buffer of `DecryptFileRFE` is larger by this. -/
def tokenOverhead : ℕ := 96

/-- The length of the token of so many bytes. -/
def tokenLength (n : ℕ) : ℕ := (n / 16 + 1) * 16 + 80

/-- `Encrypt` and `Decrypt` of an identity.  What is drawn for a token depends on its number. -/
structure FileCipher where
  encrypt : ℕ → Bytes → Bytes
  decrypt : Bytes → Option Bytes
  decrypt_encrypt : ∀ n p, decrypt (encrypt n p) = some p
  length_encrypt : ∀ n p, (encrypt n p).length = tokenLength p.length

namespace FileCipher

variable (F : FileCipher)

/-- The tokens that are written, the first of them with the number `n`. -/
def tokens (n : ℕ) : List Bytes → List Bytes
  | [] => []
  | c :: cs => F.encrypt n c :: tokens (n + 1) cs

/-- The file that `EncryptFileRFE` writes after these reads. -/
def encryptReads (cs : List Bytes) : Bytes := (F.tokens 0 cs).flatten

/-- What `DecryptFileRFE` writes after these reads. -/
def decryptReads : List Bytes → Except String Bytes
  | [] => .ok []
  | c :: cs =>
    match F.decrypt c with
    | none => .error "decrypt failed"
    | some p => (decryptReads cs).map (p ++ ·)

lemma decryptReads_tokens (n : ℕ) (cs : List Bytes) :
    F.decryptReads (F.tokens n cs) = .ok cs.flatten := by
  induction cs generalizing n with
  | nil => rfl
  | cons c cs ih => simp [tokens, decryptReads, decrypt_encrypt, ih, Except.map]

lemma map_length_tokens (n : ℕ) (cs : List Bytes) :
    (F.tokens n cs).map length = (cs.map length).map tokenLength := by
  induction cs generalizing n with
  | nil => rfl
  | cons c cs ih => simp [tokens, length_encrypt, ih]

end FileCipher

/-! ## Reads -/

/-- Every read but the last fills the buffer.  Reads are given by their lengths. -/
def Full (size : ℕ) : List ℕ → Prop
  | [] | [_] => True
  | n :: m :: ns => n = size ∧ Full size (m :: ns)

/-- Whatever the identity and the content, a file that is read in pieces of the lengths `ls`,
encrypted, and read in pieces of the lengths `ms`, comes back. -/
def RoundTrips (ls ms : List ℕ) : Prop :=
  ∀ (F : FileCipher) (content : Bytes), content.length = ls.sum →
    F.decryptReads (ms.splitLengths (F.encryptReads (ls.splitLengths content))) = .ok content

lemma splitLengths_flatten (ts : List Bytes) : (ts.map length).splitLengths ts.flatten = ts := by
  induction ts with
  | nil => rfl
  | cons t ts ih => simp [ih]

/-- If each read returns a token, the file comes back. -/
lemma roundTrips_tokenLength (ls : List ℕ) : RoundTrips ls (ls.map tokenLength) := by
  intro F content hlen
  have hlengths := F.map_length_tokens 0 (ls.splitLengths content)
  rw [map_splitLengths_length _ _ hlen.ge] at hlengths
  rw [FileCipher.encryptReads, ← hlengths, splitLengths_flatten, F.decryptReads_tokens,
    flatten_splitLengths _ _ hlen.le]

/-! ## A cipher that marks the ends of its tokens -/

/-- The plaintext, zeros, and a last byte that has the rest of the length. -/
def markedToken (p : Bytes) : Bytes :=
  p ++ (replicate (tokenLength p.length - 1 - p.length) 0 ++ [.ofNat (1 + p.length % 16)])

lemma length_markedToken (p : Bytes) : (markedToken p).length = tokenLength p.length := by
  simp only [markedToken, tokenLength, length_append, length_replicate, length_singleton]
  omega

/-- Decrypts nothing but its own tokens. -/
def markedCipher : FileCipher where
  encrypt _ p := markedToken p
  decrypt t :=
    let p := t.take (t.length - 96 + ((t.getLastD 0).toNat - 1))
    if markedToken p = t then some p else none
  decrypt_encrypt _ p := by
    have hlast : (markedToken p).getLastD 0 = .ofNat (1 + p.length % 16) := by
      simp [markedToken, getLastD_eq_getLast?]
    have hlen : (markedToken p).length - 96 +
        (((markedToken p).getLastD 0).toNat - 1) = p.length := by
      rw [hlast, length_markedToken, tokenLength, UInt8.toNat_ofNat']
      omega
    have htake : (markedToken p).take p.length = p := take_left
    simp only [hlen, htake, if_true]
  length_encrypt _ := length_markedToken

/-- The token of zeros. -/
def zeroToken (n : ℕ) : Bytes := replicate (tokenLength n - 1) 0 ++ [.ofNat (1 + n % 16)]

lemma markedToken_replicate (n : ℕ) : markedToken (replicate n 0) = zeroToken n := by
  have hn : n + (tokenLength n - 1 - n) = tokenLength n - 1 := by
    simp only [tokenLength]
    omega
  rw [markedToken, length_replicate, ← append_assoc, ← replicate_add, hn, zeroToken]

lemma replicate_zero_append_inj {a b : ℕ} {x y : UInt8} (hx : x ≠ 0) (hy : y ≠ 0) {xs ys : Bytes}
    (h : replicate a 0 ++ x :: xs = replicate b 0 ++ y :: ys) : a = b ∧ xs = ys := by
  induction a generalizing b with
  | zero =>
    cases b with
    | zero => simpa using (cons.inj h).2
    | succ b => exact absurd (cons.inj h).1 hx
  | succ a ih =>
    cases b with
    | zero => exact absurd (cons.inj h).1.symm hy
    | succ b => simpa using ih (cons.inj h).2

/-- The last byte of a token of zeros is the first that is not zero, and so the tokens are found in
a row of them. -/
lemma tokenLengths_eq {ks ls : List ℕ}
    (h : (ks.map zeroToken).flatten = (ls.map zeroToken).flatten) :
    ks.map tokenLength = ls.map tokenLength := by
  have hpos (n : ℕ) : tokenLength n = tokenLength n - 1 + 1 := by
    simp only [tokenLength]
    omega
  have hmark (n : ℕ) : UInt8.ofNat (1 + n % 16) ≠ 0 := by
    intro heq
    have hnat := congrArg UInt8.toNat heq
    rw [UInt8.toNat_ofNat', UInt8.toNat_zero] at hnat
    omega
  induction ks generalizing ls with
  | nil =>
    cases ls with
    | nil => rfl
    | cons l ls => simp [zeroToken] at h
  | cons k ks ih =>
    cases ls with
    | nil => simp [zeroToken] at h
    | cons l ls =>
      simp only [map_cons, flatten_cons, zeroToken, append_assoc, singleton_append] at h
      obtain ⟨hlen, hrest⟩ := replicate_zero_append_inj (hmark k) (hmark l) h
      rw [map_cons, map_cons, ih hrest, hpos k, hpos l, hlen]

lemma tokens_zeros (n : ℕ) (ls : List ℕ) :
    markedCipher.tokens n (ls.splitLengths (replicate ls.sum 0)) = ls.map zeroToken := by
  induction ls generalizing n with
  | nil => rfl
  | cons l ls ih =>
    rw [sum_cons, splitLengths_cons, take_replicate, drop_replicate, Nat.add_sub_cancel_left,
      Nat.min_eq_left (Nat.le_add_right _ _), FileCipher.tokens, ih]
    exact congrArg (· :: _) (markedToken_replicate l)

/-- What is decrypted to zeros are tokens of zeros. -/
lemma eq_zeroTokens {ts : List Bytes} {n : ℕ}
    (h : markedCipher.decryptReads ts = .ok (replicate n 0)) :
    ∃ ks : List ℕ, ts = ks.map zeroToken := by
  induction ts generalizing n with
  | nil => exact ⟨[], rfl⟩
  | cons t ts ih =>
    rw [FileCipher.decryptReads] at h
    split at h
    · cases h
    · rename_i p hp
      cases hrest : markedCipher.decryptReads ts with
      | error err => simp [hrest, Except.map] at h
      | ok q =>
        rw [hrest, Except.map, Except.ok.injEq, append_eq_replicate_iff] at h
        obtain ⟨-, hpz, hqz⟩ := h
        obtain ⟨ks, rfl⟩ := ih (hqz ▸ hrest)
        have htoken : markedToken p = t := by
          simp only [markedCipher, Option.ite_none_right_eq_some, Option.some.injEq] at hp
          exact hp.2 ▸ hp.1
        exact ⟨p.length :: ks, by rw [map_cons, ← markedToken_replicate, ← hpz, htoken]⟩

/-- If a file of zeros comes back, each read has returned a token. -/
lemma eq_tokenLengths {ls ms : List ℕ} (hsum : ms.sum = (ls.map tokenLength).sum)
    (h : RoundTrips ls ms) : ms = ls.map tokenLength := by
  have hback := h markedCipher (replicate ls.sum 0) length_replicate
  rw [FileCipher.encryptReads, tokens_zeros] at hback
  have hlen : ms.sum = (ls.map zeroToken).flatten.length := by
    rw [hsum, length_flatten, map_map]
    refine congrArg sum (map_congr_left fun l _ => ?_)
    rw [Function.comp_apply, ← markedToken_replicate, length_markedToken, length_replicate]
  obtain ⟨ks, hks⟩ := eq_zeroTokens hback
  have hms : ms = ks.map tokenLength := by
    rw [← map_splitLengths_length _ _ hlen.le, hks, map_map]
    refine map_congr_left fun k _ => ?_
    rw [Function.comp_apply, ← markedToken_replicate, length_markedToken, length_replicate]
  rw [hms]
  refine tokenLengths_eq ?_
  rw [← hks, flatten_splitLengths _ _ hlen.ge]

/-! ## Reads that fill their buffers -/

lemma Full.cons {size n : ℕ} {ns : List ℕ} (h : Full size (n :: ns)) :
    (ns.sum = 0 ∨ n = size) ∧ Full size ns := by
  cases ns with
  | nil => exact ⟨.inl rfl, trivial⟩
  | cons m ns => exact ⟨.inr h.1, h.2⟩

/-- Reads of one file that fill their buffers are the same. -/
lemma Full.unique {size : ℕ} {ls ms : List ℕ} (hl : Full size ls) (hm : Full size ms)
    (hls : ∀ n ∈ ls, 0 < n ∧ n ≤ size) (hms : ∀ n ∈ ms, 0 < n ∧ n ≤ size)
    (hsum : ls.sum = ms.sum) : ls = ms := by
  induction ls generalizing ms with
  | nil =>
    cases ms with
    | nil => rfl
    | cons m ms =>
      have hpos := (hms m mem_cons_self).1
      rw [sum_nil, sum_cons] at hsum
      omega
  | cons l ls ih =>
    cases ms with
    | nil =>
      have hpos := (hls l mem_cons_self).1
      rw [sum_nil, sum_cons] at hsum
      omega
    | cons m ms =>
      rw [forall_mem_cons] at hls hms
      rw [sum_cons, sum_cons] at hsum
      have hhead := hl.cons.1
      have hhead' := hm.cons.1
      obtain rfl : l = m := by omega
      rw [ih hl.cons.2 hm.cons.2 hls.2 hms.2 (by omega)]

/-- A token fills the one buffer if its plaintext fills the other. -/
lemma full_tokenLength_iff {ls : List ℕ} (hls : ∀ n ∈ ls, 0 < n ∧ n ≤ encChunk) :
    Full (encChunk + tokenOverhead) (ls.map tokenLength) ↔ Full encChunk ls := by
  fun_induction Full encChunk ls with
  | case1 | case2 => exact Iff.rfl
  | case3 n m ns ih =>
    rw [forall_mem_cons] at hls
    refine and_congr ?_ (ih hls.2)
    have hn := hls.1.2
    simp only [tokenLength, encChunk, tokenOverhead] at *
    omega

/-- **Which reads make an encrypted file come back**: each read of it has to return exactly one
token.  If these reads fill their buffer but for the last, then so have to do those of the content.
-/
theorem fileRoundTrips_iff (ls ms : List ℕ) (hls : ∀ n ∈ ls, 0 < n ∧ n ≤ encChunk)
    (hms : ∀ n ∈ ms, 0 < n ∧ n ≤ encChunk + tokenOverhead)
    (hsum : ms.sum = (ls.map tokenLength).sum) :
    (RoundTrips ls ms ↔ ms = ls.map tokenLength) ∧
      (Full (encChunk + tokenOverhead) ms → (RoundTrips ls ms ↔ Full encChunk ls)) := by
  have hiff : RoundTrips ls ms ↔ ms = ls.map tokenLength :=
    ⟨eq_tokenLengths hsum, fun h => h ▸ roundTrips_tokenLength ls⟩
  refine ⟨hiff, fun hfull => hiff.trans ⟨?_, fun hls' => ?_⟩⟩
  · rintro rfl
    exact (full_tokenLength_iff hls).1 hfull
  · refine hfull.unique ((full_tokenLength_iff hls).2 hls') hms (fun n hn => ?_) hsum
    obtain ⟨l, hl, rfl⟩ := mem_map.1 hn
    have hle := (hls l hl).2
    simp only [tokenLength, encChunk, tokenOverhead] at *
    omega

/-- A file of one byte more than the buffer: two reads, two tokens, two reads. -/
theorem roundTrips_two : RoundTrips [encChunk, 1] [encChunk + tokenOverhead, 96] :=
  (fileRoundTrips_iff [encChunk, 1] [encChunk + tokenOverhead, 96] (by decide) (by decide)
    (by decide)).1.2 (by decide)

/-- A file of two bytes that are read one by one: both tokens are read at once. -/
theorem two_tokens_at_once :
    let file := markedCipher.encryptReads ([1, 1].splitLengths [0, 0])
    file.length = 192 ∧ 192 ≤ encChunk + tokenOverhead ∧
      markedCipher.decryptReads ([192].splitLengths file) ≠ .ok [0, 0] ∧
      ¬ RoundTrips [1, 1] [192] := by
  intro file
  have hother : markedCipher.decryptReads ([192].splitLengths file) ≠ .ok [0, 0] := by
    decide +kernel
  exact ⟨by decide +kernel, by decide, hother, fun h => hother (h markedCipher [0, 0] rfl)⟩

end Reticulum.Rnsutil
