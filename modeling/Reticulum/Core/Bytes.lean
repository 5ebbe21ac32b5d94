import Mathlib.Data.UInt

/-!
# Byte strings and big-endian integers

Wire formats are lists of bytes, and integers in them are big-endian.  What `foldUint32` makes of
more than four bytes is their value modulo 2³² (`toNat_foldUint32`).  `hex` writes a byte string in
hexadecimal digits, among which is no colon (`hex_colon_isPrefix_iff`).
-/

abbrev Bytes := List UInt8

namespace Bytes

/-- The comparison of byte strings is equality.  Every definition that looks a byte string up in a
list refers to this instance. -/
instance instLawfulBEq : LawfulBEq Bytes := inferInstance

def putUint16 (n : UInt16) : Bytes := [.ofNat (n.toNat / 256), .ofNat (n.toNat % 256)]

def uint16 (hi lo : UInt8) : UInt16 := .ofNat (hi.toNat * 256 + lo.toNat)

@[simp] lemma uint16_putUint16 (n : UInt16) :
    uint16 (.ofNat (n.toNat / 256)) (.ofNat (n.toNat % 256)) = n := by
  have hn : n.toNat < 65536 := n.toNat_lt
  apply UInt16.toNat_inj.1
  simp only [uint16, UInt16.toNat_ofNat', UInt8.toNat_ofNat']
  omega

/-! ## Integers of 32 bits -/

def toNat (b : Bytes) : ℕ := b.foldl (fun n x => n * 256 + x.toNat) 0

def foldUint32 (b : Bytes) : UInt32 := b.foldl (fun n x => (n <<< 8) ||| x.toUInt32) 0

lemma toNat_shiftLeft_or (n : UInt32) (x : UInt8) :
    ((n <<< 8) ||| x.toUInt32).toNat = (n.toNat * 256 + x.toNat) % 2 ^ 32 := by
  have hx : x.toNat < 2 ^ 8 := x.toNat_lt
  have hmod : n.toNat <<< 8 % 2 ^ 32 = (n.toNat % 2 ^ 24) <<< 8 := by
    omega
  rw [UInt32.toNat_or, UInt32.toNat_shiftLeft, UInt8.toNat_toUInt32]
  simp only [UInt32.toNat_ofNat]
  rw [hmod, ← Nat.shiftLeft_add_eq_or_of_lt hx, Nat.shiftLeft_eq]
  omega

/-- **The register holds the value modulo 2³².** -/
lemma toNat_foldUint32 (b : Bytes) : (foldUint32 b).toNat = toNat b % 2 ^ 32 := by
  suffices h : ∀ (n : UInt32) (m : ℕ), n.toNat = m % 2 ^ 32 →
      (b.foldl (fun (n : UInt32) x => (n <<< 8) ||| x.toUInt32) n).toNat =
        b.foldl (fun n x => n * 256 + x.toNat) m % 2 ^ 32 from h 0 0 rfl
  induction b with
  | nil =>
    intro n m h
    exact h
  | cons x b ih =>
    intro n m h
    rw [List.foldl_cons, List.foldl_cons]
    apply ih
    rw [toNat_shiftLeft_or, h]
    omega

/-! ## Hexadecimal -/

def hexDigit (n : ℕ) : Char := "0123456789abcdef".toList.getD n '0'

def hex : Bytes → List Char
  | [] => []
  | b :: bs => hexDigit (b.toNat / 16) :: hexDigit (b.toNat % 16) :: hex bs

lemma hexDigit_inj {m n : ℕ} (hm : m < 16) (hn : n < 16) (h : hexDigit m = hexDigit n) : m = n := by
  have hall : ∀ a b : Fin 16, hexDigit a = hexDigit b → a = b := by decide
  exact Fin.mk.inj (hall ⟨m, hm⟩ ⟨n, hn⟩ h)

lemma hexDigit_ne_colon {n : ℕ} (hn : n < 16) : hexDigit n ≠ ':' := by
  have hall : ∀ a : Fin 16, hexDigit a ≠ ':' := by decide
  exact hall ⟨n, hn⟩

/-- **The byte string in front of a colon** can be read off: two hexadecimal strings, each of which
is followed by a colon, do not begin alike unless they are the same. -/
lemma hex_colon_isPrefix_iff {a b : Bytes} {rest : List Char} :
    hex a ++ [':'] <+: hex b ++ ':' :: rest ↔ a = b := by
  constructor
  · intro h
    induction a generalizing b with
    | nil =>
      cases b with
      | nil => rfl
      | cons y b =>
        simp only [hex, List.nil_append, List.cons_append, List.cons_prefix_cons] at h
        have hy := y.toNat_lt
        exact absurd h.1.symm (hexDigit_ne_colon (by omega))
    | cons x a ih =>
      have hx := x.toNat_lt
      cases b with
      | nil =>
        simp only [hex, List.nil_append, List.cons_append, List.cons_prefix_cons] at h
        exact absurd h.1 (hexDigit_ne_colon (by omega))
      | cons y b =>
        have hy := y.toNat_lt
        simp only [hex, List.cons_append, List.cons_prefix_cons] at h
        have hhigh := hexDigit_inj (by omega) (by omega) h.1
        have hlow := hexDigit_inj (by omega) (by omega) h.2.1
        have hxy : x = y := UInt8.toNat_inj.1 (by omega)
        rw [hxy, ih h.2.2]
  · rintro rfl
    exact ⟨rest, by simp⟩

lemma drop_next {α : Type*} {p a b : List α} {n k m : ℕ} (h : p.drop n = a ++ b)
    (ha : a.length = k) (hm : n + k = m) : p.drop m = b := by
  rw [← hm, ← List.drop_drop, h, List.drop_left' ha]

end Bytes

instance UInt32.instLinearOrder : LinearOrder UInt32 where
  le_refl a := UInt32.le_refl a
  le_trans _ _ _ := UInt32.le_trans
  le_antisymm _ _ := UInt32.le_antisymm
  le_total := UInt32.le_total
  lt_iff_le_not_ge a b := by
    simp only [lt_iff_toNat_lt]
    exact lt_iff_le_not_ge
  toDecidableLE := inferInstance
  toDecidableLT := inferInstance
