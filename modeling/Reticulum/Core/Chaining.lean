import Mathlib.Data.List.Basic

/-!
# Cipher block chaining

The textbook mode: a block is combined with the block before it, as it was encrypted, and then
encrypted itself.  Blocks are of an arbitrary type, with an operation that combines two of them and
undoes itself, and `Block` says which values are blocks.
-/

namespace Chaining

universe u

variable {β : Type u} (combine : β → β → β) (E D : β → β)

def encrypt : β → List β → List β
  | _, [] => []
  | prev, p :: ps => E (combine p prev) :: encrypt (E (combine p prev)) ps

def decrypt : β → List β → List β
  | _, [] => []
  | prev, c :: cs => combine (D c) prev :: decrypt c cs

section

variable {combine E D} (Block : β → Prop)

/-- **What was encrypted is decrypted.** -/
theorem decrypt_encrypt (hcombine : ∀ a b, Block a → Block b → Block (combine a b))
    (hcancel : ∀ a b, Block a → Block b → combine (combine a b) b = a)
    (hE : ∀ a, Block a → Block (E a)) (hD : ∀ a, Block a → D (E a) = a) {prev : β}
    (hprev : Block prev) {ps : List β} (hps : ∀ p ∈ ps, Block p) :
    decrypt combine D prev (encrypt combine E prev ps) = ps := by
  induction ps generalizing prev with
  | nil => rfl
  | cons p ps ih =>
    have hp := hps p List.mem_cons_self
    have hmixed := hcombine p prev hp hprev
    rw [encrypt, decrypt, hD _ hmixed, hcancel p prev hp hprev,
      ih (hE _ hmixed) fun q hq => hps q (List.mem_cons_of_mem p hq)]

end

end Chaining
