import Mathlib

/-!
# A 64-bit word in two 32-bit halves

Splitting a word into its halves and joining them again loses nothing. Sums,
exclusive ors and rotations of words are computed from the halves alone: a sum
carries into the high half exactly when the low sum wrapped, and a rotation by
less than one half moves bits between the halves, one by a whole half swaps
them, and a longer one does both.
-/

namespace CuckatooMiner.WordHalves

/-- Join a high and a low half. -/
def join (hi lo : BitVec 32) : BitVec 64 := hi ++ lo

/-- A joined word's value weighs the high half by two to the 32. -/
theorem join_toNat (hi lo : BitVec 32) : (join hi lo).toNat = hi.toNat * 4294967296 + lo.toNat := by
  rw [join, BitVec.toNat_append, Nat.shiftLeft_eq, Nat.mul_comm,
    Nat.two_pow_add_eq_or_of_lt lo.isLt, Nat.mul_comm]

/-- The halves of a word join back to it. -/
theorem join_split (word : BitVec 64) :
    join ((word >>> 32).setWidth 32) (word.setWidth 32) = word := by
  apply BitVec.eq_of_getLsbD_eq
  intro i inside
  simp only [join, BitVec.getLsbD_append, BitVec.getLsbD_setWidth, BitVec.getLsbD_ushiftRight]
  grind

/-- The low half of a joined word. -/
theorem join_low (hi lo : BitVec 32) : (join hi lo).setWidth 32 = lo := by
  apply BitVec.eq_of_toNat_eq
  rw [BitVec.toNat_setWidth, join_toNat]
  have bound := lo.isLt
  omega

/-- The high half of a joined word. -/
theorem join_high (hi lo : BitVec 32) : (join hi lo >>> 32).setWidth 32 = hi := by
  apply BitVec.eq_of_toNat_eq
  rw [BitVec.toNat_setWidth, BitVec.toNat_ushiftRight, join_toNat, Nat.shiftRight_eq_div_pow]
  have low_bound := lo.isLt
  have high_bound := hi.isLt
  omega

/-- Shifting a half up and or-ing the other in joins them. -/
theorem shift_or_join (hi lo : BitVec 32) :
    lo.setWidth 64 ||| (hi.setWidth 64 <<< 32) = join hi lo := by
  apply BitVec.eq_of_getLsbD_eq
  intro i inside
  simp only [join, BitVec.getLsbD_append, BitVec.getLsbD_or, BitVec.getLsbD_shiftLeft,
    BitVec.getLsbD_setWidth]
  grind

/-- Exclusive or works half by half. -/
theorem join_xor (hi lo hi' lo' : BitVec 32) :
    join hi lo ^^^ join hi' lo' = join (hi ^^^ hi') (lo ^^^ lo') := by
  apply BitVec.eq_of_getLsbD_eq
  intro i _
  simp only [join, BitVec.getLsbD_append, BitVec.getLsbD_xor]
  split <;> rfl

/-- A sum carries into the high half exactly when the low sum is below its
    first summand. -/
theorem join_add (hi lo hi' lo' : BitVec 32) :
    join hi lo + join hi' lo' =
      join (hi + hi' + if lo + lo' < lo then 1#32 else 0#32) (lo + lo') := by
  apply BitVec.eq_of_toNat_eq
  have hi_bound := hi.isLt
  have lo_bound := lo.isLt
  have hi_bound' := hi'.isLt
  have lo_bound' := lo'.isLt
  rw [BitVec.toNat_add, join_toNat, join_toNat, join_toNat]
  split <;> rename_i carry <;>
    simp only [BitVec.lt_def, BitVec.toNat_add, BitVec.toNat_ofNat] at carry ⊢ <;> omega

/-- Rotating by a whole half swaps the halves. -/
theorem join_rotate_half (hi lo : BitVec 32) : (join hi lo).rotateLeft 32 = join lo hi := by
  apply BitVec.eq_of_getLsbD_eq
  intro i inside
  simp only [join, BitVec.getLsbD_rotateLeft, BitVec.getLsbD_append]
  grind

/-- Rotating by less than a half moves the top bits of each half into the other. -/
theorem join_rotate_short (hi lo : BitVec 32) (amount : Nat) (positive : 0 < amount)
    (short : amount < 32) :
    (join hi lo).rotateLeft amount =
      join ((hi <<< amount) ||| (lo >>> (32 - amount)))
        ((lo <<< amount) ||| (hi >>> (32 - amount))) := by
  apply BitVec.eq_of_getLsbD_eq
  intro i inside
  simp only [join, BitVec.getLsbD_rotateLeft, Nat.mod_eq_of_lt (show amount < 64 by omega),
    BitVec.getLsbD_append, BitVec.getLsbD_or, BitVec.getLsbD_shiftLeft,
    BitVec.getLsbD_ushiftRight]
  rcases Nat.lt_or_ge i amount with wrapped | moved <;>
    rcases Nat.lt_or_ge i 32 with low | high <;> grind

/-- Rotating by more than a half moves the top bits of each half within a swap. -/
theorem join_rotate_long (hi lo : BitVec 32) (amount : Nat) (long : 32 < amount)
    (below : amount < 64) :
    (join hi lo).rotateLeft amount =
      join ((lo <<< (amount - 32)) ||| (hi >>> (32 - (amount - 32))))
        ((hi <<< (amount - 32)) ||| (lo >>> (32 - (amount - 32)))) := by
  apply BitVec.eq_of_getLsbD_eq
  intro i inside
  simp only [join, BitVec.getLsbD_rotateLeft, Nat.mod_eq_of_lt below,
    BitVec.getLsbD_append, BitVec.getLsbD_or, BitVec.getLsbD_shiftLeft,
    BitVec.getLsbD_ushiftRight]
  rcases Nat.lt_or_ge i amount with wrapped | moved <;>
    rcases Nat.lt_or_ge i 32 with low | high <;> grind

/-- A left shift or-ed with the complementary right shift is a rotation. -/
theorem shifts_rotate (word : BitVec 64) (amount : Nat) (below : amount < 64) :
    (word <<< amount) ||| (word >>> (64 - amount)) = word.rotateLeft amount := by
  rw [BitVec.rotateLeft_def, Nat.mod_eq_of_lt below]

end CuckatooMiner.WordHalves
