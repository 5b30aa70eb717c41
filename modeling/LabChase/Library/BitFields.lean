import Mathlib.Tactic.Common
import Mathlib.Tactic.Positivity
import Mathlib.Tactic.Ring

/-!
# Bit fields of a number

`field lo len v` is the number that the `len` bits of `v` from bit `lo` up make.  Code cuts a field out of a word with
two shifts, one that drops the bits above and one that drops the bits below (`shiftRight_shiftLeft`), or with a mask
and a shift (`shiftRight_and_mask`), and puts a number together with a shift and an `or`, which do not disturb each
other as long as the lower number fits below the shift (`field_pack_low`, `field_pack_high`).
-/

namespace BitFields

def field (lo len v : Nat) : Nat := v / 2 ^ lo % 2 ^ len

/-- `hi` above the lowest `k` bits, which hold `low`. -/
def pack (k hi low : Nat) : Nat := hi <<< k ||| low

theorem field_lt (lo len v : Nat) : field lo len v < 2 ^ len := Nat.mod_lt _ (by positivity)

theorem field_of_lt {len v : Nat} (h : v < 2 ^ len) : field 0 len v = v := by
  rw [field, pow_zero, Nat.div_one, Nat.mod_eq_of_lt h]

/-! ### Cutting out -/

/-- In a word of `w` bits the left shift drops what is above the field, and the right shift what is below. -/
theorem shiftRight_shiftLeft {w lo len : Nat} (h : lo + len ≤ w) (v : Nat) :
    (v <<< (w - (lo + len)) % 2 ^ w) >>> (w - (lo + len) + lo) = field lo len v := by
  obtain ⟨s, rfl⟩ := Nat.exists_eq_add_of_le h
  rw [Nat.add_sub_cancel_left, Nat.shiftLeft_eq, Nat.shiftRight_eq_div_pow, field]
  calc v * 2 ^ s % 2 ^ (lo + len + s) / 2 ^ (s + lo)
      = v % 2 ^ (lo + len) * 2 ^ s / (2 ^ lo * 2 ^ s) := by
        rw [pow_add 2 (lo + len) s, Nat.mul_mod_mul_right, Nat.add_comm s lo, pow_add 2 lo s]
    _ = v % 2 ^ (lo + len) / 2 ^ lo := Nat.mul_div_mul_right _ _ (by positivity)
    _ = v / 2 ^ lo % 2 ^ len := by rw [pow_add, Nat.mod_mul_right_div_self]

/-- A mask and a shift cut out a field as well. -/
theorem shiftRight_and_mask (lo len v : Nat) : (v &&& (2 ^ len - 1) <<< lo) >>> lo = field lo len v := by
  rw [Nat.shiftRight_and_distrib, Nat.shiftLeft_shiftRight, Nat.and_two_pow_sub_one_eq_mod, Nat.shiftRight_eq_div_pow,
    field]

/-! ### Putting together -/

private theorem pack_eq_add {k low : Nat} (h : low < 2 ^ k) (hi : Nat) : pack k hi low = hi * 2 ^ k + low := by
  rw [pack, ← Nat.shiftLeft_add_eq_or_of_lt h, Nat.shiftLeft_eq]

theorem pack_lt {k n hi low : Nat} (hlow : low < 2 ^ k) (hhi : hi < 2 ^ n) : pack k hi low < 2 ^ (k + n) := by
  rw [pack_eq_add hlow, pow_add]
  have hle : (hi + 1) * 2 ^ k ≤ 2 ^ n * 2 ^ k := Nat.mul_le_mul_right _ hhi
  have hcomm : 2 ^ n * 2 ^ k = 2 ^ k * 2 ^ n := Nat.mul_comm _ _
  rw [Nat.add_mul, Nat.one_mul, hcomm] at hle
  omega

/-- A field below the shift is one of the lower number. -/
theorem field_pack_low {k low lo len : Nat} (hlow : low < 2 ^ k) (h : lo + len ≤ k) (hi : Nat) :
    field lo len (pack k hi low) = field lo len low := by
  obtain ⟨m, rfl⟩ := Nat.exists_eq_add_of_le h
  have hsplit : hi * 2 ^ (lo + len + m) = 2 ^ lo * (2 ^ len * (hi * 2 ^ m)) := by ring
  rw [pack_eq_add hlow, field, field, hsplit, Nat.mul_add_div (by positivity), Nat.mul_add_mod]

/-- A field above the shift is one of the higher number. -/
theorem field_pack_high {k low : Nat} (hlow : low < 2 ^ k) (lo len hi : Nat) :
    field (k + lo) len (pack k hi low) = field lo len hi := by
  have hdrop : (hi * 2 ^ k + low) / 2 ^ k = hi := by
    rw [Nat.mul_comm, Nat.mul_add_div (by positivity), Nat.div_eq_of_lt hlow, Nat.add_zero]
  rw [pack_eq_add hlow, field, field, pow_add, ← Nat.div_div_eq_div_mul, hdrop]

/-- The field right above the shift is at bit 0 of the higher number. -/
theorem field_pack_next {k low : Nat} (hlow : low < 2 ^ k) (len hi : Nat) :
    field k len (pack k hi low) = field 0 len hi := field_pack_high hlow 0 len hi

/-- Two shifts of one `or` are one shift of the packed numbers. -/
theorem pack_pack (j k hi mid low : Nat) : pack k (pack j hi mid) low = hi <<< (k + j) ||| mid <<< k ||| low := by
  rw [pack, pack, Nat.shiftLeft_or_distrib, ← Nat.shiftLeft_add, Nat.add_comm j k]

end BitFields
