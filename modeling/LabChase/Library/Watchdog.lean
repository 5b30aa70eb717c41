import Mathlib.Data.List.DropRight
import Mathlib.Data.Nat.Basic

/-!
# Watchdogs

A watchdog counts ticks.  At every `period`-th tick it takes one from an 8-bit number of periods that are left, and
the event it watches for reloads that number and clears the count.  While periods are left the number never wraps:
it is the initial one less the periods that have passed (`Counts`), so it is zero exactly when `period` times the
initial number of ticks have been counted since the last reload (`Counts.left_eq_zero_iff`).
-/

namespace Watchdog

/-- From `init` periods the watchdog has counted `ticks`, and `left` periods are left. -/
def Counts (period : Nat) (init left : UInt8) (ticks : Nat) : Prop := left.toNat + ticks / period = init.toNat

variable {period ticks : Nat} {init left : UInt8}

theorem Counts.reload (period : Nat) (init : UInt8) : Counts period init init 0 := by
  rw [Counts, Nat.zero_div, Nat.add_zero]

theorem Counts.left_eq_zero_iff (h : Counts period init left ticks) (hp : 0 < period) :
    left = 0 ↔ period * init.toNat ≤ ticks := by
  unfold Counts at h
  rw [← UInt8.toNat_inj, Nat.mul_comm, ← Nat.le_div_iff_mul_le hp]
  have h0 : (0 : UInt8).toNat = 0 := rfl
  generalize ticks / period = passed at h ⊢
  omega

theorem Counts.left_le (h : Counts period init left ticks) : left ≤ init := by
  have hle : left.toNat ≤ left.toNat + ticks / period := Nat.le_add_right ..
  rw [show left.toNat + ticks / period = init.toNat from h] at hle
  exact hle

/-- A tick while a period is left takes one from a positive number. -/
theorem Counts.tick (h : Counts period init left ticks) (hleft : 0 < left) :
    Counts period init (if (ticks + 1) % period = 0 then left - 1 else left) (ticks + 1) := by
  unfold Counts at h ⊢
  have hpos : 0 < left.toNat := hleft
  by_cases hdue : (ticks + 1) % period = 0
  · have hdiv : (ticks + 1) / period = ticks / period + 1 := Nat.succ_div_of_dvd (Nat.dvd_of_mod_eq_zero hdue)
    have hsub : (left - 1).toNat = left.toNat - 1 := UInt8.toNat_sub_of_le left 1 hleft
    rw [if_pos hdue, hdiv, hsub]
    omega
  · have hdiv : (ticks + 1) / period = ticks / period :=
      Nat.succ_div_of_not_dvd fun hdvd => hdue (Nat.mod_eq_zero_of_dvd hdvd)
    rw [if_neg hdue, hdiv]
    exact h

/-! ### What has come since the last event -/

section Since

variable {ι : Type*} (p : ι → Bool)

/-- The inputs that came after the last one with the property. -/
def afterLast (is : List ι) : List ι := is.rtakeWhile fun i => !p i

/-- The inputs from the last one with the property on. -/
def fromLast (is : List ι) : List ι := (is.rdropWhile fun i => !p i).getLast?.toList ++ afterLast p is

variable {p} {i : ι}

theorem afterLast_concat_pos (h : p i) (is : List ι) : afterLast p (is ++ [i]) = [] :=
  List.rtakeWhile_concat_neg _ _ _ (by simp [h])

theorem afterLast_concat_neg (h : ¬ p i) (is : List ι) : afterLast p (is ++ [i]) = afterLast p is ++ [i] :=
  List.rtakeWhile_concat_pos _ _ _ (by simp [h])

theorem fromLast_concat_pos (h : p i) (is : List ι) : fromLast p (is ++ [i]) = [i] := by
  rw [fromLast, afterLast_concat_pos h, List.rdropWhile_concat_neg _ _ _ (by simp [h]), List.getLast?_concat]
  rfl

theorem fromLast_concat_neg (h : ¬ p i) (is : List ι) : fromLast p (is ++ [i]) = fromLast p is ++ [i] := by
  rw [fromLast, afterLast_concat_neg h, List.rdropWhile_concat_pos _ _ _ (by simp [h]), ← List.append_assoc,
    fromLast]

end Since

end Watchdog
