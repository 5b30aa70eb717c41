import LabChase.Library.Loops

/-!
# Counting the seconds (`lab2.c`)

`timer_test_int` prints once for every 60 timer interrupts and leaves after `time` prints.  The interrupts are counted
in a global that nothing ever resets, but a call that has left its loop leaves a multiple of 60 in it.  So every call,
the first as any later one, lasts for exactly `60 * time` interrupts (`test_int_exact`).
-/

namespace LabChase.Lab2

open Runs Loops

/-- What a call of `driver_receive` yields. -/
inductive Receive where
  | failed
  | other
  | hardware (interrupts : UInt32)
  deriving DecidableEq, Repr

/-- The bit of the timer, which `timer_subscribe_int` makes bit 0. -/
def Receive.timer : Receive → Bool
  | .hardware interrupts => interrupts &&& 0x1 != 0
  | _ => false

/-- A call of `timer_print_elapsed_time`. -/
inductive PrintElapsedTime where
  | print
  deriving DecidableEq, Repr

/-- The local `time` and the global `totalInterrupts`.  The global is a signed `int`; the number is its value as long as
fewer than `2 ^ 31` timer interrupts were counted since the program started. -/
structure TestInt where
  time : UInt8
  totalInterrupts : Nat

def timerIntHandler (s : TestInt) : TestInt := { s with totalInterrupts := s.totalInterrupts + 1 }

/-- The body of the loop of `timer_test_int`. -/
def testIntBody (s : TestInt) : Receive → TestInt × List PrintElapsedTime
  | .failed => (s, [])
  | .other => (s, [])
  | .hardware interrupts =>
    if interrupts &&& 0x1 != 0 then
      let s := timerIntHandler s
      if s.totalInterrupts % 60 = 0 then ({ s with time := s.time - 1 }, [.print]) else (s, [])
    else (s, [])

/-- The condition of the loop. -/
def TestIntWaits (s : TestInt) : Prop := s.time > 0

instance : DecidablePred TestIntWaits := fun s => inferInstanceAs (Decidable (s.time > 0))

/-- A call of `timer_test_int`, when `totalInterrupts` is `count`. -/
def testIntFinal (time : UInt8) (count : Nat) (rs : List Receive) : TestInt :=
  final TestIntWaits testIntBody ⟨time, count⟩ rs

def testIntWritten (time : UInt8) (count : Nat) (rs : List Receive) : List PrintElapsedTime :=
  written TestIntWaits testIntBody ⟨time, count⟩ rs

/-- The global after some calls, each with what it receives. -/
def countAfter : Nat → List (UInt8 × List Receive) → Nat
  | count, [] => count
  | count, (time, rs) :: calls => countAfter (testIntFinal time count rs).totalInterrupts calls

/-- Each of the calls leaves its loop. -/
def AllLeave : Nat → List (UInt8 × List Receive) → Prop
  | _, [] => True
  | count, (time, rs) :: calls =>
    ¬ TestIntWaits (testIntFinal time count rs) ∧ AllLeave (testIntFinal time count rs).totalInterrupts calls

instance : (count : Nat) → (calls : List (UInt8 × List Receive)) → Decidable (AllLeave count calls)
  | _, [] => .isTrue trivial
  | count, (time, rs) :: calls =>
    haveI : Decidable (AllLeave (testIntFinal time count rs).totalInterrupts calls) :=
      instDecidableAllLeave (testIntFinal time count rs).totalInterrupts calls
    inferInstanceAs (Decidable (_ ∧ _))

/-! ### One turn of the loop -/

private theorem testIntBody_totalInterrupts (s : TestInt) (r : Receive) :
    (testIntBody s r).1.totalInterrupts = s.totalInterrupts + if r.timer then 1 else 0 := by
  cases r with
  | failed => rfl
  | other => rfl
  | hardware interrupts =>
    rw [testIntBody, Receive.timer]
    by_cases ht : interrupts &&& 0x1 != 0
    · rw [if_pos ht, if_pos ht]
      by_cases hdue : (s.totalInterrupts + 1) % 60 = 0
      · simp only [timerIntHandler, hdue, ↓reduceIte]
      · simp only [timerIntHandler, hdue, ↓reduceIte]
    · rw [if_neg ht, if_neg ht]
      rfl

/-- While the loop runs, a print is what takes one from `time`, at every multiple of 60. -/
private theorem testIntBody_time {s : TestInt} (hs : TestIntWaits s) (r : Receive) :
    (testIntBody s r).1.time.toNat + (testIntBody s r).2.length = s.time.toNat ∧
      (testIntBody s r).1.time.toNat + (testIntBody s r).1.totalInterrupts / 60 =
        s.time.toNat + s.totalInterrupts / 60 := by
  have hpos : 0 < s.time.toNat := hs
  have hsub : (s.time - 1).toNat = s.time.toNat - 1 := UInt8.toNat_sub_of_le s.time 1 hs
  cases r with
  | failed => exact ⟨rfl, rfl⟩
  | other => exact ⟨rfl, rfl⟩
  | hardware interrupts =>
    rw [testIntBody]
    by_cases ht : interrupts &&& 0x1 != 0
    · rw [if_pos ht]
      by_cases hdue : (s.totalInterrupts + 1) % 60 = 0
      · simp only [timerIntHandler, hdue, ↓reduceIte, hsub, List.length_singleton]
        omega
      · simp only [timerIntHandler, hdue, ↓reduceIte, List.length_nil]
        omega
    · rw [if_neg ht]
      exact ⟨rfl, rfl⟩

/-! ### One call -/

/-- What is true of a state of the loop and the receives since the call began. -/
structure Counted (time : UInt8) (count : Nat) (rs : List Receive) (s : TestInt) : Prop where
  total : s.totalInterrupts = count + rs.countP Receive.timer
  left : s.time.toNat + s.totalInterrupts / 60 = time.toNat + count / 60

theorem Counted.step {time : UInt8} {count : Nat} (pre : List Receive) (r : Receive) (s : TestInt)
    (h : Counted time count pre s) (hs : TestIntWaits s) : Counted time count (pre ++ [r]) (testIntBody s r).1 where
  total := by
    rw [testIntBody_totalInterrupts, h.total, List.countP_append, List.countP_singleton, Nat.add_assoc]
  left := (testIntBody_time hs r).2.trans h.left

private theorem Counted.waits_iff {time : UInt8} {count : Nat} (hcount : count % 60 = 0) {rs : List Receive}
    {s : TestInt} (h : Counted time count rs s) : TestIntWaits s ↔ ¬ 60 * time.toNat ≤ rs.countP Receive.timer := by
  obtain ⟨htotal, hleft⟩ := h
  have hpos : TestIntWaits s ↔ 0 < s.time.toNat := Iff.rfl
  rw [hpos]
  omega

private theorem counted_final (time : UInt8) (count : Nat) (rs : List Receive) :
    Counted time count (taken TestIntWaits testIntBody ⟨time, count⟩ rs) (testIntFinal time count rs) :=
  taken_invariant (I := Counted time count) Counted.step ⟨rfl, rfl⟩ rs _ List.prefix_rfl

/-- A call that leaves its loop leaves a multiple of 60, if it found one. -/
private theorem testIntFinal_count {time : UInt8} {count : Nat} (hcount : count % 60 = 0) {rs : List Receive}
    (hleft : ¬ TestIntWaits (testIntFinal time count rs)) : (testIntFinal time count rs).totalInterrupts % 60 = 0 := by
  -- before its last turn the loop was still waiting
  have hrun : ∀ pre, pre <+: taken TestIntWaits testIntBody ⟨time, count⟩ rs →
      let s := run (fun s r => (testIntBody s r).1) ⟨time, count⟩ pre
      ¬ TestIntWaits s → s.totalInterrupts % 60 = 0 := by
    refine prefix_induction (fun _ => hcount) fun pre r hpre _ => ?_
    have hwaits := guard_of_taken hpre
    simp only [run_concat]
    generalize run (fun s r => (testIntBody s r).1) ⟨time, count⟩ pre = s at hwaits
    intro hstop
    have hpos : 0 < s.time.toNat := hwaits
    have hzero : (testIntBody s r).1.time.toNat = 0 := Nat.eq_zero_of_not_pos hstop
    have hleft := (testIntBody_time hwaits r).2
    have htotal := testIntBody_totalInterrupts s r
    split at htotal <;> omega
  exact hrun _ List.prefix_rfl hleft

private theorem length_testIntWritten (time : UInt8) (count : Nat) (rs : List Receive) :
    (testIntFinal time count rs).time.toNat + (testIntWritten time count rs).length = time.toNat := by
  have hrun : ∀ pre, pre <+: taken TestIntWaits testIntBody ⟨time, count⟩ rs →
      (run (fun s r => (testIntBody s r).1) ⟨time, count⟩ pre).time.toNat +
        (outputs testIntBody ⟨time, count⟩ pre).length = time.toNat := by
    refine prefix_induction rfl fun pre r hpre ih => ?_
    have hstep := (testIntBody_time (guard_of_taken hpre) r).1
    rw [run_concat, outputs_concat, List.length_append]
    omega
  exact hrun _ List.prefix_rfl

/-! ### A sequence of calls -/

private theorem countAfter_mod {calls : List (UInt8 × List Receive)} {count : Nat} (hcount : count % 60 = 0)
    (h : AllLeave count calls) : countAfter count calls % 60 = 0 := by
  induction calls generalizing count with
  | nil => exact hcount
  | cons call calls ih => exact ih (testIntFinal_count hcount h.1) h.2

/-- After any sequence of calls that have left their loops, the next one leaves at the `60 * time`-th timer interrupt it
receives, and has printed once for every 60 of them. -/
theorem test_int_exact {calls : List (UInt8 × List Receive)} (hcalls : AllLeave 0 calls) (time : UInt8)
    (rs : List Receive) :
    LeavesAtFirst TestIntWaits testIntBody ⟨time, countAfter 0 calls⟩
        (fun rs => 60 * time.toNat ≤ rs.countP Receive.timer) rs ∧
      (testIntWritten time (countAfter 0 calls) rs).length = min time.toNat (rs.countP Receive.timer / 60) := by
  have hcount := countAfter_mod (Nat.zero_mod 60) hcalls
  generalize countAfter 0 calls = count at hcount
  have hleaves : LeavesAtFirst TestIntWaits testIntBody ⟨time, count⟩
      (fun rs => 60 * time.toNat ≤ rs.countP Receive.timer) rs :=
    leavesAtFirst_of_invariant (I := Counted time count) ⟨rfl, rfl⟩ Counted.step (fun _ _ h => h.waits_iff hcount) rs
  refine ⟨hleaves, ?_⟩
  have hlength := length_testIntWritten time count rs
  have hfinal := counted_final time count rs
  have hwaits := hfinal.waits_iff hcount
  obtain ⟨htotal, hleft⟩ := hfinal
  by_cases hw : TestIntWaits (testIntFinal time count rs)
  · -- the loop has read everything
    have hall : taken TestIntWaits testIntBody ⟨time, count⟩ rs = rs := taken_of_guard_final hw
    rw [hall] at htotal hwaits
    have hmore := hwaits.1 hw
    omega
  · have hstop : (testIntFinal time count rs).time.toNat = 0 := Nat.eq_zero_of_not_pos hw
    have henough : 60 * time.toNat ≤ (taken TestIntWaits testIntBody ⟨time, count⟩ rs).countP Receive.timer :=
      not_not.1 (mt hwaits.2 hw)
    have hle : (taken TestIntWaits testIntBody ⟨time, count⟩ rs).countP Receive.timer ≤ rs.countP Receive.timer :=
      (taken_isPrefix _ rs).sublist.countP_le
    omega

/-- The second call lasts as long as the first. -/
theorem test_int_exact_twice :
    let second := List.replicate 59 (Receive.hardware 1) ++ [.failed, .hardware 1, .hardware 1]
    (testIntWritten 1 (countAfter 0 [(1, List.replicate 61 (.hardware 1))]) second).length =
      min 1 (second.countP Receive.timer / 60) :=
  (@test_int_exact [(1, List.replicate 61 (.hardware 1))] (by decide +kernel) 1 _).2

end LabChase.Lab2
