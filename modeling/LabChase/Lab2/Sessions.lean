import LabChase.Lab2.Frequency
import LabChase.Library.BitFields
import LabChase.Library.Runs

/-!
# Sequences of calls to the timer

`timer_test_time_base` and `timer_test_read_config` may be called in any order, with any timer and any frequency.  What
they do to the chip is what they would do to three plain timers, each with a configuration and a divisor or none
(`session_refines`): the bytes latched in the chip, the order of the bytes of a count and the old contents of the
locals leave no trace, except for the mode that a call with a wrong timer programs.  With right timers the mode and the
base always stay, and the last call for a timer decides its divisor (`session_last_call`).
-/

namespace LabChase.Lab2

open BitFields I8254 Runs

/-- `enum timer_status_field`. -/
inductive TimerStatusField where
  | all | initial | mode | base
  deriving DecidableEq, Repr

/-- `union timer_status_field_val`, by the member that was assigned. -/
inductive TimerStatusFieldVal where
  | byte (b : UInt8)
  | inMode (m : UInt8)
  | countMode (m : UInt8)
  | bcd (b : Bool)
  deriving DecidableEq, Repr

/-- A call of `timer_print_config`. -/
structure PrintConfig where
  timer : UInt8
  field : TimerStatusField
  value : TimerStatusFieldVal
  deriving DecidableEq, Repr

/-- `timer_display_conf`, which prints once and returns `0`. -/
def timerDisplayConf (timer st : UInt8) (field : TimerStatusField) : PrintConfig :=
  let countingMode := (st &&& 0x0E) >>> 1
  let f : TimerStatusFieldVal :=
    match field with
    | .all => .byte st
    | .initial => .inMode ((st &&& 0x30) >>> 4)
    | .mode =>
      if countingMode = 2 ∨ countingMode = 6 then .countMode 2
      else if countingMode = 3 ∨ countingMode = 7 then .countMode 3
      else .countMode countingMode
    | .base => .bcd (st &&& 0x01 != 0)
  ⟨timer, field, f⟩

/-- `timer_test_read_config`; `b` is what the local holds before it is assigned. -/
def timerTestReadConfig (timer : UInt8) (field : TimerStatusField) (b : UInt8) (p : Ports) : Ports × List PrintConfig :=
  let (_, b, p) := timerGetConf timer b p
  (p, [timerDisplayConf timer b field])

/-- A call, with the contents of the local it leaves unassigned if the timer is wrong. -/
inductive TimerCall where
  | timeBase (timer : UInt8) (freq : UInt32) (initialConf : UInt8)
  | readConfig (timer : UInt8) (field : TimerStatusField) (b : UInt8)

def TimerCall.timer : TimerCall → UInt8
  | .timeBase timer _ _ => timer
  | .readConfig timer _ _ => timer

def TimerCall.run (p : Ports) : TimerCall → Ports × List PrintConfig
  -- `timer_test_time_base` is `timer_set_frequency`
  | .timeBase timer freq initialConf => ((timerSetFrequency timer freq initialConf p).2, [])
  | .readConfig timer field b => timerTestReadConfig timer field b p

/-! ### Plain timers -/

/-- A timer as its user sees it; without a divisor it is stopped. -/
structure PlainTimer where
  access : Access
  mode : Fin 8
  bcd : Bool
  out : Bool
  divisor : Option UInt16

namespace PlainTimer

/-- The timer stops and waits for a divisor of two bytes. -/
def stop (mode : Fin 8) (bcd : Bool) : PlainTimer := ⟨.lsbMsb, mode, bcd, mode.val ≠ 0, none⟩

/-- The modes `6` and `7` are other names of `2` and `3`. -/
def shownMode (mode : Fin 8) : UInt8 :=
  if mode.val = 2 ∨ mode.val = 6 then 2 else if mode.val = 3 ∨ mode.val = 7 then 3 else UInt8.ofNat mode.val

def shown (t : PlainTimer) : TimerStatusField → TimerStatusFieldVal
  | .all =>
    .byte (UInt8.ofNat (t.out.toNat * 128 + t.divisor.isNone.toNat * 64 + t.access.code * 16 + t.mode.val * 2 +
      t.bcd.toNat))
  | .initial => .inMode (UInt8.ofNat t.access.code)
  | .mode => .countMode (shownMode t.mode)
  | .base => .bcd t.bcd

end PlainTimer

/-- The timer of a right number, one of `0`, `1` and `2`. -/
def rightTimer (timer : UInt8) : Option (Fin 3) := if h : timer < 3 then some ⟨timer.toNat, h⟩ else none

/-- The timer a control word for the number selects: its two low bits count. -/
def selectedTimer (timer : UInt8) : Option (Fin 3) := if h : timer.toNat % 4 < 3 then some ⟨_, h⟩ else none

/-- A call to the plain timers. -/
def PlainTimer.call (ts : Fin 3 → PlainTimer) : TimerCall → (Fin 3 → PlainTimer) × List PrintConfig
  | .timeBase timer freq initialConf =>
    match rightTimer timer, selectedTimer timer with
    | some i, _ =>
      let divisor := if freq < 18 then none else some (timerFreq / freq).toUInt16
      (Function.update ts i { stop (ts i).mode (ts i).bcd with divisor := divisor }, [])
    -- the mode and the base come from the unassigned local
    | none, some i => (Function.update ts i (stop (modeOf initialConf) (bcdOf initialConf)), [])
    | none, none => (ts, [])
  | .readConfig timer field b =>
    match rightTimer timer with
    | some i => (ts, [⟨timer, field, (ts i).shown field⟩])
    | none => (ts, [timerDisplayConf timer b field])

/-- The plain timer in a counter. -/
def plain (c : Counter) : PlainTimer := ⟨c.access, c.mode, c.bcd, c.out, c.running⟩

/-! ### What is displayed -/

private theorem toNat_mode_bits (st : UInt8) : ((st &&& 0x0E) >>> 1).toNat = (modeOf st).val := by
  rw [UInt8.toNat_shiftRight, UInt8.toNat_and]
  exact shiftRight_and_mask 1 3 st.toNat

private theorem toNat_access_bits (st : UInt8) : ((st &&& 0x30) >>> 4).toNat = st.toNat / 16 % 4 := by
  rw [UInt8.toNat_shiftRight, UInt8.toNat_and]
  exact shiftRight_and_mask 4 2 st.toNat

private theorem bcd_bit (st : UInt8) : (st &&& 0x01 != 0) = bcdOf st := by
  have hbit : (st &&& 0x01).toNat = st.toNat % 2 := by
    rw [UInt8.toNat_and]
    exact Nat.and_two_pow_sub_one_eq_mod st.toNat 1
  have hzero : st &&& 0x01 = 0 ↔ st.toNat % 2 = 0 := by
    rw [← UInt8.toNat_inj, hbit]
    rfl
  rw [bcdOf, Bool.eq_iff_iff, bne_iff_ne, ne_eq, hzero, decide_eq_true_eq]
  omega

private theorem Access.toNat_code (access : Access) : (UInt8.ofNat access.code).toNat = access.code := by
  cases access <;> rfl

/-- The display of a status byte is that of the timer in the counter. -/
private theorem timerDisplayConf_status (timer : UInt8) (c : Counter) (field : TimerStatusField) :
    timerDisplayConf timer c.status field = ⟨timer, field, (plain c).shown field⟩ := by
  cases field with
  | all =>
    have hwaiting : c.running.isNone = c.waiting := by
      rw [Counter.running]
      cases c.waiting <;> rfl
    simp only [timerDisplayConf, PlainTimer.shown, plain, hwaiting, Counter.status]
  | initial =>
    have hcode : (c.status &&& 0x30) >>> 4 = UInt8.ofNat c.access.code := by
      apply UInt8.toNat_inj.1
      have hmode := c.mode.isLt
      have hbcd := c.bcd.toNat_le
      have haccess : c.access.code ≤ 3 := by cases c.access <;> decide
      rw [toNat_access_bits, c.status_toNat, Access.toNat_code]
      omega
    simp only [timerDisplayConf, PlainTimer.shown, hcode, plain]
  | mode =>
    have hmode : (c.status &&& 0x0E) >>> 1 = UInt8.ofNat c.mode.val := by
      have hlt := c.mode.isLt
      apply UInt8.toNat_inj.1
      rw [toNat_mode_bits, modeOf_status, UInt8.toNat_ofNat']
      omega
    have hshown : ∀ m : Fin 8, (if UInt8.ofNat m.val = 2 ∨ UInt8.ofNat m.val = 6 then TimerStatusFieldVal.countMode 2
        else if UInt8.ofNat m.val = 3 ∨ UInt8.ofNat m.val = 7 then .countMode 3 else .countMode (UInt8.ofNat m.val)) =
        .countMode (PlainTimer.shownMode m) := by decide
    simp only [timerDisplayConf, PlainTimer.shown, hmode, plain, hshown]
  | base => simp only [timerDisplayConf, PlainTimer.shown, bcd_bit, bcdOf_status, plain]

/-! ### One call -/

private theorem rightTimer_timerOf (i : Fin 3) : rightTimer (timerOf i) = some i := by
  fin_cases i <;> rfl

private theorem rightTimer_none {timer : UInt8} (h : ¬ timer < 3) : rightTimer timer = none := dif_neg h

private theorem timerGetConf_wrong {timer : UInt8} (h : ¬ timer < 3) (st : UInt8) (p : Ports) :
    timerGetConf timer st p = (1, st, p) := by
  have h0 : timer ≠ 0 := fun h0 => h (by rw [h0]; decide)
  have h1 : timer ≠ 1 := fun h1 => h (by rw [h1]; decide)
  have h2 : timer ≠ 2 := fun h2 => h (by rw [h2]; decide)
  simp only [timerGetConf, h0, h1, h2, ↓reduceIte]

theorem NothingLatched.update {chip : Chip} (h : NothingLatched chip) {i : Fin 3} {c : Counter}
    (hc : c.statusLatch = none ∧ c.countLatch = []) : NothingLatched (Function.update chip i c) := by
  intro j
  by_cases hj : j = i
  · subst hj
    rw [Function.update_self]
    exact hc
  · rw [Function.update_of_ne hj]
    exact h j

private theorem plain_update (chip : Chip) (i : Fin 3) (c : Counter) :
    (fun j => plain (Function.update chip i c j)) = Function.update (fun j => plain (chip j)) i (plain c) := by
  funext j
  by_cases hj : j = i
  · subst hj
    rw [Function.update_self, Function.update_self]
  · rw [Function.update_of_ne hj, Function.update_of_ne hj]

private theorem plain_program (c : Counter) (mode : Fin 8) (bcd : Bool) :
    plain (c.program .lsbMsb mode bcd) = PlainTimer.stop mode bcd := by
  have hout : decide (mode ≠ 0) = decide (mode.val ≠ 0) := decide_eq_decide.2 (not_congr Fin.ext_iff)
  simp only [plain, Counter.program, PlainTimer.stop, hout]
  rfl

private theorem plain_reprogrammed {c : Counter} (h : c.statusLatch = none) :
    plain (reprogrammed c) = PlainTimer.stop c.mode c.bcd := by
  have hconf : confOf c = c.status := by rw [confOf, h, Option.getD_none]
  rw [reprogrammed, plain_program, hconf, modeOf_status, bcdOf_status]

private theorem plain_load (c : Counter) (n : UInt16) :
    plain (c.load n.toNat) = { plain c with divisor := some n } := by
  simp only [plain, Counter.load, Counter.running, UInt16.ofNat_toNat, Bool.false_eq_true, ↓reduceIte]

/-- A call does to the chip what it does to the plain timers, prints the same, and leaves nothing latched. -/
private theorem call_simulates (p : Ports) (call : TimerCall) (h : NothingLatched p.chip) :
    NothingLatched (call.run p).1.chip ∧
      PlainTimer.call (fun i => plain (p.chip i)) call = (fun i => plain ((call.run p).1.chip i), (call.run p).2) := by
  cases call with
  | timeBase timer freq conf =>
    simp only [TimerCall.run, PlainTimer.call]
    by_cases hright : timer < 3
    · obtain ⟨i, rfl⟩ := exists_timerOf hright
      rw [rightTimer_timerOf]
      have hlatch : (reprogrammed (p.chip i)).statusLatch = none ∧ (reprogrammed (p.chip i)).countLatch = [] :=
        ⟨rfl, rfl⟩
      by_cases hfreq : freq < 18
      · obtain ⟨-, hchip⟩ := timerSetFrequency_low i hfreq conf p
        rw [hchip, plain_update, plain_reprogrammed (h i).1]
        simp only [hfreq, ↓reduceIte]
        exact ⟨h.update hlatch, rfl⟩
      · rw [timerSetFrequency_accepted i hfreq]
        simp only [hfreq, ↓reduceIte]
        rw [plain_update, plain_load, plain_reprogrammed (h i).1]
        exact ⟨h.update hlatch, rfl⟩
    · obtain ⟨-, hchip⟩ := timerSetFrequency_range hright freq conf p
      rw [rightTimer_none hright, hchip]
      by_cases h3 : timer.toNat % 4 < 3
      · have hselected : selectedTimer timer = some ⟨timer.toNat % 4, h3⟩ := dif_pos h3
        rw [hselected, writeControl_controlW (i := ⟨timer.toNat % 4, h3⟩) rfl, plain_update, plain_program]
        exact ⟨h.update ⟨(h _).1, rfl⟩, rfl⟩
      · have hselected : selectedTimer timer = none := dif_neg h3
        rw [hselected, writeControl_controlW_readBack (by omega)]
        exact ⟨h, rfl⟩
  | readConfig timer field b =>
    simp only [TimerCall.run, PlainTimer.call, timerTestReadConfig]
    by_cases hright : timer < 3
    · obtain ⟨i, rfl⟩ := exists_timerOf hright
      rw [rightTimer_timerOf, timerGetConf_timerOf, readConf_eq, (h i).1, Option.getD_none]
      simp only [timerDisplayConf_status]
      refine ⟨h.update ⟨rfl, (h i).2⟩, ?_⟩
      rw [plain_update]
      exact congrArg (·, _) (Function.update_eq_self i _).symm
    · rw [rightTimer_none hright, timerGetConf_wrong hright]
      exact ⟨h, rfl⟩

/-! ### Sequences of calls -/

/-- The chip after the calls. -/
def session (p : Ports) (calls : List TimerCall) : Ports := run (fun p call => (call.run p).1) p calls

/-- If nothing is latched at the beginning, any sequence of calls leaves the counters as it leaves the plain timers, and
displays the same. -/
theorem session_refines {p : Ports} (h : NothingLatched p.chip) (calls : List TimerCall) :
    (∀ i, plain ((session p calls).chip i) =
        run (fun ts call => (PlainTimer.call ts call).1) (fun i => plain (p.chip i)) calls i) ∧
      outputs TimerCall.run p calls = outputs PlainTimer.call (fun i => plain (p.chip i)) calls := by
  obtain ⟨hrun, hout⟩ := run_simulates (I := fun p : Ports => NothingLatched p.chip) call_simulates h calls
  exact ⟨fun i => (congrFun hrun i).symm, hout.symm⟩

/-- At 60 Hz the divisor is 19886; a call for timer 7 stops no timer, one for timer 5 stops timer 1. -/
theorem session_refines_mixed :
    let calls := [TimerCall.timeBase 0 60 0, .timeBase 7 60 0, .timeBase 5 60 0x36, .readConfig 1 .mode 0]
    (∀ i, plain ((session ⟨runningChip, []⟩ calls).chip i) =
        run (fun ts call => (PlainTimer.call ts call).1) (fun i => plain (runningChip i)) calls i) ∧
      outputs TimerCall.run ⟨runningChip, []⟩ calls = outputs PlainTimer.call (fun i => plain (runningChip i)) calls :=
  session_refines (p := ⟨runningChip, []⟩) (fun _ => ⟨rfl, rfl⟩) _

/-- What a call for a right timer does to the divisor of timer `i`: nothing, or it stops the timer, or it sets one. -/
def newDivisor (i : Fin 3) : TimerCall → Option (Option UInt16)
  | .timeBase timer freq _ =>
    if timer = timerOf i then some (if freq < 18 then none else some (timerFreq / freq).toUInt16) else none
  | .readConfig _ _ _ => none

private theorem plain_call_right (ts : Fin 3 → PlainTimer) {call : TimerCall} (h : call.timer < 3) (i : Fin 3) :
    ((PlainTimer.call ts call).1 i).mode = (ts i).mode ∧ ((PlainTimer.call ts call).1 i).bcd = (ts i).bcd ∧
      ((PlainTimer.call ts call).1 i).divisor = (newDivisor i call).getD (ts i).divisor := by
  obtain ⟨j, hj⟩ := exists_timerOf h
  cases call with
  | readConfig timer field b =>
    obtain rfl : timer = timerOf j := hj
    simp [PlainTimer.call, rightTimer_timerOf, newDivisor]
  | timeBase timer freq conf =>
    obtain rfl : timer = timerOf j := hj
    simp only [PlainTimer.call, rightTimer_timerOf]
    by_cases hij : i = j
    · subst hij
      simp [PlainTimer.stop, newDivisor]
    · have hne : timerOf j ≠ timerOf i := by
        intro heq
        have hnum := congrArg (·.toNat % 4) heq
        simp only [timerOf_toNat] at hnum
        exact hij (Fin.ext hnum.symm)
      simp [hij, newDivisor, hne]

/-- After any sequence of calls for right timers each timer has the mode and the base it had, and the divisor of the
last call for it; it is stopped if that call was refused. -/
theorem session_last_call {p : Ports} (h : NothingLatched p.chip) {calls : List TimerCall}
    (hright : ∀ call ∈ calls, call.timer < 3) (i : Fin 3) :
    ((session p calls).chip i).mode = (p.chip i).mode ∧ ((session p calls).chip i).bcd = (p.chip i).bcd ∧
      ((session p calls).chip i).running = (calls.reverse.findSome? (newDivisor i)).getD (p.chip i).running := by
  have hplain : ∀ ts : Fin 3 → PlainTimer,
      let ts' := run (fun ts call => (PlainTimer.call ts call).1) ts calls
      (ts' i).mode = (ts i).mode ∧ (ts' i).bcd = (ts i).bcd ∧
        (ts' i).divisor = (calls.reverse.findSome? (newDivisor i)).getD (ts i).divisor := by
    intro ts
    induction calls using List.reverseRecOn with
    | nil => exact ⟨rfl, rfl, rfl⟩
    | append_singleton calls call ih =>
      obtain ⟨hmode, hbcd, hdivisor⟩ := ih fun call hcall => hright call (List.mem_append_left _ hcall)
      obtain ⟨hmode', hbcd', hdivisor'⟩ := plain_call_right
        (run (fun ts call => (PlainTimer.call ts call).1) ts calls)
        (hright call (List.mem_append_right _ (List.mem_singleton_self call))) i
      simp only [run_concat, List.reverse_append, List.reverse_singleton, List.singleton_append,
        List.findSome?_cons]
      refine ⟨hmode'.trans hmode, hbcd'.trans hbcd, hdivisor'.trans ?_⟩
      cases newDivisor i call with
      | none => exact hdivisor
      | some divisor => rfl
  have hrun := (run_simulates (I := fun p : Ports => NothingLatched p.chip) call_simulates h calls).1
  have hlast := hplain fun i => plain (p.chip i)
  simp only [hrun] at hlast
  exact hlast

theorem session_last_call_refused :
    ((session ⟨runningChip, []⟩ [.timeBase 0 60 0, .timeBase 0 17 0, .readConfig 0 .base 0]).chip 0).running = none :=
  (session_last_call (p := ⟨runningChip, []⟩) (fun _ => ⟨rfl, rfl⟩) (by decide) 0).2.2

end LabChase.Lab2
