import LabChase.Lab2.Timer

/-!
# What `timer_set_frequency` does to the chip

Three equations say all that a call can do: it is accepted (`timerSetFrequency_accepted`), it is refused for the
frequency, after the control word was written (`timerSetFrequency_low`), or for the timer, after a control word for the
timer modulo 4 (`timerSetFrequency_range`).
-/

namespace LabChase.Lab2

open I8254

/-- The timer with the number `i`. -/
def timerOf (i : Fin 3) : UInt8 := UInt8.ofNat i.val

/-- What `timer_get_conf` finds in a counter. -/
def confOf (c : Counter) : UInt8 := c.statusLatch.getD c.status

/-- A counter after `timer_get_conf` and the control word of `timer_set_frequency`. -/
def reprogrammed (c : Counter) : Counter :=
  Counter.program .lsbMsb (modeOf (confOf c)) (bcdOf (confOf c)) { c with statusLatch := none }

theorem exists_timerOf {timer : UInt8} (h : timer < 3) : ∃ i, timer = timerOf i := by
  have hlt : timer.toNat < 3 := UInt8.lt_iff_toNat_lt.1 h
  refine ⟨⟨timer.toNat, hlt⟩, ?_⟩
  simp [timerOf]

theorem timerOf_toNat (i : Fin 3) : (timerOf i).toNat % 4 = i.val := by
  fin_cases i <;> rfl

theorem timerGetConf_timerOf (i : Fin 3) (st : UInt8) (p : Ports) : timerGetConf (timerOf i) st p = readConf i p := by
  fin_cases i <;> rfl

/-- The ports after `timer_get_conf` and the control word. -/
private theorem control_timerOf (i : Fin 3) (p : Ports) :
    (writeControl (timerOf i <<< 6 ||| timerLsbMsb ||| (confOf (p.chip i) &&& 0x0F))
      (Function.update p.chip i { p.chip i with statusLatch := none })) =
      Function.update p.chip i (reprogrammed (p.chip i)) := by
  rw [writeControl_controlW (timerOf_toNat i), Function.update_self, Function.update_idem]
  rfl

/-- An accepted call loads the quotient, truncated to 16 bits, into the reprogrammed counter. -/
theorem timerSetFrequency_accepted (i : Fin 3) {freq : UInt32} (hfreq : ¬ freq < 18) (conf : UInt8) (p : Ports) :
    timerSetFrequency (timerOf i) freq conf p =
      (0,
        { chip := Function.update p.chip i ((reprogrammed (p.chip i)).load (timerFreq / freq).toUInt16.toNat)
          written := p.written ++ [(timerCtrl, timerRbCmd ||| timerRbCount ||| timerRbSel i),
            (timerCtrl, timerOf i <<< 6 ||| timerLsbMsb ||| (confOf (p.chip i) &&& 0x0F)),
            (timerPort i, utilGetLSB (timerFreq / freq).toUInt16),
            (timerPort i, utilGetMSB (timerFreq / freq).toUInt16)] }) := by
  have hport : (if timerOf i = 0 then some (timerPort 0) else if timerOf i = 1 then some (timerPort 1)
      else if timerOf i = 2 then some (timerPort 2) else none) = some (timerPort i) := by
    fin_cases i <;> rfl
  have hdivisor : (utilGetLSB (timerFreq / freq).toUInt16).toNat +
      (utilGetMSB (timerFreq / freq).toUInt16).toNat * 256 =
      (timerFreq / freq).toUInt16.toNat := by
    rw [utilGetLSB_toNat, utilGetMSB_toNat]
    omega
  have hwrite : ((reprogrammed (p.chip i)).write (utilGetLSB (timerFreq / freq).toUInt16)).write
      (utilGetMSB (timerFreq / freq).toUInt16) =
      (reprogrammed (p.chip i)).load (timerFreq / freq).toUInt16.toNat := by
    rw [Counter.write_write rfl rfl, hdivisor]
  have hcontrol := control_timerOf i p
  rw [confOf] at hcontrol
  simp only [timerSetFrequency, timerGetConf_timerOf, readConf_eq, sysOutb_ctrl, hport, hfreq, ↓reduceIte, sysOutb_port,
    writeCounter, hcontrol, Function.update_self, Function.update_idem, hwrite, confOf, List.append_assoc,
    List.cons_append, List.nil_append]

/-- A call refused for its frequency leaves the counter reprogrammed. -/
theorem timerSetFrequency_low (i : Fin 3) {freq : UInt32} (hfreq : freq < 18) (conf : UInt8) (p : Ports) :
    (timerSetFrequency (timerOf i) freq conf p).1 = 1 ∧
      (timerSetFrequency (timerOf i) freq conf p).2.chip = Function.update p.chip i (reprogrammed (p.chip i)) := by
  have hport : (if timerOf i = 0 then some (timerPort 0) else if timerOf i = 1 then some (timerPort 1)
      else if timerOf i = 2 then some (timerPort 2) else none) = some (timerPort i) := by
    fin_cases i <;> rfl
  have hcontrol := control_timerOf i p
  rw [confOf] at hcontrol
  simp only [timerSetFrequency, timerGetConf_timerOf, readConf_eq, sysOutb_ctrl, hport, hfreq, ↓reduceIte, hcontrol,
    and_self]

/-- A call refused for its timer has written the control word for the timer modulo 4. -/
theorem timerSetFrequency_range {timer : UInt8} (h : ¬ timer < 3) (freq : UInt32) (conf : UInt8) (p : Ports) :
    (timerSetFrequency timer freq conf p).1 = 1 ∧
      (timerSetFrequency timer freq conf p).2.chip =
        writeControl (timer <<< 6 ||| timerLsbMsb ||| (conf &&& 0x0F)) p.chip := by
  have h0 : timer ≠ 0 := fun h0 => h (by rw [h0]; decide)
  have h1 : timer ≠ 1 := fun h1 => h (by rw [h1]; decide)
  have h2 : timer ≠ 2 := fun h2 => h (by rw [h2]; decide)
  simp only [timerSetFrequency, timerGetConf, h0, h1, h2, ↓reduceIte, sysOutb_ctrl, and_self]

/-! ### An accepted frequency -/

/-- The bytes written to the port of a timer, in order. -/
def countBytes (timer : UInt8) (written : List (UInt8 × UInt8)) : List UInt8 :=
  written.filterMap fun write => if write.1 = 0x40 + timer then some write.2 else none

private theorem accepted_iff (i : Fin 3) (freq : UInt32) (conf : UInt8) (p : Ports) :
    (timerSetFrequency (timerOf i) freq conf p).1 = 0 ↔ ¬ freq < 18 := by
  by_cases hfreq : freq < 18
  · simp [timerSetFrequency_low i hfreq conf p, hfreq]
  · simp [timerSetFrequency_accepted i hfreq conf p, hfreq]

private theorem countBytes_accepted (i : Fin 3) {freq : UInt32} (hfreq : ¬ freq < 18) (conf : UInt8) (chip : Chip) :
    countBytes (timerOf i) (timerSetFrequency (timerOf i) freq conf ⟨chip, []⟩).2.written =
      [utilGetLSB (timerFreq / freq).toUInt16, utilGetMSB (timerFreq / freq).toUInt16] := by
  rw [timerSetFrequency_accepted i hfreq]
  fin_cases i <;> rfl

/-- The divisor, as far as it fits in 16 bits. -/
private theorem divisor_toNat (freq : UInt32) : (timerFreq / freq).toUInt16.toNat = 1193182 / freq.toNat % 65536 := by
  rw [UInt32.toNat_toUInt16, UInt32.toNat_div]
  rfl

/-- A call programs the exact quotient, or refuses, for every frequency but 18 and those above the clock. -/
theorem frequency_exact_iff {timer : UInt8} (h : timer < 3) (freq : UInt32) (conf : UInt8) (chip : Chip) :
    ((timerSetFrequency timer freq conf ⟨chip, []⟩).1 = 0 →
      ∃ lsb msb, countBytes timer (timerSetFrequency timer freq conf ⟨chip, []⟩).2.written = [lsb, msb] ∧
        lsb.toNat + 256 * msb.toNat = 1193182 / freq.toNat ∧
        1 ≤ 1193182 / freq.toNat ∧ 1193182 / freq.toNat ≤ 65535) ↔
      freq ≠ 18 ∧ freq ≤ 1193182 := by
  obtain ⟨i, rfl⟩ := exists_timerOf h
  rw [accepted_iff]
  have hlow : freq < 18 ↔ freq.toNat < 18 := UInt32.lt_iff_toNat_lt
  have hbound : freq ≠ 18 ∧ freq ≤ 1193182 ↔ freq.toNat ≠ 18 ∧ freq.toNat ≤ 1193182 := by
    rw [ne_eq, ← UInt32.toNat_inj, UInt32.le_iff_toNat_le]
    rfl
  rw [hlow, hbound]
  constructor
  · intro hexact
    by_cases hfreq : freq.toNat < 18
    · omega
    · obtain ⟨lsb, msb, -, -, h1, h2⟩ := hexact hfreq
      have hpos : 0 < freq.toNat := by omega
      have hle := (Nat.le_div_iff_mul_le hpos).1 h1
      have hlt := (Nat.div_lt_iff_lt_mul hpos).1 (Nat.lt_succ_of_le h2)
      omega
  · rintro ⟨hne, hle⟩ hfreq
    have hpos : 0 < freq.toNat := by omega
    have h1 : 1 ≤ 1193182 / freq.toNat := (Nat.le_div_iff_mul_le hpos).2 (by omega)
    have h2 : 1193182 / freq.toNat < 65536 := (Nat.div_lt_iff_lt_mul hpos).2 (by omega)
    refine ⟨_, _, countBytes_accepted i (mt hlow.1 hfreq) conf chip, ?_, h1, by omega⟩
    rw [utilGetLSB_toNat, utilGetMSB_toNat, divisor_toNat, Nat.mod_eq_of_lt h2]
    omega

/-- The chip as the program finds it: all counters are square wave generators that run freely. -/
def runningChip : Chip := fun _ => ⟨.lsbMsb, ⟨3, by decide⟩, false, 0, 0, false, true, none, false, none, []⟩

/-- At 18 Hz the divisor is 66287, of which 751 is programmed; above the clock it is 0. -/
theorem frequency_truncated :
    ((timerSetFrequency 0 18 0 ⟨runningChip, []⟩).1 = 0 ∧
      countBytes 0 (timerSetFrequency 0 18 0 ⟨runningChip, []⟩).2.written = [0xEF, 0x02] ∧
      0xEF + 256 * 0x02 ≠ 1193182 / 18) ∧
    (timerSetFrequency 0 1193183 0 ⟨runningChip, []⟩).1 = 0 ∧
      countBytes 0 (timerSetFrequency 0 1193183 0 ⟨runningChip, []⟩).2.written = [0, 0] := by
  decide

theorem frequency_exact_sixty :
    (timerSetFrequency 0 60 0 ⟨runningChip, []⟩).1 = 0 ∧
      ∃ lsb msb, countBytes 0 (timerSetFrequency 0 60 0 ⟨runningChip, []⟩).2.written = [lsb, msb] ∧
        lsb.toNat + 256 * msb.toNat = 1193182 / 60 ∧ 1 ≤ 1193182 / 60 ∧ 1193182 / 60 ≤ 65535 :=
  have haccepted : (timerSetFrequency 0 60 0 ⟨runningChip, []⟩).1 = 0 := by decide
  ⟨haccepted, (frequency_exact_iff (by decide) 60 0 runningChip).2 (by decide) haccepted⟩

/-! ### A refused frequency -/

/-- The counter a refused control word is for would not notice it. -/
def AlreadyWaiting (c : Counter) (conf : UInt8) : Prop :=
  c.waiting = true ∧ c.access = .lsbMsb ∧ c.mode = modeOf conf ∧ c.bcd = bcdOf conf

/-- When a call that refuses does no harm: it does not refuse, or its control word selects no counter, or it selects
one that is waiting for its count already. -/
def Harmless (timer : UInt8) (freq : UInt32) (conf : UInt8) (chip : Chip) : Prop :=
  (timer < 3 ∧ ¬ freq < 18) ∨ timer.toNat % 4 = 3 ∨
    ∃ i : Fin 3, timer.toNat % 4 = i.val ∧
      AlreadyWaiting (chip i) (if timer < 3 then confOf (chip i) else conf)

private theorem sameCount_update_iff {chip : Chip} {i : Fin 3} {c : Counter} :
    (∀ j, (chip j).SameCount (Function.update chip i c j)) ↔ (chip i).SameCount c := by
  constructor
  · intro h
    simpa using h i
  · intro h j
    by_cases hj : j = i
    · subst hj
      simpa using h
    · simpa [hj] using Counter.SameCount.refl (chip j)

/-- A refused call leaves the timers as they were exactly when it is harmless. -/
theorem refused_harmless_iff (timer : UInt8) (freq : UInt32) (conf : UInt8) (p : Ports) :
    ((timerSetFrequency timer freq conf p).1 ≠ 0 →
      ∀ i, (p.chip i).SameCount ((timerSetFrequency timer freq conf p).2.chip i)) ↔
      Harmless timer freq conf p.chip := by
  by_cases h : timer < 3
  · obtain ⟨i, rfl⟩ := exists_timerOf h
    have hmod := timerOf_toNat i
    rw [ne_eq, accepted_iff, not_not]
    by_cases hfreq : freq < 18
    · obtain ⟨-, hchip⟩ := timerSetFrequency_low i hfreq conf p
      have hselect : (∃ j : Fin 3, (timerOf i).toNat % 4 = j.val ∧
          AlreadyWaiting (p.chip j) (confOf (p.chip j))) ↔ AlreadyWaiting (p.chip i) (confOf (p.chip i)) := by
        constructor
        · rintro ⟨j, hj, hwaiting⟩
          obtain rfl : i = j := Fin.ext (hmod.symm.trans hj)
          exact hwaiting
        · intro hwaiting
          exact ⟨i, hmod, hwaiting⟩
      have hne : ¬ (timerOf i).toNat % 4 = 3 := by omega
      simp only [Harmless, h, hfreq, not_true_eq_false, and_false, hne, false_or, ↓reduceIte, hselect, forall_const,
        hchip, sameCount_update_iff]
      exact Counter.sameCount_program_iff
    · simp [Harmless, h, hfreq]
  · obtain ⟨hret, hchip⟩ := timerSetFrequency_range h freq conf p
    simp only [hret, hchip, Harmless, h, false_and, false_or, ne_eq, one_ne_zero, not_false_eq_true, forall_const,
      ↓reduceIte]
    by_cases h3 : timer.toNat % 4 = 3
    · simp only [writeControl_controlW_readBack h3, h3, true_or, iff_true]
      exact fun i => Counter.SameCount.refl _
    · obtain ⟨i, hi⟩ : ∃ i : Fin 3, timer.toNat % 4 = i.val := ⟨⟨timer.toNat % 4, by omega⟩, rfl⟩
      simp only [writeControl_controlW hi, sameCount_update_iff, h3, false_or]
      rw [Counter.sameCount_program_iff]
      constructor
      · intro hwaiting
        exact ⟨i, hi, hwaiting⟩
      · rintro ⟨j, hj, hwaiting⟩
        obtain rfl : i = j := Fin.ext (hi.symm.trans hj)
        exact hwaiting

/-- A frequency of 17 Hz is refused, and the counter has stopped. -/
theorem refused_frequency_stops_timer :
    (timerSetFrequency 0 17 0 ⟨runningChip, []⟩).1 ≠ 0 ∧
      (runningChip 0).running = some 0 ∧ ((timerSetFrequency 0 17 0 ⟨runningChip, []⟩).2.chip 0).running = none ∧
      ¬ ∀ i, (runningChip i).SameCount ((timerSetFrequency 0 17 0 ⟨runningChip, []⟩).2.chip i) := by
  refine ⟨by decide, by decide, by decide, fun h => ?_⟩
  exact absurd (h 0).running (by decide)

/-! ### What a change of frequency touches -/

/-- Nothing that was latched waits to be read. -/
def NothingLatched (chip : Chip) : Prop := ∀ i, (chip i).statusLatch = none ∧ (chip i).countLatch = []

/-- From `chip` to `chip'` only the divisor of counter `i` was changed, and its access to two bytes. -/
structure Retimed (chip chip' : Chip) (i : Fin 3) (divisor : UInt16) : Prop where
  mode : (chip' i).mode = (chip i).mode
  bcd : (chip' i).bcd = (chip i).bcd
  access : (chip' i).access = .lsbMsb
  reload : (chip' i).reload = divisor
  others : ∀ j, j ≠ i → chip' j = chip j

/-- An accepted call changes the divisor of its counter and nothing else, as `timer_get_conf` then shows. -/
theorem accepted_retimes {timer : UInt8} {i : Fin 3} (hi : timer.toNat = i.val) {freq : UInt32} {conf : UInt8}
    {p : Ports} (hlatch : NothingLatched p.chip) (hret : (timerSetFrequency timer freq conf p).1 = 0) :
    let p' := (timerSetFrequency timer freq conf p).2
    Retimed p.chip p'.chip i (timerFreq / freq).toUInt16 ∧
      ∀ st, (timerGetConf timer st p').1 = 0 ∧
        accessOf (timerGetConf timer st p').2.1 = some .lsbMsb ∧
        modeOf (timerGetConf timer st p').2.1 = (p.chip i).mode ∧
        bcdOf (timerGetConf timer st p').2.1 = (p.chip i).bcd := by
  obtain rfl : timer = timerOf i := by
    rw [← UInt8.toNat_inj, hi]
    fin_cases i <;> rfl
  have hfreq := (accepted_iff i freq conf p).1 hret
  have hconf : confOf (p.chip i) = (p.chip i).status := by rw [confOf, (hlatch i).1, Option.getD_none]
  have hchip : (timerSetFrequency (timerOf i) freq conf p).2.chip =
      Function.update p.chip i ((reprogrammed (p.chip i)).load (timerFreq / freq).toUInt16.toNat) := by
    rw [timerSetFrequency_accepted i hfreq]
  have hretimed : Retimed p.chip (timerSetFrequency (timerOf i) freq conf p).2.chip i (timerFreq / freq).toUInt16 := by
    rw [hchip]
    constructor
    · rw [Function.update_self]
      show modeOf (confOf (p.chip i)) = _
      rw [hconf, modeOf_status]
    · rw [Function.update_self]
      show bcdOf (confOf (p.chip i)) = _
      rw [hconf, bcdOf_status]
    · rw [Function.update_self]
      rfl
    · rw [Function.update_self]
      exact UInt16.ofNat_toNat
    · exact fun j hj => Function.update_of_ne hj _ _
  refine ⟨hretimed, fun st => ?_⟩
  have hnone : ((timerSetFrequency (timerOf i) freq conf p).2.chip i).statusLatch = none := by
    rw [hchip, Function.update_self]
    rfl
  rw [timerGetConf_timerOf, readConf_eq, hnone, Option.getD_none, accessOf_status, modeOf_status, bcdOf_status,
    hretimed.access, hretimed.mode, hretimed.bcd]
  exact ⟨rfl, rfl, rfl, rfl⟩

theorem accepted_retimes_sixty :
    Retimed runningChip (timerSetFrequency 0 60 0 ⟨runningChip, []⟩).2.chip 0 19886 :=
  (@accepted_retimes 0 0 rfl 60 0 ⟨runningChip, []⟩ (fun _ => ⟨rfl, rfl⟩) (by decide)).1

end LabChase.Lab2
