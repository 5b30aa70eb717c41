import LabChase.Library.I8254
import Mathlib.Data.Fintype.Basic
import Mathlib.Tactic.FinCases

/-!
# The timer of Lab 2 (`timer.c`, `utils.c`)

`timer_get_conf` and `timer_set_frequency`, on the chip and with a record of the bytes written to the ports.
`timer_set_frequency` writes the control word before it looks at the timer and at the frequency.
-/

namespace LabChase.Lab2

open I8254

def timerFreq : UInt32 := 1193182

/-- `TIMER_0`, `TIMER_1` and `TIMER_2`. -/
def timerPort (i : Fin 3) : UInt8 := UInt8.ofNat (0x40 + i.val)

def timerCtrl : UInt8 := 0x43

def timerLsbMsb : UInt8 := 0x30

def timerRbCmd : UInt8 := 0xC0

def timerRbCount : UInt8 := 0x20

/-- `TIMER_RB_SEL(n)`. -/
def timerRbSel (i : Fin 3) : UInt8 := 1 <<< UInt8.ofNat (i.val + 1)

/-- The chip, and what was written to its ports so far. -/
structure Ports where
  chip : Chip
  written : List (UInt8 × UInt8)

/-- `sys_outb`, for the ports of the timer. -/
def sysOutb (port value : UInt8) (p : Ports) : Ports where
  chip :=
    if port = timerPort 0 then writeCounter 0 value p.chip
    else if port = timerPort 1 then writeCounter 1 value p.chip
    else if port = timerPort 2 then writeCounter 2 value p.chip
    else if port = timerCtrl then writeControl value p.chip
    else p.chip
  written := p.written ++ [(port, value)]

/-- `util_sys_inb`, for the counter ports. -/
def utilSysInb (i : Fin 3) (p : Ports) : UInt8 × Ports :=
  ((readCounter i p.chip).1, { p with chip := (readCounter i p.chip).2 })

def utilGetLSB (val : UInt16) : UInt8 := (0x00FF &&& val).toUInt8

def utilGetMSB (val : UInt16) : UInt8 := ((0xFF00 &&& val) >>> 8).toUInt8

/-- One branch of `timer_get_conf`. -/
def readConf (i : Fin 3) (p : Ports) : Nat × UInt8 × Ports :=
  let p := sysOutb timerCtrl (timerRbCmd ||| timerRbCount ||| timerRbSel i) p
  let (st, p) := utilSysInb i p
  (0, st, p)

/-- `timer_get_conf`; for another timer `st` keeps what it held. -/
def timerGetConf (timer st : UInt8) (p : Ports) : Nat × UInt8 × Ports :=
  if timer = 0 then readConf 0 p
  else if timer = 1 then readConf 1 p
  else if timer = 2 then readConf 2 p
  else (1, st, p)

/-- `timer_set_frequency`; `initialConf` is what the local holds before it is assigned. -/
def timerSetFrequency (timer : UInt8) (freq : UInt32) (initialConf : UInt8) (p : Ports) : Nat × Ports :=
  let (_, initialConf, p) := timerGetConf timer initialConf p
  let initialConf := initialConf &&& 0x0F
  -- the shift is made in `int`, and its result truncated to `uint8_t`
  let controlW := timer <<< 6 ||| timerLsbMsb ||| initialConf
  let p := sysOutb timerCtrl controlW p
  let port :=
    if timer = 0 then some (timerPort 0)
    else if timer = 1 then some (timerPort 1)
    else if timer = 2 then some (timerPort 2)
    else none
  match port with
  | none => (1, p)
  | some port =>
    if freq < 18 then (1, p)
    else
      let divisor := (timerFreq / freq).toUInt16
      let p := sysOutb port (utilGetLSB divisor) p
      let p := sysOutb port (utilGetMSB divisor) p
      (0, p)

/-! ### Bytes and ports -/

theorem utilGetLSB_toNat (val : UInt16) : (utilGetLSB val).toNat = val.toNat % 256 := by
  have hmask : (0x00FF &&& val.toNat) = val.toNat % 256 := by
    rw [Nat.and_comm]
    exact Nat.and_two_pow_sub_one_eq_mod val.toNat 8
  simp only [utilGetLSB, UInt16.toNat_toUInt8, UInt16.toNat_and, UInt16.reduceToNat, hmask]
  omega

theorem utilGetMSB_toNat (val : UInt16) : (utilGetMSB val).toNat = val.toNat / 256 := by
  have hval := val.toNat_lt
  have hmask : (0xFF00 &&& val.toNat) / 256 = val.toNat / 256 := by
    rw [← Nat.shiftRight_eq_div_pow _ 8, ← Nat.shiftRight_eq_div_pow _ 8, Nat.shiftRight_and_distrib]
    have hlow : (0xFF00 >>> 8 &&& val.toNat >>> 8) = val.toNat >>> 8 % 2 ^ 8 := by
      rw [Nat.and_comm]
      exact Nat.and_two_pow_sub_one_eq_mod _ 8
    rw [hlow, Nat.shiftRight_eq_div_pow]
    omega
  simp only [utilGetMSB, UInt16.toNat_toUInt8, UInt16.toNat_shiftRight, UInt16.toNat_and, UInt16.reduceToNat,
    Nat.shiftRight_eq_div_pow, Nat.reduceMod, Nat.reducePow, hmask]
  omega

/-- The control word of `timer_set_frequency`: the timer modulo 4, LSB then MSB, and the low bits of the old one. -/
private theorem controlW_toNat (timer conf : UInt8) :
    (timer <<< 6 ||| timerLsbMsb ||| (conf &&& 0x0F)).toNat =
      timer.toNat % 4 * 64 + 48 + conf.toNat % 16 := by
  have hnibble : conf.toNat &&& 15 = conf.toNat % 16 := Nat.and_two_pow_sub_one_eq_mod conf.toNat 4
  have hshift : timer.toNat * 64 % 256 = 2 ^ 6 * (timer.toNat % 4) := by omega
  have haccess : 2 ^ 6 * (timer.toNat % 4) ||| 48 = 2 ^ 4 * (timer.toNat % 4 * 4 + 3) := by
    rw [← Nat.two_pow_add_eq_or_of_lt (by decide)]
    omega
  simp only [timerLsbMsb, UInt8.toNat_or, UInt8.toNat_shiftLeft, UInt8.toNat_and, UInt8.reduceToNat, hnibble,
    Nat.shiftLeft_eq, Nat.reduceMod, Nat.reducePow]
  rw [hshift, haccess, ← Nat.two_pow_add_eq_or_of_lt (by omega)]
  omega

section
variable (timer conf : UInt8)

private theorem controlW_select : (timer <<< 6 ||| timerLsbMsb ||| (conf &&& 0x0F)).toNat / 64 = timer.toNat % 4 := by
  rw [controlW_toNat]
  omega

private theorem accessOf_controlW : accessOf (timer <<< 6 ||| timerLsbMsb ||| (conf &&& 0x0F)) = some .lsbMsb := by
  have hcode : (timer <<< 6 ||| timerLsbMsb ||| (conf &&& 0x0F)).toNat / 16 % 4 = 3 := by
    rw [controlW_toNat]
    omega
  simp only [accessOf, hcode]

private theorem modeOf_controlW : modeOf (timer <<< 6 ||| timerLsbMsb ||| (conf &&& 0x0F)) = modeOf conf := by
  rw [modeOf, modeOf, Fin.mk.injEq, controlW_toNat]
  omega

private theorem bcdOf_controlW : bcdOf (timer <<< 6 ||| timerLsbMsb ||| (conf &&& 0x0F)) = bcdOf conf := by
  rw [bcdOf, bcdOf, decide_eq_decide, controlW_toNat]
  omega

end

/-- With the timer out of range and a multiple of 4 missed by one, the control word is a read-back of nothing. -/
theorem writeControl_controlW_readBack {timer : UInt8} (h : timer.toNat % 4 = 3) (conf : UInt8) (chip : Chip) :
    writeControl (timer <<< 6 ||| timerLsbMsb ||| (conf &&& 0x0F)) chip = chip := by
  rw [writeControl_readBack (by rw [controlW_select, h])]
  have h5 : (timer <<< 6 ||| timerLsbMsb ||| (conf &&& 0x0F)).toNat.testBit 5 = true := by
    rw [Nat.testBit_eq_decide_div_mod_eq, controlW_toNat, decide_eq_true_eq]
    omega
  have h4 : (timer <<< 6 ||| timerLsbMsb ||| (conf &&& 0x0F)).toNat.testBit 4 = true := by
    rw [Nat.testBit_eq_decide_div_mod_eq, controlW_toNat, decide_eq_true_eq]
    omega
  funext i
  simp only [readBack, h5, h4, ↓reduceIte, ite_self]

/-- In the other cases it reprograms a counter. -/
theorem writeControl_controlW {timer : UInt8} {i : Fin 3} (h : timer.toNat % 4 = i.val) (conf : UInt8) (chip : Chip) :
    writeControl (timer <<< 6 ||| timerLsbMsb ||| (conf &&& 0x0F)) chip =
      Function.update chip i ((chip i).program .lsbMsb (modeOf conf) (bcdOf conf)) := by
  rw [writeControl_program (by rw [controlW_select, h]) (accessOf_controlW timer conf), modeOf_controlW, bcdOf_controlW]

/-! ### Reading the configuration -/

theorem sysOutb_ctrl (value : UInt8) (p : Ports) :
    sysOutb timerCtrl value p = ⟨writeControl value p.chip, p.written ++ [(timerCtrl, value)]⟩ := rfl

theorem sysOutb_port (i : Fin 3) (value : UInt8) (p : Ports) :
    sysOutb (timerPort i) value p = ⟨writeCounter i value p.chip, p.written ++ [(timerPort i, value)]⟩ := by
  fin_cases i <;> rfl

/-- The read-back command of `timer_get_conf` latches the status of one counter. -/
private theorem writeControl_readConf (i : Fin 3) (chip : Chip) :
    writeControl (timerRbCmd ||| timerRbCount ||| timerRbSel i) chip =
      Function.update chip i (chip i).latchStatus := by
  have hselect : (timerRbCmd ||| timerRbCount ||| timerRbSel i).toNat / 64 = 3 := by fin_cases i <;> decide
  have h5 : (timerRbCmd ||| timerRbCount ||| timerRbSel i).toNat.testBit 5 = true := by fin_cases i <;> decide
  have h4 : (timerRbCmd ||| timerRbCount ||| timerRbSel i).toNat.testBit 4 = false := by fin_cases i <;> decide
  have hbit : ∀ j : Fin 3,
      (timerRbCmd ||| timerRbCount ||| timerRbSel i).toNat.testBit (j.val + 1) = decide (j = i) := by
    fin_cases i <;> decide
  rw [writeControl_readBack hselect]
  funext j
  by_cases hj : j = i
  · subst hj
    simp only [readBack, hbit, h5, h4, decide_true, ↓reduceIte, Bool.false_eq_true, Function.update_self]
  · simp only [readBack, hbit, hj, decide_false, Bool.false_eq_true, ↓reduceIte, ne_eq, not_false_eq_true,
      Function.update_of_ne]

/-- `timer_get_conf` reads the status of its counter, or an older one that is still latched. -/
theorem readConf_eq (i : Fin 3) (p : Ports) :
    readConf i p =
      (0, (p.chip i).statusLatch.getD (p.chip i).status,
        { chip := Function.update p.chip i { p.chip i with statusLatch := none }
          written := p.written ++ [(timerCtrl, timerRbCmd ||| timerRbCount ||| timerRbSel i)] }) := by
  simp only [readConf, sysOutb_ctrl, writeControl_readConf, utilSysInb, readCounter, Function.update_self,
    Counter.read_latchStatus, Function.update_idem]

end LabChase.Lab2
