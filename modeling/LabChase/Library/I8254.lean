import Mathlib.Data.Fin.Basic
import Mathlib.Logic.Function.Basic
import Mathlib.Tactic.Common

/-!
# The programmable interval timer 8254

The part of the chip that is seen through its four ports: the control word, the counter latch and the read-back
commands, the writes and reads of a counter.  The clock is not part of the model, so a count that has been written is
in the counting element at once.  A control word changes the counter it selects and leaves it waiting for its count
(`writeControl_program`); the read-back command changes latches only (`writeControl_readBack`).
-/

namespace I8254

/-- The bytes in which a count is written and read. -/
inductive Access where
  | lsb | msb | lsbMsb
  deriving DecidableEq, Repr

/-- The value of the two access bits. -/
def Access.code : Access → Nat
  | .lsb => 1
  | .msb => 2
  | .lsbMsb => 3

/-- One of the counters.  `firstByte` is the first byte of a count of two bytes, `readHigh` tells that the next byte
read is the second one, and a latch is empty unless it holds what was latched and not read. -/
structure Counter where
  access : Access
  mode : Fin 8
  bcd : Bool
  reload : UInt16
  element : UInt16
  waiting : Bool
  out : Bool
  firstByte : Option UInt8
  readHigh : Bool
  statusLatch : Option UInt8
  countLatch : List UInt8
  deriving DecidableEq, Repr

/-- The three counters. -/
abbrev Chip := Fin 3 → Counter

namespace Counter

/-- The count, unless the counter waits for one. -/
def running (c : Counter) : Option UInt16 := if c.waiting then none else some c.element

/-- The status byte: output, null count, access, mode and base. -/
def status (c : Counter) : UInt8 :=
  UInt8.ofNat (c.out.toNat * 128 + c.waiting.toNat * 64 + c.access.code * 16 + c.mode.val * 2 + c.bcd.toNat)

/-- What a control word does to the counter it selects. -/
def program (access : Access) (mode : Fin 8) (bcd : Bool) (c : Counter) : Counter :=
  { c with
    access := access
    mode := mode
    bcd := bcd
    reload := 0
    waiting := true
    out := mode ≠ 0
    firstByte := none
    readHigh := false
    countLatch := [] }

def lowByte (n : UInt16) : UInt8 := UInt8.ofNat (n.toNat % 256)

def highByte (n : UInt16) : UInt8 := UInt8.ofNat (n.toNat / 256)

/-- A count that is latched stays so until it is read. -/
def latchCount (c : Counter) : Counter :=
  if c.countLatch = [] then
    { c with
      countLatch := match c.access with
        | .lsb => [lowByte c.element]
        | .msb => [highByte c.element]
        | .lsbMsb => [lowByte c.element, highByte c.element] }
  else c

/-- A status that is latched stays so until it is read. -/
def latchStatus (c : Counter) : Counter := { c with statusLatch := some (c.statusLatch.getD c.status) }

/-- A complete count is loaded. -/
def load (n : Nat) (c : Counter) : Counter :=
  { c with reload := UInt16.ofNat n, element := UInt16.ofNat n, waiting := false, firstByte := none }

/-- A byte written to the counter. -/
def write (b : UInt8) (c : Counter) : Counter :=
  match c.access, c.firstByte with
  | .lsb, _ => c.load b.toNat
  | .msb, _ => c.load (b.toNat * 256)
  | .lsbMsb, none => { c with firstByte := some b }
  | .lsbMsb, some low => c.load (low.toNat + b.toNat * 256)

/-- A byte read from the counter: a latched status, else a byte of a latched count, else one of the running count. -/
def read (c : Counter) : UInt8 × Counter :=
  match c.statusLatch, c.countLatch with
  | some st, _ => (st, { c with statusLatch := none })
  | none, b :: bs => (b, { c with countLatch := bs })
  | none, [] =>
    match c.access with
    | .lsb => (lowByte c.element, c)
    | .msb => (highByte c.element, c)
    | .lsbMsb => (if c.readHigh then highByte c.element else lowByte c.element, { c with readHigh := !c.readHigh })

end Counter

/-! ### The ports -/

/-- The access a control word asks for; none is the counter latch command. -/
def accessOf (w : UInt8) : Option Access :=
  match w.toNat / 16 % 4 with
  | 1 => some .lsb
  | 2 => some .msb
  | 3 => some .lsbMsb
  | _ => none

def modeOf (w : UInt8) : Fin 8 := ⟨w.toNat / 2 % 8, by omega⟩

def bcdOf (w : UInt8) : Bool := w.toNat % 2 = 1

/-- The read-back command: bits 1 to 3 select counters, the bits 5 and 4 ask for count and status when clear. -/
def readBack (w : UInt8) (chip : Chip) : Chip := fun i =>
  if w.toNat.testBit (i.val + 1) then
    let c := if w.toNat.testBit 5 then chip i else (chip i).latchCount
    if w.toNat.testBit 4 then c else c.latchStatus
  else chip i

/-- A byte written to the control port. -/
def writeControl (w : UInt8) (chip : Chip) : Chip :=
  if h : w.toNat / 64 < 3 then
    match accessOf w with
    | none => Function.update chip ⟨w.toNat / 64, h⟩ (chip ⟨w.toNat / 64, h⟩).latchCount
    | some access =>
      Function.update chip ⟨w.toNat / 64, h⟩ ((chip ⟨w.toNat / 64, h⟩).program access (modeOf w) (bcdOf w))
  else readBack w chip

def writeCounter (i : Fin 3) (b : UInt8) (chip : Chip) : Chip := Function.update chip i ((chip i).write b)

def readCounter (i : Fin 3) (chip : Chip) : UInt8 × Chip :=
  ((chip i).read.1, Function.update chip i (chip i).read.2)

/-! ### What the programmer relies on -/

/-- The two counters are configured and count alike; their latches may differ. -/
structure Counter.SameCount (c d : Counter) : Prop where
  access : d.access = c.access
  mode : d.mode = c.mode
  bcd : d.bcd = c.bcd
  running : d.running = c.running

theorem Counter.SameCount.refl (c : Counter) : c.SameCount c := ⟨rfl, rfl, rfl, rfl⟩

theorem Counter.status_toNat (c : Counter) :
    c.status.toNat = c.out.toNat * 128 + c.waiting.toNat * 64 + c.access.code * 16 + c.mode.val * 2 + c.bcd.toNat := by
  have hmode := c.mode.isLt
  have hout := c.out.toNat_le
  have hwaiting := c.waiting.toNat_le
  have hbcd := c.bcd.toNat_le
  have haccess : c.access.code ≤ 3 := by cases c.access <;> decide
  rw [Counter.status, UInt8.toNat_ofNat']
  omega

/-- The low bits of the status byte are those of the control word. -/
theorem modeOf_status (c : Counter) : modeOf c.status = c.mode := by
  have hbcd := c.bcd.toNat_le
  have hmode := c.mode.isLt
  apply Fin.ext
  show c.status.toNat / 2 % 8 = c.mode.val
  rw [c.status_toNat]
  omega

theorem bcdOf_status (c : Counter) : bcdOf c.status = c.bcd := by
  have hdigit : c.status.toNat % 2 = c.bcd.toNat := by
    have hbcd := c.bcd.toNat_le
    rw [c.status_toNat]
    omega
  rw [bcdOf, hdigit]
  cases c.bcd <;> rfl

theorem accessOf_status (c : Counter) : accessOf c.status = some c.access := by
  have hcode : c.status.toNat / 16 % 4 = c.access.code := by
    have hmode := c.mode.isLt
    have hbcd := c.bcd.toNat_le
    have haccess : c.access.code ≤ 3 := by cases c.access <;> decide
    rw [c.status_toNat]
    omega
  simp only [accessOf, hcode]
  cases c.access <;> rfl

/-- Reprogramming goes unnoticed exactly by a counter that waits for its count and was programmed alike. -/
theorem Counter.sameCount_program_iff {c d : Counter} {access : Access} {mode : Fin 8} {bcd : Bool} :
    c.SameCount (d.program access mode bcd) ↔
      c.waiting = true ∧ c.access = access ∧ c.mode = mode ∧ c.bcd = bcd := by
  constructor
  · rintro ⟨haccess, hmode, hbcd, hrunning⟩
    have hnone : c.running = none := hrunning.symm
    refine ⟨?_, haccess.symm, hmode.symm, hbcd.symm⟩
    by_contra hwaiting
    simp [running, hwaiting] at hnone
  · rintro ⟨hwaiting, rfl, rfl, rfl⟩
    refine ⟨rfl, rfl, rfl, ?_⟩
    simp [running, program, hwaiting]

/-- A control word that selects a counter and an access reprograms that counter. -/
theorem writeControl_program {w : UInt8} {i : Fin 3} {access : Access} (hi : w.toNat / 64 = i.val)
    (ha : accessOf w = some access) (chip : Chip) :
    writeControl w chip = Function.update chip i ((chip i).program access (modeOf w) (bcdOf w)) := by
  have hlt : w.toNat / 64 < 3 := by omega
  obtain rfl : ⟨w.toNat / 64, hlt⟩ = i := Fin.ext hi
  rw [writeControl, dif_pos hlt, ha]

theorem writeControl_readBack {w : UInt8} (h : w.toNat / 64 = 3) (chip : Chip) :
    writeControl w chip = readBack w chip := by
  rw [writeControl, dif_neg (by omega)]

/-- A latched status is read first. -/
theorem Counter.read_latchStatus (c : Counter) :
    c.latchStatus.read = (c.statusLatch.getD c.status, { c with statusLatch := none }) := rfl

/-- A count of two bytes, written after a control word that asks for it. -/
theorem Counter.write_write {c : Counter} (ha : c.access = .lsbMsb) (hf : c.firstByte = none) (low high : UInt8) :
    (c.write low).write high = c.load (low.toNat + high.toNat * 256) := by
  cases c
  simp only at ha hf
  subst ha hf
  rfl

end I8254
