import Mathlib.Tactic.Common

/-!
# Commands to the keyboard controller (`keyboard.c`)

`send_KBC_command_byte` sends a command when one of ten polls finds the input buffer free, and reports by its return
value if none does.  `enableInterrupts` reads the command byte, sets a bit and writes it back, and looks at neither
return value: it always writes port `0x60`.  So its write is the intended one exactly if both commands find the
buffer free in time (`commandByte_safe_iff`).
-/

namespace LabChase.Lab3

/-- The bytes that successive reads of the status register and of the output buffer find. -/
structure Controller where
  status : Nat → UInt8
  output : Nat → UInt8

structure PortWrite where
  port : Nat
  value : UInt32
  deriving DecidableEq, Repr

/-- How often the two ports have been read, the global that counts the reads, and the writes so far. -/
structure Ports where
  statusReads : Nat
  outputReads : Nat
  countSysInb : UInt32
  writes : List PortWrite

/-- The port of the commands, `KBC_CMD_REG`; it is the status register when it is read. -/
def kbcCmdReg : Nat := 0x64

/-- `KBC_OUT_BUF`; it takes the arguments of commands when it is written. -/
def kbcOutBuf : Nat := 0x60

def readCmdByte : UInt32 := 0x20

def writeCmdByte : UInt32 := 0x60

/-- `INT_KBC`. -/
def intKbc : UInt8 := 0x01

/-- The bit `KBC_ST_IBF` is not set. -/
def InputBufferFree (stat : UInt8) : Prop := stat &&& 0x02 = 0

instance (stat : UInt8) : Decidable (InputBufferFree stat) := inferInstanceAs (Decidable (stat &&& 0x02 = 0))

def sysOutb (port : Nat) (value : UInt32) (s : Ports) : Ports := { s with writes := s.writes ++ [⟨port, value⟩] }

/-- `util_sys_inb` of the status register. -/
def readStatus (c : Controller) (s : Ports) : UInt8 × Ports :=
  (c.status s.statusReads, { s with statusReads := s.statusReads + 1, countSysInb := s.countSysInb + 1 })

/-- `read_command_byte`: `util_sys_inb` of the output buffer. -/
def readCommandByte (c : Controller) (s : Ports) : UInt8 × Ports :=
  (c.output s.outputReads, { s with outputReads := s.outputReads + 1, countSysInb := s.countSysInb + 1 })

def writeCommandByte (command : UInt8) (s : Ports) : Ports := sysOutb kbcOutBuf command.toUInt32 s

/-- The loop of `send_KBC_command_byte` when `tries` polls are left. -/
def pollAndSend (c : Controller) (cmd : UInt32) : Nat → Ports → Nat × Ports
  | 0, s => (1, s)
  | tries + 1, s =>
    let (stat, s) := readStatus c s
    if InputBufferFree stat then (0, sysOutb kbcCmdReg cmd s)
    else pollAndSend c cmd tries s

def sendKBCCommandByte (c : Controller) (cmd : UInt32) (s : Ports) : Nat × Ports := pollAndSend c cmd 10 s

def enableInterrupts (c : Controller) (s : Ports) : Ports :=
  -- both return values are dropped
  let (_, s) := sendKBCCommandByte c readCmdByte s
  let (command, s) := readCommandByte c s
  let (_, s) := sendKBCCommandByte c writeCmdByte s
  writeCommandByte (command ||| intKbc) s

/-! ### One command -/

/-- From the status read `i` on, the poll `k` of at most `tries` is the first to find the input buffer free. -/
def FreeAt (c : Controller) (i tries k : Nat) : Prop :=
  k < tries ∧ InputBufferFree (c.status (i + k)) ∧ ∀ j, j < k → ¬ InputBufferFree (c.status (i + j))

private theorem FreeAt.unique {c : Controller} {i tries k k' : Nat} (h : FreeAt c i tries k)
    (h' : FreeAt c i tries k') :
    k = k' := by
  have hle : ∀ {m n : Nat}, FreeAt c i tries m → FreeAt c i tries n → m ≤ n := by
    intro m n hm hn
    exact Nat.le_of_not_lt fun hlt => hm.2.2 n hlt hn.2.1
  exact Nat.le_antisymm (hle h h') (hle h' h)

/-- When the first poll finds the buffer full, the others are polls of their own. -/
private theorem freeAt_succ_iff {c : Controller} {i : Nat} (hfull : ¬ InputBufferFree (c.status i)) (tries k : Nat) :
    FreeAt c i (tries + 1) k ↔ ∃ k', k = k' + 1 ∧ FreeAt c (i + 1) tries k' := by
  have hshift : ∀ j, i + 1 + j = i + (j + 1) := fun j => by omega
  constructor
  · rintro ⟨hk, hfree, hbefore⟩
    cases k with
    | zero => exact absurd hfree hfull
    | succ k =>
      refine ⟨k, rfl, Nat.lt_of_succ_lt_succ hk, ?_, fun j hj => ?_⟩
      · rw [hshift]
        exact hfree
      · rw [hshift]
        exact hbefore (j + 1) (Nat.succ_lt_succ hj)
  · rintro ⟨k, rfl, hk, hfree, hbefore⟩
    rw [hshift] at hfree
    refine ⟨Nat.succ_lt_succ hk, hfree, fun j hj => ?_⟩
    cases j with
    | zero => exact hfull
    | succ j =>
      have := hbefore j (Nat.lt_of_succ_lt_succ hj)
      rwa [hshift] at this

/-- A command is sent at the first poll that finds the buffer free; if none does, nothing is written and the return
value says so. -/
theorem pollAndSend_cases (c : Controller) (cmd : UInt32) (tries : Nat) (s : Ports) :
    let r := pollAndSend c cmd tries s
    (∃ k, FreeAt c s.statusReads tries k ∧ r.1 = 0 ∧ r.2.statusReads = s.statusReads + k + 1 ∧
        r.2.outputReads = s.outputReads ∧ r.2.writes = s.writes ++ [⟨kbcCmdReg, cmd⟩]) ∨
      (¬ (∃ k, FreeAt c s.statusReads tries k) ∧ r.1 = 1 ∧ r.2.outputReads = s.outputReads ∧
        r.2.writes = s.writes) := by
  induction tries generalizing s with
  | zero => exact Or.inr ⟨fun ⟨k, hk, _⟩ => Nat.not_lt_zero k hk, rfl, rfl, rfl⟩
  | succ tries ih =>
    by_cases hfree : InputBufferFree (c.status s.statusReads)
    · have hsent : pollAndSend c cmd (tries + 1) s = (0, sysOutb kbcCmdReg cmd (readStatus c s).2) := if_pos hfree
      rw [hsent]
      exact Or.inl ⟨0, ⟨Nat.succ_pos tries, hfree, fun j hj => absurd hj (Nat.not_lt_zero j)⟩, rfl, rfl, rfl, rfl⟩
    · have hagain : pollAndSend c cmd (tries + 1) s = pollAndSend c cmd tries (readStatus c s).2 := if_neg hfree
      rw [hagain]
      rcases ih (readStatus c s).2 with ⟨k, hk, hr, hreads, hout, hwrites⟩ | ⟨hnone, hr, hout, hwrites⟩
      · refine Or.inl ⟨k + 1, (freeAt_succ_iff hfree tries _).2 ⟨k, rfl, hk⟩, hr, ?_, hout, hwrites⟩
        rw [hreads]
        show s.statusReads + 1 + k + 1 = s.statusReads + (k + 1) + 1
        omega
      · refine Or.inr ⟨?_, hr, hout, hwrites⟩
        rintro ⟨k, hk⟩
        obtain ⟨k', -, hk'⟩ := (freeAt_succ_iff hfree tries k).1 hk
        exact hnone ⟨k', hk'⟩

/-! ### The command byte -/

/-- The ports before the call, when `countSysInb` is `count`. -/
def Ports.start (count : UInt32) : Ports := ⟨0, 0, count, []⟩

/-- The calls of `send_KBC_command_byte` that `enableInterrupts` makes. -/
def firstCommand (c : Controller) (count : UInt32) : Nat × Ports := sendKBCCommandByte c readCmdByte (Ports.start count)

def secondCommand (c : Controller) (count : UInt32) : Nat × Ports :=
  sendKBCCommandByte c writeCmdByte (readCommandByte c (firstCommand c count).2).2

/-- The writes of `enableInterrupts`. -/
def enableWrites (c : Controller) (count : UInt32) : List PortWrite := (enableInterrupts c (Ports.start count)).writes

/-- Port `0x60` is written only after both commands have been sent, with the byte read between them and bit 0, and not
at all when a command times out. -/
structure CommandByteSafe (c : Controller) (count : UInt32) : Prop where
  sent : ∀ b, ⟨kbcOutBuf, b⟩ ∈ enableWrites c count →
    ⟨kbcCmdReg, readCmdByte⟩ ∈ enableWrites c count ∧ ⟨kbcCmdReg, writeCmdByte⟩ ∈ enableWrites c count ∧
      b = (c.output 0 ||| 0x01).toUInt32
  timeout : (firstCommand c count).1 ≠ 0 ∨ (secondCommand c count).1 ≠ 0 →
    ∀ b, ⟨kbcOutBuf, b⟩ ∉ enableWrites c count

/-- Of ten polls one finds the input buffer free, and of the ten polls after the first such poll again one. -/
def FreeTwice (c : Controller) : Prop := ∃ i, FreeAt c 0 10 i ∧ ∃ j, FreeAt c (i + 1) 10 j

private theorem enableWrites_eq (c : Controller) (count : UInt32) :
    enableWrites c count =
      (secondCommand c count).2.writes ++
        [⟨kbcOutBuf, (c.output (firstCommand c count).2.outputReads ||| 0x01).toUInt32⟩] :=
  rfl

/-- What the two commands write and return. -/
private theorem commands_cases (c : Controller) (count : UInt32) :
    (FreeTwice c ∧ (firstCommand c count).1 = 0 ∧ (secondCommand c count).1 = 0 ∧
        enableWrites c count = [⟨kbcCmdReg, readCmdByte⟩, ⟨kbcCmdReg, writeCmdByte⟩,
          ⟨kbcOutBuf, (c.output 0 ||| 0x01).toUInt32⟩]) ∨
      (¬ FreeTwice c ∧ ((firstCommand c count).1 ≠ 0 ∨ (secondCommand c count).1 ≠ 0)) := by
  have h2 := pollAndSend_cases c writeCmdByte 10 (readCommandByte c (firstCommand c count).2).2
  rcases pollAndSend_cases c readCmdByte 10 (Ports.start count) with
    ⟨i, hi, hr, hreads, hout, hwrites⟩ | ⟨hnone, hr, -, -⟩
  · have hreads' : (readCommandByte c (firstCommand c count).2).2.statusReads = i + 1 := by
      show (firstCommand c count).2.statusReads = i + 1
      rw [firstCommand, sendKBCCommandByte, hreads]
      show 0 + i + 1 = i + 1
      omega
    rw [hreads'] at h2
    rcases h2 with ⟨j, hj, hr', -, -, hwrites'⟩ | ⟨hnone, hr', -, -⟩
    · left
      refine ⟨⟨i, hi, j, hj⟩, hr, hr', ?_⟩
      have hout' : (firstCommand c count).2.outputReads = 0 := hout
      have hall : (secondCommand c count).2.writes = [⟨kbcCmdReg, readCmdByte⟩, ⟨kbcCmdReg, writeCmdByte⟩] := by
        rw [secondCommand, sendKBCCommandByte, hwrites']
        show (firstCommand c count).2.writes ++ _ = _
        rw [firstCommand, sendKBCCommandByte, hwrites]
        rfl
      rw [enableWrites_eq, hall, hout']
      rfl
    · right
      refine ⟨?_, Or.inr ?_⟩
      · rintro ⟨i', hi', hj⟩
        rw [hi'.unique hi] at hj
        exact hnone hj
      · rw [secondCommand, sendKBCCommandByte, hr']
        exact Nat.one_ne_zero
  · right
    refine ⟨fun ⟨i, hi, _⟩ => hnone ⟨i, hi⟩, Or.inl ?_⟩
    rw [firstCommand, sendKBCCommandByte, hr]
    exact Nat.one_ne_zero

/-- `enableInterrupts` keeps the command byte safe exactly if both of its commands find the input buffer free. -/
theorem commandByte_safe_iff (c : Controller) (count : UInt32) : CommandByteSafe c count ↔ FreeTwice c := by
  rcases commands_cases c count with ⟨hfree, h1, h2, hwrites⟩ | ⟨hbusy, htimeout⟩
  · refine iff_of_true ⟨fun b hb => ?_, fun h => ?_⟩ hfree
    · rw [hwrites] at hb ⊢
      refine ⟨by simp, by simp, ?_⟩
      simpa [kbcOutBuf, kbcCmdReg] using hb
    · rcases h with h | h
      · exact absurd h1 h
      · exact absurd h2 h
  · -- the last write is made all the same
    refine iff_of_false (fun hsafe => ?_) hbusy
    apply hsafe.timeout htimeout (c.output (firstCommand c count).2.outputReads ||| 0x01).toUInt32
    rw [enableWrites_eq]
    exact List.mem_concat_self

/-- The input buffer is never free: no command is sent, and the byte in the output buffer is written back with bit 0
as an argument of no command. -/
theorem commandByte_written_on_timeout :
    enableWrites ⟨fun _ => 0x02, fun _ => 0x1C⟩ 0 = [⟨0x60, 0x1D⟩] ∧
      ¬ CommandByteSafe ⟨fun _ => 0x02, fun _ => 0x1C⟩ 0 := by
  have hwrites : enableWrites ⟨fun _ => 0x02, fun _ => 0x1C⟩ 0 = [⟨0x60, 0x1D⟩] := by decide
  refine ⟨hwrites, fun hsafe => ?_⟩
  have hsent := (hsafe.sent 0x1D (by rw [hwrites]; exact List.mem_singleton.2 rfl)).1
  rw [hwrites] at hsent
  exact absurd hsent (by decide)

end LabChase.Lab3
