import LabChase.Lab3.Commands
import LabChase.Library.TwoPorts
import Mathlib.Data.Nat.Find

/-!
# What the devices get (`keyboard.c`, `mouse.c`)

`enableInterrupts` and `disableDataReporting` drop the return values of their commands and write their byte in any
case.  In a session of such calls every call delivers one byte, and does so without regard to the calls before it: to
the command byte or to the mouse if its last command was sent, and to the keyboard, which then takes it for a command,
if ten polls in a row found the input buffer full (`session_delivers`).
-/

namespace LabChase.Lab4

open Lab3 Runs TwoPorts

/-- The next byte goes to the mouse. -/
def writeMouse : UInt32 := 0xD4

/-- `disableDataReporting`; the acknowledgements are read and dropped, like the return value. -/
def disableDataReporting (c : Controller) (s : Ports) : Ports :=
  let (_, s) := sendKBCCommandByte c writeMouse s
  let (_, s) := readCommandByte c s
  let s := writeCommandByte 0xF6 s
  (readCommandByte c s).2

inductive KbcCall where
  | enableInterrupts
  | disableDataReporting

inductive Receiver where
  | commandByte | mouse | keyboard
  deriving DecidableEq, Repr

/-- Of the commands that are sent, `0x60` and `0xD4` take an argument. -/
def kbc : Device UInt32 Receiver where
  takes command :=
    if command = writeCmdByte then some .commandByte else if command = writeMouse then some .mouse else none
  rest := .keyboard

/-- The write as the controller sees it. -/
def asWrite (w : PortWrite) : Write UInt32 UInt32 := if w.port = kbcCmdReg then .command w.value else .data w.value

/-- The next ten polls find the input buffer full. -/
def TimesOut (c : Controller) (s : Ports) : Prop := ∀ k < 10, ¬ InputBufferFree (c.status (s.statusReads + k))

instance (c : Controller) (s : Ports) : Decidable (TimesOut c s) :=
  inferInstanceAs (Decidable (∀ k < 10, ¬ InputBufferFree (c.status (s.statusReads + k))))

namespace KbcCall

def run (c : Controller) (s : Ports) : KbcCall → Ports
  | .enableInterrupts => Lab3.enableInterrupts c s
  | .disableDataReporting => Lab4.disableDataReporting c s

/-- The ports when the last command of the call is sent. -/
def atLast (c : Controller) (s : Ports) : KbcCall → Ports
  | .enableInterrupts => (readCommandByte c (sendKBCCommandByte c readCmdByte s).2).2
  | .disableDataReporting => s

def last : KbcCall → UInt32
  | .enableInterrupts => writeCmdByte
  | .disableDataReporting => writeMouse

def intended : KbcCall → Receiver
  | .enableInterrupts => .commandByte
  | .disableDataReporting => .mouse

def byte (c : Controller) (s : Ports) : KbcCall → UInt8
  | .enableInterrupts => (readCommandByte c (sendKBCCommandByte c readCmdByte s).2).1 ||| intKbc
  | .disableDataReporting => 0xF6

/-- The byte of the call, and who gets it. -/
def delivery (c : Controller) (s : Ports) (call : KbcCall) : Receiver × UInt32 :=
  (if TimesOut c (call.atLast c s) then .keyboard else call.intended, (call.byte c s).toUInt32)

end KbcCall

/-- What the controller has been written so far. -/
def kbcWrites (s : Ports) : List (Write UInt32 UInt32) := s.writes.map asWrite

def session (c : Controller) (s : Ports) (calls : List KbcCall) : Ports := run (fun s call => call.run c s) s calls

/-! ### One call -/

private theorem not_timesOut_iff {c : Controller} {s : Ports} : ¬ TimesOut c s ↔ ∃ k, FreeAt c s.statusReads 10 k := by
  constructor
  · intro h
    obtain ⟨k, hk, hfree⟩ : ∃ k < 10, InputBufferFree (c.status (s.statusReads + k)) := by
      simpa [TimesOut] using h
    have hex : ∃ k, InputBufferFree (c.status (s.statusReads + k)) := ⟨k, hfree⟩
    exact ⟨Nat.find hex, (Nat.find_min' hex hfree).trans_lt hk, Nat.find_spec hex, fun j hj => Nat.find_min hex hj⟩
  · rintro ⟨k, hk, hfree, -⟩ hfull
    exact hfull k hk hfree

/-- A command is written unless the polls before it time out. -/
private theorem kbcWrites_send (c : Controller) (cmd : UInt32) (s : Ports) :
    kbcWrites (sendKBCCommandByte c cmd s).2 = kbcWrites s ++ (if TimesOut c s then [] else [cmd]).map .command := by
  rcases pollAndSend_cases c cmd 10 s with ⟨k, hk, -, -, -, hwrites⟩ | ⟨hnone, -, -, hwrites⟩
  · rw [if_neg (not_timesOut_iff.2 ⟨k, hk⟩), kbcWrites, sendKBCCommandByte, hwrites, List.map_append]
    rfl
  · rw [if_pos (not_not.1 (mt not_timesOut_iff.1 hnone)), kbcWrites, sendKBCCommandByte, hwrites, List.map_nil,
      List.append_nil]
    rfl

private theorem kbcWrites_writeCommandByte (b : UInt8) (s : Ports) :
    kbcWrites (writeCommandByte b s) = kbcWrites s ++ [.data b.toUInt32] := by
  rw [kbcWrites, writeCommandByte, Lab3.sysOutb, List.map_append]
  rfl

/-- A call writes a block of commands and its byte, and the last of the commands decides where the byte goes. -/
private theorem KbcCall.kbcWrites_run (c : Controller) (s : Ports) (call : KbcCall) :
    ∃ cs : List UInt32,
      kbcWrites (call.run c s) = kbcWrites s ++ (cs.map .command ++ [.data (call.byte c s).toUInt32]) ∧
      (cs.getLast?.bind kbc.takes).getD kbc.rest = (call.delivery c s).1 := by
  cases call with
  | enableInterrupts =>
    have hrun : kbcWrites (Lab3.enableInterrupts c s) =
        kbcWrites (sendKBCCommandByte c writeCmdByte (atLast c s .enableInterrupts)).2 ++
          [.data (byte c s .enableInterrupts).toUInt32] := kbcWrites_writeCommandByte _ _
    have hfirst : kbcWrites (atLast c s .enableInterrupts) = kbcWrites (sendKBCCommandByte c readCmdByte s).2 := rfl
    refine ⟨(if TimesOut c s then [] else [readCmdByte]) ++
      (if TimesOut c (atLast c s .enableInterrupts) then [] else [writeCmdByte]), ?_, ?_⟩
    · rw [KbcCall.run, hrun, kbcWrites_send, hfirst, kbcWrites_send, List.map_append, List.append_assoc,
        List.append_assoc, List.append_assoc]
    · rw [delivery]
      split <;> split <;> rfl
  | disableDataReporting =>
    have hrun : kbcWrites (Lab4.disableDataReporting c s) =
        kbcWrites (sendKBCCommandByte c writeMouse s).2 ++ [.data (byte c s .disableDataReporting).toUInt32] :=
      kbcWrites_writeCommandByte _ _
    refine ⟨if TimesOut c s then [] else [writeMouse], ?_, ?_⟩
    · rw [KbcCall.run, hrun, kbcWrites_send, List.append_assoc]
    · rw [delivery, atLast]
      split <;> rfl

/-! ### Sessions -/

/-- In every session each call delivers its byte as if it were the only one, and no command of it is left waiting. -/
theorem session_delivers (c : Controller) {s : Ports} (hs : kbc.waiting (kbcWrites s) = none) (calls : List KbcCall) :
    kbc.waiting (kbcWrites (session c s calls)) = none ∧
      kbc.deliveries (kbcWrites (session c s calls)) =
        kbc.deliveries (kbcWrites s) ++ outputs (fun s call => (call.run c s, [call.delivery c s])) s calls := by
  induction calls generalizing s with
  | nil => exact ⟨hs, (List.append_nil _).symm⟩
  | cons call calls ih =>
    obtain ⟨cs, hwrites, hlast⟩ := call.kbcWrites_run c s
    obtain ⟨hwaiting, hdelivered⟩ := kbc.deliveries_block hs cs (call.byte c s).toUInt32
    rw [← hwrites] at hwaiting hdelivered
    obtain ⟨hrest, hmore⟩ := ih hwaiting
    refine ⟨hrest, hmore.trans ?_⟩
    rw [hdelivered, hlast, List.append_assoc]
    rfl

/-- The controller is free for two polls only: the command byte is set, and the byte for the mouse goes to the
keyboard. -/
theorem session_delivers_astray :
    let c : Controller := ⟨fun i => if i < 2 then 0x1C else 0x1E, fun _ => 0x64⟩
    let s := session c (Ports.start 0) [.enableInterrupts, .disableDataReporting]
    kbc.waiting (kbcWrites s) = none ∧
      kbc.deliveries (kbcWrites s) = [(.commandByte, 0x65), (.keyboard, 0xF6)] := by
  intro c s
  obtain ⟨hwaiting, hdelivered⟩ :=
    session_delivers c (s := Ports.start 0) rfl [.enableInterrupts, .disableDataReporting]
  exact ⟨hwaiting, hdelivered.trans (by decide)⟩

end LabChase.Lab4
