import LabChase.Library.Streams
import LabChase.Proj.Keyboard

/-!
# The keyboard of Lab 3 (`keyboard.c`, `lab3.c`)

`kbc_ih`, and the loops of `kbd_test_scan` and `kbd_test_poll` around it.  Both loops leave right after the first
`0x81` that is accepted.  What they print differs: the first prints what `scanCode` holds after every keyboard
interrupt, the second clears `scanCode` before it reads.
-/

namespace LabChase.Lab3

open Runs Loops Streams

/-- `ESC_BREAK_CODE`. -/
def escBreakCode : UInt8 := 0x81

/-- The globals `scanCode` and `countSysInb`. -/
structure Kbd where
  scanCode : UInt8
  countSysInb : UInt32

/-- A call of `kbd_print_scancode`, with the bytes it prints. -/
structure PrintScancode where
  make : Bool
  size : UInt8
  bytes : List UInt8
  deriving DecidableEq, Repr

/-- `kbc_ih`, with the bytes its two calls of `util_sys_inb` read. -/
def kbcIh (status temp : UInt8) (s : Kbd) : Kbd :=
  let s := { s with countSysInb := s.countSysInb + 1 + 1 }
  if KbcAccepts status then { s with scanCode := temp } else s

/-- `kbd_print_scancode((scanCode & MSB) == 0, 1, &scanCode)`. -/
def printScancode (scanCode : UInt8) : PrintScancode := ⟨scanCode &&& 0x80 = 0, 1, [scanCode]⟩

/-- What both loops start with. -/
def start : Kbd := ⟨0, 0⟩

/-- The condition of both loops. -/
def Reading (s : Kbd) : Prop := s.scanCode ≠ escBreakCode

instance : DecidablePred Reading := fun s => inferInstanceAs (Decidable (s.scanCode ≠ escBreakCode))

/-- A keyboard interrupt in `kbd_test_scan`. -/
def scanInterrupt (s : Kbd) (p : UInt8 × UInt8) : Kbd × List PrintScancode :=
  let s := kbcIh p.1 p.2 s
  (s, [printScancode s.scanCode])

/-- The body of the loop of `kbd_test_scan`. -/
def scanBody (s : Kbd) : Receive → Kbd × List PrintScancode
  | .failed => (s, [])
  | .other => (s, [])
  | .hardware n => if n.keyboard then scanInterrupt s (n.status, n.data) else (s, [])

/-- The body of the loop of `kbd_test_poll`, with the bytes `kbc_ih` reads. -/
def pollBody (s : Kbd) (p : UInt8 × UInt8) : Kbd × List PrintScancode :=
  let s := { s with scanCode := 0 }
  let s := kbcIh p.1 p.2 s
  (s, if s.scanCode ≠ 0 then [printScancode s.scanCode] else [])

/-- What `kbd_test_scan` reads and prints, and where it stops or waits. -/
def scanTaken (rs : List Receive) : List Receive := taken Reading scanBody start rs

def scanWritten (rs : List Receive) : List PrintScancode := written Reading scanBody start rs

def scanFinal (rs : List Receive) : Kbd := final Reading scanBody start rs

/-- What `kbd_test_poll` reads and prints, and where it stops. -/
def pollTaken (ps : List (UInt8 × UInt8)) : List (UInt8 × UInt8) := taken Reading pollBody start ps

def pollWritten (ps : List (UInt8 × UInt8)) : List PrintScancode := written Reading pollBody start ps

def pollFinal (ps : List (UInt8 × UInt8)) : Kbd := final Reading pollBody start ps

/-! ### What the controller delivers -/

/-- The status and data bytes a receive delivers to the keyboard handler. -/
def keyboardPair : Receive → Option (UInt8 × UInt8)
  | .failed => none
  | .other => none
  | .hardware n => if n.keyboard then some (n.status, n.data) else none

/-- The byte `kbc_ih` accepts. -/
def acceptedByte (p : UInt8 × UInt8) : Option UInt8 := if KbcAccepts p.1 then some p.2 else none

/-- The accepted release of the `ESC` key. -/
def EscReleased (p : UInt8 × UInt8) : Prop := KbcAccepts p.1 ∧ p.2 = escBreakCode

instance : DecidablePred EscReleased := fun _ => inferInstanceAs (Decidable (_ ∧ _))

private theorem kbcIh_scanCode (status temp : UInt8) (s : Kbd) :
    (kbcIh status temp s).scanCode = (acceptedByte (status, temp)).getD s.scanCode := by
  unfold kbcIh acceptedByte
  by_cases h : KbcAccepts status
  · simp only [h, ↓reduceIte, Option.getD_some]
  · simp only [h, ↓reduceIte, Option.getD_none]

theorem acceptedByte_isSome (p : UInt8 × UInt8) : (acceptedByte p).isSome ↔ KbcAccepts p.1 := by
  unfold acceptedByte
  by_cases h : KbcAccepts p.1 <;> simp [h]

theorem escReleased_iff (p : UInt8 × UInt8) :
    EscReleased p ↔ Accepted (fun b => b = escBreakCode) (acceptedByte p) := by
  unfold EscReleased acceptedByte
  by_cases h : KbcAccepts p.1 <;> simp [h]

theorem scanBody_eq : scanBody = listen keyboardPair scanInterrupt := by
  funext s r
  cases r with
  | failed => rfl
  | other => rfl
  | hardware n =>
    by_cases hk : n.keyboard
    · have hpair : keyboardPair (.hardware n) = some (n.status, n.data) := if_pos hk
      rw [listen_some hpair, scanBody, if_pos hk]
    · have hpair : keyboardPair (.hardware n) = none := if_neg hk
      rw [listen_none hpair, scanBody, if_neg hk]

/-- After `kbc_ih` the loops go on, unless it accepted the release of `ESC`. -/
theorem reading_kbcIh {s : Kbd} (hs : Reading s) (p : UInt8 × UInt8) :
    Reading (kbcIh p.1 p.2 s) ↔ ¬ EscReleased p := by
  rw [Reading, kbcIh_scanCode, acceptedByte, EscReleased]
  by_cases h : KbcAccepts p.1
  · simp only [h, ↓reduceIte, Option.getD_some, true_and, ne_eq]
  · simp only [h, ↓reduceIte, Option.getD_none, false_and, not_false_eq_true, iff_true]
    exact hs

theorem reading_start : Reading start := by decide

theorem reading_scanInterrupt (s : Kbd) (p : UInt8 × UInt8) (hs : Reading s) :
    Reading (scanInterrupt s p).1 ↔ ¬ EscReleased p := reading_kbcIh hs p

theorem reading_pollBody (s : Kbd) (p : UInt8 × UInt8) (_ : Reading s) :
    Reading (pollBody s p).1 ↔ ¬ EscReleased p :=
  reading_kbcIh (s := { s with scanCode := 0 }) (by show (0 : UInt8) ≠ escBreakCode; decide) p

/-! ### What the loops read and print -/

theorem scanTaken_eq (rs : List Receive) :
    (scanTaken rs).filterMap keyboardPair = through EscReleased (rs.filterMap keyboardPair) := by
  rw [scanTaken, scanBody_eq, taken_listen, taken_eq_through reading_scanInterrupt reading_start]

theorem scanFinal_left_iff (rs : List Receive) :
    ¬ Reading (scanFinal rs) ↔ ∃ p ∈ rs.filterMap keyboardPair, EscReleased p := by
  rw [scanFinal, scanBody_eq, final_listen, final_not_guard_iff reading_scanInterrupt reading_start]

private theorem outputs_scanInterrupt (s : Kbd) (ps : List (UInt8 × UInt8)) :
    outputs scanInterrupt s ps = (held s.scanCode (ps.map acceptedByte)).map printScancode := by
  induction ps generalizing s with
  | nil => rfl
  | cons p ps ih =>
    have hcode : (scanInterrupt s p).1.scanCode = (acceptedByte p).getD s.scanCode := kbcIh_scanCode p.1 p.2 s
    rw [outputs, ih, hcode, List.map_cons, held, List.map_cons]
    simp only [scanInterrupt, kbcIh_scanCode, List.singleton_append]

/-- `kbd_test_scan` prints what the register `scanCode` shows, once for every keyboard interrupt. -/
theorem scanWritten_eq (rs : List Receive) :
    scanWritten rs =
      (held 0 ((through EscReleased (rs.filterMap keyboardPair)).map acceptedByte)).map printScancode := by
  rw [scanWritten, scanBody_eq, written_listen, written, taken_eq_through reading_scanInterrupt reading_start,
    outputs_scanInterrupt]
  rfl

theorem pollTaken_eq (ps : List (UInt8 × UInt8)) : pollTaken ps = through EscReleased ps :=
  taken_eq_through reading_pollBody reading_start ps

theorem pollFinal_left_iff (ps : List (UInt8 × UInt8)) : ¬ Reading (pollFinal ps) ↔ ∃ p ∈ ps, EscReleased p :=
  final_not_guard_iff reading_pollBody reading_start ps

private theorem outputs_pollBody {ps : List (UInt8 × UInt8)} (hdata : ∀ p ∈ ps, p.2 ≠ 0) (s : Kbd) :
    outputs pollBody s ps = (ps.map acceptedByte).reduceOption.map printScancode := by
  induction ps generalizing s with
  | nil => rfl
  | cons p ps ih =>
    have hp := hdata p (List.mem_cons_self ..)
    rw [outputs, ih fun q hq => hdata q (List.mem_cons_of_mem _ hq), List.map_cons]
    by_cases h : KbcAccepts p.1
    · have hbyte : acceptedByte p = some p.2 := if_pos h
      simp only [pollBody, kbcIh_scanCode, hbyte, Option.getD_some, ne_eq, hp, not_false_eq_true, ↓reduceIte,
        List.reduceOption_cons_of_some, List.map_cons, List.singleton_append]
    · have hbyte : acceptedByte p = none := if_neg h
      simp only [pollBody, kbcIh_scanCode, hbyte, Option.getD_none, ne_eq, not_true_eq_false, ↓reduceIte,
        List.reduceOption_cons_of_none, List.nil_append]

/-- `kbd_test_poll` prints the accepted bytes, if none is zero. -/
theorem pollWritten_eq {ps : List (UInt8 × UInt8)} (hdata : ∀ p ∈ ps, p.2 ≠ 0) :
    pollWritten ps = ((through EscReleased ps).map acceptedByte).reduceOption.map printScancode := by
  have htaken : taken Reading pollBody start ps = through EscReleased ps := pollTaken_eq ps
  rw [pollWritten, written, htaken]
  exact outputs_pollBody (fun p hp => hdata p (through_subset ps hp)) start

end LabChase.Lab3
