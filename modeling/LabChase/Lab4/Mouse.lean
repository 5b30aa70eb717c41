import LabChase.Library.Loops
import LabChase.Proj.Mouse

/-!
# The mouse of Lab 4 (`mouse.c`, `lab4.c`)

`mouse_ih`, the lines that put its bytes together to packets, and the loop of `mouse_test_packet`.  The status check and
`parse_mouse_bytes` are those of the project, whose `mouse.c` has the same text.
-/

namespace LabChase.Lab4

open Runs Loops

/-- The packet, the index of its next byte, and the global `mouse_ih` writes. -/
structure PacketLocals where
  pp : Packet
  counter : UInt8
  byteFromMouse : UInt8

/-- `mouse_ih`, with the bytes it reads from the status register and the output buffer. -/
def mouseIh (status temp : UInt8) (m : PacketLocals) : PacketLocals :=
  if MouseAccepts status then { m with byteFromMouse := temp } else m

def storeMouseByte (m : PacketLocals) : PacketLocals :=
  if m.counter = 0 ∧ m.byteFromMouse &&& 0x08 = 0 then m
  else
    { m with
      pp := { m.pp with bytes := Function.update m.pp.bytes m.counter.toNat m.byteFromMouse }
      counter := m.counter + 1 }

/-- What the functions of `lab4.c` do at a mouse interrupt, and the packet they then print. -/
def mouseInterrupt (p : UInt8 × UInt8) (m : PacketLocals) : PacketLocals × Option Packet :=
  let m := storeMouseByte (mouseIh p.1 p.2 m)
  if m.counter = 3 then
    let m := { m with counter := 0, pp := parseMouseBytes m.pp }
    (m, some m.pp)
  else (m, none)

/-- The state of `mouse_test_packet`. -/
structure TestPacket where
  mouse : PacketLocals
  cnt : UInt32

/-- A mouse interrupt in `mouse_test_packet`, and the packets given to `mouse_print_packet`. -/
def packetInterrupt (s : TestPacket) (p : UInt8 × UInt8) : TestPacket × List Packet :=
  match mouseInterrupt p s.mouse with
  | (m, some pp) => (⟨m, s.cnt - 1⟩, [pp])
  | (m, none) => (⟨m, s.cnt⟩, [])

/-- The body of the loop of `mouse_test_packet`. -/
def packetBody (s : TestPacket) : Receive → TestPacket × List Packet
  | .failed => (s, [])
  | .other => (s, [])
  | .hardware n => if n.mouse then packetInterrupt s (n.status, n.data) else (s, [])

/-- The condition of the loop of `mouse_test_packet`. -/
def Counting (s : TestPacket) : Prop := 0 < s.cnt

instance : DecidablePred Counting := fun s => inferInstanceAs (Decidable (0 < s.cnt))

/-- The state before the loop; `pp` is never initialised, the global byte is. -/
def packetStart (cnt : UInt32) (pp : Packet) : TestPacket := ⟨⟨pp, 0, 0⟩, cnt⟩

/-- What `mouse_test_packet` reads and prints, and where it stops or waits. -/
def packetTaken (cnt : UInt32) (pp : Packet) (rs : List Receive) : List Receive :=
  taken Counting packetBody (packetStart cnt pp) rs

def packetWritten (cnt : UInt32) (pp : Packet) (rs : List Receive) : List Packet :=
  written Counting packetBody (packetStart cnt pp) rs

def packetFinal (cnt : UInt32) (pp : Packet) (rs : List Receive) : TestPacket :=
  final Counting packetBody (packetStart cnt pp) rs

/-- The state of `mouse_test_packet` after some receives, as long as it has not left its loop. -/
def packetRun (cnt : UInt32) (pp : Packet) (rs : List Receive) : TestPacket :=
  run (fun s r => (packetBody s r).1) (packetStart cnt pp) rs

/-! ### What the controller delivers -/

/-- The status and data bytes a receive delivers to the mouse handler. -/
def mousePair : Receive → Option (UInt8 × UInt8)
  | .failed => none
  | .other => none
  | .hardware n => if n.mouse then some (n.status, n.data) else none

/-- The byte `mouse_ih` accepts. -/
def acceptedByte (p : UInt8 × UInt8) : Option UInt8 := if MouseAccepts p.1 then some p.2 else none

private theorem mouseIh_eq (status temp : UInt8) (m : PacketLocals) :
    mouseIh status temp m = { m with byteFromMouse := (acceptedByte (status, temp)).getD m.byteFromMouse } := by
  unfold mouseIh acceptedByte
  by_cases h : MouseAccepts status
  · simp only [h, ↓reduceIte, Option.getD_some]
  · simp only [h, ↓reduceIte, Option.getD_none]

theorem packetBody_eq : packetBody = listen mousePair packetInterrupt := by
  funext s r
  cases r with
  | failed => rfl
  | other => rfl
  | hardware n =>
    by_cases hm : n.mouse
    · have hpair : mousePair (.hardware n) = some (n.status, n.data) := if_pos hm
      rw [listen_some hpair, packetBody, if_pos hm]
    · have hpair : mousePair (.hardware n) = none := if_neg hm
      rw [listen_none hpair, packetBody, if_neg hm]

/-- A mouse byte is skipped, or it leaves the packet incomplete, or it completes the packet. -/
theorem mouseInterrupt_cases (m : PacketLocals) (p : UInt8 × UInt8) :
    let byte := (acceptedByte p).getD m.byteFromMouse
    let pp := { m.pp with bytes := Function.update m.pp.bytes m.counter.toNat byte }
    (m.counter = 0 ∧ byte &&& 0x08 = 0 ∧ mouseInterrupt p m = ({ m with byteFromMouse := byte }, none)) ∨
      (¬ (m.counter = 0 ∧ byte &&& 0x08 = 0) ∧ ¬ m.counter = 2 ∧
        mouseInterrupt p m = (⟨pp, m.counter + 1, byte⟩, none)) ∨
      (m.counter = 2 ∧ mouseInterrupt p m = (⟨parseMouseBytes pp, 0, byte⟩, some (parseMouseBytes pp))) := by
  intro byte pp
  have hih : mouseIh p.1 p.2 m = { m with byteFromMouse := byte } := mouseIh_eq p.1 p.2 m
  by_cases hskip : m.counter = 0 ∧ byte &&& 0x08 = 0
  · left
    have h3 : ¬ m.counter = 3 := by
      rw [hskip.1]
      decide
    have hstore : storeMouseByte { m with byteFromMouse := byte } = { m with byteFromMouse := byte } := if_pos hskip
    refine ⟨hskip.1, hskip.2, ?_⟩
    simp only [mouseInterrupt, hih, hstore, h3, ↓reduceIte]
  · right
    have hstore : storeMouseByte { m with byteFromMouse := byte } = ⟨pp, m.counter + 1, byte⟩ := if_neg hskip
    by_cases h2 : m.counter = 2
    · right
      have h3 : m.counter + 1 = 3 := by
        rw [h2]
        rfl
      refine ⟨h2, ?_⟩
      simp only [mouseInterrupt, hih, hstore, h3, ↓reduceIte]
    · left
      have h3 : ¬ m.counter + 1 = 3 := by grind
      refine ⟨hskip, h2, ?_⟩
      simp only [mouseInterrupt, hih, hstore, h3, ↓reduceIte]

/-- The bytes of a packet are stored at the indices 0, 1 and 2. -/
theorem counter_packetRun (cnt : UInt32) (pp : Packet) (rs : List Receive) :
    (packetRun cnt pp rs).mouse.counter < 3 := by
  have hstart : (packetStart cnt pp).mouse.counter < 3 := by
    show (0 : UInt8) < 3
    decide
  refine run_invariant (I := fun s : TestPacket => s.mouse.counter < 3) ?_ hstart rs
  intro s r h
  rw [packetBody_eq]
  cases hpair : mousePair r with
  | none => rwa [listen_none hpair]
  | some p =>
    rw [listen_some hpair, packetInterrupt]
    rcases mouseInterrupt_cases s.mouse p with ⟨-, -, heq⟩ | ⟨-, h2, heq⟩ | ⟨-, heq⟩
    · rw [heq]
      exact h
    · rw [heq]
      show s.mouse.counter + 1 < 3
      grind
    · rw [heq]
      show (0 : UInt8) < 3
      decide

end LabChase.Lab4
