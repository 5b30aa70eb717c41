import LabChase.Proj.MainState

/-!
# The mouse (`mouse.c`, `video_gr.c`)

`mouse_ih` and `parse_mouse_bytes`, and the functions that move the cursor and test where it is.
-/

namespace LabChase

/-- The status check of `mouse_ih`: no parity or timeout error, output buffer full, from the mouse. -/
def MouseAccepts (status : UInt8) : Prop :=
  (status &&& 0x80) ||| (status &&& 0x40) = 0 ∧ status &&& 0x01 = 1 ∧ status &&& 0x20 ≠ 0

instance (status : UInt8) : Decidable (MouseAccepts status) := inferInstanceAs (Decidable (_ ∧ _ ∧ _))

/-- `mouse_ih`, with the bytes it reads from the status register and the output buffer. -/
def mouseIh (status temp : UInt8) (s : Main) : Main :=
  if MouseAccepts status then { s with byteFromMouse := temp } else s

def parseMouseBytes (pp : Packet) : Packet :=
  { pp with
    lb := pp.bytes 0 &&& 0x01 != 0
    mb := pp.bytes 0 &&& 0x04 != 0
    rb := pp.bytes 0 &&& 0x02 != 0
    xOv := pp.bytes 0 &&& 0x40 != 0
    yOv := pp.bytes 0 &&& 0x80 != 0
    deltaX := if pp.bytes 0 &&& 0x10 = 0 then (pp.bytes 1).toNat else -256 + (pp.bytes 1).toNat
    deltaY := if pp.bytes 0 &&& 0x20 = 0 then (pp.bytes 2).toNat else -256 + (pp.bytes 2).toNat }

def drawCursor (scr : Screen) (cursor : XpmImage) (v : Video) : Video :=
  { v with videoMem := drawImg scr v.videoMem cursor v.mouse.x v.mouse.y }

/-- `setMouseInitPos`; the `unsigned` quotients are truncated to `uint16_t`. -/
def setMouseInitPos (scr : Screen) (cursor : XpmImage) (v : Video) : Video :=
  drawCursor scr cursor { v with mouse := ⟨(scr.hRes / 2).toUInt16, (scr.vRes / 2).toUInt16⟩ }

/-- `mouseMovement`; the comparisons are made on `unsigned` values. -/
def mouseMovement (scr : Screen) (x y : UInt16) (cursor : XpmImage) (v : Video) : Video :=
  let mx := v.mouse.x + x
  let my := v.mouse.y - y
  let mx := if mx.toUInt32 ≥ scr.hRes - 30 then (scr.hRes - 30).toUInt16 else mx
  let mx := if mx ≤ 30 then 30 else mx
  let my := if my.toUInt32 ≥ scr.vRes - 30 then (scr.vRes - 30).toUInt16 else my
  let my := if my ≤ 30 then 30 else my
  drawCursor scr cursor { v with mouse := ⟨mx, my⟩ }

def mouseInPlace (v : Video) (x1 y1 x2 y2 : UInt16) : Bool :=
  v.mouse.x ≥ x1 && v.mouse.x ≤ x2 && v.mouse.y ≥ y1 && v.mouse.y ≤ y2

end LabChase
