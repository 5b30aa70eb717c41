import LabChase.Proj.Players

/-!
# The state of the program (`main.c`)

The globals and the locals of `proj_main_loop` that change while it runs, what it receives from `driver_receive`, and
what it does that can be observed from outside.
-/

namespace LabChase

open FlatMemory

structure Packet where
  bytes : Nat → UInt8
  rb : Bool
  mb : Bool
  lb : Bool
  deltaX : Int
  deltaY : Int
  xOv : Bool
  yOv : Bool

/-- What the program finds when it starts: the description of the mode `0x115`, the hour, the images `xpm_load`
returns, and the contents of memory that was never written. -/
structure World where
  info : VbeModeInfo
  noOverflow : info.NoOverflow
  hour : UInt8
  loadImage : XpmMap → XpmImage
  unassigned : XpmImage
  videoMem : Mem
  saveGameScreen : Mem
  packet : Packet

def World.screen (w : World) : Screen := (newVgInit w.info w.noOverflow).screen

def World.image (w : World) : Option XpmMap → XpmImage
  | some map => w.loadImage map
  | none => w.unassigned

/-- The globals and the locals of `proj_main_loop`.  `totalInterrupts` is a signed `int` that nothing resets; the number
here is its value in every run with fewer than `2 ^ 31` timer interrupts in `S_GAME`. -/
structure Main where
  screenState : ScreenState
  printed : Bool
  startGame : Bool
  paused : Bool
  counter : UInt8
  pp : Packet
  byteFromMouse : UInt8
  totalInterrupts : Nat
  scanCode : UInt8
  nextMove : MovementInfo
  video : Video
  saveGameScreen : Mem

/-- What the loop does between two calls of `driver_receive`, in order.  A picture is named by the pixmap it was
loaded from. -/
inductive Action where
  | startGame
  | saveScreen
  | restoreScreen
  | entryDraw (screen : ScreenState) (picture : Option XpmMap)
  | packetDraw (screen : ScreenState) (picture : Option XpmMap)
  | passiveMovePlayers
  | readOutBuf
  | parseMouseBytes (bytes : List UInt8)
  deriving DecidableEq, Repr

/-- A hardware notification, and the status and data bytes the keyboard controller holds while it is handled. -/
structure Notification where
  interrupts : UInt32
  status : UInt8
  data : UInt8
  deriving DecidableEq, Repr

/-- What a call of `driver_receive` yields: a failure, a message that is not a hardware notification, or one that is. -/
inductive Receive where
  | failed
  | other
  | hardware (n : Notification)
  deriving DecidableEq, Repr

namespace Notification

/-- `bit_no_timer` is `0`, `bit_no_keyboard` is `KBD_IRQ`, `bit_no_mouse` is `MOUSE_IRQ`. -/
def timer (n : Notification) : Bool := n.interrupts &&& 0x1 != 0

def keyboard (n : Notification) : Bool := n.interrupts &&& 0x2 != 0

def mouse (n : Notification) : Bool := n.interrupts &&& 0x1000 != 0

end Notification

namespace Receive

def timer : Receive → Bool
  | .hardware n => n.timer
  | _ => false

def keyboard : Receive → Bool
  | .hardware n => n.keyboard
  | _ => false

def mouse : Receive → Bool
  | .hardware n => n.mouse
  | _ => false

end Receive

end LabChase
