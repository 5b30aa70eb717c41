import LabChase.Library.FlatMemory

/-!
# The data structures of the game (`auxiliary_data_structures.h`)

The enumerations and records shared by the modules of `proj/src`, the description of a mapped framebuffer, and the
statics of `video_gr.c`.
-/

namespace LabChase

open FlatMemory

inductive Direction where
  | up | down | left | right | unchanged
  deriving DecidableEq, Repr

inductive Player where
  | blue | orange
  deriving DecidableEq, Repr

structure MovementInfo where
  dir : Direction
  playerColor : Player
  deriving DecidableEq, Repr

inductive ScreenState where
  | main | sGame | mGame | pause | goOne | goTwo | quit
  deriving DecidableEq, Repr

structure PlayerPosition where
  x : UInt16
  y : UInt16
  currentDirection : Direction
  deriving DecidableEq, Repr

structure MousePos where
  x : UInt16
  y : UInt16
  deriving DecidableEq, Repr

/-- The part of `xpm_image_t` that is drawn. -/
structure XpmImage where
  width : UInt16
  height : UInt16
  bytes : Nat → UInt8

/-- The pixmaps of `XPMs/` that `load_images` loads. -/
inductive XpmMap where
  | mainScreen | pauseScreen | gopOneWins | gopTwoWins | cursor
  deriving DecidableEq, Repr

/-- `struct images`, each field by the pixmap it was loaded from; `none` for a field that was never assigned. -/
structure Images where
  main : Option XpmMap := none
  gameOver1 : Option XpmMap := none
  gameOver2 : Option XpmMap := none
  pause : Option XpmMap := none
  cursor : Option XpmMap := none
  deriving DecidableEq, Repr

/-- The statics `h_res`, `v_res` and `bytes_per_pixel` of a mapped framebuffer.  The resolutions come from `uint16_t`
fields of the mode description, and the framebuffer fits in the 32-bit address space it is mapped into. -/
structure Screen where
  hRes : UInt32
  vRes : UInt32
  bytesPerPixel : UInt32
  hRes_lt : hRes.toNat < 2 ^ 16
  vRes_lt : vRes.toNat < 2 ^ 16
  fits : hRes.toNat * vRes.toNat * bytesPerPixel.toNat < 2 ^ 32

def Screen.size (scr : Screen) : Nat := scr.hRes.toNat * scr.vRes.toNat * scr.bytesPerPixel.toNat

theorem Screen.bytesPerPixel_pos (scr : Screen) (h3 : scr.bytesPerPixel = 3) : 0 < scr.bytesPerPixel.toNat := by
  rw [h3]
  decide

def Screen.OnScreen (scr : Screen) (x y : UInt16) : Prop :=
  x.toNat < scr.hRes.toNat ∧ y.toNat < scr.vRes.toNat

instance (scr : Screen) (x y : UInt16) : Decidable (scr.OnScreen x y) :=
  inferInstanceAs (Decidable (_ ∧ _))

/-- The statics of `video_gr.c` that change after `new_vg_init`: the mapped memory, addressed relative to
`video_mem`, the two players and the mouse cursor. -/
structure Video where
  videoMem : Mem
  bluePlayer : PlayerPosition
  orangePlayer : PlayerPosition
  mouse : MousePos

def Video.player (v : Video) : Player → PlayerPosition
  | .blue => v.bluePlayer
  | .orange => v.orangePlayer

def Video.setPlayer (v : Video) (p : Player) (pos : PlayerPosition) : Video :=
  match p with
  | .blue => { v with bluePlayer := pos }
  | .orange => { v with orangePlayer := pos }

end LabChase
