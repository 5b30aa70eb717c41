import LabChase.Library.Lattice
import LabChase.Proj.Players

/-!
# The light-cycle game, and its refinement by the framebuffer

The game itself knows no pixels: two players on the blocks of the plane, each with a heading, and the set of blocks
they have entered.  A move into that set is a crash.  The program keeps no such set; it reads one pixel of the
framebuffer.  `Refines` relates the two, for a black background and three bytes per pixel: both players and all
painted blocks lie on one lattice, and a pixel of the screen is lethal exactly when some painted block contains it.
As long as the blocks entered stay on the screen, every call keeps the relation (`Refines.enter`) and crashes in the
program exactly when it crashes in the game (`Refines.occupied_iff`).
-/

namespace LabChase

open FlatMemory Lattice

/-- The displacement of a move; `y` grows downwards. -/
def Direction.delta : Direction → ℤ × ℤ
  | .up => (0, -5)
  | .down => (0, 5)
  | .left => (-5, 0)
  | .right => (5, 0)
  | .unchanged => (0, 0)

/-- A state of the game: where the players are and head, and the blocks entered so far, named by their corners. -/
@[ext] structure Arena where
  cell : Player → ℤ × ℤ
  heading : Player → Direction
  trail : Set (ℤ × ℤ)

namespace Arena

def ahead (a : Arena) (p : Player) (d : Direction) : ℤ × ℤ := a.cell p + d.delta

def Crash (a : Arena) (p : Player) (d : Direction) : Prop := a.ahead p d ∈ a.trail

def enter (a : Arena) (p : Player) (d : Direction) : Arena where
  cell := fun q => if q = p then a.ahead p d else a.cell q
  heading := fun q => if q = p then d else a.heading q
  trail := insert (a.ahead p d) a.trail

def call (a : Arena) : Call → Arena
  | .active p d => if d = a.heading p ∨ d = opposite (a.heading p) then a else a.enter p d
  | .passive p => a.enter p (a.heading p)

end Arena

/-- The game at the start: the players are 200 pixels apart on the middle line, and nothing is painted. -/
def Arena.start (scr : Screen) : Arena where
  cell
    | .blue => ((scr.hRes.toNat / 2 : ℕ) - 100, (scr.vRes.toNat / 2 : ℕ))
    | .orange => ((scr.hRes.toNat / 2 : ℕ) + 100, (scr.vRes.toNat / 2 : ℕ))
  heading := fun p => (startPosition scr p).currentDirection
  trail := ∅

def corner (pos : PlayerPosition) : ℤ × ℤ := (pos.x.toNat, pos.y.toNat)

/-- The pixel has a colour that `vg_draw_rectangle` takes for a trail. -/
def Lethal (scr : Screen) (mem : Mem) (x y : UInt16) : Prop := findColor scr mem x y ≠ 0 ∧ findColor scr mem x y ≠ 255

/-- The 16-bit position `pos` stands for the block with corner `c`.  On a screen narrower than 200 pixels
`start_game` truncates a negative coordinate. -/
structure StandsFor (scr : Screen) (pos : PlayerPosition) (c : ℤ × ℤ) : Prop where
  x_eq : c.1 % 65536 = pos.x.toNat
  y_eq : c.2 = pos.y.toNat
  x_lt : c.1 + 5 < 65536
  y_lt : c.2 + 5 < 65536
  x_ge : 0 ≤ c.1 ∨ (-100 ≤ c.1 ∧ scr.hRes.toNat < 200)

/-- The program state `v` shows the game `a` on a black background. -/
structure Refines (scr : Screen) (v : Video) (a : Arena) : Prop where
  cell : ∀ p, StandsFor scr (v.player p) (a.cell p)
  heading : ∀ p, a.heading p = (v.player p).currentDirection
  steered : ∀ p, (v.player p).currentDirection ≠ .unchanged
  aligned : ∀ p q, Aligned 5 (a.cell p) (a.cell q)
  trailAligned : ∀ p, ∀ b ∈ a.trail, Aligned 5 (a.cell p) b
  lethal : ∀ x y, scr.OnScreen x y →
    (Lethal scr v.videoMem x y ↔ ∃ b ∈ a.trail, InBlock 5 b ((x.toNat : ℤ), (y.toNat : ℤ)))

/-! ### Positions and blocks on the screen -/

theorem StandsFor.corner_stepTo {scr : Screen} {pos : PlayerPosition} {c : ℤ × ℤ} {d : Direction}
    (hc : StandsFor scr pos c) (h : BlockOnScreen scr (stepTo pos d)) : corner (stepTo pos d) = c + d.delta := by
  have hh := scr.hRes_lt
  have hv := scr.vRes_lt
  have hx := pos.x.toNat_lt
  have hy := pos.y.toNat_lt
  obtain ⟨hcx, hcy, hx1, hy1, hx2⟩ := hc
  obtain ⟨h1, h2⟩ := h
  obtain ⟨cx, cy⟩ := c
  cases d <;>
    simp only [stepTo, movementStep, UInt16.toNat_add, UInt16.toNat_sub, UInt16.reduceToNat] at h1 h2 <;>
    simp only [corner, stepTo, movementStep, Direction.delta, UInt16.toNat_add, UInt16.toNat_sub,
      UInt16.reduceToNat, Prod.mk_add_mk, Prod.mk.injEq] <;>
    omega

theorem BlockOnScreen.standsFor {scr : Screen} {pos : PlayerPosition} (h : BlockOnScreen scr pos) :
    StandsFor scr pos (corner pos) := by
  have hh := scr.hRes_lt
  have hv := scr.vRes_lt
  unfold BlockOnScreen at h
  constructor <;> simp only [corner] <;> omega

theorem aligned_add_delta (b : ℤ × ℤ) (d : Direction) : Aligned 5 (b + d.delta) b := by
  cases d <;> simp [Aligned, Direction.delta]

theorem BlockOnScreen.onScreen {scr : Screen} {pos : PlayerPosition} (h : BlockOnScreen scr pos) :
    scr.OnScreen pos.x pos.y := by
  unfold BlockOnScreen at h
  unfold Screen.OnScreen
  omega

theorem mem_blockPixels {scr : Screen} {pos : PlayerPosition} (h : BlockOnScreen scr pos) (x y : UInt16) :
    (x, y) ∈ blockPixels pos ↔ InBlock 5 (corner pos) ((x.toNat : ℤ), (y.toNat : ℤ)) := by
  have hh := scr.hRes_lt
  have hv := scr.vRes_lt
  unfold BlockOnScreen at h
  have h5 : sizeFrontEnd.toNat = 5 := rfl
  rw [blockPixels, mem_rectanglePixels (by omega) (by omega), h5]
  simp only [InBlock, corner]
  omega

theorem onScreen_of_mem_blockPixels {scr : Screen} {pos : PlayerPosition} (h : BlockOnScreen scr pos)
    {p : UInt16 × UInt16} (hp : p ∈ blockPixels pos) : scr.OnScreen p.1 p.2 := by
  have hin := (mem_blockPixels h p.1 p.2).1 hp
  unfold BlockOnScreen at h
  simp only [InBlock, corner] at hin
  unfold Screen.OnScreen
  omega

private theorem trailColor_lethal {scr : Screen} (h3 : scr.bytesPerPixel = 3) (p : Player) :
    UInt32.ofNat ((trailColor p).toNat % 256 ^ scr.bytesPerPixel.toNat) ≠ 0 ∧
      UInt32.ofNat ((trailColor p).toNat % 256 ^ scr.bytesPerPixel.toNat) ≠ 255 := by
  rw [h3]
  cases p <;> decide

/-- After a block of the screen is painted, its pixels are lethal and the others are as before. -/
theorem lethal_paint {scr : Screen} (h3 : scr.bytesPerPixel = 3) (mem : Mem) (p : Player) {pos : PlayerPosition}
    (hpos : BlockOnScreen scr pos) {x y : UInt16} (h : scr.OnScreen x y) :
    Lethal scr (paint scr (trailColor p) mem (blockPixels pos)) x y ↔
      InBlock 5 (corner pos) ((x.toNat : ℤ), (y.toNat : ℤ)) ∨ Lethal scr mem x y := by
  have hb := scr.bytesPerPixel_pos h3
  have hcolor := trailColor_lethal h3 p
  rw [Lethal, findColor_paint (fun q hq => onScreen_of_mem_blockPixels hpos hq) h hb, ← mem_blockPixels hpos]
  by_cases hin : (x, y) ∈ blockPixels pos
  · simp only [hin, ↓reduceIte, true_or, iff_true]
    exact hcolor
  · simp only [hin, ↓reduceIte, false_or, Lethal]

/-! ### The refinement -/

namespace Refines

variable {scr : Screen} {v : Video} {a : Arena}

theorem ahead_eq (h : Refines scr v a) {p : Player} {d : Direction} (hon : BlockOnScreen scr (v.target p d)) :
    a.ahead p d = corner (v.target p d) := by
  rw [Arena.ahead, Video.target, (h.cell p).corner_stepTo hon]

/-- The program and the game agree on crashes. -/
theorem occupied_iff (h : Refines scr v a) {p : Player} {d : Direction} (hon : BlockOnScreen scr (v.target p d)) :
    Occupied scr v p d ↔ a.Crash p d := by
  have halign : ∀ b ∈ a.trail, Aligned 5 (a.ahead p d) b := fun b hb =>
    (aligned_add_delta (a.cell p) d).trans (h.trailAligned p b hb)
  rw [Arena.Crash, ← corner_mem_iff (by decide) halign, h.ahead_eq hon]
  exact h.lethal _ _ hon.onScreen

/-- Entering a block of the screen keeps the relation. -/
theorem enter (h : Refines scr v a) (h3 : scr.bytesPerPixel = 3) {p : Player} {d : Direction} (hd : d ≠ .unchanged)
    (hon : BlockOnScreen scr (v.target p d)) : Refines scr (v.enter scr p d) (a.enter p d) where
  cell q := by
    by_cases hq : q = p
    · subst hq
      simpa [Arena.enter, h.ahead_eq hon] using hon.standsFor
    · simpa [Arena.enter, hq, v.enter_player_of_ne scr hq d] using h.cell q
  heading q := by
    by_cases hq : q = p
    · subst hq
      simp [Arena.enter, Video.target, hd]
    · simp [Arena.enter, hq, v.enter_player_of_ne scr hq d, h.heading]
  steered := v.enter_steered scr h.steered p hd
  aligned q r := by
    have hmoved : ∀ q, Aligned 5 ((a.enter p d).cell q) (a.cell q) := fun q => by
      by_cases hq : q = p
      · subst hq
        simpa [Arena.enter, Arena.ahead] using aligned_add_delta (a.cell q) d
      · simpa [Arena.enter, hq] using Aligned.refl 5 (a.cell q)
    exact (hmoved q).trans ((h.aligned q r).trans (hmoved r).symm)
  trailAligned q b hb := by
    have hq : Aligned 5 ((a.enter p d).cell q) (a.cell p) := by
      by_cases hq : q = p
      · subst hq
        simpa [Arena.enter, Arena.ahead] using aligned_add_delta (a.cell q) d
      · simpa [Arena.enter, hq] using h.aligned q p
    rcases hb with rfl | hb
    · exact hq.trans (aligned_add_delta (a.cell p) d).symm
    · exact hq.trans (h.trailAligned p b hb)
  lethal x y hxy := by
    -- the block just painted is the one added to the trail
    rw [Video.enter_videoMem, lethal_paint h3 v.videoMem p hon hxy, h.lethal x y hxy]
    simp only [Arena.enter, Set.mem_insert_iff, exists_eq_or_imp, h.ahead_eq hon]

/-- A call in the game, told from the program state. -/
theorem call_eq (h : Refines scr v a) (c : Call) :
    a.call c = if c.Ignored v then a else a.enter c.player (c.info v).dir := by
  cases c with
  | active p d =>
    simp [Arena.call, Call.Ignored, LabChase.Ignored, Call.info, Call.isPassive, Call.player, h.heading p]
  | passive p =>
    have hno : ¬ (Call.passive p).Ignored v := not_ignored_passive v p
    rw [if_neg hno, Arena.call, h.heading p]
    rfl

theorem call (h : Refines scr v a) (h3 : scr.bytesPerPixel = 3) (c : Call)
    (hon : ¬ c.Ignored v → BlockOnScreen scr (c.target v)) : Refines scr (c.run scr v).2 (a.call c) := by
  rw [h.call_eq c]
  by_cases hig : c.Ignored v
  · rw [Call.run_ignored scr hig, if_pos hig]
    exact h
  · have hd := c.info_dir_ne_unchanged h.steered
    rw [Call.run_enters scr hd hig, if_neg hig]
    exact h.enter h3 hd (hon hig)

end Refines

/-! ### The start of a game -/

def Cleared (scr : Screen) (mem : Mem) : Prop := ∀ a : UInt32, a.toNat < scr.size → mem a = 0

theorem findColor_cleared {scr : Screen} {mem : Mem} (hc : Cleared scr mem) {x y : UInt16} (h : scr.OnScreen x y)
    (hb : 0 < scr.bytesPerPixel.toNat) : findColor scr mem x y = 0 := by
  have hzero := loadLE_pixel_const hc h hb
  have : loadLE mem (pixelOffset scr x.toUInt32 y.toUInt32) scr.bytesPerPixel.toNat = 0 := by
    simpa using hzero
  rw [findColor, this]
  rfl

theorem standsFor_start (scr : Screen) (p : Player) :
    StandsFor scr (startPosition scr p) ((Arena.start scr).cell p) := by
  have hh := scr.hRes_lt
  have hv := scr.vRes_lt
  cases p <;> constructor <;>
    simp only [Arena.start, startPosition, UInt32.toNat_toUInt16, UInt32.toNat_sub, UInt32.toNat_add,
      UInt32.toNat_div, UInt32.reduceToNat] <;>
    omega

theorem startGame_videoMem_day {hour : UInt8} (scr : Screen) (hday : hour < 0x19) (v : Video) :
    (startGame scr hour v).videoMem = v.videoMem := by
  have : ¬ hour ≥ 0x19 := UInt8.not_le.2 hday
  simp only [startGame, this, ↓reduceIte]

/-- By day, `start_game` on a cleared framebuffer shows the start of the game. -/
theorem Refines.start {scr : Screen} {v : Video} {hour : UInt8} (h3 : scr.bytesPerPixel = 3)
    (hc : Cleared scr v.videoMem) (hday : hour < 0x19) : Refines scr (startGame scr hour v) (Arena.start scr) := by
  have hb := scr.bytesPerPixel_pos h3
  refine ⟨fun p => ?_, fun p => ?_, startGame_steered scr hour v, fun p q => ?_, fun p b hb => ?_,
    fun x y hxy => ?_⟩
  · rw [startGame_player]
    exact standsFor_start scr p
  · rw [startGame_player]
    rfl
  · cases p <;> cases q <;> simp only [Arena.start, Aligned] <;> omega
  · exact absurd hb (Set.notMem_empty b)
  · rw [startGame_videoMem_day scr hday, Lethal, findColor_cleared hc hxy hb]
    simp [Arena.start]

end LabChase
