import LabChase.Proj.Pauses

/-!
# The picture of a game

The framebuffer is all the program keeps of a game, and it is a function of the blocks entered: each pixel of the screen
has the colour of the player that entered its block last, and the colour of the background if nobody did
(`game_picture`), by day and by night, in the framebuffer while the game is played and in the saved copy during a pause.
-/

namespace LabChase

open FlatMemory Runs

/-- A block and the player that entered it. -/
abbrev PaintedBlock := Player × PlayerPosition

/-- The blocks entered by a sequence of calls, in order. -/
def paintedBlocks (scr : Screen) : Video → List Call → List PaintedBlock
  | _, [] => []
  | v, c :: cs =>
    if c.Ignored v then paintedBlocks scr (c.run scr v).2 cs
    else (c.player, c.target v) :: paintedBlocks scr (c.run scr v).2 cs

/-- The last of the blocks that covers the pixel. -/
def topBlock (blocks : List PaintedBlock) (x y : UInt16) : Option PaintedBlock :=
  blocks.reverse.find? fun block => (x, y) ∈ blockPixels block.2

/-- The colour of a pixel on which the blocks were painted in order. -/
def paintedColor (background : UInt32) (blocks : List PaintedBlock) (x y : UInt16) : UInt32 :=
  match topBlock blocks x y with
  | some block => trailColor block.1
  | none => background

/-- The colour `start_game` leaves on the screen. -/
def backgroundColor (hour : UInt8) : UInt32 := if hour < 0x19 then 0 else 0xFFFFFF

private theorem paintedBlocks_append (scr : Screen) (v : Video) (cs ds : List Call) :
    paintedBlocks scr v (cs ++ ds) = paintedBlocks scr v cs ++ paintedBlocks scr (runCalls scr v cs) ds := by
  induction cs generalizing v with
  | nil => rfl
  | cons c cs ih =>
    simp only [List.cons_append, paintedBlocks, ih]
    split <;> rfl

private theorem paintedColor_concat (background : UInt32) (blocks : List PaintedBlock) (block : PaintedBlock)
    (x y : UInt16) :
    paintedColor background (blocks ++ [block]) x y =
      if (x, y) ∈ blockPixels block.2 then trailColor block.1 else paintedColor background blocks x y := by
  unfold paintedColor topBlock
  rw [List.reverse_concat, List.find?_cons]
  by_cases hin : (x, y) ∈ blockPixels block.2 <;> simp [hin]

/-- What the calls of a run paint. -/
private theorem findColor_runCalls {scr : Screen} (h3 : scr.bytesPerPixel = 3) {v : Video}
    (hsteered : ∀ p, (v.player p).currentDirection ≠ .unchanged) {cs : List Call} (hon : OnScreenRun scr v cs)
    {x y : UInt16} (h : scr.OnScreen x y) :
    findColor scr (runCalls scr v cs).videoMem x y =
      paintedColor (findColor scr v.videoMem x y) (paintedBlocks scr v cs) x y := by
  induction cs using List.reverseRecOn with
  | nil => rfl
  | append_singleton cs c ih =>
    obtain ⟨hpre, hlast⟩ := onScreenRun_append.1 hon
    have hrun : runCalls scr v (cs ++ [c]) = (c.run scr (runCalls scr v cs)).2 := run_concat _ _ _ _
    rw [hrun, paintedBlocks_append]
    by_cases hig : c.Ignored (runCalls scr v cs)
    · have hnone : paintedBlocks scr (runCalls scr v cs) [c] = [] := by simp [paintedBlocks, hig]
      rw [Call.run_ignored scr hig, hnone, List.append_nil]
      exact ih hpre
    · have hone : paintedBlocks scr (runCalls scr v cs) [c] = [(c.player, c.target (runCalls scr v cs))] := by
        simp [paintedBlocks, hig]
      have hsteered' : ∀ p, ((runCalls scr v cs).player p).currentDirection ≠ .unchanged := runCalls_steered hsteered cs
      have hd := c.info_dir_ne_unchanged hsteered'
      have hblock := (onScreenRun_cons.1 hlast).1 hig
      rw [hone, paintedColor_concat, ← ih hpre, Call.run_enters scr hd hig, Video.enter_videoMem, ← Call.target,
        findColor_paint (fun q hq => onScreen_of_mem_blockPixels hblock hq) h (scr.bytesPerPixel_pos h3),
        trailColor_kept h3]

theorem findColor_start {scr : Screen} (h3 : scr.bytesPerPixel = 3) {v₀ : Video} (hc : Cleared scr v₀.videoMem)
    (hour : UInt8) {x y : UInt16} (h : scr.OnScreen x y) :
    findColor scr (startGame scr hour v₀).videoMem x y = backgroundColor hour := by
  by_cases hday : hour < 0x19
  · rw [startGame_videoMem_day scr hday, findColor_cleared hc h (scr.bytesPerPixel_pos h3), backgroundColor,
      if_pos hday]
  · rw [findColor_night h3 hday v₀ h, backgroundColor, if_neg hday]

/-- At every moment of a game, played or paused, each pixel of the screen has the colour of the player that entered its
block last, or that of the background, as long as the blocks stay on the screen and nobody is turned in a pause. -/
theorem game_picture {w : World} (h3 : w.screen.bytesPerPixel = 3) {rs₀ : List Receive} {r : Receive}
    (hstart : StartsGame w (mainRun w rs₀) r) {rs : List Receive} (h : GoesOn w (rs₀ ++ [r]) rs) {x y : UInt16}
    (hxy : w.screen.OnScreen x y) :
    let start := (mainRun w (rs₀ ++ [r])).video
    let calls := callsOf w.screen start (playedCommands w (mainRun w (rs₀ ++ [r])) rs)
    findColor w.screen (gameVideo (mainRun w (rs₀ ++ [r] ++ rs))).videoMem x y =
      paintedColor (backgroundColor w.hour) (paintedBlocks w.screen start calls) x y := by
  intro start calls
  have hb := w.screen.bytesPerPixel_pos h3
  obtain ⟨hgame, v₀, hc, hvideo⟩ := startsGame_video hstart
  have hsteered : ∀ p, (start.player p).currentDirection ≠ .unchanged := by
    intro p
    simp only [start, hvideo]
    exact startGame_steered w.screen w.hour v₀ p
  obtain ⟨hsame, hon⟩ := h.sameGame hb (by rw [hgame]; exact hsteered)
  rw [hgame] at hsame hon
  rw [runCommands_eq] at hsame
  have hbackground : findColor w.screen start.videoMem x y = backgroundColor w.hour := by
    simp only [start, hvideo]
    exact findColor_start h3 hc w.hour hxy
  rw [← findColor_congr hsame.mem hxy hb, findColor_runCalls h3 hsteered hon hxy, hbackground]

theorem game_picture_paused :
    let start := (mainRun (world115 0x12) click).video
    let calls := callsOf (world115 0x12).screen start
      (playedCommands (world115 0x12) (mainRun (world115 0x12) click) pausedGame)
    findColor (world115 0x12).screen (gameVideo (mainRun (world115 0x12) (click ++ pausedGame))).videoMem 300 295 =
      paintedColor (backgroundColor 0x12) (paintedBlocks (world115 0x12).screen start calls) 300 295 :=
  @game_picture (world115 0x12) rfl [mouseByte 0x09, mouseByte 0] (mouseByte 0)
    ⟨by decide +kernel, by decide +kernel⟩ pausedGame goesOn_pausedGame 300 295 (by decide)

end LabChase
