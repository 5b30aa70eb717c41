import LabChase.Proj.GameOver
import LabChase.Proj.Menus
import LabChase.Proj.Rematch

/-!
# Behind the framebuffer

The framebuffer is all of the screen's memory that the program may write.  Its drawings, the night fill, the save and
the restore stay inside; the clear before a game does not.  So after any run the bytes behind the framebuffer are zero
as far as the clear reaches, if a game was ever started, and otherwise what they were, and nothing is ever written
behind the end of `saveGameScreen` (`only_clear_spills`).
-/

namespace LabChase

open FlatMemory Runs

/-- Behind the framebuffer the memories agree. -/
def SameBehind (scr : Screen) (mem mem' : Mem) : Prop := ∀ a : UInt32, scr.size ≤ a.toNat → mem' a = mem a

/-- The picture that is drawn ends on the screen. -/
def Action.Inside (w : World) : Action → Prop
  | .entryDraw _ picture | .packetDraw _ picture => ImageInside w.screen (w.image picture) 0 0
  | _ => True

/-- In a run the cursor fits in the margins, the pictures on the screen, and the blocks that are entered stay on it. -/
structure DrawsInside (w : World) (rs : List Receive) : Prop where
  cursor : (w.image loadImages.cursor).width ≤ 30 ∧ (w.image loadImages.cursor).height ≤ 30
  pictures : ∀ act ∈ mainLog w rs, act.Inside w
  blocks : ∀ pre r, pre ++ [r] <+: rs → ReadsKeys (mainRun w pre).screenState →
    OnScreenRun w.screen (mainRun w pre).video
      (callsOf w.screen (mainRun w pre).video (turnCommands (mainRun w pre) r))

/-! ### Drawings -/

section Drawings

variable {scr : Screen} {mem mem' mem'' : Mem} {v : Video}

theorem SameBehind.refl (scr : Screen) (mem : Mem) : SameBehind scr mem mem := fun _ _ => rfl

theorem SameBehind.trans (h : SameBehind scr mem mem') (h' : SameBehind scr mem' mem'') : SameBehind scr mem mem'' :=
  fun a ha => (h' a ha).trans (h a ha)

private theorem sameBehind_memcpy (mem : Mem) (src : Nat → UInt8) : SameBehind scr mem (memcpy mem 0 src scr.size) := by
  intro a ha
  have hfit : scr.size < 2 ^ 32 := scr.fits
  exact memcpy_outside (by simpa using hfit.le) (Or.inr (by simpa using ha))

private theorem sameBehind_drawImg (hb : 0 < scr.bytesPerPixel.toNat) {img : XpmImage} {x y : UInt16}
    (hin : ImageInside scr img x y) (mem : Mem) : SameBehind scr mem (drawImg scr mem img x y) := by
  intro a ha
  rw [drawImg_eq_copyAll]
  refine copyAll_of_not_covered (fun c hc hcovers => ?_) mem
  obtain ⟨offsetY, hy, rfl⟩ := List.mem_map.1 hc
  rw [List.mem_range] at hy
  obtain ⟨offsetX, hx, i, hi, hbyte⟩ := (imgRow_covers_iff hb hin hy a).1 hcovers
  have hend := hin.mul_add_le hx hy
  omega

private theorem sameBehind_drawCursor (hb : 0 < scr.bytesPerPixel.toNat) {cursor : XpmImage}
    (hcursor : cursor.width ≤ 30 ∧ cursor.height ≤ 30) (hh : 60 ≤ scr.hRes.toNat) (hv : 60 ≤ scr.vRes.toNat)
    {m : MousePos} (hm : InMargins scr m) (mem : Mem) : SameBehind scr mem (drawImg scr mem cursor m.x m.y) := by
  obtain ⟨hleft, hright, htop, hbottom⟩ := hm
  have hwidth : cursor.width.toNat ≤ 30 := UInt16.le_iff_toNat_le.1 hcursor.1
  have hheight : cursor.height.toNat ≤ 30 := UInt16.le_iff_toNat_le.1 hcursor.2
  exact sameBehind_drawImg hb (imageInside_of_le (by omega) (by omega)) mem

private theorem sameBehind_call (hb : 0 < scr.bytesPerPixel.toNat) {c : Call}
    (hon : ¬ c.Ignored v → BlockOnScreen scr (c.target v)) :
    SameBehind scr v.videoMem (c.run scr v).2.videoMem := by
  rcases c.run_cases scr v with ⟨-, h⟩ | ⟨-, -, h⟩ | ⟨hig, -, h⟩ <;> rw [h]
  · exact .refl scr _
  · exact .refl scr _
  · intro a ha
    exact paint_outside (fun p hp => onScreen_of_mem_blockPixels (hon hig) hp) hb ha _ _

private theorem sameBehind_runCalls (hb : 0 < scr.bytesPerPixel.toNat) {cs : List Call} (hon : OnScreenRun scr v cs) :
    SameBehind scr v.videoMem (runCalls scr v cs).videoMem := by
  induction cs generalizing v with
  | nil => exact .refl scr _
  | cons c cs ih =>
    obtain ⟨hfirst, hrest⟩ := onScreenRun_cons.1 hon
    exact (sameBehind_call hb hfirst).trans (ih hrest)

end Drawings

/-! ### One turn of the loop -/

section Turn

variable {w : World} {s : Main}

/-- What is drawn for a receive stays in the framebuffer. -/
private theorem handle_sameBehind (hb : 0 < w.screen.bytesPerPixel.toNat) (hh : 60 ≤ w.screen.hRes.toNat)
    (hv : 60 ≤ w.screen.vRes.toNat)
    (hcursor : (w.image loadImages.cursor).width ≤ 30 ∧ (w.image loadImages.cursor).height ≤ 30) {r : Receive}
    (hpictures : ∀ act ∈ (handle w s r).2, act.Inside w)
    (hblocks : ReadsKeys s.screenState → OnScreenRun w.screen s.video (callsOf w.screen s.video (turnCommands s r))) :
    SameBehind w.screen s.video.videoMem (handle w s r).1.video.videoMem := by
  by_cases hkeys : ReadsKeys s.screenState
  · rw [handle_turns_video w hkeys, runCommands_eq]
    exact sameBehind_runCalls hb (hblocks hkeys)
  cases r with
  | failed => exact .refl w.screen _
  | other => exact .refl w.screen _
  | hardware n =>
    by_cases hmenu : IsMenu s.screenState
    · rw [handle_menu_picture hmenu] at hpictures ⊢
      rcases menuBranch_cases w (packetPicture s.screenState) n s with h | ⟨pp, counter, byte, h | h⟩
      · rw [h]
        exact .refl w.screen _
      · rw [h]
        exact .refl w.screen _
      · rw [h] at hpictures ⊢
        have hpicture : (Action.packetDraw s.screenState (packetPicture s.screenState)).Inside w :=
          hpictures _ (by simp)
        have hmargins := inMargins_mouseMovement hh hv (w.image loadImages.cursor)
          (UInt16.ofInt (parseMouseBytes pp).deltaX) (UInt16.ofInt (parseMouseBytes pp).deltaY)
          (drawPicture w (packetPicture s.screenState) s.video)
        -- the picture first, the cursor over it
        exact (sameBehind_drawImg hb hpicture s.video.videoMem).trans
          (sameBehind_drawCursor hb hcursor hh hv hmargins _)
    · have hidle : s.screenState = .mGame ∨ s.screenState = .quit := by
        unfold ReadsKeys at hkeys
        unfold IsMenu at hmenu
        cases hx : s.screenState <;> simp_all
      rcases hidle with hx | hx <;> simp only [handle, hx] <;> exact .refl w.screen _

/-- What the actions leave behind the framebuffer: a clear zeroes the bytes it reaches. -/
def spill (w : World) (acts : List Action) (mem : Mem) : Mem := fun a =>
  if .startGame ∈ acts ∧ a.toNat < (clearBytes w.screen).toNat then 0 else mem a

private theorem spill_of_notMem {acts : List Action} (h : .startGame ∉ acts) (mem : Mem) : spill w acts mem = mem := by
  funext a
  rw [spill, if_neg (fun hspill => h hspill.1)]

private theorem spill_append (acts acts' : List Action) (mem : Mem) :
    spill w (acts ++ acts') mem = spill w acts' (spill w acts mem) := by
  funext a
  by_cases hlt : a.toNat < (clearBytes w.screen).toNat
  · by_cases h : .startGame ∈ acts'
    · simp [spill, h, hlt]
    · simp [spill, h]
  · simp [spill, hlt]

private theorem beginGame_behind (w : World) (t : Main) :
    SameBehind w.screen (spill w [.startGame] t.video.videoMem) (beginGame w t).video.videoMem := by
  have hclear : (clearScreen w t.video).videoMem = spill w [.startGame] t.video.videoMem := by
    funext a
    show memcpy t.video.videoMem 0 (fun _ => 0) (clearBytes w.screen).toNat a = _
    simp only [memcpy, spill, List.mem_singleton, true_and, UInt32.sub_zero]
  have hnight : SameBehind w.screen (clearScreen w t.video).videoMem (beginGame w t).video.videoMem := by
    show SameBehind _ _ (if w.hour ≥ 0x19 then memset (clearScreen w t.video).videoMem 0 255
      (nightFillBytes w.screen).toNat else (clearScreen w t.video).videoMem)
    split
    · rw [nightFillBytes_toNat]
      exact sameBehind_memcpy _ fun _ => 255
    · exact .refl w.screen _
  rw [← hclear]
  exact hnight

/-- What the head of the next loop does behind the framebuffer and behind the saved copy of it. -/
theorem Entry.behind {t : Main} {e : Main × List Action} (h : Entry w s t e) (hb : 0 < w.screen.bytesPerPixel.toNat)
    (hpictures : ∀ act ∈ e.2, act.Inside w) :
    SameBehind w.screen (spill w e.2 t.video.videoMem) e.1.video.videoMem ∧
      SameBehind w.screen t.saveGameScreen e.1.saveGameScreen := by
  cases h with
  | stay _ => exact ⟨by rw [spill_of_notMem (by simp)]; exact .refl w.screen _, .refl w.screen _⟩
  | exit _ => exact ⟨by rw [spill_of_notMem (by simp)]; exact .refl w.screen _, .refl w.screen _⟩
  | newGame _ _ => exact ⟨beginGame_behind w t, .refl w.screen _⟩
  | pause _ _ =>
    have hpicture : (Action.entryDraw .pause loadImages.pause).Inside w := hpictures _ (by simp)
    rw [spill_of_notMem (by simp)]
    refine ⟨sameBehind_drawImg hb hpicture _, ?_⟩
    show SameBehind w.screen _ (savedScreen w t)
    rw [savedScreen, saveBytes_screen]
    exact sameBehind_memcpy _ _
  | resume _ _ =>
    rw [spill_of_notMem (by simp)]
    refine ⟨?_, .refl w.screen _⟩
    show SameBehind w.screen _ (memcpy t.video.videoMem 0 (fun i => t.saveGameScreen (UInt32.ofNat i))
      (saveBytes w.screen).toNat)
    rw [saveBytes_screen]
    exact sameBehind_memcpy _ _
  | gameOver picture _ _ =>
    have hpicture : (Action.entryDraw t.screenState picture).Inside w := hpictures _ (by simp)
    rw [spill_of_notMem (by simp)]
    exact ⟨sameBehind_drawImg hb hpicture _, .refl w.screen _⟩

end Turn

/-! ### Runs -/

private theorem SameBehind.spill {w : World} {mem mem' : Mem} (h : SameBehind w.screen mem mem') (acts : List Action) :
    SameBehind w.screen (spill w acts mem) (spill w acts mem') := by
  intro a ha
  simp only [LabChase.spill, h a ha]

/-- Behind the framebuffer a run leaves zeroes as far as the clear reaches, if a game was started in it, and nothing
else, and behind the saved framebuffer it leaves nothing at all. -/
theorem only_clear_spills {w : World} (hb : 0 < w.screen.bytesPerPixel.toNat) (hh : 60 ≤ w.screen.hRes.toNat)
    (hv : 60 ≤ w.screen.vRes.toNat) {rs : List Receive} (h : DrawsInside w rs) :
    SameBehind w.screen (spill w (mainLog w rs) w.videoMem) (mainRun w rs).video.videoMem ∧
      SameBehind w.screen w.saveGameScreen (mainRun w rs).saveGameScreen := by
  have hlog : ∀ pre, pre <+: rs → ∀ act ∈ mainLog w pre, act.Inside w := by
    rintro pre ⟨rest, rfl⟩ act hact
    exact h.pictures act (by rw [mainLog_append]; exact List.mem_append_left _ hact)
  refine prefix_induction (P := fun pre =>
    SameBehind w.screen (spill w (mainLog w pre) w.videoMem) (mainRun w pre).video.videoMem ∧
      SameBehind w.screen w.saveGameScreen (mainRun w pre).saveGameScreen) ?_ (fun pre r hpre ih => ?_) rs
    List.prefix_rfl
  · have hboot : mainLog w [] = [.entryDraw .main loadImages.main] := rfl
    have hmain : (Action.entryDraw .main loadImages.main).Inside w := hlog [] List.nil_prefix _ (by simp [hboot])
    have hinit : SameBehind w.screen w.videoMem (init w).video.videoMem :=
      sameBehind_drawCursor hb h.cursor hh hv
        (inMargins_setMouseInitPos hh hv (w.image loadImages.cursor) ⟨w.videoMem, ⟨0, 0, .up⟩, ⟨0, 0, .up⟩, ⟨0, 0⟩⟩) _
    refine ⟨?_, .refl w.screen _⟩
    rw [spill_of_notMem (by simp [hboot])]
    exact hinit.trans (sameBehind_drawImg hb hmain _)
  · have hentry := step_entry (w := w) (flagsOk_mainRun w pre) r
    have hstep : ∀ act ∈ (step w (mainRun w pre) r).2, act.Inside w := fun act hact =>
      hlog _ hpre act (by rw [mainLog_concat]; exact List.mem_append_right _ hact)
    have hhandle := handle_sameBehind hb hh hv h.cursor (fun act hact => hstep act (List.mem_append_left _ hact))
      (h.blocks pre r hpre)
    have hbehind := hentry.behind hb fun act hact => hstep act (List.mem_append_right _ hact)
    have hquiet : Action.startGame ∉ (handle w (mainRun w pre) r).2 := fun hstart =>
      handle_not_ofEntry w _ r _ hstart trivial
    rw [mainRun_concat, mainLog_concat, step_fst, step_snd, spill_append, spill_append, spill_of_notMem hquiet]
    refine ⟨?_, ih.2.trans ?_⟩
    · exact (SameBehind.spill (ih.1.trans hhandle) _).trans hbehind.1
    · rw [← (handle_sameFlags w (mainRun w pre) r).saveGameScreen]
      exact hbehind.2

/-- The mode of the program, with a cursor of the size of `cursor.xpm` and a memory that is not empty. -/
def writtenWorld : World :=
  { world115 0x12 with
    loadImage := fun map => if map = .cursor then arrow else blankImage
    videoMem := fun _ => 7 }

/-- A game and its first tick leave 420000 zeroes behind the framebuffer, the last one at 1859999. -/
theorem only_clear_spills_tick :
    let mem := (mainRun writtenWorld (click ++ timerInterrupts 5)).video.videoMem
    writtenWorld.screen.size = 1440000 ∧ mem 1859999 = 0 ∧ mem 1860000 = 7 := by
  have himage : ∀ picture, ImageInside writtenWorld.screen (writtenWorld.image picture) 0 0 := by
    intro picture
    rcases picture with - | - | - | - | - | -
    all_goals exact imageInside_of_le (by decide) (by decide)
  have hdraws : DrawsInside writtenWorld (click ++ timerInterrupts 5) := by
    refine ⟨by decide, fun act _ => ?_, fun pre r hpre => ?_⟩
    · cases act with
      | entryDraw screen picture => exact himage picture
      | packetDraw screen picture => exact himage picture
      | _ => trivial
    · have hall : ∀ pre ∈ (click ++ timerInterrupts 5).inits, ∀ r ∈ click ++ timerInterrupts 5,
          ReadsKeys (mainRun writtenWorld pre).screenState →
            OnScreenRun writtenWorld.screen (mainRun writtenWorld pre).video
              (callsOf writtenWorld.screen (mainRun writtenWorld pre).video
                (turnCommands (mainRun writtenWorld pre) r)) := by decide +kernel
      exact hall pre ((List.mem_inits ..).2 ((List.prefix_append ..).trans hpre)) r
        (hpre.subset (List.mem_append_right _ (List.mem_singleton_self r)))
  have hstarted : Action.startGame ∈ mainLog writtenWorld (click ++ timerInterrupts 5) := by decide +kernel
  have hspill := (only_clear_spills (by decide) (by decide) (by decide) hdraws).1
  refine ⟨by decide, ?_, ?_⟩
  · exact (hspill 1859999 (by decide)).trans (if_pos ⟨hstarted, by decide⟩)
  · exact (hspill 1860000 (by decide)).trans (if_neg (fun h => absurd h.2 (by decide)))

end LabChase
