import LabChase.Proj.Cursor
import LabChase.Proj.Packets
import LabChase.Proj.Screens

/-!
# The menus

A menu draws its picture when it is entered and again for every packet, and the cursor only for a packet.  So what a
menu shows is determined by its last drawing (`menu_shows_last_draw`): the picture alone until the first packet is
complete, then the picture with one cursor, and nothing of what was on the screen before.
-/

namespace LabChase

open FlatMemory Runs

/-- The picture a menu draws when it is entered. -/
def entryPicture : ScreenState → Option XpmMap
  | .main => loadImages.main
  | .goOne => loadImages.gameOver1
  | _ => loadImages.gameOver2

/-- The picture a menu draws for a packet; both game-over screens draw `gameOver2`. -/
def packetPicture : ScreenState → Option XpmMap
  | .main => loadImages.main
  | _ => loadImages.gameOver2

def Action.isDraw : Action → Bool
  | .entryDraw _ _ | .packetDraw _ _ => true
  | _ => false

def lastDraw (log : List Action) : Option Action := log.reverse.find? Action.isDraw

/-- A drawing of the menu `x`. -/
def Action.DrawsMenu (x : ScreenState) (act : Action) : Prop :=
  act = .entryDraw x (entryPicture x) ∨ act = .packetDraw x (packetPicture x)

/-- The framebuffer `below` after a drawing, with the cursor at `mouse`. -/
def shown (w : World) (mouse : MousePos) (below : Mem) : Action → Mem
  | .entryDraw _ picture => drawImg w.screen below (w.image picture) 0 0
  | .packetDraw _ picture =>
    drawImg w.screen (drawImg w.screen below (w.image picture) 0 0) (w.image loadImages.cursor) mouse.x mouse.y
  | _ => below

/-- The image has the size of the screen. -/
def Fills (scr : Screen) (img : XpmImage) : Prop :=
  img.width.toNat = scr.hRes.toNat ∧ img.height.toNat = scr.vRes.toNat

instance (scr : Screen) (img : XpmImage) : Decidable (Fills scr img) := inferInstanceAs (Decidable (_ ∧ _))

/-- The picture that is drawn has the size of the screen. -/
def Action.Fills (w : World) : Action → Prop
  | .entryDraw _ picture | .packetDraw _ picture => LabChase.Fills w.screen (w.image picture)
  | _ => True

/-! ### Pictures that fill the screen -/

theorem imageInside_of_le {scr : Screen} {img : XpmImage} {x y : UInt16}
    (hw : x.toNat + img.width.toNat ≤ scr.hRes.toNat) (hh : y.toNat + img.height.toNat ≤ scr.vRes.toNat) :
    ImageInside scr img x y := by
  intro offsetX hx offsetY hy
  calc (y.toNat + offsetY) * scr.hRes.toNat + (x.toNat + offsetX)
      < (y.toNat + offsetY + 1) * scr.hRes.toNat := by rw [Nat.succ_mul]; omega
    _ ≤ scr.vRes.toNat * scr.hRes.toNat := Nat.mul_le_mul_right _ (by omega)
    _ = scr.hRes.toNat * scr.vRes.toNat := Nat.mul_comm _ _

/-- Every byte of the framebuffer belongs to a row of an image of the size of the screen. -/
theorem Fills.covers {scr : Screen} {img : XpmImage} (h : Fills scr img) (hb : 0 < scr.bytesPerPixel.toNat) {a : UInt32}
    (ha : a.toNat < scr.size) : ∃ c ∈ (List.range img.height.toNat).map (imgRow scr img 0 0), c.Covers a := by
  obtain ⟨hwidth, hheight⟩ := h
  have hindex : a.toNat / scr.bytesPerPixel.toNat < scr.vRes.toNat * scr.hRes.toNat := by
    rw [Nat.div_lt_iff_lt_mul hb, Nat.mul_comm scr.vRes.toNat]
    exact ha
  have hpos : 0 < scr.hRes.toNat := by
    by_contra hzero
    rw [Nat.eq_zero_of_not_pos hzero] at hindex
    simp at hindex
  have hinside : ImageInside scr img 0 0 := by
    refine imageInside_of_le ?_ ?_ <;> rw [UInt16.toNat_zero] <;> omega
  -- the line, the column and the byte of the address
  have hline : a.toNat / scr.bytesPerPixel.toNat / scr.hRes.toNat < img.height.toNat := by
    rw [hheight, Nat.div_lt_iff_lt_mul hpos]
    exact hindex
  have hcolumn : a.toNat / scr.bytesPerPixel.toNat % scr.hRes.toNat < img.width.toNat := by
    rw [hwidth]
    exact Nat.mod_lt _ hpos
  refine ⟨_, List.mem_map_of_mem (List.mem_range.2 hline), ?_⟩
  rw [imgRow_covers_iff hb hinside hline]
  refine ⟨_, hcolumn, a.toNat % scr.bytesPerPixel.toNat, Nat.mod_lt _ hb, ?_⟩
  simp only [imgIndex, UInt16.toNat_zero, Nat.zero_add]
  rw [Nat.mul_comm _ scr.hRes.toNat, Nat.div_add_mod, Nat.mul_comm, Nat.div_add_mod]

/-- Such an image leaves nothing of what was there before. -/
private theorem Fills.drawImg_eq {scr : Screen} {img : XpmImage} (h : Fills scr img) (hb : 0 < scr.bytesPerPixel.toNat)
    {a : UInt32} (ha : a.toNat < scr.size) (mem mem' : Mem) :
    drawImg scr mem img 0 0 a = drawImg scr mem' img 0 0 a := by
  obtain ⟨byte, hbyte⟩ := exists_byte_of_covered (h.covers hb ha)
  rw [drawImg_eq_copyAll, drawImg_eq_copyAll, hbyte, hbyte]

private theorem shown_eq {w : World} (hb : 0 < w.screen.bytesPerPixel.toNat) {x : ScreenState} {act : Action}
    (hact : act.DrawsMenu x) (hfills : act.Fills w) (mouse : MousePos) (below below' : Mem) {a : UInt32}
    (ha : a.toNat < w.screen.size) : shown w mouse below act a = shown w mouse below' act a := by
  rcases hact with rfl | rfl
  · exact LabChase.Fills.drawImg_eq hfills hb ha below below'
  · simp only [shown]
    rw [drawImg_eq_copyAll, drawImg_eq_copyAll _ (drawImg w.screen below' _ 0 0)]
    exact copyAll_congr_mem (LabChase.Fills.drawImg_eq hfills hb ha below below') _

/-! ### The last drawing -/

private theorem lastDraw_append_of_draw (log acts : List Action) {act : Action} (h : act.isDraw) :
    lastDraw (log ++ (acts ++ [act])) = some act := by
  simp [lastDraw, h]

private theorem lastDraw_append_of_not {log acts : List Action} (h : ∀ act ∈ acts, ¬ act.isDraw) :
    lastDraw (log ++ acts) = lastDraw log := by
  have hnone : acts.reverse.find? Action.isDraw = none := by
    rw [List.find?_eq_none]
    exact fun act hact => h act (List.mem_reverse.1 hact)
  rw [lastDraw, List.reverse_append, List.find?_append, hnone, Option.none_or, lastDraw]

theorem handle_menu_picture {s : Main} (hs : IsMenu s.screenState) (w : World) (n : Notification) :
    handle w s (.hardware n) = menuBranch w (packetPicture s.screenState) n s := by
  rcases hs with hx | hx | hx <;> simp only [handle, hx, packetPicture]

/-- A state shows the last drawing of a menu. -/
def ShowsLast (w : World) (log : List Action) (s : Main) : Prop :=
  ∃ act, lastDraw log = some act ∧ act.DrawsMenu s.screenState ∧
    ∃ below, s.video.videoMem = shown w s.video.mouse below act

/-- A turn that stays in a menu brings a packet, which draws the menu again, or draws nothing. -/
theorem ShowsLast.handle {w : World} {log : List Action} {s : Main} (h : ShowsLast w log s)
    (hs : IsMenu s.screenState) {r : Receive} (hstay : (handle w s r).1.screenState = s.screenState) :
    ShowsLast w (log ++ (handle w s r).2) (handle w s r).1 := by
  have hquiet : ∀ acts : List Action, (∀ act ∈ acts, ¬ act.isDraw) → ∀ pp counter byte,
      ShowsLast w (log ++ acts) { s with pp := pp, counter := counter, byteFromMouse := byte } := by
    intro acts hacts pp counter byte
    obtain ⟨act, hlast, hact⟩ := h
    exact ⟨act, (lastDraw_append_of_not hacts).trans hlast, hact⟩
  cases r with
  | failed => exact hquiet [] (by simp) s.pp s.counter s.byteFromMouse
  | other => exact hquiet [] (by simp) s.pp s.counter s.byteFromMouse
  | hardware n =>
    rw [handle_menu_picture hs] at hstay ⊢
    rcases menuBranch_cases w (packetPicture s.screenState) n s with hcase | ⟨pp, counter, byte, hcase | hcase⟩
    · rw [hcase]
      exact hquiet [] (by simp) s.pp s.counter s.byteFromMouse
    · rw [hcase]
      exact hquiet [.readOutBuf] (by simp [Action.isDraw]) pp counter byte
    · rw [hcase] at hstay ⊢
      refine ⟨.packetDraw s.screenState (packetPicture s.screenState), ?_, ?_, s.video.videoMem, rfl⟩
      · exact lastDraw_append_of_draw log [.readOutBuf, .parseMouseBytes [pp.bytes 0, pp.bytes 1, pp.bytes 2]] rfl
      · exact Or.inr (by rw [hstay])

private theorem showsLast_mainRun (w : World) (rs : List Receive) (hmenu : IsMenu (mainRun w rs).screenState) :
    ShowsLast w (mainLog w rs) (mainRun w rs) := by
  induction rs using List.reverseRecOn with
  | nil => exact ⟨.entryDraw .main loadImages.main, rfl, Or.inl rfl, (init w).video.videoMem, rfl⟩
  | append_singleton rs r ih =>
    have hentry := step_entry (w := w) (flagsOk_mainRun w rs) r
    have hscreen := step_screenState w (mainRun w rs) r
    rw [mainRun_concat] at hmenu ⊢
    rw [hscreen] at hmenu
    rw [mainLog_concat, step_fst, step_snd]
    generalize he : enter w (handle w (mainRun w rs) r).1 = e at hentry
    cases hentry with
    | stay hstay =>
      have hs : IsMenu (mainRun w rs).screenState := hstay ▸ hmenu
      rw [List.append_nil]
      exact (ih hs).handle hs hstay
    | exit hquit =>
      rw [hquit] at hmenu
      exact absurd hmenu (by decide)
    | newGame _ hgame => rcases hgame with hgame | hgame <;> rw [hgame] at hmenu <;> exact absurd hmenu (by decide)
    | pause _ hp =>
      rw [hp] at hmenu
      exact absurd hmenu (by decide)
    | resume _ hgame =>
      rw [hgame] at hmenu
      exact absurd hmenu (by decide)
    | gameOver picture _ hover =>
      have hpicture : entryPicture (handle w (mainRun w rs) r).1.screenState = picture := by
        rcases hover with ⟨hx, rfl⟩ | ⟨hx, rfl⟩ <;> rw [hx] <;> rfl
      refine ⟨_, lastDraw_append_of_draw _ _ rfl, Or.inl ?_, _, rfl⟩
      rw [← hpicture]
      rfl

/-- In every menu of every run the framebuffer holds the last drawing and nothing else, if its picture has the size of
the screen. -/
theorem menu_shows_last_draw (w : World) (hb : 0 < w.screen.bytesPerPixel.toNat) (rs : List Receive)
    (hmenu : IsMenu (mainRun w rs).screenState) :
    ∃ act, lastDraw (mainLog w rs) = some act ∧ act.DrawsMenu (mainRun w rs).screenState ∧
      (act.Fills w → ∀ a : UInt32, a.toNat < w.screen.size →
        (mainRun w rs).video.videoMem a = shown w (mainRun w rs).video.mouse (fun _ => 0) act a) := by
  obtain ⟨act, hlast, hact, below, hbelow⟩ := showsLast_mainRun w rs hmenu
  refine ⟨act, hlast, hact, fun hfills a ha => ?_⟩
  rw [hbelow]
  exact shown_eq hb hact hfills _ below _ ha

/-- After a packet the main menu shows its picture with the cursor. -/
theorem menu_shows_last_draw_packet :
    ∃ act, lastDraw (mainLog (world115 0x12) [mouseByte 0x08, mouseByte 5, mouseByte 5]) = some act ∧
      act.DrawsMenu .main ∧
      ∀ a : UInt32, a.toNat < (world115 0x12).screen.size →
        (mainRun (world115 0x12) [mouseByte 0x08, mouseByte 5, mouseByte 5]).video.videoMem a =
          shown (world115 0x12) ⟨405, 295⟩ (fun _ => 0) act a := by
  have hmouse : (mainRun (world115 0x12) [mouseByte 0x08, mouseByte 5, mouseByte 5]).video.mouse = ⟨405, 295⟩ := by
    decide +kernel
  have hmain : (mainRun (world115 0x12) [mouseByte 0x08, mouseByte 5, mouseByte 5]).screenState = .main := by
    decide +kernel
  -- every picture of this machine has the size of the screen
  have himage : ∀ picture, Fills (world115 0x12).screen ((world115 0x12).image picture) := by
    have hblank : Fills (world115 0x12).screen blankImage := by decide
    intro picture
    cases picture <;> exact hblank
  obtain ⟨act, hlast, hact, hshown⟩ := menu_shows_last_draw (world115 0x12) (by decide)
    [mouseByte 0x08, mouseByte 5, mouseByte 5] (by rw [hmain]; decide)
  rw [hmain] at hact
  rw [hmouse] at hshown
  refine ⟨act, hlast, hact, hshown ?_⟩
  rcases hact with rfl | rfl <;> exact himage _

end LabChase
