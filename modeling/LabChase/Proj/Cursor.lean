import LabChase.Proj.Drawing
import LabChase.Proj.Mouse

/-!
# The mouse cursor

`mouseMovement` adds the displacement modulo `2^16` and then clamps the coordinates to margins of 30 pixels, so the
cursor never leaves them, whatever the arguments (`inMargins_cursorRun`), and `draw_img` stays inside the framebuffer
(`cursor_drawn_inside`).  A coordinate that falls below zero wraps before it is compared, and the cursor appears at the
opposite edge: the cursor follows the mouse exactly while no coordinate does (`cursor_follows_iff`).
-/

namespace LabChase

open FlatMemory Runs

/-- What becomes of a coordinate after the displacement was added to it. -/
def clampAxis (res : UInt32) (m : UInt16) : UInt16 :=
  let m := if m.toUInt32 ≥ res - 30 then (res - 30).toUInt16 else m
  if m ≤ 30 then 30 else m

theorem mouseMovement_mouse (scr : Screen) (x y : UInt16) (cursor : XpmImage) (v : Video) :
    (mouseMovement scr x y cursor v).mouse =
      ⟨clampAxis scr.hRes (v.mouse.x + x), clampAxis scr.vRes (v.mouse.y - y)⟩ := rfl

/-- The cursor after `setMouseInitPos` and some calls of `mouseMovement`. -/
def cursorRun (scr : Screen) (cursor : XpmImage) (v₀ : Video) (moves : List (UInt16 × UInt16)) : Video :=
  run (fun v m => mouseMovement scr m.1 m.2 cursor v) (setMouseInitPos scr cursor v₀) moves

/-! ### The margins -/

structure InMargins (scr : Screen) (m : MousePos) : Prop where
  left : 30 ≤ m.x.toNat
  right : m.x.toNat ≤ scr.hRes.toNat - 30
  top : 30 ≤ m.y.toNat
  bottom : m.y.toNat ≤ scr.vRes.toNat - 30

theorem clampAxis_toNat {res : UInt32} (hres : 60 ≤ res.toNat ∧ res.toNat < 2 ^ 16) (m : UInt16) :
    (clampAxis res m).toNat = min (max m.toNat 30) (res.toNat - 30) := by
  obtain ⟨h60, h16⟩ := hres
  have hsub : (res - 30).toNat = res.toNat - 30 := by
    rw [UInt32.toNat_sub]
    simp only [UInt32.reduceToNat]
    omega
  have hedge : (res - 30).toUInt16.toNat = res.toNat - 30 := by
    rw [UInt32.toNat_toUInt16, hsub]
    omega
  have hge : m.toUInt32 ≥ res - 30 ↔ res.toNat - 30 ≤ m.toNat := by
    rw [ge_iff_le, UInt32.le_iff_toNat_le, hsub, UInt16.toNat_toUInt32]
  have hle : ∀ k : UInt16, k ≤ 30 ↔ k.toNat ≤ 30 := fun k => UInt16.le_iff_toNat_le
  unfold clampAxis
  simp only [hge, hle]
  by_cases hright : res.toNat - 30 ≤ m.toNat
  · rw [if_pos hright, hedge]
    split
    · show 30 = _
      omega
    · rw [hedge]
      omega
  · rw [if_neg hright]
    split
    · show 30 = _
      omega
    · omega

section Margins

variable {scr : Screen} (hh : 60 ≤ scr.hRes.toNat) (hv : 60 ≤ scr.vRes.toNat) (cursor : XpmImage)
include hh hv

theorem inMargins_setMouseInitPos (v : Video) : InMargins scr (setMouseInitPos scr cursor v).mouse := by
  have hhalf : ∀ {res : UInt32}, res.toNat < 2 ^ 16 → (res / 2).toUInt16.toNat = res.toNat / 2 := by
    intro res hres
    rw [UInt32.toNat_toUInt16, UInt32.toNat_div]
    simp only [UInt32.reduceToNat]
    omega
  have hx : (setMouseInitPos scr cursor v).mouse.x.toNat = scr.hRes.toNat / 2 := hhalf scr.hRes_lt
  have hy : (setMouseInitPos scr cursor v).mouse.y.toNat = scr.vRes.toNat / 2 := hhalf scr.vRes_lt
  constructor <;> omega

theorem inMargins_mouseMovement (x y : UInt16) (v : Video) : InMargins scr (mouseMovement scr x y cursor v).mouse := by
  rw [mouseMovement_mouse]
  have hx := clampAxis_toNat ⟨hh, scr.hRes_lt⟩ (v.mouse.x + x)
  have hy := clampAxis_toNat ⟨hv, scr.vRes_lt⟩ (v.mouse.y - y)
  constructor <;> simp only [hx, hy] <;> omega

/-- The cursor stays inside the margins, whatever the arguments. -/
theorem inMargins_cursorRun (v₀ : Video) (moves : List (UInt16 × UInt16)) :
    InMargins scr (cursorRun scr cursor v₀ moves).mouse := by
  refine run_invariant (I := fun v : Video => InMargins scr v.mouse) ?_ ?_ moves
  · intro v m _
    exact inMargins_mouseMovement hh hv cursor m.1 m.2 v
  · exact inMargins_setMouseInitPos hh hv cursor v₀

end Margins

/-! ### Following the mouse -/

/-- The cursor has moved from `m` to `m'` by the displacement, up to the margins; `y` grows downwards. -/
structure FollowsMouse (scr : Screen) (m : MousePos) (dx dy : Int) (m' : MousePos) : Prop where
  x : (m'.x.toNat : Int) = min (max ((m.x.toNat : Int) + dx) 30) ((scr.hRes.toNat : Int) - 30)
  y : (m'.y.toNat : Int) = min (max ((m.y.toNat : Int) - dy) 30) ((scr.vRes.toNat : Int) - 30)

theorem toNat_add_ofInt (m : UInt16) (d : Int) :
    ((m + UInt16.ofInt d).toNat : Int) = ((m.toNat : Int) + d) % 65536 := by
  rw [UInt16.toNat_add, UInt16.ofInt, UInt16.toNat_ofNat']
  omega

theorem toNat_sub_ofInt (m : UInt16) (d : Int) :
    ((m - UInt16.ofInt d).toNat : Int) = ((m.toNat : Int) - d) % 65536 := by
  have hm := m.toNat_lt
  rw [UInt16.toNat_sub, UInt16.ofInt, UInt16.toNat_ofNat']
  omega

/-- A coordinate that falls below zero ends at the far margin, which is the near one only if the two are the same. -/
private theorem clampAxis_follows_iff {res : UInt32} (hres : 60 ≤ res.toNat ∧ res.toNat ≤ 32767) {z : Int}
    (hz : -226 ≤ z ∧ z ≤ 65535) {k : UInt16} (hk : (k.toNat : Int) = z % 65536) :
    ((clampAxis res k).toNat : Int) = min (max z 30) ((res.toNat : Int) - 30) ↔ res.toNat = 60 ∨ 0 ≤ z := by
  rw [clampAxis_toNat ⟨hres.1, by omega⟩]
  omega

/-- From every position it can reach, the cursor follows the mouse exactly if no coordinate falls below zero, or the
margins in its direction are the same. -/
theorem cursor_follows_iff {scr : Screen} (hh : 60 ≤ scr.hRes.toNat ∧ scr.hRes.toNat ≤ 32767)
    (hv : 60 ≤ scr.vRes.toNat ∧ scr.vRes.toNat ≤ 32767) (cursor : XpmImage) (v₀ : Video)
    (moves : List (UInt16 × UInt16)) {dx dy : Int} (hdx : -256 ≤ dx ∧ dx ≤ 255) (hdy : -256 ≤ dy ∧ dy ≤ 255) :
    let v := cursorRun scr cursor v₀ moves
    FollowsMouse scr v.mouse dx dy (mouseMovement scr (UInt16.ofInt dx) (UInt16.ofInt dy) cursor v).mouse ↔
      (scr.hRes.toNat = 60 ∨ 0 ≤ (v.mouse.x.toNat : Int) + dx) ∧
        (scr.vRes.toNat = 60 ∨ 0 ≤ (v.mouse.y.toNat : Int) - dy) := by
  intro v
  have hmargins : InMargins scr v.mouse := inMargins_cursorRun hh.1 hv.1 cursor v₀ moves
  obtain ⟨hleft, hright, htop, hbottom⟩ := hmargins
  have hx := clampAxis_follows_iff hh (z := (v.mouse.x.toNat : Int) + dx) (by omega) (toNat_add_ofInt v.mouse.x dx)
  have hy := clampAxis_follows_iff hv (z := (v.mouse.y.toNat : Int) - dy) (by omega) (toNat_sub_ofInt v.mouse.y dy)
  rw [← hx, ← hy, mouseMovement_mouse]
  constructor
  · intro h
    exact ⟨h.x, h.y⟩
  · rintro ⟨h1, h2⟩
    exact ⟨h1, h2⟩

/-- A cursor of the size of the one in `cursor.xpm`, and the state before the cursor is drawn. -/
def arrow : XpmImage := ⟨16, 16, fun _ => 0⟩

def unwrittenVideo : Video := ⟨fun _ => 0, ⟨0, 0, .up⟩, ⟨0, 0, .up⟩, ⟨0, 0⟩⟩

/-- From 144 the cursor is moved 256 pixels to the left, and appears at 770, the right margin. -/
theorem cursor_appears_opposite :
    let v := cursorRun mode115 arrow unwrittenVideo [(UInt16.ofInt (-256), 0)]
    let v' := mouseMovement mode115 (UInt16.ofInt (-256)) 0 arrow v
    v.mouse = ⟨144, 300⟩ ∧ v'.mouse = ⟨770, 300⟩ ∧ ¬ FollowsMouse mode115 v.mouse (-256) 0 v'.mouse := by
  refine ⟨by decide +kernel, by decide +kernel, fun h => ?_⟩
  exact absurd h.x (by decide +kernel)

theorem cursor_follows_once :
    FollowsMouse mode115 (cursorRun mode115 arrow unwrittenVideo []).mouse (-256) 255
      (mouseMovement mode115 (UInt16.ofInt (-256)) (UInt16.ofInt 255) arrow
        (cursorRun mode115 arrow unwrittenVideo [])).mouse :=
  (cursor_follows_iff (by decide) (by decide) arrow unwrittenVideo [] (by decide) (by decide)).2 (by decide +kernel)

/-! ### Drawing the cursor -/

/-- The rows that `draw_img` copies to draw the cursor. -/
def cursorRows (scr : Screen) (cursor : XpmImage) (m : MousePos) : List Copy :=
  (List.range cursor.height.toNat).map (imgRow scr cursor m.x m.y)

/-- A call of `mouseMovement`, and the rows it copies. -/
def moveCursor (scr : Screen) (cursor : XpmImage) (v : Video) (m : UInt16 × UInt16) : Video × List Copy :=
  (mouseMovement scr m.1 m.2 cursor v, cursorRows scr cursor (mouseMovement scr m.1 m.2 cursor v).mouse)

/-- All rows that are copied in a run, in order. -/
def cursorCopies (scr : Screen) (cursor : XpmImage) (v₀ : Video) (moves : List (UInt16 × UInt16)) : List Copy :=
  cursorRows scr cursor (setMouseInitPos scr cursor v₀).mouse ++
    outputs (moveCursor scr cursor) (setMouseInitPos scr cursor v₀) moves

/-- The copy lies in one line of the screen, and in the framebuffer. -/
structure InScanLine (scr : Screen) (c : Copy) : Prop where
  line : ∃ line < scr.vRes.toNat, line * (scr.hRes.toNat * scr.bytesPerPixel.toNat) ≤ c.dst.toNat ∧
    c.dst.toNat + c.len ≤ (line + 1) * (scr.hRes.toNat * scr.bytesPerPixel.toNat)
  framebuffer : c.dst.toNat + c.len ≤ scr.size

/-- The rows are what a run does to the framebuffer. -/
private theorem cursorRun_videoMem (scr : Screen) (cursor : XpmImage) (v₀ : Video) (moves : List (UInt16 × UInt16)) :
    (cursorRun scr cursor v₀ moves).videoMem = copyAll v₀.videoMem (cursorCopies scr cursor v₀ moves) := by
  have hmoves : ∀ v : Video, (run (fun v m => mouseMovement scr m.1 m.2 cursor v) v moves).videoMem =
      copyAll v.videoMem (outputs (moveCursor scr cursor) v moves) := by
    induction moves with
    | nil => exact fun _ => rfl
    | cons m moves ih =>
      intro v
      have hdraw : (mouseMovement scr m.1 m.2 cursor v).videoMem =
          copyAll v.videoMem (cursorRows scr cursor (mouseMovement scr m.1 m.2 cursor v).mouse) :=
        drawImg_eq_copyAll scr v.videoMem cursor _ _
      rw [run_cons, ih, outputs, copyAll_append, hdraw]
      rfl
  have hinit : (setMouseInitPos scr cursor v₀).videoMem =
      copyAll v₀.videoMem (cursorRows scr cursor (setMouseInitPos scr cursor v₀).mouse) :=
    drawImg_eq_copyAll scr v₀.videoMem cursor _ _
  rw [cursorRun, hmoves, hinit, cursorCopies, copyAll_append]

private theorem imgRow_inScanLine {scr : Screen} (hb : 0 < scr.bytesPerPixel.toNat) {img : XpmImage} {x y : UInt16}
    {offsetY : Nat} (hx : x.toNat < scr.hRes.toNat) (hw : x.toNat + img.width.toNat ≤ scr.hRes.toNat)
    (hy : y.toNat + offsetY < scr.vRes.toNat) : InScanLine scr (imgRow scr img x y offsetY) := by
  have hlines : (y.toNat + offsetY + 1) * scr.hRes.toNat ≤ scr.hRes.toNat * scr.vRes.toNat := by
    rw [Nat.mul_comm scr.hRes.toNat]
    exact Nat.mul_le_mul_right _ hy
  have hindex : (y.toNat + offsetY) * scr.hRes.toNat + x.toNat < scr.hRes.toNat * scr.vRes.toNat := by
    rw [Nat.succ_mul] at hlines
    omega
  have hdst : (imgRow scr img x y offsetY).dst.toNat =
      ((y.toNat + offsetY) * scr.hRes.toNat + x.toNat) * scr.bytesPerPixel.toNat := imgRow_dst_of_lt hb hindex
  have hlen : (imgRow scr img x y offsetY).len ≤ img.width.toNat * scr.bytesPerPixel.toNat := by
    show (scr.bytesPerPixel * img.width.toUInt32).toNat ≤ _
    rw [UInt32.toNat_mul, UInt16.toNat_toUInt32, Nat.mul_comm]
    exact Nat.mod_le _ _
  have hend : (imgRow scr img x y offsetY).dst.toNat + (imgRow scr img x y offsetY).len ≤
      (y.toNat + offsetY + 1) * (scr.hRes.toNat * scr.bytesPerPixel.toNat) := by
    calc (imgRow scr img x y offsetY).dst.toNat + (imgRow scr img x y offsetY).len
        ≤ ((y.toNat + offsetY) * scr.hRes.toNat + x.toNat) * scr.bytesPerPixel.toNat +
            img.width.toNat * scr.bytesPerPixel.toNat := by omega
      _ = ((y.toNat + offsetY) * scr.hRes.toNat + (x.toNat + img.width.toNat)) * scr.bytesPerPixel.toNat := by ring
      _ ≤ ((y.toNat + offsetY) * scr.hRes.toNat + scr.hRes.toNat) * scr.bytesPerPixel.toNat :=
          Nat.mul_le_mul_right _ (Nat.add_le_add_left hw _)
      _ = (y.toNat + offsetY + 1) * (scr.hRes.toNat * scr.bytesPerPixel.toNat) := by ring
  constructor
  · refine ⟨y.toNat + offsetY, hy, ?_, hend⟩
    rw [hdst, ← Nat.mul_assoc]
    exact Nat.mul_le_mul_right _ (Nat.le_add_right _ _)
  · refine hend.trans ?_
    rw [← Nat.mul_assoc]
    exact Nat.mul_le_mul_right _ hlines

private theorem cursorRows_inScanLine {scr : Screen} (hb : 0 < scr.bytesPerPixel.toNat) {cursor : XpmImage}
    (hcursor : cursor.width ≤ 30 ∧ cursor.height ≤ 30) (hh : 60 ≤ scr.hRes.toNat) (hv : 60 ≤ scr.vRes.toNat)
    {m : MousePos} (h : InMargins scr m) : ∀ c ∈ cursorRows scr cursor m, InScanLine scr c := by
  obtain ⟨hleft, hright, htop, hbottom⟩ := h
  have hwidth : cursor.width.toNat ≤ 30 := UInt16.le_iff_toNat_le.1 hcursor.1
  have hheight : cursor.height.toNat ≤ 30 := UInt16.le_iff_toNat_le.1 hcursor.2
  intro c hc
  obtain ⟨offsetY, hy, rfl⟩ := List.mem_map.1 hc
  rw [List.mem_range] at hy
  exact imgRow_inScanLine hb (by omega) (by omega) (by omega)

/-- In any run the framebuffer changes by the rows that are copied to draw the cursor, and each of them lies in one
line of the screen and in the framebuffer. -/
theorem cursor_drawn_inside {scr : Screen} (hb : 1 ≤ scr.bytesPerPixel) (hh : 60 ≤ scr.hRes.toNat)
    (hv : 60 ≤ scr.vRes.toNat) {cursor : XpmImage} (hcursor : cursor.width ≤ 30 ∧ cursor.height ≤ 30) (v₀ : Video)
    (moves : List (UInt16 × UInt16)) :
    (cursorRun scr cursor v₀ moves).videoMem = copyAll v₀.videoMem (cursorCopies scr cursor v₀ moves) ∧
      ∀ c ∈ cursorCopies scr cursor v₀ moves, InScanLine scr c := by
  have hpos : 0 < scr.bytesPerPixel.toNat := UInt32.le_iff_toNat_le.1 hb
  have hmoves : ∀ v : Video, ∀ c ∈ outputs (moveCursor scr cursor) v moves, InScanLine scr c := by
    induction moves with
    | nil => simp [outputs]
    | cons m moves ih =>
      intro v c hc
      rcases List.mem_append.1 hc with hc | hc
      · exact cursorRows_inScanLine hpos hcursor hh hv (inMargins_mouseMovement hh hv cursor m.1 m.2 v) c hc
      · exact ih _ c hc
  refine ⟨cursorRun_videoMem scr cursor v₀ moves, fun c hc => ?_⟩
  rcases List.mem_append.1 hc with hc | hc
  · exact cursorRows_inScanLine hpos hcursor hh hv (inMargins_setMouseInitPos hh hv cursor v₀) c hc
  · exact hmoves _ c hc

theorem cursor_drawn_inside_moved :
    let moves := [(65280, 7), (300, 65000)]
    (cursorCopies mode115 arrow unwrittenVideo moves).length = 48 ∧
      (cursorRun mode115 arrow unwrittenVideo moves).videoMem =
        copyAll unwrittenVideo.videoMem (cursorCopies mode115 arrow unwrittenVideo moves) ∧
      ∀ c ∈ cursorCopies mode115 arrow unwrittenVideo moves, InScanLine mode115 c :=
  ⟨by decide +kernel, cursor_drawn_inside (by decide) (by decide) (by decide) (by decide) _ _⟩

end LabChase
