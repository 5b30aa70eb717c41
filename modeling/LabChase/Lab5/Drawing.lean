import LabChase.Proj.Drawing

/-!
# Lines and rectangles (`video_gr.c`)

`vg_draw_hline` counts its pixels in an `int`, so a line that leaves the screen on the right goes on in the next scan
line, and a rectangle that leaves it below goes on behind the framebuffer.  A rectangle stays within its part on the
screen exactly when it has no other part (`rectangle_clipped_iff`).
-/

namespace LabChase.Lab5

open FlatMemory

/-- `vg_draw_hline`; `(y * h_res + i) * bytes_per_pixel` is computed in `unsigned`. -/
def vgDrawHline (scr : Screen) (mem : Mem) (x y len : UInt16) (color : UInt32) : Mem :=
  (List.range len.toNat).foldl
    (fun mem k => memcpy mem (pixelOffset scr (x.toUInt32 + UInt32.ofNat k) y.toUInt32) (leByte color.toNat)
      scr.bytesPerPixel.toNat)
    mem

/-- `vg_draw_rectangle`; `y + k` is truncated to `uint16_t` when it is passed on. -/
def vgDrawRectangle (scr : Screen) (mem : Mem) (x y width height : UInt16) (color : UInt32) : Mem :=
  (List.range height.toNat).foldl (fun mem k => vgDrawHline scr mem x (y + UInt16.ofNat k) width color) mem

/-- The part of a rectangle that is on the screen. -/
def Clipped (scr : Screen) (x y width height i j : UInt16) : Prop :=
  InRectangle x y width height i j ∧ scr.OnScreen i j

/-- The byte at the address is one of the pixel. -/
def IsByteOf (scr : Screen) (i j : UInt16) (a : UInt32) : Prop :=
  (j.toNat * scr.hRes.toNat + i.toNat) * scr.bytesPerPixel.toNat ≤ a.toNat ∧
    a.toNat < (j.toNat * scr.hRes.toNat + i.toNat) * scr.bytesPerPixel.toNat + scr.bytesPerPixel.toNat

/-- In no memory the rectangle changes a byte outside the framebuffer, or of a pixel outside its part on the screen. -/
def StaysClipped (scr : Screen) (x y width height : UInt16) (color : UInt32) : Prop :=
  ∀ (mem : Mem) (a : UInt32), vgDrawRectangle scr mem x y width height color a ≠ mem a →
    a.toNat < scr.size ∧ ∃ i j, Clipped scr x y width height i j ∧ IsByteOf scr i j a

/-! ### The copies of a rectangle -/

/-- Pixel `i` of line `k`. -/
def rectangleCopy (scr : Screen) (x y : UInt16) (color : UInt32) (k i : Nat) : Copy where
  dst := pixelOffset scr (x.toUInt32 + UInt32.ofNat i) (y + UInt16.ofNat k).toUInt32
  src := leByte color.toNat
  len := scr.bytesPerPixel.toNat

def rectangleCopies (scr : Screen) (x y width height : UInt16) (color : UInt32) : List Copy :=
  (List.range height.toNat).flatMap fun k => (List.range width.toNat).map (rectangleCopy scr x y color k)

private theorem vgDrawRectangle_eq_copyAll (scr : Screen) (mem : Mem) (x y width height : UInt16) (color : UInt32) :
    vgDrawRectangle scr mem x y width height color = copyAll mem (rectangleCopies scr x y width height color) := by
  simp only [vgDrawRectangle, vgDrawHline, copyAll, rectangleCopies, List.foldl_flatMap, List.foldl_map]
  rfl

section Copies

variable {scr : Screen} {x y width height : UInt16} {color : UInt32} {k i : Nat}

private theorem mem_rectangleCopies {c : Copy} :
    c ∈ rectangleCopies scr x y width height color ↔
      ∃ k < height.toNat, ∃ i < width.toNat, rectangleCopy scr x y color k i = c := by
  simp only [rectangleCopies, List.mem_flatMap, List.mem_map, List.mem_range]

private theorem rectangleCopy_dst (hk : y.toNat + k < 2 ^ 16) (hi : i < 2 ^ 16) :
    (rectangleCopy scr x y color k i).dst.toNat =
      ((y.toNat + k) * scr.hRes.toNat + (x.toNat + i)) * scr.bytesPerPixel.toNat % 2 ^ 32 := by
  have hx := x.toNat_lt
  have hcolumn : (x.toUInt32 + UInt32.ofNat i).toNat = x.toNat + i := by
    rw [toNat_add_ofNat (by rw [UInt16.toNat_toUInt32]; omega), UInt16.toNat_toUInt32]
  have hline : (y + UInt16.ofNat k).toUInt32.toNat = y.toNat + k := by
    rw [UInt16.toNat_toUInt32, toNat_add_offset hk]
  simp only [rectangleCopy, pixelOffset, UInt32.toNat_mul, UInt32.toNat_add (_ * _), hcolumn, hline]
  rw [Nat.mod_add_mod, Nat.mod_mul_mod]

/-- A byte that some copy writes is changed in some memory. -/
private theorem exists_changed {c : Copy} (hc : c ∈ rectangleCopies scr x y width height color) {a : UInt32}
    (ha : c.Covers a) : ∃ mem : Mem, vgDrawRectangle scr mem x y width height color a ≠ mem a := by
  obtain ⟨b, hb⟩ := exists_byte_of_covered ⟨c, hc, ha⟩
  refine ⟨fun _ => b + 1, ?_⟩
  rw [vgDrawRectangle_eq_copyAll, hb]
  show b ≠ b + 1
  exact fun h => by simp at h

end Copies

/-! ### Leaving the screen -/

section Spill

variable {scr : Screen} {x y width height i j : UInt16} {color : UInt32} {a : UInt32}

/-- The pixel that the first byte of index `n` belongs to has that index. -/
private theorem IsByteOf.index_eq (h : IsByteOf scr i j a) {n : Nat} (ha : a.toNat = n * scr.bytesPerPixel.toNat) :
    j.toNat * scr.hRes.toNat + i.toNat = n := by
  obtain ⟨h1, h2⟩ := h
  rw [ha, ← Nat.succ_mul] at h2
  rw [ha] at h1
  have hpos : 0 < scr.bytesPerPixel.toNat := by
    by_contra h0
    simp [Nat.eq_zero_of_not_pos h0] at h2
  have hle := Nat.le_of_mul_le_mul_right h1 hpos
  have hlt := Nat.lt_of_mul_lt_mul_right h2
  omega

private theorem IsByteOf.lt_size (h : IsByteOf scr i j a) (hon : scr.OnScreen i j) : a.toNat < scr.size := by
  obtain ⟨h1, h2⟩ := h
  have hpos : 0 < scr.bytesPerPixel.toNat := by omega
  have hle := pixelOffset_add_le hon hpos
  rw [pixelOffset_toNat hon hpos] at hle
  exact Nat.lt_of_lt_of_le h2 hle

/-- A rectangle that stays clipped writes only to its pixels on the screen. -/
theorem StaysClipped.covers (h : StaysClipped scr x y width height color) {k l : Nat} (hk : k < height.toNat)
    (hl : l < width.toNat) (ha : (rectangleCopy scr x y color k l).Covers a) :
    a.toNat < scr.size ∧ ∃ i j, Clipped scr x y width height i j ∧ IsByteOf scr i j a := by
  obtain ⟨mem, hmem⟩ := exists_changed (mem_rectangleCopies.2 ⟨k, hk, l, hl, rfl⟩) ha
  exact h mem a hmem

private theorem rectangleCopy_covers_dst (hb : 0 < scr.bytesPerPixel.toNat) (k l : Nat) :
    (rectangleCopy scr x y color k l).Covers (rectangleCopy scr x y color k l).dst := by
  rw [Copy.Covers, UInt32.sub_self]
  exact hb

/-- A line that leaves the screen on the right goes on in the first pixel of the next line: below the rectangle, if this
is its last line, or behind the framebuffer. -/
private theorem not_staysClipped_right (hb : 0 < scr.bytesPerPixel.toNat) (hx : x.toNat < scr.hRes.toNat)
    (hy : y.toNat < scr.vRes.toNat) (hh : 0 < height.toNat) (hright : scr.hRes.toNat < x.toNat + width.toNat) :
    ¬ StaysClipped scr x y width height color := by
  intro hclip
  have hv := scr.vRes_lt
  have hr := scr.hRes_lt
  have hfit : scr.size < 2 ^ 32 := scr.fits
  obtain ⟨line, hline⟩ : ∃ line, line + 1 = min height.toNat (scr.vRes.toNat - y.toNat) :=
    ⟨min height.toNat (scr.vRes.toNat - y.toNat) - 1, by omega⟩
  have hdst : (rectangleCopy scr x y color line (scr.hRes.toNat - x.toNat)).dst.toNat =
      (y.toNat + (line + 1)) * scr.hRes.toNat * scr.bytesPerPixel.toNat := by
    have hindex : (y.toNat + line) * scr.hRes.toNat + (x.toNat + (scr.hRes.toNat - x.toNat)) =
        (y.toNat + (line + 1)) * scr.hRes.toNat := by
      rw [Nat.add_sub_cancel' hx.le, ← Nat.succ_mul]
      rfl
    have hle : (y.toNat + (line + 1)) * scr.hRes.toNat * scr.bytesPerPixel.toNat ≤ scr.size := by
      apply Nat.mul_le_mul_right
      rw [Nat.mul_comm scr.hRes.toNat]
      exact Nat.mul_le_mul_right _ (by omega)
    rw [rectangleCopy_dst (by omega) (by omega), hindex, Nat.mod_eq_of_lt (by omega)]
  obtain ⟨-, i, j, ⟨⟨-, hj⟩, hon⟩, hbyte⟩ := hclip.covers (show line < height.toNat by omega)
    (show scr.hRes.toNat - x.toNat < width.toNat by omega) (rectangleCopy_covers_dst hb line _)
  have hpos : 0 < scr.hRes.toNat := by omega
  have hrow : j.toNat = y.toNat + (line + 1) := (mul_add_inj hon.1 hpos (hbyte.index_eq hdst)).1
  have := hon.2
  omega

/-- A rectangle that leaves the screen below goes on behind the framebuffer, or where the offset wraps to: left of the
rectangle in the first line. -/
private theorem not_staysClipped_below (hb : 0 < scr.bytesPerPixel.toNat) (hx : x.toNat < scr.hRes.toNat)
    (hy : y.toNat < scr.vRes.toNat) (hw : 0 < width.toNat) (hbelow : scr.vRes.toNat < y.toNat + height.toNat) :
    ¬ StaysClipped scr x y width height color := by
  intro hclip
  have hv := scr.vRes_lt
  have hfit : scr.size < 2 ^ 32 := scr.fits
  have hxb : x.toNat * scr.bytesPerPixel.toNat ≤ scr.size := by
    apply Nat.mul_le_mul_right
    calc x.toNat ≤ scr.hRes.toNat * 1 := by omega
      _ ≤ scr.hRes.toNat * scr.vRes.toNat := Nat.mul_le_mul_left _ (by omega)
  have hdst : (rectangleCopy scr x y color (scr.vRes.toNat - y.toNat) 0).dst.toNat =
      (scr.size + x.toNat * scr.bytesPerPixel.toNat) % 2 ^ 32 := by
    rw [rectangleCopy_dst (by omega) (by omega), Nat.add_sub_cancel' hy.le, Nat.add_zero, Nat.add_mul,
      Nat.mul_comm scr.vRes.toNat]
    rfl
  obtain ⟨hlt, i, j, ⟨⟨hi, -⟩, -⟩, hbyte, -⟩ := hclip.covers
    (show scr.vRes.toNat - y.toNat < height.toNat by omega) hw (rectangleCopy_covers_dst hb _ 0)
  rw [hdst] at hlt hbyte
  -- the offset is below that of the first pixel of the rectangle, so the pixel is left of it
  have hleft : (j.toNat * scr.hRes.toNat + i.toNat) * scr.bytesPerPixel.toNat <
      x.toNat * scr.bytesPerPixel.toNat := by omega
  have := Nat.lt_of_mul_lt_mul_right hleft
  omega

private theorem not_staysClipped_outside (hb : 0 < scr.bytesPerPixel.toNat)
    (hout : scr.hRes.toNat ≤ x.toNat ∨ scr.vRes.toNat ≤ y.toNat) (hw : 0 < width.toNat) (hh : 0 < height.toNat) :
    ¬ StaysClipped scr x y width height color := by
  intro hclip
  obtain ⟨-, i, j, ⟨⟨hi, hj⟩, hon⟩, -⟩ := hclip.covers hh hw (rectangleCopy_covers_dst hb 0 0)
  have := hon.1
  have := hon.2
  omega

/-- On the screen the bytes of a copy are those of its pixel. -/
private theorem rectangleCopy_isByteOf {k l : Nat} (hx : x.toNat + l < scr.hRes.toNat)
    (hy : y.toNat + k < scr.vRes.toNat) (ha : (rectangleCopy scr x y color k l).Covers a) :
    IsByteOf scr (x + UInt16.ofNat l) (y + UInt16.ofNat k) a := by
  have hr := scr.hRes_lt
  have hv := scr.vRes_lt
  have hfit : scr.size < 2 ^ 32 := scr.fits
  have hcolumn : (x + UInt16.ofNat l).toNat = x.toNat + l := toNat_add_offset (by omega)
  have hline : (y + UInt16.ofNat k).toNat = y.toNat + k := toNat_add_offset (by omega)
  have hpos : 0 < scr.bytesPerPixel.toNat := Nat.lt_of_le_of_lt (Nat.zero_le _) ha
  have hon : scr.OnScreen (x + UInt16.ofNat l) (y + UInt16.ofNat k) := ⟨by omega, by omega⟩
  have hbytes := pixelOffset_add_le hon hpos
  rw [pixelOffset_toNat hon hpos, hcolumn, hline] at hbytes
  have hdst : (rectangleCopy scr x y color k l).dst.toNat = _ := rectangleCopy_dst (by omega) (by omega)
  rw [Nat.mod_eq_of_lt (by omega)] at hdst
  have hlen : (rectangleCopy scr x y color k l).len = scr.bytesPerPixel.toNat := rfl
  rw [Copy.Covers, hlen, sub_toNat_lt_iff (by omega), hdst] at ha
  rw [IsByteOf, hcolumn, hline]
  exact ha

private theorem staysClipped_of_inside (hx : x.toNat + width.toNat ≤ scr.hRes.toNat)
    (hy : y.toNat + height.toNat ≤ scr.vRes.toNat) : StaysClipped scr x y width height color := by
  intro mem a hne
  have hr := scr.hRes_lt
  have hv := scr.vRes_lt
  obtain ⟨c, hc, ha⟩ : ∃ c ∈ rectangleCopies scr x y width height color, c.Covers a := by
    by_contra hnone
    rw [vgDrawRectangle_eq_copyAll, copyAll_of_not_covered fun c hc ha => hnone ⟨c, hc, ha⟩] at hne
    exact hne rfl
  obtain ⟨k, hk, l, hl, rfl⟩ := mem_rectangleCopies.1 hc
  have hbyte := rectangleCopy_isByteOf (by omega) (by omega) ha
  have hcolumn : (x + UInt16.ofNat l).toNat = x.toNat + l := toNat_add_offset (by omega)
  have hline : (y + UInt16.ofNat k).toNat = y.toNat + k := toNat_add_offset (by omega)
  have hon : scr.OnScreen (x + UInt16.ofNat l) (y + UInt16.ofNat k) := ⟨by omega, by omega⟩
  exact ⟨hbyte.lt_size hon, _, _, ⟨⟨⟨by omega, by omega⟩, by omega, by omega⟩, hon⟩, hbyte⟩

end Spill

theorem rectangle_clipped_iff {scr : Screen} (hb : 1 ≤ scr.bytesPerPixel ∧ scr.bytesPerPixel ≤ 4)
    (x y width height : UInt16) (color : UInt32) :
    StaysClipped scr x y width height color ↔
      width = 0 ∨ height = 0 ∨
        x.toNat + width.toNat ≤ scr.hRes.toNat ∧ y.toNat + height.toNat ≤ scr.vRes.toNat := by
  have hpos : 0 < scr.bytesPerPixel.toNat := UInt32.le_iff_toNat_le.1 hb.1
  constructor
  · intro hclip
    by_contra hspill
    simp only [not_or, ← UInt16.toNat_inj, UInt16.toNat_zero] at hspill
    obtain ⟨hw, hh, hout⟩ := hspill
    by_cases hx : scr.hRes.toNat ≤ x.toNat ∨ scr.vRes.toNat ≤ y.toNat
    · exact not_staysClipped_outside hpos hx (by omega) (by omega) hclip
    · by_cases hright : scr.hRes.toNat < x.toNat + width.toNat
      · exact not_staysClipped_right hpos (by omega) (by omega) (by omega) hright hclip
      · exact not_staysClipped_below hpos (by omega) (by omega) (by omega) (by omega) hclip
  · rintro (rfl | rfl | ⟨hx, hy⟩)
    · intro mem a hne
      simp [vgDrawRectangle, vgDrawHline] at hne
    · intro mem a hne
      simp [vgDrawRectangle] at hne
    · exact staysClipped_of_inside hx hy

/-- The screen of mode `0x105`: 1024 pixels by 768, one byte each. -/
def screen105 : Screen := ⟨1024, 768, 1, by decide, by decide, by decide⟩

theorem rectangle_clipped_iff_small :
    StaysClipped smallScreen 6 1 3 2 0x1F ↔
      (3 : UInt16) = 0 ∨ (2 : UInt16) = 0 ∨
        (6 : UInt16).toNat + (3 : UInt16).toNat ≤ smallScreen.hRes.toNat ∧
          (1 : UInt16).toNat + (2 : UInt16).toNat ≤ smallScreen.vRes.toNat :=
  rectangle_clipped_iff (by decide) _ _ _ _ _

/-- Ten pixels from column 1020 go on in the first six of the next line. -/
theorem rectangle_spills : ¬ StaysClipped screen105 1020 0 10 1 0x1F :=
  not_staysClipped_right (by decide) (by decide) (by decide) (by decide) (by decide)

/-! ### Rectangles on the screen -/

/-- A pixel as `vg_draw_hline` draws it: on the screen `i` does not outgrow 16 bits. -/
theorem memcpy_pixel (scr : Screen) (mem : Mem) {x : UInt16} (y : UInt16) (color : UInt32) {i : Nat}
    (h : x.toNat + i < 2 ^ 16) :
    memcpy mem (pixelOffset scr (x.toUInt32 + UInt32.ofNat i) y.toUInt32) (leByte color.toNat)
      scr.bytesPerPixel.toNat = vgDrawPixel scr mem (x + UInt16.ofNat i) y color := by
  have hcolumn : x.toUInt32 + UInt32.ofNat i = (x + UInt16.ofNat i).toUInt32 := by
    apply UInt32.toNat_inj.1
    rw [UInt16.toNat_toUInt32, toNat_add_offset h, toNat_add_ofNat (by rw [UInt16.toNat_toUInt32]; omega),
      UInt16.toNat_toUInt32]
  rw [hcolumn, vgDrawPixel]

theorem vgDrawRectangle_eq_paint (scr : Screen) (mem : Mem) {x width : UInt16} (y height : UInt16) (color : UInt32)
    (hx : x.toNat + width.toNat ≤ 2 ^ 16) :
    vgDrawRectangle scr mem x y width height color = paint scr color mem (rectanglePixels x y width height) := by
  have hline : ∀ (mem : Mem) (y : UInt16), vgDrawHline scr mem x y width color =
      (List.range width.toNat).foldl (fun mem i => vgDrawPixel scr mem (x + UInt16.ofNat i) y color) mem := by
    intro mem y
    refine List.foldl_ext _ _ _ fun mem i hi => memcpy_pixel scr mem y color ?_
    have := List.mem_range.1 hi
    omega
  simp only [vgDrawRectangle, hline, paint, rectanglePixels, List.foldl_map, List.foldl_flatMap]

/-- A rectangle on the screen colours its pixels and no others. -/
theorem findColor_vgDrawRectangle {scr : Screen} {x y width height a b : UInt16} (hb : 0 < scr.bytesPerPixel.toNat)
    (hx : x.toNat + width.toNat ≤ scr.hRes.toNat) (hy : y.toNat + height.toNat ≤ scr.vRes.toNat) (mem : Mem)
    (color : UInt32) (hon : scr.OnScreen a b) :
    findColor scr (vgDrawRectangle scr mem x y width height color) a b =
      if InRectangle x y width height a b then UInt32.ofNat (color.toNat % 256 ^ scr.bytesPerPixel.toNat)
      else findColor scr mem a b := by
  have hr := scr.hRes_lt
  have hv := scr.vRes_lt
  have hmem : ∀ i j, (i, j) ∈ rectanglePixels x y width height ↔ InRectangle x y width height i j :=
    fun i j => mem_rectanglePixels (by omega) (by omega)
  have hpix : ∀ q ∈ rectanglePixels x y width height, scr.OnScreen q.1 q.2 := by
    intro q hq
    obtain ⟨⟨-, hi⟩, -, hj⟩ := (hmem q.1 q.2).1 hq
    exact ⟨by omega, by omega⟩
  rw [vgDrawRectangle_eq_paint scr mem y height color (by omega), findColor_paint hpix hon hb]
  simp only [hmem]

end LabChase.Lab5
