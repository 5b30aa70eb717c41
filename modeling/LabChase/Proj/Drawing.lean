import LabChase.Proj.VideoGr

/-!
# Rectangles and images on the framebuffer

`vg_draw_rectangle` changes the pixels of the rectangle and nothing else (`rectangle_read_over_write`).  `draw_img`
copies an image in rows, and `draw_img2` pixel by pixel in columns through 16-bit coordinates.  As lists of copies the
two write to the same addresses, and the same bytes to them, as long as no line of the image meets itself in the next
one, so they leave the same framebuffer (`drawImg_eq_drawImg2`).
-/

namespace LabChase

open FlatMemory

/-! ### Rectangles -/

def InRectangle (x y width height i j : UInt16) : Prop :=
  (x.toNat ≤ i.toNat ∧ i.toNat < x.toNat + width.toNat) ∧ y.toNat ≤ j.toNat ∧ j.toNat < y.toNat + height.toNat

instance (x y width height i j : UInt16) : Decidable (InRectangle x y width height i j) :=
  inferInstanceAs (Decidable (_ ∧ _))

/-- Painting pixels of the screen leaves the bytes behind the framebuffer alone. -/
theorem paint_outside {scr : Screen} {pixels : List (UInt16 × UInt16)} (hp : ∀ p ∈ pixels, scr.OnScreen p.1 p.2)
    (hb : 0 < scr.bytesPerPixel.toNat) {a : UInt32} (ha : scr.size ≤ a.toNat) (color : UInt32) (mem : Mem) :
    paint scr color mem pixels a = mem a := by
  rw [paint_eq_paintAll]
  exact paintAll_outside (List.forall_mem_map.2 hp) hb ha

/-- What a rectangle is drawn to: its pixels have the colour, the others and the bytes behind the framebuffer are as
before, and the flag tells whether the first pixel was occupied. -/
structure DrawsRectangle (scr : Screen) (mem : Mem) (x y width height : UInt16) (color : UInt32) (r : Nat × Mem) :
    Prop where
  inside : ∀ i j, InRectangle x y width height i j →
    findColor scr r.2 i j = UInt32.ofNat (color.toNat % 256 ^ scr.bytesPerPixel.toNat)
  outside : ∀ i j, scr.OnScreen i j → ¬ InRectangle x y width height i j → findColor scr r.2 i j = findColor scr mem i j
  behind : ∀ a : UInt32, scr.size ≤ a.toNat → r.2 a = mem a
  flag : r.1 = 1 ↔ findColor scr mem x y ≠ 0 ∧ findColor scr mem x y ≠ 255

theorem rectangle_read_over_write {scr : Screen} (hb : 1 ≤ scr.bytesPerPixel ∧ scr.bytesPerPixel ≤ 4) (mem : Mem)
    {x y width height : UInt16} (hx : x.toNat + width.toNat ≤ scr.hRes.toNat)
    (hy : y.toNat + height.toNat ≤ scr.vRes.toNat) (color : UInt32) :
    DrawsRectangle scr mem x y width height color (vgDrawRectangle scr mem x y width height color) := by
  have hpos : 0 < scr.bytesPerPixel.toNat := UInt32.le_iff_toNat_le.1 hb.1
  have hh := scr.hRes_lt
  have hv := scr.vRes_lt
  have hmem : ∀ i j, (i, j) ∈ rectanglePixels x y width height ↔ InRectangle x y width height i j :=
    fun i j => mem_rectanglePixels (by omega) (by omega)
  have hon : ∀ p ∈ rectanglePixels x y width height, scr.OnScreen p.1 p.2 := by
    intro p hp
    obtain ⟨⟨-, hi⟩, -, hj⟩ := (hmem p.1 p.2).1 hp
    exact ⟨by omega, by omega⟩
  constructor
  · intro i j hij
    have hp := (hmem i j).2 hij
    rw [vgDrawRectangle_mem, findColor_paint hon (hon _ hp) hpos, if_pos hp]
  · intro i j hij hnot
    rw [vgDrawRectangle_mem, findColor_paint hon hij hpos, if_neg (mt (hmem i j).1 hnot)]
  · intro a ha
    rw [vgDrawRectangle_mem, paint_outside hon hpos ha]
  · simp only [vgDrawRectangle]
    split
    · next h => exact iff_of_true rfl h
    · next h => exact iff_of_false (by decide) h

/-- Eight pixels by four, two bytes each. -/
def smallScreen : Screen := ⟨8, 4, 2, by decide, by decide, by decide⟩

theorem rectangle_read_over_write_small :
    DrawsRectangle smallScreen (fun _ => 0) 2 1 3 2 0x1F51FF
      (vgDrawRectangle smallScreen (fun _ => 0) 2 1 3 2 0x1F51FF) :=
  rectangle_read_over_write (by decide) _ (by decide) (by decide) _

/-! ### Images -/

/-- All pixels that the image is copied to lie in the framebuffer; a line may go on in the next one. -/
def ImageInside (scr : Screen) (img : XpmImage) (x y : UInt16) : Prop :=
  ∀ offsetX < img.width.toNat, ∀ offsetY < img.height.toNat,
    (y.toNat + offsetY) * scr.hRes.toNat + (x.toNat + offsetX) < scr.hRes.toNat * scr.vRes.toNat

instance (scr : Screen) (img : XpmImage) (x y : UInt16) : Decidable (ImageInside scr img x y) :=
  inferInstanceAs (Decidable (∀ offsetX < img.width.toNat, ∀ offsetY < img.height.toNat, _))

/-- The row that `draw_img` copies. -/
def imgRow (scr : Screen) (img : XpmImage) (x y : UInt16) (offsetY : Nat) : Copy where
  dst := pixelOffset scr x.toUInt32 (y.toUInt32 + UInt32.ofNat offsetY)
  src := fun i => img.bytes ((UInt32.ofNat offsetY * img.width.toUInt32 * scr.bytesPerPixel).toNat + i)
  len := (scr.bytesPerPixel * img.width.toUInt32).toNat

/-- The local `color` of `draw_img2`. -/
def imgColor (scr : Screen) (img : XpmImage) (uninit : Mem) (offsetX offsetY : Nat) : UInt32 :=
  let index := (UInt32.ofNat offsetY * img.width.toUInt32 + UInt32.ofNat offsetX) * scr.bytesPerPixel
  UInt32.ofNat (loadLE (memcpy uninit 0 (fun i => img.bytes (index.toNat + i)) scr.bytesPerPixel.toNat) 0 4)

/-- The pixel that `draw_img2` copies. -/
def imgPixel (scr : Screen) (img : XpmImage) (uninit : Mem) (x y : UInt16) (offsetX offsetY : Nat) : Copy where
  dst := pixelOffset scr (x + UInt16.ofNat offsetX).toUInt32 (y + UInt16.ofNat offsetY).toUInt32
  src := leByte (imgColor scr img uninit offsetX offsetY).toNat
  len := scr.bytesPerPixel.toNat

/-! ### What the copies write -/

theorem toNat_add_offset {z : UInt16} {k : Nat} (h : z.toNat + k < 2 ^ 16) :
    (z + UInt16.ofNat k).toNat = z.toNat + k := by
  rw [UInt16.toNat_add, UInt16.toNat_ofNat']
  omega

private theorem toNat_offset {z : UInt16} {k : Nat} (h : z.toNat + k < 2 ^ 16) :
    (z + UInt16.ofNat k).toUInt32.toNat = z.toNat + k := by
  rw [UInt16.toNat_toUInt32, toNat_add_offset h]

/-- The index in the framebuffer of a pixel of the image. -/
def imgIndex (scr : Screen) (x y : UInt16) (offsetX offsetY : Nat) : Nat :=
  (y.toNat + offsetY) * scr.hRes.toNat + (x.toNat + offsetX)

/-- Byte `i` of a pixel of the image. -/
def imgByte (scr : Screen) (img : XpmImage) (offsetX offsetY i : Nat) : UInt8 :=
  img.bytes ((offsetY * img.width.toNat + offsetX) * scr.bytesPerPixel.toNat + i)

section Copies

variable {scr : Screen} {img : XpmImage} {x y : UInt16} {offsetX offsetY : Nat}

private theorem imgIndex_inj {offsetX' offsetY' : Nat} (h : offsetX < scr.hRes.toNat) (h' : offsetX' < scr.hRes.toNat)
    (heq : imgIndex scr x y offsetX offsetY = imgIndex scr x y offsetX' offsetY') :
    offsetX = offsetX' ∧ offsetY = offsetY' := by
  unfold imgIndex at heq
  obtain ⟨h1, h2⟩ := mul_add_inj h h' (show (y.toNat + offsetY) * scr.hRes.toNat + offsetX =
    (y.toNat + offsetY') * scr.hRes.toNat + offsetX' by omega)
  exact ⟨h2, Nat.add_left_cancel h1⟩

/-- No line of the image lies below the screen. -/
private theorem ImageInside.line_lt (hin : ImageInside scr img x y) (hx : offsetX < img.width.toNat)
    (hy : offsetY < img.height.toNat) : y.toNat + offsetY < scr.vRes.toNat := by
  have h := hin offsetX hx offsetY hy
  rw [Nat.mul_comm scr.hRes.toNat] at h
  exact Nat.lt_of_mul_lt_mul_right (Nat.lt_of_le_of_lt (Nat.le_add_right _ _) h)

theorem ImageInside.mul_add_le (hin : ImageInside scr img x y) (hx : offsetX < img.width.toNat)
    (hy : offsetY < img.height.toNat) :
    imgIndex scr x y offsetX offsetY * scr.bytesPerPixel.toNat + scr.bytesPerPixel.toNat ≤ scr.size := by
  rw [← Nat.succ_mul]
  exact Nat.mul_le_mul_right _ (hin offsetX hx offsetY hy)

/-- The offsets in the image do not wrap either. -/
private theorem ImageInside.source_lt (hin : ImageInside scr img x y) (hw : img.width.toNat ≤ scr.hRes.toNat)
    (hx : offsetX < img.width.toNat) (hy : offsetY < img.height.toNat) :
    (offsetY * img.width.toNat + offsetX) * scr.bytesPerPixel.toNat + scr.bytesPerPixel.toNat < 2 ^ 32 := by
  have hle : offsetY * img.width.toNat + offsetX ≤ imgIndex scr x y offsetX offsetY := by
    have h1 : offsetY * img.width.toNat ≤ (y.toNat + offsetY) * scr.hRes.toNat :=
      Nat.mul_le_mul (Nat.le_add_left _ _) hw
    unfold imgIndex
    omega
  have hmul := Nat.mul_le_mul_right scr.bytesPerPixel.toNat hle
  have hadd := hin.mul_add_le hx hy
  have hfit : scr.size < 2 ^ 32 := scr.fits
  omega

/-- Where a row goes, if its first pixel has an index in the framebuffer. -/
theorem imgRow_dst_of_lt (hb : 0 < scr.bytesPerPixel.toNat)
    (hlt : (y.toNat + offsetY) * scr.hRes.toNat + x.toNat < scr.hRes.toNat * scr.vRes.toNat) :
    (imgRow scr img x y offsetY).dst.toNat =
      ((y.toNat + offsetY) * scr.hRes.toNat + x.toNat) * scr.bytesPerPixel.toNat := by
  have hv := scr.vRes_lt
  have hline : y.toNat + offsetY < scr.vRes.toNat := by
    rw [Nat.mul_comm scr.hRes.toNat] at hlt
    exact Nat.lt_of_mul_lt_mul_right (Nat.lt_of_le_of_lt (Nat.le_add_right _ _) hlt)
  have hcoord : (y.toUInt32 + UInt32.ofNat offsetY).toNat = y.toNat + offsetY := by
    rw [toNat_add_ofNat (by rw [UInt16.toNat_toUInt32]; omega), UInt16.toNat_toUInt32]
  show (pixelOffset scr x.toUInt32 (y.toUInt32 + UInt32.ofNat offsetY)).toNat = _
  rw [pixelOffset_toNat_of_lt (by rw [hcoord, UInt16.toNat_toUInt32]; exact hlt) hb, hcoord, UInt16.toNat_toUInt32]

private theorem imgRow_dst (hb : 0 < scr.bytesPerPixel.toNat) (hin : ImageInside scr img x y)
    (hwidth : 0 < img.width.toNat) (hy : offsetY < img.height.toNat) :
    (imgRow scr img x y offsetY).dst.toNat = imgIndex scr x y 0 offsetY * scr.bytesPerPixel.toNat :=
  imgRow_dst_of_lt hb (hin 0 hwidth offsetY hy)

private theorem imgRow_len (hin : ImageInside scr img x y) (hwidth : 0 < img.width.toNat)
    (hy : offsetY < img.height.toNat) : (imgRow scr img x y offsetY).len = img.width.toNat * scr.bytesPerPixel.toNat ∧
      imgIndex scr x y 0 offsetY * scr.bytesPerPixel.toNat + img.width.toNat * scr.bytesPerPixel.toNat ≤ scr.size := by
  have hcolumn : img.width.toNat - 1 < img.width.toNat := by omega
  have hlast := hin.mul_add_le hcolumn hy
  have hindex : imgIndex scr x y (img.width.toNat - 1) offsetY + 1 = imgIndex scr x y 0 offsetY + img.width.toNat := by
    unfold imgIndex
    omega
  rw [← Nat.succ_mul, Nat.succ_eq_add_one, hindex, Nat.add_mul] at hlast
  have hfit : scr.size < 2 ^ 32 := scr.fits
  refine ⟨?_, hlast⟩
  show (scr.bytesPerPixel * img.width.toUInt32).toNat = _
  rw [UInt32.toNat_mul, UInt16.toNat_toUInt32, Nat.mul_comm, Nat.mod_eq_of_lt (by omega)]

/-- A row covers the bytes of its pixels. -/
theorem imgRow_covers_iff (hb : 0 < scr.bytesPerPixel.toNat) (hin : ImageInside scr img x y)
    (hy : offsetY < img.height.toNat) (a : UInt32) :
    (imgRow scr img x y offsetY).Covers a ↔
      ∃ offsetX < img.width.toNat, ∃ i < scr.bytesPerPixel.toNat,
        a.toNat = imgIndex scr x y offsetX offsetY * scr.bytesPerPixel.toNat + i := by
  have hsplit : ∀ offsetX, imgIndex scr x y offsetX offsetY * scr.bytesPerPixel.toNat =
      imgIndex scr x y 0 offsetY * scr.bytesPerPixel.toNat + offsetX * scr.bytesPerPixel.toNat := by
    intro offsetX
    rw [← Nat.add_mul]
    congr 1
    unfold imgIndex
    omega
  by_cases hwidth : 0 < img.width.toNat
  · have hdst := imgRow_dst hb hin hwidth hy
    obtain ⟨hlen, hle⟩ := imgRow_len hin hwidth hy
    have hfit : scr.size < 2 ^ 32 := scr.fits
    rw [Copy.Covers, sub_toNat_lt_iff (by omega), hdst, hlen]
    constructor
    · rintro ⟨h1, h2⟩
      obtain ⟨m, hm⟩ := Nat.exists_eq_add_of_le h1
      refine ⟨m / scr.bytesPerPixel.toNat, (Nat.div_lt_iff_lt_mul hb).2 (by omega), m % scr.bytesPerPixel.toNat,
        Nat.mod_lt _ hb, ?_⟩
      rw [hsplit, Nat.add_assoc, Nat.div_add_mod', hm]
    · rintro ⟨offsetX, hx, i, hi, ha⟩
      have hmul := Nat.mul_le_mul_right scr.bytesPerPixel.toNat (Nat.succ_le_of_lt hx)
      rw [Nat.succ_mul] at hmul
      rw [ha, hsplit offsetX]
      omega
  · have hlen : (imgRow scr img x y offsetY).len = 0 := by
      have hzero : img.width = 0 := UInt16.toNat_inj.1 (by simpa using hwidth)
      rw [imgRow, hzero]
      simp
    rw [Copy.Covers, hlen]
    refine iff_of_false (Nat.not_lt_zero _) ?_
    rintro ⟨offsetX, hx, -⟩
    omega

/-- Where a row comes from. -/
private theorem imgRow_source (hb : 0 < scr.bytesPerPixel.toNat) (hw : img.width.toNat ≤ scr.hRes.toNat)
    (hin : ImageInside scr img x y) (hx : offsetX < img.width.toNat) (hy : offsetY < img.height.toNat) :
    (UInt32.ofNat offsetY * img.width.toUInt32 * scr.bytesPerPixel).toNat =
      offsetY * img.width.toNat * scr.bytesPerPixel.toNat := by
  have hsource := hin.source_lt hw hx hy
  have hheight := img.height.toNat_lt
  have hcoord : (UInt32.ofNat offsetY).toNat = offsetY := by
    rw [UInt32.toNat_ofNat']
    omega
  have hrow : offsetY * img.width.toNat ≤ offsetY * img.width.toNat * scr.bytesPerPixel.toNat :=
    Nat.le_mul_of_pos_right _ hb
  rw [Nat.add_mul] at hsource
  rw [UInt32.toNat_mul, UInt32.toNat_mul, hcoord, UInt16.toNat_toUInt32,
    Nat.mod_eq_of_lt (show offsetY * img.width.toNat < 2 ^ 32 by omega), Nat.mod_eq_of_lt (by omega)]

private theorem imgRow_byte (hb : 0 < scr.bytesPerPixel.toNat) (hw : img.width.toNat ≤ scr.hRes.toNat)
    (hin : ImageInside scr img x y) (hx : offsetX < img.width.toNat) (hy : offsetY < img.height.toNat) {i : Nat}
    {a : UInt32} (ha : a.toNat = imgIndex scr x y offsetX offsetY * scr.bytesPerPixel.toNat + i) :
    (imgRow scr img x y offsetY).byte a = imgByte scr img offsetX offsetY i := by
  have hdst := imgRow_dst hb hin (Nat.zero_lt_of_lt hx) hy
  have hindex : imgIndex scr x y offsetX offsetY = imgIndex scr x y 0 offsetY + offsetX := by
    unfold imgIndex
    omega
  rw [hindex, Nat.add_mul] at ha
  have hsub : (a - (imgRow scr img x y offsetY).dst).toNat = offsetX * scr.bytesPerPixel.toNat + i := by
    have hlt := a.toNat_lt
    rw [UInt32.toNat_sub, hdst]
    omega
  rw [Copy.byte, hsub]
  show img.bytes ((UInt32.ofNat offsetY * img.width.toUInt32 * scr.bytesPerPixel).toNat +
    (offsetX * scr.bytesPerPixel.toNat + i)) = _
  rw [imgRow_source hb hw hin hx hy, imgByte, Nat.add_mul, Nat.add_assoc]

private theorem imgPixel_dst (hb : 0 < scr.bytesPerPixel.toNat) (hx16 : x.toNat + img.width.toNat ≤ 2 ^ 16)
    (hin : ImageInside scr img x y) (hx : offsetX < img.width.toNat) (hy : offsetY < img.height.toNat) (uninit : Mem) :
    (imgPixel scr img uninit x y offsetX offsetY).dst.toNat =
      imgIndex scr x y offsetX offsetY * scr.bytesPerPixel.toNat := by
  have hline := hin.line_lt hx hy
  have hv := scr.vRes_lt
  have hi : (x + UInt16.ofNat offsetX).toUInt32.toNat = x.toNat + offsetX := toNat_offset (by omega)
  have hj : (y + UInt16.ofNat offsetY).toUInt32.toNat = y.toNat + offsetY := toNat_offset (by omega)
  have hlt := hin offsetX hx offsetY hy
  show (pixelOffset scr (x + UInt16.ofNat offsetX).toUInt32 (y + UInt16.ofNat offsetY).toUInt32).toNat = _
  rw [pixelOffset_toNat_of_lt (by rw [hi, hj]; exact hlt) hb, hi, hj]
  rfl

private theorem imgPixel_covers_iff (hb : 0 < scr.bytesPerPixel.toNat) (hx16 : x.toNat + img.width.toNat ≤ 2 ^ 16)
    (hin : ImageInside scr img x y) (hx : offsetX < img.width.toNat) (hy : offsetY < img.height.toNat) (uninit : Mem)
    (a : UInt32) :
    (imgPixel scr img uninit x y offsetX offsetY).Covers a ↔
      ∃ i < scr.bytesPerPixel.toNat, a.toNat = imgIndex scr x y offsetX offsetY * scr.bytesPerPixel.toNat + i := by
  have hdst := imgPixel_dst hb hx16 hin hx hy uninit
  have hle := hin.mul_add_le hx hy
  have hfit : scr.size < 2 ^ 32 := scr.fits
  have hlen : (imgPixel scr img uninit x y offsetX offsetY).len = scr.bytesPerPixel.toNat := rfl
  rw [Copy.Covers, sub_toNat_lt_iff (by omega), hdst, hlen]
  constructor
  · rintro ⟨h1, h2⟩
    obtain ⟨i, hi⟩ := Nat.exists_eq_add_of_le h1
    exact ⟨i, by omega, hi⟩
  · rintro ⟨i, hi, ha⟩
    omega

/-- The local `color` begins with the bytes of the pixel. -/
private theorem imgColor_byte (hb : 0 < scr.bytesPerPixel.toNat) (hb4 : scr.bytesPerPixel.toNat ≤ 4)
    (hw : img.width.toNat ≤ scr.hRes.toNat) (hin : ImageInside scr img x y) (hx : offsetX < img.width.toNat)
    (hy : offsetY < img.height.toNat) (uninit : Mem) {i : Nat} (hi : i < scr.bytesPerPixel.toNat) :
    leByte (imgColor scr img uninit offsetX offsetY).toNat i = imgByte scr img offsetX offsetY i := by
  have hsource := hin.source_lt hw hx hy
  have hpixel : offsetY * img.width.toNat + offsetX ≤
      (offsetY * img.width.toNat + offsetX) * scr.bytesPerPixel.toNat := Nat.le_mul_of_pos_right _ hb
  have hwidth := img.width.toNat_lt
  have hheight := img.height.toNat_lt
  have hindex : ((UInt32.ofNat offsetY * img.width.toUInt32 + UInt32.ofNat offsetX) * scr.bytesPerPixel).toNat =
      (offsetY * img.width.toNat + offsetX) * scr.bytesPerPixel.toNat := by
    rw [UInt32.toNat_mul, UInt32.toNat_add, UInt32.toNat_mul, UInt32.toNat_ofNat', UInt32.toNat_ofNat',
      UInt16.toNat_toUInt32, Nat.mod_eq_of_lt (show offsetY < 2 ^ 32 by omega),
      Nat.mod_eq_of_lt (show offsetX < 2 ^ 32 by omega),
      Nat.mod_eq_of_lt (show offsetY * img.width.toNat < 2 ^ 32 by omega),
      Nat.mod_eq_of_lt (show offsetY * img.width.toNat + offsetX < 2 ^ 32 by omega), Nat.mod_eq_of_lt (by omega)]
  have haddr : ((0 : UInt32) + UInt32.ofNat i).toNat = i := by
    rw [UInt32.zero_add, UInt32.toNat_ofNat']
    omega
  have hload : ∀ color : Mem, (UInt32.ofNat (loadLE color 0 4)).toNat = loadLE color 0 4 := by
    intro color
    rw [UInt32.toNat_ofNat']
    exact Nat.mod_eq_of_lt (loadLE_lt color 0 4)
  simp only [imgColor, hindex]
  rw [hload, leByte_loadLE _ _ (by omega),
    memcpy_inside (by simp; omega) (by simp) (by rw [haddr]; simpa using hi), haddr]
  rfl

private theorem imgPixel_byte (hb : 0 < scr.bytesPerPixel.toNat) (hb4 : scr.bytesPerPixel.toNat ≤ 4)
    (hw : img.width.toNat ≤ scr.hRes.toNat) (hx16 : x.toNat + img.width.toNat ≤ 2 ^ 16) (hin : ImageInside scr img x y)
    (hx : offsetX < img.width.toNat) (hy : offsetY < img.height.toNat) (uninit : Mem) {i : Nat}
    (hi : i < scr.bytesPerPixel.toNat) {a : UInt32}
    (ha : a.toNat = imgIndex scr x y offsetX offsetY * scr.bytesPerPixel.toNat + i) :
    (imgPixel scr img uninit x y offsetX offsetY).byte a = imgByte scr img offsetX offsetY i := by
  have hdst := imgPixel_dst hb hx16 hin hx hy uninit
  have hsub : (a - (imgPixel scr img uninit x y offsetX offsetY).dst).toNat = i := by
    have hlt := a.toNat_lt
    rw [UInt32.toNat_sub, hdst]
    omega
  rw [Copy.byte, hsub]
  exact imgColor_byte hb hb4 hw hin hx hy uninit hi

end Copies

theorem drawImg_eq_copyAll (scr : Screen) (mem : Mem) (img : XpmImage) (x y : UInt16) :
    drawImg scr mem img x y = copyAll mem ((List.range img.height.toNat).map (imgRow scr img x y)) := by
  rw [copyAll, List.foldl_map]
  rfl

/-- The pixels in the order of `draw_img2`. -/
def imgPixels (scr : Screen) (img : XpmImage) (uninit : Nat → Nat → Mem) (x y : UInt16) : List Copy :=
  (List.range img.width.toNat).flatMap fun offsetX =>
    (List.range img.height.toNat).map fun offsetY => imgPixel scr img (uninit offsetX offsetY) x y offsetX offsetY

private theorem drawImg2_eq_copyAll (scr : Screen) (mem : Mem) (img : XpmImage) (uninit : Nat → Nat → Mem)
    (x y : UInt16) :
    drawImg2 scr mem img uninit x y = copyAll mem (imgPixels scr img uninit x y) := by
  simp only [copyAll, imgPixels, List.foldl_flatMap, List.foldl_map]
  rfl

private theorem mem_imgPixels {scr : Screen} {img : XpmImage} {uninit : Nat → Nat → Mem} {x y : UInt16} {c : Copy} :
    c ∈ imgPixels scr img uninit x y ↔ ∃ offsetX < img.width.toNat, ∃ offsetY < img.height.toNat,
      imgPixel scr img (uninit offsetX offsetY) x y offsetX offsetY = c := by
  simp only [imgPixels, List.mem_flatMap, List.mem_map, List.mem_range]

/-- Copying an image in rows and copying it pixel by pixel leave the same framebuffer. -/
theorem drawImg_eq_drawImg2 {scr : Screen} (hb : 1 ≤ scr.bytesPerPixel ∧ scr.bytesPerPixel ≤ 4) {img : XpmImage}
    (hw : img.width.toNat ≤ scr.hRes.toNat) {x y : UInt16} (hx16 : x.toNat + img.width.toNat ≤ 65536)
    (hin : ImageInside scr img x y) (uninit : Nat → Nat → Mem) (mem : Mem) :
    drawImg scr mem img x y = drawImg2 scr mem img uninit x y := by
  have hpos : 0 < scr.bytesPerPixel.toNat := UInt32.le_iff_toNat_le.1 hb.1
  have hb4 : scr.bytesPerPixel.toNat ≤ 4 := UInt32.le_iff_toNat_le.1 hb.2
  rw [drawImg_eq_copyAll, drawImg2_eq_copyAll]
  apply copyAll_congr
  · intro a
    constructor
    · rintro ⟨c, hc, hcov⟩
      obtain ⟨offsetY, hy, rfl⟩ := List.mem_map.1 hc
      rw [List.mem_range] at hy
      obtain ⟨offsetX, hx, hi⟩ := (imgRow_covers_iff hpos hin hy a).1 hcov
      exact ⟨_, mem_imgPixels.2 ⟨offsetX, hx, offsetY, hy, rfl⟩, (imgPixel_covers_iff hpos hx16 hin hx hy _ a).2 hi⟩
    · rintro ⟨d, hd, hcov⟩
      obtain ⟨offsetX, hx, offsetY, hy, rfl⟩ := mem_imgPixels.1 hd
      have hi := (imgPixel_covers_iff hpos hx16 hin hx hy _ a).1 hcov
      exact ⟨_, List.mem_map_of_mem (List.mem_range.2 hy), (imgRow_covers_iff hpos hin hy a).2 ⟨offsetX, hx, hi⟩⟩
  · intro a c hc d hd hca hda
    obtain ⟨offsetY, hy, rfl⟩ := List.mem_map.1 hc
    rw [List.mem_range] at hy
    obtain ⟨offsetX', hx', offsetY', hy', rfl⟩ := mem_imgPixels.1 hd
    obtain ⟨offsetX, hx, i, hi, ha⟩ := (imgRow_covers_iff hpos hin hy a).1 hca
    obtain ⟨i', hi', ha'⟩ := (imgPixel_covers_iff hpos hx16 hin hx' hy' _ a).1 hda
    -- the address tells which pixel of the image it belongs to
    obtain ⟨hindex, rfl⟩ := mul_add_inj hi hi' (ha.symm.trans ha')
    obtain ⟨rfl, rfl⟩ := imgIndex_inj (by omega) (by omega) hindex
    rw [imgRow_byte hpos hw hin hx hy ha, imgPixel_byte hpos hb4 hw hx16 hin hx hy _ hi ha]

/-- The lines of an image of five pixels by two begin near the right edge, and go on in the next lines of the screen. -/
theorem drawImg_eq_drawImg2_spilled :
    drawImg smallScreen (fun _ => 0) ⟨5, 2, UInt8.ofNat⟩ 6 1 =
      drawImg2 smallScreen (fun _ => 0) ⟨5, 2, UInt8.ofNat⟩ (fun _ _ _ => 0) 6 1 :=
  drawImg_eq_drawImg2 (by decide) (by decide) (by decide) (by decide) _ _

end LabChase
