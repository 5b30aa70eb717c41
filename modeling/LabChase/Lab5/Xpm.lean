import LabChase.Lab5.Drawing

/-!
# Pixmaps (`video_gr.c`)

`xpm_drawer` does not look at the pixmap it is given: it loads `rato`, with three bytes to a pixel, and draws one pixel
for each of the first `width * height` bytes.  What appears on the screen is that picture (`findColor_xpmDrawer`), so
the given one is drawn exactly when `rato` happens to load as it (`xpmDrawer_draws_map_iff`).
-/

namespace LabChase.Lab5

open FlatMemory

/-- `xpm_map_t`: the lines of a pixmap. -/
abbrev XpmMap := List String

/-- `enum xpm_image_type`. -/
inductive XpmImageType where
  | indexed | xpm1555 | xpm565 | xpm888 | xpm8888 | gray1555 | gray565 | gray888 | gray8888 | invalid
  deriving DecidableEq, Repr

/-- `xpm_load` of the library, and the pixmap of `rato_xpm.h`. -/
structure Pixmaps where
  xpmLoad : XpmMap → XpmImageType → XpmImage
  rato : XpmMap

/-- The image that `xpm_drawer` draws. -/
def Pixmaps.img (p : Pixmaps) : XpmImage := p.xpmLoad p.rato .xpm888

/-- What `xpm_drawer` leaves: the framebuffer and the globals. -/
structure Drawn where
  videoMem : Mem
  imgHeight : UInt16
  imgWidth : UInt16

/-- `xpm_drawer`; the pixmap it is passed is not used. -/
def xpmDrawer (p : Pixmaps) (scr : Screen) (_xpm : XpmMap) (x y : UInt16) (mem : Mem) : Drawn :=
  let img := p.xpmLoad p.rato .xpm888
  { imgHeight := img.height
    imgWidth := img.width
    videoMem := (List.range img.height.toNat).foldl
      (fun mem height =>
        (List.range img.width.toNat).foldl
          (fun mem width =>
            vgDrawHline scr mem (x + UInt16.ofNat width) (y + UInt16.ofNat height) 1
              (img.bytes (height * img.width.toNat + width)).toUInt32)
          mem)
      mem }

/-- Byte of the pixel in column `i` and line `j`. -/
def pixelByte (img : XpmImage) (i j : Nat) : UInt8 := img.bytes (j * img.width.toNat + i)

def FitsAt (scr : Screen) (img : XpmImage) (x y : UInt16) : Prop :=
  x.toNat + img.width.toNat ≤ scr.hRes.toNat ∧ y.toNat + img.height.toNat ≤ scr.vRes.toNat

instance (scr : Screen) (img : XpmImage) (x y : UInt16) : Decidable (FitsAt scr img x y) :=
  inferInstanceAs (Decidable (_ ∧ _))

/-- The picture is drawn with its top left corner at `(x, y)`, and the other pixels of the screen are unchanged. -/
structure DrawnAt (scr : Screen) (img : XpmImage) (x y : UInt16) (mem mem' : Mem) : Prop where
  inside : ∀ i < img.width.toNat, ∀ j < img.height.toNat,
    findColor scr mem' (x + UInt16.ofNat i) (y + UInt16.ofNat j) = (pixelByte img i j).toUInt32
  outside : ∀ a b, scr.OnScreen a b → ¬ InRectangle x y img.width img.height a b →
    findColor scr mem' a b = findColor scr mem a b

/-- `xpm_drawer` draws the pixmap it is passed, with the palette indices that `xpm_load` yields for it. -/
def DrawsMap (p : Pixmaps) (scr : Screen) (map : XpmMap) (x y : UInt16) : Prop :=
  ∀ mem, DrawnAt scr (p.xpmLoad map .indexed) x y mem (xpmDrawer p scr map x y mem).videoMem ∧
    (xpmDrawer p scr map x y mem).imgWidth = (p.xpmLoad map .indexed).width ∧
      (xpmDrawer p scr map x y mem).imgHeight = (p.xpmLoad map .indexed).height

/-- The images have the same size and the same bytes, one for each pixel. -/
structure SamePicture (img img' : XpmImage) : Prop where
  width : img.width = img'.width
  height : img.height = img'.height
  bytes : ∀ k < img.width.toNat * img.height.toNat, img.bytes k = img'.bytes k

/-! ### The pixels of a picture -/

/-- The pixels that `xpm_drawer` draws, each with its colour. -/
def picturePixels (img : XpmImage) (x y : UInt16) : List ((UInt16 × UInt16) × UInt32) :=
  (List.range img.height.toNat).flatMap fun height => (List.range img.width.toNat).map fun width =>
    ((x + UInt16.ofNat width, y + UInt16.ofNat height), (pixelByte img width height).toUInt32)

private theorem mem_picturePixels {img : XpmImage} {x y : UInt16} {q : (UInt16 × UInt16) × UInt32} :
    q ∈ picturePixels img x y ↔ ∃ j < img.height.toNat, ∃ i < img.width.toNat,
      ((x + UInt16.ofNat i, y + UInt16.ofNat j), (pixelByte img i j).toUInt32) = q := by
  simp only [picturePixels, List.mem_flatMap, List.mem_map, List.mem_range]

private theorem xpmDrawer_videoMem (p : Pixmaps) (scr : Screen) (xpm : XpmMap) (x y : UInt16) (mem : Mem) :
    (xpmDrawer p scr xpm x y mem).videoMem = paintAll scr mem (picturePixels p.img x y) := by
  have hline : ∀ (mem : Mem) (x y : UInt16) (color : UInt32),
      vgDrawHline scr mem x y 1 color = vgDrawPixel scr mem x y color := by
    intro mem x y color
    have hpixel := memcpy_pixel scr mem (x := x) y color (i := 0) (by simpa using x.toNat_lt)
    rw [show x + UInt16.ofNat 0 = x from UInt16.add_zero x] at hpixel
    exact hpixel
  simp only [xpmDrawer, hline, paintAll, picturePixels, List.foldl_flatMap, List.foldl_map]
  rfl

section Fits

variable {scr : Screen} {img : XpmImage} {x y : UInt16}

/-- In a picture on the screen, columns and lines are not truncated. -/
theorem FitsAt.toNat_add (h : FitsAt scr img x y) {i j : Nat} (hi : i < img.width.toNat) (hj : j < img.height.toNat) :
    (x + UInt16.ofNat i).toNat = x.toNat + i ∧ (y + UInt16.ofNat j).toNat = y.toNat + j := by
  obtain ⟨h1, h2⟩ := h
  have hr := scr.hRes_lt
  have hv := scr.vRes_lt
  exact ⟨toNat_add_offset (by omega), toNat_add_offset (by omega)⟩

theorem FitsAt.onScreen (h : FitsAt scr img x y) {a b : UInt16} (hab : InRectangle x y img.width img.height a b) :
    scr.OnScreen a b := by
  obtain ⟨h1, h2⟩ := h
  obtain ⟨⟨-, h3⟩, -, h4⟩ := hab
  exact ⟨by omega, by omega⟩

theorem FitsAt.inRectangle (h : FitsAt scr img x y) {i j : Nat} (hi : i < img.width.toNat) (hj : j < img.height.toNat) :
    InRectangle x y img.width img.height (x + UInt16.ofNat i) (y + UInt16.ofNat j) := by
  obtain ⟨hx, hy⟩ := h.toNat_add hi hj
  exact ⟨⟨by omega, by omega⟩, by omega, by omega⟩

/-- A picture that fits leaves its bytes in its rectangle and the other pixels as they were. -/
theorem findColor_xpmDrawer {p : Pixmaps} (hb : 0 < scr.bytesPerPixel.toNat) (hfit : FitsAt scr p.img x y)
    (xpm : XpmMap) (mem : Mem) {a b : UInt16} (hon : scr.OnScreen a b) :
    findColor scr (xpmDrawer p scr xpm x y mem).videoMem a b =
      if InRectangle x y p.img.width p.img.height a b then
        (pixelByte p.img (a.toNat - x.toNat) (b.toNat - y.toNat)).toUInt32
      else findColor scr mem a b := by
  have hpix : ∀ q ∈ picturePixels p.img x y, scr.OnScreen q.1.1 q.1.2 := by
    intro q hq
    obtain ⟨j, hj, i, hi, rfl⟩ := mem_picturePixels.1 hq
    exact hfit.onScreen (hfit.inRectangle hi hj)
  rw [xpmDrawer_videoMem]
  split
  · next hin =>
    have hbyte : ∀ c : UInt8, UInt32.ofNat (c.toUInt32.toNat % 256 ^ scr.bytesPerPixel.toNat) = c.toUInt32 := by
      intro c
      have hc := c.toNat_lt
      have hpow : 256 ^ 1 ≤ 256 ^ scr.bytesPerPixel.toNat := Nat.pow_le_pow_right (by decide) hb
      rw [UInt8.toNat_toUInt32, Nat.mod_eq_of_lt (by omega)]
      apply UInt32.toNat_inj.1
      rw [UInt32.toNat_ofNat', UInt8.toNat_toUInt32]
      omega
    rw [← hbyte]
    apply findColor_paintAll_of_mem hpix hon hb
    · refine ⟨_, mem_picturePixels.2 ⟨b.toNat - y.toNat, ?_, a.toNat - x.toNat, ?_, rfl⟩, ?_⟩
      · have := hin.2
        omega
      · have := hin.1
        omega
      · obtain ⟨⟨h1, h2⟩, h3, h4⟩ := hin
        obtain ⟨hx, hy⟩ := hfit.toNat_add (show a.toNat - x.toNat < _ by omega) (show b.toNat - y.toNat < _ by omega)
        have ha : a = x + UInt16.ofNat (a.toNat - x.toNat) := UInt16.toNat_inj.1 (by omega)
        have hb : b = y + UInt16.ofNat (b.toNat - y.toNat) := UInt16.toNat_inj.1 (by omega)
        exact Prod.ext ha hb
    · intro q hq heq
      obtain ⟨j, hj, i, hi, rfl⟩ := mem_picturePixels.1 hq
      obtain ⟨rfl, rfl⟩ := Prod.mk.inj heq
      obtain ⟨hx, hy⟩ := hfit.toNat_add hi hj
      rw [hx, hy, Nat.add_sub_cancel_left, Nat.add_sub_cancel_left]
  · next hout =>
    apply findColor_paintAll_of_not_mem hpix hon hb
    intro q hq heq
    obtain ⟨j, hj, i, hi, rfl⟩ := mem_picturePixels.1 hq
    obtain ⟨rfl, rfl⟩ := Prod.mk.inj heq
    exact hout (hfit.inRectangle hi hj)

private theorem xpmDrawer_drawnAt {p : Pixmaps} (hb : 0 < scr.bytesPerPixel.toNat) (hfit : FitsAt scr p.img x y)
    (xpm : XpmMap) (mem : Mem) : DrawnAt scr p.img x y mem (xpmDrawer p scr xpm x y mem).videoMem := by
  constructor
  · intro i hi j hj
    have hin := hfit.inRectangle hi hj
    obtain ⟨hx, hy⟩ := hfit.toNat_add hi hj
    rw [findColor_xpmDrawer hb hfit xpm mem (hfit.onScreen hin), if_pos hin, hx, hy, Nat.add_sub_cancel_left,
      Nat.add_sub_cancel_left]
  · intro a b hon hout
    rw [findColor_xpmDrawer hb hfit xpm mem hon, if_neg hout]

end Fits

/-! ### The picture that is drawn -/

theorem SamePicture.pixelByte {img img' : XpmImage} (h : SamePicture img img') {i j : Nat} (hi : i < img.width.toNat)
    (hj : j < img.height.toNat) : pixelByte img i j = pixelByte img' i j := by
  have hk : j * img.width.toNat + i < img.width.toNat * img.height.toNat := by
    have hmul : (j + 1) * img.width.toNat ≤ img.height.toNat * img.width.toNat := Nat.mul_le_mul_right _ hj
    rw [Nat.succ_mul, Nat.mul_comm img.height.toNat] at hmul
    omega
  rw [Lab5.pixelByte, Lab5.pixelByte, h.bytes _ hk, h.width]

private theorem SamePicture.of_pixelByte {img img' : XpmImage} (hw : img.width = img'.width)
    (hh : img.height = img'.height)
    (h : ∀ i < img.width.toNat, ∀ j < img.height.toNat, Lab5.pixelByte img i j = Lab5.pixelByte img' i j) :
    SamePicture img img' := by
  refine ⟨hw, hh, fun k hk => ?_⟩
  have hpos : 0 < img.width.toNat := Nat.pos_of_mul_pos_right (Nat.lt_of_le_of_lt (Nat.zero_le _) hk)
  have hline : k / img.width.toNat < img.height.toNat := Nat.div_lt_of_lt_mul hk
  have hbyte := h (k % img.width.toNat) (Nat.mod_lt _ hpos) (k / img.width.toNat) hline
  rwa [Lab5.pixelByte, Lab5.pixelByte, ← hw, Nat.div_add_mod'] at hbyte

theorem xpmDrawer_draws_map_iff {scr : Screen} (hb : scr.bytesPerPixel = 1) (p : Pixmaps) (map : XpmMap) {x y : UInt16}
    (hfit : FitsAt scr (p.xpmLoad map .indexed) x y) :
    DrawsMap p scr map x y ↔ SamePicture (p.xpmLoad p.rato .xpm888) (p.xpmLoad map .indexed) := by
  have hpos : 0 < scr.bytesPerPixel.toNat := by
    rw [hb]
    decide
  constructor
  · intro hdraws
    obtain ⟨hmap, hw, hh⟩ := hdraws fun _ => 0
    have hfit' : FitsAt scr p.img x y := by
      rw [FitsAt, Pixmaps.img, show (p.xpmLoad p.rato .xpm888).width = _ from hw,
        show (p.xpmLoad p.rato .xpm888).height = _ from hh]
      exact hfit
    have hrato := xpmDrawer_drawnAt hpos hfit' map fun _ => 0
    refine SamePicture.of_pixelByte hw hh fun i hi j hj => ?_
    have hboth := (hrato.inside i hi j hj).symm.trans
      (hmap.inside i (Nat.lt_of_lt_of_eq hi (congrArg _ hw)) j (Nat.lt_of_lt_of_eq hj (congrArg _ hh)))
    have hnat := congrArg UInt32.toNat hboth
    rw [UInt8.toNat_toUInt32, UInt8.toNat_toUInt32] at hnat
    exact UInt8.toNat_inj.1 hnat
  · intro hsame mem
    have hfit' : FitsAt scr p.img x y := by
      rw [FitsAt, Pixmaps.img, hsame.width, hsame.height]
      exact hfit
    have hrato := xpmDrawer_drawnAt hpos hfit' map mem
    refine ⟨⟨fun i hi j hj => ?_, fun a b hon hout => ?_⟩, hsame.width, hsame.height⟩
    · have hi' : i < p.img.width.toNat := Nat.lt_of_lt_of_eq hi (congrArg _ hsame.width.symm)
      have hj' : j < p.img.height.toNat := Nat.lt_of_lt_of_eq hj (congrArg _ hsame.height.symm)
      rw [hrato.inside i hi' j hj']
      exact congrArg UInt8.toUInt32 (hsame.pixelByte hi' hj')
    · apply hrato.outside a b hon
      rw [Pixmaps.img, hsame.width, hsame.height]
      exact hout

/-- A pixmap of two pixels, with the colours 2 and 0. -/
def twoPixels : XpmMap := ["2 1 2", "  0", "x 2", "x "]

/-- What the library yields for `twoPixels`, and the size of what it yields for `rato`. -/
def samplePixmaps : Pixmaps where
  xpmLoad := fun map type =>
    if map = twoPixels ∧ type = .indexed then ⟨2, 1, fun k => if k = 0 then 2 else 0⟩
    else ⟨320, 320, fun k => if k % 3 = 0 then 0x40 else if k % 3 = 1 then 0xb1 else 0⟩
  rato := ["320 320 2 1 ", "  c None", ". c #ffffff"]

theorem samplePixmaps_draws_map_iff :
    DrawsMap samplePixmaps screen105 twoPixels 100 100 ↔
      SamePicture (samplePixmaps.xpmLoad samplePixmaps.rato .xpm888) (samplePixmaps.xpmLoad twoPixels .indexed) :=
  xpmDrawer_draws_map_iff rfl _ _ (by decide)

theorem samplePixmaps_not_drawn : ¬ DrawsMap samplePixmaps screen105 twoPixels 100 100 := by
  intro h
  have hw := (h fun _ => 0).2.1
  exact absurd hw (by decide)

end LabChase.Lab5
