import LabChase.Proj.Structures

/-!
# Drawing (`video_gr.c`)

The drawing functions of the game on the bytes of the framebuffer, and what they do to its pixels: a rectangle is
painted pixel by pixel (`vgDrawRectangle_mem`), and reading a pixel after painting a list of pixels gives the colour on
the list and the old colour elsewhere (`findColor_paint`).
-/

namespace LabChase

open FlatMemory

/-- `(y * h_res + x) * bytes_per_pixel`, the offset of a pixel in `video_mem`; all operands are promoted to
`unsigned`. -/
def pixelOffset (scr : Screen) (x y : UInt32) : UInt32 := (y * scr.hRes + x) * scr.bytesPerPixel

/-- `find_color`: the bytes of a pixel as a little-endian number, in a local `color` of four bytes. -/
def findColor (scr : Screen) (mem : Mem) (x y : UInt16) : UInt32 :=
  UInt32.ofNat (loadLE mem (pixelOffset scr x.toUInt32 y.toUInt32) scr.bytesPerPixel.toNat)

/-- `vg_draw_pixel`: the low `bytes_per_pixel` bytes of `color`. -/
def vgDrawPixel (scr : Screen) (mem : Mem) (x y : UInt16) (color : UInt32) : Mem :=
  memcpy mem (pixelOffset scr x.toUInt32 y.toUInt32) (leByte color.toNat) scr.bytesPerPixel.toNat

/-- `vg_draw_hline`; `x + offset_x` is truncated to `uint16_t` when it is passed on. -/
def vgDrawHline (scr : Screen) (mem : Mem) (x y len : UInt16) (color : UInt32) : Mem :=
  (List.range len.toNat).foldl (fun mem offsetX => vgDrawPixel scr mem (x + UInt16.ofNat offsetX) y color) mem

/-- `vg_draw_rectangle`: the flag tells whether the top-left pixel had a colour other than `0` and `255`. -/
def vgDrawRectangle (scr : Screen) (mem : Mem) (x y width height : UInt16) (color : UInt32) : Nat × Mem :=
  let flag := if findColor scr mem x y ≠ 0 ∧ findColor scr mem x y ≠ 255 then 1 else 0
  (flag, (List.range height.toNat).foldl
    (fun mem offset => vgDrawHline scr mem x (y + UInt16.ofNat offset) width color) mem)

/-- `draw_img`: one `memcpy` for each row of the image; `y + offset_y` is an `int`, so it is not truncated. -/
def drawImg (scr : Screen) (mem : Mem) (img : XpmImage) (x y : UInt16) : Mem :=
  let numBytes := scr.bytesPerPixel * img.width.toUInt32
  (List.range img.height.toNat).foldl
    (fun mem offsetY =>
      memcpy mem (pixelOffset scr x.toUInt32 (y.toUInt32 + UInt32.ofNat offsetY))
        (fun i => img.bytes ((UInt32.ofNat offsetY * img.width.toUInt32 * scr.bytesPerPixel).toNat + i))
        numBytes.toNat)
    mem

/-- `draw_img2`: pixel by pixel, in columns.  `memcpy` writes the first `bytes_per_pixel` of the four bytes of the local
`color`; `uninit` is what it holds before. -/
def drawImg2 (scr : Screen) (mem : Mem) (img : XpmImage) (uninit : Nat → Nat → Mem) (x y : UInt16) : Mem :=
  (List.range img.width.toNat).foldl
    (fun mem offsetX =>
      (List.range img.height.toNat).foldl
        (fun mem offsetY =>
          let index := (UInt32.ofNat offsetY * img.width.toUInt32 + UInt32.ofNat offsetX) * scr.bytesPerPixel
          let color := memcpy (uninit offsetX offsetY) 0 (fun i => img.bytes (index.toNat + i)) scr.bytesPerPixel.toNat
          vgDrawPixel scr mem (x + UInt16.ofNat offsetX) (y + UInt16.ofNat offsetY) (UInt32.ofNat (loadLE color 0 4)))
        mem)
    mem

/-! ### The bytes of a pixel -/

private def pixelIndex (scr : Screen) (x y : UInt16) : Nat := y.toNat * scr.hRes.toNat + x.toNat

private theorem pixelIndex_lt {scr : Screen} {x y : UInt16} (h : scr.OnScreen x y) :
    pixelIndex scr x y + 1 ≤ scr.hRes.toNat * scr.vRes.toNat := by
  obtain ⟨hx, hy⟩ := h
  calc y.toNat * scr.hRes.toNat + x.toNat + 1
      ≤ y.toNat * scr.hRes.toNat + scr.hRes.toNat := by omega
    _ = (y.toNat + 1) * scr.hRes.toNat := by ring
    _ ≤ scr.vRes.toNat * scr.hRes.toNat := Nat.mul_le_mul_right _ hy
    _ = scr.hRes.toNat * scr.vRes.toNat := Nat.mul_comm _ _

private theorem pixelIndex_mul_add_le {scr : Screen} {x y : UInt16} (h : scr.OnScreen x y) :
    pixelIndex scr x y * scr.bytesPerPixel.toNat + scr.bytesPerPixel.toNat ≤ scr.size := by
  calc pixelIndex scr x y * scr.bytesPerPixel.toNat + scr.bytesPerPixel.toNat
      = (pixelIndex scr x y + 1) * scr.bytesPerPixel.toNat := by ring
    _ ≤ scr.hRes.toNat * scr.vRes.toNat * scr.bytesPerPixel.toNat :=
        Nat.mul_le_mul_right _ (pixelIndex_lt h)

/-- A line and a column are determined by their index. -/
theorem mul_add_inj {n a a' b b' : Nat} (ha : a < n) (ha' : a' < n) (h : b * n + a = b' * n + a') :
    b = b' ∧ a = a' := by
  have hpos : 0 < n := by omega
  have hdiv : ∀ {b a : Nat}, a < n → (b * n + a) / n = b := by
    intro b a ha
    rw [Nat.mul_comm, Nat.mul_add_div hpos, Nat.div_eq_of_lt ha, Nat.add_zero]
  obtain rfl : b = b' := (hdiv ha).symm.trans ((congrArg (· / n) h).trans (hdiv ha'))
  exact ⟨rfl, Nat.add_left_cancel h⟩

private theorem pixelIndex_inj {scr : Screen} {x y x' y' : UInt16} (h : scr.OnScreen x y) (h' : scr.OnScreen x' y')
    (heq : pixelIndex scr x y = pixelIndex scr x' y') : x = x' ∧ y = y' := by
  obtain ⟨hy, hx⟩ := mul_add_inj h.1 h'.1 heq
  exact ⟨UInt16.toNat_inj.1 hx, UInt16.toNat_inj.1 hy⟩

/-- The offset of an index in the framebuffer does not wrap. -/
theorem pixelOffset_toNat_of_lt {scr : Screen} {x y : UInt32}
    (h : y.toNat * scr.hRes.toNat + x.toNat < scr.hRes.toNat * scr.vRes.toNat) (hb : 0 < scr.bytesPerPixel.toNat) :
    (pixelOffset scr x y).toNat = (y.toNat * scr.hRes.toNat + x.toNat) * scr.bytesPerPixel.toNat := by
  have h1 : (y.toNat * scr.hRes.toNat + x.toNat + 1) * scr.bytesPerPixel.toNat ≤
      scr.hRes.toNat * scr.vRes.toNat * scr.bytesPerPixel.toNat := Nat.mul_le_mul_right _ h
  have h2 := scr.fits
  have h3 : y.toNat * scr.hRes.toNat + x.toNat ≤
      (y.toNat * scr.hRes.toNat + x.toNat) * scr.bytesPerPixel.toNat := Nat.le_mul_of_pos_right _ hb
  rw [Nat.succ_mul] at h1
  simp only [pixelOffset, UInt32.toNat_mul, UInt32.toNat_add]
  rw [Nat.mod_add_mod, Nat.mod_eq_of_lt (show y.toNat * scr.hRes.toNat + x.toNat < 2 ^ 32 by omega),
    Nat.mod_eq_of_lt (by omega)]

/-- The offset of a pixel of the screen does not wrap. -/
theorem pixelOffset_toNat {scr : Screen} {x y : UInt16} (h : scr.OnScreen x y) (hb : 0 < scr.bytesPerPixel.toNat) :
    (pixelOffset scr x.toUInt32 y.toUInt32).toNat =
      (y.toNat * scr.hRes.toNat + x.toNat) * scr.bytesPerPixel.toNat := by
  have hlt : y.toUInt32.toNat * scr.hRes.toNat + x.toUInt32.toNat < scr.hRes.toNat * scr.vRes.toNat := by
    rw [UInt16.toNat_toUInt32, UInt16.toNat_toUInt32]
    exact pixelIndex_lt h
  rw [pixelOffset_toNat_of_lt hlt hb, UInt16.toNat_toUInt32, UInt16.toNat_toUInt32]

theorem pixelOffset_add_le {scr : Screen} {x y : UInt16} (h : scr.OnScreen x y) (hb : 0 < scr.bytesPerPixel.toNat) :
    (pixelOffset scr x.toUInt32 y.toUInt32).toNat + scr.bytesPerPixel.toNat ≤ scr.size := by
  rw [pixelOffset_toNat h hb]
  exact pixelIndex_mul_add_le h

/-- The byte at the address belongs to the pixel, be it on the screen or not. -/
def IsPixelByte (scr : Screen) (px : UInt16 × UInt16) (a : UInt32) : Prop :=
  (a - pixelOffset scr px.1.toUInt32 px.2.toUInt32).toNat < scr.bytesPerPixel.toNat

/-- The colour of a pixel depends on its own bytes only. -/
theorem findColor_congr_bytes {scr : Screen} {mem mem' : Mem} {x y : UInt16}
    (hmem : ∀ a, IsPixelByte scr (x, y) a → mem a = mem' a) : findColor scr mem x y = findColor scr mem' x y := by
  have hload : loadLE mem (pixelOffset scr x.toUInt32 y.toUInt32) scr.bytesPerPixel.toNat =
      loadLE mem' (pixelOffset scr x.toUInt32 y.toUInt32) scr.bytesPerPixel.toNat := by
    apply loadLE_congr
    intro i hi
    apply hmem
    rw [IsPixelByte, add_ofNat_sub_toNat _ (hi.trans scr.bytesPerPixel.toNat_lt)]
    exact hi
  rw [findColor, findColor, hload]

theorem findColor_congr {scr : Screen} {mem mem' : Mem} {x y : UInt16}
    (hmem : ∀ a : UInt32, a.toNat < scr.size → mem a = mem' a) (h : scr.OnScreen x y)
    (hb : 0 < scr.bytesPerPixel.toNat) : findColor scr mem x y = findColor scr mem' x y := by
  have hle := pixelOffset_add_le h hb
  have hfit : scr.size < 2 ^ 32 := scr.fits
  refine findColor_congr_bytes fun a ha => hmem a ?_
  have hbyte : (a - pixelOffset scr x.toUInt32 y.toUInt32).toNat < scr.bytesPerPixel.toNat := ha
  rw [sub_toNat_lt_iff (by omega)] at hbyte
  omega

theorem loadLE_pixel_const {scr : Screen} {mem : Mem} {c : UInt8} {x y : UInt16}
    (hmem : ∀ a : UInt32, a.toNat < scr.size → mem a = c) (h : scr.OnScreen x y) (hb : 0 < scr.bytesPerPixel.toNat) :
    255 * loadLE mem (pixelOffset scr x.toUInt32 y.toUInt32) scr.bytesPerPixel.toNat =
      c.toNat * (256 ^ scr.bytesPerPixel.toNat - 1) := by
  have hle := pixelOffset_add_le h hb
  have hfit : scr.size < 2 ^ 32 := scr.fits
  apply loadLE_const
  intro i hi
  apply hmem
  rw [toNat_add_ofNat (by omega)]
  omega

/-! ### Reading after painting -/

private theorem findColor_vgDrawPixel {scr : Screen} {mem : Mem} {x y x' y' : UInt16} {color : UInt32}
    (h : scr.OnScreen x y) (h' : scr.OnScreen x' y') (hb : 0 < scr.bytesPerPixel.toNat) :
    findColor scr (vgDrawPixel scr mem x y color) x' y' =
      if (x', y') = (x, y) then UInt32.ofNat (color.toNat % 256 ^ scr.bytesPerPixel.toNat)
      else findColor scr mem x' y' := by
  have hfit := scr.fits
  have hle := pixelOffset_add_le h hb
  have hle' := pixelOffset_add_le h' hb
  unfold Screen.size at hle hle'
  split
  · rename_i heq
    obtain ⟨rfl, rfl⟩ := Prod.mk.inj heq
    rw [findColor, vgDrawPixel, loadLE_memcpy_self _ _ _ (by omega)]
  · rename_i hne
    rw [findColor, vgDrawPixel, loadLE_memcpy_disjoint (by omega) (by omega)]
    · rfl
    · have hidx : pixelIndex scr x y ≠ pixelIndex scr x' y' := by
        intro heq
        obtain ⟨rfl, rfl⟩ := pixelIndex_inj h h' heq
        exact hne rfl
      rw [pixelOffset_toNat h hb, pixelOffset_toNat h' hb]
      -- distinct pixels have distinct indices, so their blocks are at least one pixel apart
      rcases Nat.lt_or_gt_of_ne hidx with hlt | hlt
      · right
        have := Nat.mul_le_mul_right scr.bytesPerPixel.toNat (Nat.succ_le_of_lt hlt)
        unfold pixelIndex at this
        rw [Nat.succ_mul] at this
        exact this
      · left
        have := Nat.mul_le_mul_right scr.bytesPerPixel.toNat (Nat.succ_le_of_lt hlt)
        unfold pixelIndex at this
        rw [Nat.succ_mul] at this
        exact this

/-- Each pixel of the list gets its colour, in the order of the list. -/
def paintAll (scr : Screen) (mem : Mem) (pixels : List ((UInt16 × UInt16) × UInt32)) : Mem :=
  pixels.foldl (fun mem p => vgDrawPixel scr mem p.1.1 p.1.2 p.2) mem

section PaintAll

variable {scr : Screen} {mem : Mem} {pixels : List ((UInt16 × UInt16) × UInt32)} {x y : UInt16}

theorem findColor_paintAll_of_not_mem (hp : ∀ p ∈ pixels, scr.OnScreen p.1.1 p.1.2) (hon : scr.OnScreen x y)
    (hb : 0 < scr.bytesPerPixel.toNat) (h : ∀ p ∈ pixels, (x, y) ≠ p.1) :
    findColor scr (paintAll scr mem pixels) x y = findColor scr mem x y := by
  induction pixels generalizing mem with
  | nil => rfl
  | cons p ps ih =>
    rw [List.forall_mem_cons] at hp h
    show findColor scr (paintAll scr (vgDrawPixel scr mem p.1.1 p.1.2 p.2) ps) x y = _
    rw [ih hp.2 h.2, findColor_vgDrawPixel hp.1 hon hb, if_neg h.1]

/-- A pixel on the list, with one colour at all its places, has that colour. -/
theorem findColor_paintAll_of_mem (hp : ∀ p ∈ pixels, scr.OnScreen p.1.1 p.1.2) (hon : scr.OnScreen x y)
    (hb : 0 < scr.bytesPerPixel.toNat) {color : UInt32} (h : ∃ p ∈ pixels, (x, y) = p.1)
    (hcolor : ∀ p ∈ pixels, (x, y) = p.1 → p.2 = color) :
    findColor scr (paintAll scr mem pixels) x y = UInt32.ofNat (color.toNat % 256 ^ scr.bytesPerPixel.toNat) := by
  induction pixels generalizing mem with
  | nil => simp at h
  | cons p ps ih =>
    rw [List.forall_mem_cons] at hp hcolor
    show findColor scr (paintAll scr (vgDrawPixel scr mem p.1.1 p.1.2 p.2) ps) x y = _
    by_cases hps : ∃ q ∈ ps, (x, y) = q.1
    · exact ih hp.2 hps hcolor.2
    · have hhead : (x, y) = p.1 := (List.exists_mem_cons_iff _ _ _).1 h |>.resolve_right hps
      rw [findColor_paintAll_of_not_mem hp.2 hon hb fun q hq heq => hps ⟨q, hq, heq⟩,
        findColor_vgDrawPixel hp.1 hon hb, if_pos hhead, hcolor.1 hhead]

theorem paintAll_outside (hp : ∀ p ∈ pixels, scr.OnScreen p.1.1 p.1.2) (hb : 0 < scr.bytesPerPixel.toNat) {a : UInt32}
    (ha : scr.size ≤ a.toNat) : paintAll scr mem pixels a = mem a := by
  induction pixels generalizing mem with
  | nil => rfl
  | cons p ps ih =>
    rw [List.forall_mem_cons] at hp
    have hle := pixelOffset_add_le hp.1 hb
    have hfit : scr.size < 2 ^ 32 := scr.fits
    exact (ih hp.2).trans (memcpy_outside (by omega) (Or.inr (by omega)))

end PaintAll

def paint (scr : Screen) (color : UInt32) (mem : Mem) (pixels : List (UInt16 × UInt16)) : Mem :=
  pixels.foldl (fun mem p => vgDrawPixel scr mem p.1 p.2 color) mem

theorem paint_eq_paintAll (scr : Screen) (color : UInt32) (mem : Mem) (pixels : List (UInt16 × UInt16)) :
    paint scr color mem pixels = paintAll scr mem (pixels.map fun p => (p, color)) := by
  rw [paintAll, List.foldl_map, paint]

theorem paint_congr {mem mem' : Mem} {a : UInt32} (h : mem a = mem' a) (scr : Screen) (color : UInt32)
    (pixels : List (UInt16 × UInt16)) : paint scr color mem pixels a = paint scr color mem' pixels a := by
  induction pixels generalizing mem mem' with
  | nil => exact h
  | cons p ps ih => exact ih (memcpy_congr h _ _ _)

/-- Painting writes to the bytes of the pixels only. -/
theorem paint_of_not_pixelByte {scr : Screen} {pixels : List (UInt16 × UInt16)} {a : UInt32}
    (h : ∀ px ∈ pixels, ¬ IsPixelByte scr px a) (color : UInt32) (mem : Mem) :
    paint scr color mem pixels a = mem a := by
  induction pixels generalizing mem with
  | nil => rfl
  | cons px pxs ih =>
    rw [List.forall_mem_cons] at h
    have hpixel : vgDrawPixel scr mem px.1 px.2 color a = mem a := if_neg h.1
    exact (ih h.2 _).trans hpixel

/-- The pixels of a rectangle, in the order `vg_draw_rectangle` paints them. -/
def rectanglePixels (x y width height : UInt16) : List (UInt16 × UInt16) :=
  (List.range height.toNat).flatMap fun offset =>
    (List.range width.toNat).map fun offsetX => (x + UInt16.ofNat offsetX, y + UInt16.ofNat offset)

theorem vgDrawRectangle_mem (scr : Screen) (mem : Mem) (x y width height : UInt16) (color : UInt32) :
    (vgDrawRectangle scr mem x y width height color).2 =
      paint scr color mem (rectanglePixels x y width height) := by
  simp only [vgDrawRectangle, vgDrawHline, paint, rectanglePixels, List.foldl_flatMap, List.foldl_map]

theorem findColor_paint {scr : Screen} {mem : Mem} {color : UInt32} {pixels : List (UInt16 × UInt16)} {x y : UInt16}
    (hp : ∀ p ∈ pixels, scr.OnScreen p.1 p.2) (h : scr.OnScreen x y) (hb : 0 < scr.bytesPerPixel.toNat) :
    findColor scr (paint scr color mem pixels) x y =
      if (x, y) ∈ pixels then UInt32.ofNat (color.toNat % 256 ^ scr.bytesPerPixel.toNat)
      else findColor scr mem x y := by
  have hp' : ∀ q ∈ pixels.map fun p => (p, color), scr.OnScreen q.1.1 q.1.2 := List.forall_mem_map.2 hp
  rw [paint_eq_paintAll]
  split
  · next hin =>
    refine findColor_paintAll_of_mem hp' h hb ⟨_, List.mem_map_of_mem hin, rfl⟩ ?_
    exact List.forall_mem_map.2 fun _ _ _ => rfl
  · next hout =>
    refine findColor_paintAll_of_not_mem hp' h hb (List.forall_mem_map.2 fun q hq heq => hout ?_)
    exact heq ▸ hq

/-! ### The pixels of a rectangle -/

theorem mem_rectanglePixels {x y width height i j : UInt16} (hx : x.toNat + width.toNat ≤ 2 ^ 16)
    (hy : y.toNat + height.toNat ≤ 2 ^ 16) :
    (i, j) ∈ rectanglePixels x y width height ↔
      (x.toNat ≤ i.toNat ∧ i.toNat < x.toNat + width.toNat) ∧
        y.toNat ≤ j.toNat ∧ j.toNat < y.toNat + height.toNat := by
  have hi := i.toNat_lt
  have hj := j.toNat_lt
  simp only [rectanglePixels, List.mem_flatMap, List.mem_map, List.mem_range, Prod.mk.injEq]
  constructor
  · rintro ⟨b, hb, a, ha, rfl, rfl⟩
    simp only [UInt16.toNat_add, UInt16.toNat_ofNat']
    omega
  · rintro ⟨⟨h1, h2⟩, h3, h4⟩
    refine ⟨j.toNat - y.toNat, by omega, i.toNat - x.toNat, by omega, ?_, ?_⟩
    · apply UInt16.toNat_inj.1
      simp only [UInt16.toNat_add, UInt16.toNat_ofNat']
      omega
    · apply UInt16.toNat_inj.1
      simp only [UInt16.toNat_add, UInt16.toNat_ofNat']
      omega

end LabChase
