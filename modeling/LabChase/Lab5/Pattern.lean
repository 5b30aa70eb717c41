import LabChase.Lab5.Colors
import LabChase.Lab5.Drawing

/-!
# The pattern of `video_test_pattern` (`lab5.c`)

The loops draw `no_rectangles` times `no_rectangles` rectangles of the same size.  A pixel lies in the rectangle that
its coordinates, divided by the sides, number, and in no other, so the rectangles tile a corner of the screen and leave
stripes that are narrower than `no_rectangles` (`pattern_tiles`).
-/

namespace LabChase.Lab5

open FlatMemory

/-- The drawing loops of `video_test_pattern`, after `new_vg_init`; the coordinates are truncated to `uint16_t` when
they are passed on. -/
def videoTestPattern (scr : Screen) (m : MaskSizes) (mode : UInt16) (noRectangles : UInt8) (first : UInt32)
    (step : UInt8) (mem : Mem) : Mem :=
  let rectangleWidth := scr.hRes / noRectangles.toUInt32
  let rectangleHeight := scr.vRes / noRectangles.toUInt32
  (List.range noRectangles.toNat).foldl
    (fun mem row =>
      (List.range noRectangles.toNat).foldl
        (fun mem col =>
          vgDrawRectangle scr mem (UInt32.ofNat col * rectangleWidth).toUInt16
            (UInt32.ofNat row * rectangleHeight).toUInt16 rectangleWidth.toUInt16 rectangleHeight.toUInt16
            (getColor scr.bytesPerPixel m first step noRectangles (UInt32.ofNat row) (UInt32.ofNat col)
              (mode == 0x105)))
        mem)
    mem

/-- The sides of the rectangles. -/
def tileWidth (scr : Screen) (noRectangles : UInt8) : Nat := scr.hRes.toNat / noRectangles.toNat

def tileHeight (scr : Screen) (noRectangles : UInt8) : Nat := scr.vRes.toNat / noRectangles.toNat

/-- The pixels that the rectangles cover. -/
def Tiled (scr : Screen) (noRectangles : UInt8) (x y : UInt16) : Prop :=
  x.toNat < noRectangles.toNat * tileWidth scr noRectangles ∧
    y.toNat < noRectangles.toNat * tileHeight scr noRectangles

/-- The colour of the rectangle that a pixel lies in. -/
def tileColor (scr : Screen) (m : MaskSizes) (noRectangles : UInt8) (first : UInt32) (step : UInt8) (x y : UInt16) :
    UInt32 :=
  getColor scr.bytesPerPixel m first step noRectangles (UInt32.ofNat (y.toNat / tileHeight scr noRectangles))
    (UInt32.ofNat (x.toNat / tileWidth scr noRectangles)) false

/-- What the loops do to the framebuffer. -/
structure Tiles (scr : Screen) (m : MaskSizes) (noRectangles : UInt8) (first : UInt32) (step : UInt8) (mem mem' : Mem) :
    Prop where
  tiled : ∀ x y, Tiled scr noRectangles x y → findColor scr mem' x y =
    UInt32.ofNat ((tileColor scr m noRectangles first step x y).toNat % 256 ^ scr.bytesPerPixel.toNat)
  kept : ∀ x y, scr.OnScreen x y → ¬ Tiled scr noRectangles x y → findColor scr mem' x y = findColor scr mem x y
  behind : ∀ a : UInt32, scr.size ≤ a.toNat → mem' a = mem a
  rightStripe : scr.hRes.toNat - noRectangles.toNat * tileWidth scr noRectangles < noRectangles.toNat
  bottomStripe : scr.vRes.toNat - noRectangles.toNat * tileHeight scr noRectangles < noRectangles.toNat

/-! ### Rectangles of the pattern -/

/-- A coordinate lies in the interval that it numbers, and in no other. -/
private theorem tile_iff {z k side : Nat} : k * side ≤ z ∧ z < k * side + side ↔ 0 < side ∧ z / side = k := by
  constructor
  · rintro ⟨h1, h2⟩
    have hpos : 0 < side := by omega
    refine ⟨hpos, ?_⟩
    rw [Nat.div_eq_iff hpos]
    omega
  · rintro ⟨hpos, hdiv⟩
    rw [Nat.div_eq_iff hpos] at hdiv
    omega

private theorem tile_le {n k res : Nat} (hk : k < n) : k * (res / n) + res / n ≤ res := by
  calc k * (res / n) + res / n = (k + 1) * (res / n) := (Nat.succ_mul _ _).symm
    _ ≤ n * (res / n) := Nat.mul_le_mul_right _ hk
    _ ≤ res := Nat.mul_div_le res n

private theorem stripe_lt {n : Nat} (hn : 0 < n) (res : Nat) : res - n * (res / n) < n := by
  have h := Nat.mod_lt res hn
  have hsplit := Nat.mod_add_div res n
  omega

/-- A coordinate of a rectangle is not truncated. -/
private theorem toNat_corner {n : UInt8} {res : UInt32} {k : Nat} (hres : res.toNat < 2 ^ 16) (hk : k < n.toNat) :
    (UInt32.ofNat k * (res / n.toUInt32)).toUInt16.toNat = k * (res.toNat / n.toNat) := by
  have hle : k * (res.toNat / n.toNat) + res.toNat / n.toNat ≤ res.toNat := tile_le hk
  have hlt := n.toNat_lt
  have hsmall : k < 2 ^ 32 := by omega
  generalize hside : res.toNat / n.toNat = side at hle ⊢
  rw [UInt32.toNat_toUInt16, UInt32.toNat_mul, UInt32.toNat_ofNat', UInt32.toNat_div, UInt8.toNat_toUInt32, hside,
    Nat.mod_eq_of_lt hsmall]
  generalize k * side = z at hle ⊢
  omega

private theorem toNat_side {n : UInt8} {res : UInt32} (hres : res.toNat < 2 ^ 16) :
    (res / n.toUInt32).toUInt16.toNat = res.toNat / n.toNat := by
  have hle : res.toNat / n.toNat ≤ res.toNat := Nat.div_le_self _ _
  rw [UInt32.toNat_toUInt16, UInt32.toNat_div, UInt8.toNat_toUInt32]
  exact Nat.mod_eq_of_lt (by omega)

/-- The pixels of the rectangle in a row and a column. -/
def tilePixels (scr : Screen) (noRectangles : UInt8) (row col : Nat) : List (UInt16 × UInt16) :=
  rectanglePixels (UInt32.ofNat col * (scr.hRes / noRectangles.toUInt32)).toUInt16
    (UInt32.ofNat row * (scr.vRes / noRectangles.toUInt32)).toUInt16 (scr.hRes / noRectangles.toUInt32).toUInt16
    (scr.vRes / noRectangles.toUInt32).toUInt16

/-- The pixels that the loops draw, each with its colour. -/
def patternPixels (scr : Screen) (noRectangles : UInt8) (color : Nat → Nat → UInt32) :
    List ((UInt16 × UInt16) × UInt32) :=
  (List.range noRectangles.toNat).flatMap fun row => (List.range noRectangles.toNat).flatMap fun col =>
    (tilePixels scr noRectangles row col).map fun p => (p, color row col)

section Tile

variable {scr : Screen} {noRectangles : UInt8} {row col : Nat}

private theorem mem_tilePixels (hrow : row < noRectangles.toNat) (hcol : col < noRectangles.toNat) {x y : UInt16} :
    (x, y) ∈ tilePixels scr noRectangles row col ↔
      (0 < tileWidth scr noRectangles ∧ x.toNat / tileWidth scr noRectangles = col) ∧
        0 < tileHeight scr noRectangles ∧ y.toNat / tileHeight scr noRectangles = row := by
  have hh := scr.hRes_lt
  have hv := scr.vRes_lt
  have hx : col * (scr.hRes.toNat / noRectangles.toNat) + scr.hRes.toNat / noRectangles.toNat ≤ _ := tile_le hcol
  have hy : row * (scr.vRes.toNat / noRectangles.toNat) + scr.vRes.toNat / noRectangles.toNat ≤ _ := tile_le hrow
  rw [tilePixels, mem_rectanglePixels, toNat_corner hh hcol, toNat_corner hv hrow, toNat_side hh, toNat_side hv,
    tile_iff, tile_iff, tileWidth, tileHeight]
  · rw [toNat_corner hh hcol, toNat_side hh]
    omega
  · rw [toNat_corner hv hrow, toNat_side hv]
    omega

private theorem tiled_of_mem_tilePixels (hrow : row < noRectangles.toNat) (hcol : col < noRectangles.toNat)
    {x y : UInt16} (h : (x, y) ∈ tilePixels scr noRectangles row col) : Tiled scr noRectangles x y := by
  obtain ⟨⟨hw, rfl⟩, hh, rfl⟩ := (mem_tilePixels hrow hcol).1 h
  exact ⟨(Nat.div_lt_iff_lt_mul hw).1 hcol, (Nat.div_lt_iff_lt_mul hh).1 hrow⟩

theorem Tiled.onScreen {x y : UInt16} (h : Tiled scr noRectangles x y) : scr.OnScreen x y :=
  ⟨Nat.lt_of_lt_of_le h.1 (Nat.mul_div_le _ _), Nat.lt_of_lt_of_le h.2 (Nat.mul_div_le _ _)⟩

private theorem mem_patternPixels {color : Nat → Nat → UInt32} {p : (UInt16 × UInt16) × UInt32} :
    p ∈ patternPixels scr noRectangles color ↔
      ∃ row < noRectangles.toNat, ∃ col < noRectangles.toNat,
        p.1 ∈ tilePixels scr noRectangles row col ∧ color row col = p.2 := by
  obtain ⟨q, c⟩ := p
  simp only [patternPixels, List.mem_flatMap, List.mem_range, List.mem_map, Prod.mk.injEq, existsAndEq, true_and]

private theorem videoTestPattern_eq (scr : Screen) (m : MaskSizes) {mode : UInt16} (hmode : mode ≠ 0x105)
    (noRectangles : UInt8) (first : UInt32) (step : UInt8) (mem : Mem) :
    videoTestPattern scr m mode noRectangles first step mem =
      paintAll scr mem (patternPixels scr noRectangles fun row col =>
        getColor scr.bytesPerPixel m first step noRectangles (UInt32.ofNat row) (UInt32.ofNat col) false) := by
  have hh := scr.hRes_lt
  have hrectangle : ∀ (mem : Mem) (row : Nat), ∀ col ∈ List.range noRectangles.toNat, ∀ color,
      vgDrawRectangle scr mem (UInt32.ofNat col * (scr.hRes / noRectangles.toUInt32)).toUInt16
        (UInt32.ofNat row * (scr.vRes / noRectangles.toUInt32)).toUInt16 (scr.hRes / noRectangles.toUInt32).toUInt16
        (scr.vRes / noRectangles.toUInt32).toUInt16 color =
      paintAll scr mem ((tilePixels scr noRectangles row col).map fun p => (p, color)) := by
    intro mem row col hcol color
    have hcol' := List.mem_range.1 hcol
    have hx : col * (scr.hRes.toNat / noRectangles.toNat) + scr.hRes.toNat / noRectangles.toNat ≤ _ := tile_le hcol'
    rw [tilePixels, ← paint_eq_paintAll]
    apply vgDrawRectangle_eq_paint
    rw [toNat_corner hh hcol', toNat_side hh]
    omega
  have hpacked : (mode == 0x105) = false := beq_false_of_ne hmode
  rw [videoTestPattern, paintAll, patternPixels, List.foldl_flatMap, hpacked]
  refine List.foldl_ext _ _ _ fun mem row _ => ?_
  rw [List.foldl_flatMap]
  exact List.foldl_ext _ _ _ fun mem col hcol => hrectangle mem row col hcol _

end Tile

theorem pattern_tiles {scr : Screen} (hb : 2 ≤ scr.bytesPerPixel ∧ scr.bytesPerPixel ≤ 4) (m : MaskSizes)
    {mode : UInt16} (hmode : mode ≠ 0x105) {noRectangles : UInt8} (hn : 1 ≤ noRectangles) (first : UInt32)
    (step : UInt8) (mem : Mem) :
    Tiles scr m noRectangles first step mem (videoTestPattern scr m mode noRectangles first step mem) := by
  have hpos : 0 < scr.bytesPerPixel.toNat := Nat.lt_of_lt_of_le (by decide) (UInt32.le_iff_toNat_le.1 hb.1)
  have hnpos : 0 < noRectangles.toNat := UInt8.le_iff_toNat_le.1 hn
  rw [videoTestPattern_eq scr m hmode]
  have hon : ∀ p ∈ patternPixels scr noRectangles fun row col =>
      getColor scr.bytesPerPixel m first step noRectangles (UInt32.ofNat row) (UInt32.ofNat col) false,
      scr.OnScreen p.1.1 p.1.2 := by
    intro p hp
    obtain ⟨row, hrow, col, hcol, hmem, -⟩ := mem_patternPixels.1 hp
    exact (tiled_of_mem_tilePixels hrow hcol hmem).onScreen
  constructor
  · intro x y h
    have hw : 0 < tileWidth scr noRectangles := Nat.pos_of_mul_pos_left (Nat.lt_of_le_of_lt (Nat.zero_le _) h.1)
    have hh : 0 < tileHeight scr noRectangles := Nat.pos_of_mul_pos_left (Nat.lt_of_le_of_lt (Nat.zero_le _) h.2)
    have hrow := (Nat.div_lt_iff_lt_mul hh).2 h.2
    have hcol := (Nat.div_lt_iff_lt_mul hw).2 h.1
    apply findColor_paintAll_of_mem hon h.onScreen hpos
    · refine ⟨((x, y), _), mem_patternPixels.2 ⟨_, hrow, _, hcol, ?_, rfl⟩, rfl⟩
      exact (mem_tilePixels hrow hcol).2 ⟨⟨hw, rfl⟩, hh, rfl⟩
    · rintro ⟨_, c⟩ hp rfl
      obtain ⟨row, hrow', col, hcol', hmem, rfl⟩ := mem_patternPixels.1 hp
      obtain ⟨⟨-, rfl⟩, -, rfl⟩ := (mem_tilePixels hrow' hcol').1 hmem
      rfl
  · intro x y hxy hnot
    apply findColor_paintAll_of_not_mem hon hxy hpos
    rintro ⟨_, c⟩ hp rfl
    obtain ⟨row, hrow, col, hcol, hmem, -⟩ := mem_patternPixels.1 hp
    exact hnot (tiled_of_mem_tilePixels hrow hcol hmem)
  · exact fun a ha => paintAll_outside hon hpos ha
  · exact stripe_lt hnpos _
  · exact stripe_lt hnpos _

/-- Three rectangles a side on eight pixels by four: stripes of two pixels and of one. -/
theorem pattern_tiles_small :
    Tiles smallScreen masks565 3 0xF800 9 (fun _ => 0)
      (videoTestPattern smallScreen masks565 0x111 3 0xF800 9 fun _ => 0) :=
  pattern_tiles (by decide) _ (by decide) (by decide) _ _ _

end LabChase.Lab5
