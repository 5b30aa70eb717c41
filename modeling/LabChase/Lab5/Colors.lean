import LabChase.Lab5.VideoInit
import LabChase.Library.BitFields

/-!
# The colours of the pattern (`lab5.c`)

`get_color_components` cuts the red, green and blue fields out of a colour with two shifts each, and `get_color` packs
the fields of another colour.  For all mask sizes from 1 to 8 the fields that come out are those of the documentation
(`getColor_components`).  In indexed mode the modulus is `1 << BitsPerPixel` with the bytes of a pixel divided by 8 for
`BitsPerPixel`, which is zero, so the colour is always zero (`getColor_indexed_iff`).
-/

namespace LabChase.Lab5

open BitFields

/-- `struct RGB_decomposition`. -/
structure RGBDecomposition where
  R : UInt8
  G : UInt8
  B : UInt8
  deriving DecidableEq, Repr

/-- `get_color_components`: the first shift drops the bits above a component, the second those below. -/
def getColorComponents (m : MaskSizes) (color : UInt32) : RGBDecomposition :=
  let redSize := m.red.toUInt32
  let greenSize := m.green.toUInt32
  let blueSize := m.blue.toUInt32
  let total := (m.blue + m.green + m.red).toUInt32
  { R := (color <<< (32 - total) >>> (32 - total + blueSize + greenSize)).toUInt8
    G := (color <<< (32 - total + redSize) >>> (32 - total + redSize + blueSize)).toUInt8
    B := (color <<< (32 - total + redSize + greenSize) >>> (32 - total + redSize + greenSize)).toUInt8 }

/-- `get_color`, for a mode with these bytes to a pixel and these mask sizes. -/
def getColor (bytesPerPixel : UInt32) (m : MaskSizes) (first : UInt32) (step noRectangles : UInt8) (row col : UInt32)
    (isPacked : Bool) : UInt32 :=
  let bitsPerPixel := getBitsPerPixel bytesPerPixel
  if isPacked then (first + (row * noRectangles.toUInt32 + col) * step.toUInt32) % (1 <<< bitsPerPixel)
  else
    let decomposition := getColorComponents m first
    let R := ((decomposition.R.toUInt32 + col * step.toUInt32) % (1 <<< m.red.toUInt32)).toUInt8
    let G := ((decomposition.G.toUInt32 + row * step.toUInt32) % (1 <<< m.green.toUInt32)).toUInt8
    let B := ((decomposition.B.toUInt32 + (col + row) * step.toUInt32) % (1 <<< m.blue.toUInt32)).toUInt8
    R.toUInt32 <<< (m.blue.toUInt32 + m.green.toUInt32) ||| G.toUInt32 <<< m.blue.toUInt32 ||| B.toUInt32

/-- The masks of a direct-colour mode. -/
structure MaskSizes.Direct (m : MaskSizes) : Prop where
  red : 1 ≤ m.red.toNat ∧ m.red.toNat ≤ 8
  green : 1 ≤ m.green.toNat ∧ m.green.toNat ≤ 8
  blue : 1 ≤ m.blue.toNat ∧ m.blue.toNat ≤ 8

/-- The number of bits of a colour. -/
def MaskSizes.total (m : MaskSizes) : Nat := m.red.toNat + m.green.toNat + m.blue.toNat

/-! ### Words -/

private theorem toNat_cut {color k l : UInt32} {lo len : Nat} (h : lo + len ≤ 32) (hpos : 0 < lo + len)
    (hlen : 1 ≤ len ∧ len ≤ 8) (hk : k.toNat = 32 - (lo + len)) (hl : l.toNat = 32 - (lo + len) + lo) :
    (color <<< k >>> l).toUInt8.toNat = field lo len color.toNat := by
  have hfield := field_lt lo len color.toNat
  have hbyte : 2 ^ len ≤ 2 ^ 8 := Nat.pow_le_pow_right (by decide) hlen.2
  have hk32 : k.toNat % 32 = 32 - (lo + len) := by omega
  have hl32 : l.toNat % 32 = 32 - (lo + len) + lo := by omega
  rw [UInt32.toNat_toUInt8, UInt32.toNat_shiftRight, UInt32.toNat_shiftLeft, hk32, hl32, shiftRight_shiftLeft h]
  exact Nat.mod_eq_of_lt (by omega)

/-- The components of a colour are its fields, from the top down to bit 0. -/
private theorem getColorComponents_toNat {m : MaskSizes} (hm : m.Direct) (color : UInt32) :
    (getColorComponents m color).R.toNat = field (m.blue.toNat + m.green.toNat) m.red.toNat color.toNat ∧
      (getColorComponents m color).G.toNat = field m.blue.toNat m.green.toNat color.toNat ∧
        (getColorComponents m color).B.toNat = field 0 m.blue.toNat color.toNat := by
  obtain ⟨hr, hg, hb⟩ := hm
  refine ⟨toNat_cut (by omega) (by omega) hr ?_ ?_, toNat_cut (by omega) (by omega) hg ?_ ?_,
    toNat_cut (by omega) (by omega) hb ?_ ?_⟩
  all_goals
    simp only [UInt32.toNat_add, UInt32.toNat_sub, UInt8.toNat_toUInt32, UInt8.toNat_add, UInt32.reduceToNat]
    omega

/-- The component that `get_color` computes from a component of `first`; that the product wraps does not matter. -/
private theorem toNat_component {size : UInt8} (hsize : 1 ≤ size.toNat ∧ size.toNat ≤ 8) (c step : UInt8) {k : UInt32}
    {n : Nat} (hk : k.toNat = n % 2 ^ 32) :
    ((c.toUInt32 + k * step.toUInt32) % (1 <<< size.toUInt32)).toUInt8.toNat =
      (c.toNat + n * step.toNat) % 2 ^ size.toNat := by
  have hpow : 2 ^ size.toNat ≤ 2 ^ 8 := Nat.pow_le_pow_right (by decide) hsize.2
  have hpos : 0 < 2 ^ size.toNat := by positivity
  have hmask : ((1 : UInt32) <<< size.toUInt32).toNat = 2 ^ size.toNat := by
    have h32 : size.toNat % 32 = size.toNat := by omega
    rw [UInt32.toNat_shiftLeft, UInt8.toNat_toUInt32, h32, Nat.shiftLeft_eq]
    simp only [UInt32.reduceToNat, Nat.one_mul]
    exact Nat.mod_eq_of_lt (by omega)
  have hdvd : 2 ^ size.toNat ∣ 2 ^ 32 := Nat.pow_dvd_pow 2 (by omega)
  have hsum : (c.toUInt32 + k * step.toUInt32).toNat % 2 ^ size.toNat =
      (c.toNat + n * step.toNat) % 2 ^ size.toNat := by
    rw [UInt32.toNat_add, UInt32.toNat_mul, UInt8.toNat_toUInt32, UInt8.toNat_toUInt32, hk, Nat.mod_mul_mod,
      Nat.add_mod_mod, Nat.mod_mod_of_dvd _ hdvd]
  rw [UInt32.toNat_toUInt8, UInt32.toNat_mod, hmask, hsum]
  exact Nat.mod_eq_of_lt (Nat.lt_of_lt_of_le (Nat.mod_lt _ hpos) hpow)

/-- The three components in one word are packed; nothing is shifted out of it. -/
private theorem toNat_packed {m : MaskSizes} (hm : m.Direct) {R G B : UInt8} :
    (R.toUInt32 <<< (m.blue.toUInt32 + m.green.toUInt32) ||| G.toUInt32 <<< m.blue.toUInt32 ||| B.toUInt32).toNat =
      pack m.blue.toNat (pack m.green.toNat R.toNat G.toNat) B.toNat := by
  have hg := hm.green
  have hb := hm.blue
  have hshift : ∀ {c : UInt8} {k : UInt32}, k.toNat ≤ 16 → (c.toUInt32 <<< k).toNat = c.toNat <<< k.toNat := by
    intro c k hk
    have hle : 2 ^ k.toNat ≤ 2 ^ 16 := Nat.pow_le_pow_right (by decide) hk
    have hlt : c.toNat * 2 ^ k.toNat < 2 ^ 8 * 2 ^ 16 := Nat.mul_lt_mul_of_lt_of_le c.toNat_lt hle (by positivity)
    rw [UInt32.toNat_shiftLeft, UInt8.toNat_toUInt32, Nat.mod_eq_of_lt (show k.toNat < 32 by omega),
      Nat.shiftLeft_eq, Nat.mod_eq_of_lt (by omega)]
  have hsum : (m.blue.toUInt32 + m.green.toUInt32).toNat = m.blue.toNat + m.green.toNat := by
    rw [UInt32.toNat_add, UInt8.toNat_toUInt32, UInt8.toNat_toUInt32]
    omega
  rw [pack_pack, UInt32.toNat_or, UInt32.toNat_or, hshift (by omega), hshift (by rw [UInt8.toNat_toUInt32]; omega),
    hsum, UInt8.toNat_toUInt32, UInt8.toNat_toUInt32]

/-! ### Direct colour -/

/-- The components that the documentation gives to the rectangle in a row and a column of the pattern. -/
structure Documented (m : MaskSizes) (first : UInt32) (step : UInt8) (row col : UInt32) (d : RGBDecomposition) :
    Prop where
  red : d.R.toNat = (field (m.blue.toNat + m.green.toNat) m.red.toNat first.toNat + col.toNat * step.toNat) %
    2 ^ m.red.toNat
  green : d.G.toNat = (field m.blue.toNat m.green.toNat first.toNat + row.toNat * step.toNat) % 2 ^ m.green.toNat
  blue : d.B.toNat = (field 0 m.blue.toNat first.toNat + (col.toNat + row.toNat) * step.toNat) % 2 ^ m.blue.toNat

theorem getColor_components {m : MaskSizes} (hm : m.Direct) (bytesPerPixel first : UInt32) (step noRectangles : UInt8)
    (row col : UInt32) :
    let color := getColor bytesPerPixel m first step noRectangles row col false
    Documented m first step row col (getColorComponents m color) ∧ color.toNat < 2 ^ m.total := by
  intro color
  obtain ⟨hR, hG, hB⟩ := getColorComponents_toNat hm first
  have hred := toNat_component hm.red (getColorComponents m first).R step (Nat.mod_eq_of_lt col.toNat_lt).symm
  have hgreen := toNat_component hm.green (getColorComponents m first).G step (Nat.mod_eq_of_lt row.toNat_lt).symm
  have hblue := toNat_component hm.blue (getColorComponents m first).B step (UInt32.toNat_add col row)
  have hcolor : color.toNat = _ := toNat_packed hm
  rw [hred, hgreen, hblue, hR, hG, hB] at hcolor
  -- each component is below the power of two of its size, so the packed fields do not overlap
  have hlt : ∀ n k : Nat, n % 2 ^ k < 2 ^ k := fun n k => Nat.mod_lt _ (by positivity)
  obtain ⟨hR', hG', hB'⟩ := getColorComponents_toNat hm color
  refine ⟨⟨?_, ?_, ?_⟩, ?_⟩
  · rw [hR', hcolor, field_pack_high (hlt _ _), field_pack_next (hlt _ _), field_of_lt (hlt _ _)]
  · rw [hG', hcolor, field_pack_next (hlt _ _), field_pack_low (hlt _ _) (by omega), field_of_lt (hlt _ _)]
  · rw [hB', hcolor, field_pack_low (hlt _ _) (by omega), field_of_lt (hlt _ _)]
  · rw [hcolor]
    have htotal : m.total = m.blue.toNat + (m.green.toNat + m.red.toNat) := by
      unfold MaskSizes.total
      omega
    rw [htotal]
    exact pack_lt (hlt _ _) (pack_lt (hlt _ _) (hlt _ _))

/-- Five bits of red, six of green and five of blue. -/
def masks565 : MaskSizes := ⟨5, 6, 5⟩

theorem getColor_components_565 :
    let color := getColor 2 masks565 0xFFFF8410 9 4 2 3 false
    Documented masks565 0xFFFF8410 9 2 3 (getColorComponents masks565 color) ∧ color.toNat < 2 ^ masks565.total :=
  getColor_components ⟨by decide, by decide, by decide⟩ _ _ _ _ _ _

/-! ### Indexed colour -/

/-- The index that the documentation gives to the rectangle in a row and a column of the pattern. -/
def documentedIndex (first : UInt32) (step noRectangles : UInt8) (row col : UInt32) : Nat :=
  (first.toNat + (row.toNat * noRectangles.toNat + col.toNat) * step.toNat) % 2 ^ 8

/-- One byte to a pixel is `1 / 8 = 0` bits, and the modulus `1 << 0`. -/
private theorem getColor_indexed (m : MaskSizes) (first : UInt32) (step noRectangles : UInt8) (row col : UInt32) :
    getColor 1 m first step noRectangles row col true = 0 := by
  have hbits : getBitsPerPixel 1 = 0 := by decide
  apply UInt32.toNat_inj.1
  simp only [getColor, hbits, ↓reduceIte, UInt32.toNat_mod]
  exact Nat.mod_one _

theorem getColor_indexed_iff (m : MaskSizes) (first : UInt32) (step noRectangles : UInt8) (row col : UInt32) :
    (getColor 1 m first step noRectangles row col true).toNat = documentedIndex first step noRectangles row col ↔
      2 ^ 8 ∣ first.toNat + (row.toNat * noRectangles.toNat + col.toNat) * step.toNat := by
  rw [getColor_indexed, documentedIndex, Nat.dvd_iff_mod_eq_zero]
  exact eq_comm

theorem getColor_indexed_wrong :
    (getColor 1 ⟨0, 0, 0⟩ 63 1 4 0 0 true).toNat ≠ documentedIndex 63 1 4 0 0 := by decide

end LabChase.Lab5
