import LabChase.Proj.VideoGr

/-!
# Mapping the framebuffer (`video_gr.c`, `main.c`)

`new_vg_init` maps `vram_size` bytes, and four bulk operations run over the mapping from its first byte: the clear and
the night fill at the start of a game, the save on a pause and the restore on a resume.  The size and the lengths are
computed by different expressions.  Night fill, save and restore are exactly one framebuffer long; the clear is longer
by seven eighths of a byte per pixel (`clear_bytes`), and the mapping is shorter than the framebuffer unless the depth
is a multiple of eight (`size_le_vramSize_iff`).
-/

namespace LabChase

/-- The fields of `vbe_mode_info_t` that `new_vg_init` reads. -/
structure VbeModeInfo where
  physBasePtr : UInt32
  xResolution : UInt16
  yResolution : UInt16
  bitsPerPixel : UInt8
  redMaskSize : UInt8
  greenMaskSize : UInt8
  blueMaskSize : UInt8

/-- No product overflows in `new_vg_init` or in the lengths computed from its results. -/
structure VbeModeInfo.NoOverflow (info : VbeModeInfo) : Prop where
  vram : info.bitsPerPixel.toNat * info.xResolution.toNat * info.yResolution.toNat < 2 ^ 31
  bulk : info.xResolution.toNat * info.yResolution.toNat * ((info.bitsPerPixel.toNat + 7) / 8 * 8 + 7) < 2 ^ 32

/-- What `new_vg_init` leaves behind: the statics and the range that was mapped. -/
structure Mapping where
  screen : Screen
  vramBase : UInt32
  vramSize : UInt32
  redMaskSize : UInt8
  greenMaskSize : UInt8
  blueMaskSize : UInt8

/-- `new_vg_init`, up to the call of `set_mode`; the `int` product of `vram_size` does not overflow. -/
def newVgInit (info : VbeModeInfo) (h : info.NoOverflow) : Mapping where
  vramBase := info.physBasePtr
  vramSize := UInt32.ofNat (info.bitsPerPixel.toNat * info.xResolution.toNat * info.yResolution.toNat / 8)
  screen :=
    { hRes := info.xResolution.toUInt32
      vRes := info.yResolution.toUInt32
      bytesPerPixel := (info.bitsPerPixel.toUInt32 + 7) / 8
      hRes_lt := info.xResolution.toNat_lt
      vRes_lt := info.yResolution.toNat_lt
      fits := by
        have hbits := info.bitsPerPixel.toNat_lt
        have hle : (info.bitsPerPixel.toNat + 7) / 8 ≤ (info.bitsPerPixel.toNat + 7) / 8 * 8 + 7 := by omega
        have hmul := Nat.mul_le_mul_left (info.xResolution.toNat * info.yResolution.toNat) hle
        have hbulk := h.bulk
        simp only [UInt16.toNat_toUInt32, UInt32.toNat_div, UInt32.toNat_add, UInt8.toNat_toUInt32,
          UInt32.reduceToNat]
        rw [Nat.mod_eq_of_lt (by omega)]
        omega }
  redMaskSize := info.redMaskSize
  greenMaskSize := info.greenMaskSize
  blueMaskSize := info.blueMaskSize

def getBitsPerPixel (scr : Screen) : UInt32 := scr.bytesPerPixel * 8

/-- The length of the clear, `get_h_res() * get_v_res() * (get_bits_per_pixel() + 7) / 8`. -/
def clearBytes (scr : Screen) : UInt32 := scr.hRes * scr.vRes * (getBitsPerPixel scr + 7) / 8

/-- The length of the night fill, `h_res * v_res * bytes_per_pixel`. -/
def nightFillBytes (scr : Screen) : UInt32 := scr.hRes * scr.vRes * scr.bytesPerPixel

/-- The length of the save and of the restore, `get_h_res() * get_v_res() * get_bits_per_pixel() / 8`. -/
def saveBytes (scr : Screen) : UInt32 := scr.hRes * scr.vRes * getBitsPerPixel scr / 8

inductive BulkOperation where
  | clear | nightFill | save | restore
  deriving DecidableEq, Repr

def BulkOperation.bytes (scr : Screen) : BulkOperation → UInt32
  | .clear => clearBytes scr
  | .nightFill => nightFillBytes scr
  | .save => saveBytes scr
  | .restore => saveBytes scr

def Screen.NoWrap (scr : Screen) : Prop :=
  scr.hRes.toNat * scr.vRes.toNat * (scr.bytesPerPixel.toNat * 8 + 7) < 2 ^ 32

/-- Every pixel of the screen lies in the mapping, and every bulk operation touches the bytes of the framebuffer, no
more and no less, and stays in the mapping. -/
structure Mapping.Sound (m : Mapping) : Prop where
  size_le : m.screen.size ≤ m.vramSize.toNat
  pixel_le : ∀ x y, m.screen.OnScreen x y →
    (pixelOffset m.screen x.toUInt32 y.toUInt32).toNat + m.screen.bytesPerPixel.toNat ≤ m.vramSize.toNat
  bulk_eq : ∀ op : BulkOperation, (op.bytes m.screen).toNat = m.screen.size
  bulk_le : ∀ op : BulkOperation, (op.bytes m.screen).toNat ≤ m.vramSize.toNat

/-! ### The lengths -/

private theorem bitsPerPixel_toNat {scr : Screen} (hpos : 0 < scr.hRes.toNat * scr.vRes.toNat) (h : scr.NoWrap) :
    (getBitsPerPixel scr).toNat = scr.bytesPerPixel.toNat * 8 ∧
      (getBitsPerPixel scr + 7).toNat = scr.bytesPerPixel.toNat * 8 + 7 := by
  have hle := Nat.le_mul_of_pos_left (scr.bytesPerPixel.toNat * 8 + 7) hpos
  unfold Screen.NoWrap at h
  simp only [getBitsPerPixel, UInt32.toNat_add, UInt32.toNat_mul, UInt32.reduceToNat]
  omega

theorem nightFillBytes_toNat (scr : Screen) : (nightFillBytes scr).toNat = scr.size := by
  rw [nightFillBytes, UInt32.toNat_mul, UInt32.toNat_mul, Nat.mod_mul_mod, Nat.mod_eq_of_lt scr.fits]
  rfl

theorem saveBytes_toNat {scr : Screen} (h : scr.NoWrap) : (saveBytes scr).toNat = scr.size := by
  rw [saveBytes, UInt32.toNat_div, UInt32.toNat_mul, UInt32.toNat_mul, Nat.mod_mul_mod, Screen.size]
  simp only [UInt32.reduceToNat]
  rcases Nat.eq_zero_or_pos (scr.hRes.toNat * scr.vRes.toNat) with h0 | hpos
  · simp [h0]
  · have hlt : scr.hRes.toNat * scr.vRes.toNat * (scr.bytesPerPixel.toNat * 8) < 2 ^ 32 := by
      refine lt_of_le_of_lt (Nat.mul_le_mul_left _ ?_) h
      omega
    rw [(bitsPerPixel_toNat hpos h).1, Nat.mod_eq_of_lt hlt, ← Nat.mul_assoc]
    exact Nat.mul_div_cancel _ (by decide)

/-- The clear runs over the framebuffer and seven eighths of a byte more for each pixel. -/
theorem clearBytes_toNat {scr : Screen} (h : scr.NoWrap) :
    (clearBytes scr).toNat = scr.size + 7 * (scr.hRes.toNat * scr.vRes.toNat) / 8 := by
  rw [clearBytes, UInt32.toNat_div, UInt32.toNat_mul, UInt32.toNat_mul, Nat.mod_mul_mod, Screen.size]
  simp only [UInt32.reduceToNat]
  rcases Nat.eq_zero_or_pos (scr.hRes.toNat * scr.vRes.toNat) with h0 | hpos
  · simp [h0]
  · rw [(bitsPerPixel_toNat hpos h).2, Nat.mod_eq_of_lt h]
    have hsplit : scr.hRes.toNat * scr.vRes.toNat * (scr.bytesPerPixel.toNat * 8 + 7) =
        7 * (scr.hRes.toNat * scr.vRes.toNat) + 8 * (scr.hRes.toNat * scr.vRes.toNat * scr.bytesPerPixel.toNat) := by
      ring
    rw [hsplit, Nat.add_mul_div_left _ _ (by decide), Nat.add_comm]

/-! ### The mapping -/

variable {info : VbeModeInfo}

theorem newVgInit_bytesPerPixel (h : info.NoOverflow) :
    (newVgInit info h).screen.bytesPerPixel.toNat = (info.bitsPerPixel.toNat + 7) / 8 := by
  have hbits := info.bitsPerPixel.toNat_lt
  simp only [newVgInit, UInt32.toNat_div, UInt32.toNat_add, UInt8.toNat_toUInt32, UInt32.reduceToNat]
  omega

private theorem newVgInit_size (h : info.NoOverflow) :
    (newVgInit info h).screen.size =
      info.xResolution.toNat * info.yResolution.toNat * ((info.bitsPerPixel.toNat + 7) / 8) := by
  rw [Screen.size, newVgInit_bytesPerPixel]
  rfl

theorem newVgInit_noWrap (h : info.NoOverflow) : (newVgInit info h).screen.NoWrap := by
  rw [Screen.NoWrap, newVgInit_bytesPerPixel]
  exact h.bulk

private theorem newVgInit_vramSize (h : info.NoOverflow) :
    (newVgInit info h).vramSize.toNat =
      info.bitsPerPixel.toNat * (info.xResolution.toNat * info.yResolution.toNat) / 8 := by
  have := h.vram
  simp only [newVgInit, UInt32.toNat_ofNat']
  rw [← Nat.mul_assoc]
  omega

/-- The mapping covers the framebuffer exactly for the depths that are multiples of eight. -/
theorem size_le_vramSize_iff (h : info.NoOverflow) :
    (newVgInit info h).screen.size ≤ (newVgInit info h).vramSize.toNat ↔
      info.xResolution.toNat * info.yResolution.toNat = 0 ∨ 8 ∣ info.bitsPerPixel.toNat := by
  rw [newVgInit_size, newVgInit_vramSize, Nat.le_div_iff_mul_le (by decide), Nat.mul_assoc,
    Nat.mul_comm info.bitsPerPixel.toNat]
  rcases Nat.eq_zero_or_pos (info.xResolution.toNat * info.yResolution.toNat) with h0 | hpos
  · simp [h0]
  · rw [Nat.mul_le_mul_left_iff hpos]
    omega

/-- The initialisation is sound for no screen of two pixels or more: the clear runs past the framebuffer. -/
theorem newVgInit_sound_iff (info : VbeModeInfo) (h : info.NoOverflow) :
    (newVgInit info h).Sound ↔
      info.xResolution.toNat * info.yResolution.toNat = 0 ∨
        (info.xResolution.toNat * info.yResolution.toNat = 1 ∧ 8 ∣ info.bitsPerPixel.toNat) := by
  have hclear := clearBytes_toNat (newVgInit_noWrap h)
  have hpixels : (newVgInit info h).screen.hRes.toNat * (newVgInit info h).screen.vRes.toNat =
      info.xResolution.toNat * info.yResolution.toNat := rfl
  rw [hpixels] at hclear
  constructor
  · intro hs
    have heq := hs.bulk_eq .clear
    have hle := (size_le_vramSize_iff h).1 hs.size_le
    simp only [BulkOperation.bytes] at heq
    omega
  · intro hcond
    have hle : (newVgInit info h).screen.size ≤ (newVgInit info h).vramSize.toNat := by
      rw [size_le_vramSize_iff]
      exact hcond.imp id And.right
    have hbulk : ∀ op : BulkOperation, (op.bytes (newVgInit info h).screen).toNat = (newVgInit info h).screen.size := by
      intro op
      cases op with
      | clear =>
        simp only [BulkOperation.bytes]
        omega
      | nightFill => exact nightFillBytes_toNat _
      | save => exact saveBytes_toNat (newVgInit_noWrap h)
      | restore => exact saveBytes_toNat (newVgInit_noWrap h)
    refine ⟨hle, fun x y hxy => ?_, hbulk, fun op => ?_⟩
    · rcases Nat.eq_zero_or_pos (newVgInit info h).screen.bytesPerPixel.toNat with h0 | hpos
      · simp only [pixelOffset, UInt32.toNat_mul, h0]
        omega
      · exact (pixelOffset_add_le hxy hpos).trans hle
    · rw [hbulk op]
      exact hle

def info115 : VbeModeInfo := ⟨0xE0000000, 800, 600, 24, 8, 8, 8⟩

theorem info115_noOverflow : info115.NoOverflow := ⟨by decide, by decide⟩

def mode115 : Screen := (newVgInit info115 info115_noOverflow).screen

/-- In the mode the program sets the clear runs 420000 bytes past the end of the mapping. -/
theorem clear_past_mapping :
    ¬ (newVgInit info115 info115_noOverflow).Sound ∧
      (clearBytes mode115).toNat =
        (newVgInit info115 info115_noOverflow).vramSize.toNat + 420000 := by
  refine ⟨fun hs => ?_, by decide⟩
  have := hs.bulk_eq .clear
  exact absurd this (by decide)

theorem newVgInit_sound_iff_mode115 :
    (newVgInit info115 info115_noOverflow).Sound ↔ 800 * 600 = 0 ∨ (800 * 600 = 1 ∧ 8 ∣ 24) :=
  newVgInit_sound_iff info115 info115_noOverflow

end LabChase
