import Mathlib.Tactic.Common
import Mathlib.Tactic.Ring

/-!
# The video mode (`video_gr.c`)

`new_vg_init` takes the size of a pixel to be the length of a scan line divided by the horizontal resolution, which at
that point is still the one of the mode before.  So a call is right exactly when the two numbers happen to fit
(`newVgInit_sets_iff`), and as `h_res` is zero when the program starts, the first call divides by it
(`newVgInits_set_iff`).
-/

namespace LabChase.Lab5

/-- `RedMaskSize`, `GreenMaskSize` and `BlueMaskSize`. -/
structure MaskSizes where
  red : UInt8
  green : UInt8
  blue : UInt8
  deriving DecidableEq, Repr

/-- The bytes that a pixel of so many bits takes. -/
def pixelBytes (bitsPerPixel : UInt8) : Nat := (bitsPerPixel.toNat + 7) / 8

/-- What `vbe_get_mode_info` returns for a mode: it has pixels of whole bytes and no padding between its lines.
`new_vg_init` does not read `bitsPerPixel`. -/
structure ModeInfo where
  bytesPerScanLine : UInt16
  xResolution : UInt16
  yResolution : UInt16
  bitsPerPixel : UInt8
  masks : MaskSizes
  physBasePtr : UInt32
  xResolution_pos : 0 < xResolution.toNat
  yResolution_pos : 0 < yResolution.toNat
  bitsPerPixel_mem : 1 ≤ bitsPerPixel.toNat ∧ bitsPerPixel.toNat ≤ 32
  scanLine : bytesPerScanLine.toNat = xResolution.toNat * pixelBytes bitsPerPixel

/-- The range of physical memory that `vm_map_phys` maps. -/
structure VideoMem where
  base : UInt32
  size : UInt32

/-- The static variables of `video_gr.c`; `video_mem` is null before the first call of `new_vg_init`. -/
structure Statics where
  videoMem : Option VideoMem
  hRes : UInt32
  vRes : UInt32
  bytesPerPixel : UInt32
  masks : MaskSizes

/-- The static variables as the program starts. -/
def programStart : Statics := ⟨none, 0, 0, 0, ⟨0, 0, 0⟩⟩

/-- `get_bits_per_pixel`. -/
def getBitsPerPixel (bytesPerPixel : UInt32) : UInt32 := bytesPerPixel / 8

/-- `new_vg_init`, with what `vbe_get_mode_info` returns: `none` is the division by zero.  A mapping that fails ends the
program. -/
def newVgInit (mode : UInt16) (info : ModeInfo) (s : Statics) : Option Statics :=
  if s.hRes = 0 then none
  else
    let bytesPerPixel := info.bytesPerScanLine.toUInt32 / s.hRes
    let bytesPerPixel := if mode = 0x110 then bytesPerPixel + 1 else bytesPerPixel
    let vramSize := bytesPerPixel * info.xResolution.toUInt32 * info.yResolution.toUInt32
    some
      { videoMem := some ⟨info.physBasePtr, vramSize⟩
        hRes := info.xResolution.toUInt32
        vRes := info.yResolution.toUInt32
        bytesPerPixel := bytesPerPixel
        masks := info.masks }

/-- What `bytes_per_pixel` is set to. -/
def quotient (hRes : Nat) (mode : UInt16) (info : ModeInfo) : Nat :=
  info.bytesPerScanLine.toNat / hRes + if mode = 0x110 then 1 else 0

/-- The pixel size and the mapping are those of the mode just set. -/
structure SetTo (info : ModeInfo) (s : Statics) : Prop where
  pixel : s.bytesPerPixel.toNat = pixelBytes info.bitsPerPixel
  mapped : s.videoMem.map (fun m => m.size.toNat) =
    some (info.xResolution.toNat * info.yResolution.toNat * s.bytesPerPixel.toNat)

/-- No call of the sequence divides by zero, and after each the pixel size and the mapping are those of its mode. -/
def InitsSet : Statics → List (UInt16 × ModeInfo) → Prop
  | _, [] => True
  | s, (mode, info) :: calls => ∃ s', newVgInit mode info s = some s' ∧ SetTo info s' ∧ InitsSet s' calls

/-- The scan line of each mode, divided by the resolution set before, gives the size of its pixels. -/
def QuotientsFit : Nat → List (UInt16 × ModeInfo) → Prop
  | _, [] => True
  | hRes, (mode, info) :: calls =>
    hRes ≠ 0 ∧ quotient hRes mode info = pixelBytes info.bitsPerPixel ∧ QuotientsFit info.xResolution.toNat calls

/-! ### One call -/

/-- The framebuffer of a mode has fewer than `2 ^ 32` bytes, as a scan line has fewer than `2 ^ 16`. -/
private theorem ModeInfo.size_lt (info : ModeInfo) :
    pixelBytes info.bitsPerPixel * info.xResolution.toNat * info.yResolution.toNat < 2 ^ 32 := by
  have hscan : pixelBytes info.bitsPerPixel * info.xResolution.toNat < 2 ^ 16 := by
    rw [Nat.mul_comm, ← info.scanLine]
    exact info.bytesPerScanLine.toNat_lt
  calc pixelBytes info.bitsPerPixel * info.xResolution.toNat * info.yResolution.toNat
      < 2 ^ 16 * 2 ^ 16 := Nat.mul_lt_mul'' hscan info.yResolution.toNat_lt
    _ = 2 ^ 32 := rfl

section Call

variable {mode : UInt16} {info : ModeInfo} {s s' : Statics}

private theorem newVgInit_eq_none (h : s.hRes.toNat = 0) : newVgInit mode info s = none :=
  if_pos (UInt32.toNat_inj.1 h)

private theorem newVgInit_eq_some (h : s.hRes.toNat ≠ 0) : ∃ s', newVgInit mode info s = some s' := by
  have hne : s.hRes ≠ 0 := fun h0 => h (congrArg UInt32.toNat h0)
  exact ⟨_, if_neg hne⟩

private theorem newVgInit_hRes (h : newVgInit mode info s = some s') : s'.hRes.toNat = info.xResolution.toNat := by
  unfold newVgInit at h
  split at h
  · exact absurd h nofun
  · rw [← Option.some.inj h]
    exact UInt16.toNat_toUInt32 _

theorem newVgInit_bytesPerPixel (h : newVgInit mode info s = some s') :
    s'.bytesPerPixel.toNat = quotient s.hRes.toNat mode info := by
  unfold newVgInit at h
  split at h
  · exact absurd h nofun
  · rw [← Option.some.inj h, quotient]
    have hlt : info.bytesPerScanLine.toNat / s.hRes.toNat < 2 ^ 16 :=
      Nat.lt_of_le_of_lt (Nat.div_le_self _ _) info.bytesPerScanLine.toNat_lt
    by_cases hmode : mode = 0x110
    · simp only [hmode, ↓reduceIte, UInt32.toNat_add, UInt32.toNat_div, UInt16.toNat_toUInt32, UInt32.reduceToNat]
      exact Nat.mod_eq_of_lt (by omega)
    · simp only [hmode, ↓reduceIte, UInt32.toNat_div, UInt16.toNat_toUInt32, Nat.add_zero]

private theorem newVgInit_mapped (h : newVgInit mode info s = some s') :
    s'.videoMem.map (fun m => m.size.toNat) =
      some (s'.bytesPerPixel.toNat * info.xResolution.toNat * info.yResolution.toNat % 2 ^ 32) := by
  unfold newVgInit at h
  split at h
  · exact absurd h nofun
  · rw [← Option.some.inj h]
    simp only [Option.map_some, UInt32.toNat_mul, UInt16.toNat_toUInt32, Nat.mod_mul_mod]

/-- A call sets the pixel size of its mode exactly when the quotient is that size, and then the mapping is right too. -/
theorem newVgInit_sets_iff (h : newVgInit mode info s = some s') :
    SetTo info s' ↔ quotient s.hRes.toNat mode info = pixelBytes info.bitsPerPixel := by
  have hpixel := newVgInit_bytesPerPixel h
  constructor
  · intro hset
    rw [← hpixel, hset.pixel]
  · intro hquotient
    have hsize : s'.bytesPerPixel.toNat = pixelBytes info.bitsPerPixel := hpixel.trans hquotient
    refine ⟨hsize, ?_⟩
    rw [newVgInit_mapped h, hsize, Nat.mod_eq_of_lt info.size_lt, Nat.mul_assoc, Nat.mul_comm]

end Call

/-! ### Sequences of calls -/

private theorem initsSet_iff (s : Statics) (calls : List (UInt16 × ModeInfo)) :
    InitsSet s calls ↔ QuotientsFit s.hRes.toNat calls := by
  induction calls generalizing s with
  | nil => exact Iff.rfl
  | cons call calls ih =>
    obtain ⟨mode, info⟩ := call
    simp only [InitsSet, QuotientsFit]
    by_cases h0 : s.hRes.toNat = 0
    · simp [newVgInit_eq_none h0, h0]
    · obtain ⟨s', hs'⟩ : ∃ s', newVgInit mode info s = some s' := newVgInit_eq_some h0
      simp only [hs', Option.some.injEq, exists_eq_left', ne_eq, h0, not_false_eq_true, true_and,
        newVgInit_sets_iff hs', ih, newVgInit_hRes hs']

/-- From any state the calls are right exactly when the quotients fit, so from the start of the program only if there is
no call. -/
theorem newVgInits_set_iff (calls : List (UInt16 × ModeInfo)) :
    (∀ s, InitsSet s calls ↔ QuotientsFit s.hRes.toNat calls) ∧ (InitsSet programStart calls ↔ calls = []) := by
  refine ⟨fun s => initsSet_iff s calls, ?_⟩
  rw [initsSet_iff]
  cases calls with
  | nil => exact iff_of_true trivial rfl
  | cons call calls => exact iff_of_false (fun h => h.1 rfl) nofun

/-- Mode `0x105` of the documentation: 1024 pixels by 768, one byte each. -/
def mode105 : ModeInfo where
  bytesPerScanLine := 1024
  xResolution := 1024
  yResolution := 768
  bitsPerPixel := 8
  masks := ⟨0, 0, 0⟩
  physBasePtr := 0xE0000000
  xResolution_pos := by decide
  yResolution_pos := by decide
  bitsPerPixel_mem := by decide
  scanLine := by decide

theorem newVgInits_not_set : ¬ InitsSet programStart [(0x105, mode105)] := by
  rintro ⟨s', hs', -⟩
  exact absurd hs' nofun

end LabChase.Lab5
