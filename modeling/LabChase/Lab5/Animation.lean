import LabChase.Lab5.Move

/-!
# What the moving pixmap shows (`video_gr.c`)

At every frame, and when a step would go beyond the goal, `xpm_move` erases the picture where it was drawn last and
draws it where it is, so a black screen always shows the picture once (`ShowsAlone.redraw`).  A last step that lands on
the goal between two frames is not drawn, so the animation ends with the picture at its destination exactly when that
does not happen (`xpmMove_shows_goal_iff`).
-/

namespace LabChase.Lab5

open FlatMemory Runs Loops Lab3 Glide

/-- The screen shows the picture with its top left corner at `q`, and is black everywhere else. -/
def ShowsAlone (scr : Screen) (img : XpmImage) (q : UInt16 × UInt16) (mem : Mem) : Prop :=
  ∀ a b, scr.OnScreen a b → findColor scr mem a b =
    if InRectangle q.1 q.2 img.width img.height a b then
      (pixelByte img (a.toNat - q.1.toNat) (b.toNat - q.2.toNat)).toUInt32
    else 0

def Black (scr : Screen) (mem : Mem) : Prop := ∀ a b, scr.OnScreen a b → findColor scr mem a b = 0

/-- All pixels of the picture are black. -/
def Blank (img : XpmImage) : Prop := ∀ i < img.width.toNat, ∀ j < img.height.toNat, pixelByte img i j = 0

/-! ### One picture on a black screen -/

section Picture

variable {p : Pixmaps} {scr : Screen} {q q' : UInt16 × UInt16} {mem : Mem}

theorem Black.draw (hb : 0 < scr.bytesPerPixel.toNat) (hfit : FitsAt scr p.img q.1 q.2) (h : Black scr mem)
    (xpm : XpmMap) : ShowsAlone scr p.img q (xpmDrawer p scr xpm q.1 q.2 mem).videoMem := by
  intro a b hon
  rw [findColor_xpmDrawer hb hfit xpm mem hon, h a b hon]

theorem ShowsAlone.erase (hb : 0 < scr.bytesPerPixel.toNat) (hfit : FitsAt scr p.img q.1 q.2)
    (h : ShowsAlone scr p.img q mem) :
    Black scr (vgDrawRectangle scr mem q.1 q.2 p.img.width p.img.height 0) := by
  intro a b hon
  rw [findColor_vgDrawRectangle hb hfit.1 hfit.2 mem 0 hon, h a b hon]
  split <;> simp

/-- Erased where it was and drawn where it is, the picture is again alone on the screen. -/
theorem ShowsAlone.redraw (hb : 0 < scr.bytesPerPixel.toNat) (hfit : FitsAt scr p.img q.1 q.2)
    (hfit' : FitsAt scr p.img q'.1 q'.2) (h : ShowsAlone scr p.img q mem) (xpm : XpmMap) :
    ShowsAlone scr p.img q' (xpmDrawer p scr xpm q'.1 q'.2
      (vgDrawRectangle scr mem q.1 q.2 p.img.width p.img.height 0)).videoMem :=
  (h.erase hb hfit).draw hb hfit' xpm

/-- The colour of a pixel of the picture, where it is shown. -/
theorem ShowsAlone.inside (h : ShowsAlone scr p.img q mem) (hfit : FitsAt scr p.img q.1 q.2) {i j : Nat}
    (hi : i < p.img.width.toNat) (hj : j < p.img.height.toNat) :
    findColor scr mem (q.1 + UInt16.ofNat i) (q.2 + UInt16.ofNat j) = (pixelByte p.img i j).toUInt32 := by
  have hin := hfit.inRectangle hi hj
  obtain ⟨hx, hy⟩ := hfit.toNat_add hi hj
  rw [h _ _ (hfit.onScreen hin), if_pos hin, hx, hy, Nat.add_sub_cancel_left, Nat.add_sub_cancel_left]

private theorem ShowsAlone.of_blank (hblank : Blank p.img) (h : ShowsAlone scr p.img q mem) (q' : UInt16 × UInt16) :
    ShowsAlone scr p.img q' mem := by
  have hzero : ∀ (r : UInt16 × UInt16) (a b : UInt16),
      (if InRectangle r.1 r.2 p.img.width p.img.height a b then
        (pixelByte p.img (a.toNat - r.1.toNat) (b.toNat - r.2.toNat)).toUInt32 else 0) = 0 := by
    intro r a b
    split
    · next hin =>
      obtain ⟨⟨h1, h2⟩, h3, h4⟩ := hin
      rw [hblank _ (by omega) _ (by omega)]
      rfl
    · rfl
  intro a b hon
  rw [h a b hon, hzero q, hzero q']

/-- A picture that is shown at two places is blank: the first pixel of a line of the one shows what lies before the
other, and every other pixel shows one before it. -/
private theorem ShowsAlone.blank (hfit : FitsAt scr p.img q.1 q.2)
    (hle : q.1.toNat ≤ q'.1.toNat ∧ q.2.toNat ≤ q'.2.toNat) (hne : q ≠ q') (h : ShowsAlone scr p.img q mem)
    (h' : ShowsAlone scr p.img q' mem) : Blank p.img := by
  have hshift : 0 < q'.1.toNat - q.1.toNat + (q'.2.toNat - q.2.toNat) := by
    by_contra hzero
    exact hne (Prod.ext (UInt16.toNat_inj.1 (by omega)) (UInt16.toNat_inj.1 (by omega)))
  -- the induction is on the distance from the corner
  have hall : ∀ n i j, i + j < n → i < p.img.width.toNat → j < p.img.height.toNat → pixelByte p.img i j = 0 := by
    intro n
    induction n with
    | zero =>
      intro i j hn
      omega
    | succ n ih =>
      intro i j hn hi hj
      obtain ⟨hx, hy⟩ := hfit.toNat_add hi hj
      have hboth := (h.inside hfit hi hj).symm.trans (h' _ _ (hfit.onScreen (hfit.inRectangle hi hj)))
      have hzero : (pixelByte p.img i j).toUInt32 = 0 := by
        rw [hboth]
        split
        · next hin =>
          obtain ⟨⟨h1, -⟩, h2, -⟩ := hin
          rw [hx] at h1 ⊢
          rw [hy] at h2 ⊢
          rw [ih (q.1.toNat + i - q'.1.toNat) (q.2.toNat + j - q'.2.toNat) (by omega) (by omega) (by omega)]
          rfl
        · rfl
      have hnat := congrArg UInt32.toNat hzero
      rw [UInt8.toNat_toUInt32] at hnat
      exact UInt8.toNat_inj.1 hnat
  exact fun i hi j hj => hall (i + j + 1) i j (by omega) hi hj

end Picture

/-! ### The frames of a movement -/

section Frames

variable (p : Pixmaps) (scr : Screen) {c : MoveArgs} {s : MoveState}

/-- The picture erased where it was drawn last, and drawn at `q`. -/
def redrawn (p : Pixmaps) (scr : Screen) (c : MoveArgs) (s : MoveState) (q : UInt16 × UInt16) : Drawn :=
  xpmDrawer p scr c.xpm q.1 q.2
    (vgDrawRectangle scr s.video.videoMem s.prevX s.prevY s.video.imgWidth s.video.imgHeight 0)

private theorem stepped_place (hlane : s.across c.isHorizontal = c.lane) (z : UInt16) :
    ((stepped c s z).xi, (stepped c s z).yi) = c.place z := by
  have hacross : (stepped c s z).across c.isHorizontal = c.lane := across_setAlong.trans hlane
  rw [place_along hacross]
  exact congrArg c.place along_setAlong

private theorem draw_erase_video (hlane : s.across c.isHorizontal = c.lane) (z : UInt16) :
    (draw p scr c (erase scr (stepped c s z))).video = redrawn p scr c s (c.place z) := by
  rw [← stepped_place hlane, redrawn]
  unfold draw erase stepped
  simp only [setAlong_video, setAlong_prevX, setAlong_prevY]

/-- Beyond the goal the picture is drawn at the goal. -/
theorem timerBranch_arrive (hlane : s.across c.isHorizontal = c.lane) (h : ahead c s > c.goal.toNat) :
    (timerBranch p scr c s).2.1.video = redrawn p scr c s (c.place c.goal) ∧
      (timerBranch p scr c s).2.2 = [c.place c.goal] := by
  rw [timerBranch_eq, if_pos h]
  exact ⟨draw_erase_video p scr hlane _, congrArg (fun q => [q]) (stepped_place hlane _)⟩

/-- At a frame it is drawn where it is. -/
theorem timerBranch_frame (hlane : s.across c.isHorizontal = c.lane) (h : ¬ ahead c s > c.goal.toNat)
    (hframe : (c.frames : Int) ∣ s.totalInterrupts + 1) :
    let q := c.place (UInt16.ofInt (ahead c s))
    (timerBranch p scr c s).2.1.video = redrawn p scr c s q ∧
      ((timerBranch p scr c s).2.1.prevX, (timerBranch p scr c s).2.1.prevY) = q ∧
        (timerBranch p scr c s).2.2 = [q] := by
  have htmod : (stepped c s (UInt16.ofInt (ahead c s))).totalInterrupts.tmod c.frames = 0 := by
    rw [stepped, setAlong_totalInterrupts]
    exact Int.tmod_eq_zero_of_dvd hframe
  have hplace := stepped_place hlane (UInt16.ofInt (ahead c s))
  rw [timerBranch_eq, if_neg h]
  simp only [frame, htmod, ↓reduceIte]
  exact ⟨draw_erase_video p scr hlane _, hplace, congrArg (fun q => [q]) hplace⟩

/-- Between two frames nothing is drawn. -/
theorem timerBranch_between (h : ¬ ahead c s > c.goal.toNat) (hframe : ¬ (c.frames : Int) ∣ s.totalInterrupts + 1) :
    (timerBranch p scr c s).2.1.video = s.video ∧
      ((timerBranch p scr c s).2.1.prevX, (timerBranch p scr c s).2.1.prevY) = (s.prevX, s.prevY) ∧
        (timerBranch p scr c s).2.2 = [] := by
  have htmod : (stepped c s (UInt16.ofInt (ahead c s))).totalInterrupts.tmod c.frames ≠ 0 := by
    rw [stepped, setAlong_totalInterrupts]
    exact mt Int.dvd_of_tmod_eq_zero hframe
  have hnone : frame p scr c (stepped c s (UInt16.ofInt (ahead c s))) =
      (stepped c s (UInt16.ofInt (ahead c s)), []) := if_neg htmod
  rw [timerBranch_eq, if_neg h, hnone]
  exact ⟨setAlong_video, Prod.ext setAlong_prevX setAlong_prevY, rfl⟩

private theorem frame_totalInterrupts : (frame p scr c s).1.totalInterrupts = s.totalInterrupts := by
  unfold frame
  split <;> rfl

theorem timerBranch_totalInterrupts : (timerBranch p scr c s).2.1.totalInterrupts = s.totalInterrupts + 1 := by
  rw [timerBranch_eq]
  split
  · exact setAlong_totalInterrupts
  · exact (frame_totalInterrupts p scr).trans setAlong_totalInterrupts

private theorem hear_unchanged (s : MoveState) (r : Receive) :
    (hear s r).video = s.video ∧ ((hear s r).prevX, (hear s r).prevY) = (s.prevX, s.prevY) ∧
      (hear s r).totalInterrupts = s.totalInterrupts := by
  unfold hear
  split <;> exact ⟨rfl, rfl, rfl⟩

/-- What a timer notification leaves is what the interrupt leaves, but for `scanCode`. -/
theorem moveBody_timer {r : Receive} (ht : r.timer = true) :
    (moveBody p scr c s r).1.video = (timerBranch p scr c s).2.1.video ∧
      ((moveBody p scr c s r).1.prevX, (moveBody p scr c s r).1.prevY) =
        ((timerBranch p scr c s).2.1.prevX, (timerBranch p scr c s).2.1.prevY) ∧
      (moveBody p scr c s r).1.totalInterrupts = s.totalInterrupts + 1 ∧
      (moveBody p scr c s r).1.along c.isHorizontal = (timerBranch p scr c s).2.1.along c.isHorizontal ∧
        (moveBody p scr c s r).2 = (timerBranch p scr c s).2.2 := by
  rw [moveBody_eq]
  simp only [ht, ↓reduceIte]
  obtain ⟨hvideo, hprev, htotal⟩ := hear_unchanged (timerBranch p scr c s).2.1 r
  split
  · exact ⟨rfl, rfl, timerBranch_totalInterrupts p scr, rfl, rfl⟩
  · exact ⟨hvideo, hprev, htotal.trans (timerBranch_totalInterrupts p scr), hear_along r _, rfl⟩

/-- Any other notification changes `scanCode` at most. -/
private theorem moveBody_other {r : Receive} (ht : r.timer ≠ true) :
    (moveBody p scr c s r).1.video = s.video ∧
      ((moveBody p scr c s r).1.prevX, (moveBody p scr c s r).1.prevY) = (s.prevX, s.prevY) ∧
      (moveBody p scr c s r).1.totalInterrupts = s.totalInterrupts ∧
      (moveBody p scr c s r).1.along c.isHorizontal = s.along c.isHorizontal ∧ (moveBody p scr c s r).2 = [] := by
  rw [moveBody_eq, if_neg ht]
  obtain ⟨hvideo, hprev, htotal⟩ := hear_unchanged s r
  exact ⟨hvideo, hprev, htotal, hear_along r _, rfl⟩

end Frames

/-! ### The end of the animation -/

section Path

variable {c : MoveArgs} {z : UInt16}

private theorem MoveArgs.Straight.place_goal (hc : c.Straight) : c.place c.goal = (c.xf, c.yf) := by
  unfold MoveArgs.place MoveArgs.goal MoveArgs.lane MoveArgs.isHorizontal
  by_cases h : c.yi = c.yf
  · simp [h]
  · rcases hc with ⟨hy, -⟩ | ⟨hx, -⟩
    · exact absurd hy h
    · simp [h, hx]

private theorem place_source (c : MoveArgs) : c.place c.source = (c.xi, c.yi) := by
  unfold MoveArgs.place MoveArgs.source MoveArgs.lane
  cases c.isHorizontal with
  | true => rfl
  | false => rfl

private theorem place_inj {z' : UInt16} (h : c.place z = c.place z') : z = z' := by
  unfold MoveArgs.place at h
  cases hh : c.isHorizontal with
  | true => simpa [hh] using h
  | false => simpa [hh] using h

private theorem place_le {z' : UInt16} (h : z.toNat ≤ z'.toNat) :
    (c.place z).1.toNat ≤ (c.place z').1.toNat ∧ (c.place z).2.toNat ≤ (c.place z').2.toNat := by
  unfold MoveArgs.place
  cases c.isHorizontal with
  | true => exact ⟨h, Nat.le_refl _⟩
  | false => exact ⟨Nat.le_refl _, h⟩

/-- A picture that fits at the destination fits along the whole way. -/
theorem MoveArgs.Straight.fits (hc : c.Straight) {scr : Screen} {img : XpmImage} (hfit : FitsAt scr img c.xf c.yf)
    (hz : z.toNat ≤ c.goal.toNat) : FitsAt scr img (c.place z).1 (c.place z).2 := by
  obtain ⟨hx, hy⟩ := place_le (c := c) hz
  rw [hc.place_goal] at hx hy
  exact ⟨Nat.le_trans (Nat.add_le_add_right hx _) hfit.1, Nat.le_trans (Nat.add_le_add_right hy _) hfit.2⟩

end Path

/-- The number of pixels to the goal. -/
def MoveArgs.distance (c : MoveArgs) : Nat := c.goal.toNat - c.source.toNat

/-- There is no way to go, or the last step goes beyond the goal, or it lands there on a frame. -/
def EndsDrawn (c : MoveArgs) (totalInterrupts : Int) : Prop :=
  c.distance = 0 ∨ ¬ c.pixels ∣ c.distance ∨ (c.frames : Int) ∣ totalInterrupts + (c.distance / c.pixels : Nat)

instance (c : MoveArgs) (totalInterrupts : Int) : Decidable (EndsDrawn c totalInterrupts) :=
  inferInstanceAs (Decidable (_ ∨ _))

/-- The state after the notifications `rs`: before the goal the picture is shown where it was drawn last, and at the
goal it is shown there if the last step was drawn. -/
structure Framed (p : Pixmaps) (scr : Screen) (c : MoveArgs) (totalInterrupts : Int) (rs : List Receive)
    (s : MoveState) : Prop where
  total : s.totalInterrupts = totalInterrupts + ticks rs
  size : s.video.imgWidth = p.img.width ∧ s.video.imgHeight = p.img.height
  before : (s.along c.isHorizontal).toNat < c.goal.toNat →
    ∃ z : UInt16, z.toNat ≤ (s.along c.isHorizontal).toNat ∧ (s.prevX, s.prevY) = c.place z ∧
      ShowsAlone scr p.img (c.place z) s.video.videoMem
  arrived : ¬ (s.along c.isHorizontal).toNat < c.goal.toNat →
    ∃ z : UInt16, z.toNat ≤ c.goal.toNat ∧ (z = c.goal ↔ EndsDrawn c totalInterrupts) ∧
      ShowsAlone scr p.img (c.place z) s.video.videoMem

section Framed

variable {p : Pixmaps} {scr : Screen} {c : MoveArgs} {totalInterrupts : Int}

theorem Framed.start (hb : 0 < scr.bytesPerPixel.toNat) (hc : c.Straight) (hfit : FitsAt scr p.img c.xf c.yf)
    (kbd : Kbd) {video : Drawn} (hblack : Black scr video.videoMem) :
    Framed p scr c totalInterrupts [] (moveStart p scr c totalInterrupts kbd video) := by
  have hshown : ShowsAlone scr p.img (c.place c.source)
      (moveStart p scr c totalInterrupts kbd video).video.videoMem := by
    have hfits := hc.fits hfit hc.source_le
    rw [place_source] at hfits ⊢
    exact hblack.draw hb hfits c.xpm
  refine ⟨(add_zero _).symm, ⟨rfl, rfl⟩, fun _ => ⟨c.source, Nat.le_refl _, (place_source c).symm, hshown⟩, ?_⟩
  intro hgoal
  have heq : c.source = c.goal := UInt16.toNat_inj.1 (Nat.le_antisymm hc.source_le (Nat.not_lt.1 hgoal))
  refine ⟨c.source, hc.source_le, iff_of_true heq (Or.inl ?_), hshown⟩
  rw [MoveArgs.distance, heq, Nat.sub_self]

/-- A step over the goal: the distance is no multiple of the step. -/
private theorem endsDrawn_over {z t : Nat} (hz : z = c.source.toNat + t * c.pixels) (hlt : z < c.goal.toNat)
    (hover : c.goal.toNat < z + c.pixels) (totalInterrupts : Int) : EndsDrawn c totalInterrupts := by
  refine Or.inr (Or.inl ?_)
  rintro ⟨m, hm⟩
  unfold MoveArgs.distance at hm
  have h1 : t * c.pixels < m * c.pixels := by
    rw [Nat.mul_comm m, ← hm]
    omega
  have h2 : m * c.pixels < (t + 1) * c.pixels := by
    rw [Nat.mul_comm m, ← hm, Nat.succ_mul]
    omega
  have := Nat.lt_of_mul_lt_mul_right h1
  have := Nat.lt_of_mul_lt_mul_right h2
  omega

/-- A step to the goal: what remains is whether it is a frame. -/
private theorem endsDrawn_onto {z t : Nat} (hpixels : 0 < c.pixels) (hz : z = c.source.toNat + t * c.pixels)
    (honto : z + c.pixels = c.goal.toNat) (totalInterrupts : Int) :
    EndsDrawn c totalInterrupts ↔ (c.frames : Int) ∣ totalInterrupts + t + 1 := by
  have hdistance : c.distance = (t + 1) * c.pixels := by
    rw [MoveArgs.distance, Nat.succ_mul]
    omega
  have hsteps : c.distance / c.pixels = t + 1 := by rw [hdistance, Nat.mul_div_cancel _ hpixels]
  have hne : c.distance ≠ 0 := by
    rw [hdistance, Nat.succ_mul]
    omega
  have hdvd : c.pixels ∣ c.distance := ⟨t + 1, by rw [hdistance, Nat.mul_comm]⟩
  rw [EndsDrawn, or_iff_right hne, or_iff_right (not_not.2 hdvd), hsteps, Nat.cast_succ, add_assoc]

/-- Wherever it is drawn on the way, the picture is alone on the screen. -/
private theorem redrawn_showsAlone (hb : 0 < scr.bytesPerPixel.toNat) (hc : c.Straight)
    (hfit : FitsAt scr p.img c.xf c.yf) {s : MoveState}
    (hsize : s.video.imgWidth = p.img.width ∧ s.video.imgHeight = p.img.height) {z z' : UInt16}
    (hprev : (s.prevX, s.prevY) = c.place z) (hshown : ShowsAlone scr p.img (c.place z) s.video.videoMem)
    (hz : z.toNat ≤ c.goal.toNat) (hz' : z'.toNat ≤ c.goal.toNat) :
    ShowsAlone scr p.img (c.place z') (redrawn p scr c s (c.place z')).videoMem := by
  have hx : s.prevX = (c.place z).1 := congrArg Prod.fst hprev
  have hy : s.prevY = (c.place z).2 := congrArg Prod.snd hprev
  rw [redrawn, hx, hy, hsize.1, hsize.2]
  exact hshown.redraw hb (hc.fits hfit hz) (hc.fits hfit hz') c.xpm

theorem Framed.tick (hb : 0 < scr.bytesPerPixel.toNat) (hc : c.Straight) (hspeed : 1 ≤ c.speed.toInt)
    (hfit : FitsAt scr p.img c.xf c.yf) {rs : List Receive} {r : Receive} {s : MoveState}
    (h : Framed p scr c totalInterrupts rs s) (htravels : Travels c rs s)
    (hlt : (s.along c.isHorizontal).toNat < c.goal.toNat) (ht : r.timer = true) :
    Framed p scr c totalInterrupts (rs ++ [r]) (moveBody p scr c s r).1 := by
  obtain ⟨z, hz, hprev, hshown⟩ := h.before hlt
  obtain ⟨hvideo, hprev', htotal, halong, -⟩ := moveBody_timer p scr (c := c) (s := s) ht
  have hpixels := c.pixels_pos hspeed
  have hglides : ((timerBranch p scr c s).2.1.along c.isHorizontal).toNat = _ := timerBranch_glides hspeed
  have hahead := ahead_eq hspeed s
  have hbelow : (s.along c.isHorizontal).toNat = c.source.toNat + ticks rs * c.pixels := by
    rw [htravels.along] at hlt ⊢
    exact position_of_lt hlt
  have hredraw : ∀ z' : UInt16, z'.toNat ≤ c.goal.toNat →
      ShowsAlone scr p.img (c.place z') (redrawn p scr c s (c.place z')).videoMem :=
    fun z' => redrawn_showsAlone hb hc hfit h.size hprev hshown (by omega)
  have htotal' : (moveBody p scr c s r).1.totalInterrupts = totalInterrupts + ticks (rs ++ [r]) := by
    rw [htotal, h.total, ticks_concat_timer ht, Nat.cast_succ, add_assoc]
  by_cases hover : ahead c s > c.goal.toNat
  · obtain ⟨harrive, -⟩ := timerBranch_arrive p scr htravels.across hover
    refine ⟨htotal', ?_, ?_, fun _ => ⟨c.goal, Nat.le_refl _, ?_, ?_⟩⟩
    · rw [hvideo, harrive]
      exact ⟨rfl, rfl⟩
    · rw [halong, hglides]
      omega
    · exact iff_of_true rfl (endsDrawn_over hbelow hlt (by omega) _)
    · rw [hvideo, harrive]
      exact hredraw _ (Nat.le_refl _)
  · have hmoved : (timerBranch p scr c s).2.1.along c.isHorizontal = UInt16.ofInt (ahead c s) :=
      timerBranch_along.trans (if_neg hover)
    have honto : ∀ z' : Nat, z' = (s.along c.isHorizontal).toNat + c.pixels → z' = c.goal.toNat →
        (EndsDrawn c totalInterrupts ↔ (c.frames : Int) ∣ s.totalInterrupts + 1) := by
      rintro z' rfl hgoal
      rw [endsDrawn_onto hpixels hbelow hgoal, h.total]
    by_cases hframe : (c.frames : Int) ∣ s.totalInterrupts + 1
    · obtain ⟨hdrawn, hplace, -⟩ := timerBranch_frame p scr htravels.across hover hframe
      have hshown' := hredraw (UInt16.ofInt (ahead c s)) (by rw [← hmoved]; omega)
      refine ⟨htotal', ?_, ?_, ?_⟩
      · rw [hvideo, hdrawn]
        exact ⟨rfl, rfl⟩
      · rw [halong, hprev', hvideo, hdrawn, hmoved]
        exact fun _ => ⟨_, Nat.le_refl _, hplace, hshown'⟩
      · rw [halong, hvideo, hdrawn]
        intro hgoal
        have heq : UInt16.ofInt (ahead c s) = c.goal := UInt16.toNat_inj.1 (by rw [← hmoved]; omega)
        exact ⟨_, by rw [heq], iff_of_true heq ((honto _ rfl (by omega)).2 hframe), hshown'⟩
    · obtain ⟨hsame, hplace, -⟩ := timerBranch_between p scr hover hframe
      refine ⟨htotal', ?_, ?_, ?_⟩
      · rw [hvideo, hsame]
        exact h.size
      · rw [halong, hprev', hvideo, hsame, hplace]
        exact fun _ => ⟨z, by omega, hprev, hshown⟩
      · rw [halong, hvideo, hsame]
        intro hgoal
        -- the picture is still where the frame before has drawn it
        have hne : z ≠ c.goal := by
          rintro rfl
          omega
        exact ⟨z, by omega, iff_of_false hne (mt (honto _ rfl (by omega)).1 hframe), hshown⟩

theorem Framed.step (hb : 0 < scr.bytesPerPixel.toNat) (hc : c.Straight) (hspeed : 1 ≤ c.speed.toInt)
    (hfit : FitsAt scr p.img c.xf c.yf) {rs : List Receive} (r : Receive) {s : MoveState}
    (h : Framed p scr c totalInterrupts rs s) (htravels : Travels c rs s) (hmoving : Moving c s) :
    Framed p scr c totalInterrupts (rs ++ [r]) (moveBody p scr c s r).1 := by
  obtain ⟨-, hlt⟩ := moving_iff.1 hmoving
  by_cases ht : r.timer = true
  · exact h.tick hb hc hspeed hfit htravels hlt ht
  · obtain ⟨hvideo, hprev, htotal, halong, -⟩ := moveBody_other p scr (c := c) (s := s) ht
    constructor
    · rw [htotal, h.total, ticks_concat_other ht]
    · rw [hvideo]
      exact h.size
    · rw [halong, hprev, hvideo]
      exact h.before
    · rw [halong, hvideo]
      exact h.arrived

end Framed

/-- At the end of the animation the picture is alone on the screen, at its destination if the last step was drawn. -/
private theorem exists_arrived {scr : Screen} (hb : 0 < scr.bytesPerPixel.toNat) {c : MoveArgs} (hc : c.Straight)
    (hspeed : 1 ≤ c.speed.toInt) {p : Pixmaps} (hfit : FitsAt scr p.img c.xf c.yf) {kbd : Kbd}
    (hkbd : kbd.scanCode ≠ escBreakCode) {video : Drawn} (hblack : Black scr video.videoMem) (totalInterrupts : Int)
    (rs : List Receive) :
    let s := final (Moving c) (moveBody p scr c) (moveStart p scr c totalInterrupts kbd video) rs
    ¬ Moving c s → s.kbd.scanCode ≠ escBreakCode →
      ∃ z : UInt16, z.toNat ≤ c.goal.toNat ∧ (z = c.goal ↔ EndsDrawn c totalInterrupts) ∧
        ShowsAlone scr p.img (c.place z) s.video.videoMem := by
  intro s hleft hesc
  have hstart : Travels c [] (moveStart p scr c totalInterrupts kbd video) ∧
      Framed p scr c totalInterrupts [] (moveStart p scr c totalInterrupts kbd video) :=
    ⟨Travels.start hc hkbd _ _, Framed.start hb hc hfit kbd hblack⟩
  have hstep : ∀ pre r t, Travels c pre t ∧ Framed p scr c totalInterrupts pre t → Moving c t →
      Travels c (pre ++ [r]) (moveBody p scr c t r).1 ∧
        Framed p scr c totalInterrupts (pre ++ [r]) (moveBody p scr c t r).1 :=
    fun pre r t h hmoving => ⟨h.1.step hspeed pre r t hmoving, h.2.step hb hc hspeed hfit r h.1 hmoving⟩
  have hframed : Framed p scr c totalInterrupts _ s := (taken_invariant hstep hstart rs _ List.prefix_rfl).2
  exact hframed.arrived fun hlt => hleft (moving_iff.2 ⟨hesc, hlt⟩)

/-- When the animation ends without `ESC`, the screen shows the picture at its destination and nothing else exactly if
the last step was drawn, or the picture is black. -/
theorem xpmMove_shows_goal_iff {scr : Screen} (hb : 1 ≤ scr.bytesPerPixel ∧ scr.bytesPerPixel ≤ 4) {c : MoveArgs}
    (hc : c.Straight) (hspeed : 1 ≤ c.speed.toInt) {p : Pixmaps} (hfit : FitsAt scr p.img c.xf c.yf) {kbd : Kbd}
    (hkbd : kbd.scanCode ≠ escBreakCode) {video : Drawn} (hblack : Black scr video.videoMem) (totalInterrupts : Int)
    (rs : List Receive) :
    let s := final (Moving c) (moveBody p scr c) (moveStart p scr c totalInterrupts kbd video) rs
    ¬ Moving c s → s.kbd.scanCode ≠ escBreakCode →
      (ShowsAlone scr p.img (c.xf, c.yf) s.video.videoMem ↔ EndsDrawn c totalInterrupts ∨ Blank p.img) := by
  intro s hleft hesc
  have hpos : 0 < scr.bytesPerPixel.toNat := UInt32.le_iff_toNat_le.1 hb.1
  obtain ⟨z, hz, hdrawn, hshown⟩ := exists_arrived hpos hc hspeed hfit hkbd hblack totalInterrupts rs hleft hesc
  rw [← hc.place_goal, ← hdrawn]
  constructor
  · intro hgoal
    by_cases heq : z = c.goal
    · exact Or.inl heq
    · exact Or.inr (hshown.blank (hc.fits hfit hz) (place_le hz) (fun hplace => heq (place_inj hplace)) hgoal)
  · rintro (rfl | hblank)
    · exact hshown
    · exact hshown.of_blank hblank _

private theorem black_zero {scr : Screen} (hb : 0 < scr.bytesPerPixel.toNat) : Black scr fun _ => 0 := by
  intro a b hon
  have hbytes : 255 * loadLE (fun _ => 0) (pixelOffset scr a.toUInt32 b.toUInt32) scr.bytesPerPixel.toNat =
      (0 : UInt8).toNat * (256 ^ scr.bytesPerPixel.toNat - 1) := loadLE_pixel_const (fun _ _ => rfl) hon hb
  have hzero : loadLE (fun _ => 0) (pixelOffset scr a.toUInt32 b.toUInt32) scr.bytesPerPixel.toNat = 0 := by
    rw [UInt8.toNat_zero, Nat.zero_mul] at hbytes
    omega
  rw [findColor, hzero]
  rfl

/-- Four pixels to the right in one step, at thirty frames a second: the step is between two frames. -/
def stepRight : MoveArgs where
  xpm := twoPixels
  xi := 100
  yi := 100
  xf := 104
  yf := 100
  speed := 4
  frRate := thirty

theorem stepRight_shows_goal_iff :
    ShowsAlone screen105 samplePixmaps.img (104, 100)
        (final (Moving stepRight) (moveBody samplePixmaps screen105 stepRight)
          (moveStart samplePixmaps screen105 stepRight 0 start blackVideo) [tick]).video.videoMem ↔
      EndsDrawn stepRight 0 ∨ Blank samplePixmaps.img :=
  xpmMove_shows_goal_iff (by decide) (Or.inl (by decide)) (by decide) (by decide) (by decide) (black_zero (by decide)) 0
    [tick] (by decide +kernel) (by decide +kernel)

theorem stepRight_not_shown :
    ¬ ShowsAlone screen105 samplePixmaps.img (104, 100)
      (final (Moving stepRight) (moveBody samplePixmaps screen105 stepRight)
        (moveStart samplePixmaps screen105 stepRight 0 start blackVideo) [tick]).video.videoMem := by
  intro hgoal
  have hpos : 0 < screen105.bytesPerPixel.toNat := by decide
  have hfit : FitsAt screen105 samplePixmaps.img 104 100 := by decide
  have hc : stepRight.Straight := Or.inl (by decide)
  have hkbd : start.scanCode ≠ escBreakCode := by decide
  have hblack : Black screen105 blackVideo.videoMem := black_zero hpos
  obtain ⟨z, hz, hdrawn, hshown⟩ := exists_arrived hpos hc (by decide) hfit hkbd hblack 0 [tick] (by decide +kernel)
    (by decide +kernel)
  have hne : z ≠ stepRight.goal := mt hdrawn.1 (by decide)
  have hblank := hshown.blank (hc.fits hfit hz) (place_le hz) (fun hplace => hne (place_inj hplace)) hgoal
  exact absurd (hblank 0 (by decide) 0 (by decide)) (by decide)

end LabChase.Lab5
