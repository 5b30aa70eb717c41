import LabChase.Lab5.Animation

/-!
# The speed of the movement (`lab5.h`, `video_gr.c`)

The documentation means by a positive `speed` the pixels between two frames, and by a negative one the frames for one
pixel.  `xpm_move` adds `speed` at every timer interrupt instead.  The two agree exactly when the speed is positive and
a frame is one interrupt (`speed_documented_iff`): otherwise the sprite is too fast, or it goes backwards.
-/

namespace LabChase.Lab5

open Runs Loops Lab3 Glide

/-- Where the documentation has the sprite at frame `k`. -/
def documentedX (c : MoveArgs) (k : Nat) : Nat :=
  if 0 < c.speed.toInt then min c.xf.toNat (c.xi.toNat + k * c.speed.toInt.toNat)
  else min c.xf.toNat (c.xi.toNat + k / c.speed.toInt.natAbs)

/-- Up to the frame that reaches `xf`, the frame ticks are all read, and draw the sprite where the documentation has
it. -/
def SpeedDocumented (p : Pixmaps) (scr : Screen) (c : MoveArgs) (s : MoveState) : Prop :=
  ∀ k, documentedX c k < c.xf.toNat → ∀ (rs : List Receive) (r : Receive),
    r.timer = true → ticks (rs ++ [r]) = (k + 1) * c.frames → ¬ EscHeard (rs ++ [r]) →
      taken (Moving c) (moveBody p scr c) s (rs ++ [r]) = rs ++ [r] ∧
        (moveBody p scr c (moveRun p scr c s rs) r).2 = [(UInt16.ofNat (documentedX c (k + 1)), c.yi)]

/-! ### Timer notifications only -/

private theorem ticks_replicate (n : Nat) : ticks (List.replicate n tick) = n := by
  rw [ticks, List.countP_replicate, if_pos (by decide)]

private theorem not_escHeard_replicate (n : Nat) : ¬ EscHeard (List.replicate n tick) := by
  have hnone : (List.replicate n tick).filterMap keyboardPair = [] := by
    induction n with
    | zero => rfl
    | succ n ih =>
      rw [List.replicate_succ, List.filterMap_cons_none (by decide), ih]
  rw [EscHeard, hnone]
  simp

section Horizontal

variable {c : MoveArgs}

private theorem isHorizontal_of_eq (hy : c.yi = c.yf) : c.isHorizontal = true := by
  rw [MoveArgs.isHorizontal, hy]
  exact beq_self_eq_true _

private theorem source_of_eq (hy : c.yi = c.yf) : c.source = c.xi := if_pos (isHorizontal_of_eq hy)

private theorem goal_of_eq (hy : c.yi = c.yf) : c.goal = c.xf := if_pos (isHorizontal_of_eq hy)

private theorem place_of_eq (hy : c.yi = c.yf) (z : UInt16) : c.place z = (z, c.yi) := by
  have hlane : c.lane = c.yi := if_pos (isHorizontal_of_eq hy)
  rw [MoveArgs.place, if_pos (isHorizontal_of_eq hy), hlane]

/-- With a positive speed the sprite is documented to glide, one step for each frame. -/
private theorem documentedX_pos (hy : c.yi = c.yf) (hspeed : 0 < c.speed.toInt) (k : Nat) :
    documentedX c k = position c.goal.toNat c.source.toNat c.pixels k := by
  rw [documentedX, if_pos hspeed, goal_of_eq hy, source_of_eq hy]
  rfl

private theorem documentedX_le (c : MoveArgs) (k : Nat) : documentedX c k ≤ c.xf.toNat := by
  unfold documentedX
  split <;> exact Nat.min_le_left _ _

private theorem one_le_frames (c : MoveArgs) : 1 ≤ c.frames :=
  (Nat.le_div_iff_mul_le c.frRate.pos).2 (by rw [Nat.one_mul]; exact c.frRate.le)

private theorem frames_le (c : MoveArgs) : c.frames ≤ 60 := Nat.div_le_self _ _

end Horizontal

/-! ### What is drawn -/

section Draws

variable {p : Pixmaps} {scr : Screen} {c : MoveArgs} {s : MoveState} {r : Receive}

/-- What a timer notification draws is at the coordinate that it moves to. -/
private theorem draws_along (hlane : s.across c.isHorizontal = c.lane) (ht : r.timer = true) {q : UInt16 × UInt16}
    (hq : (moveBody p scr c s r).2 = [q]) : q = c.place ((moveBody p scr c s r).1.along c.isHorizontal) := by
  obtain ⟨-, -, -, halong, hdraws⟩ := moveBody_timer p scr (c := c) (s := s) ht
  rw [hdraws] at hq
  rw [halong, timerBranch_along]
  by_cases hover : ahead c s > c.goal.toNat
  · rw [(timerBranch_arrive p scr hlane hover).2] at hq
    rw [if_pos hover, List.singleton_inj.1 hq]
  · by_cases hframe : (c.frames : Int) ∣ s.totalInterrupts + 1
    · rw [(timerBranch_frame p scr hlane hover hframe).2.2] at hq
      rw [if_neg hover, List.singleton_inj.1 hq]
    · rw [(timerBranch_between p scr hover hframe).2.2] at hq
      exact absurd hq nofun

/-- If every interrupt is a frame, each is drawn. -/
private theorem draws_of_frames (hframes : c.frames = 1) (hlane : s.across c.isHorizontal = c.lane)
    (ht : r.timer = true) : (moveBody p scr c s r).2 = [c.place ((moveBody p scr c s r).1.along c.isHorizontal)] := by
  obtain ⟨-, -, -, halong, hdraws⟩ := moveBody_timer p scr (c := c) (s := s) ht
  rw [halong, hdraws, timerBranch_along]
  by_cases hover : ahead c s > c.goal.toNat
  · rw [if_pos hover, (timerBranch_arrive p scr hlane hover).2]
  · have hframe : (c.frames : Int) ∣ s.totalInterrupts + 1 := by
      rw [hframes]
      exact one_dvd _
    rw [if_neg hover, (timerBranch_frame p scr hlane hover hframe).2.2]

/-- A documented movement reads the timer notifications up to a frame, and draws the sprite at the last. -/
theorem SpeedDocumented.frame (h : SpeedDocumented p scr c s) {k : Nat} (hk : documentedX c k < c.xf.toNat) {n : Nat}
    (hn : (k + 1) * c.frames = n + 1) :
    List.replicate n tick ++ [tick] <+: taken (Moving c) (moveBody p scr c) s (List.replicate n tick ++ [tick]) ∧
      (moveBody p scr c (moveRun p scr c s (List.replicate n tick)) tick).2 =
        [(UInt16.ofNat (documentedX c (k + 1)), c.yi)] := by
  have hticks : ticks (List.replicate n tick ++ [tick]) = (k + 1) * c.frames := by
    rw [ticks_concat_timer (by decide), ticks_replicate, hn]
  have hesc : ¬ EscHeard (List.replicate n tick ++ [tick]) := by
    rw [← List.replicate_succ']
    exact not_escHeard_replicate _
  obtain ⟨htaken, hdraws⟩ := h k hk _ tick (by decide) hticks hesc
  refine ⟨?_, hdraws⟩
  rw [htaken]

end Draws

/-! ### Forward -/

section Forward

variable {p : Pixmaps} {scr : Screen} {c : MoveArgs} {kbd : Kbd} {totalInterrupts : Int} {video : Drawn}

private theorem EscHeard.mono {rs rs' : List Receive} (h : rs <+: rs') (hesc : EscHeard rs) : EscHeard rs' := by
  obtain ⟨q, hq, hreleased⟩ := hesc
  exact ⟨q, (h.sublist.filterMap keyboardPair).subset hq, hreleased⟩

/-- Where every interrupt is a frame, the sprite is as documented. -/
private theorem speedDocumented_of_frames (hx : c.xi.toNat < c.xf.toNat) (hy : c.yi = c.yf) (hspeed : 0 < c.speed.toInt)
    (hframes : c.frames = 1) (hkbd : kbd.scanCode ≠ escBreakCode) :
    SpeedDocumented p scr c (moveStart p scr c totalInterrupts kbd video) := by
  intro k hk rs r ht hticks hesc
  have hc : c.Straight := Or.inl ⟨hy, hx.le⟩
  have hpixels := c.pixels_pos hspeed
  rw [ticks_concat_timer ht, hframes, Nat.mul_one] at hticks
  rw [documentedX_pos hy hspeed, ← goal_of_eq hy, position_lt_iff hpixels] at hk
  have hstart : Travels c [] (moveStart p scr c totalInterrupts kbd video) := Travels.start hc hkbd _ _
  have hwaits : ∀ pre, pre <+: rs → ¬ (EscHeard pre ∨ c.steps ≤ ticks pre) := by
    rintro pre hpre (hheard | hsteps)
    · exact hesc (hheard.mono (hpre.trans (List.prefix_append ..)))
    · have hle : ticks pre ≤ ticks rs := hpre.sublist.countP_le
      have hk' : k < c.steps := hk
      omega
  obtain ⟨hguard, htaken⟩ :=
    (leavesAtFirst_of_invariant hstart (Travels.step hspeed) (fun _ _ h => h.moving_iff hspeed) rs).waits hwaits
  have hmoving := hguard
  rw [final, htaken] at hmoving
  have htravels : Travels c rs (moveRun p scr c _ rs) :=
    taken_invariant (Travels.step hspeed) hstart rs rs (by rw [htaken])
  have hnext : Travels c (rs ++ [r]) (moveBody p scr c (moveRun p scr c _ rs) r).1 :=
    htravels.step hspeed rs r _ hmoving
  refine ⟨taken_concat hguard r, ?_⟩
  rw [draws_of_frames hframes htravels.across ht, place_of_eq hy]
  have halong := hnext.along
  rw [ticks_concat_timer ht, hticks, ← documentedX_pos hy hspeed] at halong
  rw [← halong, UInt16.ofNat_toNat]

/-- Where a frame is more than one interrupt, the sprite has gone more than one step at the first. -/
private theorem not_speedDocumented_of_frames (hx : c.xi.toNat < c.xf.toNat) (hy : c.yi = c.yf)
    (hspeed : 0 < c.speed.toInt) (hframes : 2 ≤ c.frames) (hkbd : kbd.scanCode ≠ escBreakCode) :
    ¬ SpeedDocumented p scr c (moveStart p scr c totalInterrupts kbd video) := by
  intro hdocumented
  have hc : c.Straight := Or.inl ⟨hy, hx.le⟩
  have hpixels := c.pixels_pos hspeed
  obtain ⟨n, hn⟩ := Nat.exists_eq_add_of_le' (Nat.le_of_succ_le hframes)
  have hfirst : documentedX c 0 < c.xf.toNat := by
    rw [documentedX_pos hy hspeed, position_zero hc.source_le, source_of_eq hy]
    exact hx
  obtain ⟨hread, hdraws⟩ := hdocumented.frame hfirst (show (0 + 1) * c.frames = n + 1 by omega)
  have hmoving : Moving c (moveRun p scr c _ (List.replicate n tick)) := guard_of_taken hread
  have htravels : Travels c (List.replicate n tick) (moveRun p scr c _ (List.replicate n tick)) :=
    taken_invariant (Travels.step hspeed) (Travels.start hc hkbd totalInterrupts video) _ _
      ((List.prefix_append ..).trans hread)
  have hnext : Travels c (List.replicate n tick ++ [tick])
      (moveBody p scr c (moveRun p scr c _ (List.replicate n tick)) tick).1 := htravels.step hspeed _ tick _ hmoving
  -- at the frame the sprite has made `n + 1` steps, the documentation has it after one
  have hbefore := (moving_iff.1 hmoving).2
  rw [htravels.along, ticks_replicate] at hbefore
  have halong := hnext.along
  have hplace := draws_along htravels.across (by decide) hdraws
  rw [place_of_eq hy] at hplace
  rw [← (Prod.mk.inj hplace).1, ticks_concat_timer (by decide), ticks_replicate, documentedX_pos hy hspeed] at halong
  rw [UInt16.toNat_ofNat_of_lt' (Nat.lt_of_le_of_lt (position_le _ _ _ _) c.goal.toNat_lt)] at halong
  have hstep := position_of_lt hbefore
  unfold position at halong hbefore
  simp only [smul_eq_mul, Nat.succ_mul, Nat.zero_mul] at halong hbefore hstep
  have hle : c.pixels ≤ n * c.pixels := Nat.le_mul_of_pos_left _ (by omega)
  omega

end Forward

/-! ### Backward -/

/-- With a negative speed the coordinate goes back at every timer notification, and wraps below zero. -/
structure Retreats (c : MoveArgs) (rs : List Receive) (s : MoveState) : Prop where
  along : ((s.along c.isHorizontal).toNat : Int) = (c.source.toNat + ticks rs * c.speed.toInt) % 65536
  across : s.across c.isHorizontal = c.lane

section Backward

variable {p : Pixmaps} {scr : Screen} {c : MoveArgs} {kbd : Kbd} {totalInterrupts : Int} {video : Drawn}

theorem Retreats.start : Retreats c [] (moveStart p scr c totalInterrupts kbd video) := by
  refine ⟨?_, rfl⟩
  have hsource := c.source.toNat_lt
  show (c.source.toNat : Int) = (c.source.toNat + (0 : Nat) * c.speed.toInt) % 65536
  omega

theorem Retreats.step (hspeed : c.speed.toInt < 0) (rs : List Receive) (r : Receive) (s : MoveState)
    (h : Retreats c rs s) (hmoving : Moving c s) : Retreats c (rs ++ [r]) (moveBody p scr c s r).1 := by
  have hlt := (moving_iff.1 hmoving).2
  have hback : ¬ ahead c s > c.goal.toNat := by
    unfold ahead
    omega
  rw [moveBody_eq]
  by_cases ht : r.timer = true
  · have hleft : ¬ (timerBranch p scr c s).1 = true := mt timerBranch_left.1 hback
    simp only [ht, hleft, Bool.false_eq_true, ↓reduceIte]
    constructor
    · rw [hear_along, timerBranch_along, if_neg hback, toNat_ofInt16, ahead, h.along, ticks_concat_timer ht,
        Int.emod_add_emod, Nat.cast_succ, add_mul, one_mul, add_assoc]
    · rw [hear_across, timerBranch_across, h.across]
  · simp only [ht, Bool.false_eq_true, ↓reduceIte]
    constructor
    · rw [hear_along, h.along, ticks_concat_other ht]
    · rw [hear_across, h.across]

/-- Where a documented movement backward is at a frame. -/
private theorem SpeedDocumented.retreats (hy : c.yi = c.yf) (hspeed : c.speed.toInt < 0)
    (h : SpeedDocumented p scr c (moveStart p scr c totalInterrupts kbd video)) {k : Nat}
    (hk : documentedX c k < c.xf.toNat) :
    (documentedX c (k + 1) : Int) = (c.xi.toNat + ((k + 1) * c.frames : Nat) * c.speed.toInt) % 65536 := by
  have hpos : 0 < (k + 1) * c.frames := Nat.mul_pos (Nat.succ_pos _) (one_le_frames c)
  obtain ⟨n, hn⟩ := Nat.exists_eq_add_of_le' hpos
  obtain ⟨hread, hdraws⟩ := h.frame hk hn
  have hmoving : Moving c (moveRun p scr c _ (List.replicate n tick)) := guard_of_taken hread
  have hretreats : Retreats c (List.replicate n tick) (moveRun p scr c _ (List.replicate n tick)) :=
    taken_invariant (Retreats.step hspeed) Retreats.start _ _ ((List.prefix_append ..).trans hread)
  have hnext : Retreats c (List.replicate n tick ++ [tick])
      (moveBody p scr c (moveRun p scr c _ (List.replicate n tick)) tick).1 := hretreats.step hspeed _ tick _ hmoving
  have hplace := draws_along hretreats.across (by decide) hdraws
  rw [place_of_eq hy] at hplace
  have hxf := c.xf.toNat_lt
  have hle := documentedX_le c (k + 1)
  have halong := hnext.along
  rw [← (Prod.mk.inj hplace).1, UInt16.toNat_ofNat_of_lt' (Nat.lt_of_le_of_lt hle hxf),
    ticks_concat_timer (by decide), ticks_replicate, source_of_eq hy, ← hn] at halong
  exact halong

/-- The sprite goes back while the documentation has it stand still or go on. -/
private theorem not_speedDocumented_backward (hx : c.xi.toNat < c.xf.toNat) (hy : c.yi = c.yf)
    (hspeed : c.speed.toInt < 0) :
    ¬ SpeedDocumented p scr c (moveStart p scr c totalInterrupts kbd video) := by
  intro hdocumented
  have hxf := c.xf.toNat_lt
  have hframes := one_le_frames c
  have hframes' := frames_le c
  obtain ⟨m, hm⟩ : ∃ m : Nat, c.speed.toInt = -(m : Int) - 1 := ⟨(-c.speed.toInt - 1).toNat, by omega⟩
  have hdoc : ∀ k, documentedX c k = min c.xf.toNat (c.xi.toNat + k / (m + 1)) := by
    intro k
    have habs : c.speed.toInt.natAbs = m + 1 := by omega
    rw [documentedX, if_neg (by omega), habs]
  have hzero : documentedX c 0 < c.xf.toNat := by
    rw [hdoc, Nat.zero_div]
    omega
  have hlast : documentedX c m < c.xf.toNat := by
    rw [hdoc, Nat.div_eq_of_lt (Nat.lt_succ_self m)]
    omega
  have hnext : min c.xf.toNat (c.xi.toNat + 1) = c.xi.toNat + 1 := Nat.min_eq_right hx
  have hpixel := hdocumented.retreats hy hspeed hlast
  rw [hdoc, Nat.div_self (Nat.succ_pos m), hnext, hm] at hpixel
  rcases Nat.eq_zero_or_pos m with rfl | hmpos
  · -- one frame to a pixel: the first frame would be one pixel further, and is at most sixty back
    push_cast at hpixel
    omega
  · -- the first frame would be where the sprite started, so the frames go round the 16 bits and come back to it
    have hfirst := hdocumented.retreats hy hspeed hzero
    rw [hdoc, Nat.div_eq_of_lt (show 0 + 1 < m + 1 by omega), hm, Nat.zero_add, Nat.one_mul, Nat.add_zero,
      Nat.min_eq_right hx.le] at hfirst
    obtain ⟨q, hq⟩ : (65536 : Int) ∣ c.frames * (-(m : Int) - 1) := by omega
    have hround : (((m + 1) * c.frames : Nat) : Int) * (-(m : Int) - 1) = 65536 * ((m + 1) * q) := by
      rw [Nat.cast_mul, mul_assoc, hq]
      push_cast
      ring
    rw [hround] at hpixel
    omega

end Backward

theorem speed_documented_iff {c : MoveArgs} (hx : c.xi.toNat < c.xf.toNat) (hy : c.yi = c.yf)
    (hspeed : c.speed.toInt ≠ 0) (hrate : c.frRate.rate.toNat ∣ 60) {kbd : Kbd} (hkbd : kbd.scanCode ≠ escBreakCode)
    (p : Pixmaps) (scr : Screen) (video : Drawn) :
    SpeedDocumented p scr c (moveStart p scr c 0 kbd video) ↔ 0 < c.speed.toInt ∧ c.frRate.rate.toNat = 60 := by
  have hframes : c.frRate.rate.toNat * c.frames = 60 := Nat.mul_div_cancel' hrate
  constructor
  · intro hdocumented
    have hpos : 0 < c.speed.toInt := by
      by_contra hneg
      exact not_speedDocumented_backward hx hy (by omega) hdocumented
    refine ⟨hpos, ?_⟩
    have hone : c.frames = 1 := by
      by_contra hmore
      have := one_le_frames c
      exact not_speedDocumented_of_frames hx hy hpos (by omega) hkbd hdocumented
    rwa [hone, Nat.mul_one] at hframes
  · rintro ⟨hpos, hsixty⟩
    rw [hsixty] at hframes
    exact speedDocumented_of_frames hx hy hpos (by omega) hkbd

/-- Two pixels a frame to the right, at thirty frames a second. -/
def slowRight : MoveArgs where
  xpm := twoPixels
  xi := 100
  yi := 100
  xf := 200
  yf := 100
  speed := 2
  frRate := thirty

theorem speed_documented_iff_slowRight :
    SpeedDocumented samplePixmaps screen105 slowRight
        (moveStart samplePixmaps screen105 slowRight 0 start blackVideo) ↔
      0 < slowRight.speed.toInt ∧ slowRight.frRate.rate.toNat = 60 :=
  speed_documented_iff (by decide) (by decide) (by decide) (by decide) (by decide) _ _ _

/-- The first frame is drawn four pixels further, and not two. -/
theorem slowRight_too_fast :
    ¬ SpeedDocumented samplePixmaps screen105 slowRight
      (moveStart samplePixmaps screen105 slowRight 0 start blackVideo) :=
  not_speedDocumented_of_frames (by decide) (by decide) (by decide) (by decide) (by decide)

end LabChase.Lab5
