import LabChase.Lab3.Keyboard
import LabChase.Lab5.Xpm
import LabChase.Library.Glide

/-!
# Moving a pixmap (`video_gr.c`)

The loop of `xpm_move` takes the moving coordinate one step of `speed` further at every timer notification, and to the
goal where a step would go beyond it; it then leaves the `switch` without looking at the keyboard.  What a timer
interrupt does is said once (`timerBranch_cases`).  For a positive speed the coordinate glides to the goal without
wrapping, and the loop leaves after as many timer notifications as it has steps (`xpmMove_reaches_goal`).
-/

namespace LabChase.Lab5

open FlatMemory Runs Loops Lab3 Glide

/-- A frame rate from 1 to 60 frames a second. -/
structure FrRate where
  rate : UInt8
  pos : 1 ≤ rate.toNat
  le : rate.toNat ≤ 60

/-- The arguments of `xpm_move`. -/
structure MoveArgs where
  xpm : XpmMap
  xi : UInt16
  yi : UInt16
  xf : UInt16
  yf : UInt16
  speed : Int16
  frRate : FrRate

/-- The variables that the loop changes: `xi` and `yi`, the position of the last frame, and the globals.  An `int` that
overflows has no defined value, so `totalInterrupts` is not bounded here. -/
structure MoveState where
  xi : UInt16
  yi : UInt16
  prevX : UInt16
  prevY : UInt16
  totalInterrupts : Int
  kbd : Kbd
  video : Drawn

/-- `int frames = 60 / fr_rate`. -/
def MoveArgs.frames (c : MoveArgs) : Nat := 60 / c.frRate.rate.toNat

/-- `isHorizontal`. -/
def MoveArgs.isHorizontal (c : MoveArgs) : Bool := c.yi == c.yf

/-- `continueLoop`. -/
def continueLoop (xi xf yi yf : UInt16) (isHorizontal : Bool) (scanCode : UInt8) : Bool :=
  if scanCode = 0x81 then false
  else if isHorizontal && xi ≥ xf then false
  else if !isHorizontal && yi ≥ yf then false
  else true

/-- The condition of the loop of `xpm_move`. -/
def Moving (c : MoveArgs) (s : MoveState) : Prop :=
  continueLoop s.xi c.xf s.yi c.yf c.isHorizontal s.kbd.scanCode = true

instance (c : MoveArgs) : DecidablePred (Moving c) := fun _ => inferInstanceAs (Decidable (_ = true))

/-- `vg_draw_rectangle(prevX, prevY, img_width, img_height, 0x00000000)`. -/
def erase (scr : Screen) (s : MoveState) : MoveState :=
  { s with video := { s.video with
      videoMem := vgDrawRectangle scr s.video.videoMem s.prevX s.prevY s.video.imgWidth s.video.imgHeight 0 } }

/-- `xpm_drawer(xpm, xi, yi)`. -/
def draw (p : Pixmaps) (scr : Screen) (c : MoveArgs) (s : MoveState) : MoveState :=
  { s with video := xpmDrawer p scr c.xpm s.xi s.yi s.video.videoMem }

/-- What follows `xi += speed`: every `frames` interrupts the picture is erased where it was drawn last, and drawn. -/
def frame (p : Pixmaps) (scr : Screen) (c : MoveArgs) (s : MoveState) : MoveState × List (UInt16 × UInt16) :=
  if s.totalInterrupts.tmod c.frames = 0 then
    let s := erase scr s
    let s := { s with prevX := s.xi, prevY := s.yi }
    (draw p scr c s, [(s.xi, s.yi)])
  else (s, [])

/-- The timer interrupt, with the positions that it draws at.  The flag tells that it left the `switch`. -/
def timerBranch (p : Pixmaps) (scr : Screen) (c : MoveArgs) (s : MoveState) :
    Bool × MoveState × List (UInt16 × UInt16) :=
  let s := { s with totalInterrupts := s.totalInterrupts + 1 }
  if c.isHorizontal then
    if (s.xi.toNat : Int) + c.speed.toInt > c.xf.toNat then
      let s := { s with xi := c.xf }
      (true, draw p scr c (erase scr s), [(s.xi, s.yi)])
    else (false, frame p scr c { s with xi := UInt16.ofInt (s.xi.toNat + c.speed.toInt) })
  else
    if (s.yi.toNat : Int) + c.speed.toInt > c.yf.toNat then
      let s := { s with yi := c.yf }
      (true, draw p scr c (erase scr s), [(s.xi, s.yi)])
    else (false, frame p scr c { s with yi := UInt16.ofInt (s.yi.toNat + c.speed.toInt) })

/-- The body of the loop of `xpm_move`. -/
def moveBody (p : Pixmaps) (scr : Screen) (c : MoveArgs) (s : MoveState) : Receive → MoveState × List (UInt16 × UInt16)
  | .failed => (s, [])
  | .other => (s, [])
  | .hardware n =>
    let (left, s, draws) := if n.timer then timerBranch p scr c s else (false, s, [])
    if left then (s, draws)
    else if n.keyboard then ({ s with kbd := Lab3.kbcIh n.status n.data s.kbd }, draws)
    else (s, draws)

/-- The state of `xpm_move` before its loop, for the globals it is called with: the picture is drawn once. -/
def moveStart (p : Pixmaps) (scr : Screen) (c : MoveArgs) (totalInterrupts : Int) (kbd : Kbd) (video : Drawn) :
    MoveState :=
  draw p scr c
    { xi := c.xi, yi := c.yi, prevX := c.xi, prevY := c.yi, totalInterrupts := totalInterrupts, kbd := kbd,
      video := video }

/-- The state of `xpm_move` after some notifications, as long as it has not left its loop. -/
def moveRun (p : Pixmaps) (scr : Screen) (c : MoveArgs) (s : MoveState) (rs : List Receive) : MoveState :=
  run (fun s r => (moveBody p scr c s r).1) s rs

/-! ### The axis of the movement -/

/-- The move is along one axis, and forward. -/
def MoveArgs.Straight (c : MoveArgs) : Prop :=
  c.yi = c.yf ∧ c.xi.toNat ≤ c.xf.toNat ∨ c.xi = c.xf ∧ c.yi.toNat ≤ c.yf.toNat

/-- The coordinates along the axis of the movement and across it. -/
def MoveState.along (s : MoveState) (isHorizontal : Bool) : UInt16 := if isHorizontal then s.xi else s.yi

def MoveState.across (s : MoveState) (isHorizontal : Bool) : UInt16 := if isHorizontal then s.yi else s.xi

def MoveState.setAlong (s : MoveState) (isHorizontal : Bool) (z : UInt16) : MoveState :=
  if isHorizontal then { s with xi := z } else { s with yi := z }

/-- Where the movement starts and ends along its axis, and where it is across it. -/
def MoveArgs.source (c : MoveArgs) : UInt16 := if c.isHorizontal then c.xi else c.yi

def MoveArgs.goal (c : MoveArgs) : UInt16 := if c.isHorizontal then c.xf else c.yf

def MoveArgs.lane (c : MoveArgs) : UInt16 := if c.isHorizontal then c.yi else c.xi

/-- The point of the path at a coordinate along the axis. -/
def MoveArgs.place (c : MoveArgs) (z : UInt16) : UInt16 × UInt16 :=
  if c.isHorizontal then (z, c.lane) else (c.lane, z)

section Axis

variable {s : MoveState} {c : MoveArgs} {h : Bool} {z : UInt16}

@[simp] theorem along_setAlong : (s.setAlong h z).along h = z := by cases h <;> rfl

@[simp] theorem across_setAlong : (s.setAlong h z).across h = s.across h := by cases h <;> rfl

@[simp] theorem setAlong_kbd : (s.setAlong h z).kbd = s.kbd := by cases h <;> rfl

@[simp] theorem setAlong_video : (s.setAlong h z).video = s.video := by cases h <;> rfl

@[simp] theorem setAlong_totalInterrupts : (s.setAlong h z).totalInterrupts = s.totalInterrupts := by cases h <;> rfl

@[simp] theorem setAlong_prevX : (s.setAlong h z).prevX = s.prevX := by cases h <;> rfl

@[simp] theorem setAlong_prevY : (s.setAlong h z).prevY = s.prevY := by cases h <;> rfl

theorem MoveArgs.Straight.source_le (hc : c.Straight) : c.source.toNat ≤ c.goal.toNat := by
  unfold MoveArgs.source MoveArgs.goal MoveArgs.isHorizontal
  rcases hc with ⟨hy, hx⟩ | ⟨hx, hy⟩
  · simpa [hy] using hx
  · by_cases h : c.yi = c.yf
    · simp [h, hx]
    · simpa [h] using hy

/-- On its lane the state is at a point of the path. -/
theorem place_along (hlane : s.across c.isHorizontal = c.lane) : (s.xi, s.yi) = c.place (s.along c.isHorizontal) := by
  unfold MoveState.across at hlane
  unfold MoveArgs.place MoveState.along
  cases h : c.isHorizontal with
  | true => simpa [h] using hlane
  | false => simpa [h] using hlane

theorem moving_iff :
    Moving c s ↔ s.kbd.scanCode ≠ escBreakCode ∧ (s.along c.isHorizontal).toNat < c.goal.toNat := by
  unfold Moving continueLoop MoveState.along MoveArgs.goal escBreakCode
  cases c.isHorizontal with
  | true => by_cases h : s.kbd.scanCode = 0x81 <;> simp [h, UInt16.lt_iff_toNat_lt]
  | false => by_cases h : s.kbd.scanCode = 0x81 <;> simp [h, UInt16.lt_iff_toNat_lt]

end Axis

/-! ### What a timer interrupt does -/

section Timer

variable {p : Pixmaps} {scr : Screen} {c : MoveArgs} {s : MoveState}

/-- The coordinate that the interrupt would move to, as an `int`. -/
def ahead (c : MoveArgs) (s : MoveState) : Int := (s.along c.isHorizontal).toNat + c.speed.toInt

/-- The interrupt counted, and the coordinate set. -/
def stepped (c : MoveArgs) (s : MoveState) (z : UInt16) : MoveState :=
  { s with totalInterrupts := s.totalInterrupts + 1 }.setAlong c.isHorizontal z

theorem timerBranch_eq :
    timerBranch p scr c s =
      if ahead c s > c.goal.toNat then
        (true, draw p scr c (erase scr (stepped c s c.goal)), [((stepped c s c.goal).xi, (stepped c s c.goal).yi)])
      else (false, frame p scr c (stepped c s (UInt16.ofInt (ahead c s)))) := by
  unfold timerBranch ahead stepped MoveArgs.goal MoveState.along MoveState.setAlong
  cases c.isHorizontal with
  | true => simp only [↓reduceIte]
  | false => simp only [Bool.false_eq_true, ↓reduceIte]

@[simp] theorem frame_along (h : Bool) : (frame p scr c s).1.along h = s.along h := by
  unfold frame
  split <;> rfl

@[simp] theorem frame_across (h : Bool) : (frame p scr c s).1.across h = s.across h := by
  unfold frame
  split <;> rfl

@[simp] theorem frame_kbd : (frame p scr c s).1.kbd = s.kbd := by
  unfold frame
  split <;> rfl

theorem timerBranch_left : (timerBranch p scr c s).1 = true ↔ ahead c s > c.goal.toNat := by
  rw [timerBranch_eq]
  split <;> simp_all

theorem timerBranch_along : (timerBranch p scr c s).2.1.along c.isHorizontal =
    if ahead c s > c.goal.toNat then c.goal else UInt16.ofInt (ahead c s) := by
  rw [timerBranch_eq]
  split
  · exact along_setAlong
  · exact (frame_along _).trans along_setAlong

theorem timerBranch_across : (timerBranch p scr c s).2.1.across c.isHorizontal = s.across c.isHorizontal := by
  rw [timerBranch_eq]
  split
  · exact across_setAlong
  · exact (frame_across _).trans across_setAlong

private theorem timerBranch_kbd : (timerBranch p scr c s).2.1.kbd = s.kbd := by
  rw [timerBranch_eq]
  split
  · exact setAlong_kbd
  · exact frame_kbd.trans setAlong_kbd

end Timer

/-! ### What a notification does -/

/-- The keyboard branch, where the body comes to it. -/
def hear (s : MoveState) (r : Receive) : MoveState :=
  match keyboardPair r with
  | some q => { s with kbd := Lab3.kbcIh q.1 q.2 s.kbd }
  | none => s

section Body

variable {p : Pixmaps} {scr : Screen} {c : MoveArgs} {s : MoveState}

@[simp] theorem hear_along (r : Receive) (h : Bool) : (hear s r).along h = s.along h := by
  unfold hear
  split <;> rfl

@[simp] theorem hear_across (r : Receive) (h : Bool) : (hear s r).across h = s.across h := by
  unfold hear
  split <;> rfl

theorem moveBody_eq (r : Receive) :
    moveBody p scr c s r =
      if r.timer then
        if (timerBranch p scr c s).1 then (timerBranch p scr c s).2
        else (hear (timerBranch p scr c s).2.1 r, (timerBranch p scr c s).2.2)
      else (hear s r, []) := by
  cases r with
  | failed => rfl
  | other => rfl
  | hardware n =>
    have htimer : (Receive.hardware n).timer = n.timer := rfl
    simp only [moveBody, hear, keyboardPair, htimer]
    by_cases ht : n.timer
    · simp only [ht, ↓reduceIte]
      split
      · rfl
      · split <;> rfl
    · simp only [ht, Bool.false_eq_true, ↓reduceIte]
      split <;> rfl

private theorem hear_scanCode_iff {rs : List Receive} (hs : s.kbd.scanCode ≠ escBreakCode)
    (hno : ¬ ∃ q ∈ rs.filterMap keyboardPair, EscReleased q) (r : Receive) :
    (hear s r).kbd.scanCode = escBreakCode ↔ ∃ q ∈ (rs ++ [r]).filterMap keyboardPair, EscReleased q := by
  rw [List.filterMap_append]
  unfold hear
  cases hr : keyboardPair r with
  | none =>
    rw [List.filterMap_cons_none hr, List.filterMap_nil, List.append_nil]
    exact iff_of_false hs hno
  | some q =>
    have hkbd := not_iff_not.1 (reading_kbcIh (s := s.kbd) hs q)
    simp only [List.filterMap_cons_some hr, List.filterMap_nil, List.mem_append, List.mem_singleton, or_and_right,
      exists_or, hno, exists_eq_left, false_or]
    exact hkbd

end Body

/-! ### Gliding to the goal -/

/-- The timer notifications received. -/
def ticks (rs : List Receive) : Nat := rs.countP Receive.timer

/-- `ESC` has been released. -/
def EscHeard (rs : List Receive) : Prop := ∃ q ∈ rs.filterMap keyboardPair, EscReleased q

theorem ticks_concat_timer {r : Receive} (h : r.timer = true) (rs : List Receive) :
    ticks (rs ++ [r]) = ticks rs + 1 := by
  rw [ticks, List.countP_append, List.countP_singleton, if_pos h, ticks]

theorem ticks_concat_other {r : Receive} (h : r.timer ≠ true) (rs : List Receive) : ticks (rs ++ [r]) = ticks rs := by
  rw [ticks, List.countP_append, List.countP_singleton, if_neg h, ticks, Nat.add_zero]

/-- `speed` as a number of pixels. -/
def MoveArgs.pixels (c : MoveArgs) : Nat := c.speed.toInt.toNat

theorem MoveArgs.pixels_pos (c : MoveArgs) (hspeed : 1 ≤ c.speed.toInt) : 0 < c.pixels := by
  unfold MoveArgs.pixels
  omega

/-- The number of steps to the goal. -/
def MoveArgs.steps (c : MoveArgs) : Nat := (c.goal.toNat - c.source.toNat) ⌈/⌉ c.pixels

/-- The state after the notifications `rs`: the coordinate has glided one step for each timer notification, and as long
as it is below the goal, `scanCode` tells whether `ESC` was released. -/
structure Travels (c : MoveArgs) (rs : List Receive) (s : MoveState) : Prop where
  along : (s.along c.isHorizontal).toNat = position c.goal.toNat c.source.toNat c.pixels (ticks rs)
  across : s.across c.isHorizontal = c.lane
  esc : (s.along c.isHorizontal).toNat < c.goal.toNat → (s.kbd.scanCode = escBreakCode ↔ EscHeard rs)

theorem toNat_ofInt16 (z : Int) : ((UInt16.ofInt z).toNat : Int) = z % 65536 := by
  rw [UInt16.ofInt, UInt16.toNat_ofNat']
  omega

section Glide

variable {p : Pixmaps} {scr : Screen} {c : MoveArgs}

theorem Travels.start (hc : c.Straight) {kbd : Kbd} (hkbd : kbd.scanCode ≠ escBreakCode) (totalInterrupts : Int)
    (video : Drawn) : Travels c [] (moveStart p scr c totalInterrupts kbd video) where
  along := (position_zero hc.source_le _).symm
  across := rfl
  esc := fun _ => iff_of_false hkbd (by simp [EscHeard])

theorem ahead_eq (hspeed : 1 ≤ c.speed.toInt) (s : MoveState) :
    ahead c s = ((s.along c.isHorizontal).toNat + c.pixels : Nat) := by
  have hpixels : (c.pixels : Int) = c.speed.toInt := Int.toNat_of_nonneg (by omega)
  rw [ahead, Nat.cast_add, hpixels]

/-- A step that does not go beyond the goal does not wrap. -/
theorem timerBranch_glides (hspeed : 1 ≤ c.speed.toInt) {s : MoveState} :
    ((timerBranch p scr c s).2.1.along c.isHorizontal).toNat =
      min c.goal.toNat ((s.along c.isHorizontal).toNat + c.pixels) := by
  have hgoal := c.goal.toNat_lt
  rw [timerBranch_along, ahead_eq hspeed]
  split
  · next h => omega
  · next h =>
    have hwrap := toNat_ofInt16 ((s.along c.isHorizontal).toNat + c.pixels : Nat)
    omega

theorem Travels.step (hspeed : 1 ≤ c.speed.toInt) (rs : List Receive) (r : Receive) (s : MoveState) (h : Travels c rs s)
    (hmoving : Moving c s) : Travels c (rs ++ [r]) (moveBody p scr c s r).1 := by
  obtain ⟨hscan, hlt⟩ := moving_iff.1 hmoving
  have hno : ¬ EscHeard rs := mt (h.esc hlt).2 hscan
  rw [moveBody_eq]
  by_cases ht : r.timer = true
  · have halong : ((timerBranch p scr c s).2.1.along c.isHorizontal).toNat =
        position c.goal.toNat c.source.toNat c.pixels (ticks (rs ++ [r])) := by
      rw [timerBranch_glides hspeed, h.along, ticks_concat_timer ht, position_succ (Nat.zero_le _)]
    simp only [ht, ↓reduceIte]
    by_cases hleft : (timerBranch p scr c s).1 = true
    · -- the coordinate is at the goal, and the keyboard has not been looked at
      simp only [hleft, ↓reduceIte]
      refine ⟨halong, timerBranch_across.trans h.across, fun hbelow => ?_⟩
      rw [timerBranch_along, if_pos (timerBranch_left.1 hleft)] at hbelow
      omega
    · simp only [hleft, Bool.false_eq_true, ↓reduceIte]
      refine ⟨?_, ?_, fun _ => ?_⟩
      · rw [hear_along, halong]
      · rw [hear_across, timerBranch_across, h.across]
      · exact hear_scanCode_iff (by rwa [timerBranch_kbd]) hno r
  · simp only [ht, Bool.false_eq_true, ↓reduceIte]
    refine ⟨?_, ?_, fun _ => hear_scanCode_iff hscan hno r⟩
    · rw [hear_along, h.along, ticks_concat_other ht]
    · rw [hear_across, h.across]

theorem Travels.moving_iff (hspeed : 1 ≤ c.speed.toInt) {rs : List Receive} {s : MoveState} (h : Travels c rs s) :
    Moving c s ↔ ¬ (EscHeard rs ∨ c.steps ≤ ticks rs) := by
  have hpixels := c.pixels_pos hspeed
  have hlt : (s.along c.isHorizontal).toNat < c.goal.toNat ↔ ticks rs < c.steps := by
    rw [h.along, position_lt_iff hpixels, MoveArgs.steps]
  rw [Lab5.moving_iff, not_or, Nat.not_le, ← hlt]
  constructor
  · rintro ⟨hscan, hbelow⟩
    exact ⟨mt (h.esc hbelow).2 hscan, hbelow⟩
  · rintro ⟨hno, hbelow⟩
    exact ⟨mt (h.esc hbelow).1 hno, hbelow⟩

/-- The moving coordinate is at `min(goal, source + k * speed)` after `k` timer notifications, the other one does not
change, and the loop leaves right after as many timer notifications as there are steps to the goal, or the release of
`ESC`. -/
theorem xpmMove_reaches_goal (hc : c.Straight) (hspeed : 1 ≤ c.speed.toInt) {kbd : Kbd}
    (hkbd : kbd.scanCode ≠ escBreakCode) (p : Pixmaps) (scr : Screen) (totalInterrupts : Int) (video : Drawn)
    (rs : List Receive) :
    let s := moveStart p scr c totalInterrupts kbd video
    LeavesAtFirst (Moving c) (moveBody p scr c) s (fun pre => EscHeard pre ∨ c.steps ≤ ticks pre) rs ∧
      ∀ pre, pre <+: taken (Moving c) (moveBody p scr c) s rs →
        let s' := moveRun p scr c s pre
        (s'.along c.isHorizontal).toNat = min c.goal.toNat (c.source.toNat + ticks pre * c.pixels) ∧
          s'.across c.isHorizontal = c.lane := by
  intro s
  have hstart : Travels c [] s := Travels.start hc hkbd totalInterrupts video
  refine ⟨leavesAtFirst_of_invariant hstart (Travels.step hspeed) (fun _ _ h => h.moving_iff hspeed) rs,
    fun pre hpre => ?_⟩
  have h : Travels c pre (moveRun p scr c s pre) :=
    taken_invariant (Travels.step hspeed) hstart rs pre hpre
  exact ⟨h.along, h.across⟩

end Glide

/-- Thirty frames a second. -/
def thirty : FrRate := ⟨30, by decide, by decide⟩

/-- Five pixels to the right at the end of the 16-bit coordinates, in steps of four. -/
def edgeRight : MoveArgs where
  xpm := twoPixels
  xi := 65530
  yi := 100
  xf := 65535
  yf := 100
  speed := 4
  frRate := thirty

/-- A timer notification. -/
def tick : Receive := .hardware ⟨1, 0, 0⟩

def blackVideo : Drawn := ⟨fun _ => 0, 0, 0⟩

theorem edgeRight_reaches_goal :
    let s := moveStart samplePixmaps screen105 edgeRight 0 start blackVideo
    LeavesAtFirst (Moving edgeRight) (moveBody samplePixmaps screen105 edgeRight) s
        (fun pre => EscHeard pre ∨ edgeRight.steps ≤ ticks pre) [tick, .other, tick, tick] ∧
      ∀ pre, pre <+: taken (Moving edgeRight) (moveBody samplePixmaps screen105 edgeRight) s
          [tick, .other, tick, tick] →
        let s' := moveRun samplePixmaps screen105 edgeRight s pre
        (s'.along edgeRight.isHorizontal).toNat =
            min edgeRight.goal.toNat (edgeRight.source.toNat + ticks pre * edgeRight.pixels) ∧
          s'.across edgeRight.isHorizontal = edgeRight.lane :=
  xpmMove_reaches_goal (Or.inl (by decide)) (by decide) (by decide) _ _ _ _ _

end LabChase.Lab5
