import LabChase.Lab4.Mouse

/-!
# The gesture of `mouse_test_gesture`

The loop of `mouse_test_gesture` sums the horizontal displacement of a stroke with the left button in `started` and of
one with the right button in `peak`, and leaves when both are nonzero.  It is never left: the branch for the right
button has an `else` that clears both sums, and every stroke with the left button takes it in the same notification.
So `started` is zero at the end of each notification (`gestureChecks_started`), whatever the packets are
(`gesture_never_recognised`).
-/

namespace LabChase.Lab4

open Runs Loops

/-- The state of `mouse_test_gesture`. -/
structure Gesture where
  mouse : PacketLocals
  started : Int
  peak : Int

/-- What the loop prints: packets, and the message that the gesture has been seen. -/
inductive GesturePrint where
  | packet (pp : Packet)
  | greatSuccess

/-- `a / (double) b <= k` for numbers of a few bits, whose quotients are compared without rounding; a division by zero
gives an infinity with the sign of `a`, or for `a = 0` no number. -/
def QuotientLe (a b k : Int) : Prop := if 0 < b then a ≤ k * b else if b < 0 then k * b ≤ a else a < 0

instance (a b k : Int) : Decidable (QuotientLe a b k) :=
  inferInstanceAs (Decidable (if 0 < b then a ≤ k * b else if b < 0 then k * b ≤ a else a < 0))

/-- The slope of the displacement, give or take the tolerance, is at most `k`. -/
def SlopeLe (tolerance : UInt8) (pp : Packet) (k : Int) : Prop :=
  QuotientLe (pp.deltaY + tolerance.toNat) (pp.deltaX - tolerance.toNat) k ∨
    QuotientLe (pp.deltaY - tolerance.toNat) (pp.deltaX + tolerance.toNat) k

instance (tolerance : UInt8) (pp : Packet) (k : Int) : Decidable (SlopeLe tolerance pp k) :=
  inferInstanceAs (Decidable (_ ∨ _))

/-- The left button alone is down. -/
def leftStroke (tolerance : UInt8) (pp : Packet) (s : Gesture) : Gesture :=
  if pp.lb && !pp.rb && !pp.mb then
    if s.started ≠ 0 then
      if SlopeLe tolerance pp 1 then { s with started := 0 } else s
    else { s with started := s.started + pp.deltaX }
  else s

/-- All buttons are up after a left stroke shorter than `x_len`. -/
def shortLeftStroke (xLen : UInt8) (pp : Packet) (s : Gesture) : Gesture :=
  if (!pp.lb && !pp.mb && !pp.rb) ∧ s.started > 0 ∧ s.started < xLen.toNat then { s with started := 0 } else s

/-- The right button alone is down, or not. -/
def rightStroke (tolerance : UInt8) (pp : Packet) (s : Gesture) : Gesture :=
  if pp.rb && !pp.lb && !pp.mb then
    if s.peak ≠ 0 then
      if SlopeLe tolerance pp (-1) then { s with peak := 0, started := 0 } else s
    else { s with peak := s.peak + pp.deltaX }
  -- every other state of the buttons comes here, the left button alone too
  else { s with started := 0, peak := 0 }

/-- All buttons are up after a right stroke shorter than `x_len`. -/
def shortRightStroke (xLen : UInt8) (pp : Packet) (s : Gesture) : Gesture :=
  if (!pp.lb && !pp.mb && !pp.rb) ∧ s.peak > 0 ∧ s.peak < xLen.toNat then { s with started := 0, peak := 0 } else s

/-- The conditionals of the loop, in order. -/
def gestureChecks (xLen tolerance : UInt8) (pp : Packet) (s : Gesture) : Gesture :=
  shortRightStroke xLen pp (rightStroke tolerance pp (shortLeftStroke xLen pp (leftStroke tolerance pp s)))

/-- A hardware notification; the conditionals are run also if it brings no packet. -/
def gestureNotification (xLen tolerance : UInt8) (s : Gesture) (n : Notification) : Gesture × List GesturePrint :=
  let (mouse, printed) := if n.mouse then mouseInterrupt (n.status, n.data) s.mouse else (s.mouse, none)
  let s := gestureChecks xLen tolerance mouse.pp { s with mouse := mouse }
  (s, printed.toList.map .packet ++ if s.peak ≠ 0 ∧ s.started ≠ 0 then [.greatSuccess] else [])

/-- The body of the loop of `mouse_test_gesture`. -/
def gestureBody (xLen tolerance : UInt8) (s : Gesture) : Receive → Gesture × List GesturePrint
  | .failed => (s, [])
  | .other => (s, [])
  | .hardware n => gestureNotification xLen tolerance s n

/-- The condition of the loop of `mouse_test_gesture`. -/
def Unrecognised (s : Gesture) : Prop := ¬ (s.started ≠ 0 ∧ s.peak ≠ 0)

instance : DecidablePred Unrecognised := fun _ => inferInstanceAs (Decidable (¬ _))

/-- The state before the loop; `pp` and `counter` are never initialised, the global byte is. -/
def gestureStart (pp : Packet) (counter : UInt8) : Gesture := ⟨⟨pp, counter, 0⟩, 0, 0⟩

def gestureTaken (xLen tolerance : UInt8) (pp : Packet) (counter : UInt8) (rs : List Receive) : List Receive :=
  taken Unrecognised (gestureBody xLen tolerance) (gestureStart pp counter) rs

def gestureWritten (xLen tolerance : UInt8) (pp : Packet) (counter : UInt8) (rs : List Receive) : List GesturePrint :=
  written Unrecognised (gestureBody xLen tolerance) (gestureStart pp counter) rs

def gestureFinal (xLen tolerance : UInt8) (pp : Packet) (counter : UInt8) (rs : List Receive) : Gesture :=
  final Unrecognised (gestureBody xLen tolerance) (gestureStart pp counter) rs

/-! ### The left stroke is always forgotten -/

section Checks

variable (xLen tolerance : UInt8) (pp : Packet) (s : Gesture)

private theorem leftStroke_of_rb (h : pp.rb) : leftStroke tolerance pp s = s := by
  simp [leftStroke, h]

private theorem shortLeftStroke_started : (shortLeftStroke xLen pp s).started = s.started ∨
    (shortLeftStroke xLen pp s).started = 0 := by
  unfold shortLeftStroke
  split
  · exact Or.inr rfl
  · exact Or.inl rfl

private theorem rightStroke_started : (rightStroke tolerance pp s).started = 0 ∨
    (pp.rb ∧ (rightStroke tolerance pp s).started = s.started) := by
  unfold rightStroke
  split
  · rename_i hright
    have hrb : pp.rb := by
      simp only [Bool.and_eq_true] at hright
      exact hright.1.1
    split
    · split
      · exact Or.inl rfl
      · exact Or.inr ⟨hrb, rfl⟩
    · exact Or.inr ⟨hrb, rfl⟩
  · exact Or.inl rfl

private theorem shortRightStroke_started (h : s.started = 0) : (shortRightStroke xLen pp s).started = 0 := by
  unfold shortRightStroke
  split
  · rfl
  · exact h

/-- What the conditionals leave in `started`: a left stroke takes the `else` of the right button. -/
theorem gestureChecks_started {s : Gesture} (h : s.started = 0) : (gestureChecks xLen tolerance pp s).started = 0 := by
  unfold gestureChecks
  apply shortRightStroke_started
  rcases rightStroke_started tolerance pp (shortLeftStroke xLen pp (leftStroke tolerance pp s)) with
    hzero | ⟨hrb, hkeep⟩
  · exact hzero
  · rw [hkeep, leftStroke_of_rb tolerance pp s hrb]
    rcases shortLeftStroke_started xLen pp s with hsame | hzero
    · rw [hsame, h]
    · exact hzero

end Checks

theorem gestureBody_started (xLen tolerance : UInt8) {s : Gesture} (h : s.started = 0) (r : Receive) :
    (gestureBody xLen tolerance s r).1.started = 0 ∧
      GesturePrint.greatSuccess ∉ (gestureBody xLen tolerance s r).2 := by
  cases r with
  | failed => exact ⟨h, List.not_mem_nil⟩
  | other => exact ⟨h, List.not_mem_nil⟩
  | hardware n =>
    have hchecks : ∀ m : PacketLocals,
        (gestureChecks xLen tolerance m.pp { s with mouse := m }).started = 0 := fun m =>
      gestureChecks_started xLen tolerance m.pp h
    simp only [gestureBody, gestureNotification]
    refine ⟨hchecks _, ?_⟩
    simp only [hchecks, ne_eq, not_true_eq_false, and_false, ↓reduceIte, List.append_nil, List.mem_map,
      reduceCtorEq, exists_false, not_false_eq_true]

private theorem unrecognised_of_started {s : Gesture} (h : s.started = 0) : Unrecognised s := fun hs => hs.1 h

/-- Whatever is received, the loop goes on and says nothing of a gesture. -/
theorem gestureFinal_unrecognised (xLen tolerance : UInt8) (pp : Packet) (counter : UInt8) (rs : List Receive) :
    Unrecognised (gestureFinal xLen tolerance pp counter rs) ∧ gestureTaken xLen tolerance pp counter rs = rs ∧
      GesturePrint.greatSuccess ∉ gestureWritten xLen tolerance pp counter rs := by
  have hfinal : Unrecognised (gestureFinal xLen tolerance pp counter rs) := by
    apply unrecognised_of_started
    exact run_invariant (I := fun s : Gesture => s.started = 0)
      (fun s r h => (gestureBody_started xLen tolerance h r).1) rfl _
  refine ⟨hfinal, taken_of_guard_final hfinal, ?_⟩
  have hsilent : ∀ (s : Gesture) (is : List Receive), s.started = 0 →
      GesturePrint.greatSuccess ∉ outputs (gestureBody xLen tolerance) s is := by
    intro s is
    induction is generalizing s with
    | nil => exact fun _ => List.not_mem_nil
    | cons r is ih =>
      intro h
      obtain ⟨hstarted, hno⟩ := gestureBody_started xLen tolerance h r
      rw [outputs, List.mem_append, not_or]
      exact ⟨hno, ih _ hstarted⟩
  exact hsilent _ _ rfl

/-- The gesture is never recognised: no sequence of receives makes the function return. -/
theorem gesture_never_recognised (xLen tolerance : UInt8) (pp : Packet) (counter : UInt8) :
    ¬ ∃ rs, ¬ Unrecognised (gestureFinal xLen tolerance pp counter rs) := by
  rintro ⟨rs, hleft⟩
  exact hleft (gestureFinal_unrecognised xLen tolerance pp counter rs).1

/-- With no length to reach and no tolerance, the loop is never left either. -/
theorem gesture_unreachable :
    ¬ ∃ rs, ¬ Unrecognised (gestureFinal 0 0 ⟨fun _ => 0, false, false, false, 0, 0, false, false⟩ 0 rs) :=
  fun ⟨rs, hleft⟩ => hleft (gestureFinal_unrecognised 0 0 _ 0 rs).1

end LabChase.Lab4
