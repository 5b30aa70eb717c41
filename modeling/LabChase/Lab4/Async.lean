import LabChase.Lab4.Mouse
import LabChase.Library.Watchdog

/-!
# The idle timeout of `mouse_test_async`

As `kbd_test_timed_scan`, `mouse_test_async` counts the ticks since the last interrupt of its device, but it serves the
timer first.  A tick that comes with a mouse interrupt is counted and forgotten at once, also the tick that takes
`idle_time` to zero, so what counts are the ticks strictly after the last mouse notification
(`async_leaves_exactly`).
-/

namespace LabChase.Lab4

open Runs Loops Watchdog

/-- The state of `mouse_test_async`. -/
structure TestAsync where
  mouse : PacketLocals
  idleTime : UInt8
  totalInterrupts : Nat

def timerIntHandler (s : TestAsync) : TestAsync := { s with totalInterrupts := s.totalInterrupts + 1 }

/-- A timer interrupt in `mouse_test_async`. -/
def asyncTick (s : TestAsync) : TestAsync :=
  let s := timerIntHandler s
  if s.totalInterrupts % 60 = 0 then { s with idleTime := s.idleTime - 1 } else s

/-- A mouse interrupt in `mouse_test_async`, and the packets given to `mouse_print_packet`. -/
def asyncMouse (init : UInt8) (p : UInt8 × UInt8) (s : TestAsync) : TestAsync × List Packet :=
  let (mouse, printed) := mouseInterrupt p s.mouse
  ({ mouse := mouse, idleTime := init, totalInterrupts := 0 }, printed.toList)

/-- The body of the loop of `mouse_test_async`. -/
def asyncBody (init : UInt8) (s : TestAsync) : Receive → TestAsync × List Packet
  | .failed => (s, [])
  | .other => (s, [])
  | .hardware n =>
    let s := if n.timer then asyncTick s else s
    if n.mouse then asyncMouse init (n.status, n.data) s else (s, [])

/-- The condition of the loop of `mouse_test_async`. -/
def Awake (s : TestAsync) : Prop := s.idleTime > 0

instance : DecidablePred Awake := fun s => inferInstanceAs (Decidable (s.idleTime > 0))

/-- The state before the loop; `pp` is never initialised, the globals are zero. -/
def asyncStart (idleTime : UInt8) (pp : Packet) : TestAsync := ⟨⟨pp, 0, 0⟩, idleTime, 0⟩

def asyncTaken (idleTime : UInt8) (pp : Packet) (rs : List Receive) : List Receive :=
  taken Awake (asyncBody idleTime) (asyncStart idleTime pp) rs

/-- The state of `mouse_test_async` after some receives, as long as it has not left its loop. -/
def asyncRun (idleTime : UInt8) (pp : Packet) (rs : List Receive) : TestAsync :=
  run (fun s r => (asyncBody idleTime s r).1) (asyncStart idleTime pp) rs

/-- The timer notifications strictly after the last mouse notification. -/
def ticksAfterMouse (rs : List Receive) : Nat := (afterLast Receive.mouse rs).countP Receive.timer

def IdleTimedOut (idleTime : UInt8) (rs : List Receive) : Prop := 60 * idleTime.toNat ≤ ticksAfterMouse rs

private theorem ticksAfterMouse_mouse {r : Receive} (h : r.mouse) (rs : List Receive) :
    ticksAfterMouse (rs ++ [r]) = 0 := by
  rw [ticksAfterMouse, afterLast_concat_pos h, List.countP_nil]

private theorem ticksAfterMouse_other {r : Receive} (h : ¬ r.mouse) (rs : List Receive) :
    ticksAfterMouse (rs ++ [r]) = ticksAfterMouse rs + if r.timer then 1 else 0 := by
  rw [ticksAfterMouse, afterLast_concat_neg h, List.countP_append, List.countP_singleton, ticksAfterMouse]

/-- The ticks after the last mouse notification are counted, and `idle_time` is what is left of its periods. -/
structure Idling (idleTime : UInt8) (rs : List Receive) (s : TestAsync) : Prop where
  ticks : s.totalInterrupts = ticksAfterMouse rs
  counts : Counts 60 idleTime s.idleTime s.totalInterrupts

theorem Idling.start (idleTime : UInt8) (pp : Packet) : Idling idleTime [] (asyncStart idleTime pp) where
  ticks := rfl
  counts := Counts.reload 60 idleTime

private theorem Idling.awake_iff {idleTime : UInt8} {rs : List Receive} {s : TestAsync} (h : Idling idleTime rs s) :
    Awake s ↔ ¬ IdleTimedOut idleTime rs := by
  have hzero := h.counts.left_eq_zero_iff (by decide)
  have hpos : s.idleTime > 0 ↔ ¬ s.idleTime = 0 := UInt8.pos_iff_ne_zero
  rw [Awake, IdleTimedOut, hpos, hzero, h.ticks]

@[simp] theorem asyncTick_totalInterrupts (s : TestAsync) :
    (asyncTick s).totalInterrupts = s.totalInterrupts + 1 :=
  (apply_ite TestAsync.totalInterrupts _ _ _).trans (ite_self _)

private theorem asyncTick_idleTime (s : TestAsync) :
    (asyncTick s).idleTime = if (s.totalInterrupts + 1) % 60 = 0 then s.idleTime - 1 else s.idleTime :=
  apply_ite TestAsync.idleTime _ _ _

private theorem asyncTick_counts {idleTime : UInt8} {s : TestAsync}
    (h : Counts 60 idleTime s.idleTime s.totalInterrupts) (hpos : 0 < s.idleTime) :
    Counts 60 idleTime (asyncTick s).idleTime (asyncTick s).totalInterrupts := by
  rw [asyncTick_idleTime, asyncTick_totalInterrupts]
  exact h.tick hpos

theorem Idling.step {idleTime : UInt8} (rs : List Receive) (r : Receive) (s : TestAsync) (h : Idling idleTime rs s)
    (hawake : Awake s) : Idling idleTime (rs ++ [r]) (asyncBody idleTime s r).1 := by
  have hother : r.mouse = false → r.timer = false → Idling idleTime (rs ++ [r]) s := by
    intro hm ht
    refine ⟨?_, h.counts⟩
    rw [ticksAfterMouse_other (by simp [hm]), if_neg (by simp [ht]), Nat.add_zero]
    exact h.ticks
  cases r with
  | failed => exact hother rfl rfl
  | other => exact hother rfl rfl
  | hardware n =>
    simp only [asyncBody]
    by_cases hm : n.mouse
    · -- whatever the timer branch did is forgotten
      have hr : (Receive.hardware n).mouse := hm
      simp only [hm, ↓reduceIte]
      refine ⟨?_, Counts.reload 60 idleTime⟩
      rw [ticksAfterMouse_mouse hr]
      rfl
    · have hr : ¬ (Receive.hardware n).mouse := hm
      simp only [hm, Bool.false_eq_true, ↓reduceIte]
      by_cases ht : n.timer
      · have hrt : (Receive.hardware n).timer := ht
        simp only [ht, ↓reduceIte]
        refine ⟨?_, asyncTick_counts h.counts hawake⟩
        rw [asyncTick_totalInterrupts, ticksAfterMouse_other hr, if_pos hrt, h.ticks]
      · simp only [ht, Bool.false_eq_true, ↓reduceIte]
        exact hother (Bool.eq_false_iff.2 hr) (Bool.eq_false_iff.2 ht)

/-- The idle timeout of the mouse is exact, a mouse interrupt keeps the function running even if it comes with the
deciding tick, and `idle_time` never wraps. -/
theorem async_leaves_exactly (idleTime : UInt8) (pp : Packet) (rs : List Receive) :
    LeavesAtFirst Awake (asyncBody idleTime) (asyncStart idleTime pp) (IdleTimedOut idleTime) rs ∧
      (∀ pre r, pre ++ [r] <+: asyncTaken idleTime pp rs → r.mouse → Awake (asyncRun idleTime pp (pre ++ [r]))) ∧
      ∀ pre, pre <+: asyncTaken idleTime pp rs →
        (asyncRun idleTime pp pre).totalInterrupts = ticksAfterMouse pre ∧
          (asyncRun idleTime pp pre).idleTime.toNat + ticksAfterMouse pre / 60 = idleTime.toNat := by
  have hinv : ∀ pre, pre <+: asyncTaken idleTime pp rs → Idling idleTime pre (asyncRun idleTime pp pre) :=
    taken_invariant Idling.step (Idling.start idleTime pp) rs
  refine ⟨leavesAtFirst_of_invariant (Idling.start idleTime pp) Idling.step (fun _ _ h => h.awake_iff) rs,
    fun pre r hpre hr => ?_, fun pre hpre => ?_⟩
  · have hbefore := hinv pre ((List.prefix_append ..).trans hpre)
    have hawake : 0 < (asyncRun idleTime pp pre).idleTime := guard_of_taken hpre
    have hpos : 0 < idleTime := UInt8.lt_of_lt_of_le hawake hbefore.counts.left_le
    rw [(hinv _ hpre).awake_iff, IdleTimedOut, ticksAfterMouse_mouse hr]
    have hnat : 0 < idleTime.toNat := hpos
    omega
  · have h := hinv pre hpre
    refine ⟨h.ticks, ?_⟩
    rw [← h.ticks]
    exact h.counts

end LabChase.Lab4
