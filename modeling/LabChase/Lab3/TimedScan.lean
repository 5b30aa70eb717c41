import LabChase.Lab3.Keyboard
import LabChase.Library.Watchdog

/-!
# The idle timeout of `kbd_test_timed_scan`

The loop of `kbd_test_timed_scan` hears the keyboard and the timer.  A keyboard interrupt reloads `n` and clears
`totalInterrupts`, then every 60th tick takes one from `n`; both may come in one notification, where the keyboard is
served first.  The loop leaves exactly when `0x81` is accepted or 60 ticks for each of the `n` periods have been counted
since the last keyboard interrupt (`timedScan_leaves_exactly`).
-/

namespace LabChase.Lab3

open Runs Loops Watchdog

/-- The globals, and the local `n`. -/
structure TimedScan where
  kbd : Kbd
  n : UInt8
  totalInterrupts : Nat

def timerIntHandler (s : TimedScan) : TimedScan := { s with totalInterrupts := s.totalInterrupts + 1 }

/-- A keyboard interrupt in `kbd_test_timed_scan`. -/
def timedKeyboard (nInit : UInt8) (p : UInt8 × UInt8) (s : TimedScan) : TimedScan × List PrintScancode :=
  let kbd := kbcIh p.1 p.2 s.kbd
  ({ kbd := kbd, n := nInit, totalInterrupts := 0 }, [printScancode kbd.scanCode])

/-- A timer interrupt in `kbd_test_timed_scan`. -/
def timedTick (s : TimedScan) : TimedScan :=
  let s := timerIntHandler s
  if s.totalInterrupts % 60 = 0 then { s with n := s.n - 1 } else s

/-- The body of the loop of `kbd_test_timed_scan`. -/
def timedBody (nInit : UInt8) (s : TimedScan) : Receive → TimedScan × List PrintScancode
  | .failed => (s, [])
  | .other => (s, [])
  | .hardware notification =>
    let (s, prints) :=
      if notification.keyboard then timedKeyboard nInit (notification.status, notification.data) s else (s, [])
    if notification.timer then (timedTick s, prints) else (s, prints)

/-- The condition of the loop of `kbd_test_timed_scan`. -/
def TimedReading (s : TimedScan) : Prop := s.kbd.scanCode ≠ escBreakCode ∧ s.n > 0

instance : DecidablePred TimedReading := fun _ => inferInstanceAs (Decidable (_ ∧ _))

/-- `scanCode` and `totalInterrupts` are zero as the program starts. -/
def timedStart (n : UInt8) : TimedScan := ⟨start, n, 0⟩

def timedTaken (n : UInt8) (rs : List Receive) : List Receive := taken TimedReading (timedBody n) (timedStart n) rs

/-- The state of `kbd_test_timed_scan` after some receives, as long as it has not left its loop. -/
def timedRun (n : UInt8) (rs : List Receive) : TimedScan := run (fun s r => (timedBody n s r).1) (timedStart n) rs

/-! ### What has been received -/

/-- The timer notifications since the last keyboard notification, which counts if it is both. -/
def ticksSinceKey (rs : List Receive) : Nat := (fromLast Receive.keyboard rs).countP Receive.timer

/-- The release of `ESC` has been accepted, or the keyboard has been idle for `n` times 60 ticks. -/
def TimedOut (n : UInt8) (rs : List Receive) : Prop :=
  (∃ p ∈ rs.filterMap keyboardPair, EscReleased p) ∨ 60 * n.toNat ≤ ticksSinceKey rs

private theorem ticksSinceKey_key {r : Receive} (h : r.keyboard) (rs : List Receive) :
    ticksSinceKey (rs ++ [r]) = if r.timer then 1 else 0 := by
  rw [ticksSinceKey, fromLast_concat_pos h, List.countP_singleton]

private theorem ticksSinceKey_other {r : Receive} (h : ¬ r.keyboard) (rs : List Receive) :
    ticksSinceKey (rs ++ [r]) = ticksSinceKey rs + if r.timer then 1 else 0 := by
  rw [ticksSinceKey, fromLast_concat_neg h, List.countP_append, List.countP_singleton, ticksSinceKey]

/-! ### The invariant of the loop -/

/-- The ticks since the last key are counted, `n` is what is left of its periods, and `scanCode` is `0x81` if that has
been accepted. -/
structure Watched (n : UInt8) (rs : List Receive) (s : TimedScan) : Prop where
  ticks : s.totalInterrupts = ticksSinceKey rs
  counts : Counts 60 n s.n s.totalInterrupts
  esc : s.kbd.scanCode = escBreakCode ↔ ∃ p ∈ rs.filterMap keyboardPair, EscReleased p

theorem Watched.start (n : UInt8) : Watched n [] (timedStart n) where
  ticks := rfl
  counts := Counts.reload 60 n
  esc := by
    simp only [List.filterMap_nil, List.not_mem_nil, false_and, exists_false, iff_false]
    exact reading_start

theorem Watched.reading_iff {n : UInt8} {rs : List Receive} {s : TimedScan} (h : Watched n rs s) :
    TimedReading s ↔ ¬ TimedOut n rs := by
  have hzero := h.counts.left_eq_zero_iff (by decide)
  have hpos : s.n > 0 ↔ ¬ s.n = 0 := UInt8.pos_iff_ne_zero
  rw [TimedReading, TimedOut, ne_eq, h.esc, not_or, hpos, hzero, h.ticks]

@[simp] theorem timedTick_totalInterrupts (s : TimedScan) :
    (timedTick s).totalInterrupts = s.totalInterrupts + 1 :=
  (apply_ite TimedScan.totalInterrupts _ _ _).trans (ite_self _)

@[simp] theorem timedTick_kbd (s : TimedScan) : (timedTick s).kbd = s.kbd :=
  (apply_ite TimedScan.kbd _ _ _).trans (ite_self _)

private theorem timedTick_n (s : TimedScan) :
    (timedTick s).n = if (s.totalInterrupts + 1) % 60 = 0 then s.n - 1 else s.n := apply_ite TimedScan.n _ _ _

private theorem timedTick_counts {n : UInt8} {s : TimedScan} (h : Counts 60 n s.n s.totalInterrupts) (hpos : 0 < s.n) :
    Counts 60 n (timedTick s).n (timedTick s).totalInterrupts := by
  rw [timedTick_n, timedTick_totalInterrupts]
  exact h.tick hpos

/-- What the keyboard branch leaves: a notification without its bit passes through. -/
theorem Watched.keyboard {n : UInt8} {rs : List Receive} {s : TimedScan} (h : Watched n rs s) (hread : TimedReading s)
    (m : Notification) :
    let s' := (if m.keyboard then timedKeyboard n (m.status, m.data) s else (s, [])).1
    0 < s'.n ∧ s'.totalInterrupts = (if m.keyboard then 0 else ticksSinceKey rs) ∧ Counts 60 n s'.n s'.totalInterrupts ∧
      (s'.kbd.scanCode = escBreakCode ↔
        ∃ p ∈ (rs ++ [Receive.hardware m]).filterMap keyboardPair, EscReleased p) := by
  obtain ⟨hesc, hpos⟩ := hread
  by_cases hk : m.keyboard
  · have hpair : keyboardPair (.hardware m) = some (m.status, m.data) := if_pos hk
    have hbefore : ¬ ∃ p ∈ rs.filterMap keyboardPair, EscReleased p := fun hex => hesc (h.esc.2 hex)
    simp only [hk, ↓reduceIte, List.filterMap_append, List.filterMap_cons_some hpair, List.filterMap_nil,
      List.mem_append, List.mem_singleton, or_and_right, exists_or, hbefore, exists_eq_left, false_or]
    refine ⟨UInt8.lt_of_lt_of_le hpos h.counts.left_le, rfl, Counts.reload 60 n, ?_⟩
    exact not_iff_not.1 (reading_kbcIh hesc (m.status, m.data))
  · have hpair : keyboardPair (.hardware m) = none := if_neg hk
    simp only [hk, Bool.false_eq_true, ↓reduceIte, List.filterMap_append, List.filterMap_cons_none hpair,
      List.filterMap_nil, List.append_nil]
    exact ⟨hpos, h.ticks, h.counts, h.esc⟩

theorem Watched.step {n : UInt8} (rs : List Receive) (r : Receive) (s : TimedScan) (h : Watched n rs s)
    (hread : TimedReading s) : Watched n (rs ++ [r]) (timedBody n s r).1 := by
  have hother : r.keyboard = false → r.timer = false → keyboardPair r = none → Watched n (rs ++ [r]) s := by
    intro hk ht hpair
    refine ⟨?_, h.counts, ?_⟩
    · rw [ticksSinceKey_other (by simp [hk]), if_neg (by simp [ht]), Nat.add_zero]
      exact h.ticks
    · rw [List.filterMap_append, List.filterMap_cons_none hpair, List.filterMap_nil, List.append_nil]
      exact h.esc
  cases r with
  | failed => exact hother rfl rfl rfl
  | other => exact hother rfl rfl rfl
  | hardware m =>
    obtain ⟨hpos, hticks, hcounts, hesc⟩ := h.keyboard hread m
    have hsince : ticksSinceKey (rs ++ [.hardware m]) =
        (if m.keyboard then 0 else ticksSinceKey rs) + if m.timer then 1 else 0 := by
      by_cases hk : m.keyboard
      · have hr : (Receive.hardware m).keyboard := hk
        rw [ticksSinceKey_key hr, if_pos hk, Nat.zero_add]
        rfl
      · have hr : ¬ (Receive.hardware m).keyboard := hk
        rw [ticksSinceKey_other hr, if_neg hk]
        rfl
    simp only [timedBody]
    by_cases ht : m.timer
    · simp only [ht, ↓reduceIte] at hsince ⊢
      refine ⟨?_, timedTick_counts hcounts hpos, ?_⟩
      · rw [timedTick_totalInterrupts, hticks, hsince]
      · rw [timedTick_kbd]
        exact hesc
    · simp only [ht, Bool.false_eq_true, ↓reduceIte, Nat.add_zero] at hsince ⊢
      exact ⟨hticks.trans hsince.symm, hcounts, hesc⟩

/-- The idle timeout of the keyboard is exact, and `n` never wraps. -/
theorem timedScan_leaves_exactly (n : UInt8) (rs : List Receive) :
    LeavesAtFirst TimedReading (timedBody n) (timedStart n) (TimedOut n) rs ∧
      ∀ pre, pre <+: timedTaken n rs →
        (timedRun n pre).totalInterrupts = ticksSinceKey pre ∧
          (timedRun n pre).n.toNat + ticksSinceKey pre / 60 = n.toNat := by
  refine ⟨leavesAtFirst_of_invariant (Watched.start n) Watched.step (fun _ _ h => h.reading_iff) rs,
    fun pre hpre => ?_⟩
  have h : Watched n pre (timedRun n pre) := taken_invariant Watched.step (Watched.start n) rs pre hpre
  refine ⟨h.ticks, ?_⟩
  rw [← h.ticks]
  exact h.counts

end LabChase.Lab3
