import LabChase.Proj.NextMove

/-!
# The output buffer of the keyboard controller

The keyboard and the mouse share one buffer, and the controller delivers no byte before the last one was read.  Each
loop reads the buffer at the interrupts of one of the two devices only: the menus at those of the mouse, a game and its
pause at those of the keyboard.  So no byte stays unread exactly if every device is silent on the screens that do not
listen to it (`noByteUnread_iff`), and one unread byte blocks both devices for good (`outBufFull_blocks`).
-/

namespace LabChase

open Runs

/-- A notification of the keyboard or of the mouse: their byte is in the output buffer. -/
def CarriesByte : Receive → Prop
  | .failed => False
  | .other => False
  | .hardware n => n.keyboard ∨ n.mouse

instance : DecidablePred CarriesByte
  | .failed => isFalse id
  | .other => isFalse id
  | .hardware n => inferInstanceAs (Decidable (n.keyboard ∨ n.mouse))

/-- The buffer holds a single byte, so a notification tells of one of the two devices. -/
def OneDevice : Receive → Prop
  | .failed => True
  | .other => True
  | .hardware n => ¬ (n.keyboard ∧ n.mouse)

instance : DecidablePred OneDevice
  | .failed => isTrue trivial
  | .other => isTrue trivial
  | .hardware n => inferInstanceAs (Decidable (¬ (n.keyboard ∧ n.mouse)))

/-- The screens whose loops call `driver_receive`: that of `M_GAME` does not, and `QUIT` has none. -/
def Waits (x : ScreenState) : Prop := x ≠ .mGame ∧ x ≠ .quit

instance (x : ScreenState) : Decidable (Waits x) := inferInstanceAs (Decidable (_ ∧ _))

instance (x : ScreenState) : Decidable (ReadsKeys x) := inferInstanceAs (Decidable (_ ∨ _))

/-- The loop of the screen handles the device of the notification. -/
def Serviced (x : ScreenState) : Receive → Prop
  | .failed => False
  | .other => False
  | .hardware n => (IsMenu x ∧ n.mouse) ∨ (ReadsKeys x ∧ n.keyboard)

/-- The program and the output buffer of the controller. -/
structure Machine where
  main : Main
  outBufFull : Bool

/-- From wait to wait: the notification tells that a byte was put into the buffer, and the program may read it. -/
def Machine.step (w : World) (m : Machine) (r : Receive) : Machine where
  main := (LabChase.step w m.main r).1
  outBufFull := (m.outBufFull || decide (CarriesByte r)) && !decide (.readOutBuf ∈ (LabChase.step w m.main r).2)

def machineRun (w : World) (rs : List Receive) : Machine := run (Machine.step w) ⟨(boot w).1, false⟩ rs

/-- The controller delivers a byte only while its buffer is empty. -/
def Admissible (w : World) : Machine → List Receive → Prop
  | _, [] => True
  | m, r :: rs => (CarriesByte r → OneDevice r ∧ m.outBufFull = false) ∧ Admissible w (m.step w r) rs

instance (w : World) : ∀ m rs, Decidable (Admissible w m rs)
  | _, [] => isTrue trivial
  | m, r :: rs =>
    have : Decidable (Admissible w (m.step w r) rs) := instDecidableAdmissible w (m.step w r) rs
    inferInstanceAs (Decidable (_ ∧ _))

/-- Every byte the controller delivers is read before the program waits again. -/
structure NoByteUnread (w : World) (rs : List Receive) : Prop where
  reads : ∀ pre r, pre ++ [r] <+: rs → Waits (mainRun w pre).screenState → CarriesByte r →
    Action.readOutBuf ∈ (handle w (mainRun w pre) r).2
  empty : ∀ pre, pre <+: rs → Waits (mainRun w pre).screenState → (machineRun w pre).outBufFull = false

/-! ### Which loops read the buffer -/

private theorem menuBranch_reads (w : World) (picture : Option XpmMap) (n : Notification) (s : Main) :
    Action.readOutBuf ∈ (menuBranch w picture n s).2 ↔ n.mouse := by
  unfold menuBranch
  by_cases hm : n.mouse
  · simp only [hm, ↓reduceIte]
    split <;> simp
  · simp [hm]

private theorem keyboardBranch_reads (w : World) (n : Notification) (s : Main) :
    Action.readOutBuf ∈ (keyboardBranch w n s).2 ↔ n.keyboard := by
  unfold keyboardBranch
  by_cases hk : n.keyboard <;> simp [hk]

/-- Handling a notification reads the buffer exactly if the loop of the screen handles its device. -/
private theorem handle_reads (w : World) (s : Main) (r : Receive) :
    Action.readOutBuf ∈ (handle w s r).2 ↔ Serviced s.screenState r := by
  cases r with
  | failed => simp [handle, Serviced]
  | other => simp [handle, Serviced]
  | hardware n =>
    have hkey := keyboardBranch_reads w n
    have htick : Action.readOutBuf ∉ (timerBranch w n s).2 := by
      rw [timerBranch_snd]
      split <;> simp
    cases hx : s.screenState <;> simp only [handle, hx, Serviced]
    case main => simp [menuBranch_reads, IsMenu, ReadsKeys]
    case goOne => simp [menuBranch_reads, IsMenu, ReadsKeys]
    case goTwo => simp [menuBranch_reads, IsMenu, ReadsKeys]
    case pause => simp [hkey, IsMenu, ReadsKeys]
    case sGame => simp [hkey, htick, IsMenu, ReadsKeys]
    case mGame => simp [IsMenu, ReadsKeys]
    case quit => simp [IsMenu, ReadsKeys]

private theorem step_reads (w : World) (s : Main) (r : Receive) :
    Action.readOutBuf ∈ (step w s r).2 ↔ Serviced s.screenState r := by
  have henter : Action.readOutBuf ∉ (enter w (handle w s r).1).2 := enter_ofEntry w _ _
  rw [step_snd, List.mem_append, or_iff_left henter, handle_reads]

private theorem Serviced.carriesByte {x : ScreenState} {r : Receive} (h : Serviced x r) : CarriesByte r := by
  cases r with
  | failed => exact h
  | other => exact h
  | hardware n => exact h.symm.imp And.right And.right

/-- A screen that waits was reached from a screen that waits. -/
private theorem waits_of_step {w : World} {s : Main} {r : Receive} (h : Waits (step w s r).1.screenState) :
    Waits s.screenState := by
  have hnext := handle_screen w s r
  rw [← step_screenState] at hnext
  constructor
  · intro hx
    rw [hx] at hnext
    exact h.1 (List.mem_singleton.1 hnext)
  · intro hx
    rw [hx] at hnext
    exact h.2 (List.mem_singleton.1 hnext)

private theorem machineRun_main (w : World) (rs : List Receive) : (machineRun w rs).main = mainRun w rs := by
  have hrun : ∀ m : Machine, (run (Machine.step w) m rs).main = run (fun s r => (step w s r).1) m.main rs := by
    induction rs with
    | nil => exact fun _ => rfl
    | cons r rs ih => exact fun m => ih (m.step w r)
  exact hrun _

private theorem outBufFull_concat (w : World) (rs : List Receive) (r : Receive) :
    (machineRun w (rs ++ [r])).outBufFull =
      (((machineRun w rs).outBufFull || decide (CarriesByte r)) &&
        !decide (Action.readOutBuf ∈ (step w (mainRun w rs) r).2)) := by
  rw [machineRun, run_concat, ← machineRun, Machine.step, machineRun_main]

/-! ### Unread bytes -/

/-- No byte stays unread exactly if every notification of a device comes on a screen that handles the device. -/
theorem noByteUnread_iff (w : World) (rs : List Receive) :
    NoByteUnread w rs ↔
      ∀ pre r, pre ++ [r] <+: rs → Waits (mainRun w pre).screenState → CarriesByte r →
        Serviced (mainRun w pre).screenState r := by
  constructor
  · intro h pre r hpre hwaits hbyte
    exact (handle_reads w _ r).1 (h.reads pre r hpre hwaits hbyte)
  · intro h
    constructor
    · intro pre r hpre hwaits hbyte
      exact (handle_reads w _ r).2 (h pre r hpre hwaits hbyte)
    · refine prefix_induction (fun _ => rfl) fun pre r hpre ih hwaits => ?_
      rw [mainRun_concat] at hwaits
      have hbefore := waits_of_step hwaits
      rw [outBufFull_concat, ih hbefore, Bool.false_or]
      by_cases hbyte : CarriesByte r
      · have hread := (step_reads w _ r).2 (h pre r hpre hbefore hbyte)
        simp only [hread, decide_true, Bool.not_true, Bool.and_false]
      · simp only [hbyte, decide_false, Bool.false_and]

/-- Once a byte stays unread, the controller delivers no other byte, of either device. -/
theorem outBufFull_blocks {w : World} {m : Machine} (h : m.outBufFull = true) {rs : List Receive}
    (hadm : Admissible w m rs) : (run (Machine.step w) m rs).outBufFull = true ∧ ∀ r ∈ rs, ¬ CarriesByte r := by
  induction rs generalizing m with
  | nil => exact ⟨h, by simp⟩
  | cons r rs ih =>
    obtain ⟨hr, hrest⟩ := hadm
    have hbyte : ¬ CarriesByte r := by
      intro hbyte
      rw [(hr hbyte).2] at h
      exact absurd h (by decide)
    have hread : Action.readOutBuf ∉ (step w m.main r).2 := fun hread => hbyte ((step_reads w _ r).1 hread).carriesByte
    have hfull : (m.step w r).outBufFull = true := by
      simp only [Machine.step, h, hread, Bool.true_or, decide_false, Bool.not_false, Bool.and_self]
    obtain ⟨hfinal, hnone⟩ := ih hfull hrest
    refine ⟨hfinal, fun r' hr' => ?_⟩
    rcases List.mem_cons.1 hr' with rfl | hr'
    · exact hbyte
    · exact hnone r' hr'

/-- The byte of the mouse that follows a click on the button of the game is not read, and neither device ever delivers
another one. -/
theorem release_of_button_unread :
    Admissible (world115 0x12) ⟨(boot (world115 0x12)).1, false⟩ (click ++ [mouseByte 0x08]) ∧
      (mainRun (world115 0x12) click).screenState = .sGame ∧
      ¬ NoByteUnread (world115 0x12) (click ++ [mouseByte 0x08]) ∧
      ∀ rs, Admissible (world115 0x12) (machineRun (world115 0x12) (click ++ [mouseByte 0x08])) rs →
        ∀ r ∈ rs, ¬ CarriesByte r := by
  refine ⟨by decide +kernel, by decide +kernel, fun h => ?_, fun rs hadm => ?_⟩
  · have hread := h.reads click (mouseByte 0x08) List.prefix_rfl (by decide +kernel) (by decide)
    exact absurd hread (by decide +kernel)
  · have hfull : (machineRun (world115 0x12) (click ++ [mouseByte 0x08])).outBufFull = true := by decide +kernel
    exact (outBufFull_blocks hfull hadm).2

end LabChase
