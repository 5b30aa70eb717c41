import LabChase.Proj.Pauses

/-!
# The tempo of the game

The timer interrupts are counted in `S_GAME` only, and every fifth one that is counted moves both players.  So in every
run, over any number of games, pauses and menus, `passive_move_players` is called a fifth as often as a timer
notification is handled in `S_GAME`, and no other notification speeds the game up or slows it down
(`ticks_every_fifth`).
-/

namespace LabChase

open Runs

/-- The timer notifications that the loop of `S_GAME` handles. -/
def countsTimer (s : Main) (r : Receive) : Option Receive :=
  if s.screenState = .sGame ∧ r.timer then some r else none

def gameTimers (w : World) (s : Main) (rs : List Receive) : List Receive :=
  heard (fun s r => (step w s r).1) countsTimer s rs

namespace Command

def isTick : Command → Bool
  | .tick => true
  | .steer _ _ => false

end Command

/-- The ticks among the commands. -/
def ticks (cmds : List Command) : Nat := cmds.countP Command.isTick

@[simp] theorem ticks_nil : ticks [] = 0 := rfl

private theorem ticks_append (cmds cmds' : List Command) : ticks (cmds ++ cmds') = ticks cmds + ticks cmds' :=
  List.countP_append

private theorem ticks_keyCommand (s : Main) (n : Notification) : ticks (keyCommand s n) = 0 := by
  unfold keyCommand
  split <;> rfl

private theorem ticks_tickCommand (s : Main) (n : Notification) :
    ticks (tickCommand s n) = if TickDue s n then 1 else 0 := by
  unfold tickCommand
  split <;> rfl

private theorem count_enter_passive (w : World) (s : Main) : (enter w s).2.count .passiveMovePlayers = 0 :=
  List.count_eq_zero.2 fun h => enter_ofEntry w s _ h

/-- A call of `passive_move_players` is what makes a tick. -/
private theorem ticks_commandsOf (w : World) (s : Main) (r : Receive) :
    ticks (commandsOf s r) = (step w s r).2.count .passiveMovePlayers := by
  have hkey : ∀ n t, (keyboardBranch w n t).2.count .passiveMovePlayers = 0 := by
    intro n t
    unfold keyboardBranch
    split <;> rfl
  have hmenu : ∀ picture n, (menuBranch w picture n s).2.count .passiveMovePlayers = 0 := by
    intro picture n
    rcases menuBranch_cases w picture n s with h | ⟨pp, counter, byte, h | h⟩ <;> rw [h] <;> rfl
  rw [step_snd, List.count_append, count_enter_passive, Nat.add_zero]
  cases r with
  | failed =>
    unfold commandsOf
    split <;> rfl
  | other =>
    unfold commandsOf
    split <;> rfl
  | hardware n =>
    by_cases hs : s.screenState = .sGame
    · rw [commandsOf_game hs, turnCommands_game hs, ticks_append, ticks_tickCommand, ticks_keyCommand, handle_game w hs,
        List.count_append, hkey, timerBranch_snd]
      split <;> rfl
    · rw [commandsOf, if_neg hs, ticks_nil]
      cases hx : s.screenState <;> simp only [handle, hx]
      case main => exact (hmenu _ n).symm
      case goOne => exact (hmenu _ n).symm
      case goTwo => exact (hmenu _ n).symm
      case pause => exact (hkey n s).symm
      case sGame => exact absurd hx hs
      all_goals rfl

private theorem step_calls_passive (w : World) (s : Main) (r : Receive) :
    (step w s r).2.count .passiveMovePlayers =
      if s.screenState = .sGame ∧ r.timer ∧ (s.totalInterrupts + 1) % 5 = 0 then 1 else 0 := by
  rw [← ticks_commandsOf]
  by_cases hs : s.screenState = .sGame
  · rw [commandsOf_game hs]
    cases r with
    | failed => simp [turnCommands, Receive.timer]
    | other => simp [turnCommands, Receive.timer]
    | hardware n =>
      rw [turnCommands_game hs, ticks_append, ticks_tickCommand, ticks_keyCommand, Nat.add_zero]
      simp only [hs, true_and]
      rfl
  · simp [commandsOf, hs]

/-! ### The count of the interrupts -/

/-- The heads of the loops write the framebuffer, the flags and the saved copy, and nothing else. -/
theorem enter_keeps (w : World) (s : Main) :
    ∃ video printed startGame paused saved, (enter w s).1 =
      { s with
        video := video, printed := printed, startGame := startGame, paused := paused, saveGameScreen := saved } := by
  have hmenu : ∀ picture, ∃ video printed startGame, (enterMenu w picture s).1 =
      { s with video := video, printed := printed, startGame := startGame } := by
    intro picture
    unfold enterMenu
    split <;> exact ⟨_, _, _, rfl⟩
  have hnew : ∃ video printed startGame, (enterNewGame w s).1 =
      { s with video := video, printed := printed, startGame := startGame } := by
    unfold enterNewGame
    split <;> exact ⟨_, _, _, rfl⟩
  unfold enter
  split
  case h_1 | h_2 | h_3 =>
    obtain ⟨video, printed, startGame, h⟩ := hmenu _
    exact ⟨video, printed, startGame, s.paused, s.saveGameScreen, h⟩
  case h_4 =>
    unfold enterPause
    split <;> exact ⟨_, _, _, _, _, rfl⟩
  case h_5 =>
    obtain ⟨video, printed, startGame, h⟩ := hnew
    simp only [h]
    unfold enterResumed
    split <;> exact ⟨_, _, _, _, _, rfl⟩
  case h_6 =>
    obtain ⟨video, printed, startGame, h⟩ := hnew
    exact ⟨video, printed, startGame, s.paused, s.saveGameScreen, h⟩
  case h_7 => exact ⟨_, _, _, _, _, rfl⟩

theorem enter_totalInterrupts (w : World) (s : Main) : (enter w s).1.totalInterrupts = s.totalInterrupts := by
  obtain ⟨video, printed, startGame, paused, saved, h⟩ := enter_keeps w s
  rw [h]

private theorem keyboardBranch_totalInterrupts (w : World) (n : Notification) (s : Main) :
    (keyboardBranch w n s).1.totalInterrupts = s.totalInterrupts := by
  have hmove : ∀ t : Main, (applyNextMove w t).totalInterrupts = t.totalInterrupts := by
    intro t
    unfold applyNextMove
    split <;> rfl
  by_cases hk : n.keyboard
  · rw [keyboardBranch_key w s hk]
    exact hmove _
  · rw [keyboardBranch_none w s hk]

theorem timerBranch_totalInterrupts (w : World) (n : Notification) (s : Main) :
    (timerBranch w n s).1.totalInterrupts = if n.timer then s.totalInterrupts + 1 else s.totalInterrupts := by
  by_cases ht : n.timer
  · simp only [timerBranch, ht, ↓reduceIte]
    split <;> rfl
  · simp only [timerBranch, ht, Bool.false_eq_true, ↓reduceIte]

/-- A turn counts a timer interrupt exactly if the loop of `S_GAME` handles one. -/
theorem step_totalInterrupts (w : World) (s : Main) (r : Receive) :
    (step w s r).1.totalInterrupts = s.totalInterrupts + (countsTimer s r).toList.length := by
  have hmenu : ∀ picture n, (menuBranch w picture n s).1.totalInterrupts = s.totalInterrupts := by
    intro picture n
    rcases menuBranch_cases w picture n s with h | ⟨pp, counter, byte, h | h⟩ <;>
      exact congrArg (fun turn => turn.1.totalInterrupts) h
  rw [step_fst, enter_totalInterrupts]
  cases r with
  | failed => simp [handle, countsTimer, Receive.timer]
  | other => simp [handle, countsTimer, Receive.timer]
  | hardware n =>
    cases hx : s.screenState <;> simp only [handle, hx, countsTimer, reduceCtorEq, false_and, ↓reduceIte,
      Option.toList_none, List.length_nil, Nat.add_zero]
    case main => exact hmenu _ n
    case goOne => exact hmenu _ n
    case goTwo => exact hmenu _ n
    case pause => exact keyboardBranch_totalInterrupts w n s
    case sGame =>
      rw [keyboardBranch_totalInterrupts, timerBranch_totalInterrupts]
      by_cases ht : n.timer <;> simp [Receive.timer, ht]

/-- In any run from any state the calls of `passive_move_players` are the multiples of five that the count passes. -/
theorem ticks_run (w : World) (s : Main) (rs : List Receive) :
    let s' := run (fun s r => (step w s r).1) s rs
    s'.totalInterrupts = s.totalInterrupts + (gameTimers w s rs).length ∧
      s'.totalInterrupts / 5 = s.totalInterrupts / 5 + (outputs (step w) s rs).count .passiveMovePlayers := by
  induction rs generalizing s with
  | nil => exact ⟨rfl, rfl⟩
  | cons r rs ih =>
    obtain ⟨htotal, hcalls⟩ := ih (step w s r).1
    have hstep := step_totalInterrupts w s r
    refine ⟨?_, ?_⟩
    · have hcons : gameTimers w s (r :: rs) = (countsTimer s r).toList ++ gameTimers w (step w s r).1 rs := rfl
      rw [run_cons, htotal, hstep, hcons, List.length_append, Nat.add_assoc]
    · have hfirst : (step w s r).1.totalInterrupts / 5 =
          s.totalInterrupts / 5 + (step w s r).2.count .passiveMovePlayers := by
        rw [hstep, step_calls_passive, countsTimer]
        by_cases hcount : s.screenState = .sGame ∧ r.timer
        · simp only [hcount, and_self, ↓reduceIte, Option.toList_some, List.length_singleton, true_and]
          rw [Nat.succ_div]
          simp only [Nat.dvd_iff_mod_eq_zero]
        · have hnone : ¬ (s.screenState = .sGame ∧ r.timer ∧ (s.totalInterrupts + 1) % 5 = 0) :=
            fun h => hcount ⟨h.1, h.2.1⟩
          rw [if_neg hcount, if_neg hnone]
          rfl
      rw [run_cons, hcalls, hfirst, outputs, List.count_append, Nat.add_assoc]

theorem ticks_playedCommands (w : World) (s : Main) (rs : List Receive) :
    ticks (playedCommands w s rs) = (outputs (step w) s rs).count .passiveMovePlayers := by
  induction rs generalizing s with
  | nil => rfl
  | cons r rs ih =>
    have hcons : playedCommands w s (r :: rs) = commandsOf s r ++ playedCommands w (step w s r).1 rs := rfl
    rw [hcons, ticks_append, ticks_commandsOf w, ih, outputs, List.count_append]

private theorem boot_totalInterrupts (w : World) : (boot w).1.totalInterrupts = 0 := by
  rw [boot, enter_totalInterrupts]
  rfl

/-- In every run of the program `passive_move_players` is called for every fifth timer notification of those handled in
`S_GAME`, counted over all games together, and at no other time. -/
theorem ticks_every_fifth (w : World) (rs : List Receive) :
    (mainLog w rs).count .passiveMovePlayers = (gameTimers w (boot w).1 rs).length / 5 ∧
      ∀ r, .passiveMovePlayers ∈ (step w (mainRun w rs) r).2 ↔
        (mainRun w rs).screenState = .sGame ∧ r.timer ∧ 5 ∣ (gameTimers w (boot w).1 rs).length + 1 := by
  obtain ⟨htotal, hcalls⟩ := ticks_run w (boot w).1 rs
  rw [boot_totalInterrupts, Nat.zero_add] at htotal
  have hboot : (boot w).2.count .passiveMovePlayers = 0 := count_enter_passive w _
  constructor
  · rw [htotal, boot_totalInterrupts, Nat.zero_div, Nat.zero_add] at hcalls
    rw [mainLog, List.count_append, hboot, Nat.zero_add, hcalls]
  · intro r
    have hcount : (mainRun w rs).totalInterrupts = (gameTimers w (boot w).1 rs).length := htotal
    rw [← List.count_pos_iff, step_calls_passive, hcount, Nat.dvd_iff_mod_eq_zero]
    split
    case isTrue h => exact iff_of_true Nat.one_pos h
    case isFalse h => exact iff_of_false (Nat.lt_irrefl 0) h

end LabChase
