import LabChase.Proj.Collision
import LabChase.Proj.NextMove

/-!
# The game the loop plays

From wait to wait the loops of `S_GAME` and `PAUSE` do to the players and the framebuffer what a list of commands does
(`handle_turns_video`), so what holds of sequences of commands holds of the program.  In particular the clear before a
game covers the framebuffer (`cleared_clearScreen`).
-/

namespace LabChase

open FlatMemory Runs

def tickCommand (s : Main) (n : Notification) : List Command := if TickDue s n then [.tick] else []

/-- The remembered move, handed to `move_player` again by a keyboard interrupt. -/
def keyCommand (s : Main) (n : Notification) : List Command :=
  if h : n.keyboard ∧ ((turnOf n.status n.data).getD s.nextMove).dir ≠ .unchanged then
    [.steer ((turnOf n.status n.data).getD s.nextMove).playerColor ⟨_, h.2⟩]
  else []

/-- What a receive does to the players and the framebuffer, in a pause as in a game. -/
def turnCommands (s : Main) : Receive → List Command
  | .failed => []
  | .other => []
  | .hardware n => (if s.screenState = .sGame then tickCommand s n else []) ++ keyCommand s n

theorem turnCommands_game {s : Main} (hs : s.screenState = .sGame) (n : Notification) :
    turnCommands s (.hardware n) = tickCommand s n ++ keyCommand s n := by
  simp only [turnCommands, hs, ↓reduceIte]

theorem runCommands_append (scr : Screen) (v : Video) (cmds cmds' : List Command) :
    runCommands scr v (cmds ++ cmds') = runCommands scr (runCommands scr v cmds) cmds' :=
  run_append _ _ _ _

theorem timerBranch_video (w : World) (n : Notification) (s : Main) :
    (timerBranch w n s).1.video = runCommands w.screen s.video (tickCommand s n) ∧
      (timerBranch w n s).1.nextMove = s.nextMove := by
  by_cases hdue : TickDue s n
  · rw [timerBranch_due w hdue, tickCommand, if_pos hdue]
    exact ⟨rfl, rfl⟩
  · rw [tickCommand, if_neg hdue]
    rcases timerBranch_idle w hdue with h | h <;> rw [h] <;> exact ⟨rfl, rfl⟩

/-- The timer branch leaves the move that the key will hand on. -/
theorem keyCommand_timerBranch (w : World) (n : Notification) (s : Main) :
    keyCommand (timerBranch w n s).1 n = keyCommand s n := by
  simp only [keyCommand, (timerBranch_video w n s).2]

private theorem keyboardBranch_video (w : World) (n : Notification) (s : Main) :
    (keyboardBranch w n s).1.video = runCommands w.screen s.video (keyCommand s n) := by
  by_cases hk : n.keyboard
  · rw [keyboardBranch_key w s hk]
    by_cases hd : ((turnOf n.status n.data).getD s.nextMove).dir = .unchanged
    · have hidle : ¬ MoveDue (afterKey n s) := fun h => h.1 hd
      rw [applyNextMove_idle w hidle]
      simp [keyCommand, hd, runCommands, afterKey]
    · simp only [applyNextMove, afterKey, ne_eq, hd, not_false_eq_true, ↓reduceIte, keyCommand, hk, true_and,
        ↓reduceDIte]
      rfl
  · rw [keyboardBranch_none w s hk]
    simp [keyCommand, hk, runCommands]

theorem handle_turns_video (w : World) {s : Main} (hs : ReadsKeys s.screenState) (r : Receive) :
    (handle w s r).1.video = runCommands w.screen s.video (turnCommands s r) := by
  cases r with
  | failed => rfl
  | other => rfl
  | hardware n =>
    rcases hs with hx | hx
    · rw [turnCommands_game hx, handle_game w hx, keyboardBranch_video, keyCommand_timerBranch,
        (timerBranch_video w n s).1, runCommands_append]
    · simp only [handle, turnCommands, hx, reduceCtorEq, ↓reduceIte, List.nil_append]
      exact keyboardBranch_video w n s

/-- The clear is longer than the framebuffer, so it covers it. -/
theorem cleared_clearScreen (w : World) (v : Video) : Cleared w.screen (clearScreen w v).videoMem := by
  intro a ha
  have hlength := clearBytes_toNat (newVgInit_noWrap w.noOverflow)
  have hlt := (clearBytes w.screen).toNat_lt
  have hcover : w.screen.size ≤ (clearBytes w.screen).toNat := by
    rw [World.screen, hlength]
    exact Nat.le_add_right _ _
  show memcpy v.videoMem 0 (fun _ => 0) (clearBytes w.screen).toNat a = 0
  rw [memcpy_inside (by simpa using hlt.le) (Nat.zero_le _) (by simpa using ha.trans_le hcover)]

end LabChase
