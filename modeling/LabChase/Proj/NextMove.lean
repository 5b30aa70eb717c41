import LabChase.Proj.Screens

/-!
# The remembered move

`nextMove` is never reset, and every keyboard interrupt in a game or in a pause hands it to `move_player` again.  After
such an interrupt it has no further effect (`applyNextMove_not_due`), and ticks and pauses keep it so; only a new game,
which turns the players, can give an old move effect again (`keys_inert_iff`).  During a pause the same branch runs, so
a turn moves its player under the pause picture (`pause_transparent_iff`).
-/

namespace LabChase

open Runs

/-- The screens whose loops handle the keyboard. -/
def ReadsKeys (x : ScreenState) : Prop := x = .sGame ∨ x = .pause

/-- A keyboard interrupt whose byte is rejected or is no steering code. -/
def Inert (n : Notification) : Prop := n.keyboard ∧ turnOf n.status n.data = none

instance (n : Notification) : Decidable (Inert n) := inferInstanceAs (Decidable (_ ∧ _))

def beforeKey (w : World) (n : Notification) (s : Main) : Main :=
  if s.screenState = .sGame then (timerBranch w n s).1 else s

/-- No keyboard interrupt without a steering code moves or turns a player. -/
def KeysInert (w : World) (s : Main) : Prop :=
  ∀ n, Inert n → ∀ p, (handle w s (.hardware n)).1.video.player p = (beforeKey w n s).video.player p

def StartsGame (w : World) (s : Main) (r : Receive) : Prop :=
  IsMenu s.screenState ∧ (step w s r).1.screenState = .sGame

/-! ### The remembered move has no effect twice -/

private theorem moveDue_congr {s t : Main} (hnext : t.nextMove = s.nextMove)
    (hdir : ∀ p, (t.video.player p).currentDirection = (s.video.player p).currentDirection) :
    MoveDue t ↔ MoveDue s := by
  simp only [MoveDue, Ignored, hnext, hdir]

theorem applyNextMove_not_due (w : World) (s : Main) : ¬ MoveDue (applyNextMove w s) := by
  by_cases h : MoveDue s
  · rw [applyNextMove_enters w h]
    rintro ⟨hd, hig⟩
    refine hig (Or.inl ⟨rfl, ?_⟩)
    rw [Video.enter_player_self, Video.target, stepTo_currentDirection _ hd]
  · rw [applyNextMove_idle w h]
    exact h

private theorem passive_run_currentDirection (scr : Screen) (v : Video) (q p : Player) :
    (((Call.passive q).run scr v).2.player p).currentDirection = (v.player p).currentDirection := by
  rw [passive_run_snd]
  by_cases hd : (v.player q).currentDirection = .unchanged
  · rw [if_pos hd]
  · rw [if_neg hd]
    by_cases hp : p = q
    · subst hp
      rw [Video.enter_player_self, Video.target, stepTo_currentDirection _ hd]
    · rw [v.enter_player_of_ne scr hp]

private theorem passiveMovePlayers_currentDirection (scr : Screen) (v : Video) (p : Player) :
    ((passiveMovePlayers scr v).2.player p).currentDirection = (v.player p).currentDirection := by
  have hblue := passive_run_currentDirection scr v .blue p
  have horange := passive_run_currentDirection scr ((Call.passive .blue).run scr v).2 .orange p
  rw [passiveMovePlayers_eq]
  simp only
  split
  · exact hblue
  · split <;> exact horange.trans hblue

private theorem timerBranch_moveDue_iff (w : World) (n : Notification) (s : Main) :
    MoveDue (timerBranch w n s).1 ↔ MoveDue s := by
  by_cases hdue : TickDue s n
  · rw [timerBranch_due w hdue]
    exact moveDue_congr rfl (passiveMovePlayers_currentDirection w.screen s.video)
  · rcases timerBranch_idle w hdue with h | h <;> rw [h]
    exact moveDue_congr rfl fun _ => rfl

private theorem beforeKey_moveDue_iff (w : World) (n : Notification) (s : Main) :
    MoveDue (beforeKey w n s) ↔ MoveDue s := by
  unfold beforeKey
  split
  · exact timerBranch_moveDue_iff w n s
  · exact Iff.rfl

/-- A byte that is no turn leaves the remembered move as it is. -/
theorem afterKey_moveDue_iff {n : Notification} (h : turnOf n.status n.data = none) (s : Main) :
    MoveDue (afterKey n s) ↔ MoveDue s := by
  refine moveDue_congr ?_ fun _ => rfl
  simp [afterKey, h]

theorem handle_readsKeys {s : Main} (hs : ReadsKeys s.screenState) (w : World) (n : Notification) :
    (handle w s (.hardware n)).1 = (keyboardBranch w n (beforeKey w n s)).1 := by
  rcases hs with hs | hs <;> simp [handle, beforeKey, hs]

/-- An inert interrupt moves a player exactly when the remembered move is due. -/
private theorem keysInert_iff (w : World) {s : Main} (hs : ReadsKeys s.screenState) : KeysInert w s ↔ ¬ MoveDue s := by
  constructor
  · intro hinert hdue
    -- a rejected byte, alone in its notification
    have hn : Inert ⟨0x2, 0, 0⟩ := by decide
    have hbefore : beforeKey w ⟨0x2, 0, 0⟩ s = s := by
      unfold beforeKey
      split <;> rfl
    have hsame := hinert _ hn s.nextMove.playerColor
    have hdue' : MoveDue (afterKey ⟨0x2, 0, 0⟩ s) := (afterKey_moveDue_iff hn.2 s).2 hdue
    have hnext : (afterKey ⟨0x2, 0, 0⟩ s).nextMove = s.nextMove := rfl
    have hvideo : (afterKey ⟨0x2, 0, 0⟩ s).video = s.video := rfl
    rw [handle_readsKeys hs, hbefore, keyboardBranch_key w s hn.1, applyNextMove_enters w hdue', hnext, hvideo] at hsame
    rw [Video.enter_player_self] at hsame
    exact target_ne_player hdue.1 (by rw [hsame])
  · intro hdue n hn p
    have hidle : ¬ MoveDue (afterKey n (beforeKey w n s)) := by
      rw [afterKey_moveDue_iff hn.2, beforeKey_moveDue_iff]
      exact hdue
    rw [handle_readsKeys hs, keyboardBranch_key w _ hn.1, applyNextMove_idle w hidle]
    rfl

private theorem handle_not_due (w : World) {s : Main} (hs : ReadsKeys s.screenState) (h : ¬ MoveDue s) (r : Receive) :
    ¬ MoveDue (handle w s r).1 := by
  cases r with
  | failed => exact h
  | other => exact h
  | hardware n =>
    rw [handle_readsKeys hs]
    by_cases hk : n.keyboard
    · rw [keyboardBranch_key w _ hk]
      exact applyNextMove_not_due w _
    · rw [keyboardBranch_none w _ hk, beforeKey_moveDue_iff]
      exact h

/-! ### A whole run -/

private theorem moveDue_start_iff (scr : Screen) (hour : UInt8) (v : Video) {s : Main}
    (hv : s.video = startGame scr hour v) :
    MoveDue s ↔ s.nextMove.dir = .up ∨ s.nextMove.dir = .down := by
  simp only [MoveDue, Ignored, hv, startGame_player]
  cases s.nextMove.playerColor <;> cases s.nextMove.dir <;> simp [startPosition, opposite]

private theorem step_not_due {w : World} {s : Main} (hflags : FlagsOk s) {r : Receive}
    (h : ReadsKeys s.screenState → ¬ MoveDue s) (hstart : ¬ StartsGame w s r)
    (hs' : ReadsKeys (step w s r).1.screenState) : ¬ MoveDue (step w s r).1 := by
  have hentry := step_entry (w := w) hflags r
  rw [StartsGame, step_screenState] at hstart
  rw [step_screenState] at hs'
  rw [step_fst]
  have hkeep : ReadsKeys s.screenState → ¬ MoveDue (handle w s r).1 := fun hs => handle_not_due w hs (h hs) r
  generalize enter w (handle w s r).1 = e at hentry
  cases hentry with
  | stay ht =>
    rw [ht] at hs'
    exact hkeep hs'
  | exit ht =>
    rw [ht] at hs'
    rcases hs' with h | h <;> cases h
  | newGame hmenu ht =>
    rcases ht with ht | ht
    · exact absurd ⟨hmenu, ht⟩ hstart
    · rw [ht] at hs'
      rcases hs' with h | h <;> cases h
  | pause hs _ => exact hkeep (Or.inl hs)
  | resume hs _ => exact hkeep (Or.inr hs)
  | gameOver _ hs _ => exact hkeep (Or.inl hs)

private theorem handle_menu_nextMove (w : World) {s : Main} (hs : IsMenu s.screenState) (r : Receive) :
    (handle w s r).1.nextMove = s.nextMove := by
  have hmenu : ∀ picture n, (menuBranch w picture n s).1.nextMove = s.nextMove := by
    intro picture n
    rcases menuBranch_cases w picture n s with h | ⟨pp, counter, byte, h | h⟩ <;>
      exact congrArg (fun turn => turn.1.nextMove) h
  cases r with
  | failed => rfl
  | other => rfl
  | hardware n =>
    rcases hs with hs | hs | hs <;> simp only [handle, hs]
    all_goals exact hmenu _ n

/-- A new game makes the remembered move due exactly when it goes up or down. -/
private theorem startsGame_moveDue_iff {w : World} {s : Main} (hflags : FlagsOk s) {r : Receive}
    (h : StartsGame w s r) :
    MoveDue (step w s r).1 ↔ s.nextMove.dir = .up ∨ s.nextMove.dir = .down := by
  obtain ⟨hmenu, hscreen⟩ := h
  rw [step_screenState] at hscreen
  rw [step_fst, enter_newGame hflags hmenu hscreen, ← handle_menu_nextMove w hmenu r]
  exact moveDue_start_iff w.screen w.hour (clearScreen w (handle w s r).1.video) rfl

/-- In a run no keyboard interrupt replays an old move exactly when no game of it starts with an `UP` or a `DOWN`
remembered. -/
theorem keys_inert_iff (w : World) (rs : List Receive) :
    (∀ pre, pre <+: rs → ReadsKeys (mainRun w pre).screenState → KeysInert w (mainRun w pre)) ↔
      ∀ pre r, pre ++ [r] <+: rs → StartsGame w (mainRun w pre) r →
        (mainRun w pre).nextMove.dir ≠ .up ∧ (mainRun w pre).nextMove.dir ≠ .down := by
  constructor
  · intro hinert pre r hpre hstart
    have hreads : ReadsKeys (mainRun w (pre ++ [r])).screenState := by
      rw [mainRun_concat]
      exact Or.inl hstart.2
    have hdue := (keysInert_iff w hreads).1 (hinert _ hpre hreads)
    rw [mainRun_concat, startsGame_moveDue_iff (flagsOk_mainRun w pre) hstart] at hdue
    exact not_or.1 hdue
  · intro hstarts
    have hidle : ∀ pre, pre <+: rs → ReadsKeys (mainRun w pre).screenState → ¬ MoveDue (mainRun w pre) := by
      refine prefix_induction ?_ fun pre r hpre hprev => ?_
      · simp [mainRun, boot, enter_screenState, init, ReadsKeys]
      · rw [mainRun_concat]
        by_cases hstart : StartsGame w (mainRun w pre) r
        · intro _
          rw [startsGame_moveDue_iff (flagsOk_mainRun w pre) hstart]
          exact not_or.2 (hstarts pre r hpre hstart)
        · exact step_not_due (flagsOk_mainRun w pre) hprev hstart
    intro pre hpre hreads
    exact (keysInert_iff w hreads).2 (hidle pre hpre hreads)

/-- The second game begins with BLUE's last turn of the first one, an `UP`: a byte that `kbc_ih` rejects moves BLUE. -/
theorem old_turn_replayed :
    (mainRun (world115 0x12) (firstGame ++ timerInterrupts 1 ++ click)).screenState = .sGame ∧
      ¬ KeysInert (world115 0x12) (mainRun (world115 0x12) (firstGame ++ timerInterrupts 1 ++ click)) := by
  refine ⟨by decide +kernel, fun hinert => ?_⟩
  have hsame := hinert ⟨0x2, 0, 0⟩ (by decide) .blue
  exact absurd hsame (by decide +kernel)

/-! ### Pauses -/

/-- The turn is no turn: it names the current direction of its player, or a reversal. -/
def Parallel (v : Video) (m : MovementInfo) : Prop := Ignored v m false

/-- A pause is only entered and left by a keyboard interrupt, so in a pause the remembered move is never due. -/
theorem paused_not_due (w : World) (rs : List Receive) (hp : (mainRun w rs).screenState = .pause) :
    ¬ MoveDue (mainRun w rs) := by
  induction rs using List.reverseRecOn with
  | nil =>
    simp [mainRun, boot, enter_screenState, init] at hp
  | append_singleton rs r ih =>
    have hflags := flagsOk_mainRun w rs
    have hnext := handle_screen w (mainRun w rs) r
    rw [mainRun_concat] at hp ⊢
    have hentry := step_entry (w := w) hflags r
    have ht := (step_screenState w (mainRun w rs) r).symm.trans hp
    have hreads : ReadsKeys (mainRun w rs).screenState := by
      cases hx : (mainRun w rs).screenState <;> rw [hx] at hnext <;> simp [nextScreens, ht] at hnext
      · exact Or.inl rfl
      · exact Or.inr rfl
    have hdue : ¬ MoveDue (handle w (mainRun w rs) r).1 := by
      rcases hreads with hs | hs
      -- out of a game only the keyboard branch leads into a pause, and it has just used the move up
      · cases r with
        | failed => simp [handle, hs] at ht
        | other => simp [handle, hs] at ht
        | hardware n =>
          rw [handle_readsKeys (Or.inl hs)] at ht ⊢
          by_cases hk : n.keyboard
          · rw [keyboardBranch_key w _ hk]
            exact applyNextMove_not_due w _
          · rw [keyboardBranch_none w _ hk, beforeKey, if_pos hs] at ht
            have htimer := timerBranch_screen w n (mainRun w rs)
            simp [ht, hs] at htimer
      · exact handle_not_due w (Or.inr hs) (ih hs) r
    rw [step_fst]
    generalize enter w (handle w (mainRun w rs) r).1 = e at hentry
    cases hentry with
    | stay _ => exact hdue
    | exit _ => exact hdue
    | newGame _ h => rcases h with h | h <;> exact absurd (h.symm.trans ht) (by decide)
    | pause _ _ => exact hdue
    | resume _ h => exact absurd (h.symm.trans ht) (by decide)
    | gameOver _ _ h => rcases h with ⟨h, -⟩ | ⟨h, -⟩ <;> exact absurd (h.symm.trans ht) (by decide)

private theorem step_paused_player {w : World} {s : Main} (hflags : FlagsOk s) (hp : s.screenState = .pause)
    (r : Receive) (p : Player) : (step w s r).1.video.player p = (handle w s r).1.video.player p := by
  have hentry := step_entry (w := w) hflags r
  rw [step_fst]
  generalize enter w (handle w s r).1 = e at hentry
  cases hentry with
  | stay _ => rfl
  | exit _ => rfl
  | newGame hs _ =>
    rw [hp] at hs
    exact absurd hs (by decide)
  | pause _ _ => rfl
  | resume _ _ => rfl
  | gameOver _ _ _ => rfl

private theorem handle_paused {w : World} {s : Main} (hp : s.screenState = .pause) {n : Notification}
    (hk : n.keyboard) : (handle w s (.hardware n)).1 = applyNextMove w (afterKey n s) := by
  rw [handle_readsKeys (Or.inr hp), keyboardBranch_key w _ hk, beforeKey, if_neg (by simp [hp])]

section
variable {w : World} {s : Main} (hflags : FlagsOk s) (hp : s.screenState = .pause) (hidle : ¬ MoveDue s)
  {n : Notification} (hk : n.keyboard)
include hflags hp hk

/-- In a pause a key that leaves no move due only sets the screen. -/
private theorem step_paused_idle (hdue : ¬ MoveDue (afterKey n s)) :
    (step w s (.hardware n)).1.screenState = (afterKey n s).screenState ∧
      ∀ p, (step w s (.hardware n)).1.video.player p = s.video.player p := by
  have hhandle := handle_paused (w := w) hp hk
  rw [applyNextMove_idle w hdue] at hhandle
  refine ⟨?_, fun p => ?_⟩
  · rw [step_screenState, hhandle]
  · rw [step_paused_player hflags hp, hhandle]
    rfl

include hidle in
private theorem step_paused_parallel (hno : ¬ IsPauseKey n.status n.data)
    (hpar : ∀ m, turnOf n.status n.data = some m → Parallel s.video m) :
    (step w s (.hardware n)).1.screenState = .pause ∧
      ∀ p, (step w s (.hardware n)).1.video.player p = s.video.player p := by
  have hdue : ¬ MoveDue (afterKey n s) := by
    cases ht : turnOf n.status n.data with
    | none =>
      rw [afterKey_moveDue_iff ht]
      exact hidle
    | some m =>
      have hnext : (afterKey n s).nextMove = m := by simp [afterKey, ht]
      rw [MoveDue, hnext]
      exact fun h => h.2 (hpar m ht)
  obtain ⟨hscreen, hplayers⟩ := step_paused_idle (w := w) hflags hp hk hdue
  refine ⟨hscreen.trans ?_, hplayers⟩
  simp [afterKey, hno, hp]

private theorem step_paused_turn {m : MovementInfo} (ht : turnOf n.status n.data = some m)
    (hpar : ¬ Parallel s.video m) :
    (step w s (.hardware n)).1.video.player m.playerColor ≠ s.video.player m.playerColor := by
  have hd : m.dir ≠ .unchanged := by
    unfold turnOf at ht
    split at ht
    · exact turn_dir_ne_unchanged ht
    · cases ht
  have hnext : (afterKey n s).nextMove = m := by simp [afterKey, ht]
  have hdue : MoveDue (afterKey n s) := by
    rw [MoveDue, hnext]
    exact ⟨hd, hpar⟩
  have hhandle := handle_paused (w := w) hp hk
  rw [applyNextMove_enters w hdue, hnext] at hhandle
  rw [step_paused_player hflags hp, hhandle]
  intro hsame
  refine target_ne_player hd (?_ : _ = ((s.video.player m.playerColor).x, (s.video.player m.playerColor).y))
  rw [← hsame]
  simp only [Video.enter_player_self]
  rfl

include hidle in
private theorem step_paused_resume (hkey : IsPauseKey n.status n.data) :
    (step w s (.hardware n)).1.screenState = .sGame ∧
      ∀ p, (step w s (.hardware n)).1.video.player p = s.video.player p := by
  have ht : turnOf n.status n.data = none := by simp [turnOf, hkey.1, hkey.2, turn_pause]
  have hdue : ¬ MoveDue (afterKey n s) := by
    rw [afterKey_moveDue_iff ht]
    exact hidle
  obtain ⟨hscreen, hplayers⟩ := step_paused_idle (w := w) hflags hp hk hdue
  refine ⟨hscreen.trans ?_, hplayers⟩
  simp [afterKey, hkey, togglePause, hp]

end

def notifications (ns : List Notification) : List Receive := ns.map .hardware

/-- After the receives `rs` the program is paused; through the interrupts `ks` it stays paused, and with `k` it resumes,
and the players are all the time where they were. -/
structure PauseTransparent (w : World) (rs : List Receive) (ks : List Notification) (k : Notification) : Prop where
  during : ∀ pre, pre <+: ks → (mainRun w (rs ++ notifications pre)).screenState = .pause ∧
    ∀ p, (mainRun w (rs ++ notifications pre)).video.player p = (mainRun w rs).video.player p
  resumed : (mainRun w (rs ++ notifications (ks ++ [k]))).screenState = .sGame ∧
    ∀ p, (mainRun w (rs ++ notifications (ks ++ [k]))).video.player p = (mainRun w rs).video.player p

private theorem mainRun_notifications_concat (w : World) (rs : List Receive) (ns : List Notification)
    (n : Notification) :
    mainRun w (rs ++ notifications (ns ++ [n])) = (step w (mainRun w (rs ++ notifications ns)) (.hardware n)).1 := by
  rw [notifications, List.map_append, ← List.append_assoc]
  exact mainRun_concat w _ _

private theorem parallel_congr {v v' : Video} (h : ∀ p, v'.player p = v.player p) (m : MovementInfo) :
    Parallel v' m ↔ Parallel v m := by
  simp only [Parallel, Ignored, h]

/-- A pause is transparent exactly when every turn keyed in during it goes along or against the direction its player had
when the pause was entered. -/
theorem pause_transparent_iff (w : World) (rs : List Receive) (hp : (mainRun w rs).screenState = .pause)
    (ks : List Notification) (hks : ∀ n ∈ ks, n.keyboard ∧ ¬ IsPauseKey n.status n.data) (k : Notification)
    (hk : k.keyboard ∧ IsPauseKey k.status k.data) :
    PauseTransparent w rs ks k ↔
      ∀ n ∈ ks, ∀ m, turnOf n.status n.data = some m → Parallel (mainRun w rs).video m := by
  constructor
  -- the first turn that is not parallel moves its player at once
  · intro htrans n hn m hm
    obtain ⟨before, after, rfl⟩ := List.append_of_mem hn
    by_contra hpar
    obtain ⟨hpaused, hsame⟩ := htrans.during before (List.prefix_append _ _)
    have hnext := htrans.during (before ++ [n]) ⟨after, by simp⟩
    rw [mainRun_notifications_concat] at hnext
    rw [← parallel_congr hsame] at hpar
    refine step_paused_turn (w := w) (flagsOk_mainRun w _) hpaused (hks n hn).1 hm hpar ?_
    rw [hnext.2, hsame]
  · intro hpar
    have hduring : ∀ pre, pre <+: ks → (mainRun w (rs ++ notifications pre)).screenState = .pause ∧
        ∀ p, (mainRun w (rs ++ notifications pre)).video.player p = (mainRun w rs).video.player p := by
      refine prefix_induction ⟨by simpa [notifications] using hp, fun p => by simp [notifications]⟩ ?_
      rintro pre n hpre ⟨hpaused, hsame⟩
      have hn : n ∈ ks := hpre.subset (List.mem_append_right _ (List.mem_singleton.2 rfl))
      obtain ⟨hstay, hplayers⟩ := step_paused_parallel (flagsOk_mainRun w _) hpaused (paused_not_due w _ hpaused)
        (hks n hn).1 (hks n hn).2 (fun m hm => (parallel_congr hsame m).2 (hpar n hn m hm))
      rw [mainRun_notifications_concat]
      exact ⟨hstay, fun p => (hplayers p).trans (hsame p)⟩
    obtain ⟨hpaused, hsame⟩ := hduring ks (List.prefix_refl _)
    obtain ⟨hresumed, hplayers⟩ :=
      step_paused_resume (flagsOk_mainRun w _) hpaused (paused_not_due w _ hpaused) hk.1 hk.2
    rw [← mainRun_notifications_concat] at hresumed hplayers
    exact ⟨hduring, hresumed, fun p => (hplayers p).trans (hsame p)⟩

/-- A turn keyed in during a pause moves BLUE. -/
theorem pause_moves_blue :
    (mainRun (world115 0x12) click).screenState = .sGame ∧
      (mainRun (world115 0x12) (click ++ [key 153])).screenState = .pause ∧
      ¬ PauseTransparent (world115 0x12) (click ++ [key 153]) [⟨0x2, 0x01, 145⟩] ⟨0x2, 0x01, 153⟩ := by
  refine ⟨by decide +kernel, by decide +kernel, fun htrans => ?_⟩
  have hsame := (htrans.during [⟨0x2, 0x01, 145⟩] (List.prefix_refl _)).2 .blue
  exact absurd hsame (by decide +kernel)

theorem pause_transparent_right :
    PauseTransparent (world115 0x12) (click ++ [key 153]) [⟨0x2, 0x01, 160⟩] ⟨0x2, 0x01, 153⟩ := by
  refine (pause_transparent_iff (world115 0x12) (click ++ [key 153]) (by decide +kernel) [⟨0x2, 0x01, 160⟩]
    (by decide) ⟨0x2, 0x01, 153⟩ (by decide)).2 ?_
  intro n hn m hm
  rw [List.mem_singleton.1 hn] at hm
  obtain rfl : ⟨.right, .blue⟩ = m := Option.some.inj hm
  exact Or.inl ⟨rfl, by decide +kernel⟩

end LabChase
