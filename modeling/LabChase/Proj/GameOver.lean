import LabChase.Proj.Screens

/-!
# The end of a game

A tick on which a player crashes selects `GOTWO` or `GOONE`, but the keyboard part of the same notification may still
replace that screen (`decided_game_iff`).  A crash on a turn never selects either of them: it ends the program
(`turn_crash_quits`).  And neither screen draws the picture it should: `load_images` assigns `gameOver1` twice and
`gameOver2` never (`pictures_right_iff`).
-/

namespace LabChase

open Runs

/-- The screen the tick path selects when `p` crashes. -/
def crashScreen : Player → ScreenState
  | .blue => .goTwo
  | .orange => .goOne

/-- The keyboard part of a notification takes effect after a tick that left the players and the framebuffer as `v`: it
is the pause key, or the move remembered after it runs into a trail. -/
def KeyOverrides (w : World) (n : Notification) (s : Main) (v : Video) : Prop :=
  n.keyboard ∧
    (IsPauseKey n.status n.data ∨
      (((turnOf n.status n.data).getD s.nextMove).dir ≠ .unchanged ∧
        ¬ Ignored v ((turnOf n.status n.data).getD s.nextMove) false ∧
        Occupied w.screen v ((turnOf n.status n.data).getD s.nextMove).playerColor
          ((turnOf n.status n.data).getD s.nextMove).dir))

instance (w : World) (n : Notification) (s : Main) (v : Video) : Decidable (KeyOverrides w n s v) :=
  inferInstanceAs (Decidable (_ ∧ _))

theorem passiveMovePlayers_fst (scr : Screen) (v : Video) :
    (passiveMovePlayers scr v).1 = 0 ∨ (passiveMovePlayers scr v).1 = 1 ∨ (passiveMovePlayers scr v).1 = 2 := by
  rw [passiveMovePlayers_eq]
  by_cases hb : ((Call.passive .blue).run scr v).1 = 0
  · by_cases ho : ((Call.passive .orange).run scr ((Call.passive .blue).run scr v).2).1 = 0 <;> simp [hb, ho]
  · simp [hb]

theorem timerBranch_decided {w : World} {s : Main} {n : Notification} (hdue : TickDue s n) :
    (timerBranch w n s).1.video = (passiveMovePlayers w.screen s.video).2 ∧
      (timerBranch w n s).1.nextMove = s.nextMove ∧
      (timerBranch w n s).1.screenState =
        if (passiveMovePlayers w.screen s.video).1 = 1 then .goTwo
        else if (passiveMovePlayers w.screen s.video).1 = 2 then .goOne
        else s.screenState := by
  rw [timerBranch_due w hdue]
  exact ⟨rfl, rfl, rfl⟩

/-- The screen after the keyboard branch, when neither the pause nor the program was reached before. -/
private theorem keyboardBranch_keeps_iff {w : World} {n : Notification} {t : Main} (hp : t.screenState ≠ .pause)
    (hq : t.screenState ≠ .quit) :
    (keyboardBranch w n t).1.screenState = t.screenState ↔ ¬ KeyOverrides w n t t.video := by
  by_cases hk : n.keyboard
  · rw [keyboardBranch_key w t hk]
    have hsplit : KeyOverrides w n t t.video ↔ IsPauseKey n.status n.data ∨
        (MoveDue (afterKey n t) ∧ Occupied w.screen (afterKey n t).video (afterKey n t).nextMove.playerColor
          (afterKey n t).nextMove.dir) := by
      simp only [KeyOverrides, hk, true_and, MoveDue, and_assoc]
      rfl
    rw [hsplit, not_or]
    have hpause : (afterKey n t).screenState = if IsPauseKey n.status n.data then .pause else t.screenState := by
      simp only [afterKey, togglePause, hp, ↓reduceIte]
    by_cases hm : MoveDue (afterKey n t)
    · rw [applyNextMove_enters w hm]
      simp only [hpause, hm, true_and]
      by_cases ho : Occupied w.screen (afterKey n t).video (afterKey n t).nextMove.playerColor
        (afterKey n t).nextMove.dir
      · simp [ho, hq.symm]
      · by_cases hkey : IsPauseKey n.status n.data
        · simp [ho, hkey, hp.symm]
        · simp [ho, hkey]
    · rw [applyNextMove_idle w hm, hpause]
      by_cases hkey : IsPauseKey n.status n.data
      · simp [hm, hkey, hp.symm]
      · simp [hm, hkey]
  · rw [keyboardBranch_none w t hk]
    simp [KeyOverrides, hk]

/-- A decided game stays decided exactly when the keyboard part of the notification does not override it. -/
theorem decided_game_iff (w : World) (rs : List Receive) (n : Notification)
    (hs : (mainRun w rs).screenState = .sGame) (hdue : TickDue (mainRun w rs) n) (p : Player)
    (hcrash : (passiveMovePlayers w.screen (mainRun w rs).video).1 = if p = .blue then 1 else 2) :
    (handle w (mainRun w rs) (.hardware n)).1.screenState = crashScreen p ↔
      ¬ KeyOverrides w n (mainRun w rs) (passiveMovePlayers w.screen (mainRun w rs).video).2 := by
  obtain ⟨hvideo, hnext, hscreen⟩ := timerBranch_decided (w := w) hdue
  have hdecided : (timerBranch w n (mainRun w rs)).1.screenState = crashScreen p := by
    rw [hscreen, hcrash]
    cases p <;> rfl
  have hkeeps := keyboardBranch_keeps_iff (w := w) (n := n) (t := (timerBranch w n (mainRun w rs)).1)
    (by rw [hdecided]; cases p <;> decide) (by rw [hdecided]; cases p <;> decide)
  rw [hdecided] at hkeeps
  simp only [handle, hs]
  rw [hkeeps]
  simp only [KeyOverrides, hvideo, hnext]

/-- The pause key in the notification of the fatal tick: BLUE has crashed, and after the pause the game goes on. -/
theorem pause_key_saves_blue :
    (mainRun (world115 0x12) firstGame).screenState = .sGame ∧
      TickDue (mainRun (world115 0x12) firstGame) ⟨0x3, 0x01, 153⟩ ∧
      (passiveMovePlayers (world115 0x12).screen (mainRun (world115 0x12) firstGame).video).1 = 1 ∧
      (handle (world115 0x12) (mainRun (world115 0x12) firstGame) (.hardware ⟨0x3, 0x01, 153⟩)).1.screenState = .pause ∧
      (mainRun (world115 0x12) (firstGame ++ [.hardware ⟨0x3, 0x01, 153⟩, key 153])).screenState = .sGame := by
  decide +kernel

theorem blue_loses :
    (handle (world115 0x12) (mainRun (world115 0x12) firstGame) (.hardware ⟨0x1, 0, 0⟩)).1.screenState = .goTwo :=
  (decided_game_iff (world115 0x12) firstGame ⟨0x1, 0, 0⟩ (by decide +kernel) (by decide +kernel) .blue
    (by decide +kernel)).2 (by decide +kernel)

/-! ### A crash on a turn -/

/-- The direction is a turn: neither the current direction nor a reversal. -/
def Turns (pos : PlayerPosition) (d : Direction) : Prop :=
  d ≠ .unchanged ∧ d ≠ pos.currentDirection ∧ d ≠ opposite pos.currentDirection

instance (pos : PlayerPosition) (d : Direction) : Decidable (Turns pos d) := inferInstanceAs (Decidable (_ ∧ _ ∧ _))

/-- A player that turns into an occupied cell ends the program, whoever it is. -/
theorem turn_crash_quits (w : World) (rs : List Receive) (hs : (mainRun w rs).screenState = .sGame) (p : Player)
    (d : Direction) (hturn : Turns ((mainRun w rs).video.player p) d)
    (hocc : Occupied w.screen (mainRun w rs).video p d) (n : Notification) (hk : n.keyboard) (ht : ¬ n.timer)
    (hcode : turnOf n.status n.data = some ⟨d, p⟩) :
    (mainRun w (rs ++ [.hardware n])).screenState = .quit ∧
      (mainRun w (rs ++ [.hardware n])).screenState ≠ crashScreen p := by
  have hquit : (handle w (mainRun w rs) (.hardware n)).1.screenState = .quit := by
    have hidle : timerBranch w n (mainRun w rs) = (mainRun w rs, []) := by simp [timerBranch, ht]
    simp only [handle, hs, hidle]
    rw [keyboardBranch_key w _ hk]
    have hnext : (afterKey n (mainRun w rs)).nextMove = ⟨d, p⟩ := by simp [afterKey, hcode]
    have hvideo : (afterKey n (mainRun w rs)).video = (mainRun w rs).video := rfl
    have hdue : MoveDue (afterKey n (mainRun w rs)) := by
      rw [MoveDue, hnext, hvideo]
      refine ⟨hturn.1, ?_⟩
      rintro (⟨-, h⟩ | h)
      · exact hturn.2.1 h
      · exact hturn.2.2 h
    rw [applyNextMove_enters w hdue, hnext, hvideo]
    exact if_pos hocc
  rw [mainRun_concat, step_screenState, hquit]
  refine ⟨rfl, ?_⟩
  cases p <;> decide

/-- BLUE runs in a circle of turns; the fifth one meets the block it entered first. -/
theorem circle_of_turns_quits :
    (mainRun (world115 0x12) (click ++ [key 145, key 158, key 159, key 160])).screenState = .sGame ∧
      Turns ((mainRun (world115 0x12) (click ++ [key 145, key 158, key 159, key 160])).video.player .blue) .up ∧
      Occupied (world115 0x12).screen (mainRun (world115 0x12) (click ++ [key 145, key 158, key 159, key 160])).video
        .blue .up ∧
      (mainRun (world115 0x12) (click ++ [key 145, key 158, key 159, key 160] ++ [key 145])).screenState = .quit := by
  decide +kernel

theorem turn_crash_quits_circle :
    (mainRun (world115 0x12) (click ++ [key 145, key 158, key 159, key 160] ++ [key 145])).screenState = .quit :=
  (turn_crash_quits (world115 0x12) (click ++ [key 145, key 158, key 159, key 160]) (by decide +kernel) .blue .up
    (by decide +kernel) (by decide +kernel) ⟨0x2, 0x01, 145⟩ (by decide) (by decide) (by decide)).1

/-! ### The pictures -/

/-- What a picture drawn in a screen should be: one that was loaded, and in the game-over screens the one that names
the player that did not crash. -/
def Action.PictureRight : Action → Prop
  | .entryDraw x picture | .packetDraw x picture =>
    picture ≠ none ∧ (x = .goTwo → picture = some .gopTwoWins) ∧ (x = .goOne → picture = some .gopOneWins)
  | _ => True

/-- The receive decides a game and the decision stands. -/
def DecidesGame (w : World) (s : Main) (r : Receive) : Prop :=
  s.screenState = .sGame ∧ ∃ n, r = .hardware n ∧ TickDue s n ∧ (passiveMovePlayers w.screen s.video).1 ≠ 0 ∧
    ¬ KeyOverrides w n s (passiveMovePlayers w.screen s.video).2

private theorem keyboardBranch_gameOver_iff {w : World} {n : Notification} {t : Main}
    (ht : t.screenState = .goOne ∨ t.screenState = .goTwo) :
    ((keyboardBranch w n t).1.screenState = .goOne ∨ (keyboardBranch w n t).1.screenState = .goTwo) ↔
      ¬ KeyOverrides w n t t.video := by
  have hkey := keyboardBranch_screen w n t
  rcases ht with ht | ht
  all_goals
    rw [← keyboardBranch_keeps_iff (by simp [ht]) (by simp [ht]), ht]
    simp only [ht, togglePause, reduceCtorEq, ↓reduceIte, List.mem_cons, List.not_mem_nil, or_false] at hkey
    rcases hkey with hk | hk | hk <;> simp [hk]

private theorem keyboardBranch_playing {w : World} {n : Notification} {t : Main} (ht : t.screenState = .sGame) :
    ¬ ((keyboardBranch w n t).1.screenState = .goOne ∨ (keyboardBranch w n t).1.screenState = .goTwo) := by
  have hkey := keyboardBranch_screen w n t
  simp only [ht, togglePause, reduceCtorEq, ↓reduceIte, List.mem_cons, List.not_mem_nil, or_false] at hkey
  rcases hkey with hk | hk | hk <;> simp [hk]

/-- A game-over screen is entered exactly by a receive that decides a game. -/
private theorem enters_gameOver_iff (w : World) (s : Main) (r : Receive) (h1 : s.screenState ≠ .goOne)
    (h2 : s.screenState ≠ .goTwo) :
    (handle w s r).1.screenState = .goOne ∨ (handle w s r).1.screenState = .goTwo ↔ DecidesGame w s r := by
  by_cases hs : s.screenState = .sGame
  · cases r with
    | failed => simp [handle, hs, DecidesGame]
    | other => simp [handle, hs, DecidesGame]
    | hardware n =>
      simp only [handle, hs, DecidesGame, true_and, Receive.hardware.injEq, exists_eq_left']
      by_cases hdue : TickDue s n
      -- the tick may select a game-over screen, which the keyboard branch keeps or replaces
      · obtain ⟨hvideo, hmove, hscreen⟩ := timerBranch_decided (w := w) hdue
        have hoverride : KeyOverrides w n (timerBranch w n s).1 (timerBranch w n s).1.video ↔
            KeyOverrides w n s (passiveMovePlayers w.screen s.video).2 := by
          simp only [KeyOverrides, hvideo, hmove]
        by_cases hr : (passiveMovePlayers w.screen s.video).1 = 0
        · have ht : (timerBranch w n s).1.screenState = .sGame := by rw [hscreen, hr, hs]; rfl
          simp [keyboardBranch_playing ht, hr]
        · have ht : (timerBranch w n s).1.screenState = .goOne ∨ (timerBranch w n s).1.screenState = .goTwo := by
            rw [hscreen]
            rcases (passiveMovePlayers_fst w.screen s.video).resolve_left hr with h | h <;> simp [h]
          rw [keyboardBranch_gameOver_iff ht, hoverride]
          simp [hdue, hr]
      · have ht : (timerBranch w n s).1.screenState = .sGame := by
          rcases timerBranch_idle w hdue with h | h <;> rw [h] <;> exact hs
        simp [keyboardBranch_playing ht, hdue]
  · have hno : ¬ DecidesGame w s r := fun h => hs h.1
    have hnext := handle_screen w s r
    cases hx : s.screenState <;> rw [hx] at hnext <;>
      simp only [nextScreens, List.mem_cons, List.not_mem_nil, or_false] at hnext
    case goOne => exact absurd hx h1
    case goTwo => exact absurd hx h2
    case sGame => exact absurd hx hs
    case main => rcases hnext with h | h | h | h <;> simp [h, hno]
    case pause => rcases hnext with h | h | h <;> simp [h, hno]
    all_goals simp [hnext, hno]

private theorem handle_pictureRight (w : World) {s : Main} (r : Receive) (h1 : s.screenState ≠ .goOne)
    (h2 : s.screenState ≠ .goTwo) : ∀ a ∈ (handle w s r).2, a.PictureRight := by
  have hkey : ∀ n t, ∀ a ∈ (keyboardBranch w n t).2, a.PictureRight := by
    intro n t
    unfold keyboardBranch
    split <;> simp [Action.PictureRight]
  have htick : ∀ n, ∀ a ∈ (timerBranch w n s).2, a.PictureRight := by
    intro n
    rw [timerBranch_snd]
    split <;> simp [Action.PictureRight]
  cases r with
  | failed => simp [handle]
  | other => simp [handle]
  | hardware n =>
    cases hx : s.screenState <;> simp only [handle, hx]
    case goOne => exact absurd hx h1
    case goTwo => exact absurd hx h2
    case pause => exact hkey n s
    case sGame =>
      intro a ha
      rcases List.mem_append.1 ha with ha | ha
      · exact htick n a ha
      · exact hkey n _ a ha
    case main =>
      rcases menuBranch_cases w loadImages.main n s with h | ⟨pp, counter, byte, h | h⟩ <;> rw [h]
      · simp
      · simp [Action.PictureRight]
      · simp [hx, Action.PictureRight, loadImages]
    all_goals simp

private theorem step_pictureRight {w : World} {s : Main} {r : Receive} (hflags : FlagsOk s)
    (h1 : s.screenState ≠ .goOne) (h2 : s.screenState ≠ .goTwo) (hno : ¬ DecidesGame w s r) :
    (∀ a ∈ (step w s r).2, a.PictureRight) ∧ (step w s r).1.screenState ≠ .goOne ∧
      (step w s r).1.screenState ≠ .goTwo := by
  have hentry := step_entry (w := w) hflags r
  have hscreen := mt (enters_gameOver_iff w s r h1 h2).1 hno
  rw [not_or] at hscreen
  rw [step_screenState]
  refine ⟨?_, hscreen⟩
  intro a ha
  rw [step_snd] at ha
  rcases List.mem_append.1 ha with ha | ha
  · exact handle_pictureRight w r h1 h2 a ha
  · generalize enter w (handle w s r).1 = e at hentry ha
    cases hentry with
    | stay _ => exact absurd ha List.not_mem_nil
    | exit _ => exact absurd ha List.not_mem_nil
    | newGame _ _ =>
      rw [List.mem_singleton.1 ha]
      trivial
    | pause _ _ =>
      simp only [List.mem_cons, List.not_mem_nil, or_false] at ha
      rcases ha with rfl | rfl
      · trivial
      · simp [Action.PictureRight, loadImages]
    | resume _ _ =>
      rw [List.mem_singleton.1 ha]
      trivial
    | gameOver _ _ ht =>
      rcases ht with ⟨ht, -⟩ | ⟨ht, -⟩
      · exact absurd ht hscreen.1
      · exact absurd ht hscreen.2

/-- A receive that decides a game draws a wrong picture: `GOTWO` an image that was never loaded, `GOONE` the picture
of the other outcome. -/
private theorem step_pictureWrong {w : World} {s : Main} {r : Receive} (hflags : FlagsOk s) (h : DecidesGame w s r) :
    ∃ a ∈ (step w s r).2, ¬ a.PictureRight := by
  have hscreen := (enters_gameOver_iff w s r (by simp [h.1]) (by simp [h.1])).2 h
  obtain ⟨picture, hpicture, henter⟩ := enter_gameOver hflags h.1 hscreen
  rw [step_snd, henter]
  refine ⟨_, List.mem_append_right _ (List.mem_singleton.2 rfl), ?_⟩
  rcases hpicture with ⟨ht, rfl⟩ | ⟨ht, rfl⟩ <;> simp [Action.PictureRight, ht, loadImages]

theorem mainLog_append (w : World) (rs rs' : List Receive) :
    mainLog w (rs ++ rs') = mainLog w rs ++ outputs (step w) (mainRun w rs) rs' := by
  rw [mainLog, outputs_append, ← List.append_assoc]
  rfl

/-- In a run all pictures are right exactly when no game of it is decided. -/
theorem pictures_right_iff (w : World) (rs : List Receive) :
    (∀ a ∈ mainLog w rs, a.PictureRight) ↔ ∀ pre r, pre ++ [r] <+: rs → ¬ DecidesGame w (mainRun w pre) r := by
  constructor
  · rintro hright pre r ⟨rest, rfl⟩ hdecides
    obtain ⟨a, ha, hwrong⟩ := step_pictureWrong (flagsOk_mainRun w pre) hdecides
    refine hwrong (hright a ?_)
    rw [mainLog_append, mainLog_concat]
    exact List.mem_append_left _ (List.mem_append_right _ ha)
  · intro hno
    -- one receive at a time: the run stays out of the game-over screens
    have hquiet : ∀ pre, pre <+: rs → (∀ a ∈ mainLog w pre, a.PictureRight) ∧
        (mainRun w pre).screenState ≠ .goOne ∧ (mainRun w pre).screenState ≠ .goTwo := by
      refine prefix_induction ?_ fun pre r hpre hprev => ?_
      · simp [mainLog, mainRun, boot, enter, enterMenu, showMenu, init, outputs, Action.PictureRight, loadImages]
      · obtain ⟨hlog, h1, h2⟩ := hprev
        obtain ⟨hright, h1', h2'⟩ := step_pictureRight (flagsOk_mainRun w pre) h1 h2 (hno pre r hpre)
        rw [mainLog_concat, mainRun_concat]
        exact ⟨fun a ha => (List.mem_append.1 ha).elim (hlog a) (hright a), h1', h2'⟩
    exact (hquiet rs (List.prefix_refl rs)).1

/-- When BLUE loses, the image that is drawn was never loaded. -/
theorem unassigned_picture_drawn :
    Action.entryDraw .goTwo none ∈ mainLog (world115 0x12) (firstGame ++ timerInterrupts 1) ∧
      ¬ ∀ a ∈ mainLog (world115 0x12) (firstGame ++ timerInterrupts 1), a.PictureRight := by
  have hdrawn : Action.entryDraw .goTwo none ∈ mainLog (world115 0x12) (firstGame ++ timerInterrupts 1) := by
    decide +kernel
  exact ⟨hdrawn, fun h => (h _ hdrawn).1 rfl⟩

end LabChase
