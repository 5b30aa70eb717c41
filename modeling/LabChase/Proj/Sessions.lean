import LabChase.Proj.GameOver
import LabChase.Proj.Pauses

/-!
# A session

What the program is for: light-cycle games, one after the other, started from a menu, paused and resumed, and ended by
the tick on which a player runs into a trail.  By day every run of the main loop is such a session, step by step
(`main_refines_session`), as long as the blocks stay on the screen and nobody is turned in a pause.  A `Session` also
has the two ends the program has and the game does not: a player that turns into a trail ends the program, and the game
for two computers never gets anywhere.
-/

namespace LabChase

open FlatMemory Runs

namespace Arena

/-- The call runs its player into the trail. -/
def Hits (a : Arena) : Call → Prop
  | .active p d => ¬ (d = a.heading p ∨ d = opposite (a.heading p)) ∧ a.Crash p d
  | .passive p => a.Crash p (a.heading p)

/-- The players move on or not; ORANGE stays where it is if BLUE crashes.  The third argument is who crashes. -/
inductive Moves (a : Arena) : Arena → Option Player → Prop
  | rest : Moves a a none
  | blue (hb : a.Hits (.passive .blue)) : Moves a (a.call (.passive .blue)) (some .blue)
  | orange (hb : ¬ a.Hits (.passive .blue)) (ho : (a.call (.passive .blue)).Hits (.passive .orange)) :
      Moves a ((a.call (.passive .blue)).call (.passive .orange)) (some .orange)
  | both (hb : ¬ a.Hits (.passive .blue)) (ho : ¬ (a.call (.passive .blue)).Hits (.passive .orange)) :
      Moves a ((a.call (.passive .blue)).call (.passive .orange)) none

/-- A player turns or none does; the third argument is whether it crashes. -/
inductive Steers (a : Arena) : Arena → Bool → Prop
  | rest : Steers a a false
  | turn (p : Player) (d : Heading) (h : ¬ a.Hits (.active p d)) : Steers a (a.call (.active p d)) false
  | crash (p : Player) (d : Heading) (h : a.Hits (.active p d)) : Steers a (a.call (.active p d)) true

end Arena

/-- Where the users are: in a menu, which may name the player that lost, in a game, or in a pause of it. -/
inductive Session where
  | menu (loser : Option Player)
  | playing (a : Arena)
  | paused (a : Arena)
  | twoComputers
  | ended

/-- The steps of a session whose games begin with the arena `first`. -/
inductive Session.Step (first : Arena) : Session → Session → Prop
  | wait (S : Session) : Step first S S
  | start (loser : Option Player) : Step first (.menu loser) (.playing first)
  | connect (loser : Option Player) : Step first (.menu loser) .twoComputers
  | leave (loser : Option Player) : Step first (.menu loser) .ended
  | play {a b c : Arena} (hmoves : a.Moves b none) (hsteers : b.Steers c false) : Step first (.playing a) (.playing c)
  -- the pause key comes too late for nobody, not even on the tick of a crash
  | pause {a b c : Arena} {loser : Option Player} (hmoves : a.Moves b loser) (hsteers : b.Steers c false) :
      Step first (.playing a) (.paused c)
  | resume (a : Arena) : Step first (.paused a) (.playing a)
  | lose {a b c : Arena} {p : Player} (hmoves : a.Moves b (some p)) (hsteers : b.Steers c false) :
      Step first (.playing a) (.menu (some p))
  | fall {a b c : Arena} {loser : Option Player} (hmoves : a.Moves b loser) (hsteers : b.Steers c true) :
      Step first (.playing a) .ended

def menuScreen : Option Player → ScreenState
  | none => .main
  | some p => crashScreen p

/-- The state of the program shows the session. -/
def Shows (w : World) (s : Main) : Session → Prop
  | .menu loser => s.screenState = menuScreen loser
  | .playing a => s.screenState = .sGame ∧ Refines w.screen (gameVideo s) a
  | .paused a => s.screenState = .pause ∧ Refines w.screen (gameVideo s) a
  | .twoComputers => s.screenState = .mGame
  | .ended => s.screenState = .quit

/-! ### The arena of a game -/

section Arena

variable {scr : Screen} {v : Video} {a : Arena}

/-- A call reports a crash exactly if it runs its player into the trail. -/
private theorem Refines.hits_iff (h : Refines scr v a) {c : Call}
    (hon : ¬ c.Ignored v → BlockOnScreen scr (c.target v)) : (c.run scr v).1 ≠ 0 ↔ a.Hits c := by
  have hhits : a.Hits c ↔ ¬ c.Ignored v ∧ a.Crash c.player (c.info v).dir := by
    cases c with
    | active p d =>
      simp [Arena.Hits, Call.Ignored, LabChase.Ignored, Call.info, Call.isPassive, Call.player, h.heading p]
    | passive p =>
      have hno : ¬ (Call.passive p).Ignored v := not_ignored_passive v p
      simp only [Arena.Hits, hno, not_false_eq_true, true_and, h.heading p]
      rfl
  rw [hhits]
  by_cases hig : c.Ignored v
  · rw [Call.run_ignored scr hig]
    simp [hig]
  · rw [(h.run_enters hig (hon hig)).2, Arena.Crash, h.ahead_eq (hon hig)]
    simp only [hig, not_false_eq_true, true_and]
    rfl

/-- The number `passive_move_players` returns. -/
def crashCode : Option Player → Nat
  | none => 0
  | some .blue => 1
  | some .orange => 2

theorem Refines.tick (h : Refines scr v a) (h3 : scr.bytesPerPixel = 3)
    (hon : OnScreenRun scr v (Command.tick.calls scr v)) :
    ∃ b loser, a.Moves b loser ∧ Refines scr (passiveMovePlayers scr v).2 b ∧
      (passiveMovePlayers scr v).1 = crashCode loser := by
  rw [passiveMovePlayers_eq]
  by_cases hb : ((Call.passive .blue).run scr v).1 ≠ 0
  · have hcalls : Command.tick.calls scr v = [.passive .blue] := if_pos hb
    rw [hcalls] at hon
    have honBlue := (onScreenRun_cons.1 hon).1
    simp only [hb, ne_eq, not_false_eq_true, ↓reduceIte]
    exact ⟨_, some .blue, .blue ((h.hits_iff honBlue).1 hb), h.call h3 _ honBlue, rfl⟩
  · have hcalls : Command.tick.calls scr v = [.passive .blue, .passive .orange] := if_neg hb
    rw [hcalls] at hon
    obtain ⟨honBlue, hrest⟩ := onScreenRun_cons.1 hon
    have honOrange := (onScreenRun_cons.1 hrest).1
    have hblue := h.call h3 _ honBlue
    have hmiss := mt (h.hits_iff honBlue).2 hb
    simp only [hb, ↓reduceIte]
    by_cases ho : ((Call.passive .orange).run scr ((Call.passive .blue).run scr v).2).1 ≠ 0
    · simp only [ho, ne_eq, not_false_eq_true, ↓reduceIte]
      exact ⟨_, some .orange, .orange hmiss ((hblue.hits_iff honOrange).1 ho), hblue.call h3 _ honOrange, rfl⟩
    · simp only [ho, ↓reduceIte]
      exact ⟨_, none, .both hmiss (mt (hblue.hits_iff honOrange).2 ho), hblue.call h3 _ honOrange, rfl⟩

end Arena

/-! ### A notification in a game -/

section Game

variable {w : World} {s : Main} {a : Arena} {n : Notification}

/-- The screen after the timer branch. -/
def gameScreen : Option Player → ScreenState
  | none => .sGame
  | some p => crashScreen p

theorem Refines.timerBranch (h : Refines w.screen s.video a) (h3 : w.screen.bytesPerPixel = 3)
    (hs : s.screenState = .sGame) (hon : OnScreenRun w.screen s.video (callsOf w.screen s.video (tickCommand s n))) :
    ∃ b loser, a.Moves b loser ∧ Refines w.screen (timerBranch w n s).1.video b ∧
      (LabChase.timerBranch w n s).1.screenState = gameScreen loser := by
  by_cases hdue : TickDue s n
  · have hcalls : callsOf w.screen s.video (tickCommand s n) = Command.tick.calls w.screen s.video := by
      rw [tickCommand, if_pos hdue, callsOf, callsOf, List.append_nil]
    rw [hcalls] at hon
    obtain ⟨b, loser, hmoves, href, hcode⟩ := h.tick h3 hon
    obtain ⟨hvideo, -, hscreen⟩ := timerBranch_decided (w := w) hdue
    refine ⟨b, loser, hmoves, hvideo ▸ href, ?_⟩
    rw [hscreen, hcode, hs]
    cases loser with
    | none => rfl
    | some p => cases p <;> rfl
  · refine ⟨a, none, .rest, ?_⟩
    rcases timerBranch_idle w hdue with heq | heq <;> rw [heq] <;> exact ⟨h, hs⟩

theorem Refines.keyboardBranch (h : Refines w.screen s.video a) (h3 : w.screen.bytesPerPixel = 3)
    (hon : OnScreenRun w.screen s.video (callsOf w.screen s.video (keyCommand s n))) :
    ∃ b crashed, a.Steers b crashed ∧ Refines w.screen (keyboardBranch w n s).1.video b ∧
      (LabChase.keyboardBranch w n s).1.screenState =
        if crashed then .quit
        else if n.keyboard ∧ IsPauseKey n.status n.data then togglePause s.screenState else s.screenState := by
  by_cases hk : n.keyboard
  · rw [keyboardBranch_key w s hk]
    by_cases hm : MoveDue (afterKey n s)
    · -- the remembered move is a turn of its player
      let c : Call := .active (afterKey n s).nextMove.playerColor ⟨(afterKey n s).nextMove.dir, hm.1⟩
      have hig : ¬ c.Ignored s.video := hm.2
      have hcalls : callsOf w.screen s.video (keyCommand s n) = [c] := by
        have hd : ((turnOf n.status n.data).getD s.nextMove).dir ≠ .unchanged := hm.1
        simp only [keyCommand, hk, hd, ne_eq, not_false_eq_true, and_self, ↓reduceDIte]
        rfl
      rw [hcalls] at hon
      have honCall := (onScreenRun_cons.1 hon).1
      have hrun := Call.run_enters w.screen (c.info_dir_ne_unchanged h.steered) hig
      have hcall := h.call h3 c honCall
      have hhits := h.hits_iff honCall
      rw [hrun] at hcall hhits
      rw [applyNextMove_enters w hm]
      refine ⟨a.call c, decide (Occupied w.screen s.video c.player (c.info s.video).dir), ?_, hcall, ?_⟩
      · by_cases ho : Occupied w.screen s.video c.player (c.info s.video).dir
        · simp only [ho, decide_true]
          exact .crash _ _ (hhits.1 (by simp [ho]))
        · simp only [ho, decide_false]
          exact .turn _ _ (mt hhits.2 (by simp [ho]))
      · simp only [decide_eq_true_eq, hk, true_and]
        rfl
    · rw [applyNextMove_idle w hm]
      refine ⟨a, false, .rest, h, ?_⟩
      simp only [afterKey, hk, true_and, Bool.false_eq_true, ↓reduceIte]
  · rw [keyboardBranch_none w s hk]
    refine ⟨a, false, .rest, h, ?_⟩
    simp only [hk, Bool.false_eq_true, false_and, ↓reduceIte]

/-- A game that is still there after a turn of the loop is the one that handling the receive has left. -/
private theorem Refines.step_played (hflags : FlagsOk s) (hs : s.screenState = .sGame) {r : Receive} {b : Arena}
    (hsteered : ∀ p, (s.video.player p).currentDirection ≠ .unchanged) (h : Refines w.screen (handle w s r).1.video b)
    (h3 : w.screen.bytesPerPixel = 3) (hs' : ReadsKeys (step w s r).1.screenState) :
    Refines w.screen (gameVideo (step w s r).1) b := by
  have hgame : gameVideo s = s.video := if_neg (by rw [hs]; decide)
  have hsame := step_gameVideo hflags (Or.inl hs) (r := r) (fun hp => absurd (hs.symm.trans hp) (by decide))
    (by rwa [hgame]) hs'
  rw [hgame, ← handle_played_video hs] at hsame
  exact h.of_sameGame hsame (w.screen.bytesPerPixel_pos h3)

/-- A turn of the loop in a game. -/
private theorem step_playing (hflags : FlagsOk s) (h3 : w.screen.bytesPerPixel = 3) (hs : s.screenState = .sGame)
    (h : Refines w.screen (gameVideo s) a) {r : Receive}
    (hon : OnScreenRun w.screen s.video (callsOf w.screen s.video (commandsOf s r))) (first : Arena) :
    ∃ S, Session.Step first (.playing a) S ∧ Shows w (step w s r).1 S := by
  have hgame : gameVideo s = s.video := if_neg (by rw [hs]; decide)
  rw [hgame] at h
  have hidle : (handle w s r).1 = s → ∃ S, Session.Step first (.playing a) S ∧ Shows w (step w s r).1 S := by
    intro hsame
    have hs' : (step w s r).1.screenState = .sGame := by rw [step_screenState, hsame, hs]
    have hkept : Refines w.screen (handle w s r).1.video a := by rwa [hsame]
    exact ⟨_, .wait _, hs', hkept.step_played hflags hs h.steered h3 (Or.inl hs')⟩
  cases r with
  | failed => exact hidle rfl
  | other => exact hidle rfl
  | hardware n =>
    have hcommands : commandsOf s (.hardware n) = tickCommand s n ++ keyCommand s n := by
      rw [commandsOf_game hs, turnCommands_game hs]
    rw [hcommands, callsOf_append] at hon
    obtain ⟨honTick, honKey⟩ := onScreenRun_append.1 hon
    rw [← runCommands_eq, ← (timerBranch_video w n s).1, ← keyCommand_timerBranch w] at honKey
    obtain ⟨b, loser, hmoves, hb, hscreen⟩ := h.timerBranch h3 hs honTick
    obtain ⟨c, crashed, hsteers, hc, hscreen'⟩ := hb.keyboardBranch h3 honKey
    have hhandle : (handle w s (.hardware n)).1 = (LabChase.keyboardBranch w n (LabChase.timerBranch w n s).1).1 := by
      simp only [handle, hs]
    rw [hscreen, ← hhandle, ← step_screenState] at hscreen'
    rw [← hhandle] at hc
    cases crashed with
    | true => exact ⟨.ended, .fall hmoves hsteers, hscreen'⟩
    | false =>
      by_cases hpause : n.keyboard ∧ IsPauseKey n.status n.data
      · have hp : (step w s (.hardware n)).1.screenState = .pause := by
          rw [hscreen', if_pos hpause]
          rcases loser with _ | _ | _ <;> rfl
        exact ⟨.paused c, .pause hmoves hsteers, hp, hc.step_played hflags hs h.steered h3 (Or.inr hp)⟩
      · simp only [hpause, Bool.false_eq_true, ↓reduceIte] at hscreen'
        cases loser with
        | none =>
          exact ⟨.playing c, .play hmoves hsteers, hscreen', hc.step_played hflags hs h.steered h3 (Or.inl hscreen')⟩
        | some p => exact ⟨.menu (some p), .lose hmoves hsteers, hscreen'⟩

/-- A turn of the loop in a pause. -/
private theorem step_paused (hflags : FlagsOk s) (h3 : w.screen.bytesPerPixel = 3) (hs : s.screenState = .pause)
    (h : Refines w.screen (gameVideo s) a) {r : Receive}
    (hquiet : ∀ n, r = .hardware n → n.keyboard → ¬ MoveDue (afterKey n s)) (first : Arena) :
    ∃ S, Session.Step first (.paused a) S ∧ Shows w (step w s r).1 S := by
  have hnext : (step w s r).1.screenState = .pause ∨ (step w s r).1.screenState = .sGame := by
    rw [step_screenState]
    cases r with
    | failed => exact Or.inl hs
    | other => exact Or.inl hs
    | hardware n =>
      rw [handle_readsKeys (Or.inr hs), beforeKey, if_neg (by rw [hs]; decide)]
      by_cases hk : n.keyboard
      · rw [keyboardBranch_key w s hk, applyNextMove_idle w (hquiet n rfl hk)]
        by_cases hpause : IsPauseKey n.status n.data
        · right
          simp only [afterKey, hpause, ↓reduceIte, hs]
          rfl
        · left
          simp only [afterKey, hpause, ↓reduceIte, hs]
      · rw [keyboardBranch_none w s hk]
        exact Or.inl hs
  have hsame := step_gameVideo hflags (Or.inr hs) (r := r) (fun _ => hquiet) h.steered hnext.symm
  rw [commandsOf_paused hs] at hsame
  have hafter := h.of_sameGame hsame (w.screen.bytesPerPixel_pos h3)
  rcases hnext with hp | hp
  · exact ⟨.paused a, .wait _, hp, hafter⟩
  · exact ⟨.playing a, .resume a, hp, hafter⟩

end Game

/-! ### The whole run -/

private theorem isMenu_menuScreen (loser : Option Player) : IsMenu (menuScreen loser) := by
  rcases loser with _ | _ | _ <;> decide

private theorem nextScreens_menuScreen (loser : Option Player) :
    nextScreens (menuScreen loser) = [menuScreen loser, .sGame, .mGame, .quit] := by
  rcases loser with _ | _ | _ <;> rfl

/-- A turn of the loop in a menu. -/
private theorem step_menu {w : World} (h3 : w.screen.bytesPerPixel = 3) (hday : w.hour < 0x19) {rs : List Receive}
    {loser : Option Player} (hs : (mainRun w rs).screenState = menuScreen loser) (r : Receive) :
    ∃ S, Session.Step (Arena.start w.screen) (.menu loser) S ∧ Shows w (mainRun w (rs ++ [r])) S := by
  have hnext := handle_screen w (mainRun w rs) r
  rw [← step_screenState, ← mainRun_concat, hs, nextScreens_menuScreen] at hnext
  simp only [List.mem_cons, List.not_mem_nil, or_false] at hnext
  rcases hnext with hs' | hs' | hs' | hs'
  · exact ⟨.menu loser, .wait _, hs'⟩
  · have hmenu : IsMenu (mainRun w rs).screenState := hs ▸ isMenu_menuScreen loser
    obtain ⟨hgame, v₀, hc, hvideo⟩ := startsGame_video (r := r) ⟨hmenu, by rw [← mainRun_concat]; exact hs'⟩
    refine ⟨.playing (Arena.start w.screen), .start loser, hs', ?_⟩
    rw [hgame, hvideo]
    exact Refines.start h3 hc hday
  · exact ⟨.twoComputers, .connect loser, hs'⟩
  · exact ⟨.ended, .leave loser, hs'⟩

/-- By day, a run in which the blocks stay on the screen and nobody is turned in a pause is a session: there are states
of it, from the main menu on, each a step after the one before, that the program shows one after the other. -/
theorem main_refines_session {w : World} (h3 : w.screen.bytesPerPixel = 3) (hday : w.hour < 0x19) {rs : List Receive}
    (h : StaysInside w [] rs) :
    ∃ trace : List Session, (Session.menu none :: trace).IsChain (Session.Step (Arena.start w.screen)) ∧
      rs.inits.Forall₂ (fun pre S => Shows w (mainRun w pre) S) (.menu none :: trace) := by
  have hboot : Shows w (mainRun w []) (.menu none) := enter_screenState w (init w)
  refine exists_trace (R := Shows w) hboot fun pre r hpre S hS => ?_
  show ∃ S', _ ∧ Shows w (mainRun w (pre ++ [r])) S'
  have hS : Shows w (mainRun w pre) S := hS
  have hflags := flagsOk_mainRun w pre
  cases S with
  | menu loser => exact step_menu h3 hday hS r
  | playing a =>
    rw [mainRun_concat]
    exact step_playing hflags h3 hS.1 hS.2 (h.inside pre r hpre) _
  | paused a =>
    rw [mainRun_concat]
    refine step_paused hflags h3 hS.1 hS.2 (fun n hn hk => ?_) _
    exact not_due_of_parallel hS.1 (h.quiet pre n (hn ▸ hpre) hS.1 hk)
  | twoComputers =>
    have hnext := handle_screen w (mainRun w pre) r
    rw [← step_screenState, ← mainRun_concat, show (mainRun w pre).screenState = .mGame from hS] at hnext
    exact ⟨.twoComputers, .wait _, List.mem_singleton.1 hnext⟩
  | ended =>
    have hnext := handle_screen w (mainRun w pre) r
    rw [← step_screenState, ← mainRun_concat, show (mainRun w pre).screenState = .quit from hS] at hnext
    exact ⟨.ended, .wait _, List.mem_singleton.1 hnext⟩

/-- The first menu, a game with a pause, and back in the game. -/
theorem main_refines_session_paused :
    ∃ trace : List Session,
      (Session.menu none :: trace).IsChain (Session.Step (Arena.start (world115 0x12).screen)) ∧
        (click ++ pausedGame).inits.Forall₂ (fun pre S => Shows (world115 0x12) (mainRun (world115 0x12) pre) S)
          (.menu none :: trace) := by
  refine main_refines_session (w := world115 0x12) rfl (by decide)
    ⟨fun pre r hpre => ?_, fun pre n hpre hp hk m hm => ?_⟩
  · have hall : ∀ pre ∈ (click ++ pausedGame).inits, ∀ r ∈ click ++ pausedGame,
        OnScreenRun (world115 0x12).screen (mainRun (world115 0x12) pre).video
          (callsOf (world115 0x12).screen (mainRun (world115 0x12) pre).video
            (commandsOf (mainRun (world115 0x12) pre) r)) := by decide +kernel
    exact hall pre ((List.mem_inits ..).2 ((List.prefix_append ..).trans hpre)) r
      (hpre.subset (List.mem_append_right _ (List.mem_singleton_self r)))
  · have hpaused : ∀ pre ∈ (click ++ pausedGame).inits, (mainRun (world115 0x12) pre).screenState = .pause →
        click <+: pre := by decide +kernel
    obtain ⟨mid, rfl⟩ := hpaused pre ((List.mem_inits ..).2 ((List.prefix_append ..).trans hpre)) hp
    rw [List.append_assoc] at hpre
    exact goesOn_pausedGame.quiet mid n ((List.prefix_append_right_inj _).1 hpre) hp hk m hm

end LabChase
