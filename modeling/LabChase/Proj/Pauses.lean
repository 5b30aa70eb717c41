import LabChase.Proj.OutputBuffer
import LabChase.Proj.Playing
import LabChase.Proj.Trails

/-!
# A game and its pauses

A pause overwrites the framebuffer with a picture and keeps the game in `saveGameScreen`.  So the game itself is in the
framebuffer while it is played and in the copy while it is paused (`gameVideo`), and a game that is interrupted any
number of times shows the light-cycle game all the same (`paused_game_refines`), as long as no turn is keyed in during
a pause.
-/

namespace LabChase

open FlatMemory Runs

/-- The game of a state: during a pause its framebuffer is the saved one. -/
def gameVideo (s : Main) : Video :=
  if s.screenState = .pause then { s.video with videoMem := s.saveGameScreen } else s.video

/-- What a receive does to the game: nothing, except for the notifications handled in `S_GAME`. -/
def commandsOf (s : Main) (r : Receive) : List Command := if s.screenState = .sGame then turnCommands s r else []

def playedCommands (w : World) (s : Main) (rs : List Receive) : List Command :=
  outputs (fun s r => ((step w s r).1, commandsOf s r)) s rs

/-- After the receives `rs₀`, in the run through `rs`, the blocks that are entered in a game stay on the screen, and
every turn keyed in during a pause goes along or against the direction of its player. -/
structure StaysInside (w : World) (rs₀ rs : List Receive) : Prop where
  inside : ∀ pre r, pre ++ [r] <+: rs → OnScreenRun w.screen (mainRun w (rs₀ ++ pre)).video
    (callsOf w.screen (mainRun w (rs₀ ++ pre)).video (commandsOf (mainRun w (rs₀ ++ pre)) r))
  quiet : ∀ pre n, pre ++ [.hardware n] <+: rs → (mainRun w (rs₀ ++ pre)).screenState = .pause → n.keyboard →
    ∀ m, turnOf n.status n.data = some m → Parallel (mainRun w (rs₀ ++ pre)).video m

/-- After the receives `rs₀` a game goes on through `rs`, played or paused. -/
structure GoesOn (w : World) (rs₀ rs : List Receive) : Prop extends StaysInside w rs₀ rs where
  screen : ∀ pre, pre <+: rs → ReadsKeys (mainRun w (rs₀ ++ pre)).screenState

/-! ### States that show the same game -/

theorem SameGame.refl {scr : Screen} {v : Video} (hs : ∀ p, (v.player p).currentDirection ≠ .unchanged) :
    SameGame scr v v := ⟨fun _ => rfl, hs, fun _ _ => rfl⟩

theorem SameGame.trans {scr : Screen} {u v w : Video} (h : SameGame scr u v) (h' : SameGame scr v w) :
    SameGame scr u w :=
  ⟨fun p => (h.player p).trans (h'.player p), h.steered, fun a ha => (h.mem a ha).trans (h'.mem a ha)⟩

theorem SameGame.symm {scr : Screen} {v w : Video} (h : SameGame scr v w) : SameGame scr w v :=
  ⟨fun p => (h.player p).symm, fun p => h.player p ▸ h.steered p, fun a ha => (h.mem a ha).symm⟩

private theorem SameGame.enteredBlocks_eq {scr : Screen} {v w : Video} (h : SameGame scr v w)
    (hb : 0 < scr.bytesPerPixel.toNat) {cs : List Call} (hon : OnScreenRun scr v cs) :
    enteredBlocks scr w cs = enteredBlocks scr v cs := by
  induction cs generalizing v w with
  | nil => rfl
  | cons c cs ih =>
    obtain ⟨hfirst, hrest⟩ := onScreenRun_cons.1 hon
    have hsame := (h.call hb hfirst).2
    have htarget : c.target w = c.target v := by rw [Call.target, Call.target, ← h.info_eq, h.target_eq]
    simp only [enteredBlocks, ← h.ignored_iff, ih hsame hrest, htarget]

private theorem SameGame.calls_eq {scr : Screen} {v w : Video} (h : SameGame scr v w) (hb : 0 < scr.bytesPerPixel.toNat)
    {cmd : Command} (hon : OnScreenRun scr v (cmd.calls scr v)) : cmd.calls scr w = cmd.calls scr v := by
  cases cmd with
  | steer p d => rfl
  | tick =>
    obtain ⟨cs, hcs⟩ := Command.tick.calls_eq_cons scr v
    rw [hcs] at hon
    have hret := (h.call hb (onScreenRun_cons.1 hon).1).1
    rw [Command.first] at hret
    rw [Command.calls, Command.calls, hret]

/-- Two states that show the same game make the same calls on the same commands. -/
theorem SameGame.callsOf_eq {scr : Screen} {v w : Video} (h : SameGame scr v w) (hb : 0 < scr.bytesPerPixel.toNat)
    {cmds : List Command} (hon : OnScreenRun scr v (callsOf scr v cmds)) :
    callsOf scr w cmds = callsOf scr v cmds := by
  induction cmds generalizing v w with
  | nil => rfl
  | cons cmd cmds ih =>
    obtain ⟨hfirst, hrest⟩ := onScreenRun_append.1 hon
    rw [← Command.run_snd] at hrest
    rw [callsOf, callsOf, h.calls_eq hb hfirst, ih (h.command hb hfirst).2 hrest]

theorem SameGame.onScreenRun {scr : Screen} {v w : Video} (h : SameGame scr v w) (hb : 0 < scr.bytesPerPixel.toNat)
    {cmds : List Command} (hon : OnScreenRun scr v (callsOf scr v cmds)) :
    OnScreenRun scr w (callsOf scr w cmds) := by
  rw [h.callsOf_eq hb hon, OnScreenRun, h.enteredBlocks_eq hb hon]
  exact hon

private theorem SameGame.commands {scr : Screen} {v w : Video} (h : SameGame scr v w) (hb : 0 < scr.bytesPerPixel.toNat)
    {cmds : List Command} (hon : OnScreenRun scr v (callsOf scr v cmds)) :
    SameGame scr (runCommands scr v cmds) (runCommands scr w cmds) := by
  induction cmds generalizing v w with
  | nil => exact h
  | cons cmd cmds ih =>
    obtain ⟨hfirst, hrest⟩ := onScreenRun_append.1 hon
    rw [← Command.run_snd] at hrest
    exact ih (h.command hb hfirst).2 hrest

theorem runCommands_steered {scr : Screen} {v : Video} (hs : ∀ p, (v.player p).currentDirection ≠ .unchanged)
    (cmds : List Command) (p : Player) : ((runCommands scr v cmds).player p).currentDirection ≠ .unchanged := by
  rw [runCommands_eq]
  exact runCalls_steered hs _ p

/-- A state that shows the same game as one that shows the light-cycle game shows it too. -/
theorem Refines.of_sameGame {scr : Screen} {v w : Video} {a : Arena} (h : Refines scr v a) (hw : SameGame scr v w)
    (hb : 0 < scr.bytesPerPixel.toNat) : Refines scr w a where
  cell p := hw.player p ▸ h.cell p
  heading p := hw.player p ▸ h.heading p
  steered p := hw.player p ▸ h.steered p
  aligned := h.aligned
  trailAligned := h.trailAligned
  lethal x y hxy := by
    rw [← h.lethal x y hxy, Lethal, Lethal, findColor_congr hw.mem hxy hb]

/-! ### One turn of the loop -/

section Step

variable {w : World} {s : Main} (hflags : FlagsOk s)

theorem commandsOf_game (hs : s.screenState = .sGame) (r : Receive) : commandsOf s r = turnCommands s r := if_pos hs

theorem commandsOf_paused (hp : s.screenState = .pause) (r : Receive) : commandsOf s r = [] :=
  if_neg (by rw [hp]; decide)

/-- In a pause a notification that leaves no move due moves nobody and keeps the saved game. -/
private theorem handle_paused_video (hp : s.screenState = .pause) {r : Receive}
    (hquiet : ∀ n, r = .hardware n → n.keyboard → ¬ MoveDue (afterKey n s)) :
    (handle w s r).1.video = s.video ∧ (handle w s r).1.saveGameScreen = s.saveGameScreen := by
  refine ⟨?_, (handle_sameFlags w s r).saveGameScreen⟩
  cases r with
  | failed => rfl
  | other => rfl
  | hardware n =>
    by_cases hk : n.keyboard
    · rw [handle_readsKeys (Or.inr hp), keyboardBranch_key w _ hk, beforeKey, if_neg (by simp [hp]),
        applyNextMove_idle w (hquiet n rfl hk)]
      rfl
    · rw [handle_readsKeys (Or.inr hp), keyboardBranch_none w _ hk, beforeKey, if_neg (by simp [hp])]

theorem handle_played_video (hs : s.screenState = .sGame) (r : Receive) :
    (handle w s r).1.video = runCommands w.screen s.video (commandsOf s r) := by
  rw [commandsOf_game hs, handle_turns_video w (Or.inl hs)]

include hflags

/-- A turn of the loop of `S_GAME` that stays in the game does to it what the commands do, also if it suspends it. -/
private theorem step_played_game (hs : s.screenState = .sGame) {r : Receive}
    (hsteered : ∀ p, ((gameVideo s).player p).currentDirection ≠ .unchanged)
    (hs' : ReadsKeys (step w s r).1.screenState) :
    SameGame w.screen (runCommands w.screen (gameVideo s) (commandsOf s r)) (gameVideo (step w s r).1) := by
  have hentry := step_entry (w := w) hflags r
  rw [step_screenState] at hs'
  have hgame : gameVideo s = s.video := by simp [gameVideo, hs]
  have hafter : ∀ p, ((handle w s r).1.video.player p).currentDirection ≠ .unchanged := by
    rw [handle_played_video hs, ← hgame]
    exact runCommands_steered hsteered _
  rw [hgame, ← handle_played_video hs, step_fst]
  generalize handle w s r = t at hentry hs' hafter
  generalize enter w t.1 = e at hentry
  cases hentry with
  | stay ht =>
    have hplayed : gameVideo t.1 = t.1.video := by simp [gameVideo, ht, hs]
    rw [hplayed]
    exact SameGame.refl hafter
  | exit ht =>
    rw [ht] at hs'
    exact absurd hs' (by simp [ReadsKeys])
  | newGame hmenu _ =>
    rw [hs] at hmenu
    exact absurd hmenu (by decide)
  | pause _ ht =>
    have hpaused : gameVideo (suspendGame w t.1) = { t.1.video with videoMem := savedScreen w t.1 } := by
      simp [gameVideo, suspendGame, ht, drawPicture]
    rw [hpaused]
    exact ⟨fun p => by cases p <;> rfl, hafter, fun a ha => (savedScreen_eq w t.1 ha).symm⟩
  | resume hp _ => exact absurd (hs.symm.trans hp) (by decide)
  | gameOver _ _ ht =>
    rcases ht with ⟨ht, -⟩ | ⟨ht, -⟩ <;> rw [ht] at hs' <;> exact absurd hs' (by simp [ReadsKeys])

/-- A turn of the loop of `PAUSE` that leaves no move due does nothing to the game, also if it resumes it. -/
private theorem step_paused_game (hp : s.screenState = .pause) {r : Receive}
    (hquiet : ∀ n, r = .hardware n → n.keyboard → ¬ MoveDue (afterKey n s))
    (hsteered : ∀ p, ((gameVideo s).player p).currentDirection ≠ .unchanged)
    (hs' : ReadsKeys (step w s r).1.screenState) :
    SameGame w.screen (gameVideo s) (gameVideo (step w s r).1) := by
  have hentry := step_entry (w := w) hflags r
  rw [step_screenState] at hs'
  have hgame : gameVideo s = { s.video with videoMem := s.saveGameScreen } := by simp [gameVideo, hp]
  obtain ⟨hvideo, hsaved⟩ := handle_paused_video (w := w) hp hquiet
  rw [step_fst]
  generalize handle w s r = t at hentry hs' hvideo hsaved
  generalize enter w t.1 = e at hentry
  cases hentry with
  | stay ht =>
    have hpaused : gameVideo t.1 = gameVideo s := by
      rw [hgame, ← hvideo, ← hsaved]
      simp [gameVideo, ht, hp]
    rw [hpaused]
    exact SameGame.refl hsteered
  | exit ht =>
    rw [ht] at hs'
    exact absurd hs' (by simp [ReadsKeys])
  | newGame hmenu _ =>
    rw [hp] at hmenu
    exact absurd hmenu (by decide)
  | pause hs _ => exact absurd (hp.symm.trans hs) (by decide)
  | resume _ ht =>
    have hplayed : gameVideo (resumeGame w t.1) = restoredVideo w t.1 := by
      simp [gameVideo, resumeGame, ht]
    rw [hplayed]
    refine ⟨fun p => ?_, hsteered, fun a ha => ?_⟩
    · rw [hgame, ← hvideo]
      cases p <;> rfl
    · rw [restoredVideo_eq w t.1 ha, hsaved, hgame]
  | gameOver _ hs _ => exact absurd (hp.symm.trans hs) (by decide)

/-- A turn of the loop that stays in the game does to it what the commands do, whether it is played, suspended, paused
or resumed. -/
theorem step_gameVideo (hs : ReadsKeys s.screenState) {r : Receive}
    (hquiet : s.screenState = .pause → ∀ n, r = .hardware n → n.keyboard → ¬ MoveDue (afterKey n s))
    (hsteered : ∀ p, ((gameVideo s).player p).currentDirection ≠ .unchanged)
    (hs' : ReadsKeys (step w s r).1.screenState) :
    SameGame w.screen (runCommands w.screen (gameVideo s) (commandsOf s r)) (gameVideo (step w s r).1) := by
  rcases hs with hplayed | hpaused
  · exact step_played_game hflags hplayed hsteered hs'
  · rw [commandsOf_paused hpaused]
    exact step_paused_game hflags hpaused (hquiet hpaused) hsteered hs'

end Step

/-! ### A whole game -/

private theorem playedCommands_append (w : World) (rs₀ rs rs' : List Receive) :
    playedCommands w (mainRun w rs₀) (rs ++ rs') =
      playedCommands w (mainRun w rs₀) rs ++ playedCommands w (mainRun w (rs₀ ++ rs)) rs' := by
  have hrun : mainRun w (rs₀ ++ rs) = run (fun s r => (step w s r).1) (mainRun w rs₀) rs := run_append _ _ _ _
  rw [playedCommands, outputs_append, hrun]
  rfl

theorem playedCommands_concat (w : World) (rs₀ rs : List Receive) (r : Receive) :
    playedCommands w (mainRun w rs₀) (rs ++ [r]) =
      playedCommands w (mainRun w rs₀) rs ++ commandsOf (mainRun w (rs₀ ++ rs)) r := by
  rw [playedCommands_append]
  simp [playedCommands, outputs]

theorem GoesOn.take {w : World} {rs₀ rs pre : List Receive} (h : GoesOn w rs₀ rs) (hpre : pre <+: rs) :
    GoesOn w rs₀ pre where
  screen pre' h' := h.screen pre' (h'.trans hpre)
  inside pre' r h' := h.inside pre' r (h'.trans hpre)
  quiet pre' n h' := h.quiet pre' n (h'.trans hpre)

/-- In a pause a notification that turns nobody leaves no move due. -/
theorem not_due_of_parallel {w : World} {rs : List Receive} {n : Notification}
    (hp : (mainRun w rs).screenState = .pause)
    (hquiet : ∀ m, turnOf n.status n.data = some m → Parallel (mainRun w rs).video m) :
    ¬ MoveDue (afterKey n (mainRun w rs)) := by
  cases ht : turnOf n.status n.data with
  | none =>
    rw [afterKey_moveDue_iff ht]
    exact paused_not_due w _ hp
  | some m =>
    have hnext : (afterKey n (mainRun w rs)).nextMove = m := by simp [afterKey, ht]
    rw [MoveDue, hnext]
    exact fun hdue => hdue.2 (hquiet m ht)

/-- What a receive does to the game stays on the screen. -/
theorem GoesOn.onScreenRun {w : World} {rs₀ rs pre : List Receive} {r : Receive} (h : GoesOn w rs₀ rs)
    (hpre : pre ++ [r] <+: rs) :
    let s := mainRun w (rs₀ ++ pre)
    OnScreenRun w.screen (gameVideo s) (callsOf w.screen (gameVideo s) (commandsOf s r)) := by
  intro s
  rcases h.screen pre ((List.prefix_append pre [r]).trans hpre) with hs | hs
  · have hgame : gameVideo s = s.video := if_neg (by rw [hs]; decide)
    rw [hgame]
    exact h.inside pre r hpre
  · rw [commandsOf_paused hs]
    intro pos hpos
    exact absurd hpos List.not_mem_nil

/-- A game that goes on is the game its commands play, pauses or not. -/
theorem GoesOn.sameGame {w : World} (hb : 0 < w.screen.bytesPerPixel.toNat) {rs₀ rs : List Receive}
    (h : GoesOn w rs₀ rs)
    (hsteered : ∀ p, ((gameVideo (mainRun w rs₀)).player p).currentDirection ≠ .unchanged) :
    let start := gameVideo (mainRun w rs₀)
    let cmds := playedCommands w (mainRun w rs₀) rs
    SameGame w.screen (runCommands w.screen start cmds) (gameVideo (mainRun w (rs₀ ++ rs))) ∧
      OnScreenRun w.screen start (callsOf w.screen start cmds) := by
  have hrun : ∀ pre, pre <+: rs →
      let start := gameVideo (mainRun w rs₀)
      let cmds := playedCommands w (mainRun w rs₀) pre
      SameGame w.screen (runCommands w.screen start cmds) (gameVideo (mainRun w (rs₀ ++ pre))) ∧
        OnScreenRun w.screen start (callsOf w.screen start cmds) := by
    refine prefix_induction ?_ fun pre r hpre ih => ?_
    · rw [List.append_nil]
      exact ⟨SameGame.refl hsteered, fun pos hpos => absurd hpos List.not_mem_nil⟩
    · obtain ⟨hsame, hon⟩ := ih
      -- the commands of the last turn stay on the screen in the simulated game as well
      have hlast := hsame.symm.onScreenRun hb (h.onScreenRun hpre)
      have hflags := flagsOk_mainRun w (rs₀ ++ pre)
      have hscreen := h.screen pre ((List.prefix_append pre [r]).trans hpre)
      have hscreen' := h.screen (pre ++ [r]) hpre
      rw [← List.append_assoc, mainRun_concat] at hscreen'
      have hstep := step_gameVideo hflags hscreen (r := r)
        (fun hp n hn hk => not_due_of_parallel hp (h.quiet pre n (hn ▸ hpre) hp hk))
        (fun p => hsame.player p ▸ runCommands_steered hsteered _ p) hscreen'
      simp only
      rw [playedCommands_concat, ← List.append_assoc, mainRun_concat, callsOf_append, onScreenRun_append,
        runCommands_append, ← runCommands_eq]
      exact ⟨(hsame.commands hb hlast).trans hstep, hon, hlast⟩
  exact hrun rs List.prefix_rfl

theorem startsGame_video {w : World} {rs₀ : List Receive} {r : Receive} (hstart : StartsGame w (mainRun w rs₀) r) :
    gameVideo (mainRun w (rs₀ ++ [r])) = (mainRun w (rs₀ ++ [r])).video ∧
      ∃ v₀, Cleared w.screen v₀.videoMem ∧ (mainRun w (rs₀ ++ [r])).video = startGame w.screen w.hour v₀ := by
  have hscreen := hstart.2
  constructor
  · rw [mainRun_concat, gameVideo, if_neg (by rw [hscreen]; decide)]
  · rw [step_screenState] at hscreen
    refine ⟨_, cleared_clearScreen w (handle w (mainRun w rs₀) r).1.video, ?_⟩
    rw [mainRun_concat, step_fst, enter_newGame (flagsOk_mainRun w rs₀) hstart.1 hscreen]
    rfl

/-- By day, a game whose blocks stay on the screen and in whose pauses nobody is turned shows the light-cycle game all
the time, in the framebuffer while it is played and in the saved copy while it is paused. -/
theorem paused_game_refines {w : World} (h3 : w.screen.bytesPerPixel = 3) (hday : w.hour < 0x19) {rs₀ : List Receive}
    {r : Receive} (hstart : StartsGame w (mainRun w rs₀) r) {rs : List Receive} (h : GoesOn w (rs₀ ++ [r]) rs) :
    Refines w.screen (gameVideo (mainRun w (rs₀ ++ [r] ++ rs)))
      (run Arena.call (Arena.start w.screen)
        (callsOf w.screen (mainRun w (rs₀ ++ [r])).video (playedCommands w (mainRun w (rs₀ ++ [r])) rs))) := by
  have hb := w.screen.bytesPerPixel_pos h3
  obtain ⟨hgame, v₀, hc, hvideo⟩ := startsGame_video hstart
  have hbegin : Refines w.screen (mainRun w (rs₀ ++ [r])).video (Arena.start w.screen) := by
    rw [hvideo]
    exact Refines.start h3 hc hday
  obtain ⟨hsame, hon⟩ := h.sameGame hb (by rw [hgame]; exact hbegin.steered)
  rw [hgame] at hsame hon
  rw [runCommands_eq] at hsame
  exact (run_refines h3 hbegin _ hon).1.of_sameGame hsame hb

/-- BLUE turns up; the game is paused, the key is pressed again, and the game goes on for one tick. -/
def pausedGame : List Receive := [key 145, key 153, key 145, key 153] ++ timerInterrupts 5

theorem goesOn_pausedGame : GoesOn (world115 0x12) click pausedGame where
  screen pre hpre := by
    have hall : ∀ pre ∈ pausedGame.inits, ReadsKeys (mainRun (world115 0x12) (click ++ pre)).screenState := by
      decide +kernel
    exact hall pre ((List.mem_inits ..).2 hpre)
  inside pre r hpre := by
    have hall : ∀ pre ∈ pausedGame.inits, ∀ r ∈ pausedGame,
        OnScreenRun (world115 0x12).screen (mainRun (world115 0x12) (click ++ pre)).video
          (callsOf (world115 0x12).screen (mainRun (world115 0x12) (click ++ pre)).video
            (commandsOf (mainRun (world115 0x12) (click ++ pre)) r)) := by decide +kernel
    exact hall pre ((List.mem_inits ..).2 ((List.prefix_append ..).trans hpre)) r
      (hpre.subset (List.mem_append_right _ (List.mem_singleton_self r)))
  quiet pre n hpre hp hk m hm := by
    have hpaused : ∀ pre ∈ pausedGame.inits, (mainRun (world115 0x12) (click ++ pre)).screenState = .pause →
        pre = [key 145, key 153] ∨ pre = [key 145, key 153, key 145] := by decide +kernel
    have hmem : pre ∈ pausedGame.inits := (List.mem_inits ..).2 ((List.prefix_append ..).trans hpre)
    rcases hpaused pre hmem hp with rfl | rfl
    · obtain rfl : n = ⟨0x2, 0x01, 145⟩ := by simpa [pausedGame, key] using hpre
      obtain rfl : ⟨.up, .blue⟩ = m := Option.some.inj hm
      exact Or.inl ⟨rfl, by decide +kernel⟩
    · obtain rfl : n = ⟨0x2, 0x01, 153⟩ := by simpa [pausedGame, key] using hpre
      cases hm

theorem paused_game_refines_once :
    let start := (mainRun (world115 0x12) click).video
    Refines (world115 0x12).screen (gameVideo (mainRun (world115 0x12) (click ++ pausedGame)))
      (run Arena.call (Arena.start (world115 0x12).screen)
        (callsOf (world115 0x12).screen start
          (playedCommands (world115 0x12) (mainRun (world115 0x12) click) pausedGame))) :=
  @paused_game_refines (world115 0x12) rfl (by decide) [mouseByte 0x09, mouseByte 0] (mouseByte 0)
    ⟨by decide +kernel, by decide +kernel⟩ pausedGame goesOn_pausedGame

end LabChase
