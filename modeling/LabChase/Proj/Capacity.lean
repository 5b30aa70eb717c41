import LabChase.Proj.GameOver
import LabChase.Proj.Tempo

/-!
# Every game ends

Each move without a crash enters a block that nobody entered before, and the blocks lie on one lattice, so a screen has
room for a bounded number of them (`moves_le_area`).  A tick makes two moves and the loop makes a tick out of every
fifth timer interrupt.  A crash ends the game, unless the pause key comes in the notification of the fatal tick
(`stays_crashes_le`).  So a game whose blocks stay on the screen and in whose pauses nobody is turned lasts for a number
of timer interrupts that is bounded by the resolution and by the number of these keys, however it is steered and
however often it is paused (`game_bounded`).  By night every move is a crash, and the number of these keys alone is a
bound (`night_game_bounded`).
-/

namespace LabChase

open FlatMemory Lattice Runs

/-- The values the calls of `move_player` return, in order. -/
def returns (scr : Screen) (v : Video) (cs : List Call) : List Nat :=
  outputs (fun v c => ((c.run scr v).2, [(c.run scr v).1])) v cs

/-- The crashes among the calls. -/
def crashes (scr : Screen) (v : Video) (cs : List Call) : Nat := (returns scr v cs).countP (· ≠ 0)

/-- The corners of the blocks that are entered, each once. -/
def enteredCorners (scr : Screen) (v : Video) (cs : List Call) : Finset (ℤ × ℤ) :=
  ((enteredBlocks scr v cs).map corner).toFinset

private theorem crashes_append (scr : Screen) (v : Video) (cs ds : List Call) :
    crashes scr v (cs ++ ds) = crashes scr v cs + crashes scr (runCalls scr v cs) ds := by
  rw [crashes, returns, outputs_append, List.countP_append]
  rfl

private theorem crashes_singleton (scr : Screen) (v : Video) (c : Call) :
    crashes scr v [c] = if (c.run scr v).1 ≠ 0 then 1 else 0 := by
  simp [crashes, returns, outputs, List.countP_cons]

private theorem mem_enteredCorners {scr : Screen} {v : Video} {cs : List Call} {b : ℤ × ℤ} :
    b ∈ enteredCorners scr v cs ↔ ∃ pos ∈ enteredBlocks scr v cs, b = corner pos := by
  rw [enteredCorners, List.mem_toFinset, List.mem_map]
  exact ⟨fun ⟨pos, hpos, h⟩ => ⟨pos, hpos, h.symm⟩, fun ⟨pos, hpos, h⟩ => ⟨pos, hpos, h.symm⟩⟩

/-! ### Moves and blocks -/

/-- Of the moves of a run, those that are no crash enter a block for the first time. -/
private theorem card_enteredCorners {scr : Screen} (h3 : scr.bytesPerPixel = 3) {v : Video} {a : Arena}
    (h : Refines scr v a) (htrail : a.trail = ∅) {cs : List Call} (hon : OnScreenRun scr v cs) :
    (enteredCorners scr v cs).card + crashes scr v cs = (enteredBlocks scr v cs).length := by
  induction cs using List.reverseRecOn with
  | nil => rfl
  | append_singleton cs c ih =>
    obtain ⟨hpre, hlast⟩ := onScreenRun_append.1 hon
    obtain ⟨href, hmem⟩ := run_refines h3 h cs hpre
    rw [crashes_append, crashes_singleton, enteredCorners, enteredBlocks_append]
    by_cases hig : c.Ignored (runCalls scr v cs)
    · have hnone : enteredBlocks scr (runCalls scr v cs) [c] = [] := by simp [enteredBlocks, hig]
      rw [hnone, List.append_nil, Call.run_ignored scr hig, if_neg (by simp)]
      exact ih hpre
    · have hone : enteredBlocks scr (runCalls scr v cs) [c] = [c.target (runCalls scr v cs)] := by
        simp [enteredBlocks, hig]
      have htarget := (onScreenRun_cons.1 hlast).1 hig
      -- the move is a crash exactly if its corner is one of those entered before
      have hcrash : (c.run scr (runCalls scr v cs)).1 ≠ 0 ↔
          corner (c.target (runCalls scr v cs)) ∈ enteredCorners scr v cs := by
        rw [(href.run_enters hig htarget).2, hmem, mem_enteredCorners, htrail]
        simp
      rw [hone, List.map_append, List.toFinset_append, List.map_singleton, List.toFinset_cons, List.toFinset_nil,
        insert_empty_eq, Finset.union_comm, ← Finset.insert_eq, List.length_append, List.length_singleton, ← ih hpre]
      rw [← enteredCorners]
      by_cases hin : corner (c.target (runCalls scr v cs)) ∈ enteredCorners scr v cs
      · rw [if_pos (hcrash.2 hin), Finset.insert_eq_of_mem hin, Nat.add_assoc]
      · rw [if_neg (mt hcrash.1 hin), Finset.card_insert_of_notMem hin]
        omega

private theorem enteredCorners_aligned {scr : Screen} (h3 : scr.bytesPerPixel = 3) {v : Video} {a : Arena}
    (h : Refines scr v a) {cs : List Call} (hon : OnScreenRun scr v cs) :
    ∀ b ∈ enteredCorners scr v cs, ∀ c ∈ enteredCorners scr v cs, Aligned 5 b c := by
  obtain ⟨href, hmem⟩ := run_refines h3 h cs hon
  have htrail : ∀ b ∈ enteredCorners scr v cs, b ∈ (run Arena.call a cs).trail := fun b hb =>
    (hmem b).2 (Or.inr (mem_enteredCorners.1 hb))
  intro b hb c hc
  exact (href.trailAligned .blue b (htrail b hb)).symm.trans (href.trailAligned .blue c (htrail c hc))

/-- By day, over any calls whose blocks stay on the screen, the moves that are no crash fill an area of 25 pixels
each. -/
theorem moves_le_area {scr : Screen} (h3 : scr.bytesPerPixel = 3) {hour : UInt8} (hday : hour < 0x19) {v₀ : Video}
    (hc : Cleared scr v₀.videoMem) {cs : List Call} (hon : OnScreenRun scr (startGame scr hour v₀) cs) :
    25 * (enteredBlocks scr (startGame scr hour v₀) cs).length ≤
      scr.hRes.toNat * scr.vRes.toNat + 25 * crashes scr (startGame scr hour v₀) cs := by
  have href := Refines.start h3 hc hday
  have hcard := card_enteredCorners h3 href rfl hon
  have hroom := card_mul_le_area (k := 5) (m := scr.hRes.toNat) (n := scr.vRes.toNat)
    (S := enteredCorners scr (startGame scr hour v₀) cs) (enteredCorners_aligned h3 href hon) ?_
  · omega
  · intro b hb
    obtain ⟨pos, hpos, rfl⟩ := mem_enteredCorners.1 hb
    have hblock := hon pos hpos
    unfold BlockOnScreen at hblock
    simp only [corner]
    omega

/-! ### Ticks and crashes -/

private theorem Call.run_fst (scr : Screen) {v : Video} (hs : ∀ p, (v.player p).currentDirection ≠ .unchanged)
    (c : Call) : (c.run scr v).1 = 0 ∨ (c.run scr v).1 = 1 := by
  by_cases hig : c.Ignored v
  · rw [Call.run_ignored scr hig]
    exact Or.inl rfl
  · rw [Call.run_enters scr (c.info_dir_ne_unchanged hs) hig]
    by_cases ho : Occupied scr v c.player (c.info v).dir <;> simp [ho]

/-- A command makes one crash if it reports one: a tick stops at the first. -/
private theorem crashes_calls (scr : Screen) (v : Video) (cmd : Command) :
    crashes scr v (cmd.calls scr v) = if (cmd.run scr v).1 ≠ 0 then 1 else 0 := by
  cases cmd with
  | steer p d => exact crashes_singleton scr v (.active p d)
  | tick =>
    simp only [Command.calls, Command.run, passiveMovePlayers_eq]
    by_cases hblue : ((Call.passive .blue).run scr v).1 = 0
    · have hpair : crashes scr v [Call.passive .blue, .passive .orange] =
          crashes scr v [.passive .blue] + crashes scr ((Call.passive .blue).run scr v).2 [.passive .orange] :=
        crashes_append scr v [.passive .blue] [.passive .orange]
      simp only [hblue, ne_eq, not_true_eq_false, ↓reduceIte, hpair, crashes_singleton, Nat.zero_add]
      by_cases horange : ((Call.passive .orange).run scr ((Call.passive .blue).run scr v).2).1 = 0 <;> simp [horange]
    · simp [hblue, crashes_singleton]

/-- Every tick makes two moves, or one and a crash. -/
private theorem two_mul_ticks_le {scr : Screen} {v : Video} {cmds : List Command} :
    2 * ticks cmds ≤ (enteredBlocks scr v (callsOf scr v cmds)).length + crashes scr v (callsOf scr v cmds) := by
  induction cmds generalizing v with
  | nil => exact Nat.le_refl 0
  | cons cmd cmds ih =>
    have hle := ih (v := (cmd.run scr v).2)
    rw [callsOf, enteredBlocks_append, crashes_append, ← Command.run_snd, List.length_append, ticks, List.countP_cons,
      ← ticks]
    cases cmd with
    | steer p d =>
      simp only [Command.isTick, Bool.false_eq_true, ↓reduceIte, Nat.add_zero]
      omega
    | tick =>
      have hcalls : 2 ≤ (enteredBlocks scr v (Command.tick.calls scr v)).length +
          crashes scr v (Command.tick.calls scr v) := by
        have hmoves : ∀ v p, ¬ (Call.passive p).Ignored v := fun v p => not_ignored_passive v p
        by_cases hblue : ((Call.passive .blue).run scr v).1 = 0
        · simp [Command.calls, hblue, enteredBlocks, hmoves]
        · simp [Command.calls, hblue, enteredBlocks, hmoves, crashes_singleton]
      simp only [Command.isTick, ↓reduceIte]
      omega

/-! ### Crashes that do not end the game -/

/-- The pause key comes together with a timer interrupt. -/
def Receive.pausesTick : Receive → Bool
  | .hardware n => n.timer && n.keyboard && decide (IsPauseKey n.status n.data)
  | _ => false

/-- A turn that runs into a trail ends the program. -/
private theorem keyboardBranch_crashes {w : World} {n : Notification} {t : Main}
    (hs : ∀ p, (t.video.player p).currentDirection ≠ .unchanged)
    (hq : (keyboardBranch w n t).1.screenState ≠ .quit) :
    crashes w.screen t.video (callsOf w.screen t.video (keyCommand t n)) = 0 := by
  unfold keyCommand
  split
  case isFalse => rfl
  case isTrue h =>
    have hone := Call.run_fst w.screen hs (.active ((turnOf n.status n.data).getD t.nextMove).playerColor ⟨_, h.2⟩)
    have hcalls : callsOf w.screen t.video
        [.steer ((turnOf n.status n.data).getD t.nextMove).playerColor ⟨_, h.2⟩] =
        [.active ((turnOf n.status n.data).getD t.nextMove).playerColor ⟨_, h.2⟩] := rfl
    rw [hcalls, crashes_singleton]
    rcases hone with hzero | hone
    · rw [hzero]
      rfl
    · refine absurd ?_ hq
      rw [keyboardBranch_key w t h.1]
      have hdir : (afterKey n t).nextMove.dir ≠ .unchanged := h.2
      unfold applyNextMove
      rw [if_pos hdir]
      exact if_pos hone

/-- Without a pause key the keyboard branch keeps the screen, unless it ends the program. -/
private theorem keyboardBranch_without_pause {w : World} {n : Notification} {t : Main}
    (hno : ¬ (n.keyboard ∧ IsPauseKey n.status n.data)) :
    (keyboardBranch w n t).1.screenState = t.screenState ∨ (keyboardBranch w n t).1.screenState = .quit := by
  by_cases hk : n.keyboard
  · have hafter : (afterKey n t).screenState = t.screenState := if_neg fun h => hno ⟨hk, h⟩
    rw [keyboardBranch_key w _ hk, ← hafter]
    exact applyNextMove_screen w _
  · rw [keyboardBranch_none w _ hk]
    exact Or.inl rfl

/-- A turn of the loop of `S_GAME` after which the game goes on, played or paused, made at most one crash, and that one
with the pause key. -/
theorem stays_crashes_le {w : World} {s : Main} (hs : s.screenState = .sGame)
    (hsteered : ∀ p, (s.video.player p).currentDirection ≠ .unchanged) {r : Receive}
    (hstay : ReadsKeys (handle w s r).1.screenState) :
    crashes w.screen s.video (callsOf w.screen s.video (commandsOf s r)) ≤ if r.pausesTick then 1 else 0 := by
  rw [commandsOf_game hs]
  cases r with
  | failed => exact Nat.zero_le _
  | other => exact Nat.zero_le _
  | hardware n =>
    have hvideo := (timerBranch_video w n s).1
    simp only [handle, hs] at hstay
    have hq : (keyboardBranch w n (timerBranch w n s).1).1.screenState ≠ .quit := by
      rcases hstay with h | h <;> rw [h] <;> decide
    have hkey := keyboardBranch_crashes (by rw [hvideo]; exact runCommands_steered hsteered _) hq
    rw [hvideo, keyCommand_timerBranch] at hkey
    rw [turnCommands_game hs, callsOf_append, crashes_append, ← runCommands_eq, hkey, Nat.add_zero]
    by_cases hdue : TickDue s n
    · rw [tickCommand, if_pos hdue, callsOf, callsOf, List.append_nil, crashes_calls]
      by_cases hr : (Command.tick.run w.screen s.video).1 = 0
      · simp [hr]
      · -- the tick selected a game-over screen, and only the pause key leaves it again
        have hover : (timerBranch w n s).1.screenState = .goOne ∨ (timerBranch w n s).1.screenState = .goTwo := by
          have hdecided := (timerBranch_decided (w := w) hdue).2.2
          rw [hdecided]
          rcases (passiveMovePlayers_fst w.screen s.video).resolve_left hr with h | h <;> simp [h]
        have hpause : n.keyboard ∧ IsPauseKey n.status n.data := by
          by_contra hno
          rcases keyboardBranch_without_pause (w := w) (t := (timerBranch w n s).1) hno with h | h
          · rw [h] at hstay
            rcases hover with ho | ho <;> rw [ho] at hstay <;> exact absurd hstay (by decide)
          · exact hq h
        have hall : (Receive.hardware n).pausesTick = true := by
          simp [Receive.pausesTick, hdue.1, hpause.1, hpause.2]
        simp [hr, hall]
    · rw [tickCommand, if_neg hdue]
      exact Nat.zero_le _

/-! ### A whole game -/

private theorem SameGame.crashes_eq {scr : Screen} {v w : Video} (h : SameGame scr v w)
    (hb : 0 < scr.bytesPerPixel.toNat) {cs : List Call} (hon : OnScreenRun scr v cs) :
    crashes scr w cs = crashes scr v cs := by
  induction cs generalizing v w with
  | nil => rfl
  | cons c cs ih =>
    obtain ⟨hfirst, hrest⟩ := onScreenRun_cons.1 hon
    obtain ⟨hret, hsame⟩ := h.call hb hfirst
    have hcons : ∀ u : Video, crashes scr u (c :: cs) = crashes scr u [c] + crashes scr (c.run scr u).2 cs :=
      fun u => crashes_append scr u [c] cs
    rw [hcons, hcons, crashes_singleton, crashes_singleton, hret, ih hsame hrest]

/-- A game that goes on has made at most as many crashes as there were pause keys in notifications of the timer. -/
private theorem GoesOn.crashes_le {w : World} (hb : 0 < w.screen.bytesPerPixel.toNat) {rs₀ rs : List Receive}
    (h : GoesOn w rs₀ rs)
    (hsteered : ∀ p, ((gameVideo (mainRun w rs₀)).player p).currentDirection ≠ .unchanged) :
    crashes w.screen (gameVideo (mainRun w rs₀))
      (callsOf w.screen (gameVideo (mainRun w rs₀)) (playedCommands w (mainRun w rs₀) rs)) ≤
        rs.countP Receive.pausesTick := by
  have hrun : ∀ pre, pre <+: rs → crashes w.screen (gameVideo (mainRun w rs₀))
      (callsOf w.screen (gameVideo (mainRun w rs₀)) (playedCommands w (mainRun w rs₀) pre)) ≤
        pre.countP Receive.pausesTick := by
    refine prefix_induction (Nat.le_refl 0) fun pre r hpre ih => ?_
    have hpre' : pre <+: rs := (List.prefix_append pre [r]).trans hpre
    obtain ⟨hsame, -⟩ := (h.take hpre').sameGame hb hsteered
    have hon := h.onScreenRun hpre
    have hsteered' := hsame.symm.steered
    have hlast : crashes w.screen (gameVideo (mainRun w (rs₀ ++ pre)))
        (callsOf w.screen (gameVideo (mainRun w (rs₀ ++ pre))) (commandsOf (mainRun w (rs₀ ++ pre)) r)) ≤
          if r.pausesTick then 1 else 0 := by
      rcases h.screen pre hpre' with hs | hs
      · have hgame : gameVideo (mainRun w (rs₀ ++ pre)) = (mainRun w (rs₀ ++ pre)).video :=
          if_neg (by rw [hs]; decide)
        have hstay := h.screen (pre ++ [r]) hpre
        rw [← List.append_assoc, mainRun_concat, step_screenState] at hstay
        rw [hgame] at hsteered' ⊢
        exact stays_crashes_le hs hsteered' hstay
      · rw [commandsOf_paused hs]
        exact Nat.zero_le _
    rw [playedCommands_concat, callsOf_append, crashes_append, ← runCommands_eq, List.countP_append,
      List.countP_singleton, hsame.symm.callsOf_eq hb hon, hsame.symm.crashes_eq hb hon]
    exact Nat.add_le_add ih hlast
  exact hrun rs List.prefix_rfl

/-- By day, a game whose blocks stay on the screen and in whose pauses nobody is turned lasts for at most a tenth of the
number of pixels, counted in timer interrupts, and four more; each pause key in a notification of the timer adds at
most five. -/
theorem game_bounded {w : World} (h3 : w.screen.bytesPerPixel = 3) (hday : w.hour < 0x19) {rs₀ : List Receive}
    {r : Receive} (hstart : StartsGame w (mainRun w rs₀) r) {rs : List Receive} (h : GoesOn w (rs₀ ++ [r]) rs) :
    10 * (gameTimers w (mainRun w (rs₀ ++ [r])) rs).length ≤
      w.screen.hRes.toNat * w.screen.vRes.toNat + 50 * rs.countP Receive.pausesTick + 40 := by
  have hb := w.screen.bytesPerPixel_pos h3
  obtain ⟨hgame, v₀, hc, hvideo⟩ := startsGame_video hstart
  obtain ⟨htotal, hticks⟩ := ticks_run w (mainRun w (rs₀ ++ [r])) rs
  rw [htotal, ← ticks_playedCommands] at hticks
  have hsteered : ∀ p, ((gameVideo (mainRun w (rs₀ ++ [r]))).player p).currentDirection ≠ .unchanged := by
    rw [hgame, hvideo]
    exact startGame_steered w.screen w.hour v₀
  have hon := (h.sameGame hb hsteered).2
  have hcrashes := h.crashes_le hb hsteered
  rw [hgame, hvideo] at hon hcrashes
  have hmoves := moves_le_area h3 hday hc hon
  have htwo := @two_mul_ticks_le w.screen (startGame w.screen w.hour v₀)
    (playedCommands w (mainRun w (rs₀ ++ [r])) rs)
  omega

theorem game_bounded_paused :
    10 * (gameTimers (world115 0x12) (mainRun (world115 0x12) click) pausedGame).length ≤
      (world115 0x12).screen.hRes.toNat * (world115 0x12).screen.vRes.toNat +
        50 * pausedGame.countP Receive.pausesTick + 40 :=
  @game_bounded (world115 0x12) rfl (by decide) [mouseByte 0x09, mouseByte 0] (mouseByte 0)
    ⟨by decide +kernel, by decide +kernel⟩ pausedGame goesOn_pausedGame

/-! ### By night -/

/-- Every pixel of the screen is lethal. -/
def AllLethal (scr : Screen) (mem : Mem) : Prop := ∀ x y, scr.OnScreen x y → Lethal scr mem x y

private theorem allLethal_startGame {scr : Screen} (h3 : scr.bytesPerPixel = 3) {hour : UInt8} (hnight : ¬ hour < 0x19)
    (v₀ : Video) : AllLethal scr (startGame scr hour v₀).videoMem := by
  intro x y hxy
  rw [Lethal, findColor_night h3 hnight v₀ hxy]
  decide

/-- On a screen that is lethal everywhere every move is a crash, and the screen stays so. -/
private theorem crashes_eq_moves {scr : Screen} (h3 : scr.bytesPerPixel = 3) {v : Video}
    (hs : ∀ p, (v.player p).currentDirection ≠ .unchanged) (hl : AllLethal scr v.videoMem) {cs : List Call}
    (hon : OnScreenRun scr v cs) : crashes scr v cs = (enteredBlocks scr v cs).length := by
  induction cs generalizing v with
  | nil => rfl
  | cons c cs ih =>
    obtain ⟨hfirst, hrest⟩ := onScreenRun_cons.1 hon
    have hcons : crashes scr v (c :: cs) = crashes scr v [c] + crashes scr (c.run scr v).2 cs :=
      crashes_append scr v [c] cs
    rw [hcons, crashes_singleton, enteredBlocks]
    by_cases hig : c.Ignored v
    · rw [Call.run_ignored scr hig] at hrest ⊢
      rw [if_neg (by simp), if_pos hig, Nat.zero_add]
      exact ih hs hl hrest
    · have hd := c.info_dir_ne_unchanged hs
      have hblock := hfirst hig
      have hrun := Call.run_enters scr hd hig
      have hcrash : (c.run scr v).1 ≠ 0 := by
        have hoccupied : Occupied scr v c.player (c.info v).dir := hl _ _ hblock.onScreen
        rw [hrun, if_pos hoccupied]
        exact Nat.one_ne_zero
      have hsteered : ∀ p, ((c.run scr v).2.player p).currentDirection ≠ .unchanged := by
        rw [hrun]
        exact v.enter_steered scr hs c.player hd
      have hlethal : AllLethal scr (c.run scr v).2.videoMem := by
        intro x y hxy
        rw [hrun, Video.enter_videoMem]
        exact (lethal_paint h3 v.videoMem c.player hblock hxy).2 (Or.inr (hl x y hxy))
      rw [if_pos hcrash, if_neg hig, List.length_cons, ih hsteered hlethal hrest, Nat.add_comm]

/-- By night a game is over with its first move, unless the pause key comes in the notification of it: there are no more
moves than such notifications, and at most five timer interrupts for each of them and four more. -/
theorem night_game_bounded {w : World} (h3 : w.screen.bytesPerPixel = 3) (hnight : ¬ w.hour < 0x19) {rs₀ : List Receive}
    {r : Receive} (hstart : StartsGame w (mainRun w rs₀) r) {rs : List Receive} (h : GoesOn w (rs₀ ++ [r]) rs) :
    let start := (mainRun w (rs₀ ++ [r])).video
    let calls := callsOf w.screen start (playedCommands w (mainRun w (rs₀ ++ [r])) rs)
    (enteredBlocks w.screen start calls).length ≤ rs.countP Receive.pausesTick ∧
      (gameTimers w (mainRun w (rs₀ ++ [r])) rs).length ≤ 5 * rs.countP Receive.pausesTick + 4 := by
  intro start calls
  have hb := w.screen.bytesPerPixel_pos h3
  obtain ⟨hgame, v₀, -, hvideo⟩ := startsGame_video hstart
  have hsteered : ∀ p, (start.player p).currentDirection ≠ .unchanged := by
    simp only [start, hvideo]
    exact startGame_steered w.screen w.hour v₀
  have hlethal : AllLethal w.screen start.videoMem := by
    simp only [start, hvideo]
    exact allLethal_startGame h3 hnight v₀
  have hon := (h.sameGame hb (by rw [hgame]; exact hsteered)).2
  have hcrashes := h.crashes_le hb (by rw [hgame]; exact hsteered)
  rw [hgame] at hon hcrashes
  have hmoves : crashes w.screen start calls = (enteredBlocks w.screen start calls).length :=
    crashes_eq_moves h3 hsteered hlethal hon
  obtain ⟨htotal, hticks⟩ := ticks_run w (mainRun w (rs₀ ++ [r])) rs
  rw [htotal, ← ticks_playedCommands] at hticks
  have htwo : 2 * ticks (playedCommands w (mainRun w (rs₀ ++ [r])) rs) ≤
      (enteredBlocks w.screen start calls).length + crashes w.screen start calls := two_mul_ticks_le
  have hle : crashes w.screen start calls ≤ rs.countP Receive.pausesTick := hcrashes
  omega

/-- A night game that is paused with its first tick, in which BLUE crashes. -/
def fatalPause : List Receive := timerInterrupts 4 ++ [.hardware ⟨0x3, 0x01, 153⟩]

theorem night_game_bounded_paused :
    let start := (mainRun (world115 0x20) click).video
    let calls := callsOf (world115 0x20).screen start
      (playedCommands (world115 0x20) (mainRun (world115 0x20) click) fatalPause)
    (enteredBlocks (world115 0x20).screen start calls).length ≤ fatalPause.countP Receive.pausesTick ∧
      (gameTimers (world115 0x20) (mainRun (world115 0x20) click) fatalPause).length ≤
        5 * fatalPause.countP Receive.pausesTick + 4 := by
  refine @night_game_bounded (world115 0x20) rfl (by decide) [mouseByte 0x09, mouseByte 0] (mouseByte 0)
    ⟨by decide +kernel, by decide +kernel⟩ fatalPause
    ⟨⟨fun pre r hpre => ?_, fun pre n hpre hp => ?_⟩, fun pre hpre => ?_⟩
  · have hall : ∀ pre ∈ fatalPause.inits, ∀ r ∈ fatalPause,
        OnScreenRun (world115 0x20).screen (mainRun (world115 0x20) (click ++ pre)).video
          (callsOf (world115 0x20).screen (mainRun (world115 0x20) (click ++ pre)).video
            (commandsOf (mainRun (world115 0x20) (click ++ pre)) r)) := by decide +kernel
    exact hall pre ((List.mem_inits ..).2 ((List.prefix_append ..).trans hpre)) r
      (hpre.subset (List.mem_append_right _ (List.mem_singleton_self r)))
  · have hall : ∀ pre ∈ fatalPause.inits, (mainRun (world115 0x20) (click ++ pre)).screenState = .pause →
        pre = fatalPause := by decide +kernel
    have hlast := hall pre ((List.mem_inits ..).2 ((List.prefix_append ..).trans hpre)) hp
    rw [hlast] at hpre
    have hlength := hpre.length_le
    simp at hlength
  · have hall : ∀ pre ∈ fatalPause.inits, ReadsKeys (mainRun (world115 0x20) (click ++ pre)).screenState := by
      decide +kernel
    exact hall pre ((List.mem_inits ..).2 hpre)

end LabChase
