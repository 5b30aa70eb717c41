import LabChase.Library.Streams
import LabChase.Proj.Drawing
import LabChase.Proj.Tempo

/-!
# A game and the games before it

`start_game` puts the players back on their places and the clear before it empties the framebuffer, but nothing resets
`nextMove` and `totalInterrupts`.  Both are functions of what was heard before: the last turn keyed in during a game or
a pause (`nextMove_eq_lastTurn`) and the number of timer interrupts handled in `S_GAME`.  Nothing else gets from one
game into another: two games with the same last turn before them that begin at the same place between two ticks go the
same way on the same notifications (`rematch_independent`).
-/

namespace LabChase

open FlatMemory Runs Streams

/-- A keyboard notification handled in a game or in a pause, and the turn it brings. -/
def turnHeard (s : Main) : Receive → Option (Option MovementInfo)
  | .failed => none
  | .other => none
  | .hardware n => if ReadsKeys s.screenState ∧ n.keyboard then some (turnOf n.status n.data) else none

/-- The last turn keyed in during a game or a pause. -/
def lastTurn (w : World) (rs : List Receive) : MovementInfo :=
  register ⟨.unchanged, .blue⟩ (heard (fun s r => (step w s r).1) turnHeard (boot w).1 rs)

/-- Two states that go the same way, as far as the players, the framebuffer, the keys and the ticks matter. -/
structure SameTurn (scr : Screen) (s t : Main) : Prop where
  screenState : s.screenState = t.screenState
  nextMove : s.nextMove = t.nextMove
  phase : s.totalInterrupts % 5 = t.totalInterrupts % 5
  video : SameGame scr s.video t.video

/-- Two games that go the same way; in a pause their saved framebuffers agree as well. -/
structure SameRound (scr : Screen) (s t : Main) : Prop extends SameTurn scr s t where
  saved : s.screenState = .pause → ∀ a : UInt32, a.toNat < scr.size → s.saveGameScreen a = t.saveGameScreen a

/-! ### The remembered turn -/

private theorem handle_nextMove (w : World) (s : Main) (r : Receive) :
    (handle w s r).1.nextMove = register s.nextMove (turnHeard s r).toList := by
  have hmove : ∀ t, (applyNextMove w t).nextMove = t.nextMove := by
    intro t
    unfold applyNextMove
    split <;> rfl
  have hmenu : ∀ picture n, (menuBranch w picture n s).1.nextMove = s.nextMove := by
    intro picture n
    rcases menuBranch_cases w picture n s with h | ⟨pp, counter, byte, h | h⟩ <;>
      exact congrArg (fun turn => turn.1.nextMove) h
  have hkey : ∀ n t, t.nextMove = s.nextMove → (keyboardBranch w n t).1.nextMove =
      register s.nextMove (if n.keyboard then some (turnOf n.status n.data) else none).toList := by
    intro n t ht
    by_cases hk : n.keyboard
    · rw [keyboardBranch_key w t hk, hmove, if_pos hk, ← ht]
      rfl
    · rw [keyboardBranch_none w t hk, if_neg hk, ht]
      rfl
  cases r with
  | failed => rfl
  | other => rfl
  | hardware n =>
    cases hx : s.screenState <;>
      simp only [handle, hx, turnHeard, ReadsKeys, reduceCtorEq, or_self, or_true, true_or, false_and, true_and,
        ↓reduceIte]
    case main => exact hmenu _ n
    case goOne => exact hmenu _ n
    case goTwo => exact hmenu _ n
    case pause => exact hkey n s rfl
    case sGame => exact hkey n _ (timerBranch_video w n s).2
    all_goals rfl

private theorem step_nextMove (w : World) (s : Main) (r : Receive) :
    (step w s r).1.nextMove = register s.nextMove (turnHeard s r).toList := by
  obtain ⟨video, printed, startGame, paused, saved, h⟩ := enter_keeps w (handle w s r).1
  rw [step_fst, h]
  exact handle_nextMove w s r

/-- The remembered move is the last turn that was heard, whichever game or pause it was meant for. -/
theorem nextMove_eq_lastTurn (w : World) (rs : List Receive) : (mainRun w rs).nextMove = lastTurn w rs := by
  have hrun : ∀ s, (run (fun s r => (step w s r).1) s rs).nextMove =
      register s.nextMove (heard (fun s r => (step w s r).1) turnHeard s rs) := by
    intro s
    induction rs generalizing s with
    | nil => rfl
    | cons r rs ih =>
      rw [run_cons, ih, step_nextMove, heard, register, register, register, run_append]
  have hboot : (boot w).1.nextMove = ⟨.unchanged, .blue⟩ := by
    obtain ⟨video, printed, startGame, paused, saved, h⟩ := enter_keeps w (init w)
    rw [boot, h]
    rfl
  rw [mainRun, hrun, hboot]
  rfl

private theorem totalInterrupts_eq (w : World) (rs : List Receive) :
    (mainRun w rs).totalInterrupts = (gameTimers w (boot w).1 rs).length := by
  have htotal := (ticks_run w (boot w).1 rs).1
  rw [boot, enter_totalInterrupts, ← boot] at htotal
  exact htotal.trans (Nat.zero_add _)

/-! ### One turn of the loop, twice -/

section Handle

variable {w : World} {s t : Main} (hb : 0 < w.screen.bytesPerPixel.toNat)

private theorem SameTurn.tickDue_iff (h : SameTurn w.screen s t) (n : Notification) : TickDue s n ↔ TickDue t n := by
  have hphase := h.phase
  have hmod : (s.totalInterrupts + 1) % 5 = 0 ↔ (t.totalInterrupts + 1) % 5 = 0 := by omega
  rw [TickDue, TickDue, hmod]

include hb

theorem SameTurn.timerBranch (h : SameTurn w.screen s t) {n : Notification}
    (hon : OnScreenRun w.screen s.video (callsOf w.screen s.video (tickCommand s n))) :
    SameTurn w.screen (timerBranch w n s).1 (timerBranch w n t).1 := by
  have hphase := h.phase
  by_cases hdue : TickDue s n
  · rw [tickCommand, if_pos hdue, callsOf, callsOf, List.append_nil] at hon
    obtain ⟨hret, hsame⟩ := h.video.command hb hon
    rw [timerBranch_due w hdue, timerBranch_due w ((h.tickDue_iff n).1 hdue)]
    refine ⟨?_, h.nextMove, ?_, hsame⟩
    · have hret' : (passiveMovePlayers w.screen s.video).1 = (passiveMovePlayers w.screen t.video).1 := hret
      show (if (passiveMovePlayers w.screen s.video).1 = 1 then ScreenState.goTwo
        else if (passiveMovePlayers w.screen s.video).1 = 2 then .goOne else s.screenState) = _
      rw [hret', h.screenState]
      rfl
    · simp only [applyPassiveMoves, timerIntHandler]
      omega
  · have hdue' : ¬ TickDue t n := mt (h.tickDue_iff n).2 hdue
    by_cases ht : n.timer
    · have hs5 : ¬ (timerIntHandler s).totalInterrupts % 5 = 0 := fun h5 => hdue ⟨ht, h5⟩
      have ht5 : ¬ (timerIntHandler t).totalInterrupts % 5 = 0 := fun h5 => hdue' ⟨ht, h5⟩
      simp only [LabChase.timerBranch, ht, hs5, ht5, ↓reduceIte]
      refine ⟨h.screenState, h.nextMove, ?_, h.video⟩
      simp only [timerIntHandler]
      omega
    · simpa only [LabChase.timerBranch, ht, Bool.false_eq_true, ↓reduceIte] using h

theorem SameTurn.keyboardBranch (h : SameTurn w.screen s t) {n : Notification}
    (hon : OnScreenRun w.screen s.video (callsOf w.screen s.video (keyCommand s n))) :
    SameTurn w.screen (keyboardBranch w n s).1 (keyboardBranch w n t).1 := by
  by_cases hk : n.keyboard
  · have hnext : (afterKey n s).nextMove = (afterKey n t).nextMove := by simp only [afterKey, h.nextMove]
    have hscreen : (afterKey n s).screenState = (afterKey n t).screenState := by simp only [afterKey, h.screenState]
    rw [keyboardBranch_key w s hk, keyboardBranch_key w t hk]
    unfold applyNextMove
    rw [← hnext]
    by_cases hd : (afterKey n s).nextMove.dir = .unchanged
    · simp only [hd, ne_eq, not_true_eq_false, ↓reduceIte]
      exact ⟨hscreen, hnext, h.phase, h.video⟩
    · have hdue : n.keyboard ∧ ((turnOf n.status n.data).getD s.nextMove).dir ≠ .unchanged := ⟨hk, hd⟩
      rw [keyCommand, dif_pos hdue, callsOf, callsOf, List.append_nil] at hon
      obtain ⟨hret, hsame⟩ := h.video.command hb hon
      simp only [hd, ne_eq, not_false_eq_true, ↓reduceIte]
      refine ⟨?_, rfl, h.phase, hsame⟩
      have hret' : (movePlayer w.screen (afterKey n s).nextMove false (afterKey n s).video).1 =
          (movePlayer w.screen (afterKey n s).nextMove false (afterKey n t).video).1 := hret
      simp only [hret', hscreen]
  · rw [keyboardBranch_none w s hk, keyboardBranch_none w t hk]
    exact h

theorem SameTurn.handle (h : SameTurn w.screen s t) (hs : ReadsKeys s.screenState) {r : Receive}
    (hon : OnScreenRun w.screen s.video (callsOf w.screen s.video (turnCommands s r))) :
    SameTurn w.screen (handle w s r).1 (handle w t r).1 := by
  cases r with
  | failed => exact h
  | other => exact h
  | hardware n =>
    have ht : ReadsKeys t.screenState := h.screenState ▸ hs
    rw [handle_readsKeys hs, handle_readsKeys ht]
    rw [turnCommands, callsOf_append] at hon
    obtain ⟨htick, hkey⟩ := onScreenRun_append.1 hon
    rw [← runCommands_eq] at hkey
    rcases hs with hs | hs
    · have ht : t.screenState = .sGame := h.screenState.symm.trans hs
      rw [if_pos hs] at htick hkey
      rw [beforeKey, beforeKey, if_pos hs, if_pos ht]
      rw [← (timerBranch_video w n s).1, ← keyCommand_timerBranch w] at hkey
      exact (h.timerBranch hb htick).keyboardBranch hb hkey
    · have ht : t.screenState = .pause := h.screenState.symm.trans hs
      rw [if_neg (by simp [hs])] at hkey
      rw [beforeKey, beforeKey, if_neg (by simp [hs]), if_neg (by simp [ht])]
      exact h.keyboardBranch hb hkey

end Handle

theorem SameGame.drawPicture {w : World} {v v' : Video} (h : SameGame w.screen v v') (picture : Option XpmMap) :
    SameGame w.screen (drawPicture w picture v) (drawPicture w picture v') where
  player p := by
    have hp := h.player p
    cases p <;> exact hp
  steered p := by
    have hp := h.steered p
    cases p <;> exact hp
  mem a ha := by
    simp only [LabChase.drawPicture, drawImg_eq_copyAll]
    exact copyAll_congr_mem (h.mem a ha) _

/-- Two games that go the same way still do after a turn of the loop, also if it ends them. -/
theorem SameRound.step {w : World} (hb : 0 < w.screen.bytesPerPixel.toNat) {s t : Main} (h : SameRound w.screen s t)
    (hsflags : FlagsOk s) (htflags : FlagsOk t) (hs : ReadsKeys s.screenState) {r : Receive}
    (hon : OnScreenRun w.screen s.video (callsOf w.screen s.video (turnCommands s r))) :
    SameRound w.screen (step w s r).1 (step w t r).1 := by
  have hturn := h.toSameTurn.handle hb hs hon
  have hscreen := hturn.screenState
  have hsaved : (handle w s r).1.saveGameScreen = s.saveGameScreen := (handle_sameFlags w s r).saveGameScreen
  have hsaved' : (handle w t r).1.saveGameScreen = t.saveGameScreen := (handle_sameFlags w t r).saveGameScreen
  have hentry := step_entry (w := w) hsflags r
  rw [step_fst, step_fst]
  generalize he : enter w (handle w s r).1 = e at hentry
  cases hentry with
  | stay hstay =>
    rw [enter_stay htflags (hscreen.symm.trans (hstay.trans h.screenState))]
    refine ⟨hturn, fun hp a ha => ?_⟩
    rw [hsaved, hsaved']
    exact h.saved (hstay.symm.trans hp) a ha
  | exit hquit =>
    have hquit' : enter w (handle w t r).1 = ((handle w t r).1, []) := by simp [enter, ← hscreen, hquit]
    rw [hquit']
    exact ⟨hturn, fun hp => absurd (hquit.symm.trans hp) (by decide)⟩
  | newGame hmenu _ => rcases hs with hs | hs <;> rw [hs] at hmenu <;> exact absurd hmenu (by decide)
  | pause hgame hp =>
    have hgame' : t.screenState ≠ .pause := by
      rw [← h.screenState, hgame]
      decide
    rw [(enter_suspend htflags hgame' (hscreen.symm.trans hp)).2]
    refine ⟨⟨hscreen, hturn.nextMove, hturn.phase, hturn.video.drawPicture _⟩, fun _ a ha => ?_⟩
    simp only [suspendGame, savedScreen_eq w _ ha]
    exact hturn.video.mem a ha
  | resume hp hgame =>
    rw [enter_resume htflags (h.screenState.symm.trans hp) (hscreen.symm.trans hgame)]
    refine ⟨⟨hscreen, hturn.nextMove, hturn.phase, ⟨fun p => ?_, fun p => ?_, fun a ha => ?_⟩⟩, fun hp' => ?_⟩
    · have hplayer := hturn.video.player p
      cases p <;> exact hplayer
    · have hsteered := hturn.video.steered p
      cases p <;> exact hsteered
    · simp only [resumeGame, restoredVideo_eq w _ ha]
      rw [hsaved, hsaved']
      exact h.saved hp a ha
    · exact absurd (hgame.symm.trans hp') (by decide)
  | gameOver picture hgame hover =>
    have hover' : (handle w t r).1.screenState = .goOne ∨ (handle w t r).1.screenState = .goTwo := by
      rw [← hscreen]
      exact hover.imp And.left And.left
    obtain ⟨picture', hpicture, henter⟩ := enter_gameOver htflags (h.screenState.symm.trans hgame) hover'
    have hsame : picture' = picture := by
      rw [← hscreen] at hpicture
      rcases hover with ⟨h1, rfl⟩ | ⟨h1, rfl⟩ <;> rcases hpicture with ⟨h2, rfl⟩ | ⟨h2, rfl⟩ <;>
        first | rfl | exact absurd (h1.symm.trans h2) (by decide)
    rw [henter, hsame]
    refine ⟨⟨hscreen, hturn.nextMove, hturn.phase, hturn.video.drawPicture _⟩, fun hp => ?_⟩
    rcases hover with ⟨h1, -⟩ | ⟨h1, -⟩ <;> exact absurd (h1.symm.trans hp) (by decide)

/-! ### Two games -/

theorem SameRound.start {w : World} {rs₁ rs₂ : List Receive} {r₁ r₂ : Receive} (h₁ : StartsGame w (mainRun w rs₁) r₁)
    (h₂ : StartsGame w (mainRun w rs₂) r₂) (hturn : lastTurn w rs₁ = lastTurn w rs₂)
    (hphase : (gameTimers w (boot w).1 rs₁).length % 5 = (gameTimers w (boot w).1 rs₂).length % 5) :
    SameRound w.screen (mainRun w (rs₁ ++ [r₁])) (mainRun w (rs₂ ++ [r₂])) := by
  have hmenu : ∀ {rs r}, StartsGame w (mainRun w rs) r → (mainRun w (rs ++ [r])).nextMove = lastTurn w rs := by
    intro rs r h
    have hnone : turnHeard (mainRun w rs) r = none := by
      cases r with
      | failed => rfl
      | other => rfl
      | hardware n =>
        have hno : ¬ ReadsKeys (mainRun w rs).screenState := by
          rcases h.1 with hx | hx | hx <;> rw [hx] <;> decide
        simp [turnHeard, hno]
    rw [mainRun_concat, step_nextMove, hnone, ← nextMove_eq_lastTurn]
    rfl
  have hcount : ∀ {rs r}, StartsGame w (mainRun w rs) r →
      (mainRun w (rs ++ [r])).totalInterrupts = (gameTimers w (boot w).1 rs).length := by
    intro rs r h
    have hnone : countsTimer (mainRun w rs) r = none := by
      have hno : (mainRun w rs).screenState ≠ .sGame := by
        rcases h.1 with hx | hx | hx <;> rw [hx] <;> decide
      simp [countsTimer, hno]
    rw [mainRun_concat, step_totalInterrupts, hnone, totalInterrupts_eq]
    rfl
  have hscreen : ∀ {rs r}, StartsGame w (mainRun w rs) r → (mainRun w (rs ++ [r])).screenState = .sGame := by
    intro rs r h
    rw [mainRun_concat]
    exact h.2
  obtain ⟨-, v₁, hc₁, hvideo₁⟩ := startsGame_video h₁
  obtain ⟨-, v₂, hc₂, hvideo₂⟩ := startsGame_video h₂
  refine ⟨⟨?_, ?_, ?_, ?_⟩, fun hp => ?_⟩
  · rw [hscreen h₁, hscreen h₂]
  · rw [hmenu h₁, hmenu h₂, hturn]
  · rw [hcount h₁, hcount h₂, hphase]
  · rw [hvideo₁, hvideo₂]
    exact SameGame.start hc₁ hc₂ Iff.rfl
  · exact absurd ((hscreen h₁).symm.trans hp) (by decide)

/-- Two games before which the same turn was keyed in last, and which begin at the same place between two ticks, go the
same way on the same notifications, as long as the blocks entered lie on the screen: same screens, same players, same
framebuffer. -/
theorem rematch_independent {w : World} (hb : 0 < w.screen.bytesPerPixel.toNat) {rs₁ rs₂ : List Receive}
    {r₁ r₂ : Receive} (h₁ : StartsGame w (mainRun w rs₁) r₁) (h₂ : StartsGame w (mainRun w rs₂) r₂)
    (hturn : lastTurn w rs₁ = lastTurn w rs₂)
    (hphase : (gameTimers w (boot w).1 rs₁).length % 5 = (gameTimers w (boot w).1 rs₂).length % 5)
    {rs : List Receive}
    (hgame : ∀ pre r, pre ++ [r] <+: rs →
      let s := mainRun w (rs₁ ++ [r₁] ++ pre)
      ReadsKeys s.screenState ∧ OnScreenRun w.screen s.video (callsOf w.screen s.video (turnCommands s r))) :
    SameRound w.screen (mainRun w (rs₁ ++ [r₁] ++ rs)) (mainRun w (rs₂ ++ [r₂] ++ rs)) := by
  have hrun : ∀ pre, pre <+: rs →
      SameRound w.screen (mainRun w (rs₁ ++ [r₁] ++ pre)) (mainRun w (rs₂ ++ [r₂] ++ pre)) := by
    refine prefix_induction ?_ fun pre r hpre ih => ?_
    · simpa only [List.append_nil] using SameRound.start h₁ h₂ hturn hphase
    · obtain ⟨hs, hon⟩ := hgame pre r hpre
      rw [← List.append_assoc, ← List.append_assoc, mainRun_concat, mainRun_concat]
      exact ih.step hb (flagsOk_mainRun w _) (flagsOk_mainRun w _) hs hon
  exact hrun rs List.prefix_rfl

/-- A game that BLUE loses as it loses `firstGame`, but in which ORANGE has turned. -/
def otherGame : List Receive :=
  click ++ [key 200, key 145, key 158, key 159] ++ timerInterrupts 5 ++ [key 160, key 145] ++ timerInterrupts 4

theorem rematch_independent_once :
    let rs₁ := firstGame ++ timerInterrupts 1 ++ [mouseByte 0x09, mouseByte 0]
    let rs₂ := otherGame ++ timerInterrupts 1 ++ [mouseByte 0x09, mouseByte 0]
    SameRound (world115 0x12).screen (mainRun (world115 0x12) (rs₁ ++ [mouseByte 0] ++ [key 159, key 153]))
      (mainRun (world115 0x12) (rs₂ ++ [mouseByte 0] ++ [key 159, key 153])) := by
  intro rs₁ rs₂
  refine rematch_independent (w := world115 0x12) (by decide) ⟨by decide +kernel, by decide +kernel⟩
    ⟨by decide +kernel, by decide +kernel⟩ (by decide +kernel) (by decide +kernel) ?_
  intro pre r hpre
  have hall : ∀ pre ∈ [key 159, key 153].inits, ∀ r ∈ [key 159, key 153],
      let s := mainRun (world115 0x12) (rs₁ ++ [mouseByte 0] ++ pre)
      ReadsKeys s.screenState ∧
        OnScreenRun (world115 0x12).screen s.video
          (callsOf (world115 0x12).screen s.video (turnCommands s r)) := by decide +kernel
  exact hall pre ((List.mem_inits ..).2 ((List.prefix_append ..).trans hpre)) r
    (hpre.subset (List.mem_append_right _ (List.mem_singleton_self r)))

end LabChase
