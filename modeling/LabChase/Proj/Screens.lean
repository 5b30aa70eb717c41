import LabChase.Proj.MainLoop

/-!
# The flags and the screens

Three booleans, `printed`, `startGame` and `paused`, decide what the heads of the six loops do.  Only the heads write
them (`handle_sameFlags`), and while the program waits they are determined by the screen (`FlagsOk`), which leaves six
possible turns of the loop (`step_entry`).  So a game is started on every entry into `S_GAME` from a menu and on no
other, the framebuffer is saved on every entry into `PAUSE` and restored on every return, and each game-over screen is
drawn once when it is entered (`flags_drive_screens`).
-/

namespace LabChase

open FlatMemory Runs

def IsMenu (x : ScreenState) : Prop := x = .main ∨ x = .goOne ∨ x = .goTwo

instance (x : ScreenState) : Decidable (IsMenu x) := inferInstanceAs (Decidable (_ ∨ _ ∨ _))

/-- The flags while the program waits. -/
def FlagsOk (s : Main) : Prop :=
  match s.screenState with
  | .main | .goOne | .goTwo => s.printed = true ∧ s.startGame = false ∧ s.paused = false
  | .pause => s.printed = true ∧ s.startGame = true ∧ s.paused = true
  | .sGame => s.printed = false ∧ s.startGame = true ∧ s.paused = false
  | .mGame => s.startGame = true
  | .quit => True

structure SameFlags (s t : Main) : Prop where
  printed : t.printed = s.printed
  startGame : t.startGame = s.startGame
  paused : t.paused = s.paused
  saveGameScreen : t.saveGameScreen = s.saveGameScreen

def nextScreens : ScreenState → List ScreenState
  | .main => [.main, .sGame, .mGame, .quit]
  | .goOne => [.goOne, .sGame, .mGame, .quit]
  | .goTwo => [.goTwo, .sGame, .mGame, .quit]
  | .pause => [.pause, .sGame, .quit]
  | .sGame => [.sGame, .pause, .goOne, .goTwo, .quit]
  | .mGame => [.mGame]
  | .quit => [.quit]

def Action.OfEntry : Action → Prop
  | .startGame | .saveScreen | .restoreScreen | .entryDraw _ _ => True
  | .packetDraw _ _ | .passiveMovePlayers | .readOutBuf | .parseMouseBytes _ => False

def Action.isEntryDrawOf (x : ScreenState) : Action → Bool
  | .entryDraw y _ => x == y
  | _ => false

/-! ### What handling a receive leaves alone -/

theorem SameFlags.refl (s : Main) : SameFlags s s := ⟨rfl, rfl, rfl, rfl⟩

theorem SameFlags.trans {s t u : Main} (h : SameFlags s t) (h' : SameFlags t u) : SameFlags s u :=
  ⟨h'.printed.trans h.printed, h'.startGame.trans h.startGame, h'.paused.trans h.paused,
    h'.saveGameScreen.trans h.saveGameScreen⟩

private theorem menuBranch_sameFlags (w : World) (picture : Option XpmMap) (n : Notification) (s : Main) :
    SameFlags s (menuBranch w picture n s).1 := by
  rcases menuBranch_cases w picture n s with h | ⟨pp, counter, byte, h | h⟩ <;> rw [h] <;> exact ⟨rfl, rfl, rfl, rfl⟩

private theorem keyboardBranch_sameFlags (w : World) (n : Notification) (s : Main) :
    SameFlags s (keyboardBranch w n s).1 := by
  have hnext : ∀ t, SameFlags t (applyNextMove w t) := by
    intro t
    unfold applyNextMove
    split <;> exact ⟨rfl, rfl, rfl, rfl⟩
  unfold keyboardBranch
  split
  · refine SameFlags.trans ?_ (hnext _)
    rw [kbcIh_eq]
    exact ⟨rfl, rfl, rfl, rfl⟩
  · exact SameFlags.refl s

private theorem timerBranch_sameFlags (w : World) (n : Notification) (s : Main) :
    SameFlags s (timerBranch w n s).1 := by
  simp only [timerBranch]
  split
  · split <;> exact ⟨rfl, rfl, rfl, rfl⟩
  · exact SameFlags.refl s

theorem handle_sameFlags (w : World) (s : Main) (r : Receive) : SameFlags s (handle w s r).1 := by
  cases r with
  | failed => exact SameFlags.refl s
  | other => exact SameFlags.refl s
  | hardware n =>
    cases hx : s.screenState <;> simp only [handle, hx]
    case main => exact menuBranch_sameFlags w _ n s
    case goOne => exact menuBranch_sameFlags w _ n s
    case goTwo => exact menuBranch_sameFlags w _ n s
    case pause => exact keyboardBranch_sameFlags w n s
    case sGame => exact (timerBranch_sameFlags w n s).trans (keyboardBranch_sameFlags w n _)
    case mGame => exact SameFlags.refl s
    case quit => exact SameFlags.refl s

/-! ### The screens handling a receive can select -/

private theorem menuBranch_screen (w : World) (picture : Option XpmMap) (n : Notification) (s : Main) :
    (menuBranch w picture n s).1.screenState ∈ [s.screenState, .sGame, .mGame, .quit] := by
  have hclick : ∀ t : Main, clickedScreen t ∈ [t.screenState, .sGame, .mGame, .quit] := by
    intro t
    unfold clickedScreen
    split
    · simp
    · split
      · simp
      · split <;> simp
  rcases menuBranch_cases w picture n s with h | ⟨pp, counter, byte, h | h⟩
  · rw [h]
    exact List.mem_cons_self ..
  · rw [h]
    exact List.mem_cons_self ..
  · rw [h]
    exact hclick _

theorem applyNextMove_screen (w : World) (s : Main) :
    (applyNextMove w s).screenState = s.screenState ∨ (applyNextMove w s).screenState = .quit := by
  unfold applyNextMove
  split
  · by_cases hr : (movePlayer w.screen s.nextMove false s.video).1 = 1
    · right
      exact if_pos hr
    · left
      exact if_neg hr
  · exact Or.inl rfl

theorem keyboardBranch_screen (w : World) (n : Notification) (s : Main) :
    (keyboardBranch w n s).1.screenState ∈ [s.screenState, togglePause s.screenState, .quit] := by
  unfold keyboardBranch
  split
  · rw [kbcIh_eq]
    rcases applyNextMove_screen w
      { s with
        screenState := if IsPauseKey n.status n.data then togglePause s.screenState else s.screenState
        nextMove := (turnOf n.status n.data).getD s.nextMove
        scanCode := if KbcAccepts n.status then n.data else s.scanCode } with h | h
    · rw [h]
      by_cases hp : IsPauseKey n.status n.data <;> simp [hp]
    · rw [h]
      simp
  · exact List.mem_cons_self ..

private theorem applyPassiveMoves_screen (w : World) (s : Main) :
    (applyPassiveMoves w s).screenState ∈ [s.screenState, .goTwo, .goOne] := by
  simp only [applyPassiveMoves]
  split
  · simp
  · split <;> simp

theorem timerBranch_screen (w : World) (n : Notification) (s : Main) :
    (timerBranch w n s).1.screenState ∈ [s.screenState, .goTwo, .goOne] := by
  unfold timerBranch
  by_cases ht : n.timer
  · by_cases h5 : (timerIntHandler s).totalInterrupts % 5 = 0
    · simp only [ht, h5, ↓reduceIte]
      exact applyPassiveMoves_screen w (timerIntHandler s)
    · simp only [ht, h5, ↓reduceIte]
      exact List.mem_cons_self ..
  · simp only [ht, Bool.false_eq_true, ↓reduceIte]
    exact List.mem_cons_self ..

theorem handle_screen (w : World) (s : Main) (r : Receive) :
    (handle w s r).1.screenState ∈ nextScreens s.screenState := by
  cases r with
  | failed => cases hx : s.screenState <;> simp [handle, hx, nextScreens]
  | other => cases hx : s.screenState <;> simp [handle, hx, nextScreens]
  | hardware n =>
    have hmenu := fun picture => menuBranch_screen w picture n s
    cases hx : s.screenState <;> simp only [handle, hx, nextScreens]
    case main => simpa only [hx] using hmenu loadImages.main
    case goOne => simpa only [hx] using hmenu loadImages.gameOver2
    case goTwo => simpa only [hx] using hmenu loadImages.gameOver2
    case pause =>
      have hkey := keyboardBranch_screen w n s
      simpa only [hx, togglePause, ↓reduceIte] using hkey
    case sGame =>
      -- the tick may have left the game before the key is handled
      have hkey := keyboardBranch_screen w n (timerBranch w n s).1
      have htimer := timerBranch_screen w n s
      simp only [hx, List.mem_cons, List.not_mem_nil, or_false] at htimer
      rcases htimer with ht | ht | ht <;> rw [ht] at hkey <;>
        simp only [togglePause, reduceCtorEq, ↓reduceIte, List.mem_cons, List.not_mem_nil, or_false] at hkey ⊢ <;>
        tauto
    case mGame => exact List.mem_singleton.2 rfl
    case quit => exact List.mem_singleton.2 rfl

theorem handle_not_ofEntry (w : World) (s : Main) (r : Receive) : ∀ a ∈ (handle w s r).2, ¬ a.OfEntry := by
  have hmenu : ∀ picture n, ∀ a ∈ (menuBranch w picture n s).2, ¬ a.OfEntry := by
    intro picture n
    rcases menuBranch_cases w picture n s with h | ⟨pp, counter, byte, h | h⟩ <;> simp [h, Action.OfEntry]
  have hkey : ∀ n t, ∀ a ∈ (keyboardBranch w n t).2, ¬ a.OfEntry := by
    intro n t
    unfold keyboardBranch
    split <;> simp [Action.OfEntry]
  have htick : ∀ n, ∀ a ∈ (timerBranch w n s).2, ¬ a.OfEntry := by
    intro n
    rw [timerBranch_snd]
    split <;> simp [Action.OfEntry]
  cases r with
  | failed => simp [handle]
  | other => simp [handle]
  | hardware n =>
    cases hx : s.screenState <;> simp only [handle, hx]
    case main => exact hmenu _ n
    case goOne => exact hmenu _ n
    case goTwo => exact hmenu _ n
    case pause => exact hkey n s
    case sGame =>
      intro a ha
      rcases List.mem_append.1 ha with ha | ha
      · exact htick n a ha
      · exact hkey n _ a ha
    case mGame => simp
    case quit => simp

theorem enter_ofEntry (w : World) (s : Main) : ∀ a ∈ (enter w s).2, a.OfEntry := by
  have hmenu : ∀ picture, ∀ a ∈ (enterMenu w picture s).2, a.OfEntry := by
    intro picture
    unfold enterMenu
    split <;> simp [Action.OfEntry]
  have hnew : ∀ a ∈ (enterNewGame w s).2, a.OfEntry := by
    unfold enterNewGame
    split <;> simp [Action.OfEntry]
  have hresumed : ∀ t, ∀ a ∈ (enterResumed w t).2, a.OfEntry := by
    intro t
    unfold enterResumed
    split <;> simp [Action.OfEntry]
  cases hx : s.screenState <;> simp only [enter, hx]
  case main => exact hmenu _
  case goOne => exact hmenu _
  case goTwo => exact hmenu _
  case pause =>
    unfold enterPause
    split <;> simp [Action.OfEntry]
  case sGame =>
    intro a ha
    rcases List.mem_append.1 ha with ha | ha
    · exact hnew a ha
    · exact hresumed _ a ha
  case mGame => exact hnew
  case quit => simp

/-! ### The heads of the loops -/

/-- The turns of the loop, after a receive has been handled in `s` with result `t`: what the head of the next loop does
to `t`. -/
inductive Entry (w : World) (s t : Main) : Main × List Action → Prop where
  | stay : t.screenState = s.screenState → Entry w s t (t, [])
  | exit : t.screenState = .quit → Entry w s t (t, [])
  | newGame : IsMenu s.screenState → t.screenState = .sGame ∨ t.screenState = .mGame →
      Entry w s t (beginGame w t, [.startGame])
  | pause : s.screenState = .sGame → t.screenState = .pause →
      Entry w s t (suspendGame w t, [.saveScreen, .entryDraw .pause loadImages.pause])
  | resume : s.screenState = .pause → t.screenState = .sGame → Entry w s t (resumeGame w t, [.restoreScreen])
  | gameOver (picture : Option XpmMap) : s.screenState = .sGame →
      (t.screenState = .goOne ∧ picture = loadImages.gameOver1) ∨
        (t.screenState = .goTwo ∧ picture = loadImages.gameOver2) →
      Entry w s t (showMenu w picture t, [.entryDraw t.screenState picture])

private theorem entry_quit {w : World} {s t : Main} (ht : t.screenState = .quit) : Entry w s t (enter w t) := by
  have henter : enter w t = (t, []) := by simp [enter, ht]
  rw [henter]
  exact .exit ht

private theorem entry_of_menu {w : World} {s t : Main} (hs : IsMenu s.screenState) (hprinted : t.printed = true)
    (hgame : t.startGame = false) (hpaused : t.paused = false)
    (hnext : t.screenState = s.screenState ∨ t.screenState = .sGame ∨ t.screenState = .mGame ∨ t.screenState = .quit) :
    Entry w s t (enter w t) := by
  rcases hnext with ht | ht | ht | ht
  · have henter : enter w t = (t, []) := by
      rcases hs with hx | hx | hx <;> simp [enter, enterMenu, ht, hx, hprinted]
    rw [henter]
    exact .stay ht
  · have henter : enter w t = (beginGame w t, [.startGame]) := by
      simp [enter, enterNewGame, enterResumed, beginGame, ht, hgame, hpaused]
    rw [henter]
    exact .newGame hs (Or.inl ht)
  · have henter : enter w t = (beginGame w t, [.startGame]) := by simp [enter, enterNewGame, ht, hgame]
    rw [henter]
    exact .newGame hs (Or.inr ht)
  · exact entry_quit ht

private theorem entry_of_paused {w : World} {s t : Main} (hs : s.screenState = .pause) (hprinted : t.printed = true)
    (hgame : t.startGame = true) (hpaused : t.paused = true)
    (hnext : t.screenState = .pause ∨ t.screenState = .sGame ∨ t.screenState = .quit) :
    Entry w s t (enter w t) := by
  rcases hnext with ht | ht | ht
  · have henter : enter w t = (t, []) := by simp [enter, enterPause, ht, hprinted]
    rw [henter]
    exact .stay (ht.trans hs.symm)
  · have henter : enter w t = (resumeGame w t, [.restoreScreen]) := by
      simp [enter, enterNewGame, enterResumed, ht, hgame, hpaused]
    rw [henter]
    exact .resume hs ht
  · exact entry_quit ht

private theorem entry_of_game {w : World} {s t : Main} (hs : s.screenState = .sGame) (hprinted : t.printed = false)
    (hgame : t.startGame = true) (hpaused : t.paused = false)
    (hnext : t.screenState = .sGame ∨ t.screenState = .pause ∨ t.screenState = .goOne ∨ t.screenState = .goTwo ∨
      t.screenState = .quit) :
    Entry w s t (enter w t) := by
  rcases hnext with ht | ht | ht | ht | ht
  · have henter : enter w t = (t, []) := by simp [enter, enterNewGame, enterResumed, ht, hgame, hpaused]
    rw [henter]
    exact .stay (ht.trans hs.symm)
  · have henter : enter w t = (suspendGame w t, [.saveScreen, .entryDraw .pause loadImages.pause]) := by
      simp [enter, enterPause, ht, hprinted]
    rw [henter]
    exact .pause hs ht
  · have henter : enter w t = (showMenu w loadImages.gameOver1 t, [.entryDraw t.screenState loadImages.gameOver1]) := by
      simp [enter, enterMenu, ht, hprinted]
    rw [henter]
    exact .gameOver _ hs (Or.inl ⟨ht, rfl⟩)
  · have henter : enter w t = (showMenu w loadImages.gameOver2 t, [.entryDraw t.screenState loadImages.gameOver2]) := by
      simp [enter, enterMenu, ht, hprinted]
    rw [henter]
    exact .gameOver _ hs (Or.inr ⟨ht, rfl⟩)
  · exact entry_quit ht

/-- While the flags are as they should be, there are no other turns. -/
private theorem entry_of_flagsOk {w : World} {s t : Main} (h : FlagsOk s) (hflags : SameFlags s t)
    (hnext : t.screenState ∈ nextScreens s.screenState) : Entry w s t (enter w t) := by
  obtain ⟨h1, h2, h3, -⟩ := hflags
  cases hx : s.screenState <;> rw [hx] at hnext <;>
    simp only [nextScreens, List.mem_cons, List.not_mem_nil, or_false] at hnext <;>
    simp only [FlagsOk, hx] at h
  case main | goOne | goTwo =>
    obtain ⟨hp, hs, hd⟩ := h
    rw [← hx] at hnext
    exact entry_of_menu (by simp [IsMenu, hx]) (h1.trans hp) (h2.trans hs) (h3.trans hd) hnext
  case pause =>
    obtain ⟨hp, hs, hd⟩ := h
    exact entry_of_paused hx (h1.trans hp) (h2.trans hs) (h3.trans hd) hnext
  case sGame =>
    obtain ⟨hp, hs, hd⟩ := h
    exact entry_of_game hx (h1.trans hp) (h2.trans hs) (h3.trans hd) hnext
  case mGame =>
    have henter : enter w t = (t, []) := by simp [enter, enterNewGame, hnext, h2, h]
    rw [henter]
    exact .stay (hnext.trans hx.symm)
  case quit => exact entry_quit hnext

theorem step_entry {w : World} {s : Main} (h : FlagsOk s) (r : Receive) :
    Entry w s (handle w s r).1 (enter w (handle w s r).1) :=
  entry_of_flagsOk h (handle_sameFlags w s r) (handle_screen w s r)

theorem enter_stay {w : World} {s : Main} {r : Receive} (h : FlagsOk s)
    (ht : (handle w s r).1.screenState = s.screenState) : enter w (handle w s r).1 = ((handle w s r).1, []) := by
  have hentry := step_entry (w := w) h r
  generalize enter w (handle w s r).1 = e at hentry
  cases hentry with
  | stay _ => rfl
  | exit _ => rfl
  | newGame hs ht' =>
    rw [← ht] at hs
    rcases ht' with ht' | ht' <;> rw [ht'] at hs <;> exact absurd hs (by decide)
  | pause hs ht' => exact absurd (hs.symm.trans (ht.symm.trans ht')) (by decide)
  | resume hs ht' => exact absurd (hs.symm.trans (ht.symm.trans ht')) (by decide)
  | gameOver _ hs ht' =>
    rcases ht' with ⟨ht', -⟩ | ⟨ht', -⟩ <;> exact absurd (hs.symm.trans (ht.symm.trans ht')) (by decide)

theorem enter_newGame {w : World} {s : Main} {r : Receive} (h : FlagsOk s) (hs : IsMenu s.screenState)
    (ht : (handle w s r).1.screenState = .sGame) :
    enter w (handle w s r).1 = (beginGame w (handle w s r).1, [.startGame]) := by
  have hentry := step_entry (w := w) h r
  generalize enter w (handle w s r).1 = e at hentry
  cases hentry with
  | stay ht' =>
    rw [← ht', ht] at hs
    exact absurd hs (by decide)
  | exit ht' => exact absurd (ht'.symm.trans ht) (by decide)
  | newGame _ _ => rfl
  | pause _ ht' => exact absurd (ht'.symm.trans ht) (by decide)
  | resume hs' _ =>
    rw [hs'] at hs
    exact absurd hs (by decide)
  | gameOver _ _ ht' => rcases ht' with ⟨ht', -⟩ | ⟨ht', -⟩ <;> exact absurd (ht'.symm.trans ht) (by decide)

theorem enter_suspend {w : World} {s : Main} {r : Receive} (h : FlagsOk s) (hs : s.screenState ≠ .pause)
    (ht : (handle w s r).1.screenState = .pause) :
    s.screenState = .sGame ∧ enter w (handle w s r).1 =
      (suspendGame w (handle w s r).1, [.saveScreen, .entryDraw .pause loadImages.pause]) := by
  have hentry := step_entry (w := w) h r
  generalize enter w (handle w s r).1 = e at hentry
  cases hentry with
  | stay ht' => exact absurd (ht'.symm.trans ht) hs
  | exit ht' => exact absurd (ht'.symm.trans ht) (by decide)
  | newGame _ ht' => rcases ht' with ht' | ht' <;> exact absurd (ht'.symm.trans ht) (by decide)
  | pause hs' _ => exact ⟨hs', rfl⟩
  | resume hs' _ => exact absurd hs' hs
  | gameOver _ _ ht' => rcases ht' with ⟨ht', -⟩ | ⟨ht', -⟩ <;> exact absurd (ht'.symm.trans ht) (by decide)

theorem enter_resume {w : World} {s : Main} {r : Receive} (h : FlagsOk s) (hs : s.screenState = .pause)
    (ht : (handle w s r).1.screenState = .sGame) :
    enter w (handle w s r).1 = (resumeGame w (handle w s r).1, [.restoreScreen]) := by
  have hentry := step_entry (w := w) h r
  generalize enter w (handle w s r).1 = e at hentry
  cases hentry with
  | stay ht' => exact absurd (hs.symm.trans (ht'.symm.trans ht)) (by decide)
  | exit ht' => exact absurd (ht'.symm.trans ht) (by decide)
  | newGame hs' _ =>
    rw [hs] at hs'
    exact absurd hs' (by decide)
  | pause hs' _ => exact absurd (hs'.symm.trans hs) (by decide)
  | resume _ _ => rfl
  | gameOver _ hs' _ => exact absurd (hs'.symm.trans hs) (by decide)

theorem enter_gameOver {w : World} {s : Main} {r : Receive} (h : FlagsOk s) (hs : s.screenState = .sGame)
    (ht : (handle w s r).1.screenState = .goOne ∨ (handle w s r).1.screenState = .goTwo) :
    ∃ picture, ((handle w s r).1.screenState = .goOne ∧ picture = loadImages.gameOver1 ∨
        (handle w s r).1.screenState = .goTwo ∧ picture = loadImages.gameOver2) ∧
      enter w (handle w s r).1 =
        (showMenu w picture (handle w s r).1, [.entryDraw (handle w s r).1.screenState picture]) := by
  have hentry := step_entry (w := w) h r
  generalize enter w (handle w s r).1 = e at hentry
  cases hentry with
  | stay ht' =>
    rw [ht', hs] at ht
    exact absurd ht (by decide)
  | exit ht' =>
    rw [ht'] at ht
    exact absurd ht (by decide)
  | newGame hs' _ =>
    rw [hs] at hs'
    exact absurd hs' (by decide)
  | pause _ ht' =>
    rw [ht'] at ht
    exact absurd ht (by decide)
  | resume hs' _ => exact absurd (hs.symm.trans hs') (by decide)
  | gameOver picture _ ht' => exact ⟨picture, ht', rfl⟩

theorem enter_screenState (w : World) (s : Main) : (enter w s).1.screenState = s.screenState := by
  have hmenu : ∀ picture, (enterMenu w picture s).1.screenState = s.screenState := by
    intro picture
    unfold enterMenu
    split <;> rfl
  have hpause : (enterPause w s).1.screenState = s.screenState := by
    unfold enterPause
    split <;> rfl
  have hnew : (enterNewGame w s).1.screenState = s.screenState := by
    unfold enterNewGame
    split <;> rfl
  have hresumed : ∀ t, (enterResumed w t).1.screenState = t.screenState := by
    intro t
    unfold enterResumed
    split <;> rfl
  unfold enter
  split
  case h_1 | h_2 | h_3 => exact hmenu _
  case h_4 => exact hpause
  case h_5 => exact (hresumed _).trans hnew
  case h_6 => exact hnew
  case h_7 => rfl

theorem step_screenState (w : World) (s : Main) (r : Receive) :
    (step w s r).1.screenState = (handle w s r).1.screenState :=
  enter_screenState w _

theorem FlagsOk.step {w : World} {s : Main} (h : FlagsOk s) (r : Receive) : FlagsOk (step w s r).1 := by
  have hflags := handle_sameFlags w s r
  have hentry := step_entry (w := w) h r
  rw [step_fst]
  generalize handle w s r = t at hflags hentry
  generalize enter w t.1 = e at hentry
  obtain ⟨h1, h2, h3, -⟩ := hflags
  cases hentry with
  | stay ht => simpa only [FlagsOk, ht, h1, h2, h3] using h
  | exit ht => simp only [FlagsOk, ht]
  | newGame hs ht =>
    have hd : s.paused = false := by
      rcases hs with hx | hx | hx <;> simp only [FlagsOk, hx] at h <;> exact h.2.2
    rcases ht with ht | ht
    · simp [FlagsOk, beginGame, ht, h3, hd]
    · simp [FlagsOk, beginGame, ht]
  | pause hs ht =>
    simp only [FlagsOk, hs] at h
    simp [FlagsOk, suspendGame, ht, h2, h.2.1]
  | resume hs ht =>
    simp only [FlagsOk, hs] at h
    simp [FlagsOk, resumeGame, ht, h2, h.2.1]
  | gameOver picture hs ht =>
    simp only [FlagsOk, hs] at h
    rcases ht with ⟨ht, -⟩ | ⟨ht, -⟩ <;> simp [FlagsOk, showMenu, ht, h3, h.2.2]

private theorem flagsOk_boot (w : World) : FlagsOk (boot w).1 := by
  simp [boot, enter, enterMenu, showMenu, init, FlagsOk]

theorem flagsOk_mainRun (w : World) (rs : List Receive) : FlagsOk (mainRun w rs) :=
  run_invariant (fun _ r h => h.step r) (flagsOk_boot w) rs

/-! ### What the loop does in a turn -/

theorem mainRun_concat (w : World) (rs : List Receive) (r : Receive) :
    mainRun w (rs ++ [r]) = (step w (mainRun w rs) r).1 :=
  run_concat _ _ _ _

theorem mainLog_concat (w : World) (rs : List Receive) (r : Receive) :
    mainLog w (rs ++ [r]) = mainLog w rs ++ (step w (mainRun w rs) r).2 := by
  rw [mainLog, outputs_concat, ← List.append_assoc]
  rfl

private theorem step_count (w : World) (s : Main) (r : Receive) {a : Action} (ha : a.OfEntry) :
    (step w s r).2.count a = (enter w (handle w s r).1).2.count a := by
  have hzero : (handle w s r).2.count a = 0 :=
    List.count_eq_zero_of_not_mem (fun hmem => handle_not_ofEntry w s r a hmem ha)
  rw [step_snd, List.count_append, hzero, Nat.zero_add]

private theorem step_count_startGame {w : World} {s : Main} {r : Receive} (h : FlagsOk s)
    (hm : (handle w s r).1.screenState ≠ .mGame) :
    (step w s r).2.count .startGame =
      if IsMenu s.screenState ∧ (handle w s r).1.screenState = .sGame then 1 else 0 := by
  have hentry := step_entry (w := w) h r
  rw [step_count w s r (a := .startGame) trivial]
  generalize enter w (handle w s r).1 = e at hentry
  cases hentry with
  | stay ht => cases hs : s.screenState <;> simp [IsMenu, ht, hs]
  | exit ht => simp [ht]
  | newGame hs ht => simp [hs, ht.resolve_right hm]
  | pause hs ht => simp [ht]
  | resume hs ht => simp [IsMenu, hs]
  | gameOver picture hs ht => simp [IsMenu, hs]

private theorem step_count_saveScreen {w : World} {s : Main} (h : FlagsOk s) (r : Receive) :
    (step w s r).2.count .saveScreen =
      if s.screenState ≠ .pause ∧ (handle w s r).1.screenState = .pause then 1 else 0 := by
  have hentry := step_entry (w := w) h r
  rw [step_count w s r (a := .saveScreen) trivial]
  generalize enter w (handle w s r).1 = e at hentry
  cases hentry with
  | stay ht => simp [ht]
  | exit ht => simp [ht]
  | newGame hs ht => rcases ht with ht | ht <;> simp [ht]
  | pause hs ht => simp [hs, ht]
  | resume hs ht => simp [ht]
  | gameOver picture hs ht => rcases ht with ⟨ht, -⟩ | ⟨ht, -⟩ <;> simp [ht]

private theorem step_count_restoreScreen {w : World} {s : Main} (h : FlagsOk s) (r : Receive) :
    (step w s r).2.count .restoreScreen =
      if s.screenState = .pause ∧ (handle w s r).1.screenState = .sGame then 1 else 0 := by
  have hentry := step_entry (w := w) h r
  rw [step_count w s r (a := .restoreScreen) trivial]
  generalize enter w (handle w s r).1 = e at hentry
  cases hentry with
  | stay ht => cases hs : s.screenState <;> simp [ht, hs]
  | exit ht => simp [ht]
  | newGame hs ht => rcases hs with hs | hs | hs <;> simp [hs]
  | pause hs ht => simp [hs]
  | resume hs ht => simp [hs, ht]
  | gameOver picture hs ht => simp [hs]

private theorem step_countP_entryDraw {w : World} {s : Main} (h : FlagsOk s) (r : Receive) {x : ScreenState}
    (hx : x = .goOne ∨ x = .goTwo) :
    (step w s r).2.countP (Action.isEntryDrawOf x) =
      if s.screenState ≠ x ∧ (handle w s r).1.screenState = x then 1 else 0 := by
  have hentry := step_entry (w := w) h r
  have hzero : (handle w s r).2.countP (Action.isEntryDrawOf x) = 0 := by
    rw [List.countP_eq_zero]
    intro a ha hdraw
    have := handle_not_ofEntry w s r a ha
    cases a <;> simp [Action.isEntryDrawOf, Action.OfEntry] at hdraw this
  rw [step_snd, List.countP_append, hzero, Nat.zero_add]
  generalize enter w (handle w s r).1 = e at hentry
  cases hentry with
  | stay ht => simp [ht]
  | exit ht => rcases hx with rfl | rfl <;> simp [ht]
  | newGame hs ht => rcases hx with rfl | rfl <;> rcases ht with ht | ht <;> simp [ht, Action.isEntryDrawOf]
  | pause hs ht => rcases hx with rfl | rfl <;> simp [ht, Action.isEntryDrawOf]
  | resume hs ht => rcases hx with rfl | rfl <;> simp [ht, Action.isEntryDrawOf]
  | gameOver picture hs ht =>
    rcases hx with rfl | rfl <;> rcases ht with ⟨ht, -⟩ | ⟨ht, -⟩ <;> simp [hs, ht, Action.isEntryDrawOf]

/-! ### Saving and restoring the framebuffer -/

theorem saveBytes_screen (w : World) : (saveBytes w.screen).toNat = w.screen.size :=
  saveBytes_toNat (newVgInit_noWrap w.noOverflow)

private theorem memcpy_size {scr : Screen} {a : UInt32} (mem : Mem) (src : Mem) (ha : a.toNat < scr.size) :
    memcpy mem 0 (fun i => src (UInt32.ofNat i)) scr.size a = src a := by
  have hfit : scr.size < 2 ^ 32 := scr.fits
  rw [memcpy_inside (by simpa using hfit.le) (Nat.zero_le _) (by simpa using ha)]
  simp

theorem savedScreen_eq (w : World) (s : Main) {a : UInt32} (ha : a.toNat < w.screen.size) :
    savedScreen w s a = s.video.videoMem a := by
  rw [savedScreen, saveBytes_screen]
  exact memcpy_size _ _ ha

theorem restoredVideo_eq (w : World) (s : Main) {a : UInt32} (ha : a.toNat < w.screen.size) :
    (restoredVideo w s).videoMem a = s.saveGameScreen a := by
  rw [restoredVideo, saveBytes_screen]
  exact memcpy_size _ _ ha

/-- A pause of a run: the receive `rp` after `rs₁` requested it, and it still lasts after `mid`. -/
structure PausedSince (w : World) (rs₁ : List Receive) (rp : Receive) (mid : List Receive) : Prop where
  playing : (mainRun w rs₁).screenState = .sGame
  paused : ∀ pre, pre <+: mid → (mainRun w (rs₁ ++ rp :: pre)).screenState = .pause
  saved : ∀ a : UInt32, a.toNat < w.screen.size →
    (mainRun w (rs₁ ++ rp :: mid)).saveGameScreen a = (handle w (mainRun w rs₁) rp).1.video.videoMem a
  sameGame : ∃ l, mainLog w (rs₁ ++ rp :: mid) = mainLog w rs₁ ++ l ∧ Action.startGame ∉ l

/-- No game starts in a turn that leads into a pause. -/
private theorem startGame_notMem_of_pause {w : World} {s : Main} (h : FlagsOk s) {r : Receive}
    (hp : (handle w s r).1.screenState = .pause) : Action.startGame ∉ (step w s r).2 := by
  rw [← List.count_eq_zero, step_count_startGame h (by simp [hp])]
  simp [hp]

/-- A pause that begins with `r`. -/
private theorem pausedSince_self {w : World} {rs : List Receive} {r : Receive}
    (hs : (mainRun w rs).screenState ≠ .pause) (hp : (handle w (mainRun w rs) r).1.screenState = .pause) :
    PausedSince w rs r [] := by
  have hflags := flagsOk_mainRun w rs
  obtain ⟨hplaying, henter⟩ := enter_suspend hflags hs hp
  refine ⟨hplaying, ?_, ?_, (step w (mainRun w rs) r).2, mainLog_concat w rs r, startGame_notMem_of_pause hflags hp⟩
  · intro pre hpre
    rw [List.prefix_nil.1 hpre, mainRun_concat, step_screenState]
    exact hp
  · intro a ha
    rw [mainRun_concat, step_fst, henter]
    exact savedScreen_eq w _ ha

/-- A pause that goes on in the turn of `r`. -/
private theorem PausedSince.concat {w : World} {rs₁ mid : List Receive} {rp r : Receive} (h : PausedSince w rs₁ rp mid)
    (hp : (handle w (mainRun w (rs₁ ++ rp :: mid)) r).1.screenState = .pause) : PausedSince w rs₁ rp (mid ++ [r]) := by
  have hflags := flagsOk_mainRun w (rs₁ ++ rp :: mid)
  have hs := h.paused mid List.prefix_rfl
  have happend : rs₁ ++ rp :: (mid ++ [r]) = rs₁ ++ rp :: mid ++ [r] := by simp
  have hstay : (step w (mainRun w (rs₁ ++ rp :: mid)) r).1.saveGameScreen =
      (mainRun w (rs₁ ++ rp :: mid)).saveGameScreen := by
    rw [step_fst, enter_stay hflags (hp.trans hs.symm)]
    exact (handle_sameFlags w _ r).saveGameScreen
  obtain ⟨l, hl, hgame⟩ := h.sameGame
  refine ⟨h.playing, ?_, ?_, l ++ (step w (mainRun w (rs₁ ++ rp :: mid)) r).2, ?_, ?_⟩
  · intro pre hpre
    rcases List.prefix_concat_iff.1 hpre with rfl | hpre
    · rw [happend, mainRun_concat, step_screenState]
      exact hp
    · exact h.paused pre hpre
  · intro a ha
    rw [happend, mainRun_concat, hstay]
    exact h.saved a ha
  · rw [happend, mainLog_concat, hl, List.append_assoc]
  · intro hmem
    rcases List.mem_append.1 hmem with hmem | hmem
    · exact hgame hmem
    · exact startGame_notMem_of_pause hflags hp hmem

/-- Every pause was requested during the game it interrupts, and what was saved then is still saved. -/
private theorem pausedSince_of_pause (w : World) (rs : List Receive) (hp : (mainRun w rs).screenState = .pause) :
    ∃ rs₁ rp mid, rs = rs₁ ++ rp :: mid ∧ PausedSince w rs₁ rp mid := by
  induction rs using List.reverseRecOn with
  | nil =>
    have hboot : (mainRun w []).screenState = .main := by simp [mainRun, boot, enter_screenState, init]
    rw [hboot] at hp
    cases hp
  | append_singleton rs r ih =>
    rw [mainRun_concat, step_screenState] at hp
    by_cases hs : (mainRun w rs).screenState = .pause
    · obtain ⟨rs₁, rp, mid, rfl, h⟩ := ih hs
      exact ⟨rs₁, rp, mid ++ [r], by simp, h.concat hp⟩
    · exact ⟨rs, r, [], rfl, pausedSince_self hs hp⟩

/-! ### Turns of a run -/

/-- What the turn that receives `r` after `rs` does, and to which screens it belongs. -/
structure TurnOk (w : World) (rs : List Receive) (r : Receive) : Prop where
  /-- A game is started exactly once on every entry from a menu, and on no other. -/
  newGame : (step w (mainRun w rs) r).2.count .startGame =
    if IsMenu (mainRun w rs).screenState ∧ (mainRun w (rs ++ [r])).screenState = .sGame then 1 else 0
  /-- The framebuffer is saved exactly once on every entry into `PAUSE`. -/
  save : (step w (mainRun w rs) r).2.count .saveScreen =
    if (mainRun w rs).screenState ≠ .pause ∧ (mainRun w (rs ++ [r])).screenState = .pause then 1 else 0
  /-- It is the whole framebuffer, as handling the receive left it, and the pause picture is drawn after it. -/
  saved : (mainRun w rs).screenState ≠ .pause → (mainRun w (rs ++ [r])).screenState = .pause →
    (∃ pre, (step w (mainRun w rs) r).2 = pre ++ [.saveScreen, .entryDraw .pause loadImages.pause]) ∧
      ∀ a : UInt32, a.toNat < w.screen.size →
        (mainRun w (rs ++ [r])).saveGameScreen a = (handle w (mainRun w rs) r).1.video.videoMem a
  /-- The framebuffer is restored exactly on the returns from `PAUSE`. -/
  restore : (step w (mainRun w rs) r).2.count .restoreScreen =
    if (mainRun w rs).screenState = .pause ∧ (mainRun w (rs ++ [r])).screenState = .sGame then 1 else 0
  /-- What is restored was saved when the same game was interrupted. -/
  restored : (mainRun w rs).screenState = .pause → (mainRun w (rs ++ [r])).screenState = .sGame →
    ∃ rs₁ rp mid, rs = rs₁ ++ rp :: mid ∧ PausedSince w rs₁ rp mid ∧
      ∀ a : UInt32, a.toNat < w.screen.size →
        (mainRun w (rs ++ [r])).video.videoMem a = (handle w (mainRun w rs₁) rp).1.video.videoMem a
  /-- A game-over screen is drawn exactly once when it is entered. -/
  gameOver : ∀ x, x = .goOne ∨ x = .goTwo →
    (step w (mainRun w rs) r).2.countP (Action.isEntryDrawOf x) =
      if (mainRun w rs).screenState ≠ x ∧ (mainRun w (rs ++ [r])).screenState = x then 1 else 0

/-- In every run that does not select `M_GAME`, the flags drive the screens. -/
theorem flags_drive_screens (w : World) (rs : List Receive) (r : Receive)
    (hm : (mainRun w (rs ++ [r])).screenState ≠ .mGame) : TurnOk w rs r := by
  have hflags := flagsOk_mainRun w rs
  have hscreen : (mainRun w (rs ++ [r])).screenState = (handle w (mainRun w rs) r).1.screenState := by
    rw [mainRun_concat, step_screenState]
  have hsame := handle_sameFlags w (mainRun w rs) r
  rw [hscreen] at hm
  constructor
  · rw [hscreen]
    exact step_count_startGame hflags hm
  · rw [hscreen]
    exact step_count_saveScreen hflags r
  · rw [hscreen]
    intro hs ht
    obtain ⟨-, henter⟩ := enter_suspend hflags hs ht
    refine ⟨⟨(handle w (mainRun w rs) r).2, ?_⟩, fun a ha => ?_⟩
    · rw [step_snd, henter]
    · rw [mainRun_concat, step_fst, henter]
      exact savedScreen_eq w _ ha
  · rw [hscreen]
    exact step_count_restoreScreen hflags r
  · rw [hscreen]
    intro hs ht
    obtain ⟨rs₁, rp, mid, hrs, hsince⟩ := pausedSince_of_pause w rs hs
    refine ⟨rs₁, rp, mid, hrs, hsince, fun a ha => ?_⟩
    rw [mainRun_concat, step_fst, enter_resume hflags hs ht, resumeGame, restoredVideo_eq w _ ha, hsame.saveGameScreen,
      ← hsince.saved a ha, ← hrs]
  · intro x hx
    rw [hscreen]
    exact step_countP_entryDraw hflags r hx

theorem flags_drive_screens_pause : TurnOk (world115 0x12) click (key 153) :=
  flags_drive_screens (world115 0x12) click (key 153) (by decide +kernel)

end LabChase
