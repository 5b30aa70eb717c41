import LabChase.Proj.Keyboard
import LabChase.Proj.Mouse

/-!
# The main loop (`main.c`)

`proj_main_loop` is a loop over six loops, one for each screen; the one whose screen is current runs.  Each begins with
code that runs before every call of `driver_receive` (`enter`) and ends with code that handles what was received
(`handle`).  `step` is one turn of the loop from wait to wait.  The loop of `M_GAME` never waits, and `QUIT` ends the
program, so both keep their state.
-/

namespace LabChase

open FlatMemory

def loadImages : Images :=
  let imgs : Images := {}
  let imgs := { imgs with main := some .mainScreen }
  let imgs := { imgs with pause := some .pauseScreen }
  let imgs := { imgs with gameOver1 := some .gopOneWins }
  -- `gameOver1` a second time: `gameOver2` is never assigned
  let imgs := { imgs with gameOver1 := some .gopTwoWins }
  { imgs with cursor := some .cursor }

/-- `draw_img(picture, 0, 0)`. -/
def drawPicture (w : World) (picture : Option XpmMap) (v : Video) : Video :=
  { v with videoMem := drawImg w.screen v.videoMem (w.image picture) 0 0 }

def clearScreen (w : World) (v : Video) : Video :=
  { v with videoMem := memset v.videoMem 0 0 (clearBytes w.screen).toNat }

/-- `saveGameScreen` after the copy from the framebuffer. -/
def savedScreen (w : World) (s : Main) : Mem :=
  memcpy s.saveGameScreen 0 (fun i => s.video.videoMem (UInt32.ofNat i)) (saveBytes w.screen).toNat

/-- The framebuffer after the copy from `saveGameScreen`. -/
def restoredVideo (w : World) (s : Main) : Video :=
  { s.video with
    videoMem := memcpy s.video.videoMem 0 (fun i => s.saveGameScreen (UInt32.ofNat i)) (saveBytes w.screen).toNat }

/-! ### The code before a wait -/

def showMenu (w : World) (picture : Option XpmMap) (s : Main) : Main :=
  { s with video := drawPicture w picture s.video, printed := true, startGame := false }

/-- A game is suspended: the framebuffer is copied away and the pause picture drawn. -/
def suspendGame (w : World) (s : Main) : Main :=
  { s with
    saveGameScreen := savedScreen w s
    printed := true
    paused := true
    video := drawPicture w loadImages.pause s.video }

def beginGame (w : World) (s : Main) : Main :=
  { s with
    video := LabChase.startGame w.screen w.hour (clearScreen w s.video)
    startGame := true
    printed := false }

def resumeGame (w : World) (s : Main) : Main :=
  { s with video := restoredVideo w s, paused := false, printed := false }

/-- The head of the loops of `MAIN`, `GOONE` and `GOTWO`. -/
def enterMenu (w : World) (picture : Option XpmMap) (s : Main) : Main × List Action :=
  if s.printed then (s, []) else (showMenu w picture s, [.entryDraw s.screenState picture])

/-- The head of the loop of `PAUSE`. -/
def enterPause (w : World) (s : Main) : Main × List Action :=
  if s.printed then (s, []) else (suspendGame w s, [.saveScreen, .entryDraw .pause loadImages.pause])

/-- The first part of the heads of `S_GAME` and `M_GAME`. -/
def enterNewGame (w : World) (s : Main) : Main × List Action :=
  if s.startGame then (s, []) else (beginGame w s, [.startGame])

/-- The second part of the head of `S_GAME`. -/
def enterResumed (w : World) (s : Main) : Main × List Action :=
  if s.paused then (resumeGame w s, [.restoreScreen]) else (s, [])

def enter (w : World) (s : Main) : Main × List Action :=
  match s.screenState with
  | .main => enterMenu w loadImages.main s
  | .goOne => enterMenu w loadImages.gameOver1 s
  | .goTwo => enterMenu w loadImages.gameOver2 s
  | .pause => enterPause w s
  | .sGame =>
    -- the test of `startGame` comes first, that of `paused` after it
    let (s, started) := enterNewGame w s
    let (s, resumed) := enterResumed w s
    (s, started ++ resumed)
  | .mGame => enterNewGame w s
  | .quit => (s, [])

/-! ### Handling a notification -/

/-- A mouse byte in a menu: it opens or continues a packet, unless it would open one without bit 3. -/
def storeMouseByte (s : Main) : Main :=
  if s.counter = 0 ∧ s.byteFromMouse &&& 0x08 = 0 then s
  else
    { s with
      pp := { s.pp with bytes := Function.update s.pp.bytes s.counter.toNat s.byteFromMouse }
      counter := s.counter + 1 }

def clickedScreen (s : Main) : ScreenState :=
  if s.pp.lb && mouseInPlace s.video 253 288 547 313 then .sGame
  else if s.pp.lb && mouseInPlace s.video 268 352 532 376 then .mGame
  else if s.pp.lb && mouseInPlace s.video 358 412 442 437 then .quit
  else s.screenState

def handlePacket (w : World) (picture : Option XpmMap) (s : Main) : Main :=
  let pp := parseMouseBytes s.pp
  let video := mouseMovement w.screen (UInt16.ofInt pp.deltaX) (UInt16.ofInt pp.deltaY) (w.image loadImages.cursor)
    (drawPicture w picture s.video)
  let s := { s with counter := 0, pp := pp, video := video }
  { s with screenState := clickedScreen s }

/-- The mouse branch of the loops of `MAIN`, `GOONE` and `GOTWO`. -/
def menuBranch (w : World) (picture : Option XpmMap) (n : Notification) (s : Main) : Main × List Action :=
  if n.mouse then
    let s := storeMouseByte (mouseIh n.status n.data s)
    if s.counter = 3 then
      (handlePacket w picture s,
        [.readOutBuf, .parseMouseBytes [s.pp.bytes 0, s.pp.bytes 1, s.pp.bytes 2], .packetDraw s.screenState picture])
    else (s, [.readOutBuf])
  else (s, [])

/-- `move_player(nextMove, false)`, if a steering key was ever pressed. -/
def applyNextMove (w : World) (s : Main) : Main :=
  if s.nextMove.dir ≠ .unchanged then
    let (r, video) := movePlayer w.screen s.nextMove false s.video
    { s with video := video, screenState := if r = 1 then .quit else s.screenState }
  else s

def keyboardBranch (w : World) (n : Notification) (s : Main) : Main × List Action :=
  if n.keyboard then (applyNextMove w (kbcIh n.status n.data s), [.readOutBuf]) else (s, [])

def timerIntHandler (s : Main) : Main := { s with totalInterrupts := s.totalInterrupts + 1 }

/-- `passive_move_players`, and the screen it selects. -/
def applyPassiveMoves (w : World) (s : Main) : Main :=
  let (tmp, video) := passiveMovePlayers w.screen s.video
  { s with
    video := video
    screenState := if tmp = 1 then .goTwo else if tmp = 2 then .goOne else s.screenState }

/-- The timer branch of the loop of `S_GAME`. -/
def timerBranch (w : World) (n : Notification) (s : Main) : Main × List Action :=
  if n.timer then
    let s := timerIntHandler s
    if s.totalInterrupts % 5 = 0 then (applyPassiveMoves w s, [.passiveMovePlayers]) else (s, [])
  else (s, [])

/-- The body of the loop of the current screen, after `driver_receive`. -/
def handle (w : World) (s : Main) : Receive → Main × List Action
  | .failed => (s, [])
  | .other => (s, [])
  | .hardware n =>
    match s.screenState with
    | .main => menuBranch w loadImages.main n s
    -- both game-over screens draw `gameOver2` again for a packet
    | .goOne => menuBranch w loadImages.gameOver2 n s
    | .goTwo => menuBranch w loadImages.gameOver2 n s
    | .pause => keyboardBranch w n s
    -- the timer bit is tested before the keyboard bit
    | .sGame =>
      let (s, ticked) := timerBranch w n s
      let (s, pressed) := keyboardBranch w n s
      (s, ticked ++ pressed)
    | .mGame => (s, [])
    | .quit => (s, [])

/-- From one call of `driver_receive` to the next. -/
def step (w : World) (s : Main) (r : Receive) : Main × List Action :=
  let (s, handled) := handle w s r
  let (s, entered) := enter w s
  (s, handled ++ entered)

theorem step_fst (w : World) (s : Main) (r : Receive) : (step w s r).1 = (enter w (handle w s r).1).1 := rfl

theorem step_snd (w : World) (s : Main) (r : Receive) :
    (step w s r).2 = (handle w s r).2 ++ (enter w (handle w s r).1).2 := rfl

def init (w : World) : Main where
  screenState := .main
  printed := false
  startGame := false
  paused := false
  counter := 0
  pp := w.packet
  byteFromMouse := 0
  totalInterrupts := 0
  scanCode := 0
  nextMove := ⟨.unchanged, .blue⟩
  video := setMouseInitPos w.screen (w.image loadImages.cursor) ⟨w.videoMem, ⟨0, 0, .up⟩, ⟨0, 0, .up⟩, ⟨0, 0⟩⟩
  saveGameScreen := w.saveGameScreen

def boot (w : World) : Main × List Action := enter w (init w)

def mainRun (w : World) (rs : List Receive) : Main := Runs.run (fun s r => (step w s r).1) (boot w).1 rs

/-- Everything the loop does while it receives a sequence. -/
def mainLog (w : World) (rs : List Receive) : List Action :=
  (boot w).2 ++ Runs.outputs (step w) (boot w).1 rs

/-! ### A machine and a game -/

def blankImage : XpmImage := ⟨800, 600, fun _ => 0⟩

def world115 (hour : UInt8) : World where
  info := info115
  noOverflow := info115_noOverflow
  hour := hour
  loadImage := fun _ => blankImage
  unassigned := blankImage
  videoMem := fun _ => 0
  saveGameScreen := fun _ => 0
  packet := ⟨fun _ => 0, false, false, false, 0, 0, false, false⟩

def mouseByte (b : UInt8) : Receive := .hardware ⟨0x1000, 0x21, b⟩

/-- A click where the cursor is at the start, in the middle of the screen: on the button of `S_GAME`. -/
def click : List Receive := [mouseByte 0x09, mouseByte 0, mouseByte 0]

def key (code : UInt8) : Receive := .hardware ⟨0x2, 0x01, code⟩

def timerInterrupts (n : Nat) : List Receive := List.replicate n (.hardware ⟨0x1, 0, 0⟩)

/-- BLUE turns up, left and down, moves on once, turns right and up, and heads for the block it entered first; the
next timer interrupt makes it crash. -/
def firstGame : List Receive :=
  click ++ [key 145, key 158, key 159] ++ timerInterrupts 5 ++ [key 160, key 145] ++ timerInterrupts 4

/-! ### What a mouse byte, a key and a tick do -/

/-- A mouse byte writes the packet and nothing else. -/
private theorem storeMouseByte_mouseIh (status temp : UInt8) (s : Main) :
    ∃ pp counter byte, storeMouseByte (mouseIh status temp s) =
      { s with pp := pp, counter := counter, byteFromMouse := byte } := by
  unfold storeMouseByte mouseIh
  split <;> split <;> exact ⟨_, _, _, rfl⟩

/-- A notification in a menu brings no mouse byte, or one that leaves the packet incomplete, or the last of a packet. -/
theorem menuBranch_cases (w : World) (picture : Option XpmMap) (n : Notification) (s : Main) :
    menuBranch w picture n s = (s, []) ∨
      ∃ pp counter byte,
        let t := { s with pp := pp, counter := counter, byteFromMouse := byte }
        menuBranch w picture n s = (t, [.readOutBuf]) ∨
          menuBranch w picture n s = (handlePacket w picture t,
            [.readOutBuf, .parseMouseBytes [pp.bytes 0, pp.bytes 1, pp.bytes 2],
              .packetDraw s.screenState picture]) := by
  by_cases hm : n.mouse
  · right
    obtain ⟨pp, counter, byte, hstore⟩ := storeMouseByte_mouseIh n.status n.data s
    refine ⟨pp, counter, byte, ?_⟩
    simp only [menuBranch, hm, ↓reduceIte, hstore]
    by_cases h3 : counter = 3
    · right
      simp only [h3, ↓reduceIte]
    · left
      simp only [h3, ↓reduceIte]
  · left
    simp only [menuBranch, hm, Bool.false_eq_true, ↓reduceIte]

/-- The remembered move has an effect: it names a direction, and it is neither the direction of its player nor a
reversal. -/
def MoveDue (s : Main) : Prop := s.nextMove.dir ≠ .unchanged ∧ ¬ Ignored s.video s.nextMove false

instance (s : Main) : Decidable (MoveDue s) := inferInstanceAs (Decidable (_ ∧ _))

theorem applyNextMove_idle {s : Main} (w : World) (h : ¬ MoveDue s) : applyNextMove w s = s := by
  unfold applyNextMove
  by_cases hd : s.nextMove.dir = .unchanged
  · simp [hd]
  · have hig : Ignored s.video s.nextMove false := by
      by_contra hig
      exact h ⟨hd, hig⟩
    simp [hd, movePlayer_ignored w.screen hig]

theorem applyNextMove_enters {s : Main} (w : World) (h : MoveDue s) :
    applyNextMove w s =
      { s with
        video := s.video.enter w.screen s.nextMove.playerColor s.nextMove.dir
        screenState :=
          if Occupied w.screen s.video s.nextMove.playerColor s.nextMove.dir then .quit else s.screenState } := by
  obtain ⟨hd, hig⟩ := h
  have hmove : movePlayer w.screen s.nextMove false s.video = _ := movePlayer_enters w.screen hd hig
  unfold applyNextMove
  by_cases ho : Occupied w.screen s.video s.nextMove.playerColor s.nextMove.dir
  · simp [hd, hmove, ho]
  · simp [hd, hmove, ho]

/-- The state after `kbc_ih`, in the branch of a keyboard interrupt. -/
def afterKey (n : Notification) (s : Main) : Main :=
  { s with
    screenState := if IsPauseKey n.status n.data then togglePause s.screenState else s.screenState
    nextMove := (turnOf n.status n.data).getD s.nextMove
    scanCode := if KbcAccepts n.status then n.data else s.scanCode }

theorem keyboardBranch_key {n : Notification} (w : World) (s : Main) (h : n.keyboard) :
    (keyboardBranch w n s).1 = applyNextMove w (afterKey n s) := by
  simp only [keyboardBranch, h, ↓reduceIte, kbcIh_eq]
  rfl

theorem keyboardBranch_none {n : Notification} (w : World) (s : Main) (h : ¬ n.keyboard) :
    (keyboardBranch w n s).1 = s := by
  simp [keyboardBranch, h]

def TickDue (s : Main) (n : Notification) : Prop := n.timer ∧ (s.totalInterrupts + 1) % 5 = 0

instance (s : Main) (n : Notification) : Decidable (TickDue s n) := inferInstanceAs (Decidable (_ ∧ _))

theorem timerBranch_due {s : Main} {n : Notification} (w : World) (h : TickDue s n) :
    timerBranch w n s = (applyPassiveMoves w (timerIntHandler s), [.passiveMovePlayers]) := by
  have h5 : (timerIntHandler s).totalInterrupts % 5 = 0 := h.2
  simp only [timerBranch, h.1, h5, ↓reduceIte]

theorem timerBranch_idle {s : Main} {n : Notification} (w : World) (h : ¬ TickDue s n) :
    timerBranch w n s = (s, []) ∨ timerBranch w n s = (timerIntHandler s, []) := by
  by_cases ht : n.timer
  · have h5 : ¬ (timerIntHandler s).totalInterrupts % 5 = 0 := fun h5 => h ⟨ht, h5⟩
    right
    simp only [timerBranch, ht, h5, ↓reduceIte]
  · left
    simp only [timerBranch, ht, Bool.false_eq_true, ↓reduceIte]

/-- The calls of `passive_move_players` in a turn of the loop. -/
theorem timerBranch_snd (w : World) (n : Notification) (s : Main) :
    (timerBranch w n s).2 = if TickDue s n then [.passiveMovePlayers] else [] := by
  by_cases hdue : TickDue s n
  · rw [timerBranch_due w hdue, if_pos hdue]
  · rw [if_neg hdue]
    rcases timerBranch_idle w hdue with h | h <;> rw [h]

theorem handle_game {s : Main} (w : World) (h : s.screenState = .sGame) (n : Notification) :
    handle w s (.hardware n) =
      ((keyboardBranch w n (timerBranch w n s).1).1,
        (timerBranch w n s).2 ++ (keyboardBranch w n (timerBranch w n s).1).2) := by
  simp only [handle, h]

end LabChase
