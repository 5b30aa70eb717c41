import LabChase.Library.Runs
import LabChase.Proj.Mapping

/-!
# Moving the players (`video_gr.c`)

`start_game`, `move_player` and `passive_move_players`.  A call of `move_player` either is ignored (the player already
heads that way and the move is active, or the direction is a reversal) and changes nothing, or it enters the block one
step ahead: `movePlayer_ignored` and `movePlayer_enters` say all that a call can do, and the rest of the development
uses them instead of the definition.
-/

namespace LabChase

open FlatMemory

def movementStep : UInt16 := 5

def sizeFrontEnd : UInt16 := 5

/-- `COLOR_BLUE` and `COLOR_ORANGE`. -/
def trailColor : Player → UInt32
  | .blue => 0x1F51FF
  | .orange => 0xFF5F1F

def opposite : Direction → Direction
  | .left => .right
  | .up => .down
  | .down => .up
  | .right => .left
  -- the default branch returns `1`, which is `DOWN`
  | .unchanged => .down

/-- The tail of `move_player`: paint the block at `tmp`, store `tmp` in the player's static, return the flag. -/
def enterBlock (scr : Screen) (p : Player) (tmp : PlayerPosition) (v : Video) : Nat × Video :=
  let (flag, mem) := vgDrawRectangle scr v.videoMem tmp.x tmp.y sizeFrontEnd sizeFrontEnd (trailColor p)
  (flag, { v.setPlayer p tmp with videoMem := mem })

def movePlayer (scr : Screen) (movementInfo : MovementInfo) (isPassiveMovement : Bool) (v : Video) : Nat × Video :=
  let tmp := v.player movementInfo.playerColor
  -- only an active move in the current direction is dropped; a passive move always has it
  if !isPassiveMovement && movementInfo.dir == tmp.currentDirection then (0, v)
  else if movementInfo.dir == opposite tmp.currentDirection then (0, v)
  else
    let tmp := { tmp with currentDirection := movementInfo.dir }
    match movementInfo.dir with
    | .up => enterBlock scr movementInfo.playerColor { tmp with y := tmp.y - movementStep } v
    | .down => enterBlock scr movementInfo.playerColor { tmp with y := tmp.y + movementStep } v
    | .left => enterBlock scr movementInfo.playerColor { tmp with x := tmp.x - movementStep } v
    | .right => enterBlock scr movementInfo.playerColor { tmp with x := tmp.x + movementStep } v
    | .unchanged => (1, v)

def passiveMovePlayers (scr : Screen) (v : Video) : Nat × Video :=
  let passiveMovementBlue : MovementInfo := ⟨v.bluePlayer.currentDirection, .blue⟩
  let passiveMovementOrange : MovementInfo := ⟨v.orangePlayer.currentDirection, .orange⟩
  -- both directions are read before BLUE moves, and ORANGE stays where it is when BLUE crashes
  let (r, v) := movePlayer scr passiveMovementBlue true v
  if r ≠ 0 then (1, v)
  else
    let (r, v) := movePlayer scr passiveMovementOrange true v
    if r ≠ 0 then (2, v) else (0, v)

/-- Where `start_game` puts a player; the `unsigned` differences are truncated to `uint16_t`. -/
def startPosition (scr : Screen) : Player → PlayerPosition
  | .blue => ⟨(scr.hRes / 2 - 100).toUInt16, (scr.vRes / 2).toUInt16, .right⟩
  | .orange => ⟨(scr.hRes / 2 + 100).toUInt16, (scr.vRes / 2).toUInt16, .left⟩

/-- `start_game`; `hour` is the BCD byte of the real time clock. -/
def startGame (scr : Screen) (hour : UInt8) (v : Video) : Video :=
  { v with
    videoMem :=
      if hour ≥ 0x19 then memset v.videoMem 0 255 (nightFillBytes scr).toNat else v.videoMem
    bluePlayer := startPosition scr .blue
    orangePlayer := startPosition scr .orange }

/-! ### What a call of `move_player` does -/

/-- The call is ignored: an active move in the current direction, or a reversal. -/
def Ignored (v : Video) (info : MovementInfo) (isPassive : Bool) : Prop :=
  (isPassive = false ∧ info.dir = (v.player info.playerColor).currentDirection) ∨
    info.dir = opposite (v.player info.playerColor).currentDirection

instance (v : Video) (info : MovementInfo) (isPassive : Bool) : Decidable (Ignored v info isPassive) :=
  inferInstanceAs (Decidable (_ ∨ _))

def stepTo (pos : PlayerPosition) : Direction → PlayerPosition
  | .up => ⟨pos.x, pos.y - movementStep, .up⟩
  | .down => ⟨pos.x, pos.y + movementStep, .down⟩
  | .left => ⟨pos.x - movementStep, pos.y, .left⟩
  | .right => ⟨pos.x + movementStep, pos.y, .right⟩
  | .unchanged => pos

def Video.target (v : Video) (p : Player) (d : Direction) : PlayerPosition := stepTo (v.player p) d

/-- The block ahead is occupied: its top-left pixel is neither black nor `255`. -/
def Occupied (scr : Screen) (v : Video) (p : Player) (d : Direction) : Prop :=
  findColor scr v.videoMem (v.target p d).x (v.target p d).y ≠ 0 ∧
    findColor scr v.videoMem (v.target p d).x (v.target p d).y ≠ 255

instance (scr : Screen) (v : Video) (p : Player) (d : Direction) : Decidable (Occupied scr v p d) :=
  inferInstanceAs (Decidable (_ ∧ _))

def blockPixels (pos : PlayerPosition) : List (UInt16 × UInt16) :=
  rectanglePixels pos.x pos.y sizeFrontEnd sizeFrontEnd

def Video.enter (scr : Screen) (v : Video) (p : Player) (d : Direction) : Video :=
  { v.setPlayer p (v.target p d) with
    videoMem := paint scr (trailColor p) v.videoMem (blockPixels (v.target p d)) }

theorem movePlayer_ignored {v : Video} {info : MovementInfo} {isPassive : Bool} (scr : Screen)
    (h : Ignored v info isPassive) : movePlayer scr info isPassive v = (0, v) := by
  unfold movePlayer
  rcases h with ⟨rfl, h⟩ | h
  · simp [h]
  · simp [h]

/-- A call that is not ignored enters the block ahead, and reports whether it was occupied. -/
theorem movePlayer_enters {v : Video} {p : Player} {d : Direction} {isPassive : Bool} (scr : Screen)
    (hd : d ≠ .unchanged) (h : ¬ Ignored v ⟨d, p⟩ isPassive) :
    movePlayer scr ⟨d, p⟩ isPassive v = (if Occupied scr v p d then 1 else 0, v.enter scr p d) := by
  simp only [Ignored, not_or, not_and] at h
  obtain ⟨h1, h2⟩ := h
  have hsame : (!isPassive && d == (v.player p).currentDirection) = false := by
    cases isPassive with
    | false => simpa using h1 rfl
    | true => rfl
  have hrev : (d == opposite (v.player p).currentDirection) = false := by simpa using h2
  have henter : ∀ tmp, tmp = v.target p d →
      enterBlock scr p tmp v = (if Occupied scr v p d then 1 else 0, v.enter scr p d) := by
    rintro tmp rfl
    simp only [enterBlock, Video.enter, Occupied, blockPixels, ← vgDrawRectangle_mem]
    rfl
  simp only [movePlayer, hsame, hrev, Bool.false_eq_true, ↓reduceIte]
  cases d with
  | unchanged => exact absurd rfl hd
  | up => exact henter _ rfl
  | down => exact henter _ rfl
  | left => exact henter _ rfl
  | right => exact henter _ rfl

private theorem movePlayer_unchanged {v : Video} {p : Player} {isPassive : Bool} (scr : Screen)
    (h : ¬ Ignored v ⟨.unchanged, p⟩ isPassive) : movePlayer scr ⟨.unchanged, p⟩ isPassive v = (1, v) := by
  simp only [Ignored, not_or, not_and] at h
  have hsame : (!isPassive && Direction.unchanged == (v.player p).currentDirection) = false := by
    cases isPassive with
    | false => simpa using h.1 rfl
    | true => rfl
  have hrev : (Direction.unchanged == opposite (v.player p).currentDirection) = false := by simpa using h.2
  simp only [movePlayer, hsame, hrev, Bool.false_eq_true, ↓reduceIte]

private theorem opposite_ne_self (d : Direction) : opposite d ≠ d := by
  cases d <;> decide

theorem not_ignored_passive (v : Video) (p : Player) : ¬ Ignored v ⟨(v.player p).currentDirection, p⟩ true := by
  simp only [Ignored, Bool.true_eq_false, false_and, false_or]
  exact Ne.symm (opposite_ne_self _)

/-! ### The state after a move -/

@[simp] theorem stepTo_currentDirection (pos : PlayerPosition) {d : Direction} (h : d ≠ .unchanged) :
    (stepTo pos d).currentDirection = d := by
  cases d <;> first | rfl | exact absurd rfl h

@[simp] theorem Video.enter_player_self (scr : Screen) (v : Video) (p : Player) (d : Direction) :
    (v.enter scr p d).player p = v.target p d := by
  cases p <;> rfl

theorem Video.enter_player_of_ne (scr : Screen) (v : Video) {p q : Player} (h : q ≠ p) (d : Direction) :
    (v.enter scr p d).player q = v.player q := by
  cases p <;> cases q <;> first | rfl | exact absurd rfl h

theorem Video.enter_steered (scr : Screen) {v : Video} (h : ∀ q, (v.player q).currentDirection ≠ .unchanged)
    (p : Player) {d : Direction} (hd : d ≠ .unchanged) (q : Player) :
    ((v.enter scr p d).player q).currentDirection ≠ .unchanged := by
  by_cases hq : q = p
  · subst hq
    rw [Video.enter_player_self, Video.target, stepTo_currentDirection _ hd]
    exact hd
  · rw [v.enter_player_of_ne scr hq]
    exact h q

@[simp] theorem Video.enter_videoMem (scr : Screen) (v : Video) (p : Player) (d : Direction) :
    (v.enter scr p d).videoMem = paint scr (trailColor p) v.videoMem (blockPixels (v.target p d)) := rfl

theorem target_ne_player {v : Video} {p : Player} {d : Direction} (hd : d ≠ .unchanged) :
    ((v.target p d).x, (v.target p d).y) ≠ ((v.player p).x, (v.player p).y) := by
  have hadd : ∀ z : UInt16, z + movementStep ≠ z := fun z h => by
    have := congrArg UInt16.toNat h
    rw [UInt16.toNat_add] at this
    have hz := z.toNat_lt
    simp only [movementStep, UInt16.reduceToNat] at this
    omega
  have hsub : ∀ z : UInt16, z - movementStep ≠ z := fun z h => by
    have := congrArg UInt16.toNat h
    rw [UInt16.toNat_sub] at this
    have hz := z.toNat_lt
    simp only [movementStep, UInt16.reduceToNat] at this
    omega
  cases d with
  | unchanged => exact absurd rfl hd
  | up => simp [Video.target, stepTo, hsub]
  | down => simp [Video.target, stepTo, hadd]
  | left => simp [Video.target, stepTo, hsub]
  | right => simp [Video.target, stepTo, hadd]

@[simp] theorem startGame_player (scr : Screen) (hour : UInt8) (v : Video) (p : Player) :
    (startGame scr hour v).player p = startPosition scr p := by
  cases p <;> rfl

theorem startGame_steered (scr : Screen) (hour : UInt8) (v : Video) (p : Player) :
    ((startGame scr hour v).player p).currentDirection ≠ .unchanged := by
  rw [startGame_player]
  cases p <;> simp [startPosition]

/-! ### Calls of `move_player` -/

abbrev Heading := { d : Direction // d ≠ .unchanged }

/-- A call of `move_player`: an active turn of a player, or a passive move in its current direction. -/
inductive Call where
  | active (p : Player) (d : Heading)
  | passive (p : Player)

namespace Call

def player : Call → Player
  | .active p _ => p
  | .passive p => p

def isPassive : Call → Bool
  | .active _ _ => false
  | .passive _ => true

def info (v : Video) : Call → MovementInfo
  | .active p d => ⟨d, p⟩
  | .passive p => ⟨(v.player p).currentDirection, p⟩

def run (scr : Screen) (v : Video) (c : Call) : Nat × Video := movePlayer scr (c.info v) c.isPassive v

def Ignored (v : Video) (c : Call) : Prop := LabChase.Ignored v (c.info v) c.isPassive

instance (v : Video) (c : Call) : Decidable (c.Ignored v) :=
  inferInstanceAs (Decidable (LabChase.Ignored v (c.info v) c.isPassive))

def target (v : Video) (c : Call) : PlayerPosition := v.target c.player (c.info v).dir

end Call

def runCalls (scr : Screen) (v : Video) (cs : List Call) : Video := Runs.run (fun v c => (c.run scr v).2) v cs

/-- The blocks entered by a sequence of calls, in order. -/
def enteredBlocks (scr : Screen) : Video → List Call → List PlayerPosition
  | _, [] => []
  | v, c :: cs =>
    if c.Ignored v then enteredBlocks scr (c.run scr v).2 cs
    else c.target v :: enteredBlocks scr (c.run scr v).2 cs

def BlockOnScreen (scr : Screen) (pos : PlayerPosition) : Prop :=
  pos.x.toNat + 5 ≤ scr.hRes.toNat ∧ pos.y.toNat + 5 ≤ scr.vRes.toNat

instance (scr : Screen) (pos : PlayerPosition) : Decidable (BlockOnScreen scr pos) :=
  inferInstanceAs (Decidable (_ ∧ _))

def OnScreenRun (scr : Screen) (v : Video) (cs : List Call) : Prop :=
  ∀ pos ∈ enteredBlocks scr v cs, BlockOnScreen scr pos

instance (scr : Screen) (v : Video) (cs : List Call) : Decidable (OnScreenRun scr v cs) :=
  inferInstanceAs (Decidable (∀ pos ∈ enteredBlocks scr v cs, BlockOnScreen scr pos))

theorem enteredBlocks_append (scr : Screen) (v : Video) (cs ds : List Call) :
    enteredBlocks scr v (cs ++ ds) = enteredBlocks scr v cs ++ enteredBlocks scr (runCalls scr v cs) ds := by
  induction cs generalizing v with
  | nil => rfl
  | cons c cs ih =>
    simp only [List.cons_append, enteredBlocks, ih]
    split <;> rfl

theorem Call.info_dir_ne_unchanged {v : Video} (h : ∀ p, (v.player p).currentDirection ≠ .unchanged) (c : Call) :
    (c.info v).dir ≠ .unchanged := by
  cases c with
  | active p d => exact d.2
  | passive p => exact h p

theorem Call.run_ignored {v : Video} {c : Call} (scr : Screen) (h : c.Ignored v) : c.run scr v = (0, v) :=
  movePlayer_ignored scr h

theorem Call.run_enters {v : Video} {c : Call} (scr : Screen) (hd : (c.info v).dir ≠ .unchanged)
    (h : ¬ c.Ignored v) :
    c.run scr v = (if Occupied scr v c.player (c.info v).dir then 1 else 0, v.enter scr c.player (c.info v).dir) := by
  have hp : c.info v = ⟨(c.info v).dir, c.player⟩ := by cases c <;> rfl
  rw [Call.Ignored, hp] at h
  rw [Call.run, hp]
  exact movePlayer_enters scr hd h

/-- All that a call can do. -/
theorem Call.run_cases (scr : Screen) (v : Video) (c : Call) :
    (c.Ignored v ∧ c.run scr v = (0, v)) ∨
      (¬ c.Ignored v ∧ (c.info v).dir = .unchanged ∧ c.run scr v = (1, v)) ∨
      (¬ c.Ignored v ∧ (c.info v).dir ≠ .unchanged ∧
        c.run scr v =
          (if Occupied scr v c.player (c.info v).dir then 1 else 0, v.enter scr c.player (c.info v).dir)) := by
  by_cases hig : c.Ignored v
  · exact Or.inl ⟨hig, Call.run_ignored scr hig⟩
  · right
    by_cases hd : (c.info v).dir = .unchanged
    · left
      have hp : c.info v = ⟨.unchanged, c.player⟩ := by
        rw [← hd]
        cases c <;> rfl
      refine ⟨hig, hd, ?_⟩
      rw [Call.Ignored, hp] at hig
      rw [Call.run, hp]
      exact movePlayer_unchanged scr hig
    · exact Or.inr ⟨hig, hd, Call.run_enters scr hd hig⟩

/-! ### Ticks and steering commands -/

/-- What the main loop does to the players during a game: a timer tick or a steering key. -/
inductive Command where
  | tick
  | steer (p : Player) (d : Heading)

namespace Command

def run (scr : Screen) (v : Video) : Command → Nat × Video
  | .tick => passiveMovePlayers scr v
  | .steer p d => movePlayer scr ⟨d, p⟩ false v

/-- The calls of `move_player` a command makes: a tick moves ORANGE only if BLUE did not crash. -/
def calls (scr : Screen) (v : Video) : Command → List Call
  | .tick => if ((Call.passive .blue).run scr v).1 ≠ 0 then [.passive .blue] else [.passive .blue, .passive .orange]
  | .steer p d => [.active p d]

end Command

def runCommands (scr : Screen) (v : Video) (cmds : List Command) : Video :=
  Runs.run (fun v cmd => (cmd.run scr v).2) v cmds

def callsOf (scr : Screen) : Video → List Command → List Call
  | _, [] => []
  | v, cmd :: cmds => cmd.calls scr v ++ callsOf scr (cmd.run scr v).2 cmds

/-- A passive move enters the block ahead, unless the player heads nowhere. -/
theorem passive_run_snd (scr : Screen) (v : Video) (p : Player) :
    ((Call.passive p).run scr v).2 =
      if (v.player p).currentDirection = .unchanged then v else v.enter scr p (v.player p).currentDirection := by
  have hno := not_ignored_passive v p
  by_cases hd : (v.player p).currentDirection = .unchanged
  · have hrun : (Call.passive p).run scr v = movePlayer scr ⟨(v.player p).currentDirection, p⟩ true v := rfl
    rw [if_pos hd, hrun, hd, movePlayer_unchanged scr (hd ▸ hno)]
  · have hd' : ((Call.passive p).info v).dir ≠ .unchanged := hd
    rw [if_neg hd, Call.run_enters scr hd' hno]
    rfl

theorem passive_run_player_orange (scr : Screen) (v : Video) :
    ((Call.passive .blue).run scr v).2.player .orange = v.player .orange := by
  rw [passive_run_snd]
  split
  · rfl
  · exact v.enter_player_of_ne scr (by decide) _

theorem passiveMovePlayers_eq (scr : Screen) (v : Video) :
    passiveMovePlayers scr v =
      (let v' := ((Call.passive .blue).run scr v).2
      if ((Call.passive .blue).run scr v).1 ≠ 0 then (1, v')
      else if ((Call.passive .orange).run scr v').1 ≠ 0 then (2, ((Call.passive .orange).run scr v').2)
      else (0, ((Call.passive .orange).run scr v').2)) := by
  have horange : v.orangePlayer.currentDirection =
      (((Call.passive .blue).run scr v).2.player .orange).currentDirection := by
    rw [passive_run_player_orange]
    rfl
  unfold passiveMovePlayers
  rw [horange]
  rfl

/-- What a tick does: BLUE enters the block ahead; unless that is a crash, ORANGE enters the block ahead of it. -/
theorem passiveMovePlayers_enters (scr : Screen) {v : Video} (hb : v.bluePlayer.currentDirection ≠ .unchanged)
    (ho : v.orangePlayer.currentDirection ≠ .unchanged) :
    passiveMovePlayers scr v =
      (let v' := v.enter scr .blue v.bluePlayer.currentDirection
      if Occupied scr v .blue v.bluePlayer.currentDirection then (1, v')
      else if Occupied scr v' .orange v.orangePlayer.currentDirection then
        (2, v'.enter scr .orange v.orangePlayer.currentDirection)
      else (0, v'.enter scr .orange v.orangePlayer.currentDirection)) := by
  have hblue : (Call.passive .blue).run scr v =
      (if Occupied scr v .blue v.bluePlayer.currentDirection then 1 else 0,
        v.enter scr .blue v.bluePlayer.currentDirection) :=
    Call.run_enters scr hb (not_ignored_passive v .blue)
  have horange : (Call.passive .orange).run scr (v.enter scr .blue v.bluePlayer.currentDirection) =
      (if Occupied scr (v.enter scr .blue v.bluePlayer.currentDirection) .orange v.orangePlayer.currentDirection
        then 1 else 0,
        (v.enter scr .blue v.bluePlayer.currentDirection).enter scr .orange v.orangePlayer.currentDirection) :=
    Call.run_enters scr ho (not_ignored_passive _ .orange)
  rw [passiveMovePlayers_eq, hblue]
  by_cases h1 : Occupied scr v .blue v.bluePlayer.currentDirection
  · simp [h1]
  · simp only [h1, ↓reduceIte, ne_eq, not_true_eq_false, horange]
    by_cases h2 : Occupied scr (v.enter scr .blue v.bluePlayer.currentDirection) .orange
        v.orangePlayer.currentDirection
    · simp [h2]
    · simp [h2]

theorem Command.run_snd (scr : Screen) (v : Video) (cmd : Command) :
    (cmd.run scr v).2 = runCalls scr v (cmd.calls scr v) := by
  cases cmd with
  | steer p d => rfl
  | tick =>
    simp only [Command.run, Command.calls, passiveMovePlayers_eq]
    by_cases hb : ((Call.passive .blue).run scr v).1 = 0
    · simp only [hb, ne_eq, not_true_eq_false, ↓reduceIte]
      split <;> rfl
    · simp only [hb, ne_eq, not_false_eq_true, ↓reduceIte]
      rfl

theorem runCommands_eq (scr : Screen) (v : Video) (cmds : List Command) :
    runCommands scr v cmds = runCalls scr v (callsOf scr v cmds) := by
  induction cmds generalizing v with
  | nil => rfl
  | cons cmd cmds ih =>
    have hstep : runCommands scr v (cmd :: cmds) = runCommands scr (cmd.run scr v).2 cmds := rfl
    rw [hstep, ih, callsOf, Command.run_snd]
    exact (Runs.run_append _ _ _ _).symm

end LabChase
