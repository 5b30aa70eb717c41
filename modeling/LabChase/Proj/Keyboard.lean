import LabChase.Proj.MainState

/-!
# The keyboard (`keyboard.c`)

`kbc_ih`.  A byte that passes the status check toggles the pause, or overwrites `nextMove`, or neither; `kbcIh_eq` says
all that an interrupt can do.
-/

namespace LabChase

/-- The status check of `kbc_ih`: output buffer full, no parity or timeout error, not from the mouse. -/
def KbcAccepts (status : UInt8) : Prop := status &&& 0x01 = 1 ∧ status &&& (0x80 ||| 0x40 ||| 0x20) = 0

instance (status : UInt8) : Decidable (KbcAccepts status) := inferInstanceAs (Decidable (_ ∧ _))

/-- `kbc_ih`, with the bytes it reads from the status register and the output buffer. -/
def kbcIh (status temp : UInt8) (s : Main) : Main :=
  if KbcAccepts status then
    let screenState := if temp = 153 then (if s.screenState = .pause then .sGame else .pause) else s.screenState
    let nextMove :=
      if temp = 145 ∨ temp = 159 ∨ temp = 158 ∨ temp = 160 then
        { s.nextMove with
          playerColor := .blue
          dir := match temp with
            | 145 => .up
            | 159 => .down
            | 158 => .left
            | 160 => .right
            | _ => s.nextMove.dir }
      else s.nextMove
    let nextMove :=
      if temp = 200 ∨ temp = 203 ∨ temp = 205 ∨ temp = 208 then
        { nextMove with
          playerColor := .orange
          dir := match temp with
            | 200 => .up
            | 208 => .down
            | 203 => .left
            | 205 => .right
            | _ => nextMove.dir }
      else nextMove
    { s with screenState := screenState, nextMove := nextMove, scanCode := temp }
  else s

/-! ### What an interrupt does -/

/-- The turn a break code stands for. -/
def turn : UInt8 → Option MovementInfo
  | 145 => some ⟨.up, .blue⟩
  | 159 => some ⟨.down, .blue⟩
  | 158 => some ⟨.left, .blue⟩
  | 160 => some ⟨.right, .blue⟩
  | 200 => some ⟨.up, .orange⟩
  | 208 => some ⟨.down, .orange⟩
  | 203 => some ⟨.left, .orange⟩
  | 205 => some ⟨.right, .orange⟩
  | _ => none

def togglePause (screenState : ScreenState) : ScreenState := if screenState = .pause then .sGame else .pause

def IsPauseKey (status temp : UInt8) : Prop := KbcAccepts status ∧ temp = 153

instance (status temp : UInt8) : Decidable (IsPauseKey status temp) := inferInstanceAs (Decidable (_ ∧ _))

def turnOf (status temp : UInt8) : Option MovementInfo := if KbcAccepts status then turn temp else none

theorem turn_dir_ne_unchanged {temp : UInt8} {m : MovementInfo} (h : turn temp = some m) : m.dir ≠ .unchanged := by
  unfold turn at h
  split at h <;> cases h <;> decide

theorem turn_pause : turn 153 = none := rfl

theorem kbcIh_eq (status temp : UInt8) (s : Main) :
    kbcIh status temp s =
      { s with
        screenState := if IsPauseKey status temp then togglePause s.screenState else s.screenState
        nextMove := (turnOf status temp).getD s.nextMove
        scanCode := if KbcAccepts status then temp else s.scanCode } := by
  by_cases hok : KbcAccepts status
  · simp only [kbcIh, IsPauseKey, turnOf, hok, ↓reduceIte, true_and]
    fun_cases turn temp
    case case9 h1 h2 h3 h4 h5 h6 h7 h8 =>
      have hblue : ¬ (temp = 145 ∨ temp = 159 ∨ temp = 158 ∨ temp = 160) := by tauto
      have horange : ¬ (temp = 200 ∨ temp = 203 ∨ temp = 205 ∨ temp = 208) := by tauto
      simp only [hblue, horange, ↓reduceIte, togglePause, Option.getD_none]
    all_goals rfl
  · simp only [kbcIh, IsPauseKey, turnOf, hok, ↓reduceIte, false_and, Option.getD_none]

end LabChase
