import LabChase.Proj.Collision

/-!
# The mirrored game

Swapping the players and reflecting the plane about the line half way between them maps a game to a game, and the start
to itself (`Arena.mirror_call_active`, `Arena.mirror_start`).  A tick moves BLUE first, which makes no difference while
nobody crashes, so a game and its mirror crash first at the same tick.  Who is blamed depends on the order: BLUE, if the
cell ahead of it was entered before, and otherwise ORANGE (`mirrored_crash`).
-/

namespace LabChase

open Lattice Runs

def Player.other : Player → Player
  | .blue => .orange
  | .orange => .blue

def Direction.mirror : Direction → Direction
  | .left => .right
  | .right => .left
  | d => d

private theorem Direction.mirror_ne_unchanged (d : Direction) (h : d ≠ .unchanged) : d.mirror ≠ .unchanged := by
  cases d with
  | unchanged => exact absurd rfl h
  | up | down | left | right => decide

namespace Command

/-- The command of the mirrored run. -/
def mirror : Command → Command
  | .tick => .tick
  | .steer p d => .steer p.other ⟨d.1.mirror, d.1.mirror_ne_unchanged d.2⟩

/-- The command is no tick that reports a crash. -/
def Passes (scr : Screen) (v : Video) : Command → Prop
  | .tick => (passiveMovePlayers scr v).1 = 0
  | .steer _ _ => True

instance (scr : Screen) (v : Video) : ∀ cmd, Decidable (Passes scr v cmd)
  | .tick => inferInstanceAs (Decidable ((passiveMovePlayers scr v).1 = 0))
  | .steer _ _ => isTrue trivial

end Command

/-- No tick of the run reports a crash. -/
def NoCrash (scr : Screen) : Video → List Command → Prop
  | _, [] => True
  | v, cmd :: cmds => cmd.Passes scr v ∧ NoCrash scr (cmd.run scr v).2 cmds

instance (scr : Screen) : ∀ v cmds, Decidable (NoCrash scr v cmds)
  | _, [] => isTrue trivial
  | v, cmd :: cmds =>
    have : Decidable (NoCrash scr (cmd.run scr v).2 cmds) := instDecidableNoCrash scr (cmd.run scr v).2 cmds
    inferInstanceAs (Decidable (_ ∧ _))

/-- After the commands, the next tick is the first that reports a crash, and it returns `r`. -/
def FirstCrash (scr : Screen) (v : Video) (cmds : List Command) (r : Nat) : Prop :=
  NoCrash scr v cmds ∧ r ≠ 0 ∧ (passiveMovePlayers scr (runCommands scr v cmds)).1 = r

instance (scr : Screen) (v : Video) (cmds : List Command) (r : Nat) : Decidable (FirstCrash scr v cmds r) :=
  inferInstanceAs (Decidable (_ ∧ _ ∧ _))

/-- The block ahead of the player is one that a player entered before. -/
def EnteredAhead (scr : Screen) (v : Video) (cmds : List Command) (p : Player) : Prop :=
  let target := (runCommands scr v cmds).target p ((runCommands scr v cmds).player p).currentDirection
  ∃ pos ∈ enteredBlocks scr v (callsOf scr v cmds), pos.x = target.x ∧ pos.y = target.y

instance (scr : Screen) (v : Video) (cmds : List Command) (p : Player) : Decidable (EnteredAhead scr v cmds p) :=
  inferInstanceAs (Decidable (∃ pos ∈ _, _))

/-! ### The mirror of a game -/

@[simp] theorem Player.other_other (p : Player) : p.other.other = p := by cases p <;> rfl

private theorem Player.other_inj {p q : Player} : p.other = q.other ↔ p = q := by cases p <;> cases q <;> decide

@[simp] theorem Direction.mirror_mirror (d : Direction) : d.mirror.mirror = d := by cases d <;> rfl

private theorem Direction.mirror_inj {d e : Direction} : d.mirror = e.mirror ↔ d = e := by
  cases d <;> cases e <;> decide

private theorem opposite_mirror (d : Direction) : opposite d.mirror = (opposite d).mirror := by cases d <;> rfl

@[simp] theorem Command.mirror_mirror (cmd : Command) : cmd.mirror.mirror = cmd := by
  cases cmd with
  | tick => rfl
  | steer p d => simp [Command.mirror]

private theorem reflect_add_delta (m : ℤ) (b : ℤ × ℤ) (d : Direction) :
    reflect m (b + d.delta) = reflect m b + d.mirror.delta := by
  cases d <;> simp [reflect, Direction.delta, Direction.mirror] <;> ring

namespace Arena

/-- The game with the players swapped and the plane reflected. -/
def mirror (m : ℤ) (a : Arena) : Arena where
  cell := fun p => reflect m (a.cell p.other)
  heading := fun p => (a.heading p.other).mirror
  trail := {b | reflect m b ∈ a.trail}

private theorem mirror_ahead (m : ℤ) (a : Arena) (p : Player) (d : Direction) :
    (a.mirror m).ahead p.other d.mirror = reflect m (a.ahead p d) := by
  show reflect m (a.cell p.other.other) + d.mirror.delta = reflect m (a.cell p + d.delta)
  rw [Player.other_other, reflect_add_delta]

private theorem mirror_crash (m : ℤ) (a : Arena) (p : Player) (d : Direction) :
    (a.mirror m).Crash p.other d.mirror ↔ a.Crash p d := by
  show reflect m ((a.mirror m).ahead p.other d.mirror) ∈ a.trail ↔ a.ahead p d ∈ a.trail
  rw [mirror_ahead, reflect_reflect]

/-- The mirrored player enters the reflected block. -/
private theorem mirror_enter (m : ℤ) (a : Arena) (p : Player) (d : Direction) :
    (a.enter p d).mirror m = (a.mirror m).enter p.other d.mirror := by
  have hahead := mirror_ahead m a p d
  have hswap : ∀ q : Player, q.other = p ↔ q = p.other := by
    intro q
    rw [← Player.other_inj, Player.other_other]
  apply Arena.ext
  · funext q
    show reflect m (if q.other = p then a.ahead p d else a.cell q.other) =
      if q = p.other then (a.mirror m).ahead p.other d.mirror else reflect m (a.cell q.other)
    rw [hahead]
    by_cases hq : q = p.other
    · rw [if_pos hq, if_pos ((hswap q).2 hq)]
    · rw [if_neg hq, if_neg (mt (hswap q).1 hq)]
  · funext q
    show (if q.other = p then d else a.heading q.other).mirror =
      if q = p.other then d.mirror else (a.heading q.other).mirror
    by_cases hq : q = p.other
    · rw [if_pos hq, if_pos ((hswap q).2 hq)]
    · rw [if_neg hq, if_neg (mt (hswap q).1 hq)]
  · ext b
    show reflect m b ∈ insert (a.ahead p d) a.trail ↔
      b ∈ insert ((a.mirror m).ahead p.other d.mirror) {b | reflect m b ∈ a.trail}
    rw [Set.mem_insert_iff, Set.mem_insert_iff, hahead, reflect_eq_iff]
    rfl

private theorem mirror_call_active (m : ℤ) (a : Arena) (p : Player) (d : Heading) :
    (a.call (.active p d)).mirror m =
      (a.mirror m).call (.active p.other ⟨d.1.mirror, d.1.mirror_ne_unchanged d.2⟩) := by
  have hheading : (a.mirror m).heading p.other = (a.heading p).mirror := by
    show (a.heading p.other.other).mirror = _
    rw [Player.other_other]
  rw [call, call, hheading, opposite_mirror]
  simp only [Direction.mirror_inj]
  split
  · rfl
  · exact mirror_enter m a p d

/-- Two players enter their blocks in either order. -/
private theorem enter_comm (a : Arena) {p q : Player} (h : p ≠ q) (d e : Direction) :
    (a.enter p d).enter q e = (a.enter q e).enter p d := by
  have hp : (a.enter p d).ahead q e = a.ahead q e := by
    show (if q = p then _ else a.cell q) + e.delta = _
    rw [if_neg (Ne.symm h)]
    rfl
  have hq : (a.enter q e).ahead p d = a.ahead p d := by
    show (if p = q then _ else a.cell p) + d.delta = _
    rw [if_neg h]
    rfl
  apply Arena.ext
  · funext r
    show (if r = q then (a.enter p d).ahead q e else if r = p then a.ahead p d else a.cell r) =
      if r = p then (a.enter q e).ahead p d else if r = q then a.ahead q e else a.cell r
    rw [hp, hq]
    by_cases hr : r = q
    · subst hr
      rw [if_pos rfl, if_neg (Ne.symm h), if_pos rfl]
    · rw [if_neg hr, if_neg hr]
  · funext r
    show (if r = q then e else if r = p then d else a.heading r) =
      if r = p then d else if r = q then e else a.heading r
    by_cases hr : r = q
    · subst hr
      rw [if_pos rfl, if_neg (Ne.symm h), if_pos rfl]
    · rw [if_neg hr, if_neg hr]
  · show insert ((a.enter p d).ahead q e) (insert (a.ahead p d) a.trail) =
      insert ((a.enter q e).ahead p d) (insert (a.ahead q e) a.trail)
    rw [hp, hq, Set.insert_comm]

private theorem mirror_start (scr : Screen) : (start scr).mirror (2 * (scr.hRes.toNat / 2 : ℕ)) = start scr := by
  apply Arena.ext
  · funext p
    cases p with
    | blue =>
      show reflect _ _ = _
      simp only [reflect, start, Player.other, Prod.mk.injEq, and_true]
      ring
    | orange =>
      show reflect _ _ = _
      simp only [reflect, start, Player.other, Prod.mk.injEq, and_true]
      ring
  · funext p
    cases p <;> rfl
  · rfl

end Arena

/-! ### A tick in the game and in its mirror -/

private theorem Refines.passive_crash {scr : Screen} {v : Video} {a : Arena} (h : Refines scr v a) (p : Player)
    (hon : BlockOnScreen scr ((Call.passive p).target v)) :
    ((Call.passive p).run scr v).1 ≠ 0 ↔ a.Crash p (a.heading p) := by
  have hahead : a.ahead p (v.player p).currentDirection = corner ((Call.passive p).target v) := h.ahead_eq hon
  have hno : ¬ (Call.passive p).Ignored v := not_ignored_passive v p
  rw [(h.run_enters hno hon).2, Arena.Crash, h.heading, hahead]

/-- ORANGE crashes after BLUE has moved: into the trail, or into the block BLUE has just entered. -/
private theorem Arena.crash_orange_iff (a : Arena) :
    (a.call (.passive .blue)).Crash .orange ((a.call (.passive .blue)).heading .orange) ↔
      a.ahead .orange (a.heading .orange) = a.ahead .blue (a.heading .blue) ∨
        a.Crash .orange (a.heading .orange) := Iff.rfl

/-- What a tick reports: BLUE runs into the trail, or BLUE enters a free block and ORANGE runs into the trail or into
that block, or nobody crashes. -/
private theorem Refines.tick_cases {scr : Screen} {v : Video} {a : Arena} (h : Refines scr v a)
    (h3 : scr.bytesPerPixel = 3) (hon : OnScreenRun scr v (Command.tick.calls scr v)) :
    let blue := a.Crash .blue (a.heading .blue)
    let orange := a.ahead .orange (a.heading .orange) = a.ahead .blue (a.heading .blue) ∨
      a.Crash .orange (a.heading .orange)
    (blue ∧ (passiveMovePlayers scr v).1 = 1) ∨ (¬ blue ∧ orange ∧ (passiveMovePlayers scr v).1 = 2) ∨
      (¬ blue ∧ ¬ orange ∧ (passiveMovePlayers scr v).1 = 0 ∧
        Command.tick.calls scr v = [.passive .blue, .passive .orange]) := by
  intro blue orange
  have hblueOn : BlockOnScreen scr ((Call.passive .blue).target v) := by
    rw [Command.calls] at hon
    split at hon
    · exact (onScreenRun_cons.1 hon).1 (not_ignored_passive v .blue)
    · exact (onScreenRun_cons.1 hon).1 (not_ignored_passive v .blue)
  have hblue := h.passive_crash .blue hblueOn
  rw [passiveMovePlayers_eq, Command.calls] at *
  by_cases hb : ((Call.passive .blue).run scr v).1 ≠ 0
  · left
    rw [if_pos hb]
    exact ⟨hblue.1 hb, rfl⟩
  · right
    rw [if_neg hb] at hon
    have horangeOn := (onScreenRun_cons.1 (onScreenRun_cons.1 hon).2).1 (not_ignored_passive _ .orange)
    have hmoved := h.call h3 (.passive .blue) (fun _ => hblueOn)
    have horange := (hmoved.passive_crash .orange horangeOn).trans a.crash_orange_iff
    rw [if_neg hb, if_neg hb]
    by_cases ho : ((Call.passive .orange).run scr ((Call.passive .blue).run scr v).2).1 ≠ 0
    · left
      rw [if_pos ho]
      exact ⟨mt hblue.2 hb, horange.1 ho, rfl⟩
    · right
      rw [if_neg ho]
      exact ⟨mt hblue.2 hb, mt horange.2 ho, rfl, rfl⟩

/-- In the mirrored game ORANGE's block is BLUE's. -/
private theorem Arena.mirror_crash_blue (m : ℤ) (a : Arena) :
    (a.mirror m).Crash .blue ((a.mirror m).heading .blue) ↔ a.Crash .orange (a.heading .orange) :=
  a.mirror_crash m .orange (a.heading .orange)

private theorem Arena.mirror_crash_orange (m : ℤ) (a : Arena) :
    (a.mirror m).Crash .orange ((a.mirror m).heading .orange) ↔ a.Crash .blue (a.heading .blue) :=
  a.mirror_crash m .blue (a.heading .blue)

private theorem Arena.mirror_meet (m : ℤ) (a : Arena) :
    (a.mirror m).ahead .orange ((a.mirror m).heading .orange) = (a.mirror m).ahead .blue ((a.mirror m).heading .blue) ↔
      a.ahead .orange (a.heading .orange) = a.ahead .blue (a.heading .blue) := by
  have horange : (a.mirror m).ahead .orange ((a.mirror m).heading .orange) = _ := a.mirror_ahead m .blue _
  have hblue : (a.mirror m).ahead .blue ((a.mirror m).heading .blue) = _ := a.mirror_ahead m .orange _
  rw [horange, hblue, reflect_eq_iff, reflect_reflect]
  exact eq_comm

/-- A command that reports no crash does the same in the mirrored game, and reports no crash there. -/
private theorem mirror_command {scr : Screen} (h3 : scr.bytesPerPixel = 3) {m : ℤ} {v w : Video} {a : Arena}
    (hv : Refines scr v a) (hw : Refines scr w (a.mirror m)) {cmd : Command}
    (hon : OnScreenRun scr v (cmd.calls scr v)) (hon' : OnScreenRun scr w (cmd.mirror.calls scr w))
    (hpass : cmd.Passes scr v) :
    cmd.mirror.Passes scr w ∧
      run Arena.call (a.mirror m) (cmd.mirror.calls scr w) = (run Arena.call a (cmd.calls scr v)).mirror m := by
  cases cmd with
  | steer p d => exact ⟨trivial, (a.mirror_call_active m p d).symm⟩
  | tick =>
    have hzero : (passiveMovePlayers scr v).1 = 0 := hpass
    have hcases := hv.tick_cases h3 hon
    have hcases' := hw.tick_cases h3 hon'
    simp only [Arena.mirror_crash_blue, Arena.mirror_crash_orange, Arena.mirror_meet] at hcases'
    rcases hcases with ⟨-, hr⟩ | ⟨-, -, hr⟩ | ⟨hblue, horange, -, hcalls⟩
    · omega
    · omega
    · obtain ⟨hmeet, horange⟩ := not_or.1 horange
      have hnot : ¬ (a.ahead .orange (a.heading .orange) = a.ahead .blue (a.heading .blue) ∨
          a.Crash .blue (a.heading .blue)) := not_or.2 ⟨hmeet, hblue⟩
      rcases hcases' with ⟨h1, -⟩ | ⟨-, h1, -⟩ | ⟨-, -, hr', hcalls'⟩
      · exact absurd h1 horange
      · exact absurd h1 hnot
      · refine ⟨hr', ?_⟩
        -- the mirrored BLUE, who is ORANGE, moves first
        have hcalls'' : Command.tick.mirror.calls scr w = [.passive .blue, .passive .orange] := hcalls'
        rw [hcalls, hcalls'']
        show ((a.mirror m).enter .blue _).enter .orange _ = Arena.mirror m ((a.enter .blue _).enter .orange _)
        rw [a.enter_comm (by decide), Arena.mirror_enter, Arena.mirror_enter]
        rfl

/-- A run without a crash and its mirror are mirrored games. -/
private theorem mirror_run {scr : Screen} (h3 : scr.bytesPerPixel = 3) {m : ℤ} {cmds : List Command} {v w : Video}
    {a : Arena} (hv : Refines scr v a) (hw : Refines scr w (a.mirror m))
    (hon : OnScreenRun scr v (callsOf scr v cmds))
    (hon' : OnScreenRun scr w (callsOf scr w (cmds.map Command.mirror))) (hpass : NoCrash scr v cmds) :
    NoCrash scr w (cmds.map Command.mirror) ∧
      run Arena.call (a.mirror m) (callsOf scr w (cmds.map Command.mirror)) =
        (run Arena.call a (callsOf scr v cmds)).mirror m := by
  induction cmds generalizing v w a with
  | nil => exact ⟨trivial, rfl⟩
  | cons cmd cmds ih =>
    obtain ⟨hfirst, hrest⟩ := onScreenRun_append.1 hon
    obtain ⟨hfirst', hrest'⟩ := onScreenRun_append.1 hon'
    rw [← Command.run_snd] at hrest hrest'
    obtain ⟨hcmd, hcmds⟩ := hpass
    obtain ⟨hpass', hcall⟩ := mirror_command h3 hv hw hfirst hfirst' hcmd
    have hv' := (run_refines h3 hv _ hfirst).1
    have hw' := (run_refines h3 hw _ hfirst').1
    rw [← Command.run_snd] at hv' hw'
    rw [hcall] at hw'
    obtain ⟨hnone, hrun⟩ := ih hv' hw' hrest hrest' hcmds
    refine ⟨⟨hpass', hnone⟩, ?_⟩
    rw [List.map_cons, callsOf, callsOf, run_append, run_append, hcall, hrun]

/-! ### The block ahead -/

/-- The 16-bit position of the block ahead, also off the screen. -/
private theorem StandsFor.stepTo_mod {scr : Screen} {pos : PlayerPosition} {c : ℤ × ℤ} (hc : StandsFor scr pos c)
    (d : Direction) :
    (c + d.delta).1 % 65536 = (stepTo pos d).x.toNat ∧ (c + d.delta).2 % 65536 = (stepTo pos d).y.toNat := by
  have hx := pos.x.toNat_lt
  have hy := pos.y.toNat_lt
  obtain ⟨hcx, hcy, hx1, hy1, hx2⟩ := hc
  obtain ⟨cx, cy⟩ := c
  cases d <;>
    simp only [stepTo, movementStep, Direction.delta, UInt16.toNat_add, UInt16.toNat_sub, UInt16.reduceToNat,
      Prod.mk_add_mk] at * <;>
    omega

private theorem enteredAhead_iff {scr : Screen} (h3 : scr.bytesPerPixel = 3) {v : Video} {a : Arena}
    (h : Refines scr v a) (htrail : a.trail = ∅) {cmds : List Command} (hon : OnScreenRun scr v (callsOf scr v cmds))
    (p : Player) :
    let b := run Arena.call a (callsOf scr v cmds)
    EnteredAhead scr v cmds p ↔ b.Crash p (b.heading p) := by
  intro b
  obtain ⟨href, hmem⟩ := run_refines h3 h _ hon
  rw [← runCommands_eq] at href
  have hstep := (href.cell p).stepTo_mod ((runCommands scr v cmds).player p).currentDirection
  have hcrash : b.Crash p (b.heading p) ↔ ∃ pos ∈ enteredBlocks scr v (callsOf scr v cmds),
      b.ahead p (b.heading p) = corner pos := by
    rw [Arena.Crash, hmem, htrail]
    simp
  rw [hcrash, EnteredAhead]
  have hahead : b.ahead p (b.heading p) = b.cell p + ((runCommands scr v cmds).player p).currentDirection.delta := by
    rw [Arena.ahead, href.heading]
  constructor
  · rintro ⟨pos, hpos, hx, hy⟩
    have hposOn := hon pos hpos
    refine ⟨pos, hpos, ?_⟩
    have htarget : BlockOnScreen scr
        (stepTo ((runCommands scr v cmds).player p) ((runCommands scr v cmds).player p).currentDirection) := by
      simp only [BlockOnScreen, Video.target] at hposOn hx hy ⊢
      rwa [← hx, ← hy]
    rw [hahead, ← (href.cell p).corner_stepTo htarget]
    exact Prod.ext (by rw [corner, corner, hx]; rfl) (by rw [corner, corner, hy]; rfl)
  · rintro ⟨pos, hpos, heq⟩
    have hx := pos.x.toNat_lt
    have hy := pos.y.toNat_lt
    rw [← hahead, heq] at hstep
    simp only [corner] at hstep
    refine ⟨pos, hpos, ?_, ?_⟩
    · apply UInt16.toNat_inj.1
      rw [Video.target]
      omega
    · apply UInt16.toNat_inj.1
      rw [Video.target]
      omega

/-! ### Who is blamed -/

private theorem onScreenRun_tick {scr : Screen} {v : Video} {cmds : List Command}
    (hon : OnScreenRun scr v (callsOf scr v (cmds ++ [.tick]))) :
    OnScreenRun scr v (callsOf scr v cmds) ∧
      OnScreenRun scr (runCommands scr v cmds) (Command.tick.calls scr (runCommands scr v cmds)) := by
  rw [callsOf_append, onScreenRun_append, ← runCommands_eq] at hon
  exact ⟨hon.1, (onScreenRun_append.1 hon.2).1⟩

/-- The tick after a run without a crash blames BLUE if the block ahead of BLUE was entered before. -/
private theorem firstCrash_return {scr : Screen} (h3 : scr.bytesPerPixel = 3) {v : Video} {a : Arena}
    (hv : Refines scr v a) (htrail : a.trail = ∅) {cmds : List Command}
    (hon : OnScreenRun scr v (callsOf scr v (cmds ++ [.tick]))) {r : Nat}
    (hfirst : FirstCrash scr v cmds r) : r = if EnteredAhead scr v cmds .blue then 1 else 2 := by
  obtain ⟨-, hne, hr⟩ := hfirst
  have hon := onScreenRun_tick hon
  have href := (run_refines h3 hv _ hon.1).1
  rw [← runCommands_eq] at href
  have hahead := enteredAhead_iff h3 hv htrail hon.1 .blue
  rcases href.tick_cases h3 hon.2 with ⟨hblue, h1⟩ | ⟨hblue, -, h2⟩ | ⟨-, -, h0, -⟩
  · rw [if_pos (hahead.2 hblue), ← hr, h1]
  · rw [if_neg (mt hahead.1 hblue), ← hr, h2]
  · exact absurd (hr.symm.trans h0) hne

/-- The mirrored run crashes first at the same tick, and blames BLUE if the block ahead of ORANGE was entered
before. -/
private theorem firstCrash_mirror {scr : Screen} (h3 : scr.bytesPerPixel = 3) {m : ℤ} {v : Video} {a : Arena}
    (hv : Refines scr v a) (hmirror : a.mirror m = a) (htrail : a.trail = ∅) {cmds : List Command}
    (hon : OnScreenRun scr v (callsOf scr v (cmds ++ [.tick])))
    (hon' : OnScreenRun scr v (callsOf scr v (cmds.map Command.mirror ++ [.tick]))) {r : Nat}
    (hfirst : FirstCrash scr v cmds r) :
    FirstCrash scr v (cmds.map Command.mirror) (if EnteredAhead scr v cmds .orange then 1 else 2) := by
  obtain ⟨hnone, hne, hr⟩ := hfirst
  have hon := onScreenRun_tick hon
  have hon' := onScreenRun_tick hon'
  obtain ⟨hnone', hrun⟩ := mirror_run h3 hv (hmirror.symm ▸ hv) hon.1 hon'.1 hnone
  rw [hmirror] at hrun
  have href := (run_refines h3 hv _ hon.1).1
  have href' := (run_refines h3 hv _ hon'.1).1
  rw [← runCommands_eq] at href href'
  rw [hrun] at href'
  have hahead := enteredAhead_iff h3 hv htrail hon.1 .orange
  have hcases := href.tick_cases h3 hon.2
  have hcases' := href'.tick_cases h3 hon'.2
  simp only [Arena.mirror_crash_blue, Arena.mirror_crash_orange, Arena.mirror_meet] at hcases'
  refine ⟨hnone', by split <;> decide, ?_⟩
  rcases hcases' with ⟨horange, h1⟩ | ⟨horange, -, h2⟩ | ⟨horange, hblue, -, -⟩
  · rw [if_pos (hahead.2 horange), h1]
  · rw [if_neg (mt hahead.1 horange), h2]
  · -- nobody crashes in the mirrored run, so nobody crashes in the run
    obtain ⟨hmeet, hblue⟩ := not_or.1 hblue
    rcases hcases with ⟨h, -⟩ | ⟨-, h, -⟩ | ⟨-, -, h0, -⟩
    · exact absurd h hblue
    · exact absurd h (not_or.2 ⟨hmeet, horange⟩)
    · exact absurd (hr.symm.trans h0) hne

/-- A run and its mirror crash first at the same tick; the crash is blamed on BLUE exactly if the block ahead of BLUE
was entered before, which in the mirrored run is the block ahead of ORANGE. -/
theorem mirrored_crash {scr : Screen} (h3 : scr.bytesPerPixel = 3) {hour : UInt8} (hday : hour < 0x19) {v₀ : Video}
    (hc : Cleared scr v₀.videoMem) {cmds : List Command}
    (hon : OnScreenRun scr (startGame scr hour v₀) (callsOf scr (startGame scr hour v₀) (cmds ++ [.tick])))
    (hon' : OnScreenRun scr (startGame scr hour v₀)
      (callsOf scr (startGame scr hour v₀) (cmds.map Command.mirror ++ [.tick]))) :
    let start := startGame scr hour v₀
    (∀ r, FirstCrash scr start cmds r → r = (if EnteredAhead scr start cmds .blue then 1 else 2) ∧
        FirstCrash scr start (cmds.map Command.mirror) (if EnteredAhead scr start cmds .orange then 1 else 2)) ∧
      ∀ r, FirstCrash scr start (cmds.map Command.mirror) r →
        FirstCrash scr start cmds (if EnteredAhead scr start cmds .blue then 1 else 2) := by
  intro start
  have hv : Refines scr start (Arena.start scr) := Refines.start h3 hc hday
  constructor
  · intro r hfirst
    exact ⟨firstCrash_return h3 hv rfl hon hfirst, firstCrash_mirror h3 hv (Arena.mirror_start scr) rfl hon hon' hfirst⟩
  · intro r hfirst
    have htwice : (cmds.map Command.mirror).map Command.mirror = cmds := by
      simp [Function.comp_def]
    have hback := firstCrash_mirror h3 hv (Arena.mirror_start scr) rfl hon' (by rwa [htwice]) hfirst
    rw [htwice] at hback
    rwa [← firstCrash_return h3 hv rfl hon hback]

/-- BLUE circles to the left and ORANGE to the right, until both have a block of their own trail ahead. -/
def twoCircles : List Command :=
  [.steer .blue ⟨.up, by decide⟩, .steer .blue ⟨.left, by decide⟩, .steer .blue ⟨.down, by decide⟩,
    .steer .orange ⟨.up, by decide⟩, .steer .orange ⟨.right, by decide⟩, .steer .orange ⟨.down, by decide⟩, .tick,
    .steer .blue ⟨.right, by decide⟩, .steer .blue ⟨.up, by decide⟩, .steer .orange ⟨.left, by decide⟩,
    .steer .orange ⟨.up, by decide⟩]

private theorem twoCircles_onScreen :
    let start := startGame mode115 0x12 blackVideo
    OnScreenRun mode115 start (callsOf mode115 start (twoCircles ++ [.tick])) ∧
      OnScreenRun mode115 start (callsOf mode115 start (twoCircles.map Command.mirror ++ [.tick])) := by
  decide +kernel

/-- Both players run into their trails in one tick: BLUE is blamed in the run and in its mirror. -/
theorem double_crash_blames_blue :
    let start := startGame mode115 0x12 blackVideo
    OnScreenRun mode115 start (callsOf mode115 start (twoCircles ++ [.tick])) ∧
      OnScreenRun mode115 start (callsOf mode115 start (twoCircles.map Command.mirror ++ [.tick])) ∧
      FirstCrash mode115 start twoCircles 1 ∧ FirstCrash mode115 start (twoCircles.map Command.mirror) 1 ∧
      ¬ FirstCrash mode115 start (twoCircles.map Command.mirror) 2 := by
  refine ⟨twoCircles_onScreen.1, twoCircles_onScreen.2, ?_⟩
  decide +kernel

/-- The blocks ahead of both players were entered before, so the mirrored run blames BLUE again. -/
theorem mirrored_crash_circles :
    FirstCrash mode115 (startGame mode115 0x12 blackVideo) (twoCircles.map Command.mirror) 1 := by
  have hday : (0x12 : UInt8) < 0x19 := by decide
  have hc : Cleared mode115 blackVideo.videoMem := fun _ _ => rfl
  have hfirst : FirstCrash mode115 (startGame mode115 0x12 blackVideo) twoCircles 1 := by
    decide +kernel
  have hahead : EnteredAhead mode115 (startGame mode115 0x12 blackVideo) twoCircles .orange := by
    decide +kernel
  obtain ⟨hon, hon'⟩ := twoCircles_onScreen
  have h := ((@mirrored_crash mode115 rfl 0x12 hday blackVideo hc twoCircles hon hon').1 1 hfirst).2
  rwa [if_pos hahead] at h

end LabChase
