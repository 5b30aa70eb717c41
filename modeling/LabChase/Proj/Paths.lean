import LabChase.Library.Walks
import LabChase.Proj.Collision

/-!
# The path of a player

A turn moves a player at once and the next tick moves it again, so any number of turns may fall between two ticks.
Still a player never enters the block it came from: its heading is always the direction of its last step, and a call
of `move_player` is dropped if it would reverse the heading.  `moves_never_return` states this for every sequence of
ticks and turns of a game on the screen, together with what each single call does.
-/

namespace LabChase

open FlatMemory Lattice Runs Walks

/-- The blocks a player enters in a sequence of calls, in order. -/
def blocksEnteredBy (scr : Screen) (p : Player) : Video → List Call → List PlayerPosition
  | _, [] => []
  | v, c :: cs =>
    if c.player = p ∧ ¬ c.Ignored v then c.target v :: blocksEnteredBy scr p (c.run scr v).2 cs
    else blocksEnteredBy scr p (c.run scr v).2 cs

/-- The cells a player visits in a game, the one it starts in first. -/
def cellsVisited (scr : Screen) (start : Video) (p : Player) (cs : List Call) : List (ℤ × ℤ) :=
  (Arena.start scr).cell p :: (blocksEnteredBy scr p start cs).map corner

private theorem blocksEnteredBy_append (scr : Screen) (p : Player) (v : Video) (cs ds : List Call) :
    blocksEnteredBy scr p v (cs ++ ds) =
      blocksEnteredBy scr p v cs ++ blocksEnteredBy scr p (runCalls scr v cs) ds := by
  induction cs generalizing v with
  | nil => rfl
  | cons c cs ih =>
    simp only [List.cons_append, blocksEnteredBy, ih]
    split <;> rfl

private theorem cellsVisited_concat (scr : Screen) (start : Video) (p : Player) (cs : List Call) (c : Call) :
    cellsVisited scr start p (cs ++ [c]) = cellsVisited scr start p cs ++
      if c.player = p ∧ ¬ c.Ignored (runCalls scr start cs) then [corner (c.target (runCalls scr start cs))]
      else [] := by
  rw [cellsVisited, blocksEnteredBy_append, List.map_append, ← List.cons_append, cellsVisited]
  simp only [blocksEnteredBy]
  split <;> rfl

/-- The displacements of one move. -/
def moveSteps : Set (ℤ × ℤ) := {t | ∃ d : Direction, d ≠ .unchanged ∧ t = d.delta}

private theorem delta_add_delta_ne_zero {d e : Direction} (hd : d ≠ .unchanged) (he : e ≠ .unchanged)
    (h : e ≠ opposite d) :
    d.delta + e.delta ≠ 0 := by
  cases d <;> cases e <;> simp [Direction.delta, opposite] at hd he h ⊢

private theorem Call.dir_ne_opposite {v : Video} {c : Call} (h : ¬ c.Ignored v) :
    (c.info v).dir ≠ opposite (v.player c.player).currentDirection := by
  intro heq
  have hrev : (c.info v).dir = opposite (v.player (c.info v).playerColor).currentDirection := by
    cases c <;> exact heq
  exact h (Or.inr hrev)

private theorem Call.run_player_of_ne (scr : Screen) {v : Video} (hs : ∀ p, (v.player p).currentDirection ≠ .unchanged)
    (c : Call) {q : Player} (hq : q ≠ c.player) : (c.run scr v).2.player q = v.player q := by
  by_cases hig : c.Ignored v
  · rw [Call.run_ignored scr hig]
  · rw [Call.run_enters scr (c.info_dir_ne_unchanged hs) hig]
    exact v.enter_player_of_ne scr hq _

private theorem Call.run_steered (scr : Screen) {v : Video} (hs : ∀ p, (v.player p).currentDirection ≠ .unchanged)
    (c : Call) (p : Player) : ((c.run scr v).2.player p).currentDirection ≠ .unchanged := by
  by_cases hig : c.Ignored v
  · rw [Call.run_ignored scr hig]
    exact hs p
  · have hd := c.info_dir_ne_unchanged hs
    rw [Call.run_enters scr hd hig]
    exact v.enter_steered scr hs c.player hd p

/-- The player `p` of `v` stands in `b` and has come there by the walk `cells`, the last step in the direction it
heads. -/
structure OnPath (scr : Screen) (v : Video) (p : Player) (cells : List (ℤ × ℤ)) (b : ℤ × ℤ) : Prop where
  standsFor : StandsFor scr (v.player p) b
  walk : Walk moveSteps (v.player p).currentDirection.delta cells b

theorem OnPath.start (scr : Screen) (hour : UInt8) (v₀ : Video) (p : Player) :
    OnPath scr (startGame scr hour v₀) p (cellsVisited scr (startGame scr hour v₀) p [])
      ((Arena.start scr).cell p) where
  standsFor := by
    rw [startGame_player]
    exact standsFor_start scr p
  walk := Walk.start moveSteps _ _

/-- A call that is not ignored extends the path of its player by one step, which is not the one straight back. -/
theorem OnPath.enter {scr : Screen} {v : Video} {c : Call} {cells : List (ℤ × ℤ)} {b : ℤ × ℤ}
    (h : OnPath scr v c.player cells b) (hs : ∀ p, (v.player p).currentDirection ≠ .unchanged)
    (hig : ¬ c.Ignored v) (hon : BlockOnScreen scr (c.target v)) :
    corner (c.target v) = b + (c.info v).dir.delta ∧
      OnPath scr (c.run scr v).2 c.player (cells ++ [corner (c.target v)]) (corner (c.target v)) := by
  have hd := c.info_dir_ne_unchanged hs
  have hcell : corner (c.target v) = b + (c.info v).dir.delta := h.standsFor.corner_stepTo hon
  refine ⟨hcell, ?_, ?_⟩
  · rw [Call.run_enters scr hd hig, Video.enter_player_self]
    exact hon.standsFor
  · rw [Call.run_enters scr hd hig, Video.enter_player_self, Video.target, stepTo_currentDirection _ hd, hcell]
    exact h.walk.step ⟨_, hd, rfl⟩ (delta_add_delta_ne_zero (hs c.player) hd (Call.dir_ne_opposite hig))

private theorem OnPath.of_player_eq {scr : Screen} {v w : Video} {p : Player} {cells : List (ℤ × ℤ)} {b : ℤ × ℤ}
    (h : OnPath scr v p cells b) (hp : w.player p = v.player p) : OnPath scr w p cells b := by
  constructor <;> rw [hp]
  · exact h.standsFor
  · exact h.walk

/-- The players of a game on the screen are on their paths after every sequence of calls. -/
private theorem onPath_run {scr : Screen} {hour : UInt8} {v₀ : Video} {cs : List Call}
    (hon : OnScreenRun scr (startGame scr hour v₀) cs) :
    let start := startGame scr hour v₀
    let v := runCalls scr start cs
    (∀ p, (v.player p).currentDirection ≠ .unchanged) ∧ ∀ p, ∃ b, OnPath scr v p (cellsVisited scr start p cs) b := by
  intro start
  induction cs using List.reverseRecOn with
  | nil => exact ⟨startGame_steered scr hour v₀, fun p => ⟨_, OnPath.start scr hour v₀ p⟩⟩
  | append_singleton cs c ih =>
    obtain ⟨hpre, hlast⟩ := onScreenRun_append.1 hon
    obtain ⟨hs, hpath⟩ := ih hpre
    have hrun : runCalls scr start (cs ++ [c]) = (c.run scr (runCalls scr start cs)).2 := run_concat _ _ _ _
    intro v
    rw [show v = _ from hrun]
    refine ⟨c.run_steered scr hs, fun p => ?_⟩
    obtain ⟨b, hb⟩ := hpath p
    rw [cellsVisited_concat]
    by_cases hmove : c.player = p ∧ ¬ c.Ignored (runCalls scr start cs)
    · rw [if_pos hmove]
      obtain ⟨rfl, hig⟩ := hmove
      exact ⟨_, (hb.enter hs hig ((onScreenRun_cons.1 hlast).1 hig)).2⟩
    · rw [if_neg hmove, List.append_nil]
      refine ⟨b, hb.of_player_eq ?_⟩
      by_cases hp : p = c.player
      · have hig : c.Ignored (runCalls scr start cs) := not_not.1 fun hig => hmove ⟨hp.symm, hig⟩
        rw [Call.run_ignored scr hig]
      · exact c.run_player_of_ne scr hs hp

/-- The call moves its player from the cell `b` one step in the direction it asks for, which becomes the player's
direction and does not reverse the one before. -/
structure Call.Steps (scr : Screen) (v : Video) (c : Call) (b : ℤ × ℤ) : Prop where
  standsFor : StandsFor scr (v.player c.player) b
  corner_eq : corner ((c.run scr v).2.player c.player) = b + (c.info v).dir.delta
  heading : ((c.run scr v).2.player c.player).currentDirection = (c.info v).dir
  heads : (c.info v).dir ≠ .unchanged
  not_back : (c.info v).dir ≠ opposite (v.player c.player).currentDirection

/-- In every game on the screen a call of `move_player` either changes nothing or makes one step with one player, and
no player ever steps back to the cell it has just left. -/
theorem moves_never_return {scr : Screen} {hour : UInt8} {v₀ : Video} {cmds : List Command}
    (hon : OnScreenRun scr (startGame scr hour v₀) (callsOf scr (startGame scr hour v₀) cmds)) :
    let start := startGame scr hour v₀
    let calls := callsOf scr start cmds
    (∀ cs c, cs ++ [c] <+: calls →
      let v := runCalls scr start cs
      (c.Ignored v → c.run scr v = (0, v) ∧
        ∀ p, cellsVisited scr start p (cs ++ [c]) = cellsVisited scr start p cs) ∧
      (¬ c.Ignored v → ∃ b, [b] <:+ cellsVisited scr start c.player cs ∧ c.Steps scr v b ∧
        cellsVisited scr start c.player (cs ++ [c]) =
          cellsVisited scr start c.player cs ++ [b + (c.info v).dir.delta]) ∧
      ∀ q, q ≠ c.player → (c.run scr v).2.player q = v.player q) ∧
    ∀ p,
      (∀ b b', [b, b'] <:+: cellsVisited scr start p calls → ∃ d : Direction, d ≠ .unchanged ∧ b' = b + d.delta) ∧
      ∀ b b' b'', [b, b', b''] <:+: cellsVisited scr start p calls → b'' ≠ b := by
  intro start calls
  refine ⟨fun cs c hpre => ?_, fun p => ?_⟩
  · obtain ⟨rest, hrest⟩ := hpre
    have hall : OnScreenRun scr start (cs ++ [c] ++ rest) := by rwa [hrest]
    obtain ⟨hbefore, hlast⟩ := onScreenRun_append.1 (onScreenRun_append.1 hall).1
    obtain ⟨hs, hpath⟩ := onPath_run hbefore
    intro v
    refine ⟨fun hig => ⟨Call.run_ignored scr hig, fun p => ?_⟩, fun hig => ?_, fun q => c.run_player_of_ne scr hs⟩
    · rw [cellsVisited_concat, if_neg fun h => h.2 hig, List.append_nil]
    · obtain ⟨b, hb⟩ := hpath c.player
      have hd := c.info_dir_ne_unchanged hs
      have hcell := (hb.enter hs hig ((onScreenRun_cons.1 hlast).1 hig)).1
      have hplayer : (c.run scr v).2.player c.player = c.target v := by
        rw [Call.run_enters scr hd hig]
        exact Video.enter_player_self scr v _ _
      refine ⟨b, hb.walk.arrives, ⟨hb.standsFor, ?_, ?_, hd, Call.dir_ne_opposite hig⟩, ?_⟩
      · rw [hplayer, hcell]
      · rw [hplayer]
        exact stepTo_currentDirection _ hd
      · rw [cellsVisited_concat, if_pos ⟨rfl, hig⟩, hcell]
  · obtain ⟨b, hb⟩ := (onPath_run hon).2 p
    refine ⟨fun b b' h => ?_, hb.walk.neverBack⟩
    obtain ⟨t, ⟨d, hd, rfl⟩, hb'⟩ := hb.walk.adjacent b b' h
    exact ⟨d, hd, hb'⟩

/-- BLUE asks for a reversal, turns twice between two ticks and so runs back beside its own trail. -/
def doubleTurn : List Command :=
  [.tick, .steer .blue ⟨.left, nofun⟩, .steer .blue ⟨.up, nofun⟩, .steer .blue ⟨.left, nofun⟩, .tick]

theorem doubleTurn_never_returns :
    let start := startGame mode115 0x12 blackVideo
    OnScreenRun mode115 start (callsOf mode115 start doubleTurn) ∧
      cellsVisited mode115 start .blue (callsOf mode115 start doubleTurn) =
        [(300, 300), (305, 300), (305, 295), (300, 295), (295, 295)] ∧
      ∀ b b' b'', [b, b', b''] <:+: cellsVisited mode115 start .blue (callsOf mode115 start doubleTurn) → b'' ≠ b := by
  have hon : OnScreenRun mode115 (startGame mode115 0x12 blackVideo)
      (callsOf mode115 (startGame mode115 0x12 blackVideo) doubleTurn) := by decide +kernel
  exact ⟨hon, by decide +kernel, ((moves_never_return hon).2 .blue).2⟩

end LabChase
