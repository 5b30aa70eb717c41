import LabChase.Proj.Night

/-!
# Holes in the trails

`move_player` paints every block it enters, so a pixel shows a trail exactly if some block entered since the start
covers it (`isTrail_runCalls`).  `start_game` paints nothing, and the blocks entered lie on one lattice with the two
the players start on.  So every block a player has stood on is painted and lethal exactly if the two blocks of the
start were entered later on (`noHoles_iff`).
-/

namespace LabChase

open FlatMemory Lattice

/-- The pixel has the colour of a trail. -/
def IsTrail (scr : Screen) (mem : Mem) (x y : UInt16) : Prop := ∃ p, findColor scr mem x y = trailColor p

def SameBlock (pos pos' : PlayerPosition) : Prop := pos.x = pos'.x ∧ pos.y = pos'.y

instance (pos pos' : PlayerPosition) : Decidable (SameBlock pos pos') := inferInstanceAs (Decidable (_ ∧ _))

/-- The blocks a player has stood on since `start_game`. -/
def occupiedBlocks (scr : Screen) (v : Video) (cmds : List Command) : List PlayerPosition :=
  v.player .blue :: v.player .orange :: enteredBlocks scr v (callsOf scr v cmds)

/-- Every block of the screen on which a player has stood is painted, and any later move into it reports a crash. -/
structure NoHoles (scr : Screen) (v : Video) (cmds : List Command) : Prop where
  painted : ∀ pos ∈ occupiedBlocks scr v cmds, BlockOnScreen scr pos →
    ∀ q ∈ blockPixels pos, IsTrail scr (runCommands scr v cmds).videoMem q.1 q.2
  lethal : ∀ pos ∈ occupiedBlocks scr v cmds, BlockOnScreen scr pos →
    ∀ more (c : Call),
      OnScreenRun scr v (callsOf scr v (cmds ++ more)) → ¬ c.Ignored (runCommands scr v (cmds ++ more)) →
      SameBlock (c.target (runCommands scr v (cmds ++ more))) pos → (c.run scr (runCommands scr v (cmds ++ more))).1 ≠ 0

/-! ### What is painted -/

theorem trailColor_kept {scr : Screen} (h3 : scr.bytesPerPixel = 3) (p : Player) :
    UInt32.ofNat ((trailColor p).toNat % 256 ^ scr.bytesPerPixel.toNat) = trailColor p := by
  rw [h3]
  cases p <;> decide

private theorem isTrail_paint {scr : Screen} (h3 : scr.bytesPerPixel = 3) (mem : Mem) (p : Player)
    {pos : PlayerPosition} (hpos : BlockOnScreen scr pos) {x y : UInt16} (h : scr.OnScreen x y) :
    IsTrail scr (paint scr (trailColor p) mem (blockPixels pos)) x y ↔
      (x, y) ∈ blockPixels pos ∨ IsTrail scr mem x y := by
  have hblock : ∀ q ∈ blockPixels pos, scr.OnScreen q.1 q.2 := fun q hq => onScreen_of_mem_blockPixels hpos hq
  rw [IsTrail, findColor_paint hblock h (scr.bytesPerPixel_pos h3), trailColor_kept h3]
  by_cases hin : (x, y) ∈ blockPixels pos
  · rw [if_pos hin]
    exact iff_of_true ⟨p, rfl⟩ (Or.inl hin)
  · rw [if_neg hin, or_iff_right hin]
    rfl

/-- A pixel shows a trail exactly if it did before or a block entered since covers it. -/
theorem isTrail_runCalls {scr : Screen} (h3 : scr.bytesPerPixel = 3) {v : Video}
    (hsteered : ∀ p, (v.player p).currentDirection ≠ .unchanged) {cs : List Call} (hon : OnScreenRun scr v cs)
    {x y : UInt16} (h : scr.OnScreen x y) :
    IsTrail scr (runCalls scr v cs).videoMem x y ↔
      (∃ pos ∈ enteredBlocks scr v cs, (x, y) ∈ blockPixels pos) ∨ IsTrail scr v.videoMem x y := by
  induction cs generalizing v with
  | nil => simp [enteredBlocks, runCalls]
  | cons c cs ih =>
    obtain ⟨hc, hcs⟩ := onScreenRun_cons.1 hon
    have hrun : runCalls scr v (c :: cs) = runCalls scr (c.run scr v).2 cs := rfl
    rw [hrun, enteredBlocks]
    by_cases hig : c.Ignored v
    · rw [if_pos hig]
      rw [Call.run_ignored scr hig] at hcs ⊢
      exact ih hsteered hcs
    · have hd := c.info_dir_ne_unchanged hsteered
      have hnext : (c.run scr v).2 = v.enter scr c.player (c.info v).dir := by rw [Call.run_enters scr hd hig]
      rw [if_neg hig]
      rw [hnext] at hcs ⊢
      rw [ih (v.enter_steered scr hsteered _ hd) hcs, Video.enter_videoMem, ← Call.target,
        isTrail_paint h3 _ _ (hc hig) h, List.exists_mem_cons_iff, or_left_comm, or_assoc]

private theorem not_isTrail_start {scr : Screen} (h3 : scr.bytesPerPixel = 3) (hour : UInt8) {v₀ : Video}
    (hc : Cleared scr v₀.videoMem) {x y : UInt16} (h : scr.OnScreen x y) :
    ¬ IsTrail scr (startGame scr hour v₀).videoMem x y := by
  rintro ⟨p, hcolor⟩
  by_cases hday : hour < 0x19
  · rw [startGame_videoMem_day scr hday, findColor_cleared hc h (scr.bytesPerPixel_pos h3)] at hcolor
    cases p <;> exact absurd hcolor (by decide)
  · rw [findColor_night h3 hday v₀ h] at hcolor
    cases p <;> exact absurd hcolor (by decide)

/-- A pixel shows a trail exactly if a block entered since the start covers it. -/
private theorem isTrail_runCommands {scr : Screen} (h3 : scr.bytesPerPixel = 3) (hour : UInt8) {v₀ : Video}
    (hc : Cleared scr v₀.videoMem) {cmds : List Command}
    (hon : OnScreenRun scr (startGame scr hour v₀) (callsOf scr (startGame scr hour v₀) cmds)) {x y : UInt16}
    (h : scr.OnScreen x y) :
    IsTrail scr (runCommands scr (startGame scr hour v₀) cmds).videoMem x y ↔
      ∃ pos ∈ enteredBlocks scr (startGame scr hour v₀) (callsOf scr (startGame scr hour v₀) cmds),
        (x, y) ∈ blockPixels pos := by
  have hsteered := startGame_steered scr hour v₀
  rw [runCommands_eq, isTrail_runCalls h3 hsteered hon h, or_iff_left (not_isTrail_start h3 hour hc h)]

/-! ### The lattice of the blocks -/

/-- The players are on the lattice of the corner `o`. -/
def OnLattice (scr : Screen) (o : ℤ × ℤ) (v : Video) : Prop :=
  ∀ p, ∃ c, StandsFor scr (v.player p) c ∧ Aligned 5 o c

theorem OnLattice.entered {scr : Screen} {o : ℤ × ℤ} {v : Video} (h : OnLattice scr o v)
    (hsteered : ∀ p, (v.player p).currentDirection ≠ .unchanged) {cs : List Call} (hon : OnScreenRun scr v cs) :
    ∀ pos ∈ enteredBlocks scr v cs, Aligned 5 o (corner pos) := by
  induction cs generalizing v with
  | nil => simp [enteredBlocks]
  | cons c cs ih =>
    obtain ⟨hc, hcs⟩ := onScreenRun_cons.1 hon
    rw [enteredBlocks]
    by_cases hig : c.Ignored v
    · rw [if_pos hig]
      rw [Call.run_ignored scr hig] at hcs ⊢
      exact ih h hsteered hcs
    · have hd := c.info_dir_ne_unchanged hsteered
      have htarget : Aligned 5 o (corner (c.target v)) := by
        obtain ⟨cell, hcell, haligned⟩ := h c.player
        rw [Call.target, Video.target, hcell.corner_stepTo (hc hig)]
        exact haligned.trans (aligned_add_delta cell _).symm
      rw [if_neg hig]
      rw [Call.run_enters scr hd hig] at hcs ⊢
      intro pos hpos
      rcases List.mem_cons.1 hpos with rfl | hpos
      · exact htarget
      · refine ih ?_ (v.enter_steered scr hsteered _ hd) hcs pos hpos
        intro q
        by_cases hq : q = c.player
        · subst hq
          rw [Video.enter_player_self]
          exact ⟨_, (hc hig).standsFor, htarget⟩
        · rw [v.enter_player_of_ne scr hq]
          exact h q

theorem OnLattice.start {scr : Screen} {hour : UInt8} {v₀ : Video} (p : Player) :
    OnLattice scr ((Arena.start scr).cell p) (startGame scr hour v₀) := by
  intro q
  refine ⟨(Arena.start scr).cell q, ?_, ?_⟩
  · rw [startGame_player]
    exact standsFor_start scr q
  · cases p <;> cases q <;> simp only [Arena.start, Aligned] <;> omega

/-- On the screen no coordinate is truncated. -/
private theorem StandsFor.eq_corner {scr : Screen} {pos : PlayerPosition} {c : ℤ × ℤ} (h : StandsFor scr pos c)
    (hon : BlockOnScreen scr pos) : c = corner pos := by
  have hx := pos.x.toNat_lt
  have hh := scr.hRes_lt
  obtain ⟨hcx, hcy, hx1, hy1, hx2⟩ := h
  unfold BlockOnScreen at hon
  refine Prod.ext ?_ hcy
  simp only [corner]
  omega

private theorem sameBlock_of_corner_eq {pos pos' : PlayerPosition} (h : corner pos = corner pos') :
    SameBlock pos pos' := by
  have hx := congrArg Prod.fst h
  have hy := congrArg Prod.snd h
  simp only [corner] at hx hy
  constructor
  · apply UInt16.toNat_inj.1
    omega
  · apply UInt16.toNat_inj.1
    omega

/-- A block entered since the start that covers the corner of a block of the start is that block. -/
private theorem sameBlock_start {scr : Screen} {hour : UInt8} {v₀ : Video} {cs : List Call}
    (hon : OnScreenRun scr (startGame scr hour v₀) cs) {p : Player}
    (hp : BlockOnScreen scr ((startGame scr hour v₀).player p)) {pos : PlayerPosition}
    (hpos : pos ∈ enteredBlocks scr (startGame scr hour v₀) cs)
    (hin : (((startGame scr hour v₀).player p).x, ((startGame scr hour v₀).player p).y) ∈ blockPixels pos) :
    SameBlock pos ((startGame scr hour v₀).player p) := by
  have hstart : (Arena.start scr).cell p = corner ((startGame scr hour v₀).player p) := by
    have hstands := standsFor_start scr p
    rw [← startGame_player scr hour v₀] at hstands
    exact hstands.eq_corner hp
  have haligned := (OnLattice.start p).entered (startGame_steered scr hour v₀) hon pos hpos
  rw [hstart] at haligned
  apply sameBlock_of_corner_eq
  exact (eq_of_inBlock haligned (corner_inBlock (by decide) _) ((mem_blockPixels (hon pos hpos) _ _).1 hin)).symm

/-! ### Holes -/

private theorem mem_blockPixels_self {scr : Screen} {pos : PlayerPosition} (h : BlockOnScreen scr pos) :
    (pos.x, pos.y) ∈ blockPixels pos := (mem_blockPixels h pos.x pos.y).2 (corner_inBlock (by decide) (corner pos))

private theorem SameBlock.blockPixels_eq {pos pos' : PlayerPosition} (h : SameBlock pos pos') :
    blockPixels pos = blockPixels pos' := by
  rw [blockPixels, blockPixels, h.1, h.2]

/-- A trail is neither black nor `255`. -/
theorem IsTrail.lethal {scr : Screen} {mem : Mem} {x y : UInt16} (h : IsTrail scr mem x y) : Lethal scr mem x y := by
  obtain ⟨p, hcolor⟩ := h
  rw [Lethal, hcolor]
  cases p <;> decide

/-- A move into a trail reports a crash. -/
private theorem Call.run_trail {scr : Screen} {v : Video} (hsteered : ∀ p, (v.player p).currentDirection ≠ .unchanged)
    {c : Call} (hig : ¬ c.Ignored v) (h : IsTrail scr v.videoMem (c.target v).x (c.target v).y) :
    (c.run scr v).1 ≠ 0 := by
  have hocc : Occupied scr v c.player (c.info v).dir := h.lethal
  rw [Call.run_enters scr (c.info_dir_ne_unchanged hsteered) hig, if_pos hocc]
  exact one_ne_zero

theorem runCalls_steered {scr : Screen} {v : Video} (hsteered : ∀ p, (v.player p).currentDirection ≠ .unchanged)
    (cs : List Call) (p : Player) : ((runCalls scr v cs).player p).currentDirection ≠ .unchanged := by
  refine Runs.run_invariant (I := fun v : Video => ∀ p, (v.player p).currentDirection ≠ .unchanged) ?_ hsteered cs p
  intro v c h
  by_cases hig : c.Ignored v
  · rw [Call.run_ignored scr hig]
    exact h
  · rw [Call.run_enters scr (c.info_dir_ne_unchanged h) hig]
    exact v.enter_steered scr h _ (c.info_dir_ne_unchanged h)

/-- The blocks of the start are painted and lethal exactly if they were entered. -/
theorem noHoles_iff {scr : Screen} (h3 : scr.bytesPerPixel = 3) (hour : UInt8) {v₀ : Video}
    (hc : Cleared scr v₀.videoMem) {cmds : List Command}
    (hon : OnScreenRun scr (startGame scr hour v₀) (callsOf scr (startGame scr hour v₀) cmds)) :
    let start := startGame scr hour v₀
    NoHoles scr start cmds ↔
      ∀ p, BlockOnScreen scr (start.player p) →
        ∃ pos ∈ enteredBlocks scr start (callsOf scr start cmds), SameBlock pos (start.player p) := by
  intro start
  have hsteered := startGame_steered scr hour v₀
  constructor
  · intro h p hp
    have hmem : start.player p ∈ occupiedBlocks scr start cmds := by
      cases p
      · exact List.mem_cons_self ..
      · exact List.mem_cons_of_mem _ (List.mem_cons_self ..)
    have hpixel := h.painted _ hmem hp _ (mem_blockPixels_self hp)
    obtain ⟨pos, hpos, hin⟩ := (isTrail_runCommands h3 hour hc hon hp.onScreen).1 hpixel
    exact ⟨pos, hpos, sameBlock_start hon hp hpos hin⟩
  · intro h
    have hentered : ∀ pos ∈ occupiedBlocks scr start cmds, BlockOnScreen scr pos →
        ∃ pos' ∈ enteredBlocks scr start (callsOf scr start cmds), SameBlock pos' pos := by
      intro pos hpos hposOn
      rcases List.mem_cons.1 hpos with rfl | hpos
      · exact h .blue hposOn
      · rcases List.mem_cons.1 hpos with rfl | hpos
        · exact h .orange hposOn
        · exact ⟨pos, hpos, rfl, rfl⟩
    constructor
    · intro pos hpos hposOn q hq
      obtain ⟨pos', hpos', hsame⟩ := hentered pos hpos hposOn
      rw [← hsame.blockPixels_eq] at hq
      apply (isTrail_runCommands h3 hour hc hon (onScreen_of_mem_blockPixels (hon pos' hpos') hq)).2
      exact ⟨pos', hpos', hq⟩
    · intro pos hpos hposOn more c hmore hig htarget
      obtain ⟨pos', hpos', hsame⟩ := hentered pos hpos hposOn
      have hlater : pos' ∈ enteredBlocks scr start (callsOf scr start (cmds ++ more)) := by
        rw [callsOf_append, enteredBlocks_append]
        exact List.mem_append_left _ hpos'
      apply Call.run_trail
      · rw [runCommands_eq]
        exact runCalls_steered hsteered _
      · exact hig
      · rw [htarget.1, htarget.2, ← hsame.1, ← hsame.2]
        apply (isTrail_runCommands h3 hour hc hmore (hon pos' hpos').onScreen).2
        exact ⟨pos', hlater, mem_blockPixels_self (hon pos' hpos')⟩

/-- BLUE and ORANGE circle once, each back into the block it started on. -/
theorem noHoles_after_circles :
    NoHoles mode115 (startGame mode115 0x12 blackVideo)
      [.steer .blue ⟨.up, by decide⟩, .steer .blue ⟨.left, by decide⟩, .steer .blue ⟨.down, by decide⟩,
        .steer .blue ⟨.right, by decide⟩, .steer .orange ⟨.up, by decide⟩, .steer .orange ⟨.right, by decide⟩,
        .steer .orange ⟨.down, by decide⟩, .steer .orange ⟨.left, by decide⟩] := by
  have hc : Cleared mode115 blackVideo.videoMem := fun _ _ => rfl
  refine (noHoles_iff rfl 0x12 hc (by decide +kernel)).2 ?_
  intro p _
  cases p <;> decide +kernel

/-- BLUE moves up, left and down, and can then enter the block it started on as if nobody had been there. -/
theorem start_block_is_free :
    let start := startGame mode115 0x12 blackVideo
    let cmds := [Command.steer .blue ⟨.up, by decide⟩, .steer .blue ⟨.left, by decide⟩, .steer .blue ⟨.down, by decide⟩]
    let c := Call.active .blue ⟨.right, by decide⟩
    OnScreenRun mode115 start (callsOf mode115 start cmds) ∧
      SameBlock (c.target (runCommands mode115 start cmds)) (start.player .blue) ∧
      (c.run mode115 (runCommands mode115 start cmds)).1 = 0 ∧ ¬ NoHoles mode115 start cmds := by
  refine ⟨by decide +kernel, by decide +kernel, by decide +kernel, fun h => ?_⟩
  have hcrash := h.lethal _ (List.mem_cons_self ..) (by decide +kernel) [] (.active .blue ⟨.right, by decide⟩)
    (by decide +kernel) (by decide +kernel) (by decide +kernel)
  exact absurd hcrash (by decide +kernel)

end LabChase
