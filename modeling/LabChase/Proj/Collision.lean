import LabChase.Proj.Arena

/-!
# Collision detection is exact

`move_player` reads one pixel to decide about the 25 of a block.  By day, on a cleared framebuffer, that is enough:
over any sequence of calls whose blocks stay on the screen the framebuffer shows the light-cycle game (`run_refines`),
so a move is reported as a crash exactly when its block overlaps a block entered before (`collision_exact`).
-/

namespace LabChase

open FlatMemory Lattice Runs

theorem onScreenRun_cons {scr : Screen} {v : Video} {c : Call} {cs : List Call} :
    OnScreenRun scr v (c :: cs) ↔
      (¬ c.Ignored v → BlockOnScreen scr (c.target v)) ∧ OnScreenRun scr (c.run scr v).2 cs := by
  by_cases h : c.Ignored v <;> simp [OnScreenRun, enteredBlocks, h]

theorem onScreenRun_append {scr : Screen} {v : Video} {cs ds : List Call} :
    OnScreenRun scr v (cs ++ ds) ↔ OnScreenRun scr v cs ∧ OnScreenRun scr (runCalls scr v cs) ds := by
  simp only [OnScreenRun, enteredBlocks_append, List.mem_append]
  constructor
  · intro h
    exact ⟨fun pos hpos => h pos (Or.inl hpos), fun pos hpos => h pos (Or.inr hpos)⟩
  · rintro ⟨h1, h2⟩ pos (hpos | hpos)
    · exact h1 pos hpos
    · exact h2 pos hpos

theorem callsOf_append (scr : Screen) (v : Video) (cmds cmds' : List Command) :
    callsOf scr v (cmds ++ cmds') = callsOf scr v cmds ++ callsOf scr (runCommands scr v cmds) cmds' := by
  induction cmds generalizing v with
  | nil => rfl
  | cons cmd cmds ih =>
    rw [List.cons_append, callsOf, ih, callsOf, List.append_assoc]
    rfl

def BlocksOverlap (pos pos' : PlayerPosition) : Prop := Overlap 5 (corner pos) (corner pos')

private theorem mem_trail_call {scr : Screen} {v : Video} {a : Arena} (h : Refines scr v a) (c : Call)
    (hon : ¬ c.Ignored v → BlockOnScreen scr (c.target v)) (b : ℤ × ℤ) :
    b ∈ (a.call c).trail ↔ (¬ c.Ignored v ∧ b = corner (c.target v)) ∨ b ∈ a.trail := by
  rw [h.call_eq c]
  by_cases hig : c.Ignored v
  · simp only [hig, ↓reduceIte, not_true_eq_false, false_and, false_or]
  · have hahead : a.ahead c.player (c.info v).dir = corner (c.target v) := h.ahead_eq (hon hig)
    simp only [hig, ↓reduceIte, not_false_eq_true, true_and, Arena.enter, Set.mem_insert_iff, hahead]

/-- Over a run on the screen the framebuffer shows the game, whose trail is what the run has entered. -/
theorem run_refines {scr : Screen} (h3 : scr.bytesPerPixel = 3) {v : Video} {a : Arena} (h : Refines scr v a)
    (cs : List Call) (hon : OnScreenRun scr v cs) :
    Refines scr (runCalls scr v cs) (run Arena.call a cs) ∧
      ∀ b, b ∈ (run Arena.call a cs).trail ↔ b ∈ a.trail ∨ ∃ pos ∈ enteredBlocks scr v cs, b = corner pos := by
  induction cs generalizing v a with
  | nil => exact ⟨h, fun b => by simp [enteredBlocks]⟩
  | cons c cs ih =>
    obtain ⟨hc, hcs⟩ := onScreenRun_cons.1 hon
    obtain ⟨href, htrail⟩ := ih (h.call h3 c hc) hcs
    refine ⟨href, fun b => ?_⟩
    rw [run_cons, htrail, mem_trail_call h c hc]
    by_cases hig : c.Ignored v
    · simp only [enteredBlocks, hig, not_true_eq_false, false_and, false_or, ↓reduceIte]
    · simp only [enteredBlocks, hig, not_false_eq_true, true_and, ↓reduceIte, List.mem_cons, exists_eq_or_imp]
      tauto

/-- In a state that shows the game, a call that is not ignored enters its block and reports a crash exactly when
the block is in the trail. -/
theorem Refines.run_enters {scr : Screen} {v : Video} {a : Arena} (h : Refines scr v a) {c : Call}
    (hig : ¬ c.Ignored v) (hon : BlockOnScreen scr (c.target v)) :
    (c.run scr v).2.player c.player = c.target v ∧ ((c.run scr v).1 ≠ 0 ↔ corner (c.target v) ∈ a.trail) := by
  rw [Call.run_enters scr (c.info_dir_ne_unchanged h.steered) hig]
  refine ⟨Video.enter_player_self scr v _ _, ?_⟩
  have hocc := h.occupied_iff hon
  rw [Arena.Crash, h.ahead_eq hon] at hocc
  rw [Call.target, ← hocc]
  by_cases ho : Occupied scr v c.player (c.info v).dir <;> simp [ho]

/-- The trail consists of blocks aligned with the block a call enters, so the crash test by corners is the test by
overlap. -/
private theorem Refines.mem_trail_iff_overlap {scr : Screen} {v : Video} {a : Arena} (h : Refines scr v a) {p : Player}
    {d : Direction} (hon : BlockOnScreen scr (v.target p d)) :
    corner (v.target p d) ∈ a.trail ↔ ∃ b ∈ a.trail, Overlap 5 (corner (v.target p d)) b := by
  have halign : ∀ b ∈ a.trail, Aligned 5 (corner (v.target p d)) b := fun b hb => by
    rw [← h.ahead_eq hon]
    exact (aligned_add_delta (a.cell p) d).trans (h.trailAligned p b hb)
  constructor
  · intro hb
    exact ⟨_, hb, (overlap_iff_eq (by decide) (halign _ hb)).2 rfl⟩
  · rintro ⟨b, hb, hov⟩
    rw [(overlap_iff_eq (by decide) (halign b hb)).1 hov]
    exact hb

def blackVideo : Video := ⟨fun _ => 0, ⟨0, 0, .up⟩, ⟨0, 0, .up⟩, ⟨0, 0⟩⟩

/-- By day, on a cleared framebuffer, testing one pixel of the block neither misses nor invents a crash. -/
theorem collision_exact {scr : Screen} (h3 : scr.bytesPerPixel = 3) {hour : UInt8} (hday : hour < 0x19) {v₀ : Video}
    (hc : Cleared scr v₀.videoMem) (pre : List Call) (c : Call)
    (hon : OnScreenRun scr (startGame scr hour v₀) (pre ++ [c])) :
    let start := startGame scr hour v₀
    let v := runCalls scr start pre
    (¬ c.Ignored v →
      (c.run scr v).2.player c.player = c.target v ∧ c.target v ≠ v.player c.player ∧
        ((c.run scr v).1 ≠ 0 ↔ ∃ pos ∈ enteredBlocks scr start pre, BlocksOverlap (c.target v) pos)) ∧
      (c.Ignored v → c.run scr v = (0, v)) := by
  intro start v
  obtain ⟨hpre, hlast⟩ := onScreenRun_append.1 hon
  obtain ⟨href, htrail⟩ := run_refines h3 (Refines.start h3 hc hday) pre hpre
  refine ⟨fun hig => ?_, Call.run_ignored scr⟩
  have htarget : BlockOnScreen scr (c.target v) := (onScreenRun_cons.1 hlast).1 hig
  obtain ⟨hmoved, hcrash⟩ := href.run_enters hig htarget
  refine ⟨hmoved, fun heq => ?_, ?_⟩
  · apply target_ne_player (c.info_dir_ne_unchanged href.steered)
    show ((c.target v).x, (c.target v).y) = _
    rw [heq]
  · rw [hcrash, Call.target, href.mem_trail_iff_overlap htarget]
    constructor
    · rintro ⟨b, hb, hov⟩
      rcases (htrail b).1 hb with hb | ⟨pos, hpos, rfl⟩
      · exact absurd hb (Set.notMem_empty b)
      · exact ⟨pos, hpos, hov⟩
    · rintro ⟨pos, hpos, hov⟩
      exact ⟨corner pos, (htrail _).2 (Or.inr ⟨pos, hpos, rfl⟩), hov⟩

/-- BLUE turns in a circle and runs into the block it entered first. -/
theorem collision_exact_circle :
    let pre := [Call.active .blue ⟨.up, by decide⟩, .active .blue ⟨.left, by decide⟩, .active .blue ⟨.down, by decide⟩,
      .active .blue ⟨.right, by decide⟩]
    ((Call.active .blue ⟨.up, by decide⟩).run mode115 (runCalls mode115 (startGame mode115 0x12 blackVideo) pre)).1 ≠
      0 := by
  intro pre
  have hday : (0x12 : UInt8) < 0x19 := by decide
  have hc : Cleared mode115 blackVideo.videoMem := fun _ _ => rfl
  have h := collision_exact rfl hday hc pre (.active .blue ⟨.up, by decide⟩) (by decide)
  have htarget : (Call.active .blue ⟨.up, by decide⟩).target
      (runCalls mode115 (startGame mode115 0x12 blackVideo) pre) = ⟨300, 295, .up⟩ := by decide
  refine ((h.1 (by decide)).2.2).2 ⟨⟨300, 295, .up⟩, by decide, ?_⟩
  rw [htarget, BlocksOverlap, overlap_iff_eq (by decide) (Aligned.refl 5 _)]

end LabChase
