import LabChase.Proj.Collision

/-!
# The edges of the screen

Nothing in `move_player` looks at the edges.  A call reads and writes the bytes of the pixels it accesses and no others,
wherever they are (`Command.touchesOnly`).  A step across an edge wraps a 16-bit coordinate or runs into the next scan
line, and the block it paints then has a pixel that is not on the screen (`accessed_onScreen_iff`).  So the pixels
accessed in a game stay on the screen exactly as long as no step crosses an edge (`keepsOnScreen_iff`).
-/

namespace LabChase

/-- The pixels a call reads through `find_color` or paints through `vg_draw_rectangle`. -/
def Call.accessed (v : Video) (c : Call) : List (UInt16 × UInt16) :=
  if c.Ignored v then [] else ((c.target v).x, (c.target v).y) :: blockPixels (c.target v)

def accessedPixels (scr : Screen) : Video → List Call → List (UInt16 × UInt16)
  | _, [] => []
  | v, c :: cs => c.accessed v ++ accessedPixels scr (c.run scr v).2 cs

/-- The byte at the address belongs to one of the pixels. -/
def InPixels (scr : Screen) (pixels : List (UInt16 × UInt16)) (a : UInt32) : Prop := ∃ px ∈ pixels, IsPixelByte scr px a

/-- The players are the same, and so are the bytes of the pixels. -/
structure AgreeOn (scr : Screen) (pixels : List (UInt16 × UInt16)) (v v' : Video) : Prop where
  player : ∀ p, v'.player p = v.player p
  mem : ∀ a, InPixels scr pixels a → v'.videoMem a = v.videoMem a

/-- The command writes to the pixels only, and what it returns and leaves there depends on the players and on the pixels
only. -/
structure TouchesOnly (scr : Screen) (pixels : List (UInt16 × UInt16)) (v : Video) (cmd : Command) : Prop where
  writes : ∀ a, ¬ InPixels scr pixels a → (cmd.run scr v).2.videoMem a = v.videoMem a
  reads : ∀ v', AgreeOn scr pixels v v' →
    (cmd.run scr v').1 = (cmd.run scr v).1 ∧ AgreeOn scr pixels (cmd.run scr v).2 (cmd.run scr v').2

def AccessOnScreen (scr : Screen) (v : Video) (cs : List Call) : Prop :=
  ∀ px ∈ accessedPixels scr v cs, scr.OnScreen px.1 px.2

/-- Up to the first reported crash, every accessed pixel is on the screen. -/
def KeepsOnScreen (scr : Screen) : Video → List Command → Prop
  | _, [] => True
  | v, cmd :: cmds =>
    AccessOnScreen scr v (cmd.calls scr v) ∧ ((cmd.run scr v).1 = 0 → KeepsOnScreen scr (cmd.run scr v).2 cmds)

/-- The block ahead, computed over the integers, lies on the screen. -/
def ClearOfEdge (scr : Screen) (pos : PlayerPosition) (d : Direction) : Prop :=
  (0 ≤ (corner pos + d.delta).1 ∧ (corner pos + d.delta).1 + 5 ≤ scr.hRes.toNat) ∧
    0 ≤ (corner pos + d.delta).2 ∧ (corner pos + d.delta).2 + 5 ≤ scr.vRes.toNat

/-- No step of the command crosses an edge: for a tick, BLUE's step and, unless BLUE crashes, ORANGE's. -/
def Command.StaysInside (scr : Screen) (v : Video) : Command → Prop
  | .tick =>
    ClearOfEdge scr (v.player .blue) (v.player .blue).currentDirection ∧
      (¬ Occupied scr v .blue (v.player .blue).currentDirection →
        ClearOfEdge scr (v.player .orange) (v.player .orange).currentDirection)
  | .steer p d => Ignored v ⟨d, p⟩ false ∨ ClearOfEdge scr (v.player p) d

def StepsInside (scr : Screen) : Video → List Command → Prop
  | _, [] => True
  | v, cmd :: cmds => cmd.StaysInside scr v ∧ ((cmd.run scr v).1 = 0 → StepsInside scr (cmd.run scr v).2 cmds)

def StartsOnScreen (scr : Screen) : Prop := ∀ p, scr.OnScreen (startPosition scr p).x (startPosition scr p).y

/-- The players head somewhere and their blocks do not reach the end of the 16-bit range. -/
def Room (v : Video) : Prop :=
  ∀ p, (v.player p).currentDirection ≠ .unchanged ∧
    (v.player p).x.toNat + 5 < 2 ^ 16 ∧ (v.player p).y.toNat + 5 < 2 ^ 16

/-! ### What a step touches -/

section Touches

variable {scr : Screen} {pixels : List (UInt16 × UInt16)} {v v' : Video}

private theorem Call.writes_accessed (c : Call) {a : UInt32} (h : ¬ InPixels scr (c.accessed v) a) :
    (c.run scr v).2.videoMem a = v.videoMem a := by
  rcases c.run_cases scr v with ⟨-, hrun⟩ | ⟨-, -, hrun⟩ | ⟨hig, -, hrun⟩ <;> rw [hrun]
  refine paint_of_not_pixelByte (fun px hpx hbyte => h ⟨px, ?_, hbyte⟩) _ _
  rw [Call.accessed, if_neg hig]
  exact List.mem_cons_of_mem _ hpx

/-- States that agree on the pixels a call accesses are the same to it. -/
theorem AgreeOn.call (h : AgreeOn scr pixels v v') {c : Call} (hc : c.accessed v ⊆ pixels) :
    (c.run scr v').1 = (c.run scr v).1 ∧ AgreeOn scr pixels (c.run scr v).2 (c.run scr v').2 := by
  have hinfo : c.info v' = c.info v := by
    cases c with
    | active p d => rfl
    | passive p => simp only [Call.info, h.player p]
  have htarget : ∀ d, v'.target c.player d = v.target c.player d := fun d => by simp only [Video.target, h.player]
  have hig : c.Ignored v' ↔ c.Ignored v := by simp only [Call.Ignored, LabChase.Ignored, hinfo, h.player]
  rcases c.run_cases scr v with ⟨hv, hrun⟩ | ⟨hv, hd, hrun⟩ | ⟨hv, hd, hrun⟩
  · rw [hrun, Call.run_ignored scr (hig.2 hv)]
    exact ⟨rfl, h⟩
  · rcases c.run_cases scr v' with ⟨hv', -⟩ | ⟨-, -, hrun'⟩ | ⟨-, hd', -⟩
    · exact absurd (hig.1 hv') hv
    · rw [hrun, hrun']
      exact ⟨rfl, h⟩
    · exact absurd (hinfo ▸ hd) hd'
  · rw [hrun, Call.run_enters scr (hinfo ▸ hd) (mt hig.1 hv), hinfo]
    -- the pixel that is read is the first one accessed
    have hfirst : ((c.target v).x, (c.target v).y) ∈ pixels := hc (by simp [Call.accessed, hv])
    have hcolor : findColor scr v'.videoMem (c.target v).x (c.target v).y =
        findColor scr v.videoMem (c.target v).x (c.target v).y :=
      findColor_congr_bytes fun a ha => h.mem a ⟨_, hfirst, ha⟩
    have hocc : Occupied scr v' c.player (c.info v).dir ↔ Occupied scr v c.player (c.info v).dir := by
      rw [Occupied, Occupied, htarget]
      exact hcolor ▸ Iff.rfl
    refine ⟨by simp only [hocc], fun p => ?_, fun a ha => ?_⟩
    · by_cases hp : p = c.player
      · rw [hp, Video.enter_player_self, Video.enter_player_self, htarget]
      · rw [Video.enter_player_of_ne scr v' hp, Video.enter_player_of_ne scr v hp, h.player]
    · rw [Video.enter_videoMem, Video.enter_videoMem, htarget]
      exact paint_congr (h.mem a ha) _ _ _

private theorem runCalls_writes_accessed {cs : List Call} {a : UInt32}
    (h : ¬ InPixels scr (accessedPixels scr v cs) a) : (runCalls scr v cs).videoMem a = v.videoMem a := by
  induction cs generalizing v with
  | nil => rfl
  | cons c cs ih =>
    have hfirst : ¬ InPixels scr (c.accessed v) a := fun ⟨px, hpx, ha⟩ => h ⟨px, List.mem_append_left _ hpx, ha⟩
    have hrest : ¬ InPixels scr (accessedPixels scr (c.run scr v).2 cs) a := fun ⟨px, hpx, ha⟩ =>
      h ⟨px, List.mem_append_right _ hpx, ha⟩
    exact (ih hrest).trans (c.writes_accessed hfirst)

/-- A command reads and writes no bytes but those of the pixels its calls access. -/
theorem Command.touchesOnly (scr : Screen) (v : Video) (cmd : Command) :
    TouchesOnly scr (accessedPixels scr v (cmd.calls scr v)) v cmd := by
  refine ⟨fun a ha => ?_, fun v' h => ?_⟩
  · rw [Command.run_snd]
    exact runCalls_writes_accessed ha
  cases cmd with
  | steer p d => exact h.call (c := .active p d) (List.subset_append_left _ _)
  | tick =>
    have hblueIn : (Call.passive .blue).accessed v ⊆ accessedPixels scr v (Command.tick.calls scr v) := by
      simp only [Command.calls]
      split <;> exact List.subset_append_left _ _
    obtain ⟨hret, hblue⟩ := h.call hblueIn
    simp only [Command.run, passiveMovePlayers_eq, hret]
    by_cases hcrash : ((Call.passive .blue).run scr v).1 ≠ 0
    · simp only [hcrash, ne_eq, not_false_eq_true, ↓reduceIte]
      exact ⟨trivial, hblue⟩
    · have horangeIn : (Call.passive .orange).accessed ((Call.passive .blue).run scr v).2 ⊆
          accessedPixels scr v (Command.tick.calls scr v) := by
        rw [Command.calls, if_neg hcrash]
        exact fun px hpx => List.mem_append_right _ (List.mem_append_left _ hpx)
      obtain ⟨hret', horange⟩ := hblue.call horangeIn
      simp only [hcrash, ↓reduceIte, hret']
      split <;> exact ⟨rfl, horange⟩

end Touches

/-! ### One step -/

/-- A block with a coordinate that wraps has a pixel in the last column or row, which no screen has. -/
private theorem coordinate_add_le {z : UInt16} {res : Nat} (hres : res < 2 ^ 16)
    (h : ∀ i < 5, (z + UInt16.ofNat i).toNat < res) : z.toNat + 5 ≤ res := by
  have hz := z.toNat_lt
  have hlast : z.toNat + 4 < 2 ^ 16 := by
    by_contra hwrap
    have := h (2 ^ 16 - 1 - z.toNat) (by omega)
    rw [UInt16.toNat_add, UInt16.toNat_ofNat'] at this
    omega
  have := h 4 (by omega)
  rw [UInt16.toNat_add, UInt16.toNat_ofNat'] at this
  omega

private theorem blockPixels_onScreen_iff (scr : Screen) (pos : PlayerPosition) :
    (∀ px ∈ blockPixels pos, scr.OnScreen px.1 px.2) ↔ BlockOnScreen scr pos := by
  constructor
  · intro h
    have hmem : ∀ i < 5, ∀ j < 5, scr.OnScreen (pos.x + UInt16.ofNat i) (pos.y + UInt16.ofNat j) := by
      intro i hi j hj
      refine h (_, _) ?_
      simp only [blockPixels, rectanglePixels, List.mem_flatMap, List.mem_map, List.mem_range]
      exact ⟨j, hj, i, hi, rfl⟩
    exact ⟨coordinate_add_le scr.hRes_lt fun i hi => (hmem i hi 0 (by omega)).1,
      coordinate_add_le scr.vRes_lt fun j hj => (hmem 0 (by omega) j hj).2⟩
  · intro h px hpx
    exact onScreen_of_mem_blockPixels h hpx

private theorem blockOnScreen_stepTo_iff {scr : Screen} {pos : PlayerPosition} {d : Direction} (hd : d ≠ .unchanged)
    (hx : pos.x.toNat + 5 < 2 ^ 16) (hy : pos.y.toNat + 5 < 2 ^ 16) :
    BlockOnScreen scr (stepTo pos d) ↔ ClearOfEdge scr pos d := by
  have hh := scr.hRes_lt
  have hv := scr.vRes_lt
  cases d with
  | unchanged => exact absurd rfl hd
  | up | down | left | right =>
    simp only [BlockOnScreen, ClearOfEdge, stepTo, corner, Direction.delta, movementStep, UInt16.toNat_add,
      UInt16.toNat_sub, UInt16.reduceToNat, Prod.mk_add_mk]
    omega

theorem accessed_onScreen_iff (scr : Screen) {v : Video} (hroom : Room v) (c : Call) :
    (∀ px ∈ c.accessed v, scr.OnScreen px.1 px.2) ↔
      c.Ignored v ∨ ClearOfEdge scr (v.player c.player) (c.info v).dir := by
  have hd := c.info_dir_ne_unchanged fun p => (hroom p).1
  obtain ⟨-, hx, hy⟩ := hroom c.player
  rw [← blockOnScreen_stepTo_iff hd hx hy, ← Video.target, ← Call.target]
  by_cases hig : c.Ignored v
  · simp [Call.accessed, hig]
  · simp only [Call.accessed, hig, ↓reduceIte, List.forall_mem_cons, blockPixels_onScreen_iff, false_or]
    exact ⟨And.right, fun h => ⟨h.onScreen, h⟩⟩

theorem Room.enter {scr : Screen} {v : Video} (hroom : Room v) {p : Player} {d : Direction} (hd : d ≠ .unchanged)
    (hclear : ClearOfEdge scr (v.player p) d) : Room (v.enter scr p d) := by
  have hh := scr.hRes_lt
  have hv := scr.vRes_lt
  intro q
  by_cases hq : q = p
  · subst hq
    obtain ⟨-, hx, hy⟩ := hroom q
    have hon := (blockOnScreen_stepTo_iff hd hx hy).2 hclear
    rw [Video.enter_player_self, Video.target, stepTo_currentDirection _ hd]
    unfold BlockOnScreen at hon
    exact ⟨hd, by omega, by omega⟩
  · rw [v.enter_player_of_ne scr hq d]
    exact hroom q

theorem Room.call {scr : Screen} {v : Video} (hroom : Room v) {c : Call}
    (h : c.Ignored v ∨ ClearOfEdge scr (v.player c.player) (c.info v).dir) : Room (c.run scr v).2 := by
  by_cases hig : c.Ignored v
  · rw [Call.run_ignored scr hig]
    exact hroom
  · have hd := c.info_dir_ne_unchanged fun p => (hroom p).1
    rw [Call.run_enters scr hd hig]
    exact hroom.enter hd (h.resolve_left hig)

/-! ### One command, and a whole game -/

private theorem passive_run_fst (scr : Screen) {v : Video} (hroom : Room v) (p : Player) :
    ((Call.passive p).run scr v).1 ≠ 0 ↔ Occupied scr v p (v.player p).currentDirection := by
  have hd : ((Call.passive p).info v).dir ≠ .unchanged := (hroom p).1
  rw [Call.run_enters scr hd (not_ignored_passive v p)]
  by_cases ho : Occupied scr v (Call.passive p).player ((Call.passive p).info v).dir
  · simp only [ho, ↓reduceIte, ne_eq, one_ne_zero, not_false_eq_true, true_iff]
    exact ho
  · simp only [ho, ↓reduceIte, ne_eq, not_true_eq_false, false_iff]
    exact ho

private theorem accessOnScreen_nil (scr : Screen) (v : Video) : AccessOnScreen scr v [] := by
  simp [AccessOnScreen, accessedPixels]

private theorem accessOnScreen_cons {scr : Screen} {v : Video} (hroom : Room v) (c : Call) (cs : List Call) :
    AccessOnScreen scr v (c :: cs) ↔
      (c.Ignored v ∨ ClearOfEdge scr (v.player c.player) (c.info v).dir) ∧ AccessOnScreen scr (c.run scr v).2 cs := by
  rw [← accessed_onScreen_iff scr hroom c]
  simp only [AccessOnScreen, accessedPixels, List.mem_append]
  constructor
  · intro h
    exact ⟨fun px hpx => h px (Or.inl hpx), fun px hpx => h px (Or.inr hpx)⟩
  · rintro ⟨h1, h2⟩ px (hpx | hpx)
    · exact h1 px hpx
    · exact h2 px hpx

private theorem passive_clear_iff (scr : Screen) (v : Video) (p : Player) :
    (Call.passive p).Ignored v ∨ ClearOfEdge scr (v.player (Call.passive p).player) ((Call.passive p).info v).dir ↔
      ClearOfEdge scr (v.player p) (v.player p).currentDirection :=
  or_iff_right (not_ignored_passive v p)

private theorem command_onScreen_iff (scr : Screen) {v : Video} (hroom : Room v) (cmd : Command) :
    (AccessOnScreen scr v (cmd.calls scr v) ↔ cmd.StaysInside scr v) ∧
      (cmd.StaysInside scr v → Room (cmd.run scr v).2) := by
  cases cmd with
  | steer p d =>
    refine ⟨?_, fun h => Room.call (c := .active p d) hroom h⟩
    rw [Command.calls, accessOnScreen_cons hroom, and_iff_left (accessOnScreen_nil scr _)]
    exact Iff.rfl
  | tick =>
    have hcrash := passive_run_fst scr hroom .blue
    have hblue : ClearOfEdge scr (v.player .blue) (v.player .blue).currentDirection →
        Room ((Call.passive .blue).run scr v).2 := fun h =>
      hroom.call ((passive_clear_iff scr v .blue).2 h)
    by_cases ho : Occupied scr v .blue (v.player .blue).currentDirection
    · have hcalls : Command.tick.calls scr v = [.passive .blue] := if_pos (hcrash.2 ho)
      rw [Command.run_snd, hcalls, accessOnScreen_cons hroom, and_iff_left (accessOnScreen_nil scr _),
        passive_clear_iff]
      refine ⟨⟨fun h => ⟨h, fun hn => absurd ho hn⟩, And.left⟩, fun h => hblue h.1⟩
    · have hcalls : Command.tick.calls scr v = [.passive .blue, .passive .orange] :=
        if_neg (fun hr => ho (hcrash.1 hr))
      -- BLUE's move leaves ORANGE where it is
      have horange := passive_run_player_orange scr v
      rw [Command.run_snd, hcalls, accessOnScreen_cons hroom, passive_clear_iff]
      refine ⟨?_, fun h => ?_⟩
      · refine and_congr_right fun h => ?_
        rw [accessOnScreen_cons (hblue h), and_iff_left (accessOnScreen_nil scr _), passive_clear_iff, horange]
        exact ⟨fun h _ => h, fun h => h ho⟩
      · refine (hblue h.1).call ((passive_clear_iff scr _ .orange).2 ?_)
        rw [horange]
        exact h.2 ho

private theorem keepsOnScreen_iff_stepsInside {scr : Screen} {v : Video} (hroom : Room v) (cmds : List Command) :
    KeepsOnScreen scr v cmds ↔ StepsInside scr v cmds := by
  induction cmds generalizing v with
  | nil => exact Iff.rfl
  | cons cmd cmds ih =>
    obtain ⟨hiff, hnext⟩ := command_onScreen_iff scr hroom cmd
    rw [KeepsOnScreen, StepsInside, hiff]
    refine and_congr_right fun hin => ?_
    rw [ih (hnext hin)]

theorem Room.start {scr : Screen} (h : StartsOnScreen scr) (hour : UInt8) (v : Video) :
    Room (startGame scr hour v) := by
  have hh := scr.hRes_lt
  have hv := scr.vRes_lt
  intro p
  have hp := (h p).1
  rw [startGame_player]
  cases p <;>
    simp only [startPosition, UInt32.toNat_toUInt16, UInt32.toNat_sub, UInt32.toNat_add, UInt32.toNat_div,
      UInt32.reduceToNat, ne_eq, reduceCtorEq, not_false_eq_true, true_and] at hp ⊢ <;>
    omega

/-- In a game the accessed pixels stay on the screen exactly as long as no step crosses an edge, and no step reads or
writes a byte of any other pixel. -/
theorem keepsOnScreen_iff {scr : Screen} (h : StartsOnScreen scr) (hour : UInt8) (v₀ : Video) (cmds : List Command) :
    (KeepsOnScreen scr (startGame scr hour v₀) cmds ↔ StepsInside scr (startGame scr hour v₀) cmds) ∧
      ∀ pre cmd, pre ++ [cmd] <+: cmds →
        let v := runCommands scr (startGame scr hour v₀) pre
        TouchesOnly scr (accessedPixels scr v (cmd.calls scr v)) v cmd :=
  ⟨keepsOnScreen_iff_stepsInside (Room.start h hour v₀) cmds, fun _ cmd _ => cmd.touchesOnly scr _⟩

/-! ### A game that leaves the screen -/

private theorem Refines.room {scr : Screen} {v : Video} {a : Arena} (h : Refines scr v a) (hw : 200 ≤ scr.hRes.toNat) :
    Room v := by
  intro p
  obtain ⟨hx, hy, hx1, hy1, hx2⟩ := h.cell p
  refine ⟨h.steered p, ?_, ?_⟩ <;> omega

/-- A tick that crosses no edge and is no crash in the game moves both players. -/
private theorem Refines.tick_free {scr : Screen} {v : Video} {a : Arena} (h : Refines scr v a)
    (h3 : scr.bytesPerPixel = 3) (hw : 200 ≤ scr.hRes.toNat) (hin : Command.tick.StaysInside scr v)
    (hblue : ¬ a.Crash .blue (a.heading .blue))
    (horange : ¬ (a.enter .blue (a.heading .blue)).Crash .orange (a.heading .orange)) :
    (Command.tick.run scr v).1 = 0 ∧ Refines scr (Command.tick.run scr v).2
      ((a.enter .blue (a.heading .blue)).enter .orange (a.heading .orange)) := by
  have hroom := h.room hw
  obtain ⟨hinBlue, hinOrange⟩ := hin
  rw [h.heading] at hblue
  rw [h.heading, h.heading] at horange ⊢
  have hblueOn : BlockOnScreen scr (v.target .blue (v.player .blue).currentDirection) :=
    (blockOnScreen_stepTo_iff (hroom .blue).1 (hroom .blue).2.1 (hroom .blue).2.2).2 hinBlue
  have hfreeBlue := mt (h.occupied_iff hblueOn).1 hblue
  have hmoved := h.enter h3 (hroom .blue).1 hblueOn
  -- ORANGE is where it was before BLUE moved
  have horangeOn : BlockOnScreen scr
      ((v.enter scr .blue (v.player .blue).currentDirection).target .orange (v.player .orange).currentDirection) := by
    rw [Video.target, v.enter_player_of_ne scr (by decide)]
    exact (blockOnScreen_stepTo_iff (hroom .orange).1 (hroom .orange).2.1 (hroom .orange).2.2).2
      (hinOrange hfreeBlue)
  have hfreeOrange := mt (hmoved.occupied_iff horangeOn).1 horange
  have htick : Command.tick.run scr v =
      (0, (v.enter scr .blue (v.player .blue).currentDirection).enter scr .orange
        (v.player .orange).currentDirection) := by
    refine (passiveMovePlayers_enters scr (hroom .blue).1 (hroom .orange).1).trans ?_
    exact (if_neg hfreeBlue).trans (if_neg hfreeOrange)
  rw [htick]
  exact ⟨rfl, hmoved.enter h3 (hroom .orange).1 horangeOn⟩

/-- BLUE on its way up at row `5 * n`, and ORANGE on its way left, each on a free path: after `n` more ticks BLUE is
at the edge, and the next one takes it across. -/
private theorem flight (n : Nat) (hn : n ≤ 59) {v : Video} {a : Arena} (h : Refines mode115 v a)
    (hblue : a.cell .blue = (300, 5 * (n : ℤ))) (hup : a.heading .blue = .up)
    (horange : a.cell .orange = (205 + 5 * (n : ℤ), 300)) (hleft : a.heading .orange = .left)
    (htrail : ∀ b ∈ a.trail, (b.1 = 300 ∧ 5 * (n : ℤ) ≤ b.2 ∧ b.2 < 300) ∨ (b.2 = 300 ∧ 205 + 5 * (n : ℤ) ≤ b.1)) :
    ¬ KeepsOnScreen mode115 v (List.replicate (n + 1) .tick) := by
  induction n generalizing v a with
  | zero =>
    rintro ⟨hon, -⟩
    have hin := ((command_onScreen_iff mode115 (h.room (by decide)) .tick).1.1 hon).1
    have hc := (h.cell .blue).y_eq
    rw [← h.heading, hup] at hin
    rw [hblue] at hc
    simp only [ClearOfEdge, corner, Direction.delta, Prod.mk_add_mk] at hin
    omega
  | succ n ih =>
    rintro ⟨hon, hrest⟩
    have hin := (command_onScreen_iff mode115 (h.room (by decide)) .tick).1.1 hon
    have hfreeBlue : ¬ a.Crash .blue (a.heading .blue) := by
      rw [hup, Arena.Crash, Arena.ahead, hblue]
      intro hmem
      rcases htrail _ hmem with hb | hb <;> simp only [Direction.delta, Prod.mk_add_mk] at hb <;> omega
    have hfreeOrange : ¬ (a.enter .blue (a.heading .blue)).Crash .orange (a.heading .orange) := by
      rw [hup, hleft]
      simp only [Arena.Crash, Arena.ahead, Arena.enter, reduceCtorEq, ↓reduceIte, horange, hblue, Direction.delta,
        Prod.mk_add_mk, Set.mem_insert_iff, Prod.mk.injEq, not_or]
      refine ⟨by omega, fun hmem => ?_⟩
      rcases htrail _ hmem with hb | hb <;> simp only at hb <;> omega
    obtain ⟨hret, hnext⟩ := h.tick_free rfl (by decide) hin hfreeBlue hfreeOrange
    rw [hup, hleft] at hnext
    refine ih (by omega) hnext ?_ ?_ ?_ ?_ ?_ (hrest hret)
    · simp [Arena.enter, Arena.ahead, Direction.delta, hblue]
      ring
    · simp [Arena.enter]
    · simp [Arena.enter, Arena.ahead, Direction.delta, horange]
      ring
    · simp [Arena.enter]
    · intro b hb
      simp only [Arena.enter, Arena.ahead, Direction.delta, hblue, horange, reduceCtorEq, ↓reduceIte,
        Set.mem_insert_iff, Prod.mk_add_mk] at hb
      rcases hb with rfl | rfl | hb
      · right; simp only; omega
      · left; simp only; omega
      · rcases htrail b hb with hb | hb <;> omega

/-- BLUE turns up at once and is left alone: 59 ticks later it is at the top edge, and the next tick runs over it. -/
theorem upward_flight_leaves_screen :
    StartsOnScreen mode115 ∧
      ¬ KeepsOnScreen mode115 (startGame mode115 0x12 blackVideo)
        (.steer .blue ⟨.up, by decide⟩ :: List.replicate 60 .tick) := by
  have hstart : StartsOnScreen mode115 := by
    intro p
    cases p <;> decide
  refine ⟨hstart, ?_⟩
  rintro ⟨-, hrest⟩
  have hc : Cleared mode115 blackVideo.videoMem := fun _ _ => rfl
  have h0 : Refines mode115 (startGame mode115 0x12 blackVideo) (Arena.start mode115) :=
    Refines.start rfl hc (by decide)
  have hon : BlockOnScreen mode115 ((startGame mode115 0x12 blackVideo).target .blue .up) := by decide
  have hfree : ¬ Occupied mode115 (startGame mode115 0x12 blackVideo) .blue .up := by
    rw [h0.occupied_iff hon]
    exact Set.notMem_empty _
  have hsteer : Command.run mode115 (startGame mode115 0x12 blackVideo) (.steer .blue ⟨.up, by decide⟩) =
      (0, (startGame mode115 0x12 blackVideo).enter mode115 .blue .up) := by
    have hturn : ¬ Ignored (startGame mode115 0x12 blackVideo) ⟨.up, .blue⟩ false := by decide
    refine (movePlayer_enters mode115 (by decide) hturn).trans ?_
    rw [if_neg hfree]
  rw [hsteer] at hrest
  refine flight 59 le_rfl (h0.enter rfl (by decide) hon) ?_ ?_ ?_ ?_ ?_ (hrest rfl)
  · decide
  · decide
  · decide
  · decide
  · rintro b (rfl | hb)
    · left
      decide
    · exact absurd hb (Set.notMem_empty b)

theorem keepsOnScreen_iff_at_start :
    KeepsOnScreen mode115 (startGame mode115 0x12 blackVideo) [.tick] ↔
      StepsInside mode115 (startGame mode115 0x12 blackVideo) [.tick] :=
  (keepsOnScreen_iff (by intro p; cases p <;> decide) 0x12 blackVideo [.tick]).1

end LabChase
