import LabChase.Proj.Collision

/-!
# The hour and the background

From 19 hours on `start_game` fills the framebuffer with bytes `255`, which makes every pixel `0xFFFFFF` at three bytes
per pixel; `vg_draw_rectangle` takes only `0` and `255` for free.  So by night the first move of any player is a crash
(`run_start_fst`), and two hours give the same game exactly when they are on the same side of 19 hours or nobody ever
moves (`hour_irrelevant_iff`).
-/

namespace LabChase

open FlatMemory Runs

/-- The return value of each command, and both players after it. -/
def results (scr : Screen) : Video → List Command → List (Nat × PlayerPosition × PlayerPosition)
  | _, [] => []
  | v, cmd :: cmds =>
    ((cmd.run scr v).1, (cmd.run scr v).2.bluePlayer, (cmd.run scr v).2.orangePlayer) ::
      results scr (cmd.run scr v).2 cmds

/-- A turn to the left or to the right. -/
def Call.Sideways : Call → Prop
  | .active _ d => d.1 = .left ∨ d.1 = .right
  | .passive _ => False

def Command.Sideways : Command → Prop
  | .tick => False
  | .steer p d => (Call.active p d).Sideways

/-- No call of the sequence that enters a block disjoint from all blocks entered before it reports a crash. -/
def FreshIsFree (scr : Screen) (v : Video) (cs : List Call) : Prop :=
  ∀ pre c, pre ++ [c] <+: cs → ¬ c.Ignored (runCalls scr v pre) →
    (∀ pos ∈ enteredBlocks scr v pre, ¬ BlocksOverlap (c.target (runCalls scr v pre)) pos) →
      (c.run scr (runCalls scr v pre)).1 = 0

/-- Two states that show the same game: equal players and equal framebuffers. -/
structure SameGame (scr : Screen) (v w : Video) : Prop where
  player : ∀ p, v.player p = w.player p
  steered : ∀ p, (v.player p).currentDirection ≠ .unchanged
  mem : ∀ a : UInt32, a.toNat < scr.size → v.videoMem a = w.videoMem a

/-! ### Two runs of the same game -/

namespace SameGame

variable {scr : Screen} {v w : Video}

theorem target_eq (h : SameGame scr v w) (p : Player) (d : Direction) : v.target p d = w.target p d := by
  rw [Video.target, h.player, Video.target]

theorem occupied_iff (h : SameGame scr v w) (hb : 0 < scr.bytesPerPixel.toNat) {p : Player} {d : Direction}
    (hon : BlockOnScreen scr (v.target p d)) : Occupied scr v p d ↔ Occupied scr w p d := by
  rw [Occupied, Occupied, ← h.target_eq, findColor_congr h.mem hon.onScreen hb]

theorem enter (h : SameGame scr v w) (p : Player) {d : Direction} (hd : d ≠ .unchanged) :
    SameGame scr (v.enter scr p d) (w.enter scr p d) where
  player q := by
    by_cases hq : q = p
    · subst hq
      rw [Video.enter_player_self, Video.enter_player_self, h.target_eq]
    · rw [v.enter_player_of_ne scr hq, w.enter_player_of_ne scr hq, h.player]
  steered := v.enter_steered scr h.steered p hd
  mem a ha := by
    rw [Video.enter_videoMem, Video.enter_videoMem, h.target_eq]
    exact paint_congr (h.mem a ha) _ _ _

theorem info_eq (h : SameGame scr v w) (c : Call) : c.info v = c.info w := by
  cases c with
  | active p d => rfl
  | passive p => rw [Call.info, h.player, Call.info]

theorem ignored_iff (h : SameGame scr v w) (c : Call) : c.Ignored v ↔ c.Ignored w := by
  rw [Call.Ignored, Call.Ignored, LabChase.Ignored, LabChase.Ignored, h.info_eq, h.player]

theorem call (h : SameGame scr v w) (hb : 0 < scr.bytesPerPixel.toNat) {c : Call}
    (hon : ¬ c.Ignored v → BlockOnScreen scr (c.target v)) :
    (c.run scr v).1 = (c.run scr w).1 ∧ SameGame scr (c.run scr v).2 (c.run scr w).2 := by
  by_cases hig : c.Ignored v
  · rw [Call.run_ignored scr hig, Call.run_ignored scr ((h.ignored_iff c).1 hig)]
    exact ⟨rfl, h⟩
  · have hd := c.info_dir_ne_unchanged h.steered
    have hd' : (c.info w).dir ≠ .unchanged := by rwa [← h.info_eq]
    rw [Call.run_enters scr hd hig, Call.run_enters scr hd' (fun hig' => hig ((h.ignored_iff c).2 hig')), ← h.info_eq]
    have hocc := h.occupied_iff hb (hon hig)
    refine ⟨?_, h.enter _ hd⟩
    by_cases ho : Occupied scr v c.player (c.info v).dir
    · have ho' := hocc.1 ho
      simp [ho, ho']
    · have ho' : ¬ Occupied scr w c.player (c.info v).dir := fun ho' => ho (hocc.2 ho')
      simp [ho, ho']

theorem command (h : SameGame scr v w) (hb : 0 < scr.bytesPerPixel.toNat) {cmd : Command}
    (hon : OnScreenRun scr v (cmd.calls scr v)) :
    (cmd.run scr v).1 = (cmd.run scr w).1 ∧ SameGame scr (cmd.run scr v).2 (cmd.run scr w).2 := by
  cases cmd with
  | steer p d => exact h.call hb (c := .active p d) (onScreenRun_cons.1 hon).1
  | tick =>
    have hfirst : ¬ (Call.passive .blue).Ignored v → BlockOnScreen scr ((Call.passive .blue).target v) := by
      by_cases hr : ((Call.passive .blue).run scr v).1 = 0 <;>
        simp only [Command.calls, hr, ne_eq, not_true_eq_false, not_false_eq_true, ↓reduceIte] at hon <;>
        exact (onScreenRun_cons.1 hon).1
    obtain ⟨hret, hsame⟩ := h.call hb hfirst
    simp only [Command.run, passiveMovePlayers_eq, ← hret]
    by_cases hr : ((Call.passive .blue).run scr v).1 = 0
    · simp only [Command.calls, hr, ne_eq, not_true_eq_false, ↓reduceIte] at hon
      obtain ⟨hret', hsame'⟩ := hsame.call hb (onScreenRun_cons.1 (onScreenRun_cons.1 hon).2).1
      simp only [hr, ← hret', ne_eq, not_true_eq_false, ↓reduceIte]
      by_cases hr' : ((Call.passive .orange).run scr ((Call.passive .blue).run scr v).2).1 = 0
      · simpa only [hr', not_true_eq_false, ↓reduceIte, true_and] using hsame'
      · simpa only [hr', not_false_eq_true, ↓reduceIte, true_and] using hsame'
    · simpa only [hr, ne_eq, not_false_eq_true, ↓reduceIte, true_and] using hsame

private theorem results_eq (h : SameGame scr v w) (hb : 0 < scr.bytesPerPixel.toNat) {cmds : List Command}
    (hon : OnScreenRun scr v (callsOf scr v cmds)) : results scr v cmds = results scr w cmds := by
  induction cmds generalizing v w with
  | nil => rfl
  | cons cmd cmds ih =>
    obtain ⟨hfirst, hrest⟩ := onScreenRun_append.1 hon
    obtain ⟨hret, hsame⟩ := h.command hb hfirst
    rw [← Command.run_snd] at hrest
    have hblue := hsame.player .blue
    have horange := hsame.player .orange
    simp only [Video.player] at hblue horange
    rw [results, results, hret, hblue, horange, ih hsame hrest]

end SameGame

/-! ### The first move of a game -/

/-- At the start BLUE heads right and ORANGE left, so the turns to a side are the calls that are ignored. -/
private theorem ignored_start_iff (scr : Screen) (hour : UInt8) (v₀ : Video) (c : Call) :
    c.Ignored (startGame scr hour v₀) ↔ c.Sideways := by
  cases c with
  | passive p =>
    have := not_ignored_passive (startGame scr hour v₀) p
    exact ⟨fun h => absurd h this, False.elim⟩
  | active p d =>
    cases p <;>
      simp only [Call.Ignored, Ignored, Call.info, Call.isPassive, startGame_player, startPosition, opposite, true_and,
        Call.Sideways]
    exact or_comm

private theorem target_start (scr : Screen) (hour hour' : UInt8) (v₀ v₀' : Video) (c : Call) :
    c.target (startGame scr hour v₀) = c.target (startGame scr hour' v₀') := by
  cases c with
  | active p d => simp only [Call.target, Call.info, Video.target, startGame_player]
  | passive p => simp only [Call.target, Call.info, Video.target, startGame_player]

private theorem startGame_videoMem_night {scr : Screen} {hour : UInt8} (hnight : ¬ hour < 0x19) (v₀ : Video)
    {a : UInt32} (ha : a.toNat < scr.size) : (startGame scr hour v₀).videoMem a = 255 := by
  have hfill : hour ≥ 0x19 := UInt8.not_lt.1 hnight
  have hfit : scr.size < 2 ^ 32 := scr.fits
  simp only [startGame, hfill, ↓reduceIte, memset, nightFillBytes_toNat]
  exact memcpy_inside (by simp; omega) (Nat.zero_le _) (by simpa using ha)

theorem SameGame.start {scr : Screen} {v₁ v₂ : Video} (hc₁ : Cleared scr v₁.videoMem) (hc₂ : Cleared scr v₂.videoMem)
    {h₁ h₂ : UInt8} (hside : h₁ < 0x19 ↔ h₂ < 0x19) : SameGame scr (startGame scr h₁ v₁) (startGame scr h₂ v₂) where
  player p := by rw [startGame_player, startGame_player]
  steered := startGame_steered scr h₁ v₁
  mem a ha := by
    by_cases hday : h₁ < 0x19
    · rw [startGame_videoMem_day scr hday, startGame_videoMem_day scr (hside.1 hday), hc₁ a ha, hc₂ a ha]
    · rw [startGame_videoMem_night hday v₁ ha, startGame_videoMem_night (fun h => hday (hside.2 h)) v₂ ha]

theorem findColor_night {scr : Screen} (h3 : scr.bytesPerPixel = 3) {hour : UInt8} (hnight : ¬ hour < 0x19) (v₀ : Video)
    {x y : UInt16} (h : scr.OnScreen x y) : findColor scr (startGame scr hour v₀).videoMem x y = 0xFFFFFF := by
  have hfill : ∀ a : UInt32, a.toNat < scr.size → (startGame scr hour v₀).videoMem a = 255 := fun a ha =>
    startGame_videoMem_night hnight v₀ ha
  have hload := loadLE_pixel_const hfill h (scr.bytesPerPixel_pos h3)
  simp only [h3, UInt32.reduceToNat] at hload
  have : loadLE (startGame scr hour v₀).videoMem (pixelOffset scr x.toUInt32 y.toUInt32) 3 = 0xFFFFFF := by
    simp only [UInt8.reduceToNat] at hload
    omega
  rw [findColor, h3]
  simp only [UInt32.reduceToNat, this]
  rfl

/-- The first block entered is free by day and occupied by night. -/
theorem run_start_fst {scr : Screen} (h3 : scr.bytesPerPixel = 3) {v₀ : Video} (hc : Cleared scr v₀.videoMem)
    (hour : UInt8) {c : Call} (hmove : ¬ c.Sideways) (hon : BlockOnScreen scr (c.target (startGame scr hour v₀))) :
    (c.run scr (startGame scr hour v₀)).1 = if hour < 0x19 then 0 else 1 := by
  have hb := scr.bytesPerPixel_pos h3
  have hd := c.info_dir_ne_unchanged (startGame_steered scr hour v₀)
  rw [Call.run_enters scr hd (fun hig => hmove ((ignored_start_iff scr hour v₀ c).1 hig))]
  have hpixel := hon.onScreen
  by_cases hday : hour < 0x19
  · have hfree : ¬ Occupied scr (startGame scr hour v₀) c.player (c.info (startGame scr hour v₀)).dir := by
      rintro ⟨hcolor, -⟩
      rw [startGame_videoMem_day scr hday] at hcolor
      exact hcolor (findColor_cleared hc hpixel hb)
    simp [hfree, hday]
  · have hocc : Occupied scr (startGame scr hour v₀) c.player (c.info (startGame scr hour v₀)).dir := by
      have hcolor := findColor_night h3 hday v₀ hpixel
      rw [Occupied, ← Call.target, hcolor]
      decide
    simp [hocc, hday]

def Command.first : Command → Call
  | .tick => .passive .blue
  | .steer p d => .active p d

theorem Command.calls_eq_cons (scr : Screen) (v : Video) (cmd : Command) : ∃ cs, cmd.calls scr v = cmd.first :: cs := by
  cases cmd with
  | steer p d => exact ⟨[], rfl⟩
  | tick =>
    by_cases hr : ((Call.passive .blue).run scr v).1 = 0
    · exact ⟨[.passive .orange], by simp [Command.calls, Command.first, hr]⟩
    · exact ⟨[], by simp [Command.calls, Command.first, hr]⟩

private theorem Command.run_sideways (scr : Screen) (hour : UInt8) (v₀ : Video) {cmd : Command} (h : cmd.Sideways) :
    cmd.run scr (startGame scr hour v₀) = (0, startGame scr hour v₀) := by
  cases cmd with
  | tick => exact absurd h id
  | steer p d => exact Call.run_ignored scr ((ignored_start_iff scr hour v₀ (.active p d)).2 h)

theorem Command.run_start_fst {scr : Screen} (h3 : scr.bytesPerPixel = 3) {v₀ : Video} (hc : Cleared scr v₀.videoMem)
    (hour : UInt8) {cmd : Command} (hmove : ¬ cmd.Sideways)
    (hon : BlockOnScreen scr (cmd.first.target (startGame scr hour v₀))) :
    (cmd.run scr (startGame scr hour v₀)).1 = 1 ↔ ¬ hour < 0x19 := by
  have hfirst : (cmd.first.run scr (startGame scr hour v₀)).1 = if hour < 0x19 then 0 else 1 := by
    refine LabChase.run_start_fst h3 hc hour ?_ hon
    cases cmd with
    | tick => exact id
    | steer p d => exact hmove
  cases cmd with
  | steer p d =>
    rw [show (Command.steer p d).run scr (startGame scr hour v₀) =
      (Command.steer p d).first.run scr (startGame scr hour v₀) from rfl, hfirst]
    by_cases hday : hour < 0x19 <;> simp [hday]
  | tick =>
    rw [Command.first] at hfirst
    simp only [Command.run, passiveMovePlayers_eq, hfirst]
    by_cases hday : hour < 0x19
    · simp only [hday, ↓reduceIte, ne_eq, not_true_eq_false, iff_false]
      split <;> simp
    · simp [hday]

/-! ### The hour matters as soon as a player moves -/

private theorem results_ne {scr : Screen} (h3 : scr.bytesPerPixel = 3) {v₁ v₂ : Video}
    (hc₁ : Cleared scr v₁.videoMem) (hc₂ : Cleared scr v₂.videoMem) {h₁ h₂ : UInt8}
    (hside : ¬ (h₁ < 0x19 ↔ h₂ < 0x19)) {cmds : List Command}
    (hon : OnScreenRun scr (startGame scr h₁ v₁) (callsOf scr (startGame scr h₁ v₁) cmds))
    (hmove : ¬ ∀ cmd ∈ cmds, cmd.Sideways) :
    results scr (startGame scr h₁ v₁) cmds ≠ results scr (startGame scr h₂ v₂) cmds := by
  induction cmds with
  | nil => exact absurd (fun _ h => absurd h List.not_mem_nil) hmove
  | cons cmd cmds ih =>
    intro heq
    obtain ⟨hhead, htail⟩ := List.cons.inj heq
    by_cases hs : cmd.Sideways
    -- a sideways command changes nothing in either run
    · simp only [Command.run_sideways scr _ _ hs] at htail
      refine ih ?_ (fun h => hmove (List.forall_mem_cons.2 ⟨hs, h⟩)) htail
      have hrest := (onScreenRun_append.1 hon).2
      rwa [← Command.run_snd, Command.run_sideways scr _ _ hs] at hrest
    · obtain ⟨cs, hcs⟩ := cmd.calls_eq_cons scr (startGame scr h₁ v₁)
      have hblock : BlockOnScreen scr (cmd.first.target (startGame scr h₁ v₁)) := by
        have hfirst := (onScreenRun_append.1 hon).1
        rw [hcs] at hfirst
        refine (onScreenRun_cons.1 hfirst).1 (fun hig => ?_)
        have hsw := (ignored_start_iff scr h₁ v₁ cmd.first).1 hig
        cases cmd with
        | tick => exact hsw
        | steer p d => exact hs hsw
      have hret := congrArg Prod.fst hhead
      have hday₁ := Command.run_start_fst h3 hc₁ h₁ hs hblock
      have hday₂ := Command.run_start_fst h3 hc₂ h₂ hs (target_start scr h₁ h₂ v₁ v₂ cmd.first ▸ hblock)
      simp only at hret
      rw [hret, hday₂] at hday₁
      exact hside (not_iff_not.1 hday₁.symm)

private theorem results_sideways {scr : Screen} {h₁ h₂ : UInt8} {v₁ v₂ : Video} {cmds : List Command}
    (hs : ∀ cmd ∈ cmds, cmd.Sideways) :
    results scr (startGame scr h₁ v₁) cmds = results scr (startGame scr h₂ v₂) cmds := by
  induction cmds with
  | nil => rfl
  | cons cmd cmds ih =>
    obtain ⟨hcmd, hcmds⟩ := List.forall_mem_cons.1 hs
    simp only [results, Command.run_sideways scr _ _ hcmd, ih hcmds]
    rfl

/-- While only sideways turns are made, nothing is entered and the state is that of the start. -/
private theorem sideways_calls (scr : Screen) (hour : UInt8) (v₀ : Video) {cs : List Call}
    (hs : ∀ c ∈ cs, c.Sideways) :
    runCalls scr (startGame scr hour v₀) cs = startGame scr hour v₀ ∧
      enteredBlocks scr (startGame scr hour v₀) cs = [] := by
  induction cs with
  | nil => exact ⟨rfl, rfl⟩
  | cons c cs ih =>
    obtain ⟨hc, hcs⟩ := List.forall_mem_cons.1 hs
    have hig := (ignored_start_iff scr hour v₀ c).2 hc
    obtain ⟨hrun, hblocks⟩ := ih hcs
    constructor
    · rw [runCalls, run_cons, Call.run_ignored scr hig]
      exact hrun
    · simp only [enteredBlocks, hig, ↓reduceIte, Call.run_ignored scr hig]
      exact hblocks

private theorem not_freshIsFree {scr : Screen} (h3 : scr.bytesPerPixel = 3) {v₀ : Video} (hc : Cleared scr v₀.videoMem)
    {hour : UInt8} (hnight : ¬ hour < 0x19) {cs pre : List Call} (hpre : ∀ c ∈ pre, c.Sideways)
    (hon : OnScreenRun scr (startGame scr hour v₀) (pre ++ cs)) (hmove : ¬ ∀ c ∈ cs, c.Sideways) :
    ¬ FreshIsFree scr (startGame scr hour v₀) (pre ++ cs) := by
  induction cs generalizing pre with
  | nil => exact absurd (fun _ h => absurd h List.not_mem_nil) hmove
  | cons c cs ih =>
    by_cases hs : c.Sideways
    · have hsnoc : ∀ c' ∈ pre ++ [c], c'.Sideways := by
        intro c' hc'
        rcases List.mem_append.1 hc' with h | h
        · exact hpre c' h
        · exact List.mem_singleton.1 h ▸ hs
      rw [List.append_cons]
      rw [List.append_cons] at hon
      exact ih hsnoc hon (fun h => hmove (List.forall_mem_cons.2 ⟨hs, h⟩))
    · intro hfree
      obtain ⟨hrun, hblocks⟩ := sideways_calls scr hour v₀ hpre
      have hig : ¬ c.Ignored (startGame scr hour v₀) := fun h => hs ((ignored_start_iff scr hour v₀ c).1 h)
      have hlast := (onScreenRun_append.1 hon).2
      rw [hrun] at hlast
      have hzero := hfree pre c ⟨cs, by simp⟩
      rw [hrun, hblocks] at hzero
      have hfst := run_start_fst h3 hc hour hs ((onScreenRun_cons.1 hlast).1 hig)
      rw [hzero hig (fun pos hpos => absurd hpos List.not_mem_nil), if_neg hnight] at hfst
      exact absurd hfst (by decide)

/-- Two hours give the same game exactly when they are on the same side of 19 hours or nobody moves; and moves into
cells nobody has painted are free exactly by day, or when there are none. -/
theorem hour_irrelevant_iff {scr : Screen} (h3 : scr.bytesPerPixel = 3) {v₁ v₂ : Video}
    (hc₁ : Cleared scr v₁.videoMem) (hc₂ : Cleared scr v₂.videoMem) (h₁ h₂ : UInt8) :
    (∀ cmds, OnScreenRun scr (startGame scr h₁ v₁) (callsOf scr (startGame scr h₁ v₁) cmds) →
      (results scr (startGame scr h₁ v₁) cmds = results scr (startGame scr h₂ v₂) cmds ↔
        (h₁ < 0x19 ↔ h₂ < 0x19) ∨ ∀ cmd ∈ cmds, cmd.Sideways)) ∧
    (∀ cs, OnScreenRun scr (startGame scr h₁ v₁) cs →
      (FreshIsFree scr (startGame scr h₁ v₁) cs ↔ h₁ < 0x19 ∨ ∀ c ∈ cs, c.Sideways)) := by
  have hb := scr.bytesPerPixel_pos h3
  refine ⟨fun cmds hon => ⟨fun heq => ?_, ?_⟩, fun cs hon => ⟨fun hfree => ?_, ?_⟩⟩
  · by_contra hne
    obtain ⟨hside, hmove⟩ := not_or.1 hne
    exact results_ne h3 hc₁ hc₂ hside hon hmove heq
  · rintro (hside | hs)
    · exact (SameGame.start hc₁ hc₂ hside).results_eq hb hon
    · exact results_sideways hs
  · by_contra hne
    obtain ⟨hnight, hmove⟩ := not_or.1 hne
    have hnil : ∀ c ∈ ([] : List Call), c.Sideways := fun _ h => absurd h List.not_mem_nil
    exact not_freshIsFree h3 hc₁ hnight hnil hon hmove hfree
  · rintro (hday | hs)
    · rintro pre c ⟨rest, rfl⟩ hig hfresh
      have hexact := collision_exact h3 hday hc₁ pre c (onScreenRun_append.1 hon).1
      by_contra hcrash
      obtain ⟨pos, hpos, hov⟩ := ((hexact.1 hig).2.2).1 hcrash
      exact hfresh pos hpos hov
    · rintro pre c hpre hig -
      have hsub : ∀ c' ∈ pre ++ [c], c'.Sideways := fun c' hc' => hs c' (hpre.subset hc')
      obtain ⟨hrun, -⟩ := sideways_calls scr h₁ v₁
        (fun c' hc' => hsub c' (List.mem_append_left _ hc'))
      rw [hrun, ignored_start_iff] at hig
      exact absurd (hsub c (List.mem_append_right _ (List.mem_singleton.2 rfl))) hig

/-- The first tick of a game at noon and at 20 hours. -/
theorem first_tick_by_day_and_by_night :
    Cleared mode115 blackVideo.videoMem ∧
      OnScreenRun mode115 (startGame mode115 0x12 blackVideo)
        (callsOf mode115 (startGame mode115 0x12 blackVideo) [.tick]) ∧
      OnScreenRun mode115 (startGame mode115 0x20 blackVideo)
        (callsOf mode115 (startGame mode115 0x20 blackVideo) [.tick]) ∧
      results mode115 (startGame mode115 0x12 blackVideo) [.tick] ≠
        results mode115 (startGame mode115 0x20 blackVideo) [.tick] ∧
      ¬ FreshIsFree mode115 (startGame mode115 0x20 blackVideo) [.passive .blue] := by
  have hc : Cleared mode115 blackVideo.videoMem := fun _ _ => rfl
  have hday : OnScreenRun mode115 (startGame mode115 0x12 blackVideo)
      (callsOf mode115 (startGame mode115 0x12 blackVideo) [.tick]) := by decide
  have hnil : ∀ c ∈ ([] : List Call), c.Sideways := fun _ h => absurd h List.not_mem_nil
  refine ⟨hc, hday, by decide, results_ne rfl hc hc (by decide) hday ?_, ?_⟩
  · exact fun h => h .tick (List.mem_singleton.2 rfl)
  · refine not_freshIsFree rfl hc (by decide) hnil ?_ ?_
    · show OnScreenRun mode115 (startGame mode115 0x20 blackVideo) [.passive .blue]
      decide
    · exact fun h => h (.passive .blue) (List.mem_singleton.2 rfl)

theorem first_tick_in_the_morning_and_at_noon :
    results mode115 (startGame mode115 0x09 blackVideo) [.tick] =
      results mode115 (startGame mode115 0x12 blackVideo) [.tick] := by
  have hc : Cleared mode115 blackVideo.videoMem := fun _ _ => rfl
  exact ((hour_irrelevant_iff rfl hc hc 0x09 0x12).1 [.tick] (by decide)).2 (Or.inl (by decide))

end LabChase
