import LabChase.Proj.Menus

/-!
# What can be clicked

Packets move the cursor by any displacement of nine bits, so in a menu that waits for the first byte of a packet there
are always packets that bring the cursor anywhere within the margins, one pixel at a time (`Between.path`).  A click
there selects what the buttons say, so from every such menu each button inside the margins can be reached
(`click_reachable`): the program is never stuck in a menu.
-/

namespace LabChase

open FlatMemory Runs

/-- The program waits in the menu `x` for the first byte of a packet, with the cursor at `m`. -/
structure Between (x : ScreenState) (m : MousePos) (s : Main) : Prop where
  flags : FlagsOk s
  menu : IsMenu x
  screenState : s.screenState = x
  counter : s.counter = 0
  mouse : s.video.mouse = m

/-- The bytes of a packet, one after the other. -/
def packetBytes (b₀ b₁ b₂ : UInt8) : List Receive := [mouseByte b₀, mouseByte b₁, mouseByte b₂]

/-- The bytes of some packets. -/
def packetsBytes (packets : List (UInt8 × UInt8 × UInt8)) : List Receive :=
  packets.flatMap fun packet => packetBytes packet.1 packet.2.1 packet.2.2

/-- A packet that clicks nowhere: bit 3 is set and the left button is up. -/
def OnlyMoves (packet : UInt8 × UInt8 × UInt8) : Prop := packet.1 &&& 0x08 ≠ 0 ∧ packet.1 &&& 0x01 = 0

/-- The cursor after a packet. -/
def packetMouse (scr : Screen) (m : MousePos) (b₀ b₁ b₂ : UInt8) : MousePos :=
  let dx : Int := if b₀ &&& 0x10 = 0 then b₁.toNat else -256 + b₁.toNat
  let dy : Int := if b₀ &&& 0x20 = 0 then b₂.toNat else -256 + b₂.toNat
  ⟨clampAxis scr.hRes (m.x + UInt16.ofInt dx), clampAxis scr.vRes (m.y - UInt16.ofInt dy)⟩

def inPlace (m : MousePos) (x1 y1 x2 y2 : UInt16) : Bool := m.x ≥ x1 && m.x ≤ x2 && m.y ≥ y1 && m.y ≤ y2

/-- The screen that a click in the menu `x` selects. -/
def buttonAt (m : MousePos) (x : ScreenState) : ScreenState :=
  if inPlace m 253 288 547 313 then .sGame
  else if inPlace m 268 352 532 376 then .mGame
  else if inPlace m 358 412 442 437 then .quit
  else x

/-! ### A packet -/

private theorem mouse_mouseByte (b : UInt8) : Notification.mouse ⟨0x1000, 0x21, b⟩ = true := by
  simp [Notification.mouse]

private theorem clickedScreen_eq (s : Main) :
    clickedScreen s = if s.pp.lb then buttonAt s.video.mouse s.screenState else s.screenState := by
  unfold clickedScreen buttonAt
  cases s.pp.lb <;> rfl

/-- A packet moves the cursor, and with the left button pressed it clicks there. -/
private theorem handlePacket_spec (w : World) (picture : Option XpmMap) (s : Main) :
    let m := packetMouse w.screen s.video.mouse (s.pp.bytes 0) (s.pp.bytes 1) (s.pp.bytes 2)
    (handlePacket w picture s).counter = 0 ∧ (handlePacket w picture s).video.mouse = m ∧
      (handlePacket w picture s).screenState =
        if s.pp.bytes 0 &&& 0x01 = 0 then s.screenState else buttonAt m s.screenState := by
  refine ⟨rfl, rfl, ?_⟩
  rw [handlePacket]
  simp only [clickedScreen_eq, mouseMovement_mouse, parseMouseBytes, drawPicture, packetMouse]
  by_cases hb : s.pp.bytes 0 &&& 0x01 = 0
  · simp only [hb, bne_self_eq_false, Bool.false_eq_true, ↓reduceIte]
  · have hlb : (s.pp.bytes 0 &&& 0x01 != 0) = true := by simpa using hb
    simp only [hlb, hb, ↓reduceIte]

section Packet

variable {w : World} {s : Main}

/-- A byte that opens or continues a packet is stored, and the menu waits again. -/
private theorem step_stores (hflags : FlagsOk s) (hs : IsMenu s.screenState) {b : UInt8}
    (hopen : s.counter = 0 → b &&& 0x08 ≠ 0) (hmore : s.counter + 1 ≠ 3) :
    (step w s (mouseByte b)).1 =
      { s with
        pp := { s.pp with bytes := Function.update s.pp.bytes s.counter.toNat b }
        counter := s.counter + 1
        byteFromMouse := b } := by
  have haccept : MouseAccepts 0x21 := by decide
  have hskip : ¬ (s.counter = 0 ∧ b &&& 0x08 = 0) := fun h => hopen h.1 h.2
  have hhandle : (handle w s (mouseByte b)).1 =
      { s with
        pp := { s.pp with bytes := Function.update s.pp.bytes s.counter.toNat b }
        counter := s.counter + 1
        byteFromMouse := b } := by
    rw [mouseByte, handle_menu_picture hs]
    simp only [menuBranch, mouse_mouseByte, ↓reduceIte, mouseIh, haccept, storeMouseByte, hskip, hmore]
  rw [step_fst, enter_stay hflags (by rw [hhandle]), hhandle]

/-- The third byte completes a packet. -/
private theorem handle_completes (hs : IsMenu s.screenState) (h2 : s.counter = 2) (b : UInt8) :
    (handle w s (mouseByte b)).1 = handlePacket w (packetPicture s.screenState)
      { s with
        pp := { s.pp with bytes := Function.update s.pp.bytes 2 b }
        counter := 3
        byteFromMouse := b } := by
  have haccept : MouseAccepts 0x21 := by decide
  have h3 : (2 : UInt8) + 1 = 3 := rfl
  have h0 : ¬ (2 : UInt8) = 0 := by decide
  rw [mouseByte, handle_menu_picture hs]
  simp only [menuBranch, mouse_mouseByte, ↓reduceIte, mouseIh, haccept, storeMouseByte, h2, h0, false_and, h3]
  rfl

/-- The first two bytes of a packet are kept for the third. -/
private theorem Between.opened {x : ScreenState} {m : MousePos} (h : Between x m s) {b₀ : UInt8}
    (hopen : b₀ &&& 0x08 ≠ 0) (b₁ : UInt8) :
    let s₂ := (step w (step w s (mouseByte b₀)).1 (mouseByte b₁)).1
    FlagsOk s₂ ∧ s₂.screenState = x ∧ s₂.counter = 2 ∧ s₂.video.mouse = m ∧
      s₂.pp.bytes = Function.update (Function.update s.pp.bytes 0 b₀) 1 b₁ := by
  obtain ⟨hflags, hmenu, hs, hcounter, hmouse⟩ := h
  have hmenu' : IsMenu s.screenState := hs ▸ hmenu
  have hfirst := step_stores (w := w) hflags hmenu' (b := b₀) (fun _ => hopen) (by rw [hcounter]; decide)
  have hflags₁ := hflags.step (w := w) (mouseByte b₀)
  generalize (step w s (mouseByte b₀)).1 = s₁ at hfirst hflags₁
  have hcounter₁ : s₁.counter = 1 := by
    rw [hfirst, hcounter]
    rfl
  have hmenu₁ : IsMenu s₁.screenState := by
    rw [hfirst]
    exact hmenu'
  have hsecond := step_stores (w := w) hflags₁ hmenu₁ (b := b₁) (fun h0 => absurd (hcounter₁.symm.trans h0) (by decide))
    (by rw [hcounter₁]; decide)
  refine ⟨hflags₁.step (w := w) (mouseByte b₁), ?_, ?_, ?_, ?_⟩
  · rw [hsecond, hfirst]
    exact hs
  · rw [hsecond, hcounter₁]
    rfl
  · rw [hsecond, hfirst]
    exact hmouse
  · rw [hsecond, hcounter₁, hfirst, hcounter]
    rfl

/-- A whole packet is read from three notifications: the third byte moves the cursor and may click. -/
theorem Between.packet {x : ScreenState} {m : MousePos} (h : Between x m s) {b₀ : UInt8} (hopen : b₀ &&& 0x08 ≠ 0)
    (b₁ b₂ : UInt8) :
    let s' := run (fun s r => (step w s r).1) s (packetBytes b₀ b₁ b₂)
    let x' := if b₀ &&& 0x01 = 0 then x else buttonAt (packetMouse w.screen m b₀ b₁ b₂) x
    s'.screenState = x' ∧ (x' = x → Between x (packetMouse w.screen m b₀ b₁ b₂) s') := by
  intro s' x'
  obtain ⟨hflags₂, hscreen₂, hcounter₂, hmouse₂, hbytes⟩ := h.opened (w := w) hopen b₁
  have hs' : s' = (step w (step w (step w s (mouseByte b₀)).1 (mouseByte b₁)).1 (mouseByte b₂)).1 := by
    simp only [s', packetBytes, run_cons, run_nil]
  generalize (step w (step w s (mouseByte b₀)).1 (mouseByte b₁)).1 = s₂ at *
  have hthird := handle_completes (w := w) (hscreen₂ ▸ h.menu) hcounter₂ b₂
  have hspec := handlePacket_spec w (packetPicture s₂.screenState)
    { s₂ with
      pp := { s₂.pp with bytes := Function.update s₂.pp.bytes 2 b₂ }
      counter := 3
      byteFromMouse := b₂ }
  rw [← hthird, hbytes] at hspec
  simp only [hmouse₂, hscreen₂, Function.update_self, ne_eq, OfNat.zero_ne_ofNat, OfNat.one_ne_ofNat, zero_ne_one,
    not_false_eq_true, Function.update_of_ne] at hspec
  obtain ⟨hzero, hmoved, hclicked⟩ := hspec
  change _ = x' at hclicked
  rw [hs', step_screenState, hclicked]
  refine ⟨rfl, fun hx => ?_⟩
  have hstay : (handle w s₂ (mouseByte b₂)).1.screenState = s₂.screenState := by rw [hclicked, hx, hscreen₂]
  have hkeep : (step w s₂ (mouseByte b₂)).1 = (handle w s₂ (mouseByte b₂)).1 := by
    rw [step_fst, enter_stay hflags₂ hstay]
  refine ⟨hflags₂.step _, h.menu, ?_, ?_, ?_⟩
  · rw [hkeep, hclicked, hx]
  · rw [hkeep, hzero]
  · rw [hkeep, hmoved]

end Packet

/-! ### Towards a point -/

private theorem clampAxis_of_inside {res : UInt32} (hres : 60 ≤ res.toNat ∧ res.toNat < 2 ^ 16) {k : UInt16}
    (h : 30 ≤ k.toNat ∧ k.toNat ≤ res.toNat - 30) : clampAxis res k = k := by
  apply UInt16.toNat_inj.1
  rw [clampAxis_toNat hres]
  omega

/-- Inside the margins a coordinate stays where it is without a displacement. -/
private theorem clampAxis_rest {res : UInt32} (hres : 60 ≤ res.toNat ∧ res.toNat < 2 ^ 16) {k : UInt16}
    (h : 30 ≤ k.toNat ∧ k.toNat ≤ res.toNat - 30) :
    clampAxis res (k + UInt16.ofInt 0) = k ∧ clampAxis res (k - UInt16.ofInt 0) = k := by
  have hadd : k + UInt16.ofInt 0 = k := UInt16.add_zero k
  have hsub : k - UInt16.ofInt 0 = k := UInt16.sub_zero k
  rw [hadd, hsub]
  exact ⟨clampAxis_of_inside hres h, clampAxis_of_inside hres h⟩

/-- Inside the margins one pixel more or less brings a coordinate closer to another one. -/
private theorem clampAxis_toward {res : UInt32} (hres : 60 ≤ res.toNat ∧ res.toNat < 2 ^ 16) {k t : UInt16}
    (hk : 30 ≤ k.toNat ∧ k.toNat ≤ res.toNat - 30) (ht : 30 ≤ t.toNat ∧ t.toNat ≤ res.toNat - 30) (hne : k ≠ t) :
    ∃ d : Int, (d = 1 ∨ d = -1) ∧
      let k' := clampAxis res (k + UInt16.ofInt d)
      (30 ≤ k'.toNat ∧ k'.toNat ≤ res.toNat - 30) ∧
        ((k'.toNat : Int) - t.toNat).natAbs < ((k.toNat : Int) - t.toNat).natAbs := by
  have hsum : ∀ d : Int, ((clampAxis res (k + UInt16.ofInt d)).toNat : Int) =
      min (max (((k.toNat : Int) + d) % 65536) 30) ((res.toNat : Int) - 30) := by
    intro d
    rw [clampAxis_toNat hres, ← toNat_add_ofInt]
    omega
  have hne' : k.toNat ≠ t.toNat := mt UInt16.toNat_inj.1 hne
  rcases Nat.lt_or_gt_of_ne hne' with hlt | hgt
  · have hone := hsum 1
    exact ⟨1, Or.inl rfl, by simp only; omega⟩
  · have hone := hsum (-1)
    exact ⟨-1, Or.inr rfl, by simp only; omega⟩

/-- Every displacement of one pixel can be sent, without a button. -/
private theorem exists_packet {dx dy : Int} (hdx : dx = 0 ∨ dx = 1 ∨ dx = -1) (hdy : dy = 0 ∨ dy = 1 ∨ dy = -1) :
    ∃ b₀ b₁ b₂ : UInt8, b₀ &&& 0x08 ≠ 0 ∧ b₀ &&& 0x01 = 0 ∧ ∀ (scr : Screen) (m : MousePos),
      packetMouse scr m b₀ b₁ b₂ =
        ⟨clampAxis scr.hRes (m.x + UInt16.ofInt dx), clampAxis scr.vRes (m.y - UInt16.ofInt dy)⟩ := by
  rcases hdx with rfl | rfl | rfl <;> rcases hdy with rfl | rfl | rfl
  · exact ⟨0x08, 0, 0, by decide, by decide, fun _ _ => rfl⟩
  · exact ⟨0x08, 0, 1, by decide, by decide, fun _ _ => rfl⟩
  · exact ⟨0x28, 0, 255, by decide, by decide, fun _ _ => rfl⟩
  · exact ⟨0x08, 1, 0, by decide, by decide, fun _ _ => rfl⟩
  · exact ⟨0x08, 1, 1, by decide, by decide, fun _ _ => rfl⟩
  · exact ⟨0x28, 1, 255, by decide, by decide, fun _ _ => rfl⟩
  · exact ⟨0x18, 255, 0, by decide, by decide, fun _ _ => rfl⟩
  · exact ⟨0x18, 255, 1, by decide, by decide, fun _ _ => rfl⟩
  · exact ⟨0x38, 255, 255, by decide, by decide, fun _ _ => rfl⟩

/-- How far two positions are apart. -/
def mouseDistance (m m' : MousePos) : Nat :=
  ((m.x.toNat : Int) - m'.x.toNat).natAbs + ((m.y.toNat : Int) - m'.y.toNat).natAbs

/-- As long as the cursor is not at the target, some packet without a button brings it closer. -/
private theorem exists_nudge {scr : Screen} (hh : 60 ≤ scr.hRes.toNat) (hv : 60 ≤ scr.vRes.toNat) {m target : MousePos}
    (hm : InMargins scr m) (ht : InMargins scr target) (hne : m ≠ target) :
    ∃ b₀ b₁ b₂ : UInt8, b₀ &&& 0x08 ≠ 0 ∧ b₀ &&& 0x01 = 0 ∧ InMargins scr (packetMouse scr m b₀ b₁ b₂) ∧
      mouseDistance (packetMouse scr m b₀ b₁ b₂) target < mouseDistance m target := by
  have hhres : 60 ≤ scr.hRes.toNat ∧ scr.hRes.toNat < 2 ^ 16 := ⟨hh, scr.hRes_lt⟩
  have hvres : 60 ≤ scr.vRes.toNat ∧ scr.vRes.toNat < 2 ^ 16 := ⟨hv, scr.vRes_lt⟩
  have hkeepx := (clampAxis_rest hhres ⟨hm.left, hm.right⟩).1
  have hkeepy := (clampAxis_rest hvres ⟨hm.top, hm.bottom⟩).2
  by_cases hx : m.x = target.x
  · have hy : m.y ≠ target.y := by
      intro hy
      apply hne
      cases m
      cases target
      exact congrArg₂ MousePos.mk hx hy
    obtain ⟨d, hd, hinside, hcloser⟩ := clampAxis_toward hvres ⟨hm.top, hm.bottom⟩ ⟨ht.top, ht.bottom⟩ hy
    obtain ⟨b₀, b₁, b₂, hopen, hbutton, hpacket⟩ := @exists_packet 0 (-d) (by omega) (by omega)
    have hminus : m.y - UInt16.ofInt (-d) = m.y + UInt16.ofInt d := by
      have hsub := toNat_sub_ofInt m.y (-d)
      have hadd := toNat_add_ofInt m.y d
      rw [sub_neg_eq_add, ← hadd] at hsub
      exact UInt16.toNat_inj.1 (Int.ofNat.inj hsub)
    refine ⟨b₀, b₁, b₂, hopen, hbutton, ?_, ?_⟩ <;> rw [hpacket, hkeepx, hminus]
    · exact ⟨hm.left, hm.right, hinside.1, hinside.2⟩
    · exact Nat.add_lt_add_left hcloser _
  · obtain ⟨d, hd, hinside, hcloser⟩ := clampAxis_toward hhres ⟨hm.left, hm.right⟩ ⟨ht.left, ht.right⟩ hx
    obtain ⟨b₀, b₁, b₂, hopen, hbutton, hpacket⟩ := @exists_packet d 0 (by omega) (by omega)
    refine ⟨b₀, b₁, b₂, hopen, hbutton, ?_, ?_⟩ <;> rw [hpacket, hkeepy]
    · exact ⟨hinside.1, hinside.2, hm.top, hm.bottom⟩
    · exact Nat.add_lt_add_right hcloser _

/-- In a menu between two packets there are packets that bring the cursor to any point within the margins. -/
theorem Between.path {w : World} (hh : 60 ≤ w.screen.hRes.toNat) (hv : 60 ≤ w.screen.vRes.toNat) {x : ScreenState}
    {m target : MousePos} {s : Main} (h : Between x m s) (hm : InMargins w.screen m) (ht : InMargins w.screen target) :
    ∃ packets, (∀ packet ∈ packets, OnlyMoves packet) ∧
      Between x target (run (fun s r => (step w s r).1) s (packetsBytes packets)) := by
  induction hn : mouseDistance m target using Nat.strong_induction_on generalizing m s with
  | _ n ih =>
    by_cases hne : m = target
    · exact ⟨[], by simp, hne ▸ h⟩
    · obtain ⟨b₀, b₁, b₂, hopen, hbutton, hinside, hcloser⟩ := exists_nudge hh hv hm ht hne
      have hpacket := (h.packet (w := w) hopen b₁ b₂).2
      rw [if_pos hbutton] at hpacket
      obtain ⟨packets, hmoves, hpath⟩ := ih _ (hn ▸ hcloser) (hpacket rfl) hinside rfl
      refine ⟨(b₀, b₁, b₂) :: packets, List.forall_mem_cons.2 ⟨⟨hopen, hbutton⟩, hmoves⟩, ?_⟩
      rw [packetsBytes, List.flatMap_cons, run_append]
      exact hpath

/-- A packet without a displacement leaves the cursor where it is. -/
private theorem packetMouse_rest {scr : Screen} (hh : 60 ≤ scr.hRes.toNat) (hv : 60 ≤ scr.vRes.toNat) {m : MousePos}
    (hm : InMargins scr m) : packetMouse scr m 0x09 0 0 = m := by
  have hx := (clampAxis_rest ⟨hh, scr.hRes_lt⟩ ⟨hm.left, hm.right⟩).1
  have hy := (clampAxis_rest ⟨hv, scr.vRes_lt⟩ ⟨hm.top, hm.bottom⟩).2
  show (⟨clampAxis scr.hRes (m.x + UInt16.ofInt 0), clampAxis scr.vRes (m.y - UInt16.ofInt 0)⟩ : MousePos) = m
  rw [hx, hy]

/-- The menu `x` can be clicked at the target after the receives `rs`: some packets that click nowhere bring the cursor
there, the menu waits for the next packet, and with one that presses the left button the screen is what the buttons
say. -/
def CanClick (w : World) (rs : List Receive) (x : ScreenState) (target : MousePos) : Prop :=
  ∃ packets, (∀ packet ∈ packets, OnlyMoves packet) ∧
    let moved := rs ++ packetsBytes packets
    (mainRun w moved).screenState = x ∧ (mainRun w moved).counter = 0 ∧ (mainRun w moved).video.mouse = target ∧
      (mainRun w (moved ++ packetBytes 0x09 0 0)).screenState = buttonAt target x

/-- In any run, a menu that waits for the first byte of a packet can be clicked at every point within the margins. -/
theorem click_reachable {w : World} (hh : 60 ≤ w.screen.hRes.toNat) (hv : 60 ≤ w.screen.vRes.toNat) {rs : List Receive}
    (hmenu : IsMenu (mainRun w rs).screenState) (hcounter : (mainRun w rs).counter = 0) {target : MousePos}
    (ht : InMargins w.screen target) : CanClick w rs (mainRun w rs).screenState target := by
  have hstart : Between (mainRun w rs).screenState (mainRun w rs).video.mouse (mainRun w rs) :=
    ⟨flagsOk_mainRun w rs, hmenu, rfl, hcounter, rfl⟩
  -- a packet without a displacement brings the cursor into the margins, wherever it is
  have hrest := (hstart.packet (w := w) (show (0x08 : UInt8) &&& 0x08 ≠ 0 by decide) 0 0).2 rfl
  have hmargins : InMargins w.screen (packetMouse w.screen (mainRun w rs).video.mouse 0x08 0 0) :=
    inMargins_mouseMovement hh hv (w.image loadImages.cursor) (UInt16.ofInt 0) (UInt16.ofInt 0) (mainRun w rs).video
  obtain ⟨packets, hmoves, hpath⟩ := hrest.path hh hv hmargins ht
  have hmoved : mainRun w (rs ++ packetsBytes ((0x08, 0, 0) :: packets)) =
      run (fun s r => (step w s r).1) (run (fun s r => (step w s r).1) (mainRun w rs) (packetBytes 0x08 0 0))
        (packetsBytes packets) := by
    rw [packetsBytes, List.flatMap_cons, mainRun, run_append, run_append]
    rfl
  rw [← hmoved] at hpath
  have hclick := (hpath.packet (w := w) (show (0x09 : UInt8) &&& 0x08 ≠ 0 by decide) 0 0).1
  rw [packetMouse_rest hh hv ht] at hclick
  refine ⟨(0x08, 0, 0) :: packets, List.forall_mem_cons.2 ⟨⟨by decide, by decide⟩, hmoves⟩, hpath.screenState,
    hpath.counter, hpath.mouse, ?_⟩
  rw [mainRun, run_append, ← mainRun]
  exact hclick

/-- From the main menu of the mode `0x115` the program can be quit. -/
theorem click_reachable_quit : CanClick (world115 0x12) [] .main ⟨400, 420⟩ ∧ buttonAt ⟨400, 420⟩ .main = .quit := by
  have hmain : (mainRun (world115 0x12) []).screenState = .main := by decide +kernel
  have h := @click_reachable (world115 0x12) (by decide) (by decide) [] (by rw [hmain]; decide) (by decide +kernel)
    ⟨400, 420⟩ ⟨by decide, by decide, by decide, by decide⟩
  rw [hmain] at h
  exact ⟨h, by decide⟩

end LabChase
