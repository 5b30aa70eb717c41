import LabChase.Library.Streams
import LabChase.Proj.Screens

/-!
# Packets from mouse bytes

The lines that put mouse bytes together to packets are copied in every loop that reads the mouse, and they look at a
global that `mouse_ih` leaves alone when it rejects a byte.  `Assembly` is what they work on.  It frames what the global
holds after every interrupt (`Assembly.Holds.run`), which is framing the accepted bytes exactly if every rejected
interrupt finds no packet open and a byte without bit 3 in the global (`discardsRejected_iff`).
-/

namespace LabChase

open Runs Streams

/-- A byte opens a packet. -/
def OpensPacket (byte : UInt8) : Prop := byte &&& 0x08 ≠ 0

instance : DecidablePred OpensPacket := fun byte => inferInstanceAs (Decidable (byte &&& 0x08 ≠ 0))

/-- The bytes of the packet, the index of the next one, and the global that `mouse_ih` writes. -/
structure Assembly where
  bytes : Nat → UInt8
  counter : UInt8
  byteFromMouse : UInt8

namespace Assembly

/-- A mouse interrupt, whose byte may be rejected, and the packet it completes. -/
def interrupt (m : Assembly) (a : Option UInt8) : Assembly × List (List UInt8) :=
  let byte := a.getD m.byteFromMouse
  let bytes := Function.update m.bytes m.counter.toNat byte
  if m.counter = 0 ∧ ¬ OpensPacket byte then ({ m with byteFromMouse := byte }, [])
  else if m.counter = 2 then (⟨bytes, 0, byte⟩, [[bytes 0, bytes 1, bytes 2]])
  else (⟨bytes, m.counter + 1, byte⟩, [])

/-- The packet that is being assembled is an open frame. -/
structure Holds (m : Assembly) (frame : List UInt8) : Prop where
  length : frame.length < 3
  counter : m.counter = UInt8.ofNat frame.length
  bytes : ∀ i, (h : i < frame.length) → m.bytes i = frame[i]

private theorem Holds.counter_eq_zero {m : Assembly} {frame : List UInt8} (h : m.Holds frame) :
    m.counter = 0 ↔ frame.length = 0 := by
  have hlen := h.length
  rw [h.counter, ← UInt8.toNat_inj, UInt8.toNat_ofNat']
  simp only [UInt8.toNat_zero]
  omega

private theorem Holds.counter_eq_two {m : Assembly} {frame : List UInt8} (h : m.Holds frame) :
    m.counter = 2 ↔ frame.length + 1 = 3 := by
  have hlen := h.length
  rw [h.counter, ← UInt8.toNat_inj, UInt8.toNat_ofNat']
  simp only [UInt8.reduceToNat]
  omega

/-- The byte is stored behind those of the open frame. -/
theorem Holds.update {m : Assembly} {frame : List UInt8} (h : m.Holds frame) (byte : UInt8) :
    ∀ i, (hi : i < (frame ++ [byte]).length) →
      Function.update m.bytes m.counter.toNat byte i = (frame ++ [byte])[i] := by
  have hlen := h.length
  have hcounter : m.counter.toNat = frame.length := by
    rw [h.counter, UInt8.toNat_ofNat']
    omega
  intro i hi
  rw [List.length_append, List.length_singleton] at hi
  by_cases hlast : i = frame.length
  · subst hlast
    rw [hcounter, Function.update_self, List.getElem_concat_length rfl]
  · rw [hcounter, Function.update_of_ne hlast, List.getElem_append_left (by omega)]
    exact h.bytes i (by omega)

private theorem holds_nil {m : Assembly} (h : m.counter = 0) : m.Holds [] where
  length := Nat.zero_lt_succ 2
  counter := h
  bytes := fun i hi => absurd hi (Nat.not_lt_zero i)

theorem interrupt_skip {m : Assembly} {a : Option UInt8} (hcounter : m.counter = 0)
    (hbyte : ¬ OpensPacket (a.getD m.byteFromMouse)) :
    m.interrupt a = ({ m with byteFromMouse := a.getD m.byteFromMouse }, []) := if_pos ⟨hcounter, hbyte⟩

theorem interrupt_complete {m : Assembly} (hcounter : m.counter = 2) (a : Option UInt8) :
    let byte := a.getD m.byteFromMouse
    let bytes := Function.update m.bytes 2 byte
    m.interrupt a = (⟨bytes, 0, byte⟩, [[bytes 0, bytes 1, bytes 2]]) := by
  obtain ⟨bytes, counter, byteFromMouse⟩ := m
  obtain rfl : counter = 2 := hcounter
  rfl

theorem interrupt_continue {m : Assembly} {a : Option UInt8}
    (hopen : ¬ (m.counter = 0 ∧ ¬ OpensPacket (a.getD m.byteFromMouse))) (hcounter : ¬ m.counter = 2) :
    m.interrupt a =
      (⟨Function.update m.bytes m.counter.toNat (a.getD m.byteFromMouse), m.counter + 1, a.getD m.byteFromMouse⟩,
        []) := by
  rw [interrupt]
  exact (if_neg hopen).trans (if_neg hcounter)

/-- An interrupt frames one more value of the global. -/
theorem Holds.interrupt {m : Assembly} {frame : List UInt8} (h : m.Holds frame) (a : Option UInt8) :
    let byte := a.getD m.byteFromMouse
    (m.interrupt a).1.Holds (push OpensPacket 3 frame byte).1 ∧ (m.interrupt a).1.byteFromMouse = byte ∧
      (m.interrupt a).2 = (push OpensPacket 3 frame byte).2 := by
  intro byte
  have hlen := h.length
  have hupdate := h.update byte
  by_cases hskip : m.counter = 0 ∧ ¬ OpensPacket byte
  · have hpush : push OpensPacket 3 frame byte = (frame, []) := push_skip (h.counter_eq_zero.1 hskip.1) hskip.2
    rw [hpush, interrupt_skip hskip.1 hskip.2]
    exact ⟨⟨h.length, h.counter, h.bytes⟩, rfl, rfl⟩
  · have hnot : ¬ (frame.length = 0 ∧ ¬ OpensPacket byte) := by rwa [← h.counter_eq_zero]
    by_cases hlast : m.counter = 2
    · have hthree := h.counter_eq_two.1 hlast
      have hpush : push OpensPacket 3 frame byte = ([], [frame ++ [byte]]) := by
        rw [push, if_neg hnot, if_pos hthree]
      rw [hpush, interrupt_complete hlast]
      refine ⟨holds_nil rfl, rfl, ?_⟩
      obtain ⟨b0, b1, rfl⟩ := List.length_eq_two.1 (Nat.succ_injective hthree)
      have h0 : m.bytes 0 = b0 := h.bytes 0 (by simp)
      have h1 : m.bytes 1 = b1 := h.bytes 1 (by simp)
      simp [Function.update, h0, h1, byte]
    · have hthree : ¬ frame.length + 1 = 3 := by rwa [← h.counter_eq_two]
      have hpush : push OpensPacket 3 frame byte = (frame ++ [byte], []) := by
        rw [push, if_neg hnot, if_neg hthree]
      rw [hpush, interrupt_continue hskip hlast]
      refine ⟨⟨?_, ?_, hupdate⟩, rfl, rfl⟩
      · rw [List.length_append, List.length_singleton]
        omega
      · show m.counter + 1 = _
        rw [h.counter, List.length_append, List.length_singleton, UInt8.ofNat_add]
        rfl

/-- The packets are the frames of what the global holds after each interrupt. -/
theorem Holds.run {m : Assembly} {frame : List UInt8} (h : m.Holds frame) (as : List (Option UInt8)) :
    outputs Assembly.interrupt m as = outputs (push OpensPacket 3) frame (held m.byteFromMouse as) ∧
      (Runs.run (fun m a => (Assembly.interrupt m a).1) m as).Holds
        (Runs.run (fun frame byte => (push OpensPacket 3 frame byte).1) frame (held m.byteFromMouse as)) ∧
      (Runs.run (fun m a => (Assembly.interrupt m a).1) m as).byteFromMouse = register m.byteFromMouse as := by
  induction as generalizing m frame with
  | nil => exact ⟨rfl, h, rfl⟩
  | cons a as ih =>
    obtain ⟨hnext, hbyte, hout⟩ := h.interrupt a
    obtain ⟨houts, hrun, hlast⟩ := ih hnext
    rw [hbyte] at houts hrun hlast
    rw [outputs, held, outputs, hout, houts]
    exact ⟨rfl, hrun, hlast⟩

end Assembly

/-! ### A program that reads the mouse -/

section DiscardsRejected

variable {σ ω : Type*}

/-- A program that assembles packets at the mouse interrupts it handles: `hears` says which these are and what byte
each delivers, `packet` which outputs are packets. -/
structure AssemblesPackets (step : σ → Receive → σ × List ω) (hears : σ → Receive → Option (Option UInt8))
    (assembly : σ → Assembly) (packet : ω → Option (List UInt8)) : Prop where
  idle : ∀ s r, hears s r = none → assembly (step s r).1 = assembly s ∧ (step s r).2.filterMap packet = []
  interrupt : ∀ s r a, hears s r = some a →
    assembly (step s r).1 = ((assembly s).interrupt a).1 ∧
      (step s r).2.filterMap packet = ((assembly s).interrupt a).2

/-- The packets are the frames of the accepted bytes, and an interrupt whose byte is rejected leaves the packet that is
being assembled alone. -/
structure DiscardsRejected (step : σ → Receive → σ × List ω) (hears : σ → Receive → Option (Option UInt8))
    (assembly : σ → Assembly) (packet : ω → Option (List UInt8)) (s : σ) (rs : List Receive) : Prop where
  packets : (outputs step s rs).filterMap packet =
    frames OpensPacket 3 (heard (fun s r => (step s r).1) hears s rs).reduceOption
  rejected : ∀ pre r, pre ++ [r] <+: rs → hears (run (fun s r => (step s r).1) s pre) r = some none →
    (assembly (run (fun s r => (step s r).1) s (pre ++ [r]))).counter =
        (assembly (run (fun s r => (step s r).1) s pre)).counter ∧
      (assembly (run (fun s r => (step s r).1) s (pre ++ [r]))).bytes =
        (assembly (run (fun s r => (step s r).1) s pre)).bytes

variable {step : σ → Receive → σ × List ω} {hears : σ → Receive → Option (Option UInt8)} {assembly : σ → Assembly}
  {packet : ω → Option (List UInt8)}

theorem AssemblesPackets.run (h : AssemblesPackets step hears assembly packet) (s : σ) (rs : List Receive) :
    assembly (Runs.run (fun s r => (step s r).1) s rs) =
        Runs.run (fun m a => (Assembly.interrupt m a).1) (assembly s) (heard (fun s r => (step s r).1) hears s rs) ∧
      (outputs step s rs).filterMap packet =
        outputs Assembly.interrupt (assembly s) (heard (fun s r => (step s r).1) hears s rs) := by
  induction rs generalizing s with
  | nil => exact ⟨rfl, rfl⟩
  | cons r rs ih =>
    obtain ⟨hrun, hout⟩ := ih (step s r).1
    rw [run_cons, outputs, List.filterMap_append, heard, hrun, hout]
    cases hr : hears s r with
    | none =>
      obtain ⟨hsame, hnone⟩ := h.idle s r hr
      rw [hsame, hnone, Option.toList_none, List.nil_append, List.nil_append]
      exact ⟨rfl, rfl⟩
    | some a =>
      obtain ⟨hnext, hsome⟩ := h.interrupt s r a hr
      rw [hnext, hsome, Option.toList_some, List.singleton_append, run_cons, outputs]
      exact ⟨rfl, rfl⟩

/-- The program frames what the global holds after each interrupt it handles. -/
theorem AssemblesPackets.framing (h : AssemblesPackets step hears assembly packet) {s : σ}
    (hs : (assembly s).counter = 0) (rs : List Receive) :
    let as := heard (fun s r => (step s r).1) hears s rs
    let last := assembly (Runs.run (fun s r => (step s r).1) s rs)
    (outputs step s rs).filterMap packet = frames OpensPacket 3 (held (assembly s).byteFromMouse as) ∧
      last.Holds (openFrame OpensPacket 3 (held (assembly s).byteFromMouse as)) ∧
      last.byteFromMouse = register (assembly s).byteFromMouse as := by
  intro as last
  obtain ⟨hlast, hout⟩ := h.run s rs
  rw [hout, show last = _ from hlast]
  exact (Assembly.holds_nil hs).run as

/-- A rejected interrupt that leaves the counter alone skips the byte that the global holds. -/
theorem AssemblesPackets.quiet (h : AssemblesPackets step hears assembly packet) {s : σ}
    (hs : (assembly s).counter = 0) {rs : List Receive}
    (hrejected : ∀ pre r, pre ++ [r] <+: rs → hears (Runs.run (fun s r => (step s r).1) s pre) r = some none →
      (assembly (Runs.run (fun s r => (step s r).1) s (pre ++ [r]))).counter =
        (assembly (Runs.run (fun s r => (step s r).1) s pre)).counter) :
    Quiet OpensPacket 3 (assembly s).byteFromMouse (heard (fun s r => (step s r).1) hears s rs) := by
  apply (quiet_iff_length (by omega) _ _).2
  intro ks hks
  obtain ⟨pre, r, hpre, rfl, hr⟩ := exists_heard hks
  -- the counter is the length of the open frame of what the global holds
  have hbefore := (h.framing hs pre).2.1
  have hafter := (h.framing hs (pre ++ [r])).2.1
  rw [heard_concat hr] at hafter
  have hsame := hrejected pre r hpre hr
  rw [hbefore.counter, hafter.counter, ← UInt8.toNat_inj, UInt8.toNat_ofNat', UInt8.toNat_ofNat'] at hsame
  have hlen := hbefore.length
  have hlen' := hafter.length
  omega

/-- A rejected interrupt that finds no packet open, and a byte in the global that opens none, changes nothing. -/
theorem AssemblesPackets.skipped (h : AssemblesPackets step hears assembly packet) {s : σ}
    (hs : (assembly s).counter = 0) {rs : List Receive}
    (hquiet : Quiet OpensPacket 3 (assembly s).byteFromMouse (heard (fun s r => (step s r).1) hears s rs))
    {pre : List Receive} {r : Receive} (hpre : pre ++ [r] <+: rs)
    (hr : hears (Runs.run (fun s r => (step s r).1) s pre) r = some none) :
    let before := assembly (Runs.run (fun s r => (step s r).1) s pre)
    let after := assembly (Runs.run (fun s r => (step s r).1) s (pre ++ [r]))
    after.counter = before.counter ∧ after.bytes = before.bytes := by
  intro before after
  have hks : heard (fun s r => (step s r).1) hears s pre ++ [none] <+: heard (fun s r => (step s r).1) hears s rs := by
    rw [← heard_concat hr]
    exact heard_mono s hpre
  obtain ⟨hnil, hbyte⟩ := hquiet _ hks
  obtain ⟨-, hholds, hglobal⟩ := h.framing hs pre
  have hopen := (openFrame_held hquiet _ ((List.prefix_append ..).trans hks)).1
  rw [hopen, hnil] at hholds
  have hafter : after = (before.interrupt none).1 := by
    rw [← (h.interrupt _ r none hr).1]
    simp only [after, run_concat]
  rw [hafter, Assembly.interrupt_skip hholds.counter (by rwa [Option.getD_none, hglobal])]
  exact ⟨rfl, rfl⟩

/-- Rejected bytes stay out of the packets exactly if every rejected interrupt arrives while no packet is open and the
byte accepted last does not open one. -/
theorem discardsRejected_iff (h : AssemblesPackets step hears assembly packet) {s : σ}
    (hs : (assembly s).counter = 0) (rs : List Receive) :
    DiscardsRejected step hears assembly packet s rs ↔
      Quiet OpensPacket 3 (assembly s).byteFromMouse (heard (fun s r => (step s r).1) hears s rs) := by
  constructor
  · intro hdiscards
    exact h.quiet hs fun pre r hpre hr => (hdiscards.rejected pre r hpre hr).1
  · intro hquiet
    constructor
    · rw [(h.framing hs rs).1, frames_held hquiet]
    · intro pre r hpre hr
      exact h.skipped hs hquiet hpre hr

end DiscardsRejected

/-! ### The menus -/

/-- The byte of an interrupt, if `mouse_ih` accepts it. -/
def acceptedMouseByte (n : Notification) : Option UInt8 := if MouseAccepts n.status then some n.data else none

/-- The mouse interrupts that a menu handles. -/
def menuHears (s : Main) : Receive → Option (Option UInt8)
  | .failed => none
  | .other => none
  | .hardware n => if IsMenu s.screenState ∧ n.mouse then some (acceptedMouseByte n) else none

def Main.assembly (s : Main) : Assembly := ⟨s.pp.bytes, s.counter, s.byteFromMouse⟩

/-- The bytes given to `parse_mouse_bytes`. -/
def Action.packet : Action → Option (List UInt8)
  | .parseMouseBytes bytes => some bytes
  | _ => none

private theorem assembly_enter (w : World) (s : Main) : (enter w s).1.assembly = s.assembly := by
  have hmenu : ∀ picture, (enterMenu w picture s).1.assembly = s.assembly := by
    intro picture
    unfold enterMenu
    split <;> rfl
  have hnew : (enterNewGame w s).1.assembly = s.assembly := by
    unfold enterNewGame
    split <;> rfl
  have hresumed : ∀ t, (enterResumed w t).1.assembly = t.assembly := by
    intro t
    unfold enterResumed
    split <;> rfl
  cases hx : s.screenState <;> simp only [enter, hx]
  case main => exact hmenu _
  case goOne => exact hmenu _
  case goTwo => exact hmenu _
  case pause =>
    unfold enterPause
    split <;> rfl
  case sGame => exact (hresumed _).trans hnew
  case mGame => exact hnew

private theorem packet_enter (w : World) (s : Main) : (enter w s).2.filterMap Action.packet = [] := by
  refine List.filterMap_eq_nil_iff.2 fun a ha => ?_
  have hentry := enter_ofEntry w s a ha
  cases a with
  | parseMouseBytes bytes => exact absurd hentry id
  | _ => rfl

private theorem keyboardBranch_packet (w : World) (n : Notification) (s : Main) :
    (keyboardBranch w n s).1.assembly = s.assembly ∧ (keyboardBranch w n s).2.filterMap Action.packet = [] := by
  have hnext : ∀ t, (applyNextMove w t).assembly = t.assembly := by
    intro t
    unfold applyNextMove
    split <;> rfl
  unfold keyboardBranch
  split
  · rw [hnext, kbcIh_eq]
    exact ⟨rfl, rfl⟩
  · exact ⟨rfl, rfl⟩

private theorem timerBranch_packet (w : World) (n : Notification) (s : Main) :
    (timerBranch w n s).1.assembly = s.assembly ∧ (timerBranch w n s).2.filterMap Action.packet = [] := by
  simp only [timerBranch]
  split
  · split <;> exact ⟨rfl, rfl⟩
  · exact ⟨rfl, rfl⟩

private theorem storeMouseByte_assembly (n : Notification) (s : Main) :
    let t := storeMouseByte (mouseIh n.status n.data s)
    let byte := (acceptedMouseByte n).getD s.byteFromMouse
    t.assembly =
      if s.counter = 0 ∧ ¬ OpensPacket byte then ⟨s.pp.bytes, s.counter, byte⟩
      else ⟨Function.update s.pp.bytes s.counter.toNat byte, s.counter + 1, byte⟩ := by
  intro t byte
  have hih : mouseIh n.status n.data s = { s with byteFromMouse := byte } := by
    unfold mouseIh
    by_cases h : MouseAccepts n.status
    · simp only [h, ↓reduceIte, byte, acceptedMouseByte, Option.getD_some]
    · simp only [h, ↓reduceIte, byte, acceptedMouseByte, Option.getD_none]
  simp only [t, hih, storeMouseByte, OpensPacket, ne_eq, not_not]
  split <;> rfl

private theorem menuBranch_packet {n : Notification} (w : World) (picture : Option XpmMap) (h : n.mouse) (s : Main) :
    (menuBranch w picture n s).1.assembly = (s.assembly.interrupt (acceptedMouseByte n)).1 ∧
      (menuBranch w picture n s).2.filterMap Action.packet = (s.assembly.interrupt (acceptedMouseByte n)).2 := by
  have hstore := storeMouseByte_assembly n s
  simp only at hstore
  by_cases hskip : s.counter = 0 ∧ ¬ OpensPacket ((acceptedMouseByte n).getD s.byteFromMouse)
  · rw [if_pos hskip] at hstore
    have hcounter : (storeMouseByte (mouseIh n.status n.data s)).counter = s.counter := congrArg Assembly.counter hstore
    have h3 : ¬ s.counter = 3 := by
      rw [hskip.1]
      decide
    rw [Assembly.interrupt_skip hskip.1 hskip.2, menuBranch, if_pos h]
    simp only [hcounter, h3, ↓reduceIte]
    exact ⟨hstore, rfl⟩
  · rw [if_neg hskip] at hstore
    have hcounter : (storeMouseByte (mouseIh n.status n.data s)).counter = s.counter + 1 :=
      congrArg Assembly.counter hstore
    have hbytes : (storeMouseByte (mouseIh n.status n.data s)).pp.bytes = _ := congrArg Assembly.bytes hstore
    by_cases h2 : s.counter = 2
    · have h3 : s.counter + 1 = 3 := by
        rw [h2]
        rfl
      rw [Assembly.interrupt_complete h2, menuBranch, if_pos h]
      simp only [hcounter, h3, ↓reduceIte, hbytes]
      rw [h2] at hbytes ⊢
      have hafter : (handlePacket w picture (storeMouseByte (mouseIh n.status n.data s))).assembly =
          ⟨(storeMouseByte (mouseIh n.status n.data s)).pp.bytes, 0,
            (storeMouseByte (mouseIh n.status n.data s)).byteFromMouse⟩ := rfl
      have hbyte : (storeMouseByte (mouseIh n.status n.data s)).byteFromMouse = _ :=
        congrArg Assembly.byteFromMouse hstore
      rw [hafter, hbytes, hbyte]
      exact ⟨rfl, rfl⟩
    · have h3 : ¬ s.counter + 1 = 3 := by grind
      rw [Assembly.interrupt_continue hskip h2, menuBranch, if_pos h]
      simp only [hcounter, h3, ↓reduceIte]
      exact ⟨hstore, rfl⟩

private theorem menuBranch_idle {n : Notification} (w : World) (picture : Option XpmMap) (h : ¬ n.mouse) (s : Main) :
    menuBranch w picture n s = (s, []) := by
  simp only [menuBranch, h, Bool.false_eq_true, ↓reduceIte]

private theorem handle_menu {s : Main} (hs : IsMenu s.screenState) (w : World) (n : Notification) :
    ∃ picture, handle w s (.hardware n) = menuBranch w picture n s := by
  rcases hs with hx | hx | hx
  · exact ⟨loadImages.main, by simp only [handle, hx]⟩
  · exact ⟨loadImages.gameOver2, by simp only [handle, hx]⟩
  · exact ⟨loadImages.gameOver2, by simp only [handle, hx]⟩

/-- A notification that no menu handles leaves the packet alone. -/
private theorem handle_idle {s : Main} {r : Receive} (w : World) (h : menuHears s r = none) :
    (handle w s r).1.assembly = s.assembly ∧ (handle w s r).2.filterMap Action.packet = [] := by
  cases r with
  | failed => exact ⟨rfl, rfl⟩
  | other => exact ⟨rfl, rfl⟩
  | hardware n =>
    by_cases hs : IsMenu s.screenState
    · obtain ⟨picture, hhandle⟩ := handle_menu hs w n
      have hm : ¬ n.mouse := by
        intro hm
        simp [menuHears, hs, hm] at h
      rw [hhandle, menuBranch_idle w picture hm]
      exact ⟨rfl, rfl⟩
    · cases hx : s.screenState
      case main => exact absurd (Or.inl hx) hs
      case goOne => exact absurd (Or.inr (Or.inl hx)) hs
      case goTwo => exact absurd (Or.inr (Or.inr hx)) hs
      all_goals simp only [handle, hx]
      case pause => exact keyboardBranch_packet w n s
      case sGame =>
        obtain ⟨hassembly, hticked⟩ := timerBranch_packet w n s
        obtain ⟨hkey, hpressed⟩ := keyboardBranch_packet w n (timerBranch w n s).1
        rw [List.filterMap_append, hticked, hpressed]
        exact ⟨hkey.trans hassembly, rfl⟩
      case mGame => exact ⟨trivial, rfl⟩
      case quit => exact ⟨trivial, rfl⟩

theorem assemblesPackets_step (w : World) :
    AssemblesPackets (step w) menuHears Main.assembly Action.packet := by
  constructor
  · intro s r h
    obtain ⟨hstate, hout⟩ := handle_idle w h
    rw [step_fst, step_snd, assembly_enter, hstate, List.filterMap_append, hout, packet_enter]
    exact ⟨rfl, rfl⟩
  · intro s r a h
    rw [step_fst, step_snd, assembly_enter, List.filterMap_append, packet_enter, List.append_nil]
    cases r with
    | failed => cases h
    | other => cases h
    | hardware n =>
      rw [menuHears] at h
      split at h
      · next hmenu =>
        obtain ⟨hs, hm⟩ := hmenu
        obtain rfl := Option.some.inj h
        obtain ⟨picture, hhandle⟩ := handle_menu hs w n
        rw [hhandle]
        exact menuBranch_packet w picture hm s
      · cases h

end LabChase
