import LabChase.Lab4.Mouse
import LabChase.Proj.Packets
import Mathlib.Data.List.Forall2

/-!
# The packets of `mouse_test_packet`

The loops of the project's menus and of `mouse_test_packet` keep rejected bytes out of their packets under the same
condition (`discards_rejected_iff`).  Where every byte is accepted, `mouse_test_packet` shows the movements that were
encoded, leaves its loop with the last byte of the last one, and never stores a byte outside the packet
(`movements_round_trip`).
-/

namespace LabChase.Lab4

open Runs Loops Streams

/-! ### Rejected bytes -/

/-- The mouse interrupts that `mouse_test_packet` handles. -/
def mouseHears (_ : TestPacket) (r : Receive) : Option (Option UInt8) := (mousePair r).map acceptedByte

def TestPacket.assembly (s : TestPacket) : Assembly := ⟨s.mouse.pp.bytes, s.mouse.counter, s.mouse.byteFromMouse⟩

/-- The bytes of a packet that was parsed and printed. -/
def printedBytes (pp : Packet) : Option (List UInt8) := some [pp.bytes 0, pp.bytes 1, pp.bytes 2]

private theorem packetInterrupt_assembly (s : TestPacket) (p : UInt8 × UInt8) :
    (packetInterrupt s p).1.assembly = (s.assembly.interrupt (acceptedByte p)).1 ∧
      (packetInterrupt s p).2.filterMap printedBytes = (s.assembly.interrupt (acceptedByte p)).2 := by
  rcases mouseInterrupt_cases s.mouse p with ⟨hcounter, hbyte, heq⟩ | ⟨hskip, h2, heq⟩ | ⟨h2, heq⟩
  · have hopens : ¬ OpensPacket ((acceptedByte p).getD s.assembly.byteFromMouse) := not_not.2 hbyte
    rw [packetInterrupt, heq, Assembly.interrupt_skip hcounter hopens]
    exact ⟨rfl, rfl⟩
  · have hopen : ¬ (s.assembly.counter = 0 ∧ ¬ OpensPacket ((acceptedByte p).getD s.assembly.byteFromMouse)) :=
      fun h => hskip ⟨h.1, not_not.1 h.2⟩
    rw [packetInterrupt, heq, Assembly.interrupt_continue hopen h2]
    exact ⟨rfl, rfl⟩
  · rw [packetInterrupt, heq, Assembly.interrupt_complete h2, h2]
    exact ⟨rfl, rfl⟩

theorem assemblesPackets_packetBody :
    AssemblesPackets packetBody mouseHears TestPacket.assembly printedBytes := by
  rw [packetBody_eq]
  constructor
  · intro s r h
    rw [listen_none (Option.map_eq_none_iff.1 h)]
    exact ⟨rfl, rfl⟩
  · intro s r a h
    obtain ⟨p, hp, rfl⟩ := Option.map_eq_some_iff.1 h
    rw [listen_some hp]
    exact packetInterrupt_assembly s p

/-- In the menus and in `mouse_test_packet`, rejected bytes stay out of the packets exactly if each arrives while no
packet is open and the byte accepted before it does not open one. -/
theorem discards_rejected_iff (w : World) (cnt : UInt32) (pp : Packet) (rs : List Receive) :
    (DiscardsRejected (step w) menuHears Main.assembly Action.packet (boot w).1 rs ↔
      Quiet OpensPacket 3 0 (heard (fun s r => (step w s r).1) menuHears (boot w).1 rs)) ∧
    (DiscardsRejected packetBody mouseHears TestPacket.assembly printedBytes (packetStart cnt pp)
        (packetTaken cnt pp rs) ↔
      Quiet OpensPacket 3 0
        (heard (fun s r => (packetBody s r).1) mouseHears (packetStart cnt pp) (packetTaken cnt pp rs))) := by
  constructor
  · exact discardsRejected_iff (assemblesPackets_step w) rfl rs
  · exact discardsRejected_iff assemblesPackets_packetBody rfl _

/-- The second byte of the mouse comes with a parity error: the first one takes its place, and the last is lost. -/
theorem rejected_byte_shifts_packet :
    let rs := [mouseByte 0x08, .hardware ⟨0x1000, 0xA1, 0x05⟩, mouseByte 0x01, mouseByte 0x02]
    let w := world115 0x12
    let pp : Packet := w.packet
    (outputs (step w) (boot w).1 rs).filterMap Action.packet = [[0x08, 0x08, 0x01]] ∧
      ¬ DiscardsRejected (step w) menuHears Main.assembly Action.packet (boot w).1 rs ∧
      (packetWritten 1 pp rs).filterMap printedBytes = [[0x08, 0x08, 0x01]] ∧
      ¬ DiscardsRejected packetBody mouseHears TestPacket.assembly printedBytes (packetStart 1 pp)
        (packetTaken 1 pp rs) := by
  refine ⟨by decide +kernel, fun h => ?_, by decide +kernel, fun h => ?_⟩
  · exact absurd h.packets (by decide +kernel)
  · exact absurd h.packets (by decide +kernel)

/-! ### Movements -/

/-- What a packet of the mouse says. -/
structure Movement where
  dx : Int
  dy : Int
  lb : Bool
  mb : Bool
  rb : Bool
  xOv : Bool
  yOv : Bool
  dx_range : -256 ≤ dx ∧ dx ≤ 255
  dy_range : -256 ≤ dy ∧ dy ≤ 255

/-- The first byte of a packet. -/
def header (lb rb mb xSign ySign xOv yOv : Bool) : UInt8 :=
  (if lb then 0x01 else 0) ||| (if rb then 0x02 else 0) ||| (if mb then 0x04 else 0) ||| 0x08 |||
    (if xSign then 0x10 else 0) ||| (if ySign then 0x20 else 0) ||| (if xOv then 0x40 else 0) |||
    (if yOv then 0x80 else 0)

def Movement.header (m : Movement) : UInt8 :=
  Lab4.header m.lb m.rb m.mb (decide (m.dx < 0)) (decide (m.dy < 0)) m.xOv m.yOv

/-- The packet of a movement: the low bytes of the displacements follow the first byte. -/
def Movement.encode (m : Movement) : List UInt8 := [m.header, UInt8.ofInt m.dx, UInt8.ofInt m.dy]

/-- The fields of the packet are those of the movement. -/
structure Shows (pp : Packet) (m : Movement) : Prop where
  deltaX : pp.deltaX = m.dx
  deltaY : pp.deltaY = m.dy
  lb : pp.lb = m.lb
  mb : pp.mb = m.mb
  rb : pp.rb = m.rb
  xOv : pp.xOv = m.xOv
  yOv : pp.yOv = m.yOv

private theorem header_bits (lb rb mb xSign ySign xOv yOv : Bool) :
    let b := header lb rb mb xSign ySign xOv yOv
    (b &&& 0x01 != 0) = lb ∧ (b &&& 0x02 != 0) = rb ∧ (b &&& 0x04 != 0) = mb ∧ b &&& 0x08 ≠ 0 ∧
      (b &&& 0x10 = 0 ↔ xSign = false) ∧ (b &&& 0x20 = 0 ↔ ySign = false) ∧
      (b &&& 0x40 != 0) = xOv ∧ (b &&& 0x80 != 0) = yOv := by
  revert lb rb mb xSign ySign xOv yOv
  decide

/-- A displacement is its low byte and its sign. -/
private theorem displacement_eq {d : Int} (h : -256 ≤ d ∧ d ≤ 255) {b : UInt8}
    (hsign : b = 0 ↔ decide (d < 0) = false) :
    (if b = 0 then ((UInt8.ofInt d).toNat : Int) else -256 + ((UInt8.ofInt d).toNat : Int)) = d := by
  have hlow : ((UInt8.ofInt d).toNat : Int) = d % 256 := by
    rw [UInt8.ofInt, UInt8.toNat_ofNat']
    omega
  rw [hlow]
  by_cases hd : d < 0
  · have hb : ¬ b = 0 := by simp [hsign, hd]
    rw [if_neg hb]
    omega
  · have hb : b = 0 := by simp [hsign, hd]
    rw [if_pos hb]
    omega

/-- Parsing inverts the encoding. -/
private theorem shows_parseMouseBytes {pp : Packet} {m : Movement}
    (h : [pp.bytes 0, pp.bytes 1, pp.bytes 2] = m.encode) :
    Shows (parseMouseBytes pp) m := by
  simp only [Movement.encode, List.cons.injEq, and_true] at h
  obtain ⟨h0, h1, h2⟩ := h
  obtain ⟨hlb, hrb, hmb, -, hxSign, hySign, hxOv, hyOv⟩ :=
    header_bits m.lb m.rb m.mb (decide (m.dx < 0)) (decide (m.dy < 0)) m.xOv m.yOv
  constructor
  · simp only [parseMouseBytes, h0, h1]
    exact displacement_eq m.dx_range hxSign
  · simp only [parseMouseBytes, h0, h2]
    exact displacement_eq m.dy_range hySign
  · simp only [parseMouseBytes, h0]
    exact hlb
  · simp only [parseMouseBytes, h0]
    exact hmb
  · simp only [parseMouseBytes, h0]
    exact hrb
  · simp only [parseMouseBytes, h0]
    exact hxOv
  · simp only [parseMouseBytes, h0]
    exact hyOv

/-! ### A stream of movements -/

/-- A byte that opens no packet is skipped. -/
private theorem packetInterrupt_skip {s : TestPacket} {p : UInt8 × UInt8} {byte : UInt8}
    (hp : acceptedByte p = some byte) (hs : s.mouse.counter = 0) (hbyte : byte &&& 0x08 = 0) :
    packetInterrupt s p = (⟨{ s.mouse with byteFromMouse := byte }, s.cnt⟩, []) := by
  have hcases := mouseInterrupt_cases s.mouse p
  simp only [hp, Option.getD_some] at hcases
  rcases hcases with ⟨-, -, heq⟩ | ⟨hnot, -, -⟩ | ⟨h2, -⟩
  · rw [packetInterrupt, heq]
  · exact absurd ⟨hs, hbyte⟩ hnot
  · exact absurd (hs.symm.trans h2) (by decide)

/-- A byte that opens or continues a packet is stored. -/
private theorem packetInterrupt_store {s : TestPacket} {p : UInt8 × UInt8} {byte : UInt8}
    (hp : acceptedByte p = some byte) (hopen : ¬ (s.mouse.counter = 0 ∧ byte &&& 0x08 = 0))
    (h2 : ¬ s.mouse.counter = 2) :
    ∃ t, packetInterrupt s p = (t, []) ∧ t.mouse.counter = s.mouse.counter + 1 ∧ t.cnt = s.cnt ∧
      t.mouse.pp.bytes = Function.update s.mouse.pp.bytes s.mouse.counter.toNat byte := by
  have hcases := mouseInterrupt_cases s.mouse p
  simp only [hp, Option.getD_some] at hcases
  rcases hcases with ⟨hzero, hbyte, -⟩ | ⟨-, -, heq⟩ | ⟨htwo, -⟩
  · exact absurd ⟨hzero, hbyte⟩ hopen
  · rw [packetInterrupt, heq]
    exact ⟨_, rfl, rfl, rfl, rfl⟩
  · exact absurd htwo h2

/-- The third byte of a packet completes it. -/
private theorem packetInterrupt_complete {s : TestPacket} {p : UInt8 × UInt8} {byte : UInt8}
    (hp : acceptedByte p = some byte) (h2 : s.mouse.counter = 2) :
    ∃ t pp, packetInterrupt s p = (t, [parseMouseBytes pp]) ∧ t.mouse.counter = 0 ∧ t.cnt = s.cnt - 1 ∧
      pp.bytes = Function.update s.mouse.pp.bytes 2 byte := by
  have hcases := mouseInterrupt_cases s.mouse p
  simp only [hp, Option.getD_some, h2] at hcases
  rcases hcases with ⟨hzero, -, -⟩ | ⟨-, htwo, -⟩ | ⟨-, heq⟩
  · exact absurd hzero (by decide)
  · exact absurd trivial htwo
  · rw [packetInterrupt, heq]
    exact ⟨_, _, rfl, rfl, rfl, rfl⟩

/-- The three bytes of a movement are one packet, which shows the movement and counts down by one. -/
private theorem reads_movement {s : TestPacket} (hs : s.mouse.counter = 0) (hcount : Counting s) {m : Movement}
    {qs : List (UInt8 × UInt8)} (hqs : qs.map acceptedByte = m.encode.map some) :
    ∃ t pp, t.mouse.counter = 0 ∧ t.cnt = s.cnt - 1 ∧ Shows pp m ∧ Reads Counting packetInterrupt s qs [pp] t := by
  obtain ⟨q0, q1, q2, rfl⟩ : ∃ q0 q1 q2, qs = [q0, q1, q2] := by
    have hlen := congrArg List.length hqs
    rw [List.length_map, List.length_map] at hlen
    exact List.length_eq_three.1 hlen
  simp only [Movement.encode, List.map_cons, List.map_nil, List.cons.injEq, and_true] at hqs
  obtain ⟨h0, h1, h2⟩ := hqs
  have hopen : ¬ m.header &&& 0x08 = 0 := (header_bits ..).2.2.2.1
  obtain ⟨s0, hstep0, hcounter0, hcnt0, hbytes0⟩ := packetInterrupt_store h0 (fun h => hopen h.2) (by rw [hs]; decide)
  rw [hs] at hcounter0 hbytes0
  obtain ⟨s1, hstep1, hcounter1, hcnt1, hbytes1⟩ := packetInterrupt_store h1
    (by rw [hcounter0]; exact fun h => absurd h.1 (by decide)) (by rw [hcounter0]; decide)
  rw [hcounter0] at hcounter1 hbytes1
  obtain ⟨s2, pp, hstep2, hcounter2, hcnt2, hbytes2⟩ := packetInterrupt_complete h2 hcounter1
  have hcount0 : Counting s0 := by rwa [Counting, hcnt0]
  have hcount1 : Counting s1 := by rwa [Counting, hcnt1, hcnt0]
  refine ⟨s2, parseMouseBytes pp, hcounter2, ?_, shows_parseMouseBytes ?_, ?_⟩
  · rw [hcnt2, hcnt1, hcnt0]
  · rw [hbytes2, hbytes1, hbytes0]
    rfl
  · apply Reads.cons hcount hstep0
    apply Reads.cons hcount0 hstep1
    exact Reads.cons hcount1 hstep2 (Reads.nil s2)

/-- From a state without an open packet the loop shows the movements it still has to count, and leaves. -/
private theorem reads_movements {ms : List Movement} {s : TestPacket} (hs : s.mouse.counter = 0)
    (hms : s.cnt.toNat ≤ ms.length) {ps : List (UInt8 × UInt8)}
    (hps : ps.map acceptedByte = (ms.flatMap Movement.encode).map some) :
    List.Forall₂ Shows (written Counting packetInterrupt s ps) (ms.take s.cnt.toNat) ∧
      (taken Counting packetInterrupt s ps).map acceptedByte =
        ((ms.take s.cnt.toNat).flatMap Movement.encode).map some ∧
      ¬ Counting (final Counting packetInterrupt s ps) := by
  have hleft : ∀ {s : TestPacket} {ms : List Movement} {ps : List (UInt8 × UInt8)}, ¬ Counting s →
      List.Forall₂ Shows (written Counting packetInterrupt s ps) (ms.take s.cnt.toNat) ∧
        (taken Counting packetInterrupt s ps).map acceptedByte =
          ((ms.take s.cnt.toNat).flatMap Movement.encode).map some ∧
        ¬ Counting (final Counting packetInterrupt s ps) := by
    intro s ms ps hnot
    have hzero : s.cnt.toNat = 0 := by
      simpa [Counting, UInt32.lt_iff_toNat_lt] using hnot
    rw [written_of_not_guard hnot, taken_of_not_guard hnot, final_of_not_guard hnot, hzero]
    exact ⟨List.Forall₂.nil, rfl, hnot⟩
  induction ms generalizing s ps with
  | nil =>
    have hnot : ¬ Counting s := by
      rw [List.length_nil] at hms
      simp only [Counting, UInt32.lt_iff_toNat_lt, UInt32.toNat_zero]
      omega
    exact hleft hnot
  | cons m ms ih =>
    by_cases hcount : Counting s
    · have hpos : 1 ≤ s.cnt.toNat := UInt32.lt_iff_toNat_lt.1 hcount
      have hnext : (s.cnt - 1).toNat = s.cnt.toNat - 1 := UInt32.toNat_sub_of_le _ _ (UInt32.le_iff_toNat_le.2 hpos)
      rw [List.flatMap_cons, List.map_append] at hps
      obtain ⟨qs, ps', rfl, hqs, hps'⟩ := List.map_eq_append_iff.1 hps
      obtain ⟨t, pp, ht, hcnt, hshows, hreads⟩ := reads_movement hs hcount hqs
      have hcnt' : s.cnt.toNat = t.cnt.toNat + 1 := by
        rw [hcnt, hnext]
        omega
      rw [List.length_cons] at hms
      obtain ⟨ihshown, ihtaken, ihleft⟩ := ih ht (by omega) hps'
      rw [hreads.written_append, hreads.taken_append, hreads.final_append, hcnt', List.take_succ_cons,
        List.flatMap_cons, List.map_append, List.map_append, hqs, ihtaken]
      exact ⟨List.Forall₂.cons hshows ihshown, rfl, ihleft⟩
    · exact hleft hcount

/-- Bytes that open no packet are read and forgotten. -/
private theorem reads_skipped {skipped : List UInt8} (hskipped : ∀ byte ∈ skipped, byte &&& 0x08 = 0) {s : TestPacket}
    (hs : s.mouse.counter = 0) (hcount : Counting s) {qs : List (UInt8 × UInt8)}
    (hqs : qs.map acceptedByte = skipped.map some) :
    ∃ t, t.mouse.counter = 0 ∧ t.cnt = s.cnt ∧ Reads Counting packetInterrupt s qs [] t := by
  induction skipped generalizing s qs with
  | nil =>
    obtain rfl : qs = [] := List.map_eq_nil_iff.1 hqs
    exact ⟨s, hs, rfl, Reads.nil s⟩
  | cons byte skipped ih =>
    obtain ⟨q, qs', rfl, hq, hqs'⟩ := List.map_eq_cons_iff.1 hqs
    have hstep := packetInterrupt_skip hq hs (hskipped byte (List.mem_cons_self ..))
    obtain ⟨t, ht, hcnt, hreads⟩ :=
      ih (fun b hb => hskipped b (List.mem_cons_of_mem _ hb)) (s := ⟨{ s.mouse with byteFromMouse := byte }, s.cnt⟩)
        hs hcount hqs'
    exact ⟨t, ht, hcnt, Reads.cons hcount hstep hreads⟩

/-- `mouse_test_packet` shows the first `cnt` movements in their order, and reads no mouse byte after their last one;
while it counts, the next byte of the packet has the index 0, 1 or 2. -/
structure ShowsFirst (cnt : UInt32) (pp : Packet) (skipped : List UInt8) (ms : List Movement)
    (rs : List Receive) : Prop where
  shown : List.Forall₂ Shows (packetWritten cnt pp rs) (ms.take cnt.toNat)
  taken : ((packetTaken cnt pp rs).filterMap mousePair).map acceptedByte =
    (skipped ++ (ms.take cnt.toNat).flatMap Movement.encode).map some
  left : ¬ Counting (packetFinal cnt pp rs)
  counting : ∀ pre r, pre ++ [r] <+: packetTaken cnt pp rs → Counting (packetRun cnt pp pre)
  index : ∀ pre, pre <+: packetTaken cnt pp rs → (packetRun cnt pp pre).mouse.counter < 3

/-- Movements that are encoded and delivered are the movements that are shown. -/
theorem movements_round_trip {cnt : UInt32} (hcnt : 1 ≤ cnt) (pp : Packet) {skipped : List UInt8}
    (hskipped : ∀ byte ∈ skipped, byte &&& 0x08 = 0) {ms : List Movement} (hms : cnt.toNat ≤ ms.length)
    {rs : List Receive}
    (hrs : (rs.filterMap mousePair).map acceptedByte = (skipped ++ ms.flatMap Movement.encode).map some) :
    ShowsFirst cnt pp skipped ms rs := by
  have hcount : Counting (packetStart cnt pp) := UInt32.lt_iff_toNat_lt.2 (UInt32.le_iff_toNat_le.1 hcnt)
  rw [List.map_append] at hrs
  obtain ⟨qs, ps, hpairs, hqs, hps⟩ := List.map_eq_append_iff.1 hrs
  obtain ⟨t, ht, htcnt, hreads⟩ := reads_skipped hskipped rfl hcount hqs
  have hcnt' : t.cnt = cnt := htcnt
  obtain ⟨hshown, hread, hleft⟩ := reads_movements ht (by rw [hcnt']; exact hms) hps
  rw [hcnt'] at hshown hread
  constructor
  · rwa [packetWritten, packetBody_eq, written_listen, hpairs, hreads.written_append, List.nil_append]
  · rw [packetTaken, packetBody_eq, taken_listen, hpairs, hreads.taken_append, List.map_append, List.map_append, hqs,
      hread]
  · rwa [packetFinal, packetBody_eq, final_listen, hpairs, hreads.final_append]
  · intro pre r hpre
    exact guard_of_taken hpre
  · intro pre _
    exact counter_packetRun cnt pp pre

/-- A movement to the left and down with the left button pressed, between a byte that is skipped and a timer
interrupt. -/
theorem movements_round_trip_drag :
    ShowsFirst 1 (world115 0x12).packet [0x00] [⟨-3, -256, true, false, false, false, true, by decide, by decide⟩]
      [mouseByte 0x00, mouseByte 0xB9, .hardware ⟨0x1, 0, 0⟩, mouseByte 0xFD, mouseByte 0x00] :=
  movements_round_trip (by decide) _ (by decide +kernel) (by decide) (by decide +kernel)

end LabChase.Lab4
