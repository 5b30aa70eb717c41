import LabChase.Lab4.Async
import LabChase.Lab4.Gesture
import LabChase.Lab4.Packets
import Mathlib.Data.Bool.AllAny

/-!
# One stream of packets

The three loops of `lab4.c` do the same at a mouse interrupt and differ in when they leave.  So `mouse_test_packet` and
`mouse_test_async` print a beginning of what `mouse_test_gesture` prints, if its uninitialised `counter` happens to be
zero (`readers_print_beginnings`): the first `cnt` packets (`test_packet_exact`), and those of the interrupts before the
timeout.
-/

namespace LabChase.Lab4

open Runs Loops Streams

/-- What the loops do at a mouse interrupt, whatever else they keep. -/
def readInterrupt (m : PacketLocals) (p : UInt8 × UInt8) : PacketLocals × List Packet :=
  ((mouseInterrupt p m).1, (mouseInterrupt p m).2.toList)

def readBody : PacketLocals → Receive → PacketLocals × List Packet := listen mousePair readInterrupt

/-- The packets printed by a loop that is never left. -/
def packetsOf (pp : Packet) (rs : List Receive) : List Packet := outputs readBody ⟨pp, 0, 0⟩ rs

/-- The bytes that `byteFromMouse` holds after the mouse interrupts, three to a packet.  After a rejected byte it holds
the last accepted one once more. -/
def framesOf (rs : List Receive) : List (List UInt8) :=
  frames OpensPacket 3 (held 0 ((rs.filterMap mousePair).map acceptedByte))

def asyncWritten (idleTime : UInt8) (pp : Packet) (rs : List Receive) : List Packet :=
  written Awake (asyncBody idleTime) (asyncStart idleTime pp) rs

/-! ### What is printed -/

private theorem readBody_packetBody (s : TestPacket) (r : Receive) :
    readBody s.mouse r = ((packetBody s r).1.mouse, (packetBody s r).2) := by
  rw [packetBody_eq, readBody]
  cases hpair : mousePair r with
  | none => rw [listen_none hpair, listen_none hpair]
  | some p =>
    rw [listen_some hpair, listen_some hpair, readInterrupt, packetInterrupt]
    rcases mouseInterrupt p s.mouse with ⟨m, printed⟩
    cases printed <;> rfl

private theorem readBody_asyncBody (idleTime : UInt8) (s : TestAsync) (r : Receive) :
    readBody s.mouse r = ((asyncBody idleTime s r).1.mouse, (asyncBody idleTime s r).2) := by
  have htick : (asyncTick s).mouse = s.mouse := (apply_ite TestAsync.mouse _ _ _).trans (ite_self _)
  cases r with
  | failed => rfl
  | other => rfl
  | hardware n =>
    rw [readBody, asyncBody]
    -- the timer branch leaves the mouse alone
    generalize hs : (if n.timer then asyncTick s else s) = t
    have ht : t.mouse = s.mouse := by
      rw [← hs]
      split
      · exact htick
      · rfl
    by_cases hm : n.mouse
    · have hpair : mousePair (.hardware n) = some (n.status, n.data) := if_pos hm
      rw [listen_some hpair, readInterrupt, ← ht]
      simp only [hm, ↓reduceIte, asyncMouse]
    · have hpair : mousePair (.hardware n) = none := if_neg hm
      rw [listen_none hpair, ← ht]
      simp only [hm, Bool.false_eq_true, ↓reduceIte]

private theorem gestureChecks_mouse (xLen tolerance : UInt8) (pp : Packet) (s : Gesture) :
    (gestureChecks xLen tolerance pp s).mouse = s.mouse := by
  have hleft : (leftStroke tolerance pp s).mouse = s.mouse := by
    unfold leftStroke
    split
    · split
      · split <;> rfl
      · rfl
    · rfl
  have hshortLeft : ∀ t, (shortLeftStroke xLen pp t).mouse = t.mouse := fun t =>
    (apply_ite Gesture.mouse _ _ _).trans (ite_self _)
  have hright : ∀ t, (rightStroke tolerance pp t).mouse = t.mouse := by
    intro t
    unfold rightStroke
    split
    · split
      · split <;> rfl
      · rfl
    · rfl
  have hshortRight : ∀ t, (shortRightStroke xLen pp t).mouse = t.mouse := fun t =>
    (apply_ite Gesture.mouse _ _ _).trans (ite_self _)
  rw [gestureChecks, hshortRight, hright, hshortLeft, hleft]

private theorem readBody_gestureBody (xLen tolerance : UInt8) {s : Gesture} (h : s.started = 0) (r : Receive) :
    (gestureBody xLen tolerance s r).1.mouse = (readBody s.mouse r).1 ∧
      (gestureBody xLen tolerance s r).2 = (readBody s.mouse r).2.map .packet := by
  cases r with
  | failed => exact ⟨rfl, rfl⟩
  | other => exact ⟨rfl, rfl⟩
  | hardware n =>
    have hread : readBody s.mouse (.hardware n) =
        ((if n.mouse then mouseInterrupt (n.status, n.data) s.mouse else (s.mouse, none)).1,
          (if n.mouse then mouseInterrupt (n.status, n.data) s.mouse else (s.mouse, none)).2.toList) := by
      by_cases hm : n.mouse
      · have hpair : mousePair (.hardware n) = some (n.status, n.data) := if_pos hm
        rw [readBody, listen_some hpair, if_pos hm]
        rfl
      · have hpair : mousePair (.hardware n) = none := if_neg hm
        rw [readBody, listen_none hpair, if_neg hm]
        rfl
    rw [hread, gestureBody, gestureNotification]
    generalize (if n.mouse then mouseInterrupt (n.status, n.data) s.mouse else (s.mouse, none)) = read
    have hstarted : (gestureChecks xLen tolerance read.1.pp { s with mouse := read.1 }).started = 0 :=
      gestureChecks_started xLen tolerance read.1.pp h
    refine ⟨gestureChecks_mouse .., ?_⟩
    simp only [hstarted, ne_eq, not_true_eq_false, and_false, ↓reduceIte, List.append_nil]

private theorem filterMap_printedBytes (printed : List Packet) :
    printed.filterMap printedBytes = printed.map fun pp => [pp.bytes 0, pp.bytes 1, pp.bytes 2] :=
  congrFun List.filterMap_eq_map printed

private theorem parsed_of_mem_readBody (m : PacketLocals) (r : Receive) :
    ∀ pp ∈ (readBody m r).2, parseMouseBytes pp = pp := by
  intro pp hpp
  cases hpair : mousePair r with
  | none =>
    rw [readBody, listen_none hpair] at hpp
    exact absurd hpp List.not_mem_nil
  | some p =>
    rw [readBody, listen_some hpair, readInterrupt] at hpp
    rcases mouseInterrupt_cases m p with ⟨-, -, heq⟩ | ⟨-, -, heq⟩ | ⟨-, heq⟩
    · rw [heq] at hpp
      exact absurd hpp List.not_mem_nil
    · rw [heq] at hpp
      exact absurd hpp List.not_mem_nil
    · rw [heq, Option.toList_some, List.mem_singleton] at hpp
      rw [hpp]
      rfl

/-- The packets are the frames of what the global holds, with the fields of their bytes. -/
private theorem packetsOf_frames (pp : Packet) (rs : List Receive) :
    (packetsOf pp rs).filterMap printedBytes = framesOf rs ∧
      ∀ printed ∈ packetsOf pp rs, parseMouseBytes printed = printed := by
  refine ⟨?_, forall_mem_outputs parsed_of_mem_readBody _ rs⟩
  have hout : outputs readBody ⟨pp, 0, 0⟩ rs = outputs packetBody (packetStart 0 pp) rs :=
    (run_simulates (I := fun _ => True) (s := packetStart 0 pp) (fun s r _ => ⟨trivial, readBody_packetBody s r⟩)
      trivial rs).2
  have hheard : heard (fun s r => (packetBody s r).1) mouseHears (packetStart 0 pp) rs =
      (rs.filterMap mousePair).map acceptedByte := by
    rw [List.map_filterMap]
    exact heard_eq_filterMap (f := fun r => (mousePair r).map acceptedByte) (fun _ _ => rfl) _ rs
  have hframes := (assemblesPackets_packetBody.framing (s := packetStart 0 pp) rfl rs).1
  simp only [hheard] at hframes
  rw [packetsOf, hout, hframes]
  rfl

private theorem length_packetsOf (pp : Packet) (rs : List Receive) :
    (packetsOf pp rs).length = (framesOf rs).length := by
  rw [← (packetsOf_frames pp rs).1, filterMap_printedBytes, List.length_map]

/-! ### When `mouse_test_packet` leaves -/

/-- While the loop runs, each packet takes one from `cnt`. -/
private theorem packetBody_cnt {s : TestPacket} (hs : Counting s) (r : Receive) :
    (packetBody s r).1.cnt.toNat + (packetBody s r).2.length = s.cnt.toNat := by
  have hpos : 0 < s.cnt.toNat := hs
  have hsub : (s.cnt - 1).toNat = s.cnt.toNat - 1 := UInt32.toNat_sub_of_le s.cnt 1 hs
  rw [packetBody_eq]
  cases hpair : mousePair r with
  | none =>
    rw [listen_none hpair]
    rfl
  | some p =>
    rw [listen_some hpair, packetInterrupt]
    rcases mouseInterrupt p s.mouse with ⟨m, printed⟩
    cases printed with
    | none => rfl
    | some pp =>
      show (s.cnt - 1).toNat + 1 = s.cnt.toNat
      omega

/-- What is true of a state of the loop and the receives before it. -/
structure Delivered (cnt : UInt32) (pp : Packet) (rs : List Receive) (s : TestPacket) : Prop where
  mouse : s.mouse = run (fun m r => (readBody m r).1) ⟨pp, 0, 0⟩ rs
  left : s.cnt.toNat + (framesOf rs).length = cnt.toNat

theorem Delivered.step {cnt : UInt32} {pp : Packet} (pre : List Receive) (r : Receive) (s : TestPacket)
    (h : Delivered cnt pp pre s) (hs : Counting s) : Delivered cnt pp (pre ++ [r]) (packetBody s r).1 where
  mouse := by rw [run_concat, ← h.mouse, readBody_packetBody]
  left := by
    have hleft := h.left
    have hstep := packetBody_cnt hs r
    have hout : (packetBody s r).2 = (readBody (run (fun m r => (readBody m r).1) ⟨pp, 0, 0⟩ pre) r).2 := by
      rw [← h.mouse, readBody_packetBody]
    rw [← length_packetsOf pp, packetsOf] at hleft ⊢
    rw [outputs_concat, List.length_append, ← hout]
    omega

private theorem Delivered.counting_iff {cnt : UInt32} {pp : Packet} {rs : List Receive} {s : TestPacket}
    (h : Delivered cnt pp rs s) :
    Counting s ↔ ¬ cnt.toNat ≤ (framesOf rs).length := by
  have hpos : Counting s ↔ 0 < s.cnt.toNat := Iff.rfl
  have hleft := h.left
  rw [hpos]
  omega

private theorem delivered_final (cnt : UInt32) (pp : Packet) (rs : List Receive) :
    Delivered cnt pp (packetTaken cnt pp rs) (packetFinal cnt pp rs) :=
  taken_invariant (I := Delivered cnt pp) Delivered.step ⟨rfl, rfl⟩ rs _ List.prefix_rfl

private theorem packetWritten_eq_packetsOf (cnt : UInt32) (pp : Packet) (rs : List Receive) :
    packetWritten cnt pp rs = packetsOf pp (packetTaken cnt pp rs) :=
  (run_simulates (I := fun _ => True) (s := packetStart cnt pp) (fun s r _ => ⟨trivial, readBody_packetBody s r⟩)
    trivial _).2.symm

/-- `mouse_test_packet` prints the first `cnt` packets. -/
private theorem packetWritten_eq_take (cnt : UInt32) (pp : Packet) (rs : List Receive) :
    packetWritten cnt pp rs = (packetsOf pp rs).take cnt.toNat := by
  have hprefix : packetWritten cnt pp rs <+: packetsOf pp rs :=
    written_isPrefix_outputs (fun s r _ => readBody_packetBody s r) (packetStart cnt pp) rs
  have hlength : (packetWritten cnt pp rs).length = (framesOf (packetTaken cnt pp rs)).length := by
    rw [packetWritten_eq_packetsOf, length_packetsOf]
  have hfinal := delivered_final cnt pp rs
  have hleft := hfinal.left
  by_cases hcounting : Counting (packetFinal cnt pp rs)
  · -- the loop has read everything
    have hall : packetTaken cnt pp rs = rs := taken_of_guard_final hcounting
    have hmore := hfinal.counting_iff.1 hcounting
    rw [packetWritten_eq_packetsOf, hall, List.take_of_length_le]
    rw [length_packetsOf, ← hall]
    omega
  · have henough := not_not.1 (mt hfinal.counting_iff.2 hcounting)
    rw [List.prefix_iff_eq_take.1 hprefix, hlength]
    congr 1
    omega

/-- If no byte is rejected, the frames are those of the bytes themselves. -/
private theorem framesOf_accepted {rs : List Receive} (h : ∀ p ∈ rs.filterMap mousePair, MouseAccepts p.1) :
    framesOf rs = frames OpensPacket 3 ((rs.filterMap mousePair).map Prod.snd) := by
  have hbytes : (rs.filterMap mousePair).map acceptedByte = ((rs.filterMap mousePair).map Prod.snd).map some := by
    rw [List.map_map]
    exact List.map_congr_left fun p hp => if_pos (h p hp)
  rw [framesOf, hbytes, held_map_some]

/-- `mouse_test_packet` prints the packets of what `byteFromMouse` holds, with the fields of their bytes, and leaves
with the byte that completes the `cnt`-th; if no byte is rejected, these are the packets of the bytes as they come. -/
theorem test_packet_exact (cnt : UInt32) (pp : Packet) (rs : List Receive) :
    LeavesAtFirst Counting packetBody (packetStart cnt pp) (fun rs => cnt.toNat ≤ (framesOf rs).length) rs ∧
      (packetWritten cnt pp rs).filterMap printedBytes = (framesOf rs).take cnt.toNat ∧
      (∀ printed ∈ packetWritten cnt pp rs, parseMouseBytes printed = printed) ∧
      ((∀ p ∈ rs.filterMap mousePair, MouseAccepts p.1) →
        framesOf rs = frames OpensPacket 3 ((rs.filterMap mousePair).map Prod.snd)) := by
  obtain ⟨hframes, hparsed⟩ := packetsOf_frames pp rs
  refine ⟨leavesAtFirst_of_invariant (I := Delivered cnt pp) ⟨rfl, rfl⟩ Delivered.step
    (fun _ _ h => h.counting_iff) rs, ?_, ?_, framesOf_accepted⟩
  · rw [packetWritten_eq_take, ← hframes, filterMap_printedBytes, filterMap_printedBytes, List.map_take]
  · rw [packetWritten_eq_take]
    exact fun printed h => hparsed printed (List.mem_of_mem_take h)

/-- A byte with a parity error is not stored, but the one before it is stored again. -/
theorem test_packet_exact_rejected :
    let rs := [mouseByte 0x08, .hardware ⟨0x1000, 0xA1, 5⟩, mouseByte 0x01, mouseByte 0x02]
    (packetWritten 1 (world115 0x12).packet rs).filterMap printedBytes = [[8, 8, 1]] ∧
      framesOf [mouseByte 0x08, mouseByte 0x01, mouseByte 0x02] = [[8, 1, 2]] := by
  intro rs
  have hprinted := (test_packet_exact 1 (world115 0x12).packet rs).2.1
  have hframes : framesOf rs = [[8, 8, 1]] := by decide +kernel
  have hplain := (test_packet_exact 1 (world115 0x12).packet [mouseByte 0x08, mouseByte 0x01, mouseByte 0x02]).2.2.2
    (List.all_iff_forall_prop.1 (by decide +kernel))
  rw [hframes] at hprinted
  exact ⟨hprinted, hplain.trans (by decide +kernel)⟩

/-! ### The other two loops -/

private theorem outputs_gestureBody (xLen tolerance : UInt8) {s : Gesture} (h : s.started = 0) (rs : List Receive) :
    outputs (gestureBody xLen tolerance) s rs = (outputs readBody s.mouse rs).map .packet := by
  induction rs generalizing s with
  | nil => rfl
  | cons r rs ih =>
    obtain ⟨hmouse, hprinted⟩ := readBody_gestureBody xLen tolerance h r
    rw [outputs, outputs, List.map_append, hprinted, ih (gestureBody_started xLen tolerance h r).1, hmouse]

/-- A `mouse_test_gesture` that starts with `counter` zero prints every packet. -/
private theorem gestureWritten_eq (xLen tolerance : UInt8) (pp : Packet) (rs : List Receive) :
    gestureWritten xLen tolerance pp 0 rs = (packetsOf pp rs).map .packet := by
  have hall : taken Unrecognised (gestureBody xLen tolerance) (gestureStart pp 0) rs = rs :=
    (gestureFinal_unrecognised xLen tolerance pp 0 rs).2.1
  rw [gestureWritten, written, hall, outputs_gestureBody xLen tolerance rfl]
  rfl

/-- The loops that can be left print beginnings of what `mouse_test_gesture` prints, and `mouse_test_async` all of it
until its timeout. -/
theorem readers_print_beginnings (cnt : UInt32) (idleTime xLen tolerance : UInt8) (pp : Packet) (rs : List Receive) :
    (packetWritten cnt pp rs).map GesturePrint.packet <+: gestureWritten xLen tolerance pp 0 rs ∧
      (asyncWritten idleTime pp rs).map GesturePrint.packet <+: gestureWritten xLen tolerance pp 0 rs ∧
      (asyncWritten idleTime pp rs).filterMap printedBytes = framesOf (asyncTaken idleTime pp rs) := by
  have hasync : asyncWritten idleTime pp rs = packetsOf pp (asyncTaken idleTime pp rs) :=
    (run_simulates (I := fun _ => True) (s := asyncStart idleTime pp)
      (fun s r _ => ⟨trivial, readBody_asyncBody idleTime s r⟩) trivial _).2.symm
  have hprefix : asyncWritten idleTime pp rs <+: packetsOf pp rs :=
    written_isPrefix_outputs (fun s r _ => readBody_asyncBody idleTime s r) (asyncStart idleTime pp) rs
  rw [gestureWritten_eq]
  refine ⟨?_, hprefix.map _, ?_⟩
  · rw [packetWritten_eq_take]
    exact (List.take_prefix ..).map _
  · rw [hasync, (packetsOf_frames pp _).1]

end LabChase.Lab4
