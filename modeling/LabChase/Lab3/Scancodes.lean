import LabChase.Lab3.Keyboard

/-!
# The scancodes that are shown

What `kbd_test_scan` and `kbd_test_poll` print for the same bytes.  A rejected byte makes `kbd_test_scan` print the byte
it holds once more, so the two agree exactly while nothing is rejected (`scan_and_poll_agree_iff`).  And
`kbd_test_scan` prints each byte as a scancode of its own, so it shows scancodes whole exactly if none has two bytes
(`printed_whole_iff`).
-/

namespace LabChase.Lab3

open Loops Streams

private theorem printScancode_injective : Function.Injective printScancode := by
  intro a b h
  have hbytes : [a] = [b] := congrArg PrintScancode.bytes h
  simpa using hbytes

/-! ### Interrupts and polling -/

/-- The accepted bytes up to the first `0x81`, each as `kbd_print_scancode` is called with it. -/
def acceptedPrints (ps : List (UInt8 × UInt8)) : List PrintScancode :=
  (through (fun b => b = escBreakCode) (ps.map acceptedByte).reduceOption).map printScancode

/-- Both functions show the accepted bytes and leave their loops at the first accepted release of `ESC`. -/
structure ScanAndPollAgree (ps : List (UInt8 × UInt8)) (rs : List Receive) : Prop where
  scan : scanWritten rs = acceptedPrints ps
  poll : pollWritten ps = acceptedPrints ps
  scanTaken : (scanTaken rs).filterMap keyboardPair = through EscReleased ps
  pollTaken : pollTaken ps = through EscReleased ps
  scanLeft : ¬ Reading (scanFinal rs) ↔ ∃ p ∈ ps, EscReleased p
  pollLeft : ¬ Reading (pollFinal ps) ↔ ∃ p ∈ ps, EscReleased p

private theorem acceptedPrints_eq (ps : List (UInt8 × UInt8)) :
    acceptedPrints ps = ((through EscReleased ps).map acceptedByte).reduceOption.map printScancode := by
  rw [acceptedPrints, map_through escReleased_iff, reduceOption_through]

/-- The functions agree exactly if no byte is rejected before the first accepted release of `ESC`. -/
theorem scan_and_poll_agree_iff {ps : List (UInt8 × UInt8)} (hdata : ∀ p ∈ ps, p.2 ≠ 0) {rs : List Receive}
    (hrs : rs.filterMap keyboardPair = ps) :
    ScanAndPollAgree ps rs ↔ ∀ p ∈ through EscReleased ps, KbcAccepts p.1 := by
  have hscan : scanWritten rs = acceptedPrints ps ↔ ∀ p ∈ through EscReleased ps, KbcAccepts p.1 := by
    rw [scanWritten_eq, hrs, acceptedPrints_eq, printScancode_injective.list_map.eq_iff, held_eq_reduceOption_iff]
    simp only [List.forall_mem_map, acceptedByte_isSome]
  constructor
  · intro h
    exact hscan.1 h.scan
  · intro h
    constructor
    · exact hscan.2 h
    · rw [pollWritten_eq hdata, acceptedPrints_eq]
    · rw [scanTaken_eq, hrs]
    · exact pollTaken_eq ps
    · rw [scanFinal_left_iff, hrs]
    · exact pollFinal_left_iff ps

def keyInterrupt (p : UInt8 × UInt8) : Receive := .hardware ⟨0x2, p.1, p.2⟩

/-- The `A` key is pressed and released, then the `ESC` key is released. -/
theorem scan_and_poll_agree_typed :
    ScanAndPollAgree [(0x01, 0x1E), (0x01, 0x9E), (0x01, 0x81)]
      ([(0x01, 0x1E), (0x01, 0x9E), (0x01, 0x81)].map keyInterrupt) :=
  (scan_and_poll_agree_iff (by simp) (by decide +kernel)).2 (List.forall_iff_forall_mem.1 (by decide +kernel))

/-- The release of the `A` key comes with a parity error: `kbd_test_scan` shows the press once more. -/
theorem scan_repeats_rejected :
    let ps : List (UInt8 × UInt8) := [(0x01, 0x1E), (0x81, 0x9E), (0x01, 0x81)]
    (∀ p ∈ ps, p.2 ≠ 0) ∧ (ps.map keyInterrupt).filterMap keyboardPair = ps ∧
      pollWritten ps = [printScancode 0x1E, printScancode 0x81] ∧
      scanWritten (ps.map keyInterrupt) = [printScancode 0x1E, printScancode 0x1E, printScancode 0x81] ∧
      ¬ ScanAndPollAgree ps (ps.map keyInterrupt) := by
  refine ⟨by simp, by decide +kernel, by decide +kernel, by decide +kernel, fun h => ?_⟩
  exact absurd h.scan (by decide +kernel)

/-! ### Scancodes of two bytes -/

/-- A scancode of set 1. -/
inductive Scancode where
  | single (byte : UInt8) (h : byte ≠ 0xE0)
  | extended (byte : UInt8)
  deriving DecidableEq

namespace Scancode

def bytes : Scancode → List UInt8
  | single byte _ => [byte]
  | extended byte => [0xE0, byte]

def lastByte : Scancode → UInt8
  | single byte _ => byte
  | extended byte => byte

/-- The call of `kbd_print_scancode` that shows the scancode whole. -/
def print (c : Scancode) : PrintScancode := ⟨c.lastByte &&& 0x80 = 0, UInt8.ofNat c.bytes.length, c.bytes⟩

/-- The release of the `ESC` key. -/
def esc : Scancode := single escBreakCode (by decide)

def IsSingle (c : Scancode) : Prop := c.bytes.length = 1

instance : DecidablePred IsSingle := fun c => inferInstanceAs (Decidable (c.bytes.length = 1))

private theorem IsSingle.print_eq {c : Scancode} (h : c.IsSingle) : c.bytes.map printScancode = [c.print] := by
  cases c with
  | single byte hbyte => rfl
  | extended byte => simp [IsSingle, bytes] at h

private theorem map_print_of_isSingle {cs : List Scancode} (h : ∀ c ∈ cs, c.IsSingle) :
    (cs.flatMap bytes).map printScancode = cs.map print := by
  induction cs with
  | nil => rfl
  | cons c cs ih =>
    rw [List.flatMap_cons, List.map_append, (h c (List.mem_cons_self ..)).print_eq,
      ih fun d hd => h d (List.mem_cons_of_mem _ hd), List.map_cons, List.singleton_append]

private theorem isSingle_of_print {c : Scancode} {byte : UInt8} (h : printScancode byte = c.print) : c.IsSingle := by
  cases c with
  | single byte hbyte => rfl
  | extended b =>
    have hbytes : [byte] = [0xE0, b] := congrArg PrintScancode.bytes h
    simp at hbytes

private theorem IsSingle.eq_esc {c : Scancode} (h : c.IsSingle) (hesc : escBreakCode ∈ c.bytes) : c = esc := by
  cases c with
  | single byte hbyte =>
    obtain rfl : escBreakCode = byte := List.mem_singleton.1 hesc
    rfl
  | extended byte => simp [IsSingle, bytes] at h

end Scancode

/-- Each scancode is printed once and whole, and the loop leaves at the last byte of the last one, whatever is
received after it. -/
structure PrintedWhole (cs : List Scancode) (rs rest : List Receive) : Prop where
  prints : scanWritten (rs ++ rest) = cs.map Scancode.print
  taken : (scanTaken (rs ++ rest)).filterMap keyboardPair = rs.filterMap keyboardPair
  left : ¬ Reading (scanFinal (rs ++ rest))

/-- Accepted bytes with the release of `ESC` at the end, and nowhere before, are what the loop reads. -/
private theorem through_escReleased {ps : List (UInt8 × UInt8)} {bytes : List UInt8}
    (hps : ps.map acceptedByte = (bytes ++ [escBreakCode]).map some) (hesc : escBreakCode ∉ bytes)
    (rest : List (UInt8 × UInt8)) : through EscReleased (ps ++ rest) = ps ∧ ∃ p ∈ ps, EscReleased p := by
  rw [List.map_append, List.map_singleton] at hps
  obtain ⟨init, last, rfl, hinit, hlast⟩ := List.map_eq_append_iff.1 hps
  obtain ⟨p, rfl, hp⟩ := List.map_eq_singleton_iff.1 hlast
  have hreleased : EscReleased p := by
    rw [escReleased_iff, hp, accepted_some]
  have hbefore : ∀ q ∈ init, ¬ EscReleased q := by
    intro q hq hrel
    have hmem : acceptedByte q ∈ bytes.map some := hinit ▸ List.mem_map_of_mem hq
    obtain ⟨byte, hbyte, heq⟩ := List.mem_map.1 hmem
    rw [escReleased_iff, ← heq, accepted_some] at hrel
    exact hesc (hrel ▸ hbyte)
  exact ⟨through_concat hbefore hreleased rest, p, by simp, hreleased⟩

/-- Scancodes are printed whole exactly if each is a single byte. -/
theorem printed_whole_iff {cs : List Scancode} (hesc : Scancode.esc ∉ cs) {rs : List Receive}
    (hrs : (rs.filterMap keyboardPair).map acceptedByte = ((cs ++ [Scancode.esc]).flatMap Scancode.bytes).map some)
    (rest : List Receive) : PrintedWhole (cs ++ [Scancode.esc]) rs rest ↔ ∀ c ∈ cs, c.IsSingle := by
  constructor
  · intro h c hc
    -- whatever is printed is a single byte
    have hmem : c.print ∈ scanWritten (rs ++ rest) := by
      rw [h.prints]
      exact List.mem_map_of_mem (List.mem_append_left _ hc)
    rw [scanWritten_eq] at hmem
    obtain ⟨byte, -, hbyte⟩ := List.mem_map.1 hmem
    exact Scancode.isSingle_of_print hbyte
  · intro h
    have hall : ∀ c ∈ cs ++ [Scancode.esc], c.IsSingle := by
      intro c hc
      rcases List.mem_append.1 hc with hc | hc
      · exact h c hc
      · rw [List.mem_singleton.1 hc]
        rfl
    have hbytes : (cs ++ [Scancode.esc]).flatMap Scancode.bytes = cs.flatMap Scancode.bytes ++ [escBreakCode] := by
      rw [List.flatMap_append, List.flatMap_singleton]
      rfl
    have hnot : escBreakCode ∉ cs.flatMap Scancode.bytes := by
      intro hmem
      obtain ⟨c, hc, hbyte⟩ := List.mem_flatMap.1 hmem
      exact hesc ((h c hc).eq_esc hbyte ▸ hc)
    obtain ⟨hthrough, hreleased⟩ := through_escReleased (hbytes ▸ hrs) hnot (rest.filterMap keyboardPair)
    have hreads : through EscReleased ((rs ++ rest).filterMap keyboardPair) = rs.filterMap keyboardPair := by
      rw [List.filterMap_append, hthrough]
    constructor
    · rw [scanWritten_eq, hreads, hrs, held_map_some, Scancode.map_print_of_isSingle hall]
    · rw [scanTaken_eq, hreads]
    · rw [scanFinal_left_iff, List.filterMap_append]
      obtain ⟨p, hp, hrel⟩ := hreleased
      exact ⟨p, List.mem_append_left _ hp, hrel⟩

/-- The `A` key is pressed and released, then the `ESC` key is released. -/
theorem printed_whole_typed :
    PrintedWhole [.single 0x1E (by decide), .single 0x9E (by decide), Scancode.esc]
      ([(0x01, 0x1E), (0x01, 0x9E), (0x01, 0x81)].map keyInterrupt) [] :=
  (@printed_whole_iff [.single 0x1E (by decide), .single 0x9E (by decide)] (by decide)
    ([(0x01, 0x1E), (0x01, 0x9E), (0x01, 0x81)].map keyInterrupt) (by decide +kernel) []).2 (by decide)

/-- The right arrow key is pressed and released: four scancodes of one byte are shown. -/
theorem extended_printed_in_parts :
    let cs : List Scancode := [.extended 0x4D, .extended 0xCD]
    let rs := [(0x01, 0xE0), (0x01, 0x4D), (0x01, 0xE0), (0x01, 0xCD), (0x01, 0x81)].map keyInterrupt
    Scancode.esc ∉ cs ∧
      (rs.filterMap keyboardPair).map acceptedByte = ((cs ++ [Scancode.esc]).flatMap Scancode.bytes).map some ∧
      scanWritten rs = [0xE0, 0x4D, 0xE0, 0xCD, 0x81].map printScancode ∧
      ¬ PrintedWhole (cs ++ [Scancode.esc]) rs [] := by
  refine ⟨by decide, by decide, by decide +kernel, fun h => ?_⟩
  exact absurd h.prints (by decide +kernel)

end LabChase.Lab3
