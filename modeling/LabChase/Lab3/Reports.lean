import LabChase.Lab3.Commands
import LabChase.Lab3.TimedScan

/-!
# What the functions of `lab3.c` have in common

`kbd_test_timed_scan` prints what `kbd_test_scan` prints, up to the timeout (`timed_scan_prints_beginning`).
`kbd_test_scan` and `kbd_test_poll` read the same bytes with the same two port reads each, but the second one reports
also the reads of `enableInterrupts`, which are 3 when the controller is idle and at most 21 (`sysinb_reported`).
-/

namespace LabChase.Lab3

open Runs Loops Streams

def timedWritten (n : UInt8) (rs : List Receive) : List PrintScancode :=
  written TimedReading (timedBody n) (timedStart n) rs

/-- The argument of `kbd_print_no_sysinb`, when `kbd_test_scan` has left its loop. -/
def scanReport (rs : List Receive) : Option UInt32 :=
  if Reading (scanFinal rs) then none else some (scanFinal rs).countSysInb

/-- The argument of `kbd_print_no_sysinb`, when `kbd_test_poll` has left its loop and `enableInterrupts` has returned.
-/
def pollReport (c : Controller) (ps : List (UInt8 × UInt8)) : Option UInt32 :=
  if Reading (pollFinal ps) then none
  else some (enableInterrupts c (Ports.start (pollFinal ps).countSysInb)).countSysInb

/-! ### The timed scan -/

private theorem scanBody_timedBody (n : UInt8) (s : TimedScan) (r : Receive) :
    scanBody s.kbd r = ((timedBody n s r).1.kbd, (timedBody n s r).2) := by
  cases r with
  | failed => rfl
  | other => rfl
  | hardware m =>
    rw [scanBody, timedBody]
    by_cases hk : m.keyboard
    · simp only [hk, ↓reduceIte]
      by_cases ht : m.timer
      · simp only [ht, ↓reduceIte, timedTick_kbd]
        rfl
      · simp only [ht, Bool.false_eq_true, ↓reduceIte]
        rfl
    · simp only [hk, Bool.false_eq_true, ↓reduceIte]
      by_cases ht : m.timer
      · simp only [ht, ↓reduceIte, timedTick_kbd]
      · simp only [ht, Bool.false_eq_true, ↓reduceIte]

private theorem timed_isPrefix (n : UInt8) (rs : List Receive) :
    timedTaken n rs <+: scanTaken rs ∧ timedWritten n rs <+: scanWritten rs :=
  isPrefix_of_guard (fun _ hs => hs.1) (fun s r _ => scanBody_timedBody n s r) (timedStart n) rs

/-- Once the release of `ESC` has been accepted, `kbd_test_scan` reads nothing more. -/
private theorem timedTaken_eq_of_released {n : UInt8} {rs : List Receive}
    (hesc : ∃ p ∈ (timedTaken n rs).filterMap keyboardPair, EscReleased p) : timedTaken n rs = scanTaken rs := by
  by_contra hne
  obtain ⟨r, hmore⟩ := exists_concat_isPrefix (timed_isPrefix n rs).1 hne
  have hreading : Reading (run (fun s r => (scanBody s r).1) start (timedTaken n rs)) := guard_of_taken hmore
  have hwatched : Watched n (timedTaken n rs) (timedRun n (timedTaken n rs)) :=
    taken_invariant Watched.step (Watched.start n) rs _ List.prefix_rfl
  have hsame : run (fun s r => (scanBody s r).1) start (timedTaken n rs) = (timedRun n (timedTaken n rs)).kbd :=
    (run_simulates (I := fun _ => True) (s := timedStart n) (fun s r _ => ⟨trivial, scanBody_timedBody n s r⟩) trivial
      _).1
  rw [hsame, Reading] at hreading
  exact hreading (hwatched.esc.2 hesc)

/-- `kbd_test_timed_scan` prints a beginning of what `kbd_test_scan` prints.  Both read the same exactly if the keyboard
is never idle for `n` times 60 ticks before `kbd_test_scan` leaves. -/
theorem timed_scan_prints_beginning (n : UInt8) (rs : List Receive) :
    timedWritten n rs <+: scanWritten rs ∧
      (timedTaken n rs = scanTaken rs ↔
        ∀ pre, pre <+: scanTaken rs → pre ≠ scanTaken rs → ticksSinceKey pre < 60 * n.toNat) := by
  have hinv : ∀ pre, pre <+: timedTaken n rs → Watched n pre (timedRun n pre) :=
    taken_invariant Watched.step (Watched.start n) rs
  refine ⟨(timed_isPrefix n rs).2, fun heq pre hpre hne => ?_, fun hbusy => ?_⟩
  · rw [← heq] at hpre hne
    obtain ⟨r, hmore⟩ := exists_concat_isPrefix hpre hne
    have hreading : TimedReading (timedRun n pre) := guard_of_taken hmore
    exact Nat.lt_of_not_le fun hidle => (hinv pre hpre).reading_iff.1 hreading (Or.inr hidle)
  · by_cases hreading : TimedReading (timedRun n (timedTaken n rs))
    · -- the loop has read everything
      have hall : timedTaken n rs = rs := taken_of_guard_final hreading
      have hle : scanTaken rs <+: rs := taken_isPrefix _ _
      have hge := (timed_isPrefix n rs).1
      rw [hall] at hge ⊢
      exact hge.eq_of_length_le hle.length_le
    · by_contra hne
      rcases not_not.1 (mt (hinv _ List.prefix_rfl).reading_iff.2 hreading) with hesc | hidle
      · exact hne (timedTaken_eq_of_released hesc)
      · exact Nat.not_lt_of_le hidle (hbusy _ (timed_isPrefix n rs).1 hne)

/-! ### The reads -/

private theorem run_countSysInb {ι : Type*} {step : Kbd → ι → Kbd}
    (h : ∀ s i, (step s i).countSysInb = s.countSysInb + 2) (s : Kbd) (is : List ι) :
    (run step s is).countSysInb = s.countSysInb + 2 * UInt32.ofNat is.length := by
  induction is generalizing s with
  | nil => simp
  | cons i is ih =>
    rw [run_cons, ih, h, List.length_cons, UInt32.ofNat_add]
    grind

private theorem kbcIh_countSysInb (status temp : UInt8) (s : Kbd) :
    (kbcIh status temp s).countSysInb = s.countSysInb + 2 := by
  have htwo : s.countSysInb + 1 + 1 = s.countSysInb + 2 := by grind
  rw [kbcIh, ← htwo]
  split <;> rfl

/-- The status reads of `send_KBC_command_byte`: the polls before the first that finds the input buffer free, and that
one, or all. -/
private theorem pollAndSend_reads (c : Controller) (cmd : UInt32) (tries : Nat) (s : Ports) :
    ∃ k, k ≤ tries ∧ (0 < tries → 0 < k) ∧ (1 < tries → (k = 1 ↔ InputBufferFree (c.status s.statusReads))) ∧
      (pollAndSend c cmd tries s).2.statusReads = s.statusReads + k ∧
      (pollAndSend c cmd tries s).2.countSysInb = s.countSysInb + UInt32.ofNat k := by
  induction tries generalizing s with
  | zero => exact ⟨0, by simp [pollAndSend]⟩
  | succ tries ih =>
    by_cases hfree : InputBufferFree (c.status s.statusReads)
    · have hsent : pollAndSend c cmd (tries + 1) s = (0, sysOutb kbcCmdReg cmd (readStatus c s).2) := if_pos hfree
      rw [hsent]
      exact ⟨1, Nat.le_add_left 1 tries, fun _ => Nat.one_pos, fun _ => iff_of_true rfl hfree, rfl, rfl⟩
    · have hagain : pollAndSend c cmd (tries + 1) s = pollAndSend c cmd tries (readStatus c s).2 := if_neg hfree
      obtain ⟨k, hle, hpos, -, hreads, hcount⟩ := ih (readStatus c s).2
      rw [hagain]
      refine ⟨k + 1, Nat.succ_le_succ hle, fun _ => Nat.succ_pos k, fun htries => iff_of_false ?_ hfree, ?_, ?_⟩
      · have := hpos (by omega)
        omega
      · rw [hreads]
        show s.statusReads + 1 + k = s.statusReads + (k + 1)
        omega
      · rw [hcount, UInt32.ofNat_add]
        show s.countSysInb + 1 + UInt32.ofNat k = s.countSysInb + (UInt32.ofNat k + UInt32.ofNat 1)
        grind

/-- Between 3 and 21 port reads, 3 exactly if the first two polls find the input buffer free. -/
private theorem enableInterrupts_reads (c : Controller) (count : UInt32) :
    ∃ k, 3 ≤ k ∧ k ≤ 21 ∧ (k = 3 ↔ InputBufferFree (c.status 0) ∧ InputBufferFree (c.status 1)) ∧
      (enableInterrupts c (Ports.start count)).countSysInb = count + UInt32.ofNat k := by
  obtain ⟨k, hk, hpos, hone, hreads, hcount⟩ := pollAndSend_reads c readCmdByte 10 (Ports.start count)
  obtain ⟨k', hk', hpos', hone', -, hcount'⟩ :=
    pollAndSend_reads c writeCmdByte 10 (readCommandByte c (firstCommand c count).2).2
  have hpos := hpos (by omega)
  have hpos' := hpos' (by omega)
  have hone : k = 1 ↔ InputBufferFree (c.status 0) := hone (by omega)
  have hone' := hone' (by omega)
  have hbetween : (readCommandByte c (firstCommand c count).2).2.statusReads = k := by
    show (firstCommand c count).2.statusReads = k
    rw [firstCommand, sendKBCCommandByte, hreads]
    exact Nat.zero_add k
  rw [hbetween] at hone'
  refine ⟨k + 1 + k', by omega, by omega, ?_, ?_⟩
  · constructor
    · intro h
      obtain rfl : k = 1 := by omega
      exact ⟨hone.1 rfl, hone'.1 (by omega)⟩
    · rintro ⟨h, h'⟩
      obtain rfl := hone.2 h
      rw [hone'.2 h']
  · show (secondCommand c count).2.countSysInb = _
    rw [secondCommand, sendKBCCommandByte, hcount']
    show (firstCommand c count).2.countSysInb + 1 + UInt32.ofNat k' = _
    rw [firstCommand, sendKBCCommandByte, hcount, UInt32.ofNat_add, UInt32.ofNat_add]
    show count + UInt32.ofNat k + 1 + UInt32.ofNat k' = count + (UInt32.ofNat k + 1 + UInt32.ofNat k')
    grind

private theorem scanFinal_countSysInb (rs : List Receive) :
    (scanFinal rs).countSysInb = 2 * UInt32.ofNat (through EscReleased (rs.filterMap keyboardPair)).length := by
  have hstep : ∀ (s : Kbd) (p : UInt8 × UInt8), (scanInterrupt s p).1.countSysInb = s.countSysInb + 2 :=
    fun s p => kbcIh_countSysInb p.1 p.2 s
  rw [scanFinal, scanBody_eq, final_listen, final, taken_eq_through reading_scanInterrupt reading_start,
    run_countSysInb hstep]
  exact UInt32.zero_add _

private theorem pollFinal_countSysInb (ps : List (UInt8 × UInt8)) :
    (pollFinal ps).countSysInb = 2 * UInt32.ofNat (through EscReleased ps).length := by
  have hstep : ∀ (s : Kbd) (p : UInt8 × UInt8), (pollBody s p).1.countSysInb = s.countSysInb + 2 :=
    fun s p => kbcIh_countSysInb p.1 p.2 { s with scanCode := 0 }
  rw [pollFinal, final, taken_eq_through reading_pollBody reading_start, run_countSysInb hstep]
  exact UInt32.zero_add _

/-- When `kbd_test_scan` leaves, it reports two reads for every keyboard interrupt; `kbd_test_poll` leaves at the same
byte and reports those of `enableInterrupts` on top. -/
theorem sysinb_reported (c : Controller) (rs : List Receive) :
    let pairs := rs.filterMap keyboardPair
    (scanReport rs =
      if ∃ p ∈ pairs, EscReleased p then some (2 * UInt32.ofNat (through EscReleased pairs).length) else none) ∧
    ∃ k, 3 ≤ k ∧ k ≤ 21 ∧ (k = 3 ↔ InputBufferFree (c.status 0) ∧ InputBufferFree (c.status 1)) ∧
      pollReport c pairs = (scanReport rs).map (· + UInt32.ofNat k) := by
  intro pairs
  have hscan := scanFinal_left_iff rs
  have hpoll := pollFinal_left_iff pairs
  obtain ⟨k, hge, hle, hidle, hcount⟩ := enableInterrupts_reads c (2 * UInt32.ofNat (through EscReleased pairs).length)
  by_cases hesc : ∃ p ∈ pairs, EscReleased p
  · have hreport : scanReport rs = some (2 * UInt32.ofNat (through EscReleased pairs).length) := by
      rw [scanReport, if_neg (hscan.2 hesc), scanFinal_countSysInb]
    rw [hreport, if_pos hesc]
    refine ⟨rfl, k, hge, hle, hidle, ?_⟩
    rw [pollReport, if_neg (hpoll.2 hesc), pollFinal_countSysInb, hcount, Option.map_some]
  · have hreport : scanReport rs = none := if_pos (not_not.1 (mt hscan.1 hesc))
    rw [hreport, if_neg hesc]
    refine ⟨rfl, k, hge, hle, hidle, ?_⟩
    rw [pollReport, if_pos (not_not.1 (mt hpoll.1 hesc)), Option.map_none]

end LabChase.Lab3
