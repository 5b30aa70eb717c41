import LabChase.Library.Loops
import Mathlib.Data.List.ReduceOption

/-!
# Streams of accepted and rejected inputs

A loop that leaves after the inputs with a property reads a stream up to the first of them (`taken_eq_through`).

An input that is accepted carries a value, one that is rejected carries none.  A register that accepted inputs overwrite
and rejected ones leave alone shows a value after every input (`held`); this is the list of accepted values when
no input is rejected, and only then (`held_eq_reduceOption_iff`).

The last part is about framing: values are grouped into frames of a fixed length, and a value may be skipped while no
frame is open.  Framing what a register shows is framing the accepted values if every rejected input finds no frame open
and leaves a value in the register that opens none (`frames_held`).
-/

namespace Streams

open Runs Loops

variable {α β : Type*}

/-- A list up to and including the first element with a property. -/
def through (p : α → Prop) [DecidablePred p] : List α → List α
  | [] => []
  | a :: as => if p a then [a] else a :: through p as

section Through

variable {p : α → Prop} [DecidablePred p]

@[simp] theorem through_nil : through p [] = [] := rfl

theorem through_cons_pos {a : α} (h : p a) (as : List α) : through p (a :: as) = [a] := if_pos h

theorem through_cons_neg {a : α} (h : ¬ p a) (as : List α) : through p (a :: as) = a :: through p as := if_neg h

theorem through_append_of_not {as : List α} (h : ∀ a ∈ as, ¬ p a) (bs : List α) :
    through p (as ++ bs) = as ++ through p bs := by
  induction as with
  | nil => rfl
  | cons a as ih =>
    rw [List.cons_append, through_cons_neg (h a (List.mem_cons_self ..)), List.cons_append,
      ih fun b hb => h b (List.mem_cons_of_mem _ hb)]

theorem through_concat {as : List α} {a : α} (h : ∀ b ∈ as, ¬ p b) (ha : p a) (bs : List α) :
    through p (as ++ [a] ++ bs) = as ++ [a] := by
  rw [List.append_assoc, through_append_of_not h, List.singleton_append, through_cons_pos ha]

theorem through_subset (as : List α) : through p as ⊆ as := by
  induction as with
  | nil => exact List.Subset.refl _
  | cons a as ih =>
    by_cases h : p a
    · rw [through_cons_pos h]
      simp
    · rw [through_cons_neg h]
      exact List.cons_subset_cons a ih

theorem map_through {q : β → Prop} [DecidablePred q] {f : α → β} (h : ∀ a, p a ↔ q (f a)) (as : List α) :
    (through p as).map f = through q (as.map f) := by
  induction as with
  | nil => rfl
  | cons a as ih =>
    by_cases hp : p a
    · rw [through_cons_pos hp, List.map_cons, List.map_cons, through_cons_pos ((h a).1 hp), List.map_nil]
    · rw [through_cons_neg hp, List.map_cons, List.map_cons, through_cons_neg (mt (h a).2 hp), ih]

end Through

section Leaves

variable {σ ι ω : Type*} {guard : σ → Prop} [DecidablePred guard] {step : σ → ι → σ × List ω} {p : ι → Prop}
  [DecidablePred p]

/-- A loop whose guard fails after the inputs with a property, and only after these, leaves at the first of them. -/
theorem taken_eq_through (hstep : ∀ s i, guard s → (guard (step s i).1 ↔ ¬ p i)) {s : σ} (hs : guard s)
    (is : List ι) : taken guard step s is = through p is := by
  induction is generalizing s with
  | nil => rfl
  | cons i is ih =>
    rw [taken_cons hs]
    by_cases hp : p i
    · have hleft : ¬ guard (step s i).1 := fun h => (hstep s i hs).1 h hp
      rw [taken_of_not_guard hleft, through_cons_pos hp]
    · rw [through_cons_neg hp, ih ((hstep s i hs).2 hp)]

theorem final_not_guard_iff (hstep : ∀ s i, guard s → (guard (step s i).1 ↔ ¬ p i)) {s : σ} (hs : guard s)
    (is : List ι) : ¬ guard (final guard step s is) ↔ ∃ i ∈ is, p i := by
  induction is generalizing s with
  | nil =>
    rw [final_nil]
    simpa using hs
  | cons i is ih =>
    rw [final_cons hs, List.exists_mem_cons_iff]
    by_cases hp : p i
    · have hleft : ¬ guard (step s i).1 := fun h => (hstep s i hs).1 h hp
      rw [final_of_not_guard hleft]
      exact iff_of_true hleft (Or.inl hp)
    · rw [ih ((hstep s i hs).2 hp)]
      simp only [hp, false_or]

end Leaves

/-! ### A register -/

/-- What the register shows at the end. -/
def register (v : α) (as : List (Option α)) : α := run (fun v a => a.getD v) v as

/-- What the register shows after each input. -/
def held (v : α) : List (Option α) → List α
  | [] => []
  | a :: as => a.getD v :: held (a.getD v) as

@[simp] theorem held_nil (v : α) : held v [] = [] := rfl

@[simp] theorem length_held (v : α) (as : List (Option α)) : (held v as).length = as.length := by
  induction as generalizing v with
  | nil => rfl
  | cons a as ih => simp only [held, List.length_cons, ih]

theorem held_concat (v : α) (as : List (Option α)) (a : Option α) :
    held v (as ++ [a]) = held v as ++ [a.getD (register v as)] := by
  induction as generalizing v with
  | nil => rfl
  | cons b as ih => simp only [List.cons_append, held, ih, register, run_cons]

theorem held_eq_reduceOption {as : List (Option α)} (h : ∀ a ∈ as, a.isSome) (v : α) :
    held v as = as.reduceOption := by
  induction as generalizing v with
  | nil => rfl
  | cons a as ih =>
    obtain ⟨x, rfl⟩ := Option.isSome_iff_exists.1 (h a (List.mem_cons_self ..))
    rw [held, List.reduceOption_cons_of_some, Option.getD_some, ih fun b hb => h b (List.mem_cons_of_mem _ hb)]

@[simp] theorem held_map_some (v : α) (as : List α) : held v (as.map some) = as := by
  induction as generalizing v with
  | nil => rfl
  | cons a as ih => rw [List.map_cons, held, Option.getD_some, ih]

/-- The register shows the accepted values, each once, exactly if nothing is rejected. -/
theorem held_eq_reduceOption_iff (v : α) (as : List (Option α)) :
    held v as = as.reduceOption ↔ ∀ a ∈ as, a.isSome := by
  refine ⟨fun h => ?_, fun h => held_eq_reduceOption h v⟩
  have hlen : as.reduceOption.length = as.length := by rw [← h, length_held]
  simpa using List.reduceOption_length_eq_iff.1 hlen

section Accepted

/-- The input is accepted, with a value that has the property. -/
def Accepted (p : α → Prop) (a : Option α) : Prop := ∃ x ∈ a, p x

@[simp] theorem accepted_some {p : α → Prop} (x : α) : Accepted p (some x) ↔ p x := by simp [Accepted]

@[simp] theorem not_accepted_none {p : α → Prop} : ¬ Accepted p none := by simp [Accepted]

variable {p : α → Prop} [DecidablePred p]

instance : DecidablePred (Accepted p) := fun a =>
  match a with
  | none => isFalse not_accepted_none
  | some x => decidable_of_iff (p x) (accepted_some x).symm

theorem reduceOption_through (as : List (Option α)) :
    (through (Accepted p) as).reduceOption = through p as.reduceOption := by
  induction as with
  | nil => rfl
  | cons a as ih =>
    cases a with
    | none =>
      rw [through_cons_neg not_accepted_none, List.reduceOption_cons_of_none, List.reduceOption_cons_of_none, ih]
    | some x =>
      by_cases hx : p x
      · rw [through_cons_pos ((accepted_some x).2 hx), List.reduceOption_cons_of_some, List.reduceOption_cons_of_some,
          through_cons_pos hx, List.reduceOption_nil]
      · rw [through_cons_neg (mt (accepted_some x).1 hx), List.reduceOption_cons_of_some,
          List.reduceOption_cons_of_some, through_cons_neg hx, ih]

end Accepted

/-! ### Frames -/

section Frames

variable (opens : α → Prop) [DecidablePred opens] (n : Nat)

/-- One value: it is skipped, or it continues the open frame and may complete it. -/
def push (frame : List α) (a : α) : List α × List (List α) :=
  if frame.length = 0 ∧ ¬ opens a then (frame, [])
  else if frame.length + 1 = n then ([], [frame ++ [a]])
  else (frame ++ [a], [])

/-- The frame that is open after some values. -/
def openFrame (as : List α) : List α := run (fun frame a => (push opens n frame a).1) [] as

def frames (as : List α) : List (List α) := outputs (push opens n) [] as

variable {opens n}

theorem push_skip {frame : List α} {a : α} (hlen : frame.length = 0) (ha : ¬ opens a) :
    push opens n frame a = (frame, []) := if_pos ⟨hlen, ha⟩

private theorem push_fst_length (frame : List α) (a : α) (hn : 2 ≤ n) :
    (push opens n frame a).1.length = frame.length ↔ frame.length = 0 ∧ ¬ opens a := by
  by_cases hskip : frame.length = 0 ∧ ¬ opens a
  · rw [push, if_pos hskip]
    exact iff_of_true rfl hskip
  · rw [push, if_neg hskip]
    refine iff_of_false ?_ hskip
    split
    · simp only [List.length_nil]
      omega
    · simp only [List.length_append, List.length_singleton]
      omega

theorem openFrame_concat (as : List α) (a : α) :
    openFrame opens n (as ++ [a]) = (push opens n (openFrame opens n as) a).1 := by
  rw [openFrame, run_concat, openFrame]

theorem frames_concat (as : List α) (a : α) :
    frames opens n (as ++ [a]) = frames opens n as ++ (push opens n (openFrame opens n as) a).2 := by
  rw [frames, outputs_concat, frames, openFrame]

/-- Every rejected input finds no frame open, and leaves a value in the register that opens none. -/
def Quiet (opens : α → Prop) [DecidablePred opens] (n : Nat) (v : α) (as : List (Option α)) : Prop :=
  ∀ pre, pre ++ [none] <+: as → openFrame opens n pre.reduceOption = [] ∧ ¬ opens (register v pre)

theorem openFrame_held {v : α} {as : List (Option α)} (h : Quiet opens n v as) :
    ∀ pre, pre <+: as → openFrame opens n (held v pre) = openFrame opens n pre.reduceOption ∧
      frames opens n (held v pre) = frames opens n pre.reduceOption := by
  refine prefix_induction ⟨rfl, rfl⟩ fun pre a hpre ih => ?_
  obtain ⟨hopen, hframes⟩ := ih
  rw [held_concat, openFrame_concat, frames_concat, hopen, hframes]
  cases a with
  | none =>
    -- the value pushed again is skipped
    obtain ⟨hnil, hreg⟩ := h pre hpre
    have hskip : push opens n (openFrame opens n pre.reduceOption) (register v pre) = (_, []) :=
      push_skip (by rw [hnil, List.length_nil]) hreg
    have hpre : (pre ++ [none]).reduceOption = pre.reduceOption := by
      rw [List.reduceOption_append, List.reduceOption_singleton, Option.toList_none, List.append_nil]
    rw [Option.getD_none, hskip, hpre, List.append_nil]
    exact ⟨rfl, rfl⟩
  | some x =>
    rw [Option.getD_some, List.reduceOption_append, List.reduceOption_singleton, Option.toList_some, openFrame_concat,
      frames_concat]
    exact ⟨rfl, rfl⟩

theorem frames_held {v : α} {as : List (Option α)} (h : Quiet opens n v as) :
    frames opens n (held v as) = frames opens n as.reduceOption := (openFrame_held h as List.prefix_rfl).2

/-- A rejected input leaves the length of the open frame alone exactly if it finds none and leaves a value that opens
none. -/
theorem quiet_iff_length (hn : 2 ≤ n) (v : α) (as : List (Option α)) :
    Quiet opens n v as ↔ ∀ pre, pre ++ [none] <+: as →
      (openFrame opens n (held v (pre ++ [none]))).length = (openFrame opens n (held v pre)).length := by
  have hstep : ∀ pre : List (Option α),
      (openFrame opens n (held v (pre ++ [none]))).length = (openFrame opens n (held v pre)).length ↔
        openFrame opens n (held v pre) = [] ∧ ¬ opens (register v pre) := by
    intro pre
    rw [held_concat, openFrame_concat, push_fst_length _ _ hn, Option.getD_none, List.length_eq_zero_iff]
  constructor
  · intro h pre hpre
    obtain ⟨hnil, hreg⟩ := h pre hpre
    have hopen := (openFrame_held h pre ((List.prefix_append ..).trans hpre)).1
    exact (hstep pre).2 ⟨hopen.trans hnil, hreg⟩
  · intro h
    -- the prefixes are quiet one after the other
    have hquiet : ∀ pre, pre <+: as → Quiet opens n v pre := by
      refine prefix_induction ?_ fun pre a hpre ih => ?_
      · intro qre hqre
        simp at hqre
      · intro qre hqre
        rcases List.prefix_concat_iff.1 hqre with heq | hlt
        · obtain ⟨rfl, hnone⟩ := List.append_inj' heq rfl
          rw [List.cons.injEq] at hnone
          obtain ⟨rfl, -⟩ := hnone
          obtain ⟨hnil, hreg⟩ := (hstep qre).1 (h qre hpre)
          exact ⟨(openFrame_held ih qre List.prefix_rfl).1.symm.trans hnil, hreg⟩
        · exact ih qre hlt
    exact hquiet as List.prefix_rfl

end Frames

end Streams
