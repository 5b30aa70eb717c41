import Mathlib.Data.List.Chain
import Mathlib.Data.List.Forall2
import Mathlib.Data.List.Induction
import Mathlib.Data.List.Infix
import Mathlib.Tactic.Common

/-!
# Runs of a deterministic machine

A machine reads a list of inputs and steps once for each, and may write a list of outputs at every step.  What one
step preserves holds after every run (`run_invariant`), and what one more input preserves holds of every prefix of a run
(`prefix_induction`).  A machine that follows another one step by step follows it through every run (`run_simulates`),
and a machine whose every step is matched by a transition of a system is matched by a path of it (`exists_trace`).
-/

namespace Runs

variable {σ ι : Type*}

/-- The state after reading the inputs in order. -/
def run (step : σ → ι → σ) (s : σ) (is : List ι) : σ := is.foldl step s

@[simp] theorem run_nil (step : σ → ι → σ) (s : σ) : run step s [] = s := rfl

@[simp] theorem run_cons (step : σ → ι → σ) (s : σ) (i : ι) (is : List ι) :
    run step s (i :: is) = run step (step s i) is := rfl

theorem run_append (step : σ → ι → σ) (s : σ) (is js : List ι) :
    run step s (is ++ js) = run step (run step s is) js := List.foldl_append

@[simp] theorem run_concat (step : σ → ι → σ) (s : σ) (is : List ι) (i : ι) :
    run step s (is ++ [i]) = step (run step s is) i := by
  rw [run_append, run_cons, run_nil]

theorem run_invariant {step : σ → ι → σ} {I : σ → Prop} (hstep : ∀ s i, I s → I (step s i)) {s : σ} (h : I s)
    (is : List ι) : I (run step s is) := by
  induction is generalizing s with
  | nil => exact h
  | cons i is ih => exact ih (hstep s i h)

/-- The outputs of a machine that writes a list at every step. -/
def outputs {ω : Type*} (step : σ → ι → σ × List ω) : σ → List ι → List ω
  | _, [] => []
  | s, i :: is => (step s i).2 ++ outputs step (step s i).1 is

theorem outputs_append {ω : Type*} (step : σ → ι → σ × List ω) (s : σ) (is js : List ι) :
    outputs step s (is ++ js) = outputs step s is ++ outputs step (run (fun s i => (step s i).1) s is) js := by
  induction is generalizing s with
  | nil => simp [outputs]
  | cons i is ih => simp only [List.cons_append, outputs, ih, run_cons, List.append_assoc]

theorem outputs_concat {ω : Type*} (step : σ → ι → σ × List ω) (s : σ) (is : List ι) (i : ι) :
    outputs step s (is ++ [i]) = outputs step s is ++ (step (run (fun s i => (step s i).1) s is) i).2 := by
  rw [outputs_append, outputs, outputs, List.append_nil]

/-- What is true of every output of a step is true of every output of a run. -/
theorem forall_mem_outputs {ω : Type*} {step : σ → ι → σ × List ω} {P : ω → Prop} (h : ∀ s i, ∀ o ∈ (step s i).2, P o)
    (s : σ) (is : List ι) : ∀ o ∈ outputs step s is, P o := by
  induction is generalizing s with
  | nil => exact fun o ho => absurd ho List.not_mem_nil
  | cons i is ih =>
    intro o ho
    rcases List.mem_append.1 ho with hfirst | hrest
    · exact h s i o hfirst
    · exact ih _ o hrest

/-- A machine whose steps are those of another one, seen through a function and while an invariant holds, comes to the
same states and writes the same outputs. -/
theorem run_simulates {τ ω : Type*} {step : σ → ι → σ × List ω} {step' : τ → ι → τ × List ω} {f : σ → τ} {I : σ → Prop}
    (hstep : ∀ s i, I s → I (step s i).1 ∧ step' (f s) i = (f (step s i).1, (step s i).2)) {s : σ} (h : I s)
    (is : List ι) :
    run (fun t i => (step' t i).1) (f s) is = f (run (fun s i => (step s i).1) s is) ∧
      outputs step' (f s) is = outputs step s is := by
  induction is generalizing s with
  | nil => exact ⟨rfl, rfl⟩
  | cons i is ih =>
    obtain ⟨hnext, heq⟩ := hstep s i h
    obtain ⟨hrun, hout⟩ := ih hnext
    rw [run_cons, run_cons, outputs, outputs, heq]
    exact ⟨hrun, congrArg _ hout⟩

/-- The inputs a machine hears in a run, where a step hears at most one. -/
def heard {κ : Type*} (step : σ → ι → σ) (hears : σ → ι → Option κ) : σ → List ι → List κ
  | _, [] => []
  | s, i :: is => (hears s i).toList ++ heard step hears (step s i) is

section Heard

variable {κ : Type*} {step : σ → ι → σ} {hears : σ → ι → Option κ}

theorem heard_append (s : σ) (is js : List ι) :
    heard step hears s (is ++ js) = heard step hears s is ++ heard step hears (run step s is) js := by
  induction is generalizing s with
  | nil => rfl
  | cons i is ih => simp only [List.cons_append, heard, ih, run_cons, List.append_assoc]

theorem heard_concat {s : σ} {is : List ι} {i : ι} {k : κ} (h : hears (run step s is) i = some k) :
    heard step hears s (is ++ [i]) = heard step hears s is ++ [k] := by
  rw [heard_append, heard, heard, h, Option.toList_some, List.append_nil]

/-- What is heard does not depend on the states. -/
theorem heard_eq_filterMap {f : ι → Option κ} (h : ∀ s i, hears s i = f i) (s : σ) (is : List ι) :
    heard step hears s is = is.filterMap f := by
  induction is generalizing s with
  | nil => rfl
  | cons i is ih =>
    rw [heard, ih, h]
    cases hi : f i with
    | none => rw [List.filterMap_cons_none hi, Option.toList_none, List.nil_append]
    | some k => rw [List.filterMap_cons_some hi, Option.toList_some, List.singleton_append]

/-- What is heard in a part of a run comes first in what is heard in the run. -/
theorem heard_mono (s : σ) {pre is : List ι} (h : pre <+: is) : heard step hears s pre <+: heard step hears s is := by
  obtain ⟨rest, rfl⟩ := h
  rw [heard_append]
  exact List.prefix_append ..

/-- Each input that is heard is heard at some step. -/
theorem exists_heard {s : σ} {is : List ι} {ks : List κ} {k : κ} (h : ks ++ [k] <+: heard step hears s is) :
    ∃ pre i, pre ++ [i] <+: is ∧ heard step hears s pre = ks ∧ hears (run step s pre) i = some k := by
  induction is generalizing s ks with
  | nil => simp [heard] at h
  | cons i is ih =>
    rw [heard] at h
    cases hi : hears s i with
    | none =>
      rw [hi, Option.toList_none, List.nil_append] at h
      obtain ⟨pre, j, hpre, hks, hj⟩ := ih h
      refine ⟨i :: pre, j, ?_, ?_, hj⟩
      · rw [List.cons_append, List.cons_prefix_cons]
        exact ⟨rfl, hpre⟩
      · rw [heard, hi, Option.toList_none, List.nil_append, hks]
    | some k' =>
      rw [hi, Option.toList_some, List.singleton_append] at h
      cases ks with
      | nil =>
        rw [List.nil_append, List.cons_prefix_cons] at h
        refine ⟨[], i, ?_, rfl, ?_⟩
        · rw [List.nil_append, List.cons_prefix_cons]
          exact ⟨rfl, List.nil_prefix⟩
        · rw [run_nil, hi, h.1]
      | cons k'' ks =>
        rw [List.cons_append, List.cons_prefix_cons] at h
        obtain ⟨rfl, h⟩ := h
        obtain ⟨pre, j, hpre, hks, hj⟩ := ih h
        refine ⟨i :: pre, j, ?_, ?_, hj⟩
        · rw [List.cons_append, List.cons_prefix_cons]
          exact ⟨rfl, hpre⟩
        · rw [heard, hi, Option.toList_some, List.singleton_append, hks]

end Heard

/-- A prefix that is not the whole can be continued. -/
theorem exists_concat_isPrefix {pre is : List ι} (h : pre <+: is) (hne : pre ≠ is) : ∃ i, pre ++ [i] <+: is := by
  obtain ⟨rest, rfl⟩ := h
  cases rest with
  | nil => exact absurd (List.append_nil pre).symm hne
  | cons i rest => exact ⟨i, rest, by rw [List.append_assoc, List.singleton_append]⟩

theorem prefix_induction {P : List ι → Prop} {is : List ι} (h0 : P [])
    (hstep : ∀ pre i, pre ++ [i] <+: is → P pre → P (pre ++ [i])) : ∀ pre, pre <+: is → P pre := by
  intro pre
  induction pre using List.reverseRecOn with
  | nil => exact fun _ => h0
  | append_singleton pre i ih =>
    intro hpre
    exact hstep pre i hpre (ih ((List.prefix_append pre [i]).trans hpre))

/-- Where every step of a run is matched by a transition, there is a path of transitions whose states match those of the
run one by one. -/
theorem exists_trace {τ : Type*} {step : σ → ι → σ} {R : σ → τ → Prop} {next : τ → τ → Prop} {s : σ} {t : τ}
    (h0 : R s t) {is : List ι}
    (hstep : ∀ pre i, pre ++ [i] <+: is → ∀ t, R (run step s pre) t →
      ∃ t', next t t' ∧ R (run step s (pre ++ [i])) t') :
    ∃ trace, (t :: trace).IsChain next ∧ is.inits.Forall₂ (fun pre t => R (run step s pre) t) (t :: trace) := by
  induction is generalizing s t with
  | nil => exact ⟨[], .singleton t, .cons h0 .nil⟩
  | cons i is ih =>
    obtain ⟨t', hnext, h1⟩ := hstep [] i (List.cons_prefix_cons.2 ⟨rfl, List.nil_prefix⟩) t h0
    obtain ⟨trace, hchain, hmatch⟩ := ih h1 fun pre j hpre => hstep (i :: pre) j (List.cons_prefix_cons.2 ⟨rfl, hpre⟩)
    refine ⟨t' :: trace, .cons_cons hnext hchain, ?_⟩
    rw [List.inits_cons]
    exact .cons h0 (List.forall₂_map_left_iff.2 hmatch)

end Runs
