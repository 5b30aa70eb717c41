import LabChase.Library.Runs

/-!
# Loops that read one input a turn

A `while` loop with a guard on the state, whose body reads an input, steps, and writes a list of outputs.  `taken` is
what it reads before the guard fails, `written` what it writes.  A loop leaves right after an input when the guard holds
of every state before and fails after it (`taken_append`); when an invariant makes the guard the negation of a property
of the inputs read so far, it leaves at the first moment they have it (`leavesAtFirst_of_invariant`).  Inputs that the
body does not look at can be left out (`listen`).
-/

namespace Loops

open Runs

variable {σ ι κ ω : Type*}

/-- The inputs the loop reads, one in each turn, until its guard fails. -/
def taken (guard : σ → Prop) [DecidablePred guard] (step : σ → ι → σ × List ω) : σ → List ι → List ι
  | _, [] => []
  | s, i :: is => if guard s then i :: taken guard step (step s i).1 is else []

/-- The state in which the loop stops, or waits for another input. -/
def final (guard : σ → Prop) [DecidablePred guard] (step : σ → ι → σ × List ω) (s : σ) (is : List ι) : σ :=
  run (fun s i => (step s i).1) s (taken guard step s is)

def written (guard : σ → Prop) [DecidablePred guard] (step : σ → ι → σ × List ω) (s : σ) (is : List ι) : List ω :=
  outputs step s (taken guard step s is)

section Taken

variable {guard : σ → Prop} [DecidablePred guard] {step : σ → ι → σ × List ω}

@[simp] theorem taken_nil (s : σ) : taken guard step s [] = [] := rfl

theorem taken_cons {s : σ} (h : guard s) (i : ι) (is : List ι) :
    taken guard step s (i :: is) = i :: taken guard step (step s i).1 is := if_pos h

theorem taken_of_not_guard {s : σ} (h : ¬ guard s) (is : List ι) : taken guard step s is = [] := by
  cases is with
  | nil => rfl
  | cons i is => exact if_neg h

@[simp] theorem written_nil (s : σ) : written guard step s [] = [] := rfl

theorem written_cons {s : σ} (h : guard s) (i : ι) (is : List ι) :
    written guard step s (i :: is) = (step s i).2 ++ written guard step (step s i).1 is := by
  rw [written, taken_cons h, outputs, written]

theorem written_of_not_guard {s : σ} (h : ¬ guard s) (is : List ι) : written guard step s is = [] := by
  rw [written, taken_of_not_guard h, outputs]

@[simp] theorem final_nil (s : σ) : final guard step s [] = s := rfl

theorem final_cons {s : σ} (h : guard s) (i : ι) (is : List ι) :
    final guard step s (i :: is) = final guard step (step s i).1 is := by
  rw [final, taken_cons h, run_cons, final]

theorem final_of_not_guard {s : σ} (h : ¬ guard s) (is : List ι) : final guard step s is = s := by
  rw [final, taken_of_not_guard h, run_nil]

/-- Before every input that is read the guard holds. -/
theorem guard_of_taken {s : σ} {is pre : List ι} {i : ι} (h : pre ++ [i] <+: taken guard step s is) :
    guard (run (fun s i => (step s i).1) s pre) := by
  induction pre generalizing s is with
  | nil =>
    by_contra hg
    rw [run_nil] at hg
    rw [taken_of_not_guard hg] at h
    simp at h
  | cons j pre ih =>
    cases is with
    | nil => simp at h
    | cons k is =>
      by_cases hg : guard s
      · rw [taken_cons hg, List.cons_append, List.cons_prefix_cons] at h
        obtain ⟨rfl, h⟩ := h
        exact ih h
      · rw [taken_of_not_guard hg] at h
        simp at h

theorem taken_isPrefix (s : σ) (is : List ι) : taken guard step s is <+: is := by
  induction is generalizing s with
  | nil => exact List.nil_prefix
  | cons i is ih =>
    by_cases hg : guard s
    · rw [taken_cons hg, List.cons_prefix_cons]
      exact ⟨rfl, ih _⟩
    · rw [taken_of_not_guard hg]
      exact List.nil_prefix

/-- A loop that has not left has read all its inputs. -/
theorem taken_of_guard_final {s : σ} {is : List ι} (h : guard (final guard step s is)) :
    taken guard step s is = is := by
  induction is generalizing s with
  | nil => rfl
  | cons i is ih =>
    by_cases hg : guard s
    · rw [final_cons hg] at h
      rw [taken_cons hg, ih h]
    · rw [final_of_not_guard hg] at h
      exact absurd h hg

/-- A loop that has not left reads one input more. -/
theorem taken_concat {s : σ} {is : List ι} (h : guard (final guard step s is)) (i : ι) :
    taken guard step s (is ++ [i]) = is ++ [i] := by
  induction is generalizing s with
  | nil => exact taken_cons h i []
  | cons j is ih =>
    by_cases hg : guard s
    · rw [final_cons hg] at h
      rw [List.cons_append, taken_cons hg, ih h]
    · rw [final_of_not_guard hg] at h
      exact absurd h hg

/-- What the body preserves while the guard holds is true of every state of the loop and the inputs read so far. -/
theorem taken_invariant {I : List ι → σ → Prop}
    (hstep : ∀ pre i t, I pre t → guard t → I (pre ++ [i]) (step t i).1) {s : σ} (h0 : I [] s) (is : List ι) :
    ∀ pre, pre <+: taken guard step s is → I pre (run (fun s i => (step s i).1) s pre) := by
  refine prefix_induction h0 fun pre i hpre ih => ?_
  rw [run_concat]
  exact hstep pre i _ ih (guard_of_taken hpre)

/-- From `s` the loop reads `is`, writes `os` and comes to `t`. -/
inductive Reads (guard : σ → Prop) (step : σ → ι → σ × List ω) : σ → List ι → List ω → σ → Prop where
  | nil (s : σ) : Reads guard step s [] [] s
  | cons {s s' t : σ} {i : ι} {is : List ι} {o os : List ω} (hg : guard s) (hstep : step s i = (s', o))
      (h : Reads guard step s' is os t) : Reads guard step s (i :: is) (o ++ os) t

theorem Reads.taken_append {s t : σ} {is : List ι} {os : List ω} (h : Reads guard step s is os t) (rest : List ι) :
    taken guard step s (is ++ rest) = is ++ taken guard step t rest := by
  induction h with
  | nil s => rfl
  | cons hg hstep _ ih => rw [List.cons_append, taken_cons hg, hstep, ih, List.cons_append]

theorem Reads.written_append {s t : σ} {is : List ι} {os : List ω} (h : Reads guard step s is os t) (rest : List ι) :
    written guard step s (is ++ rest) = os ++ written guard step t rest := by
  induction h with
  | nil s => rfl
  | cons hg hstep _ ih => rw [List.cons_append, written_cons hg, hstep, ih, List.append_assoc]

theorem Reads.final_append {s t : σ} {is : List ι} {os : List ω} (h : Reads guard step s is os t) (rest : List ι) :
    final guard step s (is ++ rest) = final guard step t rest := by
  induction h with
  | nil s => rfl
  | cons hg hstep _ ih => rw [List.cons_append, final_cons hg, hstep, ih]

end Taken

/-! ### A loop inside another one -/

section Inside

variable {τ : Type*} {guard : σ → Prop} [DecidablePred guard] {step : σ → ι → σ × List ω} {guard' : τ → Prop}
  [DecidablePred guard'] {step' : τ → ι → τ × List ω} {f : σ → τ}

/-- A loop whose body is that of another one, seen through a function, and that leaves no later, reads and writes what
the other one reads and writes first. -/
theorem isPrefix_of_guard (hguard : ∀ s, guard s → guard' (f s))
    (hstep : ∀ s i, guard s → step' (f s) i = (f (step s i).1, (step s i).2)) (s : σ) (is : List ι) :
    taken guard step s is <+: taken guard' step' (f s) is ∧
      written guard step s is <+: written guard' step' (f s) is := by
  induction is generalizing s with
  | nil => exact ⟨List.prefix_rfl, List.prefix_rfl⟩
  | cons i is ih =>
    by_cases hg : guard s
    · obtain ⟨htaken, hwritten⟩ := ih (step s i).1
      rw [taken_cons hg, taken_cons (hguard s hg), written_cons hg, written_cons (hguard s hg), hstep s i hg]
      exact ⟨List.cons_prefix_cons.2 ⟨rfl, htaken⟩, (List.prefix_append_right_inj _).2 hwritten⟩
    · rw [taken_of_not_guard hg, written_of_not_guard hg]
      exact ⟨List.nil_prefix, List.nil_prefix⟩

theorem written_isPrefix_outputs (hstep : ∀ s i, guard s → step' (f s) i = (f (step s i).1, (step s i).2)) (s : σ)
    (is : List ι) : written guard step s is <+: outputs step' (f s) is := by
  have hforever : ∀ (t : τ) (is : List ι), taken (fun _ : τ => True) step' t is = is := by
    intro t is
    exact taken_of_guard_final trivial
  have h : written guard step s is <+: written (fun _ : τ => True) step' (f s) is :=
    (isPrefix_of_guard (fun _ _ => trivial) hstep s is).2
  rwa [written, written, hforever] at h

end Inside

/-! ### Leaving at the first moment -/

/-- On the inputs `is` the loop leaves at the first moment the inputs read so far have the property `D`, and waits for
more if they never have. -/
structure LeavesAtFirst (guard : σ → Prop) [DecidablePred guard] (step : σ → ι → σ × List ω) (s : σ)
    (D : List ι → Prop) (is : List ι) : Prop where
  waits : (∀ pre, pre <+: is → ¬ D pre) → guard (final guard step s is) ∧ taken guard step s is = is
  leaves : ∀ pre, pre <+: is → D pre → (∀ qre, qre <+: pre → D qre → qre = pre) →
    ¬ guard (final guard step s is) ∧ taken guard step s is = pre

/-- It is enough that the guard tells of every state reached whether the inputs read have the property. -/
theorem leavesAtFirst_of_invariant {guard : σ → Prop} [DecidablePred guard] {step : σ → ι → σ × List ω} {s : σ}
    {D : List ι → Prop} {I : List ι → σ → Prop} (h0 : I [] s)
    (hstep : ∀ pre i t, I pre t → guard t → I (pre ++ [i]) (step t i).1)
    (hguard : ∀ pre t, I pre t → (guard t ↔ ¬ D pre)) (is : List ι) : LeavesAtFirst guard step s D is := by
  have hinv := taken_invariant hstep h0 is
  have hpre : taken guard step s is <+: is := taken_isPrefix s is
  have hfinal : guard (final guard step s is) ↔ ¬ D (taken guard step s is) :=
    hguard _ _ (hinv _ List.prefix_rfl)
  constructor
  · intro hnone
    have hg := hfinal.2 (hnone _ hpre)
    exact ⟨hg, taken_of_guard_final hg⟩
  · intro pre his hD hfirst
    -- the loop has not read more than `pre`
    have hle : taken guard step s is <+: pre := by
      rcases List.prefix_or_prefix_of_prefix hpre his with hle | ⟨rest, hrest⟩
      · exact hle
      · cases rest with
        | nil =>
          rw [List.append_nil] at hrest
          exact hrest ▸ List.prefix_rfl
        | cons i rest =>
          have hmore : pre ++ [i] <+: taken guard step s is := ⟨rest, by rw [← hrest]; simp⟩
          have hg := guard_of_taken hmore
          exact absurd hD ((hguard _ _ (hinv pre ((List.prefix_append ..).trans hmore))).1 hg)
    have hleft : ¬ guard (final guard step s is) := by
      intro hg
      have hall := taken_of_guard_final hg
      have heq : pre = is := his.eq_of_length_le (hall ▸ hle.length_le)
      exact hfinal.1 hg (by rw [hall, ← heq]; exact hD)
    exact ⟨hleft, hfirst _ hle (not_not.1 (mt hfinal.2 hleft))⟩

/-! ### Inputs the body does not look at -/

/-- The body that looks only at the inputs of one kind. -/
def listen (f : ι → Option κ) (step : σ → κ → σ × List ω) (s : σ) (i : ι) : σ × List ω :=
  match f i with
  | some k => step s k
  | none => (s, [])

section Listen

variable {guard : σ → Prop} [DecidablePred guard] {f : ι → Option κ} {step : σ → κ → σ × List ω}

theorem listen_some {i : ι} {k : κ} (h : f i = some k) (s : σ) : listen f step s i = step s k := by
  rw [listen, h]

theorem listen_none {i : ι} (h : f i = none) (s : σ) : listen f step s i = (s, []) := by
  rw [listen, h]

theorem run_listen (s : σ) (is : List ι) :
    run (fun s i => (listen f step s i).1) s is = run (fun s k => (step s k).1) s (is.filterMap f) := by
  induction is generalizing s with
  | nil => rfl
  | cons i is ih =>
    cases h : f i with
    | none => rw [run_cons, List.filterMap_cons_none h, listen_none h, ih]
    | some k => rw [run_cons, List.filterMap_cons_some h, run_cons, listen_some h, ih]

theorem outputs_listen (s : σ) (is : List ι) : outputs (listen f step) s is = outputs step s (is.filterMap f) := by
  induction is generalizing s with
  | nil => rfl
  | cons i is ih =>
    cases h : f i with
    | none => rw [outputs, List.filterMap_cons_none h, listen_none h, List.nil_append, ih]
    | some k => rw [outputs, List.filterMap_cons_some h, outputs, listen_some h, ih]

theorem taken_listen (s : σ) (is : List ι) :
    (taken guard (listen f step) s is).filterMap f = taken guard step s (is.filterMap f) := by
  induction is generalizing s with
  | nil => rfl
  | cons i is ih =>
    by_cases hg : guard s
    · rw [taken_cons hg]
      cases h : f i with
      | none => rw [List.filterMap_cons_none h, List.filterMap_cons_none h, listen_none h, ih]
      | some k => rw [List.filterMap_cons_some h, List.filterMap_cons_some h, taken_cons hg, listen_some h, ih]
    · rw [taken_of_not_guard hg, taken_of_not_guard hg, List.filterMap_nil]

theorem final_listen (s : σ) (is : List ι) :
    final guard (listen f step) s is = final guard step s (is.filterMap f) := by
  rw [final, run_listen, taken_listen, final]

theorem written_listen (s : σ) (is : List ι) :
    written guard (listen f step) s is = written guard step s (is.filterMap f) := by
  rw [written, outputs_listen, taken_listen, written]

end Listen

end Loops
