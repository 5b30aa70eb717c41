import LabChase.Library.Runs

/-!
# A device behind two ports

A byte written to the command port is a command, and a byte written to the data port is the argument of the command
before it, if that takes one; otherwise it goes to a default receiver.  A block of commands that ends with one data
byte delivers that byte as its last command says, wherever it comes in a sequence of writes (`deliveries_block`), and
leaves no command waiting for what comes after it.
-/

namespace TwoPorts

open Runs

variable {κ ρ δ : Type*}

inductive Write (κ δ : Type*) where
  | command (c : κ)
  | data (d : δ)

/-- Who gets the argument of a command that takes one, and who gets the bytes that are no argument. -/
structure Device (κ ρ : Type*) where
  takes : κ → Option ρ
  rest : ρ

namespace Device

/-- One write, while a command waits for its argument or none does. -/
def write (dev : Device κ ρ) (waiting : Option ρ) : Write κ δ → Option ρ × List (ρ × δ)
  | .command c => (dev.takes c, [])
  | .data d => (none, [(waiting.getD dev.rest, d)])

def waiting (dev : Device κ ρ) (ws : List (Write κ δ)) : Option ρ := run (fun x w => (dev.write x w).1) none ws

/-- Every byte that arrives, and where. -/
def deliveries (dev : Device κ ρ) (ws : List (Write κ δ)) : List (ρ × δ) := outputs dev.write none ws

private theorem run_commands (dev : Device κ ρ) (cs : List κ) :
    run (fun x (w : Write κ δ) => (dev.write x w).1) none (cs.map .command) = cs.getLast?.bind dev.takes ∧
      outputs dev.write none (cs.map (Write.command (δ := δ))) = [] := by
  induction cs using List.reverseRecOn with
  | nil => exact ⟨rfl, rfl⟩
  | append_singleton cs c ih =>
    rw [List.map_append, List.map_singleton, run_concat, outputs_concat, ih.2, List.getLast?_concat]
    exact ⟨rfl, rfl⟩

/-- A block takes nothing from the writes before it, if no command of theirs waits, and leaves no command waiting. -/
theorem deliveries_block (dev : Device κ ρ) {ws : List (Write κ δ)} (h : dev.waiting ws = none) (cs : List κ) (d : δ) :
    dev.waiting (ws ++ (cs.map .command ++ [.data d])) = none ∧
      dev.deliveries (ws ++ (cs.map .command ++ [.data d])) =
        dev.deliveries ws ++ [((cs.getLast?.bind dev.takes).getD dev.rest, d)] := by
  obtain ⟨hrun, hout⟩ := dev.run_commands (δ := δ) cs
  unfold waiting at h
  rw [waiting, deliveries, ← List.append_assoc, run_concat, outputs_concat, outputs_append, run_append, h, hrun, hout,
    List.append_nil]
  exact ⟨rfl, rfl⟩

end Device

end TwoPorts
