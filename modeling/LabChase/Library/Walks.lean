import Mathlib.Algebra.Group.Basic
import Mathlib.Data.Set.Basic

/-!
# Walks that never turn back

Walks in a commutative group, as the list of the cells they visit.  A walk that may turn anywhere, but never by the
negative of the step just made, never returns to the cell it has just left (`Walk.step`).
-/

namespace Walks

section Suffixes

variable {α : Type*} {l : List α} {b b' b'' c : α}

private theorem eq_of_singleton_suffix (h : [b] <:+ l) (h' : [c] <:+ l) : b = c := by
  obtain ⟨r, rfl⟩ := h
  obtain ⟨r', h'⟩ := h'
  have hlast := congrArg List.getLast? h'
  simpa using hlast.symm

private theorem suffix_of_pair_suffix_concat (h : [b, b'] <:+ l ++ [c]) : [b] <:+ l ∧ b' = c := by
  obtain ⟨r, hr⟩ := h
  have hsplit : (r ++ [b]) ++ [b'] = l ++ [c] := by simpa using hr
  obtain ⟨hl, hc⟩ := List.append_inj' hsplit rfl
  exact ⟨⟨r, hl⟩, by simpa using hc⟩

private theorem suffix_of_triple_suffix_concat (h : [b, b', b''] <:+ l ++ [c]) : [b, b'] <:+ l ∧ b'' = c := by
  obtain ⟨r, hr⟩ := h
  have hsplit : (r ++ [b, b']) ++ [b''] = l ++ [c] := by simpa using hr
  obtain ⟨hl, hc⟩ := List.append_inj' hsplit rfl
  exact ⟨⟨r, hl⟩, by simpa using hc⟩

end Suffixes

variable {G : Type*} [AddCommGroup G]

/-- The walk `l` by steps of `S` has come to `c`, by the step `s` unless it starts there, and never stepped back to
the cell it came from. -/
structure Walk (S : Set G) (s : G) (l : List G) (c : G) : Prop where
  arrives : [c] <:+ l
  last : ∀ b, [b, c] <:+ l → c = b + s
  adjacent : ∀ b b', [b, b'] <:+: l → ∃ t ∈ S, b' = b + t
  neverBack : ∀ b b' b'', [b, b', b''] <:+: l → b'' ≠ b

variable {S : Set G} {s t : G} {l : List G} {b b' b'' c : G}

theorem Walk.start (S : Set G) (s c : G) : Walk S s [c] c where
  arrives := List.suffix_refl [c]
  last b h := by
    have := h.length_le
    simp at this
  adjacent b b' h := by
    have := h.length_le
    simp at this
  neverBack b b' b'' h := by
    have := h.length_le
    simp at this

/-- A step other than the one straight back. -/
theorem Walk.step (h : Walk S s l c) (ht : t ∈ S) (hne : s + t ≠ 0) : Walk S t (l ++ [c + t]) (c + t) where
  arrives := List.suffix_append l [c + t]
  last b hb := by
    obtain ⟨hl, -⟩ := suffix_of_pair_suffix_concat hb
    rw [eq_of_singleton_suffix hl h.arrives]
  adjacent b b' hb := by
    rcases List.infix_concat_iff.1 hb with hb | hb
    · obtain ⟨hl, hb'⟩ := suffix_of_pair_suffix_concat hb
      have hbc : b = c := eq_of_singleton_suffix hl h.arrives
      exact ⟨t, ht, by rw [hb', hbc]⟩
    · exact h.adjacent b b' hb
  neverBack b b' b'' hb := by
    rcases List.infix_concat_iff.1 hb with hb | hb
    · obtain ⟨hl, hb''⟩ := suffix_of_triple_suffix_concat hb
      have hb' : b' = c := eq_of_singleton_suffix ((List.suffix_cons b [b']).trans hl) h.arrives
      have hlast : c = b + s := h.last b (hb' ▸ hl)
      -- if the walk were back in b, its last two steps would cancel
      intro hback
      have hsum : b + (s + t) = b := by
        rw [← add_assoc, ← hlast, ← hb'', hback]
      exact hne (add_eq_left.1 hsum)
    · exact h.neverBack b b' b'' hb

end Walks
