import Mathlib.Algebra.BigOperators.Ring.Finset
import Mathlib.Algebra.Ring.Divisibility.Basic
import Mathlib.Data.Finset.Prod
import Mathlib.Tactic.Linarith

/-!
# Square blocks on a lattice

Square blocks of side `k` in the integer plane, named by their least corner.  Blocks whose corners lie on one common
lattice of mesh `k` are either equal or disjoint (`overlap_iff_eq`), so a block is met by a union of such blocks
exactly when its corner is (`corner_mem_iff`), and a rectangle has room for no more of them than its area allows
(`card_mul_le_area`).
-/

namespace Lattice

/-- The corners `b` and `c` differ by a multiple of `k` in both coordinates. -/
def Aligned (k : ℤ) (b c : ℤ × ℤ) : Prop := k ∣ b.1 - c.1 ∧ k ∣ b.2 - c.2

/-- The point `p` lies in the block of side `k` with corner `b`. -/
def InBlock (k : ℤ) (b p : ℤ × ℤ) : Prop := (b.1 ≤ p.1 ∧ p.1 < b.1 + k) ∧ b.2 ≤ p.2 ∧ p.2 < b.2 + k

/-- The blocks with corners `b` and `c` share a point. -/
def Overlap (k : ℤ) (b c : ℤ × ℤ) : Prop := ∃ p, InBlock k b p ∧ InBlock k c p

variable {k : ℤ} {b c d : ℤ × ℤ}

theorem Aligned.refl (k : ℤ) (b : ℤ × ℤ) : Aligned k b b := by
  simp [Aligned]

theorem Aligned.symm (h : Aligned k b c) : Aligned k c b := by
  rw [Aligned, ← neg_sub b.1, ← neg_sub b.2, dvd_neg, dvd_neg]
  exact h

theorem Aligned.trans (h : Aligned k b c) (h' : Aligned k c d) : Aligned k b d := by
  rw [Aligned, ← sub_add_sub_cancel b.1 c.1, ← sub_add_sub_cancel b.2 c.2]
  exact ⟨dvd_add h.1 h'.1, dvd_add h.2 h'.2⟩

theorem corner_inBlock (hk : 0 < k) (b : ℤ × ℤ) : InBlock k b b := by
  unfold InBlock
  omega

/-- Two intervals of length `k` whose ends differ by a multiple of `k` meet only if they are equal. -/
private theorem eq_of_meet {x y p : ℤ} (h : k ∣ x - y) (hx : x ≤ p ∧ p < x + k) (hy : y ≤ p ∧ p < y + k) :
    x = y := by
  obtain ⟨n, hn⟩ := h
  have hn1 : k * n < k * 1 := by omega
  have hn2 : k * (-1) < k * n := by omega
  have h1 := lt_of_mul_lt_mul_left hn1 (by omega)
  have h2 := lt_of_mul_lt_mul_left hn2 (by omega)
  obtain rfl : n = 0 := by omega
  omega

theorem eq_of_inBlock {p : ℤ × ℤ} (h : Aligned k b c) (hb : InBlock k b p) (hc : InBlock k c p) : b = c :=
  Prod.ext (eq_of_meet h.1 hb.1 hc.1) (eq_of_meet h.2 hb.2 hc.2)

theorem overlap_iff_eq (hk : 0 < k) (h : Aligned k b c) : Overlap k b c ↔ b = c := by
  constructor
  · rintro ⟨p, hb, hc⟩
    exact eq_of_inBlock h hb hc
  · rintro rfl
    exact ⟨b, corner_inBlock hk b, corner_inBlock hk b⟩

theorem corner_mem_iff {S : Set (ℤ × ℤ)} (hk : 0 < k) (h : ∀ c ∈ S, Aligned k b c) :
    (∃ c ∈ S, InBlock k c b) ↔ b ∈ S := by
  constructor
  · rintro ⟨c, hc, hin⟩
    rw [eq_of_inBlock (h c hc) (corner_inBlock hk b) hin]
    exact hc
  · intro hb
    exact ⟨b, hb, corner_inBlock hk b⟩

/-! ### Packing -/

/-- The points of the rectangle of `m` by `n` whose least corner is `b`. -/
def box (m n : ℕ) (b : ℤ × ℤ) : Finset (ℤ × ℤ) :=
  (Finset.range m ×ˢ Finset.range n).image fun d => (b.1 + d.1, b.2 + d.2)

theorem mem_box {m n : ℕ} {b p : ℤ × ℤ} : p ∈ box m n b ↔ (b.1 ≤ p.1 ∧ p.1 < b.1 + m) ∧ b.2 ≤ p.2 ∧ p.2 < b.2 + n := by
  simp only [box, Finset.mem_image, Finset.mem_product, Finset.mem_range, Prod.exists, Prod.ext_iff]
  constructor
  · rintro ⟨i, j, ⟨hi, hj⟩, h1, h2⟩
    omega
  · intro h
    exact ⟨(p.1 - b.1).toNat, (p.2 - b.2).toNat, by omega, by omega, by omega⟩

theorem card_box (m n : ℕ) (b : ℤ × ℤ) : (box m n b).card = m * n := by
  have hinj : Function.Injective fun d : ℕ × ℕ => (b.1 + (d.1 : ℤ), b.2 + (d.2 : ℤ)) := by
    intro d e h
    obtain ⟨h1, h2⟩ := Prod.ext_iff.1 h
    exact Prod.ext (by simpa using h1) (by simpa using h2)
  rw [box, Finset.card_image_of_injective _ hinj, Finset.card_product, Finset.card_range, Finset.card_range]

private theorem mem_box_iff_inBlock {k : ℕ} {b p : ℤ × ℤ} : p ∈ box k k b ↔ InBlock k b p := mem_box

/-- Aligned blocks inside a rectangle are disjoint, so together they are no larger than it. -/
theorem card_mul_le_area {k m n : ℕ} {S : Finset (ℤ × ℤ)} (halign : ∀ b ∈ S, ∀ c ∈ S, Aligned k b c)
    (hin : ∀ b ∈ S, (0 ≤ b.1 ∧ b.1 + k ≤ m) ∧ 0 ≤ b.2 ∧ b.2 + k ≤ n) : S.card * (k * k) ≤ m * n := by
  have hsub : S.biUnion (box k k) ⊆ box m n (0, 0) := by
    intro p hp
    obtain ⟨b, hb, hp⟩ := Finset.mem_biUnion.1 hp
    have hbounds := hin b hb
    have hblock := mem_box.1 hp
    rw [mem_box]
    omega
  have hdisjoint : ∀ b ∈ S, ∀ c ∈ S, b ≠ c → Disjoint (box k k b) (box k k c) := by
    intro b hb c hc hne
    rw [Finset.disjoint_left]
    intro p hpb hpc
    exact hne (eq_of_inBlock (halign b hb c hc) (mem_box_iff_inBlock.1 hpb) (mem_box_iff_inBlock.1 hpc))
  have hcard := Finset.card_le_card hsub
  rw [Finset.card_biUnion hdisjoint, Finset.sum_const_nat fun b _ => card_box k k b, card_box] at hcard
  exact hcard

/-! ### Reflection -/

/-- The reflection of the first coordinate that exchanges `0` and `m`. -/
def reflect (m : ℤ) (b : ℤ × ℤ) : ℤ × ℤ := (m - b.1, b.2)

@[simp] theorem reflect_reflect (m : ℤ) (b : ℤ × ℤ) : reflect m (reflect m b) = b :=
  Prod.ext (sub_sub_cancel m b.1) rfl

theorem reflect_eq_iff {m : ℤ} : reflect m b = c ↔ b = reflect m c := by
  constructor
  · rintro rfl
    rw [reflect_reflect]
  · rintro rfl
    rw [reflect_reflect]

end Lattice
