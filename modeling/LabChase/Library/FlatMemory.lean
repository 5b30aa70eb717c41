import Mathlib.Tactic.Common
import Mathlib.Tactic.Positivity
import Mathlib.Tactic.Ring

/-!
# A flat 32-bit byte memory

Bytes addressed by 32-bit pointers, with the block operations of the C library: `memcpy` and `memset` write a block
of consecutive bytes, `loadLE` reads one as a little-endian number.  Pointer arithmetic wraps, as on the machine.
The key facts: a load from a block just stored returns the stored number (`loadLE_memcpy_self`), a load from a
disjoint block is unchanged (`loadLE_memcpy_disjoint`), and a load from a block of equal bytes is determined by the
byte (`loadLE_const`).
-/

namespace FlatMemory

abbrev Mem := UInt32 → UInt8

/-- `memcpy(dst, src, n)`: byte `i` of the source goes to address `dst + i`, for `i < n`. -/
def memcpy (mem : Mem) (dst : UInt32) (src : Nat → UInt8) (n : Nat) : Mem := fun a =>
  if (a - dst).toNat < n then src (a - dst).toNat else mem a

def memset (mem : Mem) (dst : UInt32) (c : UInt8) (n : Nat) : Mem := memcpy mem dst (fun _ => c) n

/-- Byte `i` of the little-endian representation of `v`. -/
def leByte (v i : Nat) : UInt8 := UInt8.ofNat (v / 256 ^ i)

/-- The number stored in the `n` bytes from `a`, least significant byte first. -/
def loadLE (mem : Mem) (a : UInt32) : Nat → Nat
  | 0 => 0
  | n + 1 => (mem a).toNat + 256 * loadLE mem (a + 1) n

/-! ### Blocks of addresses -/

/-- Membership in the block of `n` bytes from `dst`, when the block does not wrap. -/
theorem sub_toNat_lt_iff {a dst : UInt32} {n : Nat} (h : dst.toNat + n ≤ 2 ^ 32) :
    (a - dst).toNat < n ↔ dst.toNat ≤ a.toNat ∧ a.toNat < dst.toNat + n := by
  have ha := a.toNat_lt
  have hd := dst.toNat_lt
  rw [UInt32.toNat_sub]
  omega

theorem toNat_add_ofNat {a : UInt32} {i : Nat} (h : a.toNat + i < 2 ^ 32) :
    (a + UInt32.ofNat i).toNat = a.toNat + i := by
  rw [UInt32.toNat_add, UInt32.toNat_ofNat']
  omega

theorem add_ofNat_sub_toNat (a : UInt32) {i : Nat} (h : i < 2 ^ 32) :
    (a + UInt32.ofNat i - a).toNat = i := by
  rw [UInt32.add_comm, UInt32.add_sub_cancel, UInt32.toNat_ofNat']
  omega

private theorem add_one_add_ofNat (a : UInt32) (i : Nat) :
    a + 1 + UInt32.ofNat i = a + UInt32.ofNat (i + 1) := by
  apply UInt32.toNat_inj.1
  simp only [UInt32.toNat_add, UInt32.toNat_ofNat', UInt32.reduceToNat]
  omega

/-! ### Block stores -/

theorem memcpy_inside {mem : Mem} {dst a : UInt32} {src : Nat → UInt8} {n : Nat}
    (h : dst.toNat + n ≤ 2 ^ 32) (h1 : dst.toNat ≤ a.toNat) (h2 : a.toNat < dst.toNat + n) :
    memcpy mem dst src n a = src (a.toNat - dst.toNat) := by
  have hin := (sub_toNat_lt_iff (a := a) h).2 ⟨h1, h2⟩
  have hsub : (a - dst).toNat = a.toNat - dst.toNat := by
    have := a.toNat_lt
    rw [UInt32.toNat_sub]
    omega
  simp only [memcpy, hin, ↓reduceIte]
  rw [hsub]

theorem memcpy_outside {mem : Mem} {dst a : UInt32} {src : Nat → UInt8} {n : Nat}
    (h : dst.toNat + n ≤ 2 ^ 32) (ha : a.toNat < dst.toNat ∨ dst.toNat + n ≤ a.toNat) :
    memcpy mem dst src n a = mem a := by
  have hout : ¬ (a - dst).toNat < n := by
    rw [sub_toNat_lt_iff h]
    omega
  simp only [memcpy, hout, ↓reduceIte]

theorem memcpy_congr {mem mem' : Mem} {a : UInt32} (h : mem a = mem' a) (dst : UInt32) (src : Nat → UInt8) (n : Nat) :
    memcpy mem dst src n a = memcpy mem' dst src n a := by
  simp only [memcpy, h]

/-! ### Lists of copies -/

/-- A call of `memcpy`. -/
structure Copy where
  dst : UInt32
  src : Nat → UInt8
  len : Nat

/-- The address is one the copy writes to. -/
def Copy.Covers (c : Copy) (a : UInt32) : Prop := (a - c.dst).toNat < c.len

/-- The byte the copy writes to the address. -/
def Copy.byte (c : Copy) (a : UInt32) : UInt8 := c.src (a - c.dst).toNat

/-- The calls in their order. -/
def copyAll (mem : Mem) (cs : List Copy) : Mem := cs.foldl (fun mem c => memcpy mem c.dst c.src c.len) mem

theorem copyAll_append (mem : Mem) (cs ds : List Copy) : copyAll mem (cs ++ ds) = copyAll (copyAll mem cs) ds :=
  List.foldl_append

theorem copyAll_congr_mem {mem mem' : Mem} {a : UInt32} (h : mem a = mem' a) (cs : List Copy) :
    copyAll mem cs a = copyAll mem' cs a := by
  induction cs generalizing mem mem' with
  | nil => exact h
  | cons c cs ih => exact ih (memcpy_congr h c.dst c.src c.len)

theorem copyAll_of_not_covered {cs : List Copy} {a : UInt32} (h : ∀ c ∈ cs, ¬ c.Covers a) (mem : Mem) :
    copyAll mem cs a = mem a := by
  induction cs generalizing mem with
  | nil => rfl
  | cons c cs ih =>
    have hc : memcpy mem c.dst c.src c.len a = mem a := if_neg (h c (List.mem_cons_self ..))
    exact (ih (fun d hd => h d (List.mem_cons_of_mem _ hd)) _).trans hc

/-- Where the copies that cover an address write the same byte to it, their order does not matter. -/
theorem copyAll_of_covered {cs : List Copy} {a : UInt32} {b : UInt8} (h : ∃ c ∈ cs, c.Covers a)
    (hb : ∀ c ∈ cs, c.Covers a → c.byte a = b) (mem : Mem) : copyAll mem cs a = b := by
  induction cs generalizing mem with
  | nil => simp at h
  | cons c cs ih =>
    have hb' : ∀ d ∈ cs, d.Covers a → d.byte a = b := fun d hd => hb d (List.mem_cons_of_mem _ hd)
    show copyAll (memcpy mem c.dst c.src c.len) cs a = b
    by_cases hcs : ∃ d ∈ cs, d.Covers a
    · exact ih hcs hb' _
    · have hc : c.Covers a := (List.exists_mem_cons_iff _ _ _).1 h |>.resolve_right hcs
      rw [copyAll_of_not_covered (fun d hd hd' => hcs ⟨d, hd, hd'⟩)]
      exact (if_pos hc).trans (hb c (List.mem_cons_self ..) hc)

/-- What is written to a covered address does not depend on what was there. -/
theorem exists_byte_of_covered {cs : List Copy} {a : UInt32} (h : ∃ c ∈ cs, c.Covers a) :
    ∃ b, ∀ mem, copyAll mem cs a = b := by
  induction cs with
  | nil => simp at h
  | cons c cs ih =>
    by_cases hcs : ∃ d ∈ cs, d.Covers a
    · obtain ⟨b, hb⟩ := ih hcs
      exact ⟨b, fun mem => hb _⟩
    · have hc : c.Covers a := (List.exists_mem_cons_iff _ _ _).1 h |>.resolve_right hcs
      refine ⟨c.byte a, fun mem => ?_⟩
      have hrest := copyAll_of_not_covered (fun d hd hd' => hcs ⟨d, hd, hd'⟩) (memcpy mem c.dst c.src c.len)
      exact hrest.trans (if_pos hc)

/-- Two lists of copies that cover the same addresses, and with the same bytes, do the same. -/
theorem copyAll_congr {cs ds : List Copy} (hcov : ∀ a, (∃ c ∈ cs, c.Covers a) ↔ ∃ d ∈ ds, d.Covers a)
    (hbyte : ∀ a, ∀ c ∈ cs, ∀ d ∈ ds, c.Covers a → d.Covers a → c.byte a = d.byte a) (mem : Mem) :
    copyAll mem cs = copyAll mem ds := by
  funext a
  by_cases h : ∃ c ∈ cs, c.Covers a
  · obtain ⟨c, hc, hca⟩ := h
    obtain ⟨d, hd, hda⟩ := (hcov a).1 ⟨c, hc, hca⟩
    rw [copyAll_of_covered ⟨c, hc, hca⟩ fun c' hc' hca' => hbyte a c' hc' d hd hca' hda,
      copyAll_of_covered ⟨d, hd, hda⟩ fun d' hd' hda' =>
        (hbyte a c hc d' hd' hca hda').symm.trans (hbyte a c hc d hd hca hda)]
  · have h' : ¬ ∃ d ∈ ds, d.Covers a := mt (hcov a).2 h
    rw [copyAll_of_not_covered fun c hc hca => h ⟨c, hc, hca⟩,
      copyAll_of_not_covered fun d hd hda => h' ⟨d, hd, hda⟩]

/-! ### Little-endian loads -/

theorem loadLE_congr {mem mem' : Mem} {a : UInt32} {n : Nat}
    (h : ∀ i < n, mem (a + UInt32.ofNat i) = mem' (a + UInt32.ofNat i)) :
    loadLE mem a n = loadLE mem' a n := by
  induction n generalizing a with
  | zero => rfl
  | succ n ih =>
    have h0 : mem a = mem' a := by simpa using h 0 (by omega)
    have hrest : loadLE mem (a + 1) n = loadLE mem' (a + 1) n := by
      apply ih
      intro i hi
      rw [add_one_add_ofNat]
      exact h (i + 1) (by omega)
    simp only [loadLE, h0, hrest]

/-- A block that holds the bytes of `v` loads as `v`, truncated to the block. -/
theorem loadLE_leByte {mem : Mem} {a : UInt32} {v n : Nat}
    (h : ∀ i < n, mem (a + UInt32.ofNat i) = leByte v i) : loadLE mem a n = v % 256 ^ n := by
  induction n generalizing a v with
  | zero => simp [loadLE, Nat.mod_one]
  | succ n ih =>
    have h0 : (mem a).toNat = v % 256 := by
      have := h 0 (by omega)
      simp only [leByte, pow_zero, Nat.div_one] at this
      rw [show a + UInt32.ofNat 0 = a by simp] at this
      rw [this, UInt8.toNat_ofNat']
    have hrest : loadLE mem (a + 1) n = v / 256 % 256 ^ n := by
      apply ih
      intro i hi
      rw [add_one_add_ofNat, h (i + 1) (by omega), leByte, leByte, Nat.div_div_eq_div_mul, pow_succ']
    rw [loadLE, h0, hrest, pow_succ', Nat.mod_mul]

theorem loadLE_memcpy_self (mem : Mem) (a : UInt32) (v : Nat) {n : Nat} (hn : n ≤ 2 ^ 32) :
    loadLE (memcpy mem a (leByte v) n) a n = v % 256 ^ n := by
  apply loadLE_leByte
  intro i hi
  simp only [memcpy, add_ofNat_sub_toNat a (show i < 2 ^ 32 by omega), hi, ↓reduceIte]

theorem loadLE_memcpy_disjoint {mem : Mem} {a dst : UInt32} {src : Nat → UInt8} {n k : Nat}
    (ha : a.toNat + n ≤ 2 ^ 32) (hd : dst.toNat + k ≤ 2 ^ 32)
    (h : a.toNat + n ≤ dst.toNat ∨ dst.toNat + k ≤ a.toNat) :
    loadLE (memcpy mem dst src k) a n = loadLE mem a n := by
  apply loadLE_congr
  intro i hi
  apply memcpy_outside hd
  rw [toNat_add_ofNat (by omega)]
  omega

/-- A load is the number that the bytes of the block make up. -/
theorem leByte_loadLE (mem : Mem) (a : UInt32) {n i : Nat} (hi : i < n) :
    leByte (loadLE mem a n) i = mem (a + UInt32.ofNat i) := by
  induction n generalizing a i with
  | zero => omega
  | succ n ih =>
    have hlow := (mem a).toNat_lt
    cases i with
    | zero =>
      have hmod : ((mem a).toNat + 256 * loadLE mem (a + 1) n) % 256 = (mem a).toNat := by omega
      apply UInt8.toNat_inj.1
      rw [leByte, loadLE, pow_zero, Nat.div_one, UInt8.toNat_ofNat', hmod]
      simp
    | succ i =>
      have hdiv : ((mem a).toNat + 256 * loadLE mem (a + 1) n) / 256 = loadLE mem (a + 1) n := by omega
      have hrest := ih (a + 1) (Nat.lt_of_succ_lt_succ hi)
      rw [leByte] at hrest
      rw [leByte, loadLE, pow_succ', ← Nat.div_div_eq_div_mul, hdiv, hrest, add_one_add_ofNat]

theorem loadLE_lt (mem : Mem) (a : UInt32) (n : Nat) : loadLE mem a n < 256 ^ n := by
  induction n generalizing a with
  | zero => simp [loadLE]
  | succ n ih =>
    have hlow := (mem a).toNat_lt
    have hrest := ih (a + 1)
    rw [loadLE, pow_succ']
    omega

theorem loadLE_const {mem : Mem} {a : UInt32} {c : UInt8} {n : Nat}
    (h : ∀ i < n, mem (a + UInt32.ofNat i) = c) : 255 * loadLE mem a n = c.toNat * (256 ^ n - 1) := by
  induction n generalizing a with
  | zero => simp [loadLE]
  | succ n ih =>
    have h0 : mem a = c := by simpa using h 0 (by omega)
    have hrest : 255 * loadLE mem (a + 1) n = c.toNat * (256 ^ n - 1) := by
      apply ih
      intro i hi
      rw [add_one_add_ofNat]
      exact h (i + 1) (by omega)
    have hpos : 0 < 256 ^ n := by positivity
    obtain ⟨p, hp⟩ : ∃ p, 256 ^ n = p + 1 := ⟨256 ^ n - 1, by omega⟩
    calc 255 * loadLE mem a (n + 1)
        = 255 * c.toNat + 256 * (255 * loadLE mem (a + 1) n) := by rw [loadLE, h0]; ring
      _ = c.toNat * (256 ^ (n + 1) - 1) := by
          rw [hrest, pow_succ, hp, Nat.add_sub_cancel, show (p + 1) * 256 - 1 = 256 * p + 255 by omega]
          ring

end FlatMemory
