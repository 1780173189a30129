/-
  Two-digit mixed-radix numbers and periodic grids on the naturals.

  A pair `(h, l)` of digits with radix `B` stands for `h * B + l` (`val`).  The
  low digit is *normal* if `l ≤ B` and *canonical* if `l < B`: a normal pair
  need not be the canonical one of its value, since `(h, B)` and `(h + 1, 0)`
  have the same value.

  * `val_lt_iff`: against a canonical pair, the lexicographic order of a normal
    pair is the order of the values;
  * `val_rescale`: a count of parts, `A` to the whole, is converted to radix `B`
    digit by digit;
  * `floor`: the last point at or before `c` of the grid of period `P` through
    `t₀`, and `floor_rebase`: moving the origin to a grid point keeps the grid.
-/
import Mathlib.Algebra.Order.Group.Nat

namespace Radix

/-- The value of the digits `(h, l)` in radix `B`. -/
def val (B h l : ℕ) : ℕ := h * B + l

variable {B h l h' l' : ℕ}

/-- Against a canonical pair, lexicographic order is the order of values. -/
theorem val_lt_iff (hl : l < B) (hl' : l' ≤ B) :
    val B h l < val B h' l' ↔ h < h' ∨ h = h' ∧ l < l' := by
  simp only [val]
  rcases Nat.lt_trichotomy h h' with hh | rfl | hh
  · have : (h + 1) * B ≤ h' * B := Nat.mul_le_mul_right B hh
    rw [Nat.add_one_mul] at this
    constructor
    · intro _; exact Or.inl hh
    · intro _; omega
  · simp
  · have : (h' + 1) * B ≤ h * B := Nat.mul_le_mul_right B hh
    rw [Nat.add_one_mul] at this
    constructor
    · intro _; omega
    · rintro (h1 | ⟨h1, -⟩) <;> omega

/-- The lexicographic order of normal pairs is sound for the order of values. -/
theorem val_le_of_lex (hl : l ≤ B) (hlt : h < h' ∨ h = h' ∧ l ≤ l') :
    val B h l ≤ val B h' l' := by
  simp only [val]
  rcases hlt with hh | ⟨rfl, hl'⟩
  · have : (h + 1) * B ≤ h' * B := Nat.mul_le_mul_right B hh
    rw [Nat.add_one_mul] at this
    omega
  · omega

/-- The low digit of a conversion is canonical. -/
theorem rescale_lt {A : ℕ} (hA : 0 < A) (hB : 0 < B) (n : ℕ) : n % A * B / A < B := by
  refine Nat.div_lt_of_lt_mul ?_
  exact Nat.mul_lt_mul_of_pos_right (Nat.mod_lt n hA) hB

/-- **Conversion digit by digit.**  The wholes and the rest of `n` parts, `A` to
    the whole, are converted on their own, and nothing is lost but the one
    rounding. -/
theorem val_rescale {A : ℕ} (hA : 0 < A) (B n : ℕ) :
    val B (n / A) (n % A * B / A) = n * B / A := by
  have hn : n * B = A * (n / A * B) + n % A * B := by
    calc n * B = (A * (n / A) + n % A) * B := by rw [Nat.div_add_mod]
      _ = A * (n / A * B) + n % A * B := by rw [Nat.add_mul, Nat.mul_assoc]
  rw [hn, Nat.mul_add_div hA, val]

/-- Conversions keep the order. -/
theorem rescale_mono {n m : ℕ} (A B : ℕ) (h : n ≤ m) : n * B / A ≤ m * B / A :=
  Nat.div_le_div_right (Nat.mul_le_mul_right B h)

end Radix

namespace Grid

/-- The number of periods `P` from `t₀` to `c`. -/
def index (t₀ P c : ℕ) : ℕ := (c - t₀) / P

/-- The last point at or before `c` of the grid of period `P` through `t₀`. -/
def floor (t₀ P c : ℕ) : ℕ := t₀ + index t₀ P c * P

variable {t₀ P c c' : ℕ}

theorem floor_le (h : t₀ ≤ c) : floor t₀ P c ≤ c := by
  have := Nat.div_mul_le_self (c - t₀) P
  simp only [floor, index]; omega

theorem floor_self : floor t₀ P t₀ = t₀ := by simp [floor, index]

theorem index_mono (h : c ≤ c') : index t₀ P c ≤ index t₀ P c' :=
  Nat.div_le_div_right (by omega)

/-- The periods from a grid point are those from the origin, less its own. -/
theorem index_rebase (hP : 0 < P) (h : floor t₀ P c ≤ c') :
    index (floor t₀ P c) P c' + index t₀ P c = index t₀ P c' := by
  simp only [floor, index] at *
  have h1 : c' - t₀ = (c' - (t₀ + (c - t₀) / P * P)) + (c - t₀) / P * P := by omega
  rw [h1, Nat.add_mul_div_right _ _ hP]

/-- **Rebasing keeps the grid.** -/
theorem floor_rebase (hP : 0 < P) (h : floor t₀ P c ≤ c') :
    floor (floor t₀ P c) P c' = floor t₀ P c' := by
  have h1 := index_rebase hP h
  have h2 : floor t₀ P c' = t₀ + (index (floor t₀ P c) P c' + index t₀ P c) * P := by
    rw [h1]; rfl
  have h3 : floor (floor t₀ P c) P c' = floor t₀ P c + index (floor t₀ P c) P c' * P := rfl
  rw [h2, h3, Nat.add_mul]
  simp only [floor]; omega

/-- A point lies at least one period after a grid point iff it lies in a later
    period. -/
theorem add_le_iff_index_lt (hP : 0 < P) (h : floor t₀ P c ≤ c') :
    floor t₀ P c + P ≤ c' ↔ index t₀ P c < index t₀ P c' := by
  rw [← index_rebase hP h]
  have : index (floor t₀ P c) P c' = (c' - floor t₀ P c) / P := rfl
  rw [this]
  constructor
  · intro h'
    have := (Nat.one_le_div_iff hP).2 (by omega : P ≤ c' - floor t₀ P c)
    omega
  · intro h'
    have := (Nat.one_le_div_iff hP).1 (by omega : 1 ≤ (c' - floor t₀ P c) / P)
    omega

end Grid
