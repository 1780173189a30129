/-
  The arithmetic of `efu_time`, operator by operator.

  A time has one form only if its ticks stay below a second (`Canonical`); the
  two-argument constructor leaves exactly one second of ticks as it is, and so
  do the operators that call it.

  * `normalForm_iff`: the times obtained by the operators have a unique form
    iff no step comes to exactly one second of ticks (`Expr.Clear`);
  * `arithmetic_exact`: on canonical times `+`, `-` and `*` are exact in ticks
    as long as the seconds of the result fit, and no intermediate word wraps;
  * `euclid_iff`: `/` and `%` satisfy Euclid's law iff the quotient fits into
    32 bits;
  * `now_exact`: the constructor that reads the clock rounds to a tick once, and
    keeps the order of the readings.
-/
import ReadoutMaster.EfuTime
import ReadoutMaster.Lib.Machine

namespace ReadoutMaster

open Machine

namespace EfuTime

/-! ## Canonical results -/

section
variable {a b : EfuTime} {h l m : UInt32}

theorem canonical_make_iff : (make h l).Canonical ↔ l.toNat ≠ 88052499 := by
  rw [Canonical, make_low]
  split_ifs <;> omega

theorem canonical_add_iff : (a + b).Canonical ↔ (a.low + b.low).toNat ≠ 88052499 := by
  rw [add_def, canonical_make_iff]

theorem canonical_mul_iff : (a * m).Canonical ↔ a.low.toNat * m.toNat ≠ 88052499 := by
  obtain ⟨c, hc, -, -, hl⟩ := mul_digits a m
  rw [Canonical, hl, hc]
  split_ifs <;> omega

/-- Differences of a canonical time are canonical. -/
theorem canonical_sub {c : EfuTime} (ha : a.Canonical) (hb : b.Normal) (h : a.sub b = .ok c) :
    c.Canonical := by
  cases hlt : a.lt b with
  | true =>
    rw [sub_error hlt] at h
    cases h
  | false =>
    obtain ⟨c', hc, -, -, hcan⟩ := sub_ok ha.normal hb hlt
    obtain rfl := Except.ok.inj (hc.symm.trans h)
    exact hcan ha

/-- Remainders of a canonical time are canonical: whatever the product is, it
    is normal. -/
theorem canonical_mod {c : EfuTime} (ha : a.Canonical) (h : a.mod b = .ok c) : c.Canonical :=
  canonical_sub ha (normal_mul _ _) h

end

/-! ## Unique form -/

/-- How a time is obtained from pairs of words. -/
inductive Expr where
  | make (high low : UInt32)
  | add (a b : Expr)
  | sub (a b : Expr)
  | mul (a : Expr) (m : UInt32)
  | mod (a b : Expr)

namespace Expr

def eval : Expr → Except Exn EfuTime
  | .make high low => .ok (EfuTime.make high low)
  | .add a b => do return (← a.eval) + (← b.eval)
  | .sub a b => do (← a.eval).sub (← b.eval)
  | .mul a m => do return (← a.eval) * m
  | .mod a b => do (← a.eval).mod (← b.eval)

/-- The times obtained on the way, the last one included. -/
def values (e : Expr) : List EfuTime :=
  (match e with
    | .make _ _ => []
    | .add a b | .sub a b | .mod a b => a.values ++ b.values
    | .mul a _ => a.values) ++ e.eval.toOption.toList

/-- No step comes to exactly one second of ticks. -/
def Clear : Expr → Prop
  | .make _ low => low.toNat ≠ 88052499
  | .add a b => a.Clear ∧ b.Clear ∧
      ∀ u v, a.eval = .ok u → b.eval = .ok v → (u.low + v.low).toNat ≠ 88052499
  | .sub a b | .mod a b => a.Clear ∧ b.Clear
  | .mul a m => a.Clear ∧ ∀ u, a.eval = .ok u → u.low.toNat * m.toNat ≠ 88052499

theorem mem_toOption {x : Except Exn EfuTime} {t : EfuTime} :
    t ∈ x.toOption.toList ↔ x = .ok t := by
  cases x with
  | error e => simp [Except.toOption]
  | ok u => simp [Except.toOption, eq_comm]

theorem mem_values {e : Expr} {t : EfuTime} (h : e.eval = .ok t) : t ∈ e.values := by
  unfold values
  exact List.mem_append_right _ (mem_toOption.2 h)

/-- **The times obtained are canonical** iff no step comes to exactly one second
    of ticks. -/
theorem values_canonical_iff (e : Expr) : (∀ t ∈ e.values, t.Canonical) ↔ e.Clear := by
  induction e with
  | make high low =>
    simp only [values, eval, Clear, List.nil_append, mem_toOption, Except.ok.injEq, forall_eq']
    exact canonical_make_iff
  | add a b iha ihb =>
    simp only [Clear, ← iha, ← ihb, values, List.mem_append, mem_toOption, or_imp, forall_and,
      and_assoc, eval, except_bind_eq_ok]
    refine and_congr_right fun _ => and_congr_right fun _ => ?_
    constructor
    · intro h u v hu hv
      exact canonical_add_iff.1 (h (u + v) ⟨u, hu, v, hv, rfl⟩)
    · rintro h t ⟨u, hu, v, hv, ht⟩
      obtain rfl := Except.ok.inj ht
      exact canonical_add_iff.2 (h u v hu hv)
  | sub a b iha ihb =>
    simp only [Clear, ← iha, ← ihb, values, List.mem_append, mem_toOption, or_imp, forall_and,
      eval, except_bind_eq_ok]
    refine and_iff_left_of_imp ?_
    rintro ⟨ha, hb⟩ t ⟨u, hu, v, hv, ht⟩
    exact canonical_sub (ha u (mem_values hu)) (hb v (mem_values hv)).normal ht
  | mul a m iha =>
    simp only [Clear, ← iha, values, List.mem_append, mem_toOption, or_imp, forall_and, eval,
      except_bind_eq_ok]
    refine and_congr_right fun _ => ?_
    constructor
    · intro h u hu
      exact canonical_mul_iff.1 (h (u * m) ⟨u, hu, rfl⟩)
    · rintro h t ⟨u, hu, ht⟩
      obtain rfl := Except.ok.inj ht
      exact canonical_mul_iff.2 (h u hu)
  | mod a b iha ihb =>
    simp only [Clear, ← iha, ← ihb, values, List.mem_append, mem_toOption, or_imp, forall_and,
      eval, except_bind_eq_ok]
    refine and_iff_left_of_imp ?_
    rintro ⟨ha, -⟩ t ⟨u, hu, v, -, ht⟩
    exact canonical_mod (ha u (mem_values hu)) ht

end Expr

/-- The comparisons of the class are those of the ticks. -/
structure ComparesTicks (a b : EfuTime) : Prop where
  eq : (a == b) = true ↔ a.totalTicks = b.totalTicks
  lt : a.lt b = true ↔ a.totalTicks < b.totalTicks
  gt : a.gt b = true ↔ a.totalTicks > b.totalTicks

theorem comparesTicks {a b : EfuTime} (ha : a.Canonical) (hb : b.Canonical) :
    ComparesTicks a b where
  eq := by
    rw [beq_iff_eq, ← UInt64.toNat_inj, toNat_totalTicks, toNat_totalTicks]
    constructor
    · rintro rfl
      rfl
    · intro h
      exact val_inj ha hb h
  lt := by
    rw [lt_iff_of_canonical ha hb.normal, UInt64.lt_iff_toNat_lt, toNat_totalTicks,
      toNat_totalTicks]
  gt := by
    rw [gt_eq_lt, lt_iff_of_canonical hb ha.normal, gt_iff_lt, UInt64.lt_iff_toNat_lt,
      toNat_totalTicks, toNat_totalTicks]

/-- The low field of each of the times is below a second, and any two of them
    compare as their ticks do. -/
def UniqueForm (ts : List EfuTime) : Prop :=
  (∀ t ∈ ts, t.low.toUInt64 < ticks) ∧ ∀ a ∈ ts, ∀ b ∈ ts, ComparesTicks a b

/-- **Normal form.**  The times obtained along any expressions have a unique
    form iff no step of these comes to exactly one second of ticks. -/
theorem normalForm_iff (es : List Expr) :
    UniqueForm (es.flatMap Expr.values) ↔ ∀ e ∈ es, e.Clear := by
  have hcan : (∀ t ∈ es.flatMap Expr.values, t.Canonical) ↔ ∀ e ∈ es, e.Clear := by
    simp only [← Expr.values_canonical_iff, List.mem_flatMap]
    constructor
    · intro h e he t ht
      exact h t ⟨e, he, ht⟩
    · rintro h t ⟨e, he, ht⟩
      exact h e he t ht
  have hlow : ∀ t : EfuTime, t.low.toUInt64 < ticks ↔ t.Canonical := by
    intro t
    rw [UInt64.lt_iff_toNat_lt, UInt32.toNat_toUInt64, toNat_ticks, Canonical]
  simp only [UniqueForm, hlow, hcan]
  constructor
  · rintro ⟨h, -⟩
    exact h
  · intro h
    refine ⟨h, ?_⟩
    intro a ha b hb
    exact comparesTicks (hcan.2 h a ha) (hcan.2 h b hb)

/-- One second of ticks and one second are the same time and compare
    different. -/
theorem two_forms :
    (make 0 88052499).totalTicks = (make 1 0).totalTicks ∧
      (make 0 88052499 == make 1 0) = false ∧ (make 0 88052499).lt (make 1 0) = true ∧
      ¬ UniqueForm ([Expr.make 0 88052499, .make 1 0].flatMap Expr.values) := by
  refine ⟨by decide, by decide, by decide, ?_⟩
  rintro ⟨h, -⟩
  exact absurd (h (make 0 88052499) (by decide)) (by decide)

/-! ## Exact arithmetic

The words an operator computes on its way stay in range: a 32- or 64-bit word
is the number it stands for. -/

/-- `efu_time(high, low)` -/
structure MakeInRange (high low : UInt32) : Prop where
  carry : 88052499 < low.toNat → high.toNat + low.toNat / 88052499 < 2 ^ 32

/-- `a + b` -/
structure AddInRange (a b : EfuTime) : Prop where
  high : a.high.toNat + b.high.toNat < 2 ^ 32
  low : a.low.toNat + b.low.toNat < 2 ^ 32
  make : MakeInRange (a.high + b.high) (a.low + b.low)

/-- `t * m` -/
structure MulInRange (t : EfuTime) (m : UInt32) : Prop where
  high : t.high.toNat * m.toNat < 2 ^ 32
  low : t.low.toNat * m.toNat < 2 ^ 64
  quotient : t.low.toNat * m.toNat / 88052499 < 2 ^ 32
  carry : 88052499 < t.low.toNat * m.toNat →
    t.high.toNat * m.toNat + t.low.toNat * m.toNat / 88052499 < 2 ^ 32 ∧
      MakeInRange (t.high * m + (t.low.toUInt64 * m.toUInt64 / ticks).toUInt32)
        (t.low.toUInt64 * m.toUInt64 % ticks).toUInt32
  plain : t.low.toNat * m.toNat ≤ 88052499 →
    MakeInRange (t.high * m) (t.low.toUInt64 * m.toUInt64).toUInt32

/-- `a - b`, once it is known not to throw -/
structure SubInRange (a b : EfuTime) : Prop where
  high : b.high.toNat ≤ a.high.toNat
  plain : b.low.toNat ≤ a.low.toNat → MakeInRange (a.high - b.high) (a.low - b.low)
  borrow : a.low.toNat < b.low.toNat → 1 ≤ (a.high - b.high).toNat ∧
    88052499 + a.low.toNat < 2 ^ 64 ∧ b.low.toNat ≤ 88052499 + a.low.toNat ∧
    88052499 + a.low.toNat - b.low.toNat < 2 ^ 32 ∧
    MakeInRange (a.high - b.high - 1) (ticks + a.low.toUInt64 - b.low.toUInt64).toUInt32

/-- `t.total_ticks()` -/
def TotalInRange (t : EfuTime) : Prop := t.high.toNat * 88052499 + t.low.toNat < 2 ^ 64

section
variable {a b t : EfuTime} {m : UInt32}

/-- The constructor carries nothing out of at most one second of ticks. -/
theorem makeInRange_of_le {high low : UInt32} (h : low.toNat ≤ 88052499) :
    MakeInRange high low := ⟨fun hlt => absurd hlt (Nat.not_lt.2 h)⟩

theorem addInRange (ha : a.Canonical) (hb : b.Canonical)
    (h : a.val + b.val < 2 ^ 32 * 88052499) : AddInRange a b := by
  simp only [Canonical, val_eq] at ha hb h
  have hh : (a.high + b.high).toNat = a.high.toNat + b.high.toNat := by
    rw [UInt32.toNat_add]
    omega
  have hl : (a.low + b.low).toNat = a.low.toNat + b.low.toNat := by
    rw [UInt32.toNat_add]
    omega
  refine ⟨by omega, by omega, ⟨?_⟩⟩
  intro hlt
  rw [hl] at hlt
  rw [hh, hl]
  omega

theorem mulInRange (h : t.val * m.toNat < 2 ^ 32 * 88052499) :
    MulInRange t m := by
  have hm := m.toNat_lt
  have hv : t.val * m.toNat = t.high.toNat * m.toNat * 88052499 + t.low.toNat * m.toNat := by
    rw [val_eq]
    ring
  have hlow : t.low.toNat * m.toNat < 2 ^ 32 * 88052499 := by omega
  have hr : (t.low.toUInt64 * m.toUInt64).toNat = t.low.toNat * m.toNat := by
    rw [UInt64.toNat_mul, UInt32.toNat_toUInt64, UInt32.toNat_toUInt64]
    omega
  refine ⟨by omega, by omega, by omega, ?_, ?_⟩
  · intro _
    refine ⟨by omega, makeInRange_of_le ?_⟩
    rw [UInt64.toNat_toUInt32, UInt64.toNat_mod, hr, toNat_ticks]
    omega
  · intro hle
    refine makeInRange_of_le ?_
    rw [UInt64.toNat_toUInt32, hr]
    omega

theorem subInRange (ha : a.Canonical) (hb : b.Canonical) (h : b.val ≤ a.val) :
    SubInRange a b := by
  simp only [Canonical, val_eq] at ha hb h
  have hle : b.high.toNat ≤ a.high.toNat := by omega
  have hh : (a.high - b.high).toNat = a.high.toNat - b.high.toNat :=
    UInt32.toNat_sub_of_le _ _ (UInt32.le_iff_toNat_le.2 hle)
  refine ⟨hle, ?_, ?_⟩
  · intro hl
    refine makeInRange_of_le ?_
    rw [UInt32.toNat_sub_of_le _ _ (UInt32.le_iff_toNat_le.2 hl)]
    omega
  · intro hl
    refine ⟨by omega, by omega, by omega, by omega, makeInRange_of_le ?_⟩
    rw [UInt64.toNat_toUInt32, UInt64.toNat_sub, UInt64.toNat_add, toNat_ticks,
      UInt32.toNat_toUInt64, UInt32.toNat_toUInt64]
    omega

theorem totalInRange (t : EfuTime) : TotalInRange t := by
  have h1 := t.high.toNat_lt
  have h2 := t.low.toNat_lt
  rw [TotalInRange]
  omega

/-- A difference throws exactly if it would be negative. -/
theorem sub_error_iff (ha : a.Canonical) (hb : b.Normal) :
    (∃ e, a.sub b = .error e) ↔ a.val < b.val := by
  rw [← lt_iff_of_canonical ha hb]
  cases hlt : a.lt b with
  | true => exact iff_of_true ⟨_, sub_error hlt⟩ rfl
  | false =>
    obtain ⟨c, hc, -⟩ := sub_ok ha.normal hb hlt
    refine iff_of_false ?_ (by decide)
    rintro ⟨e, he⟩
    cases hc.symm.trans he

theorem sub_of_le (ha : a.Canonical) (hb : b.Normal) (h : b.val ≤ a.val) :
    ∃ c, a.sub b = .ok c ∧ c.Canonical ∧ c.val = a.val - b.val := by
  have hlt : a.lt b = false := by
    rw [Bool.eq_false_iff, ne_eq, lt_iff_of_canonical ha hb]
    omega
  obtain ⟨c, hc, -, hv, hcan⟩ := sub_ok ha.normal hb hlt
  exact ⟨c, hc, hcan ha, hv⟩

end

/-- **The arithmetic is exact in ticks** on canonical times, and no word wraps
    on the way: sums and products as long as the seconds of the result fit,
    differences whenever they are not negative, and these throw otherwise. -/
theorem arithmetic_exact {a b : EfuTime} (ha : a.Canonical) (hb : b.Canonical) (m : UInt32) :
    ((a.totalTicks.toNat + b.totalTicks.toNat) / 88052499 < 2 ^ 32 →
        (a + b).totalTicks.toNat = a.totalTicks.toNat + b.totalTicks.toNat ∧ AddInRange a b) ∧
      (a.totalTicks.toNat * m.toNat / 88052499 < 2 ^ 32 →
        (a * m).totalTicks.toNat = a.totalTicks.toNat * m.toNat ∧ MulInRange a m) ∧
      ((∃ e, a.sub b = .error e) ↔ a.totalTicks.toNat < b.totalTicks.toNat) ∧
      (b.totalTicks.toNat ≤ a.totalTicks.toNat → SubInRange a b ∧ ∃ c, a.sub b = .ok c ∧
        c.totalTicks.toNat = a.totalTicks.toNat - b.totalTicks.toNat) ∧
      ∀ t : EfuTime, TotalInRange t := by
  simp only [toNat_totalTicks]
  refine ⟨?_, ?_, sub_error_iff ha hb.normal, ?_, totalInRange⟩
  · intro h
    have hlt : a.val + b.val < 2 ^ 32 * 88052499 := by omega
    exact ⟨val_add ha.normal hb.normal hlt, addInRange ha hb hlt⟩
  · intro h
    have hlt : a.val * m.toNat < 2 ^ 32 * 88052499 := by omega
    exact ⟨val_mul hlt, mulInRange hlt⟩
  · intro h
    obtain ⟨c, hc, -, hv⟩ := sub_of_le ha hb.normal h
    exact ⟨subInRange ha hb h, c, hc, hv⟩

/-- A sum with a carry, a product and a difference with a borrow. -/
theorem arithmetic_exact_borrow :
    ((⟨3, 1⟩ : EfuTime) + ⟨1, 88052498⟩).totalTicks.toNat = 4 * 88052499 + 88052499 ∧
      ((⟨3, 1⟩ : EfuTime) * (7 : UInt32)).totalTicks.toNat = 21 * 88052499 + 7 ∧
      ∃ c, (⟨3, 1⟩ : EfuTime).sub ⟨1, 88052498⟩ = .ok c ∧ c.totalTicks.toNat = 88052499 + 2 := by
  obtain ⟨h1, h2, -, h3, -⟩ := arithmetic_exact (a := ⟨3, 1⟩) (b := ⟨1, 88052498⟩) (by decide)
    (by decide) 7
  exact ⟨(h1 (by decide)).1, (h2 (by decide)).1, (h3 (by decide)).2⟩

/-! ## Euclid's law -/

/-- `a / m` is the quotient of the ticks and `a % m` their remainder, and the
    two make up `a`. -/
def Euclid (a m : EfuTime) : Prop :=
  (a / m : UInt32).toNat = a.totalTicks.toNat / m.totalTicks.toNat ∧
    ∃ r, a.mod m = .ok r ∧ r.totalTicks.toNat = a.totalTicks.toNat % m.totalTicks.toNat ∧
      r.lt m = true ∧ (m * (a / m : UInt32) + r).totalTicks = a.totalTicks

/-- **Euclid's law** holds iff the quotient fits into 32 bits. -/
theorem euclid_iff {a m : EfuTime} (ha : a.Canonical) (hm : m.Canonical)
    (hpos : 0 < m.totalTicks.toNat) :
    Euclid a m ↔ a.totalTicks.toNat / m.totalTicks.toNat < 2 ^ 32 := by
  simp only [Euclid, ← UInt64.toNat_inj, toNat_totalTicks] at *
  constructor
  · rintro ⟨hq, -⟩
    rw [← hq]
    exact UInt32.toNat_lt _
  · intro hlt
    have hq : (a / m : UInt32).toNat = a.val / m.val := by
      rw [toNat_div, Nat.mod_eq_of_lt hlt]
    have hdiv : m.val * (a.val / m.val) + a.val % m.val = a.val := Nat.div_add_mod _ _
    have hav := val_lt ha
    have hmul : (m * (a / m : UInt32)).val = m.val * (a.val / m.val) := by
      rw [val_mul, hq]
      rw [hq]
      omega
    have hn := normal_mul m (a / m : UInt32)
    obtain ⟨r, hr, hrc, hrv⟩ := sub_of_le ha hn (by omega)
    have hrmod : r.val = a.val % m.val := by omega
    refine ⟨hq, r, hr, hrmod, ?_, ?_⟩
    · rw [lt_iff_of_canonical hrc hm.normal, hrmod]
      exact Nat.mod_lt _ hpos
    · rw [val_add hn hrc.normal (by omega), hmul, hrmod, hdiv]

/-- Ten seconds and the period of a source of 14 Hz. -/
theorem euclid_iff_pulse : Euclid ⟨10, 0⟩ ⟨0, 6289464⟩ :=
  (euclid_iff (by decide) (by decide) (by decide)).2 (by decide)

/-- The quotient of a wall-clock time by a period of 14 Hz does not fit, and the
    remainder is larger than the period. -/
theorem quotient_truncated :
    ¬ Euclid ⟨1700000000, 0⟩ ⟨0, 6289464⟩ ∧
      ∃ r, mod ⟨1700000000, 0⟩ ⟨0, 6289464⟩ = .ok r ∧ r.gt ⟨0, 6289464⟩ = true := by
  constructor
  · rintro ⟨hq, -⟩
    exact absurd hq (by decide)
  · exact ⟨⟨1533916839, 20250219⟩, by decide, by decide⟩

/-! ## The clock -/

/-- `efu_time()`, at a count `ns` of nanoseconds -/
structure NowInRange (ns : ℕ) : Prop where
  seconds : ns / 1000000000 < 2 ^ 32
  product : ns % 1000000000 * 88052499 < 2 ^ 64
  tickCount : ns % 1000000000 * 88052499 / 1000000000 < 2 ^ 32

theorem nowInRange {ns : ℕ} (h : ns < 2 ^ 32 * 1000000000) : NowInRange ns where
  seconds := Nat.div_lt_of_lt_mul (by omega)
  product := by omega
  tickCount := by omega

/-- A count that is not negative is the same number in the unsigned word it is
    converted to. -/
theorem toNat_toUInt64 {ns : Int64} (h : 0 ≤ ns) : ns.toUInt64.toNat = ns.toInt.toNat :=
  Int64.toNat_toUInt64_of_le h

/-- **The clock is exact.**  From the epoch on, and as long as the seconds fit,
    the time made of a count of nanoseconds is canonical and the count in ticks,
    rounded down once; no word wraps on the way; and it is not earlier than the
    time made of an earlier count. -/
theorem now_exact {ns : Int64} (h0 : 0 ≤ ns) (h : ns.toInt < 2 ^ 32 * 1000000000) :
    (now ns.toUInt64).low.toUInt64 < ticks ∧
      (now ns.toUInt64).totalTicks.toNat = ns.toInt.toNat * 88052499 / 1000000000 ∧
      NowInRange ns.toInt.toNat ∧ TotalInRange (now ns.toUInt64) ∧
      ∀ ns' : Int64, 0 ≤ ns' → ns' ≤ ns →
        (now ns'.toUInt64).gt (now ns.toUInt64) = false := by
  have hval : ∀ {m : Int64}, 0 ≤ m → m.toInt < 2 ^ 32 * 1000000000 →
      (now m.toUInt64).val = m.toInt.toNat * 88052499 / 1000000000 := by
    intro m hm hlt
    rw [val_now, toNat_toUInt64 hm]
    rw [toNat_toUInt64 hm]
    omega
  refine ⟨?_, ?_, nowInRange (by omega), totalInRange _, ?_⟩
  · rw [UInt64.lt_iff_toNat_lt, UInt32.toNat_toUInt64, toNat_ticks]
    exact canonical_now _
  · rw [toNat_totalTicks, hval h0 h]
  · intro ns' h0' hle
    have hle := Int64.le_iff_toInt_le.1 hle
    rw [gt_eq_lt, Bool.eq_false_iff, ne_eq, lt_iff_of_canonical (canonical_now _)
      (canonical_now _).normal, hval h0 h, hval h0' (by omega), Nat.not_lt]
    exact Radix.rescale_mono _ _ (by omega)

/-- The last nanosecond of a second, and the first of the next. -/
theorem now_exact_second :
    (now 1699999999999999999).totalTicks.toNat = 1700000000 * 88052499 - 1 ∧
      (now 1699999999999999999).gt (now 1700000000000000000) = false := by
  have hlast : (0 : Int64) ≤ 1699999999999999999 := by decide
  have hfirst : (0 : Int64) ≤ 1700000000000000000 := by decide
  obtain ⟨-, hticks, -⟩ := now_exact hlast (by decide)
  obtain ⟨-, -, -, -, hmono⟩ := now_exact hfirst (by decide)
  exact ⟨hticks, hmono 1699999999999999999 hlast (by decide)⟩

end EfuTime

end ReadoutMaster
