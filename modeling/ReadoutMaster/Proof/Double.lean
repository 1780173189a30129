/-
  What `double` seconds become in clock ticks.

  The conversion cuts the seconds off exactly; the ticks are a rounded product
  that is cut off.  A whole number of ticks is a `double`, so rounding does not
  take the product below one, and above it moves by `2 ^ -27` at most.

  * `EfuTime.ofDouble_near`, `EfuTime.ofDouble_mono`: the ticks are those of
    the seconds, cut off to within that rounding, and in their order;
  * `flights_received`: a receiver reads every time of flight to within a tick;
  * `period_eq_zero_iff`, `period_near`, `period_whole`: the period for a source
    frequency.
-/
import ReadoutMaster.Double
import ReadoutMaster.Proof.Timing
import ReadoutMaster.Proof.Transmission
import Mathlib.Tactic.IntervalCases
import Mathlib.Tactic.NormNum.Prime

namespace ReadoutMaster

open Rounding Machine

/-! ## Ticks of seconds -/

section
variable {x y : ℚ}

theorem mem_natCast {n : ℕ} (h : n < 2 ^ 53) : binary64.Mem (n : ℚ) :=
  ⟨n, 0, h, by decide, by simp⟩

/-- Rounding moves the product by `2 ^ -27` at most. -/
theorem lowTicks_le (h : binary64.Mem x) :
    lowTicks x ≤ (x - ⌊x⌋₊) * 88052499 + 1 / 2 ^ 27 := by
  have h1 := fraction_lt_one x
  have h2 : (x - ⌊x⌋₊) * 88052499 < 2 ^ (27 : ℤ) := by
    norm_num
    linarith
  have h3 := Format.abs_round_sub_le_of_lt (F := binary64)
    (mul_nonneg (fraction_nonneg h.nonneg) (by norm_num : (0 : ℚ) ≤ 88052499)) h2 (by decide)
  have h4 : (2 : ℚ) ^ ((27 : ℤ) - (binary64.digits : ℤ)) / 2 = 1 / 2 ^ 27 := by
    rw [show (27 : ℤ) - (binary64.digits : ℤ) = -26 by rfl]
    norm_num
  rw [h4] at h3
  have h5 := (abs_le.1 h3).2
  rw [lowTicks]
  linarith

/-- Rounding does not take the product below a whole number of ticks. -/
theorem lt_floor_lowTicks (h : binary64.Mem x) :
    (x - ⌊x⌋₊) * 88052499 < ⌊lowTicks x⌋₊ + 1 := by
  have h1 := fraction_lt_one x
  have h0 : 0 ≤ (x - ⌊x⌋₊) * 88052499 :=
    mul_nonneg (fraction_nonneg h.nonneg) (by norm_num)
  have hlt : ⌊(x - ⌊x⌋₊) * 88052499⌋₊ < 2 ^ 53 :=
    (Nat.floor_lt h0).2 (by push_cast; linarith)
  have hle : ⌊(x - ⌊x⌋₊) * 88052499⌋₊ ≤ ⌊lowTicks x⌋₊ :=
    Nat.le_floor (Format.le_round_of_mem digits_binary64 (mem_natCast hlt) (Nat.floor_le h0))
  have h2 := Nat.lt_floor_add_one ((x - ⌊x⌋₊) * 88052499)
  have h3 : (⌊(x - ⌊x⌋₊) * 88052499⌋₊ : ℚ) ≤ ⌊lowTicks x⌋₊ := by exact_mod_cast hle
  linarith

/-- The whole ticks that a number of seconds is converted to. -/
def ticksOf (x : ℚ) : ℕ := ⌊x⌋₊ * 88052499 + ⌊lowTicks x⌋₊

theorem ticksOf_mono (hx : binary64.Mem x) (h : x ≤ y) : ticksOf x ≤ ticksOf y := by
  unfold ticksOf
  rcases (Nat.floor_mono h).lt_or_eq with hlt | heq
  · have := floor_lowTicks_lt hx
    omega
  · have hle : lowTicks x ≤ lowTicks y := by
      refine Format.round_mono digits_binary64 (mul_le_mul_of_nonneg_right ?_ (by norm_num))
      rw [heq]
      linarith
    have := Nat.floor_mono hle
    omega

/-- The ticks fall short of the exact number by less than one, and exceed it
    by `2 ^ -27` at most. -/
theorem ticksOf_near (h : binary64.Mem x) :
    x * 88052499 - 1 < ticksOf x ∧ (ticksOf x : ℚ) ≤ x * 88052499 + 1 / 2 ^ 27 := by
  have h1 := lowTicks_le h
  have h2 := lt_floor_lowTicks h
  have h3 := Nat.floor_le (lowTicks_nonneg x)
  constructor <;> rw [ticksOf] <;> push_cast <;> linarith

end

namespace EfuTime
variable {m m' : Magnitude}

theorem ofDouble_spec (h : m.val < 2 ^ 32) : ∃ e, ofDouble (.finite false m) = some e ∧
    e.Canonical ∧ e.val = ticksOf m.val := by
  have h1 : ⌊m.val⌋₊ < 2 ^ 32 := (Nat.floor_lt m.nonneg).2 (by exact_mod_cast h)
  have h2 : ⌊lowTicks m.val⌋₊ < 2 ^ 32 := (floor_lowTicks_lt m.mem).trans (by decide)
  have he := ofDouble_nonneg h
  refine ⟨_, he, canonical_ofDouble he, ?_⟩
  rw [val_eq, UInt32.toNat_ofNat', UInt32.toNat_ofNat', Nat.mod_eq_of_lt h1, Nat.mod_eq_of_lt h2,
    ticksOf]

/-- **What `efu_time(double)` keeps of a number of seconds.**  The ticks are
    below a second; with the seconds they fall short of the exact number by
    less than a tick, and exceed it by `2 ^ -27` ticks at most. -/
theorem ofDouble_near (h : m.val < 2 ^ 32) : ∃ e, ofDouble (.finite false m) = some e ∧
    e.Canonical ∧ m.val * 88052499 - 1 < e.totalTicks.toNat ∧
    (e.totalTicks.toNat : ℚ) ≤ m.val * 88052499 + 1 / 2 ^ 27 := by
  obtain ⟨e, he, hc, hv⟩ := ofDouble_spec h
  refine ⟨e, he, hc, ?_⟩
  rw [toNat_totalTicks, hv]
  exact ticksOf_near m.mem

/-- A second and a half. -/
def oneAndHalf : Magnitude :=
  ⟨3 / 2, ⟨3, -1, by decide, by decide, by norm_num⟩, lt_top_of_lt (by norm_num)⟩

theorem ofDouble_near_oneAndHalf : ∃ e, ofDouble (.finite false oneAndHalf) = some e ∧
    e.Canonical ∧ 3 / 2 * 88052499 - 1 < (e.totalTicks.toNat : ℚ) ∧
    (e.totalTicks.toNat : ℚ) ≤ 3 / 2 * 88052499 + 1 / 2 ^ 27 :=
  ofDouble_near (m := oneAndHalf) (by decide +kernel)

/-- **`efu_time(double)` keeps the order**, and the order is strict between
    numbers of seconds a little more than a tick apart. -/
theorem ofDouble_order (h : m.val < 2 ^ 32) (h' : m'.val < 2 ^ 32) :
    ∃ e e', ofDouble (.finite false m) = some e ∧ ofDouble (.finite false m') = some e' ∧
      (m.val ≤ m'.val → e'.lt e = false) ∧
      (m.val * 88052499 + 1 + 1 / 2 ^ 27 ≤ m'.val * 88052499 → e.lt e' = true) := by
  obtain ⟨e, he, hc, hv⟩ := ofDouble_spec h
  obtain ⟨e', he', hc', hv'⟩ := ofDouble_spec h'
  refine ⟨e, e', he, he', ?_, ?_⟩
  · intro hle
    have := ticksOf_mono m.mem hle
    rw [Bool.eq_false_iff, Ne, lt_iff_of_canonical hc' hc.normal, hv, hv']
    omega
  · intro hlt
    have h1 := (ticksOf_near m.mem).2
    have h2 := (ticksOf_near m'.mem).1
    have h3 : (ticksOf m.val : ℚ) < ticksOf m'.val := by linarith
    rw [lt_iff_of_canonical hc hc'.normal, hv, hv']
    exact_mod_cast h3

theorem ofDouble_order_oneAndHalf : ∃ e e', ofDouble (.finite false .zero) = some e ∧
    ofDouble (.finite false oneAndHalf) = some e' ∧ e'.lt e = false ∧ e.lt e' = true := by
  have hzero : Magnitude.zero.val < 2 ^ 32 := by decide +kernel
  have hlt : oneAndHalf.val < 2 ^ 32 := by decide +kernel
  obtain ⟨e, e', he, he', h1, h2⟩ := ofDouble_order hzero hlt
  exact ⟨e, e', he, he', h1 (by decide +kernel), h2 (by decide +kernel)⟩

end EfuTime

/-! ## Times of flight -/

section
variable {R FS : Type} [CDouble R] {d : DetectorType} {t : ReadoutType}

/-- The times of flight of the records that calls add, each as often as the
    draws say. -/
def flightsOf : (ℕ → Draw) → List (AddCall R) → List R
  | _, [] => []
  | draws, c :: calls => List.replicate (copiesOf draws c.weight) c.tof ++
      flightsOf (fun n => draws (n + drawsOf draws c.weight)) calls

theorem flights_of_items (hM : t ≠ .MAGIC) :
    ∀ (calls : List (AddCall R)) (draws : ℕ → Draw),
      List.Forall₂ (fun (i : Item) tof => i.offset = CDouble.toEfu tof) (itemsOf t draws calls)
        (flightsOf draws calls)
  | [], _ => .nil
  | c :: calls, draws => by
    obtain ⟨assign, r, hw⟩ := writes_isSome hM c.ring c.fen ⟨0, 0⟩ c.data
    rw [itemsOf, flightsOf, AddCall.item, hw, Option.map_some, Option.toList_some,
      List.flatMap_singleton]
    refine List.rel_append ?_ (flights_of_items hM calls _)
    induction copiesOf draws c.weight with
    | zero => exact .nil
    | succ n ih => exact .cons rfl ih

/-- The pulses of the datagrams are normal if every datagram is timed. -/
theorem normal_of_timed {sent : List (Sent R)} {packets : List Packet}
    (ht : readoutTypeFromDetectorType d = .ok t) (hM : t ≠ .MAGIC)
    (h : List.Forall₂ (Sent.Encodes d) sent packets) (hs : ∀ s ∈ sent, s.Timed d) :
    ∀ x ∈ packets.flatMap Packet.seen, x.1.Normal := by
  induction h with
  | nil => intro x hx; cases hx
  | @cons s p sent packets henc _ ih =>
    intro x hx
    rw [List.flatMap_cons, List.mem_append] at hx
    rcases hx with hx | hx
    · obtain ⟨p', henc', hn, -⟩ := hs s List.mem_cons_self
      have hp : p = p' := Option.some.inj
        ((decode_of_encodes henc ht hM).symm.trans (decode_of_encodes henc' ht hM))
      obtain ⟨r, -, rfl⟩ := List.mem_map.1 hx
      rwa [hp]
    · exact ih (fun s' hs' => hs s' (List.mem_cons_of_mem _ hs')) x hx

/-- The records that a receiver decodes after a run, each with a normal pulse,
    and the items that the run added. -/
theorem seen_of_run [HighFive R FS] [Host] {clock₀ : UInt64} {frequency : R} {type : Int}
    {fs : FS} {socket : ℕ → SendResult} {draws : ℕ → Draw} {w₀ : World R FS}
    {calls : List (Call R)}
    (hw : readoutCreate clock₀ frequency type fs socket draws = .ok w₀)
    (ht : readoutTypeFromDetectorType w₀.obj.type = .ok t) (hM : t ≠ .MAGIC)
    (hk : ∀ call ∈ calls, call.Flows) :
    ∃ seen, received t (runCalls w₀ (calls ++ [.destroy])) = some seen ∧
      (∀ s ∈ seen, s.1.Normal) ∧
      List.Forall₂ Item.At seen (itemsOf t draws (accepted w₀ calls)) := by
  obtain ⟨draws', h⟩ := transmitting_run ht hM hk (transmitting_create hw)
  have hfinal : runCalls w₀ (calls ++ [.destroy]) = (runCalls w₀ calls).flushed := by
    rw [runCalls, run_append]
    exact final_of_ok (step_destroy _)
  have href := referenced_runCalls hw (calls ++ [.destroy])
  rw [hfinal] at href ⊢
  have hc := conveys_flushed h.conveys
  obtain ⟨packets, henc, hat⟩ := hc.seen
  rw [seen_of_records (records_flushed h.conveys.network), List.append_nil] at hat
  refine ⟨packets.flatMap Packet.seen, received_of_encodes henc ht hM, ?_, hat⟩
  exact normal_of_timed ht hM henc (hc.type ▸ href.sent)

@[simp] theorem time_stamped (time : EfuTime) (r : Record) : (r.stamped time).head.time = time := by
  cases r <;> rfl

end

/-- The time stamp is that of the time of flight after the pulse, to within a
    tick, if its seconds fit. -/
def FlightRead (s : EfuTime × Record) (tof : Double) : Prop :=
  ∀ m, tof = .finite false m → s.1.val + m.val * 88052499 + 1 ≤ 2 ^ 32 * 88052499 →
    m.val * 88052499 - 1 < (s.2.head.time.val - s.1.val : ℚ) ∧
      (s.2.head.time.val - s.1.val : ℚ) ≤ m.val * 88052499 + 1 / 2 ^ 27

theorem flightRead_of_at {s : EfuTime × Record} {i : Item} {tof : Double} (hn : s.1.Normal)
    (hat : Item.At s i) (htof : i.offset = CDouble.toEfu tof) : FlightRead s tof := by
  rintro m rfl hfit
  have hp : (0 : ℚ) ≤ s.1.val := Nat.cast_nonneg _
  obtain ⟨e, he, hc, hv⟩ := EfuTime.ofDouble_spec (m := m) (by linarith)
  obtain ⟨h1, h2⟩ := ticksOf_near m.mem
  have htime : s.2.head.time = e + s.1 := by
    have hoff : i.offset = e := htof.trans (toEfu_of_ofDouble he)
    rw [Item.At] at hat
    rw [hat, Item.sent, time_stamped, hoff]
  have hlt : e.val + s.1.val < 2 ^ 32 * 88052499 := by
    have h3 : ((e.val + s.1.val : ℕ) : ℚ) < ((2 ^ 32 * 88052499 : ℕ) : ℚ) := by
      rw [hv]
      push_cast
      linarith
    exact_mod_cast h3
  rw [htime, EfuTime.val_add hc.normal hn hlt, hv]
  push_cast
  constructor <;> linarith

section
variable {FS : Type} [HighFive Double FS] [Host] {clock₀ : UInt64} {type : Int} {fs : FS}
  {socket : ℕ → SendResult} {draws : ℕ → Draw} {w₀ : World Double FS}

/-- **Times of flight on the network.**  After a run that creates an object,
    makes any calls but those that pause the network, throw the packet away or
    destroy the object, and then destroys it, the records that a receiver
    decodes are as many as the accepted calls ask for, and each is timed after
    the pulse of its own packet by the time of flight of its call, to within a
    tick. -/
theorem flights_received {frequency : Double} {t : ReadoutType} {calls : List (Call Double)}
    (hw : readoutCreate clock₀ frequency type fs socket draws = .ok w₀)
    (ht : readoutTypeFromDetectorType w₀.obj.type = .ok t) (hM : t ≠ .MAGIC)
    (hk : ∀ call ∈ calls, call.Flows) :
    ∃ seen, received t (runCalls w₀ (calls ++ [.destroy])) = some seen ∧
      List.Forall₂ FlightRead seen (flightsOf draws (accepted w₀ calls)) := by
  obtain ⟨seen, hseen, hn, hat⟩ := seen_of_run hw ht hM hk
  refine ⟨seen, hseen, ?_⟩
  have hboth := (List.forall₂_and_left _ _).2 ⟨hn, hat⟩
  exact (forall₂_comp hboth (flights_of_items hM _ draws)).imp
    fun s tof ⟨i, ⟨hs, hi⟩, htof⟩ => flightRead_of_at hs hi htof

end

/-- 14 Hz. -/
def fourteen : Magnitude :=
  ⟨14, ⟨14, 0, by decide, by decide, by norm_num⟩, lt_top_of_lt (by norm_num)⟩

/-- A readout of a BIFROST detector, created ten seconds after the epoch for
    a source of 14 Hz. -/
def atFourteen : World Double (Disk Double) :=
  World.created .BIFROST ⟨0, 6289464⟩ ⟨10, 0⟩ ⟨9, 81763035⟩ (fun _ => .missing) openSocket ones

theorem create_atFourteen : readoutCreate 10000000000 (.finite false fourteen)
    DetectorType.BIFROST.code.toNat (fun _ => .missing : Disk Double) openSocket ones =
      .ok atFourteen := by
  have hp : CDouble.toEfu (CDouble.recip (.finite false fourteen) : Double) = ⟨0, 6289464⟩ := by
    decide +kernel
  have ht : EfuTime.now 10000000000 = ⟨10, 0⟩ := by decide +kernel
  rw [readoutCreate, hp, ht]
  exact make_eq (detectorTypeFromInt_code .BIFROST) (by decide)

/-- A readout a second and a half after the pulse. -/
theorem flights_received_atFourteen :
    let calls : List (Call Double) := [.add 11500000000 1 2 (.finite false EfuTime.oneAndHalf)
      (.finite false .zero) VoidPtr.blank]
    (∃ seen, received .CAEN (runCalls atFourteen (calls ++ [.destroy])) = some seen ∧
      List.Forall₂ FlightRead seen (flightsOf ones (accepted atFourteen calls))) ∧
    (flightsOf ones (accepted atFourteen calls)).length = 1 :=
  ⟨flights_received create_atFourteen rfl (by decide) (by decide), by decide +kernel⟩

/-! ## Periods -/

namespace Double

theorem ofNat_one : ofNat 1 = finite false ⟨1, mem_one, lt_top_one⟩ :=
  rounded_of_mem false (by exact_mod_cast mem_one) lt_top_one

end Double

section
variable {f : Magnitude}

/-- A frequency above `2 ^ -32` has a period below `2 ^ 32` seconds. -/
theorem round_inv_lt (h : 1 / 2 ^ 32 < f.val) : binary64.round (1 / f.val) < 2 ^ 32 := by
  have hmem : binary64.Mem (1 / 2 ^ 32 : ℚ) := ⟨1, -32, by decide, by decide, by norm_num⟩
  have hnext := Format.mem_add_le (k := -32) hmem f.mem (by norm_num) h
  have hunit : (2 : ℚ) ^ ((-32 : ℤ) + 1 - (binary64.digits : ℤ)) = 1 / 2 ^ 84 := by
    rw [show (-32 : ℤ) + 1 - (binary64.digits : ℤ) = -84 by rfl]
    norm_num
  rw [hunit] at hnext
  have hinv : 1 / f.val ≤ 1 / (1 / 2 ^ 32 + 1 / 2 ^ 84) :=
    one_div_le_one_div_of_le (by norm_num) hnext
  have hround : binary64.round (1 / (1 / 2 ^ 32 + 1 / 2 ^ 84) : ℚ) < 2 ^ 32 := by decide +kernel
  exact (Format.round_mono digits_binary64 hinv).trans_lt hround

/-- The period of a frequency. -/
theorem period_ticks (h : 1 / 2 ^ 32 < f.val) :
    (CDouble.toEfu (CDouble.recip (.finite false f) : Double)).val =
      ticksOf (binary64.round (1 / f.val)) := by
  have hlt := round_inv_lt h
  have hpos : (0 : ℚ) < f.val := lt_trans (by norm_num) h
  let q : Magnitude :=
    ⟨_, Format.mem_round digits_binary64 (1 / f.val), lt_top_of_lt hlt⟩
  have hdiv : (CDouble.recip (.finite false f) : Double) = .finite false q := by
    show Double.div (Double.ofNat 1) _ = _
    rw [Double.ofNat_one, Double.div, if_neg hpos.ne']
    exact Double.rounded_of_lt false (lt_top_of_lt hlt)
  rw [hdiv]
  obtain ⟨e, he, -, hv⟩ := EfuTime.ofDouble_spec (m := q) hlt
  rw [toEfu_of_ofDouble he, hv]

/-- The period has no tick iff the frequency is above that of the clock. -/
theorem ticksOf_inv_eq_zero_iff (h : 0 < f.val) :
    ticksOf (binary64.round (1 / f.val)) = 0 ↔ 88052499 < f.val := by
  constructor
  · intro h0
    by_contra hle
    have hinv : 1 / 88052499 ≤ 1 / f.val := one_div_le_one_div_of_le h (not_lt.1 hle)
    have hone : ticksOf (binary64.round (1 / 88052499)) = 1 := by decide +kernel
    have hmono := ticksOf_mono (Format.mem_round digits_binary64 _)
      (Format.round_mono digits_binary64 hinv)
    omega
  · intro hlt
    have hnext := Format.mem_add_le (k := 26) mem_ticks f.mem (by norm_num) hlt
    have hunit : (2 : ℚ) ^ ((26 : ℤ) + 1 - (binary64.digits : ℤ)) = 1 / 2 ^ 26 := by
      rw [show (26 : ℤ) + 1 - (binary64.digits : ℤ) = -26 by rfl]
      norm_num
    rw [hunit] at hnext
    have hinv : 1 / f.val ≤ 1 / (88052499 + 1 / 2 ^ 26) :=
      one_div_le_one_div_of_le (by norm_num) hnext
    have hzero : ticksOf (binary64.round (1 / (88052499 + 1 / 2 ^ 26))) = 0 := by decide +kernel
    have hmono := ticksOf_mono (Format.mem_round digits_binary64 _)
      (Format.round_mono digits_binary64 hinv)
    omega

/-- The ticks of the period are those of the exact one, to within a tick and
    the rounding of the quotient. -/
theorem ticksOf_inv_near (h : 0 < f.val) (hle : f.val ≤ 88052499) :
    88052499 / f.val * (1 - 1 / 2 ^ 53) - 1 < ticksOf (binary64.round (1 / f.val)) ∧
      (ticksOf (binary64.round (1 / f.val)) : ℚ) ≤
        88052499 / f.val * (1 + 1 / 2 ^ 53) + 1 / 2 ^ 27 := by
  have hinv : 0 < 1 / f.val := one_div_pos.2 h
  have hnormal : (2 : ℚ) ^ (binary64.least + binary64.digits - 1) ≤ 1 / f.val := by
    have h1 : (2 : ℚ) ^ (-27 : ℤ) ≤ 1 / f.val := by
      rw [zpow_neg, ← one_div]
      refine one_div_le_one_div_of_le h ?_
      norm_num
      linarith
    exact (zpow_le_zpow_right₀ one_le_two (by decide)).trans h1
  have hrel := abs_le.1 (Format.abs_round_sub_le_mul hinv hnormal)
  have hunit : (2 : ℚ) ^ (-(binary64.digits : ℤ)) = 1 / 2 ^ 53 := by
    rw [show -(binary64.digits : ℤ) = -53 by rfl]
    norm_num
  rw [hunit] at hrel
  obtain ⟨h1, h2⟩ := ticksOf_near (Format.mem_round digits_binary64 (1 / f.val))
  have hq : 88052499 / f.val = 1 / f.val * 88052499 := by ring
  rw [hq]
  constructor <;> linarith

theorem dvd_ticks {n : ℕ} (h : n ∣ 88052499) :
    n ∈ [1, 3, 9, 197, 591, 1773, 49663, 148989, 446967, 9783611, 29350833, 88052499] := by
  have h197 : Nat.Prime 197 := by norm_num
  have h49663 : Nat.Prime 49663 := by norm_num
  obtain ⟨a, b, ha, hb, rfl⟩ := (Nat.dvd_mul (m := 9 * 197) (n := 49663)).1 h
  obtain ⟨c, d, hc, hd, rfl⟩ := Nat.dvd_mul.1 ha
  have hc9 : c = 1 ∨ c = 3 ∨ c = 9 := by
    have hle := Nat.le_of_dvd (by decide) hc
    interval_cases c <;> revert hc <;> decide
  rcases (Nat.dvd_prime h49663).1 hb with rfl | rfl <;>
    rcases (Nat.dvd_prime h197).1 hd with rfl | rfl <;>
      rcases hc9 with rfl | rfl | rfl <;> decide

/-- Among the whole frequencies that divide the ticks of a second there are two
    at which the rounding costs a tick. -/
theorem ticksOf_inv_of_dvd {n : ℕ} (h : n ∣ 88052499) :
    ticksOf (binary64.round (1 / n)) =
      88052499 / n - if n = 197 ∨ n = 29350833 then 1 else 0 := by
  have hall : ∀ n ∈ [1, 3, 9, 197, 591, 1773, 49663, 148989, 446967, 9783611, 29350833, 88052499],
      ticksOf (binary64.round (1 / (n : ℕ))) =
        88052499 / n - if n = 197 ∨ n = 29350833 then 1 else 0 := by decide +kernel
  exact hall n (dvd_ticks h)

/-- A whole frequency that does not divide the ticks of a second leaves a
    remainder that covers all the rounding. -/
theorem ticksOf_inv_of_not_dvd {n : ℕ} (h0 : 0 < n) (hf : f.val = n) (hle : n ≤ 88052499)
    (hn : ¬ n ∣ 88052499) : ticksOf (binary64.round (1 / f.val)) = 88052499 / n := by
  have hpos : (0 : ℚ) < n := Nat.cast_pos.2 h0
  obtain ⟨h1, h2⟩ := ticksOf_inv_near (hf ▸ hpos) (hf.trans_le (by exact_mod_cast hle))
  generalize ticksOf (binary64.round (1 / f.val)) = P at h1 h2
  rw [hf] at h1 h2
  have hr0 : (1 : ℚ) ≤ (88052499 % n : ℕ) :=
    Nat.one_le_cast.2 (Nat.pos_of_ne_zero fun h => hn (Nat.dvd_of_mod_eq_zero h))
  have hrn : ((88052499 % n : ℕ) : ℚ) + 1 ≤ n := by exact_mod_cast Nat.mod_lt 88052499 h0
  have hdiv : (88052499 : ℚ) = n * (88052499 / n : ℕ) + (88052499 % n : ℕ) := by
    exact_mod_cast (Nat.div_add_mod 88052499 n).symm
  have hle' : (n : ℚ) ≤ 88052499 := by exact_mod_cast hle
  have hscale : (88052499 : ℚ) / n * n = 88052499 := div_mul_cancel₀ _ hpos.ne'
  have hlow : (n : ℚ) * (88052499 / n : ℕ) < n * (P + 1) := by
    have h3 := mul_lt_mul_of_pos_right h1 hpos
    rw [sub_mul, mul_right_comm, hscale, one_mul] at h3
    linarith
  have hhigh : (n : ℚ) * P < n * ((88052499 / n : ℕ) + 1) := by
    have h3 := mul_le_mul_of_nonneg_right h2 hpos.le
    rw [add_mul, mul_right_comm, hscale] at h3
    linarith
  have h3 : 88052499 / n < P + 1 := by exact_mod_cast lt_of_mul_lt_mul_left hlow hpos.le
  have h4 : P < 88052499 / n + 1 := by exact_mod_cast lt_of_mul_lt_mul_left hhigh hpos.le
  omega

/-- The period of a whole frequency in ticks. -/
theorem ticksOf_inv_whole {n : ℕ} (h0 : 0 < n) (hf : f.val = n) :
    ticksOf (binary64.round (1 / f.val)) =
      88052499 / n - if n = 197 ∨ n = 29350833 then 1 else 0 := by
  rcases Nat.lt_or_ge 88052499 n with hlt | hle
  · have hpos : 0 < f.val := hf ▸ Nat.cast_pos.2 h0
    rw [(ticksOf_inv_eq_zero_iff hpos).2 (by rw [hf]; exact_mod_cast hlt),
      Nat.div_eq_of_lt hlt, Nat.zero_sub]
  by_cases hdvd : n ∣ 88052499
  · rw [hf, ticksOf_inv_of_dvd hdvd]
  · have hne : ¬ (n = 197 ∨ n = 29350833) := by
      rintro (rfl | rfl) <;> exact hdvd (by decide)
    rw [ticksOf_inv_of_not_dvd h0 hf hle hdvd, if_neg hne, Nat.sub_zero]

variable {FS : Type} [HighFive Double FS] [Host] {clock₀ : UInt64} {type : Int} {fs : FS}
  {socket : ℕ → SendResult} {draws : ℕ → Draw} {w₀ : World Double FS}

theorem period_of_run (hw : readoutCreate clock₀ (.finite false f) type fs socket draws = .ok w₀)
    (h : 1 / 2 ^ 32 < f.val) (calls : List (Call Double)) :
    (runCalls w₀ calls).obj.period.val = ticksOf (binary64.round (1 / f.val)) := by
  obtain ⟨-, hPc, hk⟩ := clocked_create hw
  have hperiod := (clocked_runCalls hPc hk calls).period
  obtain ⟨d, prev, -, -, rfl⟩ := make_ok hw
  rw [hperiod]
  exact period_ticks h

/-- **Division by the period.**  After any run of a `Readout` for a source of
    some frequency, the divisor of `(now - time) / period` is zero iff the
    frequency is above that of the clock, 88.052499 MHz. -/
theorem period_eq_zero_iff
    (hw : readoutCreate clock₀ (.finite false f) type fs socket draws = .ok w₀)
    (h : 1 / 2 ^ 32 < f.val) (calls : List (Call Double)) :
    (runCalls w₀ calls).obj.period.totalTicks = 0 ↔ 88052499 < f.val := by
  rw [← ticksOf_inv_eq_zero_iff (lt_trans (by norm_num) h), ← period_of_run hw h calls,
    ← EfuTime.toNat_totalTicks, ← UInt64.toNat_inj, UInt64.toNat_zero]

/-- **The period of a source** is the exact one to within a tick and the
    rounding of the quotient. -/
theorem period_near
    (hw : readoutCreate clock₀ (.finite false f) type fs socket draws = .ok w₀)
    (h : 1 / 2 ^ 32 < f.val) (hle : f.val ≤ 88052499) (calls : List (Call Double)) :
    88052499 / f.val * (1 - 1 / 2 ^ 53) - 1 < (runCalls w₀ calls).obj.period.totalTicks.toNat ∧
      ((runCalls w₀ calls).obj.period.totalTicks.toNat : ℚ) ≤
        88052499 / f.val * (1 + 1 / 2 ^ 53) + 1 / 2 ^ 27 := by
  rw [EfuTime.toNat_totalTicks, period_of_run hw h calls]
  exact ticksOf_inv_near (lt_trans (by norm_num) h) hle

/-- **The period of a source of a whole frequency** is cut off to whole ticks,
    as it is meant to be, but at 197 Hz and 29350833 Hz, where it is a tick
    shorter. -/
theorem period_whole
    (hw : readoutCreate clock₀ (.finite false f) type fs socket draws = .ok w₀)
    {n : ℕ} (h0 : 0 < n) (hf : f.val = n) (calls : List (Call Double)) :
    (runCalls w₀ calls).obj.period.totalTicks.toNat =
      88052499 / n - if n = 197 ∨ n = 29350833 then 1 else 0 := by
  have h1 : (1 : ℚ) ≤ n := Nat.one_le_cast.2 h0
  rw [EfuTime.toNat_totalTicks, period_of_run hw (by rw [hf]; linarith) calls]
  exact ticksOf_inv_whole h0 hf

end

/-- No call of a session for 14 Hz divides by zero. -/
theorem period_eq_zero_iff_atFourteen :
    (runCalls atFourteen [.setPulseTime 11500000000, .send]).obj.period.totalTicks ≠ 0 :=
  fun h => absurd ((period_eq_zero_iff create_atFourteen (by decide +kernel) _).1 h)
    (by decide +kernel)

theorem period_near_atFourteen :
    88052499 / 14 * (1 - 1 / 2 ^ 53) - 1 <
        ((runCalls atFourteen [.setPulseTime 11500000000]).obj.period.totalTicks.toNat : ℚ) ∧
      ((runCalls atFourteen [.setPulseTime 11500000000]).obj.period.totalTicks.toNat : ℚ) ≤
        88052499 / 14 * (1 + 1 / 2 ^ 53) + 1 / 2 ^ 27 :=
  period_near create_atFourteen (by decide +kernel) (by decide +kernel) _

theorem period_whole_atFourteen :
    (runCalls atFourteen [.setPulseTime 11500000000]).obj.period.totalTicks.toNat = 6289464 :=
  period_whole create_atFourteen (n := 14) (by decide) rfl _

end ReadoutMaster
