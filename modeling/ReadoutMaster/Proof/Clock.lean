/-
  The pulse clock of a `Readout`.

  `update_time` refines `PulseClock.next`, the clock in ticks
  (`latestPulse_spec`), and `previousPulse_spec` bounds the pulse before.  Both
  need the invariant `Clocked`: the reference time is the pulse of the object,
  and no earlier than one period.

  * `updateTime_safe`: every call throws and leaves the world as it was, or
    moves the pulse forward, not past the reading, with the pulse before at
    most five periods back;
  * `onGrid_iff`: after every reading the pulse is the last one of the grid
    iff every reading is steady after the one before.
-/
import ReadoutMaster.PulseClock
import ReadoutMaster.Proof.Effects
import ReadoutMaster.Concrete

namespace ReadoutMaster

open Readout Machine

variable {R FS : Type}

/-! ## One reading -/

section
variable {c T P now : EfuTime}

/-- A reading earlier than the reference time throws; from any other one
    `now` is the next reference time. -/
theorem latestPulse_spec (hc : c.Canonical) (hT : T.Normal) (hP : P.Canonical) :
    (c.val < T.val ∧
        latestPulse c T P = .error (.runtimeError "Subtracting a larger time?")) ∨
      T.val ≤ c.val ∧ ∃ now, latestPulse c T P = .ok now ∧ now.Normal ∧
        now.val = PulseClock.next P.val T.val c.val ∧ now.lt T = false := by
  cases hlt : c.lt T with
  | true =>
    refine Or.inl ⟨(EfuTime.lt_iff_of_canonical hc hT).1 hlt, ?_⟩
    rw [latestPulse, EfuTime.sub_error hlt]; rfl
  | false =>
    have hle : T.val ≤ c.val := EfuTime.val_le_of_not_lt hT hlt
    obtain ⟨d, hd, hdn, hdv, hdc⟩ := EfuTime.sub_ok hc.normal hT hlt
    refine Or.inr ⟨hle, ?_⟩
    have hlt_c := EfuTime.val_lt hc
    have hge := EfuTime.ge_iff_of_canonical (hdc hc) hP
    rw [PulseClock.next, if_neg (Nat.not_lt.2 hle), ← hdv]
    by_cases hp : P.val ≤ d.val
    · set k := (d / P : UInt32) with hk
      have hkv : k.toNat = d.val / P.val % 2 ^ 32 := EfuTime.toNat_div d P
      have hkd : P.val * k.toNat ≤ d.val :=
        (Nat.mul_le_mul_left _ (hkv ▸ Nat.mod_le _ _)).trans (Nat.mul_div_le _ _)
      have hm : (P * k).val = P.val * k.toNat := EfuTime.val_mul (by omega)
      have hmn := EfuTime.normal_mul P k
      refine ⟨T + P * k, ?_, EfuTime.normal_add _ _, ?_, ?_⟩
      · simp only [latestPulse, hd, bind, Except.bind, hge.2 hp, if_true]
        rfl
      · rw [EfuTime.val_add hT hmn (by omega), hm, if_neg (Nat.not_lt.2 hp), hkv, Nat.mul_comm]
      · exact EfuTime.add_lt_eq_false hT hmn (by omega)
    · refine ⟨c, ?_, hc.normal, ?_, hlt⟩
      · simp only [latestPulse, hd, bind, Except.bind, mt hge.1 hp]
        rfl
      · rw [if_pos (Nat.not_le.1 hp)]

/-- The pulse before a new reference time is at most five periods back. -/
theorem previousPulse_spec (hn : now.Normal) (hT : T.Normal) (hP : P.Canonical)
    (hle : P.val ≤ T.val) (hlt : now.lt T = false) :
    ∃ prev, previousPulse now T P = .ok prev ∧ prev.val ≤ now.val ∧
      now.val - prev.val ≤ 5 * P.val := by
  obtain ⟨d, hd, hdn, hdv, -⟩ := EfuTime.sub_ok hn hT hlt
  have hTn : T.val ≤ now.val := EfuTime.val_le_of_not_lt hT hlt
  have h5 : (P * (5 : UInt32)).val ≤ P.val * 5 := EfuTime.val_mul_le P 5
  cases hg : d.gt (P * (5 : UInt32)) with
  | true =>
    -- more than five periods have passed, so `now` is later than `P`
    have hpos : 0 < d.val := by
      rw [EfuTime.gt_eq_lt, EfuTime.lt_eq_true] at hg
      rw [EfuTime.val_eq]; omega
    obtain ⟨prev, hp, -, hpv, -⟩ :=
      EfuTime.sub_ok hn hP.normal (EfuTime.lt_eq_false hn (by omega : P.val < now.val))
    refine ⟨prev, ?_, by omega, by omega⟩
    simp only [previousPulse, hd, bind, Except.bind, hg, if_true]
    exact hp
  | false =>
    rw [EfuTime.gt_eq_lt] at hg
    have hdle : d.val ≤ (P * (5 : UInt32)).val := EfuTime.val_le_of_not_lt hdn hg
    refine ⟨T, ?_, hTn, by omega⟩
    simp only [previousPulse, hd, bind, Except.bind, EfuTime.gt_eq_lt, hg]
    rfl

end

/-! ## The clock along runs -/

/-- The invariant of the clock of an object with period `P`. -/
structure Clocked (P : EfuTime) (w : World R FS) : Prop where
  period : w.obj.period = P
  normal : w.obj.time.Normal
  le_time : P.val ≤ w.obj.time.val
  pulse : w.obj.lastPulseTime = w.obj.time

theorem Clocked.of_settings {P : EfuTime} {v w : World R FS}
    (hs : w.obj.settings = v.obj.settings) (h : Clocked P v) : Clocked P w where
  period := (period_of_settings hs).trans h.period
  normal := by rw [time_of_settings hs]; exact h.normal
  le_time := by rw [time_of_settings hs]; exact h.le_time
  pulse := by rw [(pulses_of_settings hs).1, time_of_settings hs]; exact h.pulse

theorem clocked_effect [CDouble R] {P : EfuTime} {w w' : World R FS} (he : Effect w w')
    (h : Clocked P w) : Clocked P w' := by
  cases he with
  | configured | noted | fresh => exact ⟨h.period, h.normal, h.le_time, h.pulse⟩
  | added ha => exact h.of_settings (settings_added (.single ha))
  | flushed => exact h.of_settings (World.settings_flushed w)

/-- What a reading does to a world with its clock in order: one earlier than
    the reference time throws, any other one moves the pulse. -/
theorem updateTime_spec {P : EfuTime} {w : World R FS} (h : Clocked P w) (hP : P.Canonical)
    (clock : UInt64) :
    ((EfuTime.now clock).val < w.obj.time.val ∧
        updateTime clock w = .error (.runtimeError "Subtracting a larger time?") w) ∨
      w.obj.time.val ≤ (EfuTime.now clock).val ∧ ∃ now prev,
        latestPulse (EfuTime.now clock) w.obj.time w.obj.period = .ok now ∧
        updateTime clock w = .ok () (w.advanced now prev) ∧ now.Normal ∧
        now.val = PulseClock.next P.val w.obj.time.val (EfuTime.now clock).val ∧
        prev.val ≤ now.val ∧ now.val - prev.val ≤ 5 * P.val := by
  obtain ⟨rfl, hn, hle, -⟩ := h
  rcases latestPulse_spec (EfuTime.canonical_now clock) hn hP with
    ⟨h1, h2⟩ | ⟨h1, now, h2, h3, h4, h5⟩
  · exact Or.inl ⟨h1, updateTime_error h2⟩
  · obtain ⟨prev, h6, h7, h8⟩ := previousPulse_spec h3 hn hP hle h5
    exact Or.inr ⟨h1, now, prev, h2, updateTime_ok h2 h6, h3, h4, h7, h8⟩

theorem period_advanced (w : World R FS) (now prev : EfuTime) :
    (w.advanced now prev).obj.period = w.obj.period := by
  have h := period_of_settings (World.settings_flushed (w.timed prev))
  exact h

theorem clocked_advanced {P : EfuTime} {w : World R FS} {clock : UInt64} {now prev : EfuTime}
    (hP : P.Canonical) (hl : latestPulse (EfuTime.now clock) w.obj.time w.obj.period = .ok now)
    (h : Clocked P w) : Clocked P (w.advanced now prev) := by
  obtain ⟨rfl, hn, hle, -⟩ := h
  rcases latestPulse_spec (EfuTime.canonical_now clock) hn hP with
    ⟨-, h2⟩ | ⟨-, now', h2, h3, h4, -⟩
  · rw [hl] at h2; cases h2
  · obtain rfl : now = now' := Except.ok.inj (hl.symm.trans h2)
    have h5 := PulseClock.le_next (P := w.obj.period.val) (T := w.obj.time.val)
      (c := (EfuTime.now clock).val)
    exact ⟨period_advanced w now prev, h3, (hle.trans h5).trans h4.ge, rfl⟩

section
variable [CDouble R]

theorem clocked_create {clock : UInt64} {frequency : R} {type : Int} {fs : FS}
    {socket : ℕ → SendResult} {draws : ℕ → Draw} {w : World R FS}
    (h : readoutCreate clock frequency type fs socket draws = .ok w) :
    w.obj.time = EfuTime.now clock ∧ w.obj.period.Canonical ∧ Clocked w.obj.period w := by
  obtain ⟨d, prev, -, hp, rfl⟩ := make_ok h
  have hc := EfuTime.canonical_now clock
  have hP := CDouble.canonical_toEfu (CDouble.recip frequency)
  refine ⟨rfl, hP, rfl, hc.normal, ?_, rfl⟩
  cases hlt : (EfuTime.now clock).lt (CDouble.toEfu (CDouble.recip frequency)) with
  | true => rw [EfuTime.sub_error hlt] at hp; cases hp
  | false => exact EfuTime.val_le_of_not_lt hP.normal hlt

variable [HighFive R FS] [Host]

theorem clocked_runCalls {P : EfuTime} {w : World R FS} (hP : P.Canonical) (h : Clocked P w)
    (calls : List (Call R)) : Clocked P (runCalls w calls) :=
  runCalls_keeps _ clocked_effect (fun hl _ => clocked_advanced hP hl) h calls

/-- **Timing safety.**  After any run, a call of `update_time` throws iff the
    reading is earlier than the reference time, and then leaves the world as it
    was; otherwise the pulse moves forward to at most the reading, the pulse
    before is at most five periods back, and the packet under construction
    carries both. -/
theorem updateTime_safe {clock₀ : UInt64} {frequency : R} {type : Int} {fs : FS}
    {socket : ℕ → SendResult} {draws : ℕ → Draw} {w₀ : World R FS}
    (hw : readoutCreate clock₀ frequency type fs socket draws = .ok w₀)
    (calls : List (Call R)) (clock : UInt64) :
    let w := runCalls w₀ calls
    let c := EfuTime.now clock
    (c.val < w.obj.time.val ∧
        updateTime clock w = .error (.runtimeError "Subtracting a larger time?") w) ∨
      w.obj.time.val ≤ c.val ∧ ∃ w', updateTime clock w = .ok () w' ∧
        w'.obj.prevPulseTime.val ≤ w'.obj.lastPulseTime.val ∧
        w'.obj.lastPulseTime.val ≤ c.val ∧
        w.obj.lastPulseTime.val ≤ w'.obj.lastPulseTime.val ∧
        w'.obj.lastPulseTime.val - w'.obj.prevPulseTime.val ≤ 5 * w₀.obj.period.val ∧
        w'.obj.time = w'.obj.lastPulseTime ∧
        ∃ header rest, PacketHeaderV0.codec.dec w'.bytes = some (header, rest) ∧
          header.pulse = w'.obj.lastPulseTime ∧ header.prevPulse = w'.obj.prevPulseTime := by
  intro w c
  obtain ⟨-, hPc, hk₀⟩ := clocked_create hw
  have hk := clocked_runCalls hPc hk₀ calls
  have hwire := wire_runCalls (wire_make hw) calls
  rcases updateTime_spec hk hPc clock with ⟨h1, h2⟩ | ⟨h1, now, prev, -, h2, -, h4, h5, h6⟩
  · exact Or.inl ⟨h1, h2⟩
  · have hge := PulseClock.le_next (P := w₀.obj.period.val) (T := w.obj.time.val) (c := c.val)
    have hle := PulseClock.next_le (P := w₀.obj.period.val) h1
    refine Or.inr ⟨h1, _, h2, h5, h4.le.trans hle, ?_, h6, rfl, ?_⟩
    · rw [hk.pulse]; exact hge.trans h4.ge
    · exact ⟨_, _, (wire_advanced hwire now prev).dec_bytes, rfl, rfl⟩

end

/-- A second and a half after its creation at ten seconds, the clock of a 1 Hz
    source moves on. -/
theorem updateTime_safe_atTen : ∃ w', updateTime 11500000000 (runCalls (atTen .BIFROST) []) =
      .ok () w' ∧ w'.obj.lastPulseTime.val - w'.obj.prevPulseTime.val ≤ 5 * 88052499 := by
  rcases updateTime_safe (create_atTen .BIFROST) [] 11500000000 with
    ⟨h, -⟩ | ⟨-, w', h1, -, -, -, h2, -⟩
  · exact absurd h (by decide +kernel)
  · exact ⟨w', h1, h2⟩

/-! ## The pulse grid -/

section
variable [CDouble R] [HighFive R FS] [Host]

/-- The readings of the system clock that a run makes, in ticks. -/
def readings (calls : List (Call R)) : List ℕ :=
  calls.filterMap fun call => call.clock.map fun clock => (EfuTime.now clock).val

/-- The reference pulse, in ticks, after each call of a run that reads the
    clock. -/
def pulsesAfter : World R FS → List (Call R) → List ℕ
  | _, [] => []
  | w, call :: calls =>
    let w' := final (step call) w
    if call.clock.isSome then w'.obj.lastPulseTime.val :: pulsesAfter w' calls
    else pulsesAfter w' calls

omit [HighFive R FS] [Host] in
theorem time_effects {w w' : World R FS} (h : Effects w w') : w'.obj.time = w.obj.time := by
  refine h.keeps (fun v => v.obj.time = w.obj.time) (fun he hv => ?_) rfl
  cases he with
  | configured | noted | fresh => exact hv
  | added ha => exact (time_of_settings (settings_added (.single ha))).trans hv
  | flushed => exact (World.flushed_time _).trans hv

/-- A call whose reading is earlier than the reference time does nothing; any
    other one moves the pulse to the next reference time and then has
    effects. -/
theorem step_clocked_spec {P : EfuTime} {w : World R FS} (h : Clocked P w) (hP : P.Canonical)
    {call : Call R} {clock : UInt64} (hc : call.clock = some clock) :
    ((EfuTime.now clock).val < w.obj.time.val ∧ final (step call) w = w) ∨
      w.obj.time.val ≤ (EfuTime.now clock).val ∧ ∃ now prev,
        latestPulse (EfuTime.now clock) w.obj.time w.obj.period = .ok now ∧
        now.val = PulseClock.next P.val w.obj.time.val (EfuTime.now clock).val ∧
        updateTime clock w = .ok () (w.advanced now prev) ∧
        Effects (w.advanced now prev) (final (step call) w) := by
  rcases step_clocked hc w with ⟨e, he, hs⟩ | ⟨now, prev, h1, -, h3, h4⟩
  · rcases updateTime_spec h hP clock with ⟨h1, -⟩ | ⟨-, now, prev, -, h2, -⟩
    · exact Or.inl ⟨h1, final_of_error hs⟩
    · rw [h2] at he; cases he
  · rcases updateTime_spec h hP clock with ⟨-, h2⟩ | ⟨h0, now', prev', h1', -, -, h5, -⟩
    · rw [h2] at h3; cases h3
    · obtain rfl : now = now' := Except.ok.inj (h1.symm.trans h1')
      exact Or.inr ⟨h0, now, prev, h1, h5, h3, h4⟩

/-- The reference time after a call that reads the clock is the next one. -/
theorem time_step {P : EfuTime} {w : World R FS} (h : Clocked P w) (hP : P.Canonical)
    {call : Call R} {clock : UInt64} (hc : call.clock = some clock) :
    (final (step call) w).obj.time.val =
      PulseClock.next P.val w.obj.time.val (EfuTime.now clock).val := by
  rcases step_clocked_spec h hP hc with ⟨h1, h2⟩ | ⟨-, now, prev, -, h2, -, h3⟩
  · rw [h2, PulseClock.next, if_pos h1]
  · rw [time_effects h3]; exact h2

/-- **The pulses of a run are those of the clock in ticks.** -/
theorem pulsesAfter_eq {P : EfuTime} {w : World R FS} (h : Clocked P w) (hP : P.Canonical)
    (calls : List (Call R)) :
    pulsesAfter w calls = PulseClock.pulses P.val w.obj.time.val (readings calls) := by
  induction calls generalizing w with
  | nil => rfl
  | cons call calls ih =>
    have hk : Clocked P (final (step call) w) := clocked_runCalls hP h [call]
    have ih := ih hk
    cases hc : call.clock with
    | none =>
      have ht := time_effects (step_unclocked hc w)
      simp only [pulsesAfter, hc, readings, List.filterMap_cons, Option.map_none]
      rw [← ht]
      exact ih
    | some clock =>
      have ht := time_step h hP hc
      simp only [pulsesAfter, hc, Option.isSome_some, if_true, readings, List.filterMap_cons,
        Option.map_some, PulseClock.pulses, hk.pulse, ht]
      rw [← ht, ih]
      rfl

/-- **Pulse grid.**  Over non-decreasing readings the reference pulse is the
    last pulse of the grid through the creation time after every reading, iff
    every reading is that pulse itself or falls in a later period than the
    reading before. -/
theorem onGrid_iff {clock₀ : UInt64} {frequency : R} {type : Int} {fs : FS}
    {socket : ℕ → SendResult} {draws : ℕ → Draw} {w₀ : World R FS}
    (hw : readoutCreate clock₀ frequency type fs socket draws = .ok w₀)
    (hP : 0 < w₀.obj.period.val) (calls : List (Call R))
    (hmono : ((EfuTime.now clock₀).val :: readings calls).IsChain (· ≤ ·)) :
    pulsesAfter w₀ calls =
        (readings calls).map (Grid.floor (EfuTime.now clock₀).val w₀.obj.period.val) ↔
      ((EfuTime.now clock₀).val :: readings calls).IsChain
        (PulseClock.Steady (EfuTime.now clock₀).val w₀.obj.period.val) := by
  obtain ⟨ht, hPc, hk⟩ := clocked_create hw
  have h := PulseClock.pulses_eq_iff hP (le_refl (EfuTime.now clock₀).val) hmono
  rw [Grid.floor_self] at h
  rw [pulsesAfter_eq hk hPc, ht, h]

end

/-- Readings in later periods keep the pulse on the grid. -/
theorem onGrid_iff_atTen :
    pulsesAfter (atTen .BIFROST) [.setPulseTime 11500000000, .send, .setPulseTime 14100000000] =
      [11 * 88052499, 14 * 88052499] := by
  have h := (onGrid_iff (create_atTen .BIFROST) (by decide)
    [.setPulseTime 11500000000, .send, .setPulseTime 14100000000] (by decide +kernel)).2
    (by decide +kernel)
  exact h.trans (by decide +kernel)

/-- A reading half a period after the creation moves the pulse off the grid. -/
theorem pulse_off_grid : ∃ (w₀ : World ℚ (Disk ℚ)) (calls : List (Call ℚ)),
    readoutCreate 10000000000 (1 : ℚ) 0x34 Disk.blank openSocket ones = .ok w₀ ∧
    0 < w₀.obj.period.val ∧
    ((EfuTime.now 10000000000).val :: readings calls).IsChain (· ≤ ·) ∧
    pulsesAfter w₀ calls ≠
      (readings calls).map (Grid.floor (EfuTime.now 10000000000).val w₀.obj.period.val) :=
  ⟨atTen .BIFROST, [.setPulseTime 10500000000], create_atTen .BIFROST, by decide,
    by decide +kernel, by decide +kernel⟩

end ReadoutMaster
