/-
  What the components hand to `readout_add`.

  A TRACE block makes up values for a particle of weight zero, and hands them
  to `readout_add` with this weight, whatever `noisy` is.  `noNoise_iff`: all
  the calls of a run carry the values of particles whose weight is not zero iff
  no particle has weight zero.
-/
import ReadoutMaster.Components
import ReadoutMaster.Proof.Replay

namespace ReadoutMaster

open Machine

variable {R σ : Type}

/-- The call that passes the values on. -/
def Values.call (v : Values R) (pp : R) : AddCall R :=
  ⟨v.ring.toUInt32.toUInt8, v.fen.toUInt32.toUInt8, v.tof, pp, v.data⟩

/-- An object that notes the calls made on it, and the values of `rand01`. -/
abbrev Traced (R σ : Type) := (σ × List (AddCall R)) × (ℕ → R)

section
variable [CDouble R]

/-- The call carries the values of the particle, whose weight is not zero. -/
def Genuine (weight : Particle R → R) (read : Particle R → Values R) (p : Particle R)
    (call : AddCall R) : Prop :=
  CDouble.truthy (weight p) = true ∧ call = (read p).call (weight p)

/-- Every call made while a sequence of particles is traced is genuine. -/
def NoNoise (trace : Particle R → EStateM Exn (Traced R σ) Unit) (weight : Particle R → R)
    (read : Particle R → Values R) (s : Traced R σ) (particles : List (Particle R)) : Prop :=
  Along trace (fun t p => ∀ call ∈ (final (trace p) t).1.2.drop t.1.2.length,
    Genuine weight read p call) s particles

/-! ## Values made up -/

/-- The program returns, and leaves the object alone. -/
def Quiet {α : Type} (x : EStateM Exn (σ × (ℕ → R)) α) : Prop :=
  ∀ t, ∃ a draws, x t = .ok a (t.1, draws)

omit [CDouble R] in
theorem quiet_pure {α : Type} (a : α) : Quiet (pure a : EStateM Exn (σ × (ℕ → R)) α) :=
  fun t => ⟨a, t.2, rfl⟩

omit [CDouble R] in
theorem quiet_bind {α β : Type} {x : EStateM Exn (σ × (ℕ → R)) α}
    {f : α → EStateM Exn (σ × (ℕ → R)) β} (hx : Quiet x) (hf : ∀ a, Quiet (f a)) :
    Quiet (x >>= f) := by
  intro t
  obtain ⟨a, draws, h⟩ := hx t
  obtain ⟨b, draws', h'⟩ := hf a (t.1, draws)
  exact ⟨b, draws', (bind_of_ok h).trans h'⟩

omit [CDouble R] in
theorem quiet_ite {α : Type} {c : Prop} [Decidable c] {x y : EStateM Exn (σ × (ℕ → R)) α}
    (hx : Quiet x) (hy : Quiet y) : Quiet (if c then x else y) := by
  split_ifs
  · exact hx
  · exact hy

omit [CDouble R] in
theorem quiet_rand01 : Quiet (rand01 : EStateM Exn (σ × (ℕ → R)) R) := fun _ => ⟨_, _, rfl⟩

variable [CArith R]

omit [CDouble R] in
theorem quiet_randInt (k : Int32) : Quiet (randInt k : EStateM Exn (σ × (ℕ → R)) Int32) :=
  quiet_bind quiet_rand01 fun _ => quiet_pure _

omit [CDouble R] in
theorem ReadoutCAEN.quiet_randAmplitude (present : Bool) (value : Int32) :
    Quiet (randAmplitude present value : EStateM Exn (σ × (ℕ → R)) Int32) :=
  quiet_ite (quiet_bind (quiet_randInt (R := R) 1024) fun _ => quiet_pure _) (quiet_pure value)

omit [CDouble R] in
theorem ReadoutCAEN.quiet_noise (c : ReadoutCAEN R) (d : ReadoutCAEN.Declared) :
    Quiet (c.noise d : EStateM Exn (σ × (ℕ → R)) (Values R)) := by
  refine quiet_bind (quiet_randInt (R := R) 3) fun _ => ?_
  refine quiet_bind (quiet_randInt (R := R) 15) fun _ => ?_
  refine quiet_bind (quiet_randAmplitude (R := R) _ _) fun _ => ?_
  refine quiet_bind (quiet_randAmplitude (R := R) _ _) fun _ => ?_
  refine quiet_bind (quiet_randAmplitude (R := R) _ _) fun _ => ?_
  refine quiet_bind (quiet_randAmplitude (R := R) _ _) fun _ => ?_
  exact quiet_bind quiet_rand01 fun _ => quiet_pure _

omit [CDouble R] in
theorem ReadoutTTLMonitor.quiet_noise (c : ReadoutTTLMonitor R) :
    Quiet (c.noise : EStateM Exn (σ × (ℕ → R)) (Values R)) := by
  refine quiet_bind quiet_rand01 fun _ => quiet_bind (quiet_randInt (R := R) 4096) fun _ => ?_
  exact quiet_bind quiet_rand01 fun _ => quiet_pure _

/-! ## TRACE -/

section
variable {pp : R} {read : Values R} {noise : EStateM Exn (Traced R σ) (Values R)}
  {add : AddReadout R (EStateM Exn σ Unit)}

omit [CArith R] in
/-- A TRACE block makes one call, with the values of the particle if its weight
    is not zero. -/
theorem calls_traceBlock (hq : Quiet noise) (t : Traced R σ) :
    ∃ v : Values R,
      (final (traceBlock pp read noise (logged add)) t).1.2 = t.1.2 ++ [v.call pp] ∧
        (CDouble.truthy pp = true → v = read) := by
  have hobject : ∀ (v : Values R) (draws : ℕ → R),
      (final (onObject ((v.call pp).perform (logged add))) (t.1, draws)).1.2 =
        t.1.2 ++ [v.call pp] := by
    intro v draws
    have hcalls : (final ((v.call pp).perform (logged add)) t.1).2 = t.1.2 ++ [v.call pp] :=
      calls_logged _ _
    rw [← hcalls]
    cases h : (v.call pp).perform (logged add) t.1 with
    | ok u s => simp only [final, onObject, h]
    | error e s => simp only [final, onObject, h]
  cases hpp : CDouble.truthy pp with
  | true =>
    refine ⟨read, ?_, fun _ => rfl⟩
    rw [traceBlock, if_pos hpp]
    exact hobject read t.2
  | false =>
    obtain ⟨v, draws, hv⟩ := hq t
    refine ⟨v, ?_, fun h => (by cases h)⟩
    have hblock : traceBlock pp read noise (logged add) t =
        onObject ((v.call pp).perform (logged add)) (t.1, draws) := by
      rw [traceBlock, if_neg (by simp [hpp]), bind_of_ok hv]
      rfl
    have hfinal := hobject v draws
    simp only [final, hblock] at hfinal ⊢
    exact hfinal

end

omit [CArith R] in
/-- The calls made for a sequence of particles are genuine iff no particle has
    weight zero. -/
theorem noNoise_traceBlock {weight : Particle R → R} {read : Particle R → Values R}
    {noise : EStateM Exn (Traced R σ) (Values R)} (hq : Quiet noise)
    (add : AddReadout R (EStateM Exn σ Unit)) (s : Traced R σ) (particles : List (Particle R)) :
    NoNoise (fun p => traceBlock (weight p) (read p) noise (logged add)) weight read s particles ↔
      ∀ p ∈ particles, CDouble.truthy (weight p) = true := by
  have hstep : ∀ (t : Traced R σ) (p : Particle R),
      (∀ call ∈ (final (traceBlock (weight p) (read p) noise (logged add)) t).1.2.drop
        t.1.2.length, Genuine weight read p call) ↔ CDouble.truthy (weight p) = true := by
    intro t p
    obtain ⟨v, hv, hread⟩ : ∃ v : Values R,
        (final (traceBlock (weight p) (read p) noise (logged add)) t).1.2 =
            t.1.2 ++ [v.call (weight p)] ∧
          (CDouble.truthy (weight p) = true → v = read p) := calls_traceBlock hq t
    rw [hv, List.drop_left, List.forall_mem_singleton]
    constructor
    · exact fun h => h.1
    · intro h
      exact ⟨h, by rw [hread h]⟩
  -- the steps agree in every state
  let Inv : Traced R σ → Prop := fun _ => True
  have h0 : Inv s := trivial
  rw [NoNoise, along_congr h0 (fun _ _ _ _ => trivial) (fun p _ t _ => hstep t p)]
  exact along_const

/-- **No noise.**  Whatever the parameter `noisy` is, and whatever
    `readout_add` does, the calls a component makes for a sequence of particles
    carry the values of particles whose weight is not zero iff no particle has
    weight zero. -/
theorem noNoise_iff :
    (∀ (c : ReadoutCAEN R) (d : ReadoutCAEN.Declared) (add : AddReadout R (EStateM Exn σ Unit))
        (s : Traced R σ) (particles : List (Particle R)),
      NoNoise (c.trace d (logged add)) (ReadoutCAEN.weight d) (c.read d) s particles ↔
        ∀ p ∈ particles, CDouble.truthy (ReadoutCAEN.weight d p) = true) ∧
    ∀ (c : ReadoutTTLMonitor R) (d : ReadoutTTLMonitor.Declared)
        (add : AddReadout R (EStateM Exn σ Unit)) (s : Traced R σ) (particles : List (Particle R)),
      NoNoise (c.trace d (logged add)) (c.weight d) (c.read d) s particles ↔
        ∀ p ∈ particles, CDouble.truthy (c.weight d p) = true :=
  ⟨fun c d add s particles => noNoise_traceBlock (c.quiet_noise d) add s particles,
    fun c _ add s particles => noNoise_traceBlock c.quiet_noise add s particles⟩

end

/-- Exact rationals.  The first half of the bytes of a whole number below
    `2 ^ 21` is zero. -/
instance : CArith ℚ where
  mul x y := x * y
  div x y := x / y
  ofInt k := k.toInt
  toInt x := Int32.ofInt (x.num.tdiv x.den)
  bits _ := 0

/-- A component with nothing but the required parameters. -/
def plainCaen : ReadoutCAEN ℚ where
  named := "caen"
  ring := "ring"
  tube := "tube"
  pulseRate := 14

/-- A particle of weight zero, traced with `noisy` at its default, is made a
    record of the packet under construction. -/
theorem noise_by_default : ∃ d, plainCaen.noisy = 0 ∧
    plainCaen.initialise (fun _ => true) = .ok d ∧
    (let s : Traced ℚ (World ℚ (Disk ℚ)) := ((atTen .BIFROST, []), fun _ => 1 / 2)
      let trace := plainCaen.trace d (logged (readoutAdd 11500000000))
      (final (trace fun _ => 0) s).1.1.trace.pending.map (fun e => e.record.head.ring) = [1] ∧
        ¬ NoNoise trace (ReadoutCAEN.weight d) (plainCaen.read d) s [fun _ => 0]) := by
  refine ⟨⟨false, false, false, false, false, false⟩, rfl, rfl, by decide +kernel, ?_⟩
  intro h
  have hzero := (noNoise_traceBlock (plainCaen.quiet_noise _) _ _ _).1 h (fun _ => 0)
    (List.mem_singleton.2 rfl)
  exact absurd hzero (by decide)

end ReadoutMaster
