/-
  The event mode of the components.

  The check of `event_mode` exits if the mode is "pp", which is the one it
  means to accept next to "p", and lets every other string pass
  (`eventModeFlag_eq`); TRACE then treats that string as it would treat "pp".

  * `selects_iff`: a component accepts the two modes and no other, and weighs
    its particles as the mode asks, iff the mode is "p".
-/
import ReadoutMaster.Proof.Noise

namespace ReadoutMaster

open Machine

variable {R σ D : Type}

/-! ## The check -/

/-- The flag, or the exit. -/
theorem eventModeFlag_eq (named mode : String) :
    eventModeFlag named mode =
      if mode = "pp" then .error (readoutError named "Undefined event mode")
      else .ok (decide (mode ≠ "p")) := by
  by_cases h : mode = "pp"
  · subst h
    rw [if_pos rfl]
    rfl
  · rw [eventModeFlag, if_neg (fun hm => h hm.2), if_neg h]

/-- The check passes iff the mode is not "pp". -/
theorem eventModeFlag_passes (named mode : String) :
    (∃ b, eventModeFlag named mode = .ok b) ↔ mode ≠ "pp" := by
  rw [eventModeFlag_eq]
  constructor
  · rintro ⟨b, hb⟩ rfl
    cases hb
  · intro h
    exact ⟨_, if_neg h⟩

theorem requirePresent_true (named var : String) :
    requirePresent (fun _ => true) named var = .ok () := by
  unfold requirePresent
  split_ifs <;> rfl

/-! ## Weights -/

/-- The weight that a mode asks for: `p` in mode "p", its square in mode
    "pp". -/
def modeWeight [CArith R] (mode : String) (p : R) : R :=
  if mode = "pp" then CArith.mul p p else p

/-- A component in this mode whose INITIALIZE makes some checks first.  If
    these pass it is initialised iff the mode is "p" or "pp"; and once it is, it
    makes one call of `readout_add` for each particle, with the weight `asked`
    makes of its `p`. -/
structure Selects (σ : Type) (mode : String) (checks : (String → Bool) → List (Except Exit Unit))
    (initialise : (String → Bool) → Except Exit D)
    (trace : D → AddReadout R (EStateM Exn (σ × List (AddCall R)) Unit) → Particle R →
      EStateM Exn (Traced R σ) Unit) (asked : R → R) : Prop where
  accepts : ∀ accessible, (∀ x ∈ checks accessible, x = .ok ()) →
    ((∃ d, initialise accessible = .ok d) ↔ mode = "p" ∨ mode = "pp")
  weighs : ∀ accessible d, initialise accessible = .ok d →
    ∀ (add : AddReadout R (EStateM Exn σ Unit)) (s : Traced R σ) (p : Particle R), ∃ call,
      (final (trace d (logged add) p) s).1.2 = s.1.2 ++ [call] ∧ call.weight = asked (p "p")

/-- A component that only ends its INITIALIZE with the check of the mode, and
    whose TRACE passes on a weight that depends on the flag. -/
theorem selects_iff_of_flag {mode named : String}
    {checks : (String → Bool) → List (Except Exit Unit)}
    {initialise : (String → Bool) → Except Exit D} {declare : Bool → D}
    {trace : D → AddReadout R (EStateM Exn (σ × List (AddCall R)) Unit) → Particle R →
      EStateM Exn (Traced R σ) Unit} {weight : D → Particle R → R} {asked : R → R}
    (hchecks : ∀ x ∈ checks (fun _ => true), x = .ok ())
    (hinit : ∀ accessible d, initialise accessible = .ok d ↔
      (∀ x ∈ checks accessible, x = .ok ()) ∧
        ∃ b, eventModeFlag named mode = .ok b ∧ d = declare b)
    (htrace : ∀ d add (s : Traced R σ) p, ∃ call,
      (final (trace d (logged add) p) s).1.2 = s.1.2 ++ [call] ∧ call.weight = weight d p)
    (hweight : mode = "p" → ∀ p, weight (declare false) p = asked (p "p")) :
    Selects σ mode checks initialise trace asked ↔ mode = "p" := by
  have hpass : ∀ accessible, (∀ x ∈ checks accessible, x = .ok ()) →
      ((∃ d, initialise accessible = .ok d) ↔ mode ≠ "pp") := by
    intro accessible hx
    rw [← eventModeFlag_passes named mode]
    constructor
    · rintro ⟨d, hd⟩
      obtain ⟨-, b, hb, -⟩ := (hinit accessible d).1 hd
      exact ⟨b, hb⟩
    · rintro ⟨b, hb⟩
      exact ⟨declare b, (hinit accessible _).2 ⟨hx, b, hb, rfl⟩⟩
  constructor
  · intro h
    have haccepts := (hpass _ hchecks).symm.trans (h.accepts _ hchecks)
    by_cases hpp : mode = "pp"
    · exact absurd hpp (haccepts.2 (Or.inr hpp))
    · exact (haccepts.1 hpp).resolve_right hpp
  · intro hp
    have hpp : mode ≠ "pp" := by rw [hp]; decide
    refine ⟨?_, ?_⟩
    · intro accessible hx
      exact iff_of_true ((hpass accessible hx).2 hpp) (Or.inl hp)
    · intro accessible d hd add s p
      obtain ⟨-, b, hb, rfl⟩ := (hinit accessible d).1 hd
      rw [eventModeFlag_eq, if_neg hpp] at hb
      have hfalse : b = false := by
        rw [← Except.ok.inj hb]
        exact decide_eq_false (not_not.2 hp)
      obtain ⟨call, hcall, hw⟩ := htrace (declare b) add s p
      rw [hfalse, hweight hp] at hw
      exact ⟨call, hcall, hw⟩

/-- The one call a TRACE block makes carries the weight it was given. -/
theorem weight_traceBlock [CDouble R] {pp : R} {read : Values R}
    {noise : EStateM Exn (Traced R σ) (Values R)} (hq : Quiet noise)
    (add : AddReadout R (EStateM Exn σ Unit)) (s : Traced R σ) :
    ∃ call, (final (traceBlock pp read noise (logged add)) s).1.2 = s.1.2 ++ [call] ∧
      call.weight = pp := by
  obtain ⟨v, hv, -⟩ : ∃ v : Values R,
      (final (traceBlock pp read noise (logged add)) s).1.2 = s.1.2 ++ [v.call pp] ∧
        (CDouble.truthy pp = true → v = read) := calls_traceBlock hq s
  exact ⟨v.call pp, hv, rfl⟩

/-! ## The components -/

/-- The checks of INITIALIZE before that of the mode. -/
def ReadoutCAEN.checks (c : ReadoutCAEN R) (accessible : String → Bool) :
    List (Except Exit Unit) :=
  [require accessible c.named c.ring, requirePresent accessible c.named c.fen,
    require accessible c.named c.tube, requirePresent accessible c.named c.aName,
    requirePresent accessible c.named c.bName, requirePresent accessible c.named c.cName,
    requirePresent accessible c.named c.dName, require accessible c.named c.tof]

/-- What INITIALIZE declares. -/
def ReadoutCAEN.declare (c : ReadoutCAEN R) (pOrPp : Bool) : Declared :=
  ⟨pOrPp, c.fen ≠ "", c.aName ≠ "", c.bName ≠ "", c.cName ≠ "", c.dName ≠ ""⟩

theorem ReadoutCAEN.initialise_eq_ok {c : ReadoutCAEN R} {accessible : String → Bool}
    {d : Declared} : c.initialise accessible = .ok d ↔
      (∀ x ∈ c.checks accessible, x = .ok ()) ∧
        ∃ b, eventModeFlag c.named c.eventMode = .ok b ∧ d = c.declare b := by
  have hinit : c.initialise accessible = guarded (c.checks accessible)
      (eventModeFlag c.named c.eventMode >>= fun b => .ok (c.declare b)) := rfl
  rw [hinit, guarded_eq_ok, except_bind_eq_ok]
  simp only [Except.ok.injEq, eq_comm]

/-- The checks of INITIALIZE before that of the mode. -/
def ReadoutTTLMonitor.checks (c : ReadoutTTLMonitor R) (accessible : String → Bool) :
    List (Except Exit Unit) :=
  [requirePresent accessible c.named c.ring, requirePresent accessible c.named c.fen,
    requirePresent accessible c.named c.position, requirePresent accessible c.named c.identity,
    require accessible c.named c.value, require accessible c.named c.tof]

/-- What INITIALIZE declares. -/
def ReadoutTTLMonitor.declare (c : ReadoutTTLMonitor R) (pOrPp : Bool) : Declared :=
  ⟨pOrPp, c.ring ≠ "", c.fen ≠ "", c.position ≠ "", c.identity ≠ ""⟩

theorem ReadoutTTLMonitor.initialise_eq_ok {c : ReadoutTTLMonitor R}
    {accessible : String → Bool} {d : Declared} : c.initialise accessible = .ok d ↔
      (∀ x ∈ c.checks accessible, x = .ok ()) ∧
        ∃ b, eventModeFlag c.named c.eventMode = .ok b ∧ d = c.declare b := by
  have hinit : c.initialise accessible = guarded (c.checks accessible)
      (eventModeFlag c.named c.eventMode >>= fun b => .ok (c.declare b)) := rfl
  rw [hinit, guarded_eq_ok, except_bind_eq_ok]
  simp only [Except.ok.injEq, eq_comm]

section
variable [CArith R] [CDouble R]

/-- **The event mode** of a component is read as documented, and checked, iff it
    is "p". -/
theorem selects_iff :
    (∀ c : ReadoutCAEN R, Selects σ c.eventMode c.checks c.initialise
        (fun d add => c.trace d add) (modeWeight c.eventMode) ↔ c.eventMode = "p") ∧
      ∀ c : ReadoutTTLMonitor R, Selects σ c.eventMode c.checks c.initialise
        (fun d add => c.trace d add)
        (fun p => CArith.mul (modeWeight c.eventMode p) c.efficiency) ↔ c.eventMode = "p" := by
  constructor
  · intro c
    refine selects_iff_of_flag ?_ (fun _ _ => ReadoutCAEN.initialise_eq_ok)
      (fun d add s p => weight_traceBlock (c.quiet_noise d) add s) ?_
    · simp only [ReadoutCAEN.checks, require, requirePresent_true, List.mem_cons, if_true,
        List.not_mem_nil, or_false, forall_eq_or_imp, forall_eq, and_self]
    · intro hp p
      have hpp : c.eventMode ≠ "pp" := by rw [hp]; decide
      rw [modeWeight, if_neg hpp]
      rfl
  · intro c
    refine selects_iff_of_flag ?_ (fun _ _ => ReadoutTTLMonitor.initialise_eq_ok)
      (fun d add s p => weight_traceBlock c.quiet_noise add s) ?_
    · simp only [ReadoutTTLMonitor.checks, require, requirePresent_true, List.mem_cons, if_true,
        List.not_mem_nil, or_false, forall_eq_or_imp, forall_eq, and_self]
    · intro hp p
      have hpp : c.eventMode ≠ "pp" := by rw [hp]; decide
      rw [modeWeight, if_neg hpp]
      rfl

end

/-- A component with nothing but the required parameters and a mode. -/
def caenIn (mode : String) : ReadoutCAEN ℚ := { plainCaen with eventMode := mode }

/-- The mode "pp" exits, and "P" squares the weight. -/
theorem pp_exits :
    (caenIn "pp").initialise (fun _ => true) =
        .error (readoutError "caen" "Undefined event mode") ∧
      (∃ d, (caenIn "P").initialise (fun _ => true) = .ok d ∧
        ReadoutCAEN.weight d (fun _ => (3 : ℚ)) = 9) ∧
      ¬ Selects Unit "pp" (caenIn "pp").checks (caenIn "pp").initialise
        (fun d add => (caenIn "pp").trace d add) (modeWeight "pp") := by
  refine ⟨rfl, ⟨⟨true, false, false, false, false, false⟩, rfl, by decide +kernel⟩, ?_⟩
  intro h
  obtain ⟨d, hd⟩ := (h.accepts (fun _ => true) (by decide)).2 (Or.inr rfl)
  cases hd

end ReadoutMaster
