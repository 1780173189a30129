/-
  Two programs run side by side.

  Programs of `EStateM`, over states that may be of different types, are
  related if from related states they return related values, or throw the same
  exception, and leave related states (`Relates`).  There is one rule for each
  construct of a program, and one for steps only one of the two makes.

  * `relates_bind`: sequences of related programs are related;
  * `Outcomes.join`: outcomes related to the same outcome are related.
-/
import ReadoutMaster.Lib.Machine

namespace Machine

variable {ε σ τ α β α' β' : Type}

/-- Outcomes of two programs: values in `q` or the same exception, and states
    in `r`. -/
inductive Outcomes (r : σ → τ → Prop) (q : α → β → Prop) :
    EStateM.Result ε σ α → EStateM.Result ε τ β → Prop
  | ok {a b s t} : q a b → r s t → Outcomes r q (.ok a s) (.ok b t)
  | error {e s t} : r s t → Outcomes r q (.error e s) (.error e t)

theorem Outcomes.mono {r r' : σ → τ → Prop} {q : α → β → Prop} {u : EStateM.Result ε σ α}
    {v : EStateM.Result ε τ β} (h : Outcomes r q u v) (hr : ∀ s t, r s t → r' s t) :
    Outcomes r' q u v := by
  cases h with
  | ok hq h => exact .ok hq (hr _ _ h)
  | error h => exact .error (hr _ _ h)

/-- From states in `r`, the outcomes of the programs have values in `q` and
    states in `r`. -/
def Relates (r : σ → τ → Prop) (q : α → β → Prop) (x : EStateM ε σ α) (y : EStateM ε τ β) : Prop :=
  ∀ s t, r s t → Outcomes r q (x s) (y t)

section
variable {r : σ → τ → Prop} {q : α → β → Prop} {p : α' → β' → Prop}

theorem relates_pure {a : α} {b : β} (h : q a b) :
    Relates r q (pure a : EStateM ε σ α) (pure b : EStateM ε τ β) := fun _ _ hr => .ok h hr

theorem relates_throw (e : ε) :
    Relates r q (throw e : EStateM ε σ α) (throw e : EStateM ε τ β) := fun _ _ hr => .error hr

theorem relates_lift (x : Except ε α) : Relates r Eq (lift x) (lift x) := by
  cases x with
  | ok a => exact relates_pure rfl
  | error e => exact relates_throw e

theorem relates_bind {x : EStateM ε σ α} {y : EStateM ε τ β} {f : α → EStateM ε σ α'}
    {g : β → EStateM ε τ β'} (h : Relates r q x y) (hf : ∀ a b, q a b → Relates r p (f a) (g b)) :
    Relates r p (x >>= f) (y >>= g) := by
  intro s t hr
  have hxy := h s t hr
  generalize hx : x s = u at hxy
  generalize hy : y t = v at hxy
  cases hxy with
  | ok hq hr' =>
    rw [bind_of_ok hx, bind_of_ok hy]
    exact hf _ _ hq _ _ hr'
  | error hr' =>
    rw [bind_of_error hx, bind_of_error hy]
    exact .error hr'

/-- Related programs that return the same value go on with it. -/
theorem relates_bind_eq {x : EStateM ε σ α} {y : EStateM ε τ α} {f : α → EStateM ε σ α'}
    {g : α → EStateM ε τ β'} (h : Relates r Eq x y) (hf : ∀ a, Relates r p (f a) (g a)) :
    Relates r p (x >>= f) (y >>= g) :=
  relates_bind h fun a _ ha => ha ▸ hf a

theorem relates_ite {c d : Prop} [Decidable c] [Decidable d] {x x' : EStateM ε σ α}
    {y y' : EStateM ε τ β} (hc : c ↔ d) (h : Relates r q x y) (h' : Relates r q x' y') :
    Relates r q (if c then x else x') (if d then y else y') := by
  by_cases hd : d
  · rw [if_pos hd, if_pos (hc.2 hd)]; exact h
  · rw [if_neg hd, if_neg (hd ∘ hc.1)]; exact h'

/-- A step of the first program alone. -/
theorem relates_left {x : EStateM ε σ α'} {f : α' → EStateM ε σ α} {y : EStateM ε τ β}
    (h : ∀ s t, r s t → ∃ a s', x s = .ok a s' ∧ r s' t) (hf : ∀ a, Relates r q (f a) y) :
    Relates r q (x >>= f) y := by
  intro s t hr
  obtain ⟨a, s', hx, hr'⟩ := h s t hr
  rw [bind_of_ok hx]
  exact hf a s' t hr'

end

/-- Outcomes related to one outcome are related to each other. -/
theorem Outcomes.join {r : σ → τ → Prop} {u v : EStateM.Result ε σ α} {w : EStateM.Result ε τ α}
    (hu : Outcomes r Eq u w) (hv : Outcomes r Eq v w) :
    Outcomes (fun s s' => ∃ t, r s t ∧ r s' t) Eq u v := by
  cases hu with
  | ok ha hr =>
    cases hv with
    | ok hb hr' => exact .ok (ha.trans hb.symm) ⟨_, hr, hr'⟩
  | error hr =>
    cases hv with
    | error hr' => exact .error ⟨_, hr, hr'⟩

end Machine
