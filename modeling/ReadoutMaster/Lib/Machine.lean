/-
  Machines that run one operation after another, where an operation may throw.

  A step is a program of `EStateM ε σ`: it returns or throws, and either way
  leaves a state behind (`final`).  `run` performs a list of operations, each
  from the state the one before left, whether that one returned or threw;
  `AllReturn` says that none of them throws.

  * `run_inv`: what holds at the start, and is kept by every step, holds after
    every run;
  * `along_congr`: two conditions on the steps of a run agree if they agree in
    every state of an invariant.
-/
import Mathlib.Data.List.Basic

namespace Machine

variable {ε σ ι α β : Type}

/-- The state a program leaves, whether it returns or throws. -/
def final (x : EStateM ε σ α) (s : σ) : σ :=
  match x s with
  | .ok _ s' => s'
  | .error _ s' => s'

/-- The program returns normally. -/
def Returns (x : EStateM ε σ α) (s : σ) : Prop := ∃ a s', x s = .ok a s'

theorem final_of_ok {x : EStateM ε σ α} {s s' : σ} {a : α} (h : x s = .ok a s') :
    final x s = s' := by simp [final, h]

theorem final_of_error {x : EStateM ε σ α} {s s' : σ} {e : ε} (h : x s = .error e s') :
    final x s = s' := by simp [final, h]

theorem not_returns_of_error {x : EStateM ε σ α} {s s' : σ} {e : ε} (h : x s = .error e s') :
    ¬ Returns x s := by
  rintro ⟨a, t, h'⟩; rw [h] at h'; cases h'

theorem eq_ok_final {x : EStateM ε σ Unit} {s : σ} (h : Returns x s) :
    x s = .ok () (final x s) := by
  obtain ⟨⟨⟩, s', h⟩ := h
  rw [h, final_of_ok h]

instance (x : EStateM ε σ α) (s : σ) : Decidable (Returns x s) :=
  match h : x s with
  | .ok a s' => .isTrue ⟨a, s', h⟩
  | .error _ _ => .isFalse (not_returns_of_error h)

/-! ## Sequencing -/

theorem bind_of_ok {x : EStateM ε σ α} {f : α → EStateM ε σ β} {s s' : σ} {a : α}
    (h : x s = .ok a s') : (x >>= f) s = f a s' := by
  show EStateM.bind x f s = _; simp [EStateM.bind, h]

theorem bind_of_error {x : EStateM ε σ α} {f : α → EStateM ε σ β} {s s' : σ} {e : ε}
    (h : x s = .error e s') : (x >>= f) s = .error e s' := by
  show EStateM.bind x f s = _; simp [EStateM.bind, h]

/-- A sequence that returns has parts that return. -/
theorem bind_eq_ok {x : EStateM ε σ α} {f : α → EStateM ε σ β} {s s' : σ} {b : β} :
    (x >>= f) s = .ok b s' ↔ ∃ a t, x s = .ok a t ∧ f a t = .ok b s' := by
  constructor
  · intro h
    cases hx : x s with
    | ok a t => exact ⟨a, t, rfl, by rwa [bind_of_ok hx] at h⟩
    | error e t => rw [bind_of_error hx] at h; cases h
  · rintro ⟨a, t, h1, h2⟩
    rw [bind_of_ok h1, h2]

/-- A property every part keeps is kept by the sequence. -/
theorem final_bind {P : σ → Prop} {x : EStateM ε σ α} {f : α → EStateM ε σ β} {s : σ}
    (hx : P (final x s)) (hf : ∀ a t, x s = .ok a t → P t → P (final (f a) t)) :
    P (final (x >>= f) s) := by
  cases h : x s with
  | ok a t =>
    rw [final_of_ok h] at hx
    have := hf a t h hx
    simpa only [final, bind_of_ok h] using this
  | error e t =>
    rw [final_of_error h] at hx
    simpa only [final, bind_of_error h] using hx

/-- The program keeps the property, also if it throws. -/
def Keeps (P : σ → Prop) (x : EStateM ε σ α) : Prop := ∀ s, P s → P (final x s)

section
variable {P : σ → Prop}

theorem keeps_pure (a : α) : Keeps P (pure a : EStateM ε σ α) := fun _ h => h

theorem keeps_throw (e : ε) : Keeps P (throw e : EStateM ε σ α) := fun _ h => h

theorem keeps_bind {x : EStateM ε σ α} {f : α → EStateM ε σ β} (hx : Keeps P x)
    (hf : ∀ a, Keeps P (f a)) : Keeps P (x >>= f) :=
  fun s h => final_bind (hx s h) fun a t _ ht => hf a t ht

theorem keeps_ite {p : Prop} [Decidable p] {x y : EStateM ε σ α} (hx : Keeps P x)
    (hy : Keeps P y) : Keeps P (if p then x else y) := by
  split_ifs
  · exact hx
  · exact hy

end

theorem except_bind_eq_ok {x : Except ε α} {f : α → Except ε β} {b : β} :
    (x >>= f) = .ok b ↔ ∃ a, x = .ok a ∧ f a = .ok b := by
  cases x with
  | ok a => exact ⟨fun h => ⟨a, rfl, h⟩, fun ⟨_, ha, h⟩ => Except.ok.inj ha ▸ h⟩
  | error e => exact ⟨fun h => (by cases h), fun ⟨_, h, _⟩ => (by cases h)⟩

/-- Checks made one after the other before `y`. -/
def guarded : List (Except ε Unit) → Except ε α → Except ε α
  | [], y => y
  | x :: xs, y => x >>= fun _ => guarded xs y

theorem guarded_eq_ok {xs : List (Except ε Unit)} {y : Except ε α} {a : α} :
    guarded xs y = .ok a ↔ (∀ x ∈ xs, x = .ok ()) ∧ y = .ok a := by
  induction xs with
  | nil => simp [guarded]
  | cons x xs ih =>
    rw [guarded, except_bind_eq_ok, List.forall_mem_cons]
    constructor
    · rintro ⟨⟨⟩, hx, h⟩
      obtain ⟨hxs, hy⟩ := ih.1 h
      exact ⟨⟨hx, hxs⟩, hy⟩
    · rintro ⟨⟨hx, hxs⟩, hy⟩
      exact ⟨(), hx, ih.2 ⟨hxs, hy⟩⟩

/-- A computation without state. -/
def lift : Except ε α → EStateM ε σ α
  | .ok a => pure a
  | .error e => throw e

theorem lift_ok_bind (a : α) (f : α → EStateM ε σ β) : lift (.ok a) >>= f = f a := rfl

theorem lift_error_bind (e : ε) (f : α → EStateM ε σ β) (s : σ) :
    (lift (.error e) >>= f) s = .error e s := rfl

theorem keeps_lift {P : σ → Prop} (x : Except ε α) : Keeps P (lift x : EStateM ε σ α) := by
  intro s h
  cases x <;> exact h

/-! ## Runs -/

variable (step : ι → EStateM ε σ Unit)

/-- The state after the operations `ops`. -/
def run (s : σ) (ops : List ι) : σ := ops.foldl (fun s i => final (step i) s) s

@[simp] theorem run_nil (s : σ) : run step s [] = s := rfl

@[simp] theorem run_cons (s : σ) (i : ι) (ops : List ι) :
    run step s (i :: ops) = run step (final (step i) s) ops := rfl

theorem run_append (s : σ) (ops ops' : List ι) :
    run step s (ops ++ ops') = run step (run step s ops) ops' := List.foldl_append

/-- No operation of the run throws. -/
def AllReturn : σ → List ι → Prop
  | _, [] => True
  | s, i :: ops => Returns (step i) s ∧ AllReturn (final (step i) s) ops

instance instDecidableAllReturn : (s : σ) → (ops : List ι) → Decidable (AllReturn step s ops)
  | _, [] => .isTrue trivial
  | s, i :: ops =>
    have := instDecidableAllReturn (final (step i) s) ops
    inferInstanceAs (Decidable (_ ∧ _))

/-- Every operation of the run stands in `P` to the state it starts from. -/
def Along (P : σ → ι → Prop) : σ → List ι → Prop
  | _, [] => True
  | s, i :: ops => P s i ∧ Along P (final (step i) s) ops

instance instDecidableAlong {P : σ → ι → Prop} [∀ s i, Decidable (P s i)] :
    (s : σ) → (ops : List ι) → Decidable (Along step P s ops)
  | _, [] => .isTrue trivial
  | s, i :: ops =>
    have := instDecidableAlong (P := P) (final (step i) s) ops
    inferInstanceAs (Decidable (_ ∧ _))

variable {step}

/-- **Rule for runs step by step.**  Conditions that agree in every state of an
    invariant agree along every run. -/
theorem along_congr {P Q : σ → ι → Prop} {Inv : σ → Prop} {s : σ} {ops : List ι} (h0 : Inv s)
    (hstep : ∀ i ∈ ops, ∀ t, Inv t → Inv (final (step i) t))
    (hPQ : ∀ i ∈ ops, ∀ t, Inv t → (P t i ↔ Q t i)) :
    Along step P s ops ↔ Along step Q s ops := by
  induction ops generalizing s with
  | nil => exact Iff.rfl
  | cons i ops ih =>
    have ih := ih (hstep i List.mem_cons_self s h0)
      (fun j hj => hstep j (List.mem_cons_of_mem _ hj))
      (fun j hj => hPQ j (List.mem_cons_of_mem _ hj))
    exact and_congr (hPQ i List.mem_cons_self s h0) ih

theorem along_const {P : ι → Prop} {s : σ} {ops : List ι} :
    Along step (fun _ i => P i) s ops ↔ ∀ i ∈ ops, P i := by
  induction ops generalizing s with
  | nil => exact iff_of_true trivial (by simp)
  | cons i ops ih =>
    rw [List.forall_mem_cons]
    exact and_congr_right fun _ => ih

/-- **Invariant rule.** -/
theorem run_inv {Inv : σ → Prop} {s : σ} {ops : List ι} (h0 : Inv s)
    (hstep : ∀ i ∈ ops, ∀ t, Inv t → Inv (final (step i) t)) : Inv (run step s ops) := by
  induction ops generalizing s with
  | nil => exact h0
  | cons i ops ih =>
    exact ih (hstep i List.mem_cons_self s h0) fun j hj => hstep j (List.mem_cons_of_mem _ hj)

/-! ## Loops -/

/-- A loop over a list returns iff every iteration does, in the state after
    all of them. -/
theorem forM_eq_ok {step : ι → EStateM ε σ Unit} {xs : List ι} {s s' : σ} :
    xs.forM step s = .ok () s' ↔ AllReturn step s xs ∧ s' = run step s xs := by
  induction xs generalizing s with
  | nil =>
    constructor
    · intro h; exact ⟨trivial, by injection h with _ h; exact h.symm⟩
    · rintro ⟨-, rfl⟩; rfl
  | cons x xs ih =>
    show (step x >>= fun _ => xs.forM step) s = _ ↔ _
    rw [bind_eq_ok]
    constructor
    · rintro ⟨⟨⟩, t, h1, h2⟩
      obtain ⟨h3, h4⟩ := ih.1 h2
      have ht := final_of_ok h1
      exact ⟨⟨⟨(), t, h1⟩, ht ▸ h3⟩, by rw [run_cons, ht]; exact h4⟩
    · rintro ⟨⟨⟨⟨⟩, t, h1⟩, h2⟩, h3⟩
      rw [run_cons, final_of_ok h1] at h3
      rw [final_of_ok h1] at h2
      exact ⟨(), t, h1, ih.2 ⟨h2, h3⟩⟩

/-- A loop whose iterations do nothing does nothing. -/
theorem forM_skip {step : ι → EStateM ε σ Unit} {xs : List ι} {s : σ}
    (h : ∀ x ∈ xs, step x s = .ok () s) : xs.forM step s = .ok () s := by
  induction xs with
  | nil => rfl
  | cons x xs ih =>
    exact (bind_of_ok (h x List.mem_cons_self)).trans
      (ih fun y hy => h y (List.mem_cons_of_mem _ hy))

/-- A loop keeps what every iteration keeps, also when it throws. -/
theorem forM_inv {step : ι → EStateM ε σ Unit} {P : σ → Prop} {xs : List ι}
    (hstep : ∀ x ∈ xs, ∀ t, P t → P (final (step x) t)) :
    ∀ {s : σ}, P s → P (final (xs.forM step) s) := by
  induction xs with
  | nil => exact fun h => h
  | cons x xs ih =>
    intro s h
    refine final_bind (hstep x List.mem_cons_self s h) ?_
    intro a t _ ht
    exact ih (fun y hy => hstep y (List.mem_cons_of_mem _ hy)) ht

/-- Two loops agree if their iterations do. -/
theorem forM_congr {step step' : ι → EStateM ε σ Unit} {xs : List ι}
    (h : ∀ x ∈ xs, step x = step' x) : xs.forM step = xs.forM step' := by
  induction xs with
  | nil => rfl
  | cons x xs ih =>
    show (step x >>= fun _ => xs.forM step) = (step' x >>= fun _ => xs.forM step')
    rw [h x List.mem_cons_self, ih fun y hy => h y (List.mem_cons_of_mem _ hy)]

theorem forM_map {κ : Type} {step : ι → EStateM ε σ Unit} {f : κ → ι} {xs : List κ} :
    (xs.map f).forM step = xs.forM fun x => step (f x) := by
  induction xs with
  | nil => rfl
  | cons x xs ih =>
    show (step (f x) >>= fun _ => (xs.map f).forM step) = _
    rw [ih]; rfl

/-- A loop over the indexes of a list is one over its elements. -/
theorem forM_range_length {xs : List ι} {step : ι → EStateM ε σ Unit} {f : ℕ → EStateM ε σ Unit}
    (h : ∀ j (hj : j < xs.length), f j = step xs[j]) :
    (List.range xs.length).forM f = xs.forM step := by
  let step' : Option ι → EStateM ε σ Unit := fun o => o.elim (pure ()) step
  have hstep : ∀ j ∈ List.range xs.length, f j = step' xs[j]? := by
    intro j hj
    have hj := List.mem_range.1 hj
    rw [h j hj, List.getElem?_eq_getElem hj]
    rfl
  have hxs : (List.range xs.length).map (fun j => xs[j]?) = xs.map some :=
    List.ext_getElem (by simp) fun j h1 h2 => by
      rw [List.getElem_map, List.getElem_map, List.getElem_range, List.getElem?_eq_getElem]
  rw [forM_congr hstep, ← forM_map (f := fun j => xs[j]?), hxs, forM_map]
  rfl

end Machine
