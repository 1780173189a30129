/-
  Threads that share a store.

  Each thread has a state of its own; a step of a thread is a program on that
  state and the store.  A schedule lists the operations of all threads in the
  order in which they happen, each with its thread, and `project` are those of
  one thread.

  * `Stable.run`: what every thread keeps by its own steps, and no other thread
    disturbs, holds of every thread after any interleaving.
-/
import ReadoutMaster.Lib.Machine
import Mathlib.Logic.Function.Basic

namespace Shared

open Machine

variable {ε ι κ σ γ : Type}

/-- The states of the threads, and the store. -/
structure Threads (ι σ γ : Type) where
  own : ι → σ
  store : γ

/-- The operations of one thread, in order. -/
def project [DecidableEq ι] (i : ι) : List (ι × κ) → List κ
  | [] => []
  | (j, k) :: sched => if j = i then k :: project i sched else project i sched

section
variable [DecidableEq ι]

theorem project_cons_self (i : ι) (k : κ) (sched : List (ι × κ)) :
    project i ((i, k) :: sched) = k :: project i sched := if_pos rfl

theorem project_cons_ne {i j : ι} (h : j ≠ i) (k : κ) (sched : List (ι × κ)) :
    project i ((j, k) :: sched) = project i sched := if_neg h

variable (step : ι → κ → EStateM ε (σ × γ) Unit)

/-- One operation of a thread, seen from outside. -/
def act (e : ι × κ) : EStateM ε (Threads ι σ γ) Unit := fun s =>
  match step e.1 e.2 (s.own e.1, s.store) with
  | .ok () t => .ok () ⟨Function.update s.own e.1 t.1, t.2⟩
  | .error err t => .error err ⟨Function.update s.own e.1 t.1, t.2⟩

variable {step} {i : ι} {k : κ} {s : Threads ι σ γ}

theorem act_eq_ok (h : Returns (act step (i, k)) s) :
    ∃ t, step i k (s.own i, s.store) = .ok () t ∧
      final (act step (i, k)) s = ⟨Function.update s.own i t.1, t.2⟩ := by
  obtain ⟨⟨⟩, s', h⟩ := h
  rw [final_of_ok h]
  simp only [act] at h
  cases hs : step i k (s.own i, s.store) with
  | ok u t =>
    rw [hs] at h
    injection h with _ h
    exact ⟨t, rfl, h.symm⟩
  | error e t => rw [hs] at h; cases h

/-- A property of each thread, of the operations it has done, its own state and
    the store, that its own steps keep and those of others leave alone, as long
    as the threads follow their programs. -/
structure Stable (step : ι → κ → EStateM ε (σ × γ) Unit) (program : ι → List κ)
    (Inv : ι → List κ → σ → γ → Prop) : Prop where
  own : ∀ {i ops k t g u}, ops ++ [k] <+: program i → Inv i ops t g →
    step i k (t, g) = .ok () u → Inv i (ops ++ [k]) u.1 u.2
  other : ∀ {i j ops ops' k t t' g u}, i ≠ j → ops' ++ [k] <+: program j → Inv i ops t g →
    Inv j ops' t' g → step j k (t', g) = .ok () u → Inv i ops t u.2

/-- **Interleaving.**  At any moment of any interleaving of the programs whose
    steps return so far, every thread has the property for the part of its
    program that it has done. -/
theorem Stable.run {program : ι → List κ} {Inv : ι → List κ → σ → γ → Prop}
    (hst : Stable step program Inv) :
    ∀ {sched : List (ι × κ)} {s : Threads ι σ γ} {done : ι → List κ},
      (∀ i, Inv i (done i) (s.own i) s.store) →
      (∀ i, done i ++ project i sched <+: program i) → AllReturn (act step) s sched →
      ∀ i, Inv i (done i ++ project i sched) ((run (act step) s sched).own i)
        (run (act step) s sched).store
  | [], s, done, h, _, _, i => by rw [project, List.append_nil]; exact h i
  | (j, k) :: sched, s, done, h, hprog, hall, i => by
    obtain ⟨t, hok, hfin⟩ := act_eq_ok hall.1
    have hcons : ∀ i, Function.update done j (done j ++ [k]) i ++ project i sched =
        done i ++ project i ((j, k) :: sched) := by
      intro i
      by_cases hi : i = j
      · subst hi
        rw [Function.update_self, project_cons_self, List.append_assoc, List.singleton_append]
      · rw [Function.update_of_ne hi, project_cons_ne (Ne.symm hi)]
    have hk : done j ++ [k] <+: program j := by
      have hj := hprog j
      rw [project_cons_self, List.append_cons] at hj
      exact (List.prefix_append _ _).trans hj
    have hnext : ∀ i, Inv i (Function.update done j (done j ++ [k]) i)
        ((final (act step (j, k)) s).own i) (final (act step (j, k)) s).store := by
      intro i
      rw [hfin]
      show Inv i _ (Function.update s.own j t.1 i) t.2
      by_cases hi : i = j
      · subst hi
        rw [Function.update_self, Function.update_self]
        exact hst.own hk (h i) hok
      · rw [Function.update_of_ne hi, Function.update_of_ne hi]
        exact hst.other hi hk (h i) (h j) hok
    have hrun := hst.run hnext (fun i => by rw [hcons i]; exact hprog i) hall.2 i
    rwa [hcons i] at hrun

end

end Shared
