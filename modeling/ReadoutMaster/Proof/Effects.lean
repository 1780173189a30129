/-
  What a call of the interface can do to the world.

  Every call is a sequence of `Effect`s, none of which moves the pulse, after
  at most one `World.advanced` by `update_time`.  A property that each effect
  keeps, and that moving the pulse keeps, holds along every run
  (`runCalls_keeps`).
-/
import ReadoutMaster.Proof.Packets
import Mathlib.Logic.Relation

namespace ReadoutMaster

open Readout Machine Relation

variable {R FS : Type} [CDouble R]

/-- What adding a readout does once it is under way: draws of the random
    engine, and records with the reference time of the object. -/
inductive Added : World R FS → World R FS → Prop where
  | drawn (w : World R FS) (n : ℕ) : Added w (w.drawn n)
  | recorded {w : World R FS} {t : ReadoutType} {ring fen : UInt8} {tof : R} {data : VoidPtr}
      {assign : Packed.Memory → ℕ → Packed.Memory} {r : Record} (hn : w.obj.network = true)
      (hf : w.trace.tof = some tof) (ht : readoutTypeFromDetectorType w.obj.type = .ok t)
      (hw : writes t ring fen (CDouble.toEfu tof + w.obj.time) data = some (assign, r)) :
      Added w (w.recorded assign r)

/-- An elementary effect of a call, the moves of the pulse apart. -/
inductive Effect : World R FS → World R FS → Prop where
  | configured (w : World R FS) (fs : FS) (network : Bool) (verbosity : Int)
      (writer : Option Writer) :
      Effect w { w with fs, obj := { w.obj with network, verbosity, writer } }
  | noted (w : World R FS) (fs : FS) (tof : R) (hn : w.obj.network = true) :
      Effect w (w.noted fs tof)
  | added {w w' : World R FS} (h : Added w w') : Effect w w'
  | flushed (w : World R FS) : Effect w w.flushed
  | fresh (w : World R FS) : Effect w w.fresh

/-- Effects one after another. -/
abbrev Effects : World R FS → World R FS → Prop := ReflTransGen Effect

theorem Effects.keeps (Inv : World R FS → Prop) (heff : ∀ {v v'}, Effect v v' → Inv v → Inv v')
    {w w' : World R FS} (h : Effects w w') (hw : Inv w) : Inv w' := by
  induction h with
  | refl => exact hw
  | tail _ he ih => exact heff he ih

theorem settings_added {w w' : World R FS} (h : ReflTransGen Added w w') :
    w'.obj.settings = w.obj.settings := by
  induction h with
  | refl => rfl
  | tail _ ha ih =>
    cases ha with
    | drawn => exact ih
    | recorded => exact (World.settings_recorded _ _ _).trans ih

theorem fs_added {w w' : World R FS} (h : ReflTransGen Added w w') : w'.fs = w.fs := by
  induction h with
  | refl => rfl
  | tail _ ha ih =>
    cases ha with
    | drawn => exact ih
    | recorded => exact (World.fs_recorded _ _ _).trans ih

/-- Without an implemented readout type nothing is recorded. -/
theorem drawn_of_added {w w' : World R FS}
    (h : ∀ t, readoutTypeFromDetectorType w.obj.type = .ok t → t = .MAGIC)
    (ha : ReflTransGen Added w w') : ∃ n, w' = w.drawn n := by
  induction ha with
  | refl => exact ⟨0, rfl⟩
  | tail _ hb ih =>
    obtain ⟨n, rfl⟩ := ih
    cases hb with
    | drawn m => exact ⟨m + n, World.drawn_drawn n m w⟩
    | recorded _ _ ht hw =>
      obtain rfl := h _ ht
      cases hw

theorem effects_of_added {w w' : World R FS} (h : ReflTransGen Added w w') : Effects w w' :=
  ReflTransGen.mono (fun _ _ => Effect.added) _ _ h

theorem effect_files (w : World R FS) (fs : FS) : Effect w { w with fs } :=
  .configured w fs w.obj.network w.obj.verbosity w.obj.writer

/-! ## Adding readouts -/

section
variable {ring fen : UInt8} {tof weight : R} {data : VoidPtr}

omit [CDouble R] in
/-- A single readout is recorded, or nothing happens. -/
theorem addReadoutAt_cases (ring fen : UInt8) (time : EfuTime) (data : VoidPtr) (w : World R FS) :
    (∃ e, addReadoutAt ring fen time data w = .error e w) ∨
      ∃ t assign r, readoutTypeFromDetectorType w.obj.type = .ok t ∧
        writes t ring fen time data = some (assign, r) ∧
        addReadoutAt ring fen time data w = .ok () (w.recorded assign r) := by
  cases ht : readoutTypeFromDetectorType w.obj.type with
  | error e =>
    refine Or.inl (addReadoutAt_error fun t h => ?_)
    rw [ht] at h; cases h
  | ok t =>
    cases hw : writes t ring fen time data with
    | some p => exact Or.inr ⟨t, p.1, p.2, rfl, hw, addReadoutAt_eq ht hw⟩
    | none =>
      refine Or.inl (addReadoutAt_error fun t' h => ?_)
      rw [ht] at h
      cases t with
      | MAGIC => exact (Except.ok.inj h).symm
      | _ => cases hw

theorem addCopies_added {time : EfuTime} {n i : ℕ} {w : World R FS}
    (hn : w.obj.network = true) (hf : w.trace.tof = some tof)
    (ht : CDouble.toEfu tof + w.obj.time = time) :
    ReflTransGen Added w (final (addCopies ring fen time weight data n i) w) := by
  induction n generalizing i w with
  | zero => exact .refl
  | succ n ih =>
    have hd : ReflTransGen Added w (w.drawn 1) := .single (.drawn w 1)
    simp only [final, addCopies, randomPoisson_bind]
    split_ifs
    · rcases addReadoutAt_cases ring fen time data (w.drawn 1) with
        ⟨e, he⟩ | ⟨t, assign, r, h1, h2, h3⟩
      · rw [bind_of_error he]; exact hd
      · rw [bind_of_ok h3]
        have hw : writes t ring fen (CDouble.toEfu tof + (w.drawn 1).obj.time) data =
            some (assign, r) := ht.symm ▸ h2
        have hr : Added (w.drawn 1) ((w.drawn 1).recorded assign r) :=
          .recorded hn hf h1 hw
        have hs := World.settings_recorded assign r (w.drawn 1)
        refine (hd.tail hr).trans (ih ?_ ?_ ?_)
        · rw [network_of_settings hs]; exact hn
        · rw [World.tof_recorded]; exact hf
        · rw [time_of_settings hs]; exact ht
    · exact hd

theorem addWeighted_added (ring fen : UInt8) (weight : R) (data : VoidPtr) {w : World R FS}
    (hn : w.obj.network = true)
    (hf : w.trace.tof = some tof) :
    ReflTransGen Added w
      (final (addWeighted ring fen (CDouble.toEfu tof + w.obj.time) weight data) w) := by
  rw [addWeighted]
  split_ifs
  · exact addCopies_added hn hf rfl
  · rcases addReadoutAt_cases ring fen (CDouble.toEfu tof + w.obj.time) data w with
      ⟨e, he⟩ | ⟨t, assign, r, h1, h2, h3⟩
    · rw [final_of_error he]
    · rw [final_of_ok h3]
      exact .single (.recorded hn hf h1 h2)

variable [HighFive R FS]

/-- With the network enabled a call that returns adds readouts once its event
    is saved. -/
theorem addReadout_added {w w' : World R FS} {fs : FS} (hn : w.obj.network = true)
    (hs : saved w.obj ring fen tof weight data w.fs = .ok () fs)
    (h : addReadout ring fen tof weight data w = .ok () w') :
    ReflTransGen Added (w.noted fs tof) w' := by
  rw [addReadout_enabled hn hs] at h
  have ha := addWeighted_added ring fen weight data (w := w.noted fs tof) hn rfl
  have hadd : addWeighted ring fen (CDouble.toEfu tof + (w.noted fs tof).obj.time) weight data
      (w.noted fs tof) = .ok () w' := h
  rwa [final_of_ok hadd] at ha

/-- A call of the weighted overload stops once its event is saved, or adds
    readouts. -/
theorem addReadout_cases (ring fen : UInt8) (tof weight : R) (data : VoidPtr) (w : World R FS) :
    ∃ fs, final (addReadout ring fen tof weight data) w = { w with fs } ∨
      w.obj.network = true ∧
        ReflTransGen Added (w.noted fs tof) (final (addReadout ring fen tof weight data) w) := by
  cases h : saved w.obj ring fen tof weight data w.fs with
  | error e fs => exact ⟨fs, Or.inl (final_of_error (addReadout_error h))⟩
  | ok _ fs =>
    refine ⟨fs, ?_⟩
    cases hn : w.obj.network with
    | false => exact Or.inl (final_of_ok (addReadout_disabled hn h))
    | true =>
      refine Or.inr ⟨rfl, ?_⟩
      simp only [final, addReadout_enabled hn h]
      exact addWeighted_added ring fen weight data (w := w.noted fs tof) hn rfl

theorem addReadout_leaves (ring fen : UInt8) (tof weight : R) (data : VoidPtr) (w : World R FS) :
    let w' := final (addReadout ring fen tof weight data) w
    w'.obj.network = w.obj.network ∧ w'.obj.writer = w.obj.writer ∧
      w'.obj.lastPulseTime = w.obj.lastPulseTime := by
  intro w'
  obtain ⟨fs, h | ⟨-, h⟩⟩ := addReadout_cases ring fen tof weight data w
  · have hw' : w' = { w with fs } := h
    rw [hw']
    exact ⟨rfl, rfl, rfl⟩
  · have hs := settings_added h
    exact ⟨(network_of_settings hs).trans rfl, (writer_of_settings hs).trans rfl,
      (pulses_of_settings hs).1.trans rfl⟩

theorem addReadout_effects (w : World R FS) :
    Effects w (final (addReadout ring fen tof weight data) w) := by
  obtain ⟨fs, h | ⟨hn, h⟩⟩ := addReadout_cases ring fen tof weight data w
  · rw [h]
    exact .single (effect_files w fs)
  · exact .head (.noted w fs tof hn) (effects_of_added h)

end

/-! ## Calls -/

section
variable [HighFive R FS] [Host]

theorem dumpTo_effects (w : World R FS) (filename datasetName : String) :
    Effects w (final (dumpTo filename datasetName) w) := by
  simp only [final, dumpTo, self_bind]
  cases readoutTypeFromDetectorType w.obj.type with
  | error e => exact .refl
  | ok t =>
    rw [lift_ok_bind]
    cases h : Writer.make filename w.obj.type t datasetName w.fs with
    | error e fs =>
      rw [bind_of_error (onFiles_error h)]
      exact .single (effect_files w fs)
    | ok writer fs =>
      rw [bind_of_ok (onFiles_ok h)]
      exact .single (.configured w fs w.obj.network w.obj.verbosity (some writer))

/-- A call that does not read the clock has only effects. -/
theorem step_unclocked {call : Call R} (hc : call.clock = none) (w : World R FS) :
    Effects w (final (step call) w) := by
  cases call with
  | add | setPulseTime => cases hc
  | send =>
    rw [final_of_ok (step_send w)]
    exact .single (.flushed w)
  | destroy =>
    rw [final_of_ok (step_destroy w)]
    exact .single (.flushed w)
  | newPacket => exact .single (.fresh w)
  | enableNetwork =>
    exact .single (.configured w w.fs true w.obj.verbosity w.obj.writer)
  | disableNetwork =>
    exact .single (.configured w w.fs false w.obj.verbosity w.obj.writer)
  | verbose v => exact .single (.configured w w.fs w.obj.network v w.obj.writer)
  | dumpTo filename =>
    show Effects w (final (if _ then _ else _) w)
    split_ifs
    · exact .refl
    · exact dumpTo_effects w filename "events"

/-- A call that reads the clock throws and leaves the world as it was, or moves
    the pulse before it has effects. -/
theorem step_clocked {call : Call R} {clock : UInt64} (hc : call.clock = some clock)
    (w : World R FS) :
    (∃ e, updateTime clock w = .error e w ∧ step call w = .error e w) ∨
      ∃ now prev, latestPulse (EfuTime.now clock) w.obj.time w.obj.period = .ok now ∧
        previousPulse now w.obj.time w.obj.period = .ok prev ∧
        updateTime clock w = .ok () (w.advanced now prev) ∧
        Effects (w.advanced now prev) (final (step call) w) := by
  rcases updateTime_cases w clock with ⟨e, he⟩ | ⟨now, prev, h1, h2, h3⟩
  · refine Or.inl ⟨e, he, ?_⟩
    cases call with
    | add c ring fen tof weight data =>
      obtain rfl : c = clock := Option.some.inj hc
      exact step_add_error he ring fen tof weight data
    | setPulseTime c =>
      obtain rfl : c = clock := Option.some.inj hc
      exact he
    | _ => cases hc
  · refine Or.inr ⟨now, prev, h1, h2, h3, ?_⟩
    cases call with
    | add c ring fen tof weight data =>
      obtain rfl : c = clock := Option.some.inj hc
      rw [final_add h3]
      exact addReadout_effects _
    | setPulseTime c =>
      obtain rfl : c = clock := Option.some.inj hc
      exact (final_of_ok h3).symm ▸ .refl
    | _ => cases hc

/-- **Rule for runs of the interface.**  What every effect and every move of
    the pulse keeps holds after every run. -/
theorem runCalls_keeps (Inv : World R FS → Prop) (heff : ∀ {v v'}, Effect v v' → Inv v → Inv v')
    (hadv : ∀ {v : World R FS} {clock now prev},
      latestPulse (EfuTime.now clock) v.obj.time v.obj.period = .ok now →
      previousPulse now v.obj.time v.obj.period = .ok prev → Inv v → Inv (v.advanced now prev))
    {w : World R FS} (h : Inv w) (calls : List (Call R)) : Inv (runCalls w calls) := by
  refine run_inv h ?_
  intro call _ v hv
  cases hc : call.clock with
  | none => exact (step_unclocked hc v).keeps Inv heff hv
  | some clock =>
    rcases step_clocked hc v with ⟨e, -, he⟩ | ⟨now, prev, h1, h2, -, h3⟩
    · rwa [final_of_error he]
    · exact h3.keeps Inv heff (hadv h1 h2 hv)

end

/-! ## The buffer along runs -/

theorem wire_effect {w w' : World R FS} (he : Effect w w') (h : Wire w) : Wire w' := by
  cases he with
  | configured | noted =>
    exact ⟨h.header, h.body, h.dataSize, h.room, h.blank, h.types, h.sent⟩
  | added ha =>
    cases ha with
    | drawn => exact ⟨h.header, h.body, h.dataSize, h.room, h.blank, h.types, h.sent⟩
    | recorded _ _ ht hw => exact wire_recorded h ht hw
  | flushed => exact wire_flushed h
  | fresh => exact wire_fresh h.sent

omit [CDouble R] in
theorem wire_make {type : Int} {period time : EfuTime} {fs : FS} {socket : ℕ → SendResult}
    {draws : ℕ → Draw} {w : World R FS}
    (h : Readout.make type period time fs socket draws = .ok w) :
    Wire w := by
  obtain ⟨d, prev, -, -, rfl⟩ := make_ok h
  exact wire_fresh fun s hs => by cases hs

/-- **The buffer invariant holds after every run.** -/
theorem wire_runCalls [HighFive R FS] [Host] {w : World R FS} (h : Wire w)
    (calls : List (Call R)) : Wire (runCalls w calls) :=
  runCalls_keeps _ wire_effect (fun _ _ h => wire_advanced h _ _) h calls

end ReadoutMaster
