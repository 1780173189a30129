/-
  The McStas components `ReadoutCAEN` and `ReadoutTTLMonitor`
  (share/Readout/ReadoutCAEN.comp, share/Readout/ReadoutTTLMonitor.comp).

  A component has its setting parameters, the variables its INITIALIZE block
  declares, and a TRACE block that is executed for every particle.  The block
  calls `readout_add` on some object, whose state is `σ`; next to it stands the
  stream of the values that `rand01` will return.  The parameters `noisy` and
  `noise_level` are read by neither block; only the first is kept here.

  A string parameter that is `NULL` is the empty string, as both are absent.
-/
import ReadoutMaster.Readout

namespace ReadoutMaster

open Machine

/-- What the blocks do with `double`: multiply, divide, convert from and to
    `int`, and read the first half of its bytes as an `int`. -/
class CArith (R : Type) where
  mul : R → R → R
  div : R → R → R
  ofInt : Int32 → R
  toInt : R → Int32
  bits : R → Int32

/-- A particle, as `particle_getvar` reads it. -/
abbrev Particle (R : Type) := String → R

/-- `particle_getvar_int`: an `int` variable, read through a `double`. -/
def Particle.getInt {R : Type} [CArith R] (p : Particle R) (name : String) : Int32 :=
  CArith.bits (p name)

/-- The message `exit` is called with. -/
structure Exit where
  message : String
  deriving DecidableEq, Repr

/-- `readout_caen_error` and `readout_ttlmonitor_error`, which print the same. -/
def readoutError (named var : String) : Exit :=
  ⟨"ReadoutCAEN: " ++ named ++ ": Particle variable " ++ var ++ " inaccessible, exiting.\n"⟩

/-- A variable that `particle_getvar` must find. -/
def require (accessible : String → Bool) (named var : String) : Except Exit Unit :=
  if accessible var then .ok () else .error (readoutError named var)

/-- A variable that must be found if it is given. -/
def requirePresent (accessible : String → Bool) (named var : String) : Except Exit Unit :=
  if var ≠ "" then require accessible named var else .ok ()

/-- `p_or_pp`, and the check of `event_mode`.  The second test exits if the
    mode is "pp". -/
def eventModeFlag (named eventMode : String) : Except Exit Bool :=
  let pOrPp := eventMode ≠ "p"
  if pOrPp ∧ eventMode = "pp" then .error (readoutError named "Undefined event mode")
  else .ok pOrPp

section
variable {R σ : Type}

/-- `rand01()` -/
def rand01 : EStateM Exn (σ × (ℕ → R)) R := fun (s, draws) =>
  .ok (draws 0) (s, fun n => draws (n + 1))

/-- Call a function of the object. -/
def onObject (x : EStateM Exn σ Unit) : EStateM Exn (σ × (ℕ → R)) Unit := fun (s, draws) =>
  match x s with
  | .ok () s => .ok () (s, draws)
  | .error e s => .error e (s, draws)

/-- `(int)(rand01() * k)` -/
def randInt [CArith R] (k : Int32) : EStateM Exn (σ × (ℕ → R)) Int32 := do
  return CArith.toInt (CArith.mul (← rand01) (CArith.ofInt k))

/-- The values a block passes on, before they are converted. -/
structure Values (R : Type) where
  ring : Int32
  fen : Int32
  tof : R
  data : VoidPtr

/-- The part the two TRACE blocks share: read the values from the particle, or
    make them up if its weight is zero, and pass them on. -/
def traceBlock [CDouble R] (pp : R) (read : Values R)
    (noise : EStateM Exn (σ × (ℕ → R)) (Values R))
    (readoutAdd : AddReadout R (EStateM Exn σ Unit)) : EStateM Exn (σ × (ℕ → R)) Unit := do
  let v ← if CDouble.truthy pp then pure read else noise
  onObject (readoutAdd v.ring.toUInt32.toUInt8 v.fen.toUInt32.toUInt8 v.tof pp v.data)

end

/-! ## ReadoutCAEN -/

structure ReadoutCAEN (R : Type) where
  named : String
  ring : String := ""
  fen : String := ""
  tube : String := ""
  aName : String := ""
  bName : String := ""
  cName : String := ""
  dName : String := ""
  tof : String := "t"
  fenValue : Int32 := 0
  aValue : Int32 := 0
  bValue : Int32 := 0
  cValue : Int32 := 0
  dValue : Int32 := 0
  pulseRate : R
  noisy : Int32 := 0
  eventMode : String := "p"

namespace ReadoutCAEN

/-- DECLARE -/
structure Declared where
  pOrPp : Bool
  fenPresent : Bool
  aPresent : Bool
  bPresent : Bool
  cPresent : Bool
  dPresent : Bool

variable {R σ : Type} (c : ReadoutCAEN R)

/-- INITIALIZE, once the `Readout` is set up. -/
def initialise (accessible : String → Bool) : Except Exit Declared := do
  require accessible c.named c.ring
  requirePresent accessible c.named c.fen
  require accessible c.named c.tube
  requirePresent accessible c.named c.aName
  requirePresent accessible c.named c.bName
  requirePresent accessible c.named c.cName
  requirePresent accessible c.named c.dName
  require accessible c.named c.tof
  let pOrPp ← eventModeFlag c.named c.eventMode
  return ⟨pOrPp, c.fen ≠ "", c.aName ≠ "", c.bName ≠ "", c.cName ≠ "", c.dName ≠ ""⟩

variable [CArith R] (d : Declared)

/-- `pp` in TRACE. -/
def weight (p : Particle R) : R :=
  let pp := p "p"
  if d.pOrPp then CArith.mul pp pp else pp

/-- `readout_data`, as a pointer. -/
def pack (tube a b c d : Int32) : VoidPtr :=
  VoidPtr.ofCAEN ⟨tube.toUInt32.toUInt8, a.toUInt32.toUInt16, b.toUInt32.toUInt16,
    c.toUInt32.toUInt16, d.toUInt32.toUInt16⟩

/-- The values of a particle. -/
def read (p : Particle R) : Values R where
  ring := p.getInt c.ring
  fen := if d.fenPresent then p.getInt c.fen else c.fenValue
  tof := p c.tof
  data := pack (p.getInt c.tube) (if d.aPresent then p.getInt c.aName else c.aValue)
    (if d.bPresent then p.getInt c.bName else c.bValue)
    (if d.cPresent then p.getInt c.cName else c.cValue)
    (if d.dPresent then p.getInt c.dName else c.dValue)

/-- `present ? 100 + (int)(rand01() * 1024) : value` -/
def randAmplitude (present : Bool) (value : Int32) : EStateM Exn (σ × (ℕ → R)) Int32 :=
  if present then do return 100 + (← randInt 1024) else pure value

/-- Values made up. -/
def noise : EStateM Exn (σ × (ℕ → R)) (Values R) := do
  let ring ← randInt 3
  let tube ← randInt 15
  let a ← randAmplitude d.aPresent c.aValue
  let b ← randAmplitude d.bPresent c.bValue
  let c' ← randAmplitude d.cPresent c.cValue
  let d' ← randAmplitude d.dPresent c.dValue
  let tof := CArith.div (← rand01) c.pulseRate
  return ⟨ring, c.fenValue, tof, pack tube a b c' d'⟩

/-- TRACE -/
def trace [CDouble R] (readoutAdd : AddReadout R (EStateM Exn σ Unit)) (p : Particle R) :
    EStateM Exn (σ × (ℕ → R)) Unit :=
  traceBlock (weight d p) (c.read d p) (c.noise d) readoutAdd

end ReadoutCAEN

/-! ## ReadoutTTLMonitor -/

structure ReadoutTTLMonitor (R : Type) where
  named : String
  ring : String := ""
  fen : String := ""
  position : String := ""
  identity : String := ""
  value : String := ""
  tof : String := "t"
  ringValue : Int32 := 0
  fenValue : Int32 := 0
  positionValue : Int32 := 0
  identityValue : Int32 := 0
  pulseRate : R
  noisy : Int32 := 0
  eventMode : String := "p"
  efficiency : R

namespace ReadoutTTLMonitor

/-- DECLARE -/
structure Declared where
  pOrPp : Bool
  ringPresent : Bool
  fenPresent : Bool
  positionPresent : Bool
  identityPresent : Bool

variable {R σ : Type} (c : ReadoutTTLMonitor R)

/-- INITIALIZE, once the `Readout` is set up. -/
def initialise (accessible : String → Bool) : Except Exit Declared := do
  requirePresent accessible c.named c.ring
  requirePresent accessible c.named c.fen
  requirePresent accessible c.named c.position
  requirePresent accessible c.named c.identity
  require accessible c.named c.value
  require accessible c.named c.tof
  let pOrPp ← eventModeFlag c.named c.eventMode
  return ⟨pOrPp, c.ring ≠ "", c.fen ≠ "", c.position ≠ "", c.identity ≠ ""⟩

variable [CArith R] (d : Declared)

/-- `pp` in TRACE. -/
def weight (p : Particle R) : R :=
  let pp := p "p"
  let pp := if d.pOrPp then CArith.mul pp pp else pp
  CArith.mul pp c.efficiency

/-- `readout_data`, as a pointer. -/
def pack (position identity value : Int32) : VoidPtr :=
  VoidPtr.ofTTLMonitor
    ⟨identity.toUInt32.toUInt8, position.toUInt32.toUInt8, value.toUInt32.toUInt16⟩

/-- The values of a particle. -/
def read (p : Particle R) : Values R where
  ring := if d.ringPresent then p.getInt c.ring else c.ringValue
  fen := if d.fenPresent then p.getInt c.fen else c.fenValue
  tof := p c.tof
  data := pack (if d.positionPresent then p.getInt c.position else c.positionValue)
    (if d.identityPresent then p.getInt c.identity else c.identityValue) (p.getInt c.value)

/-- Values made up. -/
def noise : EStateM Exn (σ × (ℕ → R)) (Values R) := do
  let ring := CArith.toInt (← rand01)
  let value ← randInt 4096
  let tof := CArith.div (← rand01) c.pulseRate
  return ⟨ring, 0, tof, pack c.positionValue c.identityValue value⟩

/-- TRACE -/
def trace [CDouble R] (readoutAdd : AddReadout R (EStateM Exn σ Unit)) (p : Particle R) :
    EStateM Exn (σ × (ℕ → R)) Unit :=
  traceBlock (c.weight d p) (c.read d p) c.noise readoutAdd

end ReadoutTTLMonitor

end ReadoutMaster
