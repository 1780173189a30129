/-
  Detector and readout types (lib/enums.h, lib/enums.cpp).
-/
import ReadoutMaster.EfuTime

namespace ReadoutMaster

inductive DetectorType where
  | Reserved | TTLMonitor | LOKI | BIFROST | MIRACLES | CSPEC | NMX | FREIA | TREX | DREAM | MAGIC
  deriving DecidableEq, Repr

inductive ReadoutType where
  | TTLMonitor | CAEN | VMM3 | DREAM | MAGIC
  deriving DecidableEq, Repr

/-- The value of the enumerator. -/
def DetectorType.code : DetectorType → UInt32
  | .Reserved => 0x00
  | .TTLMonitor => 0x10
  | .LOKI => 0x30
  | .BIFROST => 0x34
  | .MIRACLES => 0x38
  | .CSPEC => 0x40
  | .NMX => 0x44
  | .FREIA => 0x48
  | .TREX => 0x50
  | .DREAM => 0x60
  | .MAGIC => 0x64

def detectorTypeFromInt : Int → Except Exn DetectorType
  | 0x00 => .ok .Reserved
  | 0x10 => .ok .TTLMonitor
  | 0x30 => .ok .LOKI
  | 0x34 => .ok .BIFROST
  | 0x38 => .ok .MIRACLES
  | 0x40 => .ok .CSPEC
  | 0x44 => .ok .NMX
  | 0x48 => .ok .FREIA
  | 0x50 => .ok .TREX
  | 0x60 => .ok .DREAM
  | 0x64 => .ok .MAGIC
  | _ => .error (.runtimeError "Undefined DetectorType")

def readoutTypeFromDetectorType : DetectorType → Except Exn ReadoutType
  | .TTLMonitor => .ok .TTLMonitor
  | .LOKI | .BIFROST | .MIRACLES | .CSPEC => .ok .CAEN
  | .NMX | .FREIA | .TREX => .ok .VMM3
  | .DREAM => .ok .DREAM
  | .MAGIC => .ok .MAGIC
  | .Reserved => .error (.runtimeError "No ReadoutType for provided DetectorType")

def detectorTypeName : DetectorType → String
  | .TTLMonitor => "DetectorType::TTLMonitor"
  | .LOKI => "DetectorType::LOKI"
  | .BIFROST => "DetectorType::BIFROST"
  | .MIRACLES => "DetectorType::MIRACLES"
  | .CSPEC => "DetectorType::CSPEC"
  | .NMX => "DetectorType::NMX"
  | .FREIA => "DetectorType::FREIA"
  | .TREX => "DetectorType::TREX"
  | .DREAM => "DetectorType::DREAM"
  | .MAGIC => "DetectorType::MAGIC"
  | .Reserved => "DetectorType::Reserved"

def readoutTypeName : ReadoutType → String
  | .TTLMonitor => "ReadoutType::TTLMonitor"
  | .CAEN => "ReadoutType::CAEN"
  | .VMM3 => "ReadoutType::VMM3"
  | .DREAM => "ReadoutType::DREAM"
  | .MAGIC => "ReadoutType::MAGIC"

def detectorTypeFromName (name : String) : Except Exn DetectorType :=
  if name = "DetectorType::TTLMonitor" then .ok .TTLMonitor
  else if name = "DetectorType::LOKI" then .ok .LOKI
  else if name = "DetectorType::BIFROST" then .ok .BIFROST
  else if name = "DetectorType::MIRACLES" then .ok .MIRACLES
  else if name = "DetectorType::CSPEC" then .ok .CSPEC
  else if name = "DetectorType::NMX" then .ok .NMX
  else if name = "DetectorType::FREIA" then .ok .FREIA
  else if name = "DetectorType::TREX" then .ok .TREX
  else if name = "DetectorType::DREAM" then .ok .DREAM
  else if name = "DetectorType::MAGIC" then .ok .MAGIC
  else if name = "DetectorType::Reserved" then .ok .Reserved
  else .error (.runtimeError ("Provided name=" ++ name ++ " is not a known DetectorType"))

def readoutTypeFromName (name : String) : Except Exn ReadoutType :=
  if name = "ReadoutType::TTLMonitor" then .ok .TTLMonitor
  else if name = "ReadoutType::CAEN" then .ok .CAEN
  else if name = "ReadoutType::VMM3" then .ok .VMM3
  else if name = "ReadoutType::DREAM" then .ok .DREAM
  else if name = "ReadoutType::MAGIC" then .ok .MAGIC
  else .error (.runtimeError ("Provided name=" ++ name ++ " is not a known ReadoutType"))

/-! ## Round trips -/

theorem detectorTypeFromInt_code (d : DetectorType) :
    detectorTypeFromInt d.code.toNat = .ok d := by
  cases d <;> rfl

theorem detectorTypeFromInt_ok {type : Int} {d : DetectorType}
    (h : detectorTypeFromInt type = .ok d) : type = d.code.toNat := by
  unfold detectorTypeFromInt at h
  split at h <;> first
    | (obtain rfl := Except.ok.inj h; rfl)
    | cases h

theorem detectorTypeFromName_name (d : DetectorType) :
    detectorTypeFromName (detectorTypeName d) = .ok d := by
  cases d <;> simp [detectorTypeFromName, detectorTypeName]

/-- One comparison of a chain that looks a name up. -/
theorem eq_or_of_ite_ok {α : Type} {name s : String} {x d : α} {y : Except Exn α}
    (h : (if name = s then .ok x else y) = .ok d) : name = s ∧ x = d ∨ y = .ok d := by
  split_ifs at h with hn
  · exact Or.inl ⟨hn, Except.ok.inj h⟩
  · exact Or.inr h

theorem detectorTypeFromName_ok {name : String} {d : DetectorType}
    (h : detectorTypeFromName name = .ok d) : name = detectorTypeName d := by
  unfold detectorTypeFromName at h
  iterate 11
    rcases eq_or_of_ite_ok h with ⟨rfl, rfl⟩ | h
    · rfl
  cases h

theorem readoutTypeFromName_name (r : ReadoutType) :
    readoutTypeFromName (readoutTypeName r) = .ok r := by
  cases r <;> simp [readoutTypeFromName, readoutTypeName]

theorem readoutTypeFromName_ok {name : String} {r : ReadoutType}
    (h : readoutTypeFromName name = .ok r) : name = readoutTypeName r := by
  unfold readoutTypeFromName at h
  iterate 5
    rcases eq_or_of_ite_ok h with ⟨rfl, rfl⟩ | h
    · rfl
  cases h

end ReadoutMaster
