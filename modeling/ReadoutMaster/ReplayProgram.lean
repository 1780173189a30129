/-
  The program `readout-replay` (src/replay/main.cpp) from its command line on.

  `parser` is the parser that `main` builds, and `readoutReplay` the whole of
  `main`.  A `ValueFlag` and a `Positional` hold the default of their type
  until they are read, and whether a flag was matched is kept apart from its
  value.  The text of the usage is left out.
-/
import Mathlib.Logic.Function.Basic
import ReadoutMaster.Args
import ReadoutMaster.Replay

namespace ReadoutMaster

namespace Replay

open Args

/-- The flags of type `int`. -/
inductive Number where
  | count | first | every | port
  deriving DecidableEq, Repr

inductive Flag where
  | help | verbose | sequential | random
  | number (n : Number)
  | address
  deriving DecidableEq, Repr

def Number.name : Number → String
  | .count => "COUNT"
  | .first => "FIRST"
  | .every => "EVERY"
  | .port => "PORT"

def Flag.matcher : Flag → Matcher
  | .help => ⟨['h'], ["help".toList]⟩
  | .verbose => ⟨['v'], ["verbose".toList]⟩
  | .sequential => ⟨['s'], ["sequential".toList]⟩
  | .random => ⟨['r'], ["random".toList]⟩
  | .number .count => ⟨['n'], ["count".toList]⟩
  | .number .first => ⟨['f'], ["first".toList]⟩
  | .number .every => ⟨['e'], ["every".toList]⟩
  | .address => ⟨['a'], ["addr".toList]⟩
  | .number .port => ⟨['p'], ["port".toList]⟩

/-- `NumberOfArguments()` of a `Flag` and of a `ValueFlag`. -/
def Flag.nargs : Flag → Nargs
  | .help | .verbose | .sequential | .random => .exactly 0
  | .number _ | .address => .exactly 1

/-- What the flags and the positional `filename` hold. -/
@[ext] structure Arguments where
  matched : Flag → Bool
  number : Number → Int32
  address : Str
  filename : Str
  /-- `filename` is not read yet -/
  ready : Bool

/-- `Reset()` -/
def Arguments.reset : Arguments where
  matched _ := false
  number _ := 0
  address := []
  filename := []
  ready := true

def Arguments.mark (f : Flag) (a : Arguments) : Arguments :=
  { a with matched := Function.update a.matched f true }

def Arguments.parseValue (f : Flag) (values : List Str) (a : Arguments) : Except Error Arguments :=
  match f, values with
  | .help, _ => .error (.help "help".toList)
  | .number n, value :: _ => do
    let i ← valueReader n.name value
    return { a with number := Function.update a.number n i }
  | .address, value :: _ => .ok { a with address := value }
  -- the other flags read nothing, and a `ValueFlag` has got its value
  | _, _ => .ok a

def Arguments.parsePositional (value : Str) (a : Arguments) : Except Error Arguments :=
  .ok { a with filename := value, ready := false }

/-- `playback_type`, the children of the group. -/
def playbackType : List Flag := [.sequential, .random]

/-- The other groups do not care. -/
def Arguments.validate (a : Arguments) : Except Error Unit :=
  if playbackType.countP a.matched = 1 then .ok ()
  else .error (.validation "Group validation failed somewhere!".toList)

def parser : ArgumentParser Flag Arguments where
  flags := [.help, .verbose, .sequential, .random, .number .count, .number .first, .number .every,
    .address, .number .port]
  matcher := Flag.matcher
  nargs := Flag.nargs
  mark := Arguments.mark
  parseValue := Arguments.parseValue
  ready := Arguments.ready
  parsePositional := Arguments.parsePositional
  validate := Arguments.validate

namespace Arguments

variable (a : Arguments)

/-- The value of a flag that was matched. -/
def number? (n : Number) : Option Int32 := if a.matched (.number n) then some (a.number n) else none

def target : Str := if a.matched .address then a.address else "127.0.0.1".toList

def port : Int32 := (a.number? .port).getD 9000

def options : Options where
  sequential := a.matched .sequential
  random := a.matched .random
  count := a.number? .count
  first := a.number? .first
  every := a.number? .every
  filename := String.ofList a.filename

/-- What `main` prints with `--verbose`. -/
def announcement : Str :=
  let count := (a.number? .count).getD (-1)
  let events := if count ≠ 0 then (toString count.toInt).toList else "all".toList
  if a.matched .verbose then
    "Replaying ".toList ++ events ++ " events from ".toList ++ a.filename ++ " to ".toList ++
      a.target ++ ":".toList ++ (toString a.port.toInt).toList ++ "\n".toList
  else []

end Arguments

/-- How the program ends. -/
inductive Ending (R FS : Type) where
  /-- the usage on `stdout`, and code 0 -/
  | help
  /-- the text and the usage on `stderr`, and code 1 -/
  | usage (text : Str)
  /-- an exception that `main` does not catch, of the parser or of the replay;
      nothing is unwound -/
  | terminate (stdout : Str) (e : Exn) (world : Option (World R FS))
  /-- code 0 -/
  | replayed (stdout : Str) (world : Option (World R FS))

/-- How the program ends after a replay, and what it has printed before. -/
def Outcome.ending {R FS : Type} (stdout : Str) (o : Outcome R FS) : Ending R FS :=
  match o.result with
  | .ok () => .replayed stdout o.world
  | .error e => .terminate stdout e o.world

/-- `main`, on the arguments after the program name. -/
def readoutReplay {R FS : Type} [HighFive R FS] [CDouble R] [Host] (args : List Str)
    (clock : UInt64) (fs : FS) (socket : ℕ → SendResult) (draws : ℕ → Draw) : Ending R FS :=
  match parser.parseCLI .reset args with
  | .error (.help _) => .help
  | .error (.parse text) => .usage text
  | .error (.validation text) | .error (.reader text) =>
    .terminate [] (.runtimeError (String.ofList text)) none
  | .ok a => (main a.options clock fs socket draws).ending a.announcement

end Replay

end ReadoutMaster
