/-
  The program `readout-config` (src/config/main.cpp).

  What the build configures (cmake/readout_config.h.in) is an `Installation`,
  and so is the directory of the program, from which its relative paths start.
  The loop that expands a placeholder need not end, so it takes the number of
  its iterations.  The text of the usage is left out.
-/
import Mathlib.Logic.Function.Basic
import ReadoutMaster.Args

namespace ReadoutMaster

namespace Config

open Args

inductive ConfigShow where
  | LIBDIR | INCLUDEDIR | COMPDIR | LIBNAME | VERSION | BINDIR | LDFLAGS | CFLAGS
  deriving DecidableEq, Repr

/-- `libreadout::config`, as far as the build sets it. -/
structure Installation where
  libdir : Str
  includedir : Str
  compdir : Str
  libname : Str
  version : Str
  /-- `installation_path(relative).string()` -/
  path : Str → Str
  /-- the library has the name of a CMake target -/
  plain : '<' ∉ libname

/-! ## Versions -/

/-- The loop of `version_integer`.  The exception is that of `std::stoi`. -/
def versionLoop : ℕ → Int → Str → Except Str Int
  | 0, result, _ => .ok result
  | n + 1, result, version =>
    match takeInt version with
    | none => .error "stoi".toList
    | some (i, _) =>
      match version.dropWhile (· ≠ '.') with
      | [] => .ok (result * 100 + i)
      | _ :: version => versionLoop n (result * 100 + i) version

def versionInteger (version : Str) : Except Str Int := versionLoop 3 0 version

/-! ## Choices -/

def placeholderLibdir : Str := "<LIBDIR>".toList
def placeholderIncludedir : Str := "<INCLUDEDIR>".toList

def Installation.info (inst : Installation) : ConfigShow → Str
  | .LIBDIR => inst.libdir
  | .INCLUDEDIR => inst.includedir
  | .COMPDIR => inst.compdir
  | .LIBNAME => inst.libname
  | .VERSION => inst.version
  | .BINDIR => ".".toList
  | .LDFLAGS => "-Wl,-rpath,".toList ++ placeholderLibdir ++ " -L".toList ++ placeholderLibdir ++
      " -l".toList ++ inst.libname
  | .CFLAGS => "-I".toList ++ placeholderIncludedir

/-- `std::string::find` -/
def find (str : Str) : Str → Option ℕ
  | [] => if str = [] then some 0 else none
  | c :: cs => if str.isPrefixOf (c :: cs) then some 0 else (find str cs).map (· + 1)

/-- The loop that replaces a placeholder, for `n` iterations at most. -/
def expand (placeholder replacement : Str) : ℕ → Str → Option Str
  | 0, _ => none
  | n + 1, result =>
    match find placeholder result with
    | none => some result
    | some pos => expand placeholder replacement n
        (result.take pos ++ replacement ++ result.drop (pos + placeholder.length))

/-- `lookup_choice` -/
def lookupChoice (inst : Installation) (n : ℕ) : ConfigShow → Option Str
  | .LIBNAME => some (inst.info .LIBNAME)
  | .VERSION => some (inst.info .VERSION)
  | .LDFLAGS => expand placeholderLibdir (inst.path (inst.info .LIBDIR)) n (inst.info .LDFLAGS)
  | .CFLAGS =>
    expand placeholderIncludedir (inst.path (inst.info .INCLUDEDIR)) n (inst.info .CFLAGS)
  | choice => some (inst.path (inst.info choice))

/-! ## The command line -/

def choiceOf (value : Str) : Option ConfigShow :=
  let value := value.map Char.toLower
  if value = "libdir".toList then some .LIBDIR
  else if value = "includedir".toList then some .INCLUDEDIR
  else if value = "compdir".toList then some .COMPDIR
  else if value = "libname".toList then some .LIBNAME
  else if value = "version".toList then some .VERSION
  else if value = "bindir".toList then some .BINDIR
  else if value = "ldflags".toList then some .LDFLAGS
  else if value = "cflags".toList then some .CFLAGS
  else none

def invalidChoice (name : String) (inValue : Str) : Str :=
  "Invalid choice: ".toList ++ inValue ++ " for ".toList ++ name.toList

/-- `ConfgShowReader` -/
def confgShowReader (name : String) (inValue : Str) : Except Error ConfigShow :=
  match choiceOf inValue with
  | some choice => .ok choice
  | none => .error (.reader (invalidChoice name inValue))

inductive Flag where
  | help | version | intversion | choice
  deriving DecidableEq, Repr

def Flag.matcher : Flag → Matcher
  | .help => ⟨['h'], ["help".toList]⟩
  | .version => ⟨['v'], ["version".toList]⟩
  | .intversion => ⟨['i'], ["intversion".toList]⟩
  | .choice => ⟨['s'], ["show".toList]⟩

def Flag.nargs : Flag → Nargs
  | .help | .version | .intversion => .exactly 0
  | .choice => .exactly 1

/-- What the flags hold. -/
@[ext] structure Arguments where
  matched : Flag → Bool
  choice : ConfigShow

/-- `Reset()` -/
def Arguments.reset : Arguments where
  matched _ := false
  choice := .LIBDIR

def Arguments.mark (f : Flag) (a : Arguments) : Arguments :=
  { a with matched := Function.update a.matched f true }

def Arguments.parseValue (f : Flag) (values : List Str) (a : Arguments) : Except Error Arguments :=
  match f, values with
  | .help, _ => .error (.help "help".toList)
  | .choice, value :: _ => do
    let choice ← confgShowReader "CHOICE" value
    return { a with choice }
  | _, _ => .ok a

/-- There are no positionals, and nothing to validate. -/
def parser : ArgumentParser Flag Arguments where
  flags := [.help, .version, .intversion, .choice]
  matcher := Flag.matcher
  nargs := Flag.nargs
  mark := Arguments.mark
  parseValue := Arguments.parseValue
  ready _ := false
  parsePositional _ a := .ok a
  validate _ := .ok ()

/-- How the program ends. -/
inductive Ending where
  /-- the usage on `stdout`, and code 0 -/
  | help
  /-- the text and the usage on `stderr`, and code 1 -/
  | usage (text : Str)
  /-- an exception that `main` does not catch -/
  | terminate (text : Str)
  /-- a line on `stdout`, and code 0 -/
  | printed (line : Str)
  /-- the usage and the hint on `stdout`, and code 0 -/
  | hint
  /-- the loop has not ended -/
  | unfinished
  deriving DecidableEq

/-- What `main` does with the arguments it has read. -/
def answer (inst : Installation) (n : ℕ) (a : Arguments) : Ending :=
  if a.matched .version then .printed inst.version
  else if a.matched .intversion then
    match versionInteger inst.version with
    | .ok i => .printed (toString i).toList
    | .error text => .terminate text
  else if a.matched .choice ∧ a.choice ≠ .VERSION then
    match lookupChoice inst n a.choice with
    | some line => .printed line
    | none => .unfinished
  else .hint

/-- `main`, on the arguments after the program name. -/
def readoutConfig (inst : Installation) (n : ℕ) (args : List Str) : Ending :=
  match parser.parseCLI .reset args with
  | .error (.help _) => .help
  | .error (.parse text) => .usage text
  | .error (.validation text) | .error (.reader text) => .terminate text
  | .ok a => answer inst n a

end Config

end ReadoutMaster
