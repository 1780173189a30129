/-
  The object with its terminal and its command line.

  The methods here are those of `Readout` with what they print, and with
  `command_shutdown` (lib/ReadoutClass.cpp): a `Console` is a world, the text
  printed so far, and the TCP side of the object.  A printing method does what
  it does on the world alone, and reads `verbosity` to decide what to print.

  An answer of `TCPConnection::send` is the bytes sent with code 0, or -1 with
  a positive `errno` (lib/cluon-complete.hpp).  The loop of `command_shutdown`
  may go on for ever, so it is followed for at most `limit` probes.
-/
import ReadoutMaster.Interface

namespace ReadoutMaster

open Readout Machine

/-- What `std::string(nullptr)` does: undefined by the standard, and libraries
    throw. -/
class StdString where
  fromNull : Except Exn String

/-- What `connection.send` returns: the bytes sent and the error code. -/
structure TcpResult where
  bytes : Int
  errorCode : Int
  contract : 0 ≤ bytes ∧ errorCode = 0 ∨ bytes = -1 ∧ 0 < errorCode

/-- A message handed to a TCP connection. -/
structure TcpMessage where
  addr : String
  port : UInt16
  data : String
  deriving DecidableEq, Repr

/-- The TCP side of the object. -/
structure Remote where
  ipaddr : String
  tcpPort : Int
  /-- what the next calls of `connection.send` return -/
  answers : ℕ → TcpResult
  messages : List TcpMessage := []

structure Console (R FS : Type) where
  world : World R FS
  remote : Remote
  stdout : List String := []

/-- Programs on the console that may throw. -/
abbrev Session (R FS : Type) := EStateM Exn (Console R FS)

namespace Console

variable {R FS : Type}

def onWorld {α : Type} (x : Prog R FS α) : Session R FS α := fun c =>
  match x c.world with
  | .ok a world => .ok a { c with world }
  | .error e world => .error e { c with world }

/-- `*this` -/
def self : Session R FS Readout := onWorld Readout.self

/-- `if (verbosity > level) std::cout << text` -/
def print (verbosity level : Int) (text : String) : Session R FS Unit := fun c =>
  .ok () (if verbosity > level then { c with stdout := c.stdout ++ [text] } else c)

/-! ## Packets -/

def send : Session R FS Int := do
  let o ← self
  if o.network = false then
    print o.verbosity 1 "No packet sent due to disabled network\n"
    return 0
  let result ← onWorld (transmit (o.buffer.load 0 o.dataSize))
  if result.errorCode < 0 then
    print o.verbosity (-1)
      ("Sending UDP data failed: returns " ++ toString result.errorCode ++ "\n")
  onWorld newPacket
  return result.errorCode

def checkSizeAndSend : Session R FS Unit := do
  let o ← self
  if o.dataSize ≥ MaxDataSize then
    let _ ← send
    onWorld newPacket

/-! ## Records -/

/-- The start of the line printed for a record. -/
def addedHead (ring fen : UInt8) (t : EfuTime) : String :=
  "Add to the packet Ring=" ++ toString ring ++ " FEN=" ++ toString fen ++
    " TimeHigh=" ++ toString t.high ++ " TimeLow=" ++ toString t.low

def addReadoutCAEN (ring fen : UInt8) (t : EfuTime) (data : CAENReadout) : Session R FS Unit := do
  checkSizeAndSend
  let o ← self
  print o.verbosity 2 (addedHead ring fen t ++ " Tube=" ++ toString data.channel ++
    " AmplA=" ++ toString data.a ++ " AmplB=" ++ toString data.b ++ "\n")
  onWorld (writeRecord (assignCaen ring fen t data) 24 (caenOf ring fen t data))

/-- Prints before it makes room. -/
def addReadoutTTLMonitor (ring fen : UInt8) (t : EfuTime) (data : TTLMonitorReadout) :
    Session R FS Unit := do
  let o ← self
  print o.verbosity 2 (addedHead ring fen t ++ " Pos=" ++ toString data.pos ++
    " Channel=" ++ toString data.channel ++ " ADC=" ++ toString data.adc ++ "\n")
  checkSizeAndSend
  onWorld (writeRecord (assignTTLMonitor ring fen t data) 16 (ttlMonitorOf ring fen t data))

def addReadoutDREAM (ring fen : UInt8) (t : EfuTime) (data : DREAMReadout) :
    Session R FS Unit := do
  checkSizeAndSend
  onWorld (writeRecord (assignDream ring fen t data) 16 (dreamOf ring fen t data))

def addReadoutVMM3 (ring fen : UInt8) (t : EfuTime) (data : VMM3Readout) : Session R FS Unit := do
  checkSizeAndSend
  onWorld (writeRecord (assignVMM3 ring fen t data) 20 (vmm3Of ring fen t data))

/-- `addReadout(Ring, FEN, t, const void *)`. -/
def addReadoutAt (ring fen : UInt8) (t : EfuTime) (data : VoidPtr) : Session R FS Unit := do
  let o ← self
  match readoutTypeFromDetectorType o.type with
  | .error e => throw e
  | .ok .CAEN => addReadoutCAEN ring fen t data.toCAEN
  | .ok .TTLMonitor => addReadoutTTLMonitor ring fen t data.toTTLMonitor
  | .ok .DREAM => addReadoutDREAM ring fen t data.toDREAM
  | .ok .VMM3 => addReadoutVMM3 ring fen t data.toVMM3
  | .ok .MAGIC => throw (.runtimeError "This readout data type not implemented yet!")

def addCopies (ring fen : UInt8) (t : EfuTime) (weight : R) (data : VoidPtr) :
    ℕ → ℕ → Session R FS Unit
  | 0, _ => pure ()
  | n + 1, i => do
    let bound ← onWorld (randomPoisson weight)
    if i < bound.val then
      addReadoutAt ring fen t data
      addCopies ring fen t weight data n (i + 1)

section
variable [CDouble R]

def addWeighted (ring fen : UInt8) (t : EfuTime) (weight : R) (data : VoidPtr) :
    Session R FS Unit :=
  if CDouble.truthy weight then addCopies ring fen t weight data 2147483648 0
  else addReadoutAt ring fen t data

variable [HighFive R FS]

/-- `addReadout(Ring, FEN, tof, weight, const void *)`. -/
def addReadout (ring fen : UInt8) (tof weight : R) (data : VoidPtr) : Session R FS Unit := do
  let o ← self
  onWorld (onFiles (saved o ring fen tof weight data))
  if o.network = false then
    print o.verbosity 1 "No readout added to buffer due to disabled network\n"
    return ()
  let t := CDouble.toEfu tof + o.time
  onWorld (update fun o => { o with lasthi := t.high, lastlo := t.low })
  onWorld (noteCall tof)
  addWeighted ring fen t weight data

end

/-- `update_time()`. -/
def updateTime (clock : UInt64) : Session R FS Unit := do
  let o ← self
  let now ← lift (latestPulse (EfuTime.now clock) o.time o.period)
  let elapsed ← lift (now.sub o.time)
  if elapsed.gt (o.period * (5 : UInt32)) then
    let prev ← lift (now.sub o.period)
    onWorld (update fun o => { o with time := prev })
  let _ ← send
  let o ← self
  onWorld (setPulseTime now.high now.low o.time.high o.time.low)
  onWorld newPacket
  onWorld (update fun o => { o with time := now })

/-! ## Shutdown -/

/-- `connection.send(message)`, on a new connection. -/
def sendTcp (addr : String) (port : UInt16) (data : String) : Session R FS TcpResult := fun c =>
  .ok (c.remote.answers 0) { c with remote := { c.remote with
    answers := fun n => c.remote.answers (n + 1)
    messages := c.remote.messages ++ [⟨addr, port, data⟩] } }

def checkAndSendTcp (addr : String) (port : UInt16) (message : Except Exn String)
    (verbosity : Int) : Session R FS Int := do
  let message ← lift message
  let len : Int := message.utf8ByteSize
  let result ← sendTcp addr port message
  if result.bytes ≠ len ∧ verbosity > -1 then
    print verbosity (-1) ("Failed to send full message, sent " ++ toString result.bytes ++
      " of " ++ toString len ++ " bytes\n")
    return -1
  return result.errorCode

/-- `while (ok-- > 0) ok = probe`, for at most `limit` probes; `i` of them were
    made before. -/
def probing (probe : ℕ → Session R FS Int) : (limit i : ℕ) → Int → Session R FS (Option Int)
  | 0, _, ok => return if ok > 0 then none else some (ok - 1)
  | limit + 1, i, ok => do
    if ok > 0 then
      let ok ← probe i
      probing probe limit (i + 1) ok
    else return some (ok - 1)

/-- What `command_shutdown` does with the result of sending EXIT. -/
def afterExit (probe : ℕ → Session R FS Int) (limit : ℕ) (ok : Int) :
    Session R FS (Option Int) := do
  let c ← get
  let verbosity := c.world.obj.verbosity
  if ok < 0 then
    print verbosity (-1)
      ("Could not connect to " ++ c.remote.ipaddr ++ ":" ++ toString c.remote.tcpPort ++ "\n")
    return some (-3)
  if ok = 0 then
    print verbosity (-1) "Could not read response from EXIT command\n"
    return some (-2)
  match ← probing probe limit 0 (ok * 100) with
  | none => return none
  | some ok =>
    if ok > 0 then
      print verbosity 0 "The server is still alive after a successful EXIT command\n"
    return some 0

/-- `command_shutdown()`, where `probe` is what the loop calls.  There is no
    value if the loop is still probing. -/
def shutdownWith (probe : ℕ → Session R FS Int) (limit : ℕ) : Session R FS (Option Int) := do
  let c ← get
  let o := c.world.obj
  if o.network = false then
    print o.verbosity 1 "No shutdown command sent due to disabled network\n"
    return some 0
  let ok ← checkAndSendTcp c.remote.ipaddr (UInt16.ofInt c.remote.tcpPort) (.ok "EXIT\n")
    o.verbosity
  afterExit probe limit ok

section
variable [StdString]

/-- `check_and_send_tcp(ipaddr, tcp_port, nullptr, verbosity)` -/
def probeNull : Session R FS Int := do
  let c ← get
  checkAndSendTcp c.remote.ipaddr (UInt16.ofInt c.remote.tcpPort) StdString.fromNull
    c.world.obj.verbosity

def commandShutdown (limit : ℕ) : Session R FS (Option Int) :=
  shutdownWith (fun _ => probeNull) limit

/-! ## The C interface -/

variable [HighFive R FS] [CDouble R] [Host]

/-- The calls of the interface, with what they print. -/
def step : Call R → Session R FS Unit
  | .add clock ring fen tof weight data => do
    updateTime clock
    addReadout ring fen tof weight data
  | .setPulseTime clock => updateTime clock
  | .send => do
    let _ ← send
  | .newPacket => onWorld readoutNewPacket
  | .enableNetwork => onWorld readoutEnableNetwork
  | .disableNetwork => onWorld readoutDisableNetwork
  | .verbose v => onWorld (readoutVerbose v)
  | .dumpTo filename => onWorld (readoutDumpTo filename)
  | .destroy => do
    let _ ← send

end

end Console

/-- A call of the interface, `readout_shutdown` among them. -/
inductive Command (R : Type) where
  | call (c : Call R)
  | shutdown

/-- How a call ends, or that it has not ended yet. -/
inductive Reply where
  | done
  | returned (value : Int)
  | threw (e : Exn)
  | running
  deriving DecidableEq

/-- One of the verbosity setters. -/
def Command.sets {R : Type} : Command R → Bool
  | .call (.verbose _) => true
  | _ => false

namespace Console

variable {R FS : Type} [StdString] [HighFive R FS] [CDouble R] [Host]

/-- A command performed. -/
def perform (limit : ℕ) : Command R → Console R FS → Reply × Console R FS
  | .call call, c =>
    match step call c with
    | .ok _ c => (.done, c)
    | .error e c => (.threw e, c)
  | .shutdown, c =>
    match commandShutdown limit c with
    | .ok (some value) c => (.returned value, c)
    | .ok none c => (.running, c)
    | .error e c => (.threw e, c)

/-- The replies of a run, those of the verbosity setters left out, and the
    console it leaves.  A run goes on after a call that throws, and not after
    one that is still running. -/
def session (limit : ℕ) : Console R FS → List (Command R) → List Reply × Console R FS
  | c, [] => ([], c)
  | c, command :: commands =>
    let answer := perform limit command c
    if answer.1 = .running then ([.running], answer.2)
    else
      let rest := session limit answer.2 commands
      (if command.sets then rest.1 else answer.1 :: rest.1, rest.2)

end Console

end ReadoutMaster
