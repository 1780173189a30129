/-
  The socket that a `Readout` sends to (cluon::UDPSender,
  lib/cluon-complete.hpp).

  The constructor asks the `System` for the address of a name, a socket and the
  broadcast addresses of the interfaces.  It checks the address that the name
  resolves to, and hands the name itself to `::inet_addr`; the socket may send
  to a broadcast address only if the name is the text of one.

  A `Kernel` answers the calls of `::sendto` one after the other, and keeps the
  datagrams they were given.
-/
import ReadoutMaster.Args
import ReadoutMaster.Readout

namespace ReadoutMaster

open Args

/-! ## Addresses -/

/-- The bytes of an IPv4 address. -/
def octets (a : UInt32) : List ℕ :=
  [a.toNat / 2 ^ 24, a.toNat / 2 ^ 16 % 256, a.toNat / 2 ^ 8 % 256, a.toNat % 256]

/-- `inet_ntop` -/
def inetNtop (a : UInt32) : Str := ['.'].intercalate ((octets a).map (Nat.toDigits 10))

def INADDR_NONE : UInt32 := 0xffffffff

def INADDR_BROADCAST : UInt32 := 0xffffffff

def isOctalDigit (c : Char) : Bool := c.isDigit && c ≠ '8' && c ≠ '9'

def isHexDigit (c : Char) : Bool := c.isDigit || c.toLower.toNat - 'a'.toNat < 6 && c.isAlpha

def hexValue (c : Char) : ℕ :=
  if c.isDigit then c.toNat - '0'.toNat else c.toLower.toNat - 'a'.toNat + 10

/-- A number in the notation of C: hexadecimal, octal or decimal. -/
def partValue : Str → Option ℕ
  | '0' :: x :: digits =>
    if x = 'x' ∨ x = 'X' then
      if digits ≠ [] ∧ digits.all isHexDigit then
        some (digits.foldl (fun n c => 16 * n + hexValue c) 0)
      else none
    else if (x :: digits).all isOctalDigit then some (Nat.ofDigitChars 8 (x :: digits) 0)
    else none
  | digits =>
    if digits ≠ [] ∧ digits.all Char.isDigit then some (Nat.ofDigitChars 10 digits 0) else none

/-- `inet_addr`, which takes one to four parts; the last one fills the bytes
    that the others leave. -/
def inetAddr (cp : Str) : UInt32 :=
  match (cp.splitOn '.').mapM partValue with
  | some [a] => if a < 2 ^ 32 then UInt32.ofNat a else INADDR_NONE
  | some [a, b] =>
    if a < 256 ∧ b < 2 ^ 24 then UInt32.ofNat (a * 2 ^ 24 + b) else INADDR_NONE
  | some [a, b, c] =>
    if a < 256 ∧ b < 256 ∧ c < 2 ^ 16 then UInt32.ofNat (a * 2 ^ 24 + b * 2 ^ 16 + c)
    else INADDR_NONE
  | some [a, b, c, d] =>
    if a < 256 ∧ b < 256 ∧ c < 256 ∧ d < 256 then
      UInt32.ofNat (a * 2 ^ 24 + b * 2 ^ 16 + c * 2 ^ 8 + d)
    else INADDR_NONE
  | _ => INADDR_NONE

/-- The numbers that `std::istream_iterator<int>` runs over, `n` at most. -/
def readInts : ℕ → Str → List Int
  | 0, _ => []
  | n + 1, s =>
    match takeInt s with
    | none => []
    | some (i, rest) => i :: readInts n rest

/-! ## The system -/

/-- What the constructor asks of the system. -/
structure System where
  /-- the address of a name that `getaddrinfo` finds -/
  resolve : Str → Option UInt32
  /-- the descriptor that `::socket` makes -/
  socket : Option ℕ
  /-- the broadcast addresses of the interfaces -/
  broadcasts : List UInt32
  /-- `::setsockopt` succeeds -/
  setsockopt : Bool

/-- What `::sendto` returns, and the `errno` it leaves if it fails. -/
structure Sendto where
  bytes : Int
  errno : Int
  contract : 0 ≤ bytes ∨ bytes = -1 ∧ 0 < errno

structure Kernel where
  /-- what the next calls of `::sendto` return -/
  answers : ℕ → Sendto
  received : List (List UInt8) := []

/-- `struct sockaddr_in` -/
structure SockaddrIn where
  addr : UInt32 := 0
  port : UInt16 := 0
  deriving DecidableEq

/-! ## The sender -/

structure UDPSender where
  socket : Int
  sendToAddress : SockaddrIn := {}
  /-- `SO_BROADCAST` is set for the socket -/
  broadcast : Bool := false

namespace UDPSender

def getIPv4FromHostname (sys : System) (hostname : Str) : Str :=
  if hostname ≠ [] then
    match sys.resolve hostname with
    | some a => inetNtop a
    | none => []
  else []

/-- The name is the text of a broadcast address. -/
def isBroadcast (sys : System) (sendToAddress : Str) : Bool :=
  sendToAddress = "255.255.255.255".toList || (sys.broadcasts.map inetNtop).contains sendToAddress

/-- The constructor. -/
def make (sys : System) (sendToAddress : Str) (sendToPort : UInt16) : UDPSender :=
  let tmp := (getIPv4FromHostname sys sendToAddress).map fun c => if c = '.' then ' ' else c
  let sendToAddressTokens := readInts tmp.length tmp
  if sendToAddress ≠ [] ∧ sendToAddressTokens.length = 4 ∧
      sendToAddressTokens.all (fun a => !(a < 0 || a > 255)) ∧ 0 < sendToPort then
    { socket := sys.socket.elim (-1) Int.ofNat
      sendToAddress := ⟨inetAddr sendToAddress, sendToPort⟩
      broadcast := sys.socket.isSome && isBroadcast sys sendToAddress && sys.setsockopt }
  else { socket := -1 }

def EBADF : Int := 9

def E2BIG : Int := 7

/-- `MAX_SIZE_UDP_PACKET` without the headers of IPv4 and UDP. -/
def MAX_LENGTH : ℕ := 65535 - 20 - 8

def send (s : UDPSender) (data : List UInt8) (k : Kernel) : SendResult × Kernel :=
  if s.socket = -1 then (⟨-1, EBADF⟩, k)
  else if data.isEmpty then (⟨0, 0⟩, k)
  else if MAX_LENGTH < data.length then (⟨-1, E2BIG⟩, k)
  else
    let answer := k.answers 0
    (⟨answer.bytes, if 0 > answer.bytes then answer.errno else 0⟩,
      { answers := fun n => k.answers (n + 1), received := k.received ++ [data] })

end UDPSender

/-- The member `sender` of a `Readout`. -/
def Readout.sender (sys : System) (ipAddress : Str) (udpPort : Int) : UDPSender :=
  .make sys ipAddress (UInt16.ofInt udpPort)

end ReadoutMaster
