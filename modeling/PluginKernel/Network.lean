import PluginKernel.Text.Decimal
import PluginKernel.Text.Hex

/-!
# Places to listen on

A server listens on an address of its machine and a port. An address has four numbers of eight bits
each, or eight groups of sixteen bits. A place is taken while somebody listens on it; the address
that stands for all addresses shares its ports with each of them.

Which place a host and a port lead to is for the machine to say. `Endpoint.bind` is how a machine
says it that is not connected to others: it looks up no names but the one it has for itself; any
address of four numbers can be listened on, and of the others only the one that stands for all; and
port 0 asks for the lowest port that is free.
-/

namespace PluginKernel

/-- An address of four numbers. -/
structure Address where
  /-- The first number. -/
  a : UInt8
  /-- The second number. -/
  b : UInt8
  /-- The third number. -/
  c : UInt8
  /-- The last number. -/
  d : UInt8
deriving DecidableEq, Repr

namespace Address

/-- All addresses of a machine. -/
def any : Address := ⟨0, 0, 0, 0⟩

/-- The address by which a machine reaches itself. -/
def loopback : Address := ⟨127, 0, 0, 1⟩

/-- The address whose four numbers are the bytes of a number, the highest first. -/
def ofNat (n : Nat) : Address :=
  ⟨UInt8.ofNat (n / 256 ^ (3 : Nat)), UInt8.ofNat (n / 256 ^ (2 : Nat)), UInt8.ofNat (n / 256),
    UInt8.ofNat n⟩

/-- A part of an address: hexadecimal behind `0x`, octal behind another zero, and else decimal. -/
def readPart? : List Char → Option Nat
  | '0' :: 'x' :: cs | '0' :: 'X' :: cs => Text.digitsIn? 16 cs
  | '0' :: c :: cs => Text.digitsIn? 8 (c :: cs)
  | cs => Text.digitsIn? 10 cs

/-- The number whose bytes, as many as there is room for, are given in parts: each part is one of
them, but the last stands for all that are left. -/
def joinParts? : Nat → List Nat → Option Nat
  | room + 1, [part] => if part < 256 ^ (room + 1) then some part else none
  | room + 1, part :: parts =>
    if part < 256 then (joinParts? room parts).map (part * 256 ^ room + ·) else none
  | _, _ => none

/-- The address that a text spells in up to four parts. -/
def read? (cs : List Char) : Option Address :=
  ((cs.splitOn '.').mapM readPart?).bind fun parts => (joinParts? 4 parts).map ofNat

/-- The name that a machine has for itself. -/
def ownName : String := "localhost"

/-- The address in figures. -/
def text (x : Address) : String :=
  ".".intercalate ([x.a, x.b, x.c, x.d].map fun n => Text.showInt n.toNat)

end Address

/-- Groups of sixteen bits, in hexadecimal between colons. -/
def readGroups? (cs : List Char) : Option (List Nat) :=
  if cs.isEmpty then some []
  else (cs.splitOn ':').mapM fun group => if group.length ≤ 4 then Text.digitsIn? 16 group else none

/-- What stands before the first pair of colons and, if there is one, what follows it. -/
def splitColons : List Char → List Char × Option (List Char)
  | ':' :: ':' :: cs => ([], some cs)
  | c :: cs => (c :: (splitColons cs).1, (splitColons cs).2)
  | [] => ([], none)

/-- The eight groups that a text spells, possibly in brackets. A pair of colons stands for at least
one group of zero. -/
def readLong? (cs : List Char) : Option (List Nat) := do
  let cs := if cs.head? == some '[' && cs.getLast? == some ']' then cs.tail.dropLast else cs
  let (front, back) := splitColons cs
  let front ← readGroups? front
  match back with
  | none => if front.length = 8 then some front else none
  | some back =>
    let back ← readGroups? back
    if front.length + back.length < 8 then
      some (front ++ List.replicate (8 - front.length - back.length) 0 ++ back)
    else none

/-- What the host in a configuration leads to. -/
inductive HostAddress where
  /-- An address of four numbers. -/
  | short (x : Address)
  /-- An address of eight groups. -/
  | long (groups : List Nat)
deriving DecidableEq, Repr

namespace HostAddress

/-- What a host leads to, if it is an address or the name that a machine has for itself. -/
def ofHost? (host : String) : Option HostAddress :=
  if host = Address.ownName then some (.short .loopback)
  else ((Address.read? host.toList).map short).or ((readLong? host.toList).map long)

end HostAddress

/-- An address and a port. -/
structure Endpoint where
  address : Address
  port : UInt16
deriving DecidableEq, Repr

/-- Why a place cannot be listened on. -/
inductive BindError where
  /-- The host has no address that is known. -/
  | unknownHost
  /-- The address is not one of the machine. -/
  | foreignAddress
  /-- Somebody listens there. -/
  | taken
deriving DecidableEq, Repr

/-- The wording of each cause. -/
def BindError.message : BindError → String
  | .unknownHost => "failed to lookup address information: Name or service not known"
  | .foreignAddress => "Cannot assign requested address (os error 99)"
  | .taken => "Address already in use (os error 98)"

namespace Endpoint

/-- Address and port as one text. -/
def text (e : Endpoint) : String := e.address.text ++ ":" ++ Text.showInt e.port.toNat

/-- Whether two servers cannot listen on both places. -/
def overlaps (e f : Endpoint) : Bool :=
  e.port = f.port && (e.address = f.address || e.address = Address.any || f.address = Address.any)

/-- Whether a place is free while others are held. -/
def isFree (held : List Endpoint) (e : Endpoint) : Bool := held.all (!e.overlaps ·)

/-- The ports that are given to those who do not ask for one, lowest first. -/
def openPorts : List UInt16 := (List.range' 32768 28232).map UInt16.ofNat

/-- The place that is listened on when an address and a port are asked for while others are held. -/
def bindAddress (held : List Endpoint) (address : Address) (port : UInt16) :
    Except BindError Endpoint :=
  if port = 0 then
    match openPorts.find? fun p => isFree held ⟨address, p⟩ with
    | some p => .ok ⟨address, p⟩
    | none => .error .taken
  else if isFree held ⟨address, port⟩ then .ok ⟨address, port⟩
  else .error .taken

/-- The place that is listened on when a host and a port are asked for while others are held. -/
def bind (held : List Endpoint) (host : String) (port : UInt16) : Except BindError Endpoint :=
  match HostAddress.ofHost? host with
  | none => .error .unknownHost
  | some (.short address) => bindAddress held address port
  | some (.long groups) =>
    if groups.all (· == 0) then bindAddress held .any port else .error .foreignAddress

end Endpoint

end PluginKernel
