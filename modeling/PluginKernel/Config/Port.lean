import PluginKernel.Config.Error
import PluginKernel.Text.Blank

/-!
# Ports

The port in a configuration is a number or a text that spells one, because writers of configurations
quote numbers or do not. Only when it is resolved must it be a port. Port zero asks for a free one.
-/

namespace PluginKernel

/-- A port as configured. -/
inductive PortSetting where
  | number (n : Int64)
  | text (s : String)
deriving DecidableEq

namespace PortSetting

/-- The port that is a number. -/
def ofPort (port : UInt16) : PortSetting := .number (Int64.ofInt port.toNat)

/-- The reason why a number is not a port. -/
def outOfRange : String := "out of range for a TCP port"

/-- The port that equals a number, if there is one. -/
def port? (n : Int64) : Option UInt16 :=
  if 0 ≤ n.toInt && n.toInt < 65536 then some (UInt16.ofNat n.toInt.toNat) else none

/-- The port that a configured one stands for. A text may have blanks around the number. -/
def resolve : PortSetting → Except ConfigError UInt16
  | .number n =>
    match port? n with
    | some port => .ok port
    | none => .error (.invalidPort (Text.showInt n.toInt) outOfRange)
  | .text s =>
    match Text.readInt64 (Text.trimBoth Text.isBlank s.toList) with
    | .error e => .error (.invalidPort s e.message)
    | .ok n =>
      match port? n with
      | some port => .ok port
      | none => .error (.invalidPort s outOfRange)

/-- The configured port that a value stands for. -/
def decode : Json → Except DecodeError PortSetting
  | .int n =>
    match Text.toInt64? n with
    | some n => .ok (.number n)
    | none => .error (.noVariant "PortValue")
  | .str s => .ok (.text s)
  | _ => .error (.noVariant "PortValue")

/-- The value of a configured port. -/
def encode : PortSetting → Json
  | .number n => .int n.toInt
  | .text s => .str s

end PortSetting

end PluginKernel
