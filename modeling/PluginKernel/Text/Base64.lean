import PluginKernel.Text.Hex

/-!
# Base64

Bytes written with 64 digits, four digits for three bytes. White space does not count. The last
group may be short, and then may be filled up to four with equals signs, or left as it is.
-/

namespace PluginKernel.Text

/-- The value of a Base64 digit. -/
def base64Value? (b : UInt8) : Option Nat :=
  let n := b.toNat
  if 0x41 ≤ n && n ≤ 0x5A then some (n - 0x41)
  else if 0x61 ≤ n && n ≤ 0x7A then some (n - 0x61 + 26)
  else if 0x30 ≤ n && n ≤ 0x39 then some (n - 0x30 + 52)
  else if n == 0x2B then some 62
  else if n == 0x2F then some 63
  else none

/-- White space between Base64 digits. -/
def isBase64Space (b : UInt8) : Bool := (0x09 ≤ b && b ≤ 0x0D) || b == 0x20

/-- The sign that fills up the last group. -/
def base64Pad : UInt8 := 0x3D

/-- The bytes of digit values in groups of four, the last of which may be short. -/
def base64Groups? : List Nat → Option Bytes
  | a :: b :: c :: d :: rest =>
    (base64Groups? rest).map fun bytes =>
      UInt8.ofNat (4 * a + b / 16) :: UInt8.ofNat (16 * (b % 16) + c / 4) ::
        UInt8.ofNat (64 * (c % 4) + d) :: bytes
  | [a, b, c] => some [UInt8.ofNat (4 * a + b / 16), UInt8.ofNat (16 * (b % 16) + c / 4)]
  | [a, b] => some [UInt8.ofNat (4 * a + b / 16)]
  | [_] => none
  | [] => some []

/-- The bytes that a text in Base64 stands for. -/
def base64? (text : Bytes) : Option Bytes := do
  let text := text.filter (!isBase64Space ·)
  let body := text.takeWhile (· != base64Pad)
  let pads := text.dropWhile (· != base64Pad)
  if !pads.all (· == base64Pad) then none
  if !pads.isEmpty && body.length % 4 + pads.length != 4 then none
  if 2 < pads.length then none
  base64Groups? (← body.mapM base64Value?)

end PluginKernel.Text
