import TokenLedger.Bytes

/-!
# Hexadecimal text

Byte strings are shown as two lower-case hex digits a byte and read back from digits of either
case. Reading looks for faults in a fixed order: an odd number of digits first, then the first
character that is no digit, then (where a length is required) a wrong length.
-/

namespace TokenLedger

/-- Why a text is not the hex form of a value. -/
inductive HexError where
  | oddLength
  /-- A byte of the text that is no hex digit, and where it stands. -/
  | invalidDigit (byte : UInt8) (position : Nat)
  /-- Digits throughout, for another number of bytes than the value has. -/
  | wrongLength
deriving DecidableEq

namespace Hex

/-- The lower-case digit of a number below 16. -/
def digit (n : Nat) : Char :=
  if n < 10 then Char.ofNat ('0'.toNat + n) else Char.ofNat ('a'.toNat + (n - 10))

/-- The number that a digit of either case stands for. -/
def digitValue? (byte : UInt8) : Option Nat :=
  let n := byte.toNat
  if '0'.toNat ≤ n ∧ n ≤ '9'.toNat then some (n - '0'.toNat)
  else if 'a'.toNat ≤ n ∧ n ≤ 'f'.toNat then some (n - 'a'.toNat + 10)
  else if 'A'.toNat ≤ n ∧ n ≤ 'F'.toNat then some (n - 'A'.toNat + 10)
  else none

def digits : Bytes → List Char
  | [] => []
  | byte :: rest => digit (byte.toNat / 16) :: digit (byte.toNat % 16) :: digits rest

def encode (bytes : Bytes) : String := String.ofList (digits bytes)

/-- Reads digit pairs, `position` being where the first of them stands. -/
def decodePairs (position : Nat) : Bytes → Except HexError Bytes
  | [] => .ok []
  | [_] => .error .oddLength
  | high :: low :: rest =>
    match digitValue? high with
    | none => .error (.invalidDigit high position)
    | some h =>
      match digitValue? low with
      | none => .error (.invalidDigit low (position + 1))
      | some l => (decodePairs (position + 2) rest).map (UInt8.ofNat (16 * h + l) :: ·)

/-- The byte string that a text of hex digits stands for. -/
def decode (text : String) : Except HexError Bytes :=
  let bytes := Bytes.ofText text
  if bytes.length % 2 = 1 then .error .oddLength else decodePairs 0 bytes

/-- Reads a value of exactly 32 bytes. -/
def decode32 (text : String) : Except HexError Bytes32 :=
  match decode text with
  | .error e => .error e
  | .ok bytes =>
    match Bytes32.ofBytes? bytes with
    | some value => .ok value
    | none => .error .wrongLength

/-- A number in lower-case hex without leading zeros. -/
def ofNat (n : Nat) : String := String.ofList (Nat.toDigits 16 n)

end Hex

namespace HexError

/-- How the character with this code from the first 256 is quoted: control characters, spaces other
    than the plain one and the soft hyphen by number, a quote or backslash behind a backslash. -/
def quote (byte : UInt8) : String :=
  let n := byte.toNat
  let body :=
    if n = 0 then "\\0"
    else if n = 9 then "\\t"
    else if n = 10 then "\\n"
    else if n = 13 then "\\r"
    else if n = 39 then "\\'"
    else if n = 92 then "\\\\"
    else if n < 32 ∨ (127 ≤ n ∧ n ≤ 160) ∨ n = 173 then "\\u\x7b" ++ Hex.ofNat n ++ "\x7d"
    else String.singleton (Char.ofNat n)
  "'" ++ body ++ "'"

def message : HexError → String
  | .oddLength => "Odd number of digits"
  | .invalidDigit byte position =>
    "Invalid character " ++ quote byte ++ " at position " ++ toString position
  | .wrongLength => "Invalid string length"

end HexError

namespace Bytes32

def hex (value : Bytes32) : String := Hex.encode value.toBytes

/-- The first 16 hex digits, which is how addresses and principals are shown. -/
def short (value : Bytes32) : String := Hex.encode (value.toBytes.take 8)

end Bytes32

end TokenLedger
