import TokenLedger.Hex

/-!
# URIs of files

A URI of a file is a path, which may follow the name of this host, and behind a question mark
options with values. `%` and two hex digits stand for any byte. What follows a number sign does not
count.
-/

namespace TokenLedger

structure Uri where
  path : Bytes
  options : List (Bytes × Bytes)
deriving DecidableEq

namespace Uri

/-! ## Reading -/

/-- The byte that two hex digits stand for. -/
def hexPair? (high low : UInt8) : Option UInt8 := do
  return UInt8.ofNat (16 * (← Hex.digitValue? high) + (← Hex.digitValue? low))

/-- The bytes that a part of a URI stands for. What follows an escaped zero is left out. -/
def unescape : Bytes → Bytes
  | [] => []
  | byte :: high :: low :: rest =>
    match if byte = '%'.toUInt8 then hexPair? high low else none with
    | some 0 => []
    | some escaped => escaped :: unescape rest
    | none => byte :: unescape (high :: low :: rest)
  | byte :: rest => byte :: unescape rest

def scheme : Bytes := Bytes.ofText "file:"

/-- What is left behind two slashes and a host, which can only be this one. -/
def afterHost? (bytes : Bytes) : Option Bytes :=
  match Bytes.splitOn '/'.toUInt8 bytes with
  | [] :: [] :: host :: rest =>
    if host = [] ∨ host = Bytes.ofText "localhost" then some (rest.flatMap ('/'.toUInt8 :: ·))
    else none
  | _ => some bytes

/-- Reads an option. One without a name does not count. -/
def readOption? (bytes : Bytes) : Option (Bytes × Bytes) :=
  let (name, value) := Bytes.cutAt '='.toUInt8 bytes
  if unescape name = [] then none else some (unescape name, unescape value)

/-- Reads what follows the scheme. -/
def ofBytes? (bytes : Bytes) : Option Uri := do
  let (bytes, _) := Bytes.cutAt '#'.toUInt8 (← afterHost? bytes)
  let (path, options) := Bytes.cutAt '?'.toUInt8 bytes
  return {
    path := unescape path
    options := (Bytes.splitOn '&'.toUInt8 options).filterMap readOption? }

/-! ## Options -/

/-- The value of an option; where it stands more than once, the first. -/
def option? (uri : Uri) (name : String) : Option Bytes := uri.options.lookup (Bytes.ofText name)

/-- The digits at the front, in a base of up to sixteen. -/
def leadingDigits (base : Nat) : Bytes → List Nat
  | [] => []
  | byte :: rest =>
    match Hex.digitValue? byte with
    | some digit => if digit < base then digit :: leadingDigits base rest else []
    | none => []

/-- The number that the digits at the front spell, if there are any. -/
def leadingNumber? (base : Nat) (bytes : Bytes) : Option Nat :=
  match leadingDigits base bytes with
  | [] => none
  | digits => some (digits.foldl (fun n digit => base * n + digit) 0)

/-- The number at the front of a value: behind `0x` in hex, and else in decimal. -/
def numberOf? : Bytes → Option Nat
  | zero :: mark :: rest =>
    let isHex := [zero, mark] ∈ [Bytes.ofText "0x", Bytes.ofText "0X"]
    (if isHex then leadingNumber? 16 rest else none) <|> leadingNumber? 10 (zero :: mark :: rest)
  | value => leadingNumber? 10 value

/-- Whether a value says yes, by a word or by a number. Of a number that is not too large the low
    byte counts. -/
def saysYes (value : Bytes) : Bool :=
  match numberOf? value, Bytes.toText? value with
  | some n, _ => n < (1 <<< 31) && n % 256 ≠ 0
  | none, some word => word.toLower ∈ ["on", "yes", "true"]
  | none, none => false

/-- Whether an option is there and says yes. -/
def allows (uri : Uri) (name : String) : Bool := (uri.option? name).any saysYes

end Uri

end TokenLedger
