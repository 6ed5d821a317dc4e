import TokenLedger.Hex

/-!
# JSON values and their text

JSON as far as the ledger tells values apart, and the two ways in which values are written: compact,
without any space, and laid out over lines with two spaces a level. Numbers that are not natural and
strings that pair no surrogates can be read past but stand for nothing that a ledger knows; each has
one value, written in one of the ways that is read as it.
-/

namespace TokenLedger.Json

inductive Text where
  | plain (text : String)
  /-- A string with an escaped surrogate that is not half of a pair. -/
  | unpaired
deriving DecidableEq

inductive Value where
  | null
  | bool (b : Bool)
  | natural (n : Nat)
  /-- A number with a sign, a fraction or an exponent. -/
  | otherNumber
  | string (text : Text)
  | array (items : List Value)
  /-- Members in the order read; a name may occur more than once. -/
  | object (members : List (Text × Value))

/-- A string that is no more than its text. -/
def Value.text (text : String) : Value := .string (.plain text)

/-- An object whose names are no more than their text. -/
def Value.record (members : List (String × Value)) : Value :=
  .object (members.map fun (name, value) => (.plain name, value))

/-! ## Strings -/

/-- The escape for a control character without one of its own. -/
def controlEscape (n : Nat) : List Char :=
  ['\\', 'u', '0', '0', Hex.digit (n / 16), Hex.digit (n % 16)]

/-- A character as it stands in a string. -/
def escape (c : Char) : List Char :=
  match c with
  | '"' => ['\\', '"']
  | '\\' => ['\\', '\\']
  | '\n' => ['\\', 'n']
  | '\r' => ['\\', 'r']
  | '\t' => ['\\', 't']
  | '\x08' => ['\\', 'b']
  | '\x0c' => ['\\', 'f']
  | c => if c.toNat < 32 then controlEscape c.toNat else [c]

/-- A string between its quotes. -/
def Text.render : Text → List Char
  | .plain text => '"' :: text.toList.flatMap escape ++ ['"']
  | .unpaired => "\"\\ud800\"".toList

/-! ## Compact text -/

mutual

/-- A value without spaces. -/
def Value.render : Value → List Char
  | .null => "null".toList
  | .bool true => "true".toList
  | .bool false => "false".toList
  | .natural n => Nat.toDigits 10 n
  | .otherNumber => "-0".toList
  | .string text => text.render
  | .array items => '[' :: renderItems items ++ [']']
  | .object members => '\x7b' :: renderMembers members ++ ['\x7d']

def renderItems : List Value → List Char
  | [] => []
  | [item] => item.render
  | item :: rest => item.render ++ ',' :: renderItems rest

def renderMembers : List (Text × Value) → List Char
  | [] => []
  | [(name, value)] => name.render ++ ':' :: value.render
  | (name, value) :: rest => name.render ++ ':' :: value.render ++ ',' :: renderMembers rest

end

def Value.compact (value : Value) : String := String.ofList value.render

/-! ## Text over lines -/

/-- The start of a line at some level. -/
def newLine (level : Nat) : List Char := '\n' :: List.replicate (2 * level) ' '

mutual

/-- A value at some level. -/
def Value.layout (level : Nat) : Value → List Char
  | .array [] => ['[', ']']
  | .array items => '[' :: layoutItems (level + 1) items ++ newLine level ++ [']']
  | .object [] => ['\x7b', '\x7d']
  | .object members => '\x7b' :: layoutMembers (level + 1) members ++ newLine level ++ ['\x7d']
  | value => value.render

def layoutItems (level : Nat) : List Value → List Char
  | [] => []
  | [item] => newLine level ++ item.layout level
  | item :: rest => newLine level ++ item.layout level ++ ',' :: layoutItems level rest

def layoutMembers (level : Nat) : List (Text × Value) → List Char
  | [] => []
  | [(name, value)] => newLine level ++ name.render ++ ':' :: ' ' :: value.layout level
  | (name, value) :: rest =>
    newLine level ++ name.render ++ ':' :: ' ' :: value.layout level ++
      ',' :: layoutMembers level rest

end

/-- The text of a value over lines. -/
def Value.pretty (value : Value) : String := String.ofList (value.layout 0)

end TokenLedger.Json
