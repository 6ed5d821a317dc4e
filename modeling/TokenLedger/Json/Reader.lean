import TokenLedger.Json.Value

/-!
# Reading JSON

A reader of whole JSON texts: one value, with blanks around it and between its parts, and nothing
else. There is no limit to nesting. Strings are kept apart by whether their escapes make a text, so
that a string that does not can still be skipped.
-/

namespace TokenLedger.Json

/-- What is left after the blanks at the front. -/
def skipBlanks : List Char → List Char
  | [] => []
  | c :: rest => if c = ' ' ∨ c = '\n' ∨ c = '\t' ∨ c = '\r' then skipBlanks rest else c :: rest

/-! ## Numbers -/

def isDigit (c : Char) : Bool := '0' ≤ c ∧ c ≤ '9'

/-- The digits at the front, and what follows them. -/
def splitDigits (input : List Char) : List Char × List Char :=
  (input.takeWhile isDigit, input.dropWhile isDigit)

/-- The number that decimal digits stand for. -/
def digitsValue (digits : List Char) : Nat :=
  digits.foldl (fun n c => 10 * n + (c.toNat - '0'.toNat)) 0

/-- Reads an integer part: digits that begin with zero only if there is one. -/
def readInteger (input : List Char) : Option (Nat × List Char) :=
  let (digits, rest) := splitDigits input
  match digits with
  | [] => none
  | ['0'] => some (0, rest)
  | '0' :: _ => none
  | digits => some (digitsValue digits, rest)

/-- Reads past a fraction, if there is one, and says whether there was. -/
def skipFraction (input : List Char) : Option (Bool × List Char) :=
  match input with
  | '.' :: rest =>
    match splitDigits rest with
    | ([], _) => none
    | (_, rest) => some (true, rest)
  | rest => some (false, rest)

/-- Reads past an exponent, if there is one, and says whether there was. -/
def skipExponent (input : List Char) : Option (Bool × List Char) :=
  match input with
  | c :: rest =>
    if c = 'e' ∨ c = 'E' then
      let rest := match rest with
        | '+' :: rest => rest
        | '-' :: rest => rest
        | rest => rest
      match splitDigits rest with
      | ([], _) => none
      | (_, rest) => some (true, rest)
    else some (false, c :: rest)
  | [] => some (false, [])

def readNumber (input : List Char) : Option (Value × List Char) := do
  let (signed, rest) := match input with
    | '-' :: rest => (true, rest)
    | rest => (false, rest)
  let (n, rest) ← readInteger rest
  let (fraction, rest) ← skipFraction rest
  let (exponent, rest) ← skipExponent rest
  return (if signed || fraction || exponent then .otherNumber else .natural n, rest)

/-! ## Strings -/

/-- A piece of a string: a character, or the number of an escaped UTF-16 unit. -/
inductive Piece where
  | char (c : Char)
  | unit (n : Nat)

/-- The value of a hex digit of either case. -/
def hexValue? (c : Char) : Option Nat :=
  if isDigit c then some (c.toNat - '0'.toNat)
  else if 'a' ≤ c ∧ c ≤ 'f' then some (c.toNat - 'a'.toNat + 10)
  else if 'A' ≤ c ∧ c ≤ 'F' then some (c.toNat - 'A'.toNat + 10)
  else none

/-- Reads the four digits of an escaped unit. -/
def readUnit (input : List Char) : Option (Nat × List Char) :=
  match input with
  | a :: b :: c :: d :: rest => do
    let a ← hexValue? a
    let b ← hexValue? b
    let c ← hexValue? c
    let d ← hexValue? d
    return (4096 * a + 256 * b + 16 * c + d, rest)
  | _ => none

/-- The character that a letter stands for behind a backslash. -/
def shortEscape? (c : Char) : Option Char :=
  match c with
  | '"' => some '"'
  | '\\' => some '\\'
  | '/' => some '/'
  | 'b' => some '\x08'
  | 'f' => some '\x0c'
  | 'n' => some '\n'
  | 'r' => some '\r'
  | 't' => some '\t'
  | _ => none

/-- Reads the pieces of a string up to the closing quote. -/
def readPieces : (fuel : Nat) → List Char → Option (List Piece × List Char)
  | 0, _ => none
  | fuel + 1, input =>
    match input with
    | [] => none
    | '"' :: rest => some ([], rest)
    | '\\' :: 'u' :: rest =>
      match readUnit rest with
      | none => none
      | some (n, rest) => (readPieces fuel rest).map fun (more, rest) => (.unit n :: more, rest)
    | '\\' :: c :: rest =>
      match shortEscape? c with
      | none => none
      | some c => (readPieces fuel rest).map fun (more, rest) => (.char c :: more, rest)
    | ['\\'] => none
    | c :: rest =>
      if c.toNat < 32 then none
      else (readPieces fuel rest).map fun (more, rest) => (.char c :: more, rest)

/-- The characters that pieces stand for, unless a surrogate among them is not half of a pair. -/
def joinPieces? : List Piece → Option (List Char)
  | [] => some []
  | .char c :: rest => (joinPieces? rest).map (c :: ·)
  | [.unit n] => if 0xd800 ≤ n ∧ n < 0xe000 then none else some [Char.ofNat n]
  | .unit n :: .unit m :: rest =>
    if 0xd800 ≤ n ∧ n < 0xdc00 ∧ 0xdc00 ≤ m ∧ m < 0xe000 then
      (joinPieces? rest).map (Char.ofNat (0x10000 + 0x400 * (n - 0xd800) + (m - 0xdc00)) :: ·)
    else if 0xd800 ≤ n ∧ n < 0xe000 then none
    else (joinPieces? (.unit m :: rest)).map (Char.ofNat n :: ·)
  | .unit n :: rest =>
    if 0xd800 ≤ n ∧ n < 0xe000 then none else (joinPieces? rest).map (Char.ofNat n :: ·)

/-- The text that pieces stand for. -/
def textOfPieces (pieces : List Piece) : Text :=
  match joinPieces? pieces with
  | some chars => .plain (String.ofList chars)
  | none => .unpaired

/-- Reads a string from behind its opening quote. -/
def readText (input : List Char) : Option (Text × List Char) :=
  (readPieces (input.length + 1) input).map fun (pieces, rest) => (textOfPieces pieces, rest)

/-! ## Values -/

/-- What is left of the input behind a word. -/
def skipWord : (word input : List Char) → Option (List Char)
  | [], rest => some rest
  | w :: word, c :: rest => if w = c then skipWord word rest else none
  | _ :: _, [] => none

/-- Reads a value without parts. -/
def readSimple (input : List Char) : Option (Value × List Char) :=
  match input with
  | 'n' :: _ => (skipWord "null".toList input).map fun rest => (.null, rest)
  | 't' :: _ => (skipWord "true".toList input).map fun rest => (.bool true, rest)
  | 'f' :: _ => (skipWord "false".toList input).map fun rest => (.bool false, rest)
  | _ => readNumber input

mutual

/-- Reads a value, with blanks before it. -/
def readValue : (fuel : Nat) → List Char → Option (Value × List Char)
  | 0, _ => none
  | fuel + 1, input =>
    match skipBlanks input with
    | '"' :: rest => (readText rest).map fun (text, rest) => (.string text, rest)
    | '[' :: rest =>
      match skipBlanks rest with
      | ']' :: rest => some (.array [], rest)
      | rest => (readItems fuel rest).map fun (items, rest) => (.array items, rest)
    | '\x7b' :: rest =>
      match skipBlanks rest with
      | '\x7d' :: rest => some (.object [], rest)
      | rest => (readMembers fuel rest).map fun (members, rest) => (.object members, rest)
    | input => readSimple input

/-- Reads the items of an array, of which there is one at least, up to the closing bracket. -/
def readItems : (fuel : Nat) → List Char → Option (List Value × List Char)
  | 0, _ => none
  | fuel + 1, input =>
    match readValue fuel input with
    | none => none
    | some (item, rest) =>
      match skipBlanks rest with
      | ',' :: rest => (readItems fuel rest).map fun (more, rest) => (item :: more, rest)
      | ']' :: rest => some ([item], rest)
      | _ => none

/-- Reads the members of an object, of which there is one at least, up to the closing brace. -/
def readMembers : (fuel : Nat) → List Char → Option (List (Text × Value) × List Char)
  | 0, _ => none
  | fuel + 1, input =>
    match skipBlanks input with
    | '"' :: rest =>
      match readText rest with
      | none => none
      | some (name, rest) =>
        match skipBlanks rest with
        | ':' :: rest =>
          match readValue fuel rest with
          | none => none
          | some (value, rest) =>
            match skipBlanks rest with
            | ',' :: rest =>
              (readMembers fuel rest).map fun (more, rest) => ((name, value) :: more, rest)
            | '\x7d' :: rest => some ([(name, value)], rest)
            | _ => none
        | _ => none
    | _ => none

end

/-- Reads a text that is one value and nothing else. The fuel is enough, since each call of the
    reader is for a character of its own or for the value behind such a character. -/
def Value.ofText? (text : String) : Option Value :=
  let chars := text.toList
  match readValue (2 * chars.length + 2) chars with
  | some (value, rest) => if (skipBlanks rest).isEmpty then some value else none
  | none => none

end TokenLedger.Json
