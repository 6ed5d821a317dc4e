import TokenLedger.Cbor.Item

/-!
# Reading CBOR

A reader for one item at the front of a byte string, of any well-formed shape and not only the
deterministic one: long heads, indefinite lengths, floats and tags are read too, so that the caller
can tell an encoding that is not deterministic from one that is no CBOR at all. The first fault from
the left is the one reported. Arrays, maps and tags may be entered up to a given depth, and the
recursion follows that depth.
-/

namespace TokenLedger.Cbor

/-- Why no item could be read. -/
inductive ReadError where
  /-- The input ends inside an item. -/
  | endOfInput
  /-- The input is no CBOR; `fault` is what is left of it at the place to report. -/
  | malformed (fault : Bytes)
  /-- Arrays, maps and tags are nested too deeply. -/
  | tooDeep
  /-- A break where no indefinite length is open. -/
  | strayBreak
  /-- A simple value that is neither a boolean nor null nor undefined. -/
  | unknownSimple
  /-- A negative big number below `-2^127`. -/
  | numberTooLarge
deriving DecidableEq

/-- The text of an error met while reading `input`. -/
def ReadError.message (input : Bytes) : ReadError → String
  | .endOfInput =>
    "Io(Error \x7b kind: UnexpectedEof, message: \"failed to fill whole buffer\" \x7d)"
  | .malformed fault => "Syntax(" ++ toString (input.length - fault.length) ++ ")"
  | .tooDeep => "RecursionLimitExceeded"
  | .strayBreak => "Semantic(None, \"invalid type: break, expected non-break\")"
  | .unknownSimple => "Semantic(None, \"invalid type: simple, expected known simple value\")"
  | .numberTooLarge => "Semantic(None, \"integer too large\")"

/-- A reader: what it found at the front of the input, and what is left of the input. -/
abbrev Reader (α : Type) := Bytes → Except ReadError (α × Bytes)

/-! ## Heads -/

/-- What stands at the front of an item. Strings, arrays and maps without a length are open-ended
    and closed by a break. -/
inductive Head where
  | unsigned (n : Nat)
  | negative (n : Nat)
  | bytes (length : Option Nat)
  | text (length : Option Nat)
  | array (length : Option Nat)
  | map (length : Option Nat)
  | tag (n : Nat)
  | simple (n : Nat)
  | float
  | break

/-- The head with this major type whose argument `n` is in the form with low bits `info`. -/
def Head.ofArgument (major info n : Nat) : Head :=
  match major with
  | 0 => .unsigned n
  | 1 => .negative n
  | 2 => .bytes (some n)
  | 3 => .text (some n)
  | 4 => .array (some n)
  | 5 => .map (some n)
  | 6 => .tag n
  | _ => if info ≤ 24 then .simple n else .float

/-- The head of this major type without an argument, if it has one. -/
def Head.openEnded? (major : Nat) : Option Head :=
  match major with
  | 2 => some (.bytes none)
  | 3 => some (.text none)
  | 4 => some (.array none)
  | 5 => some (.map none)
  | 7 => some .break
  | _ => none

def readHead : Reader Head
  | [] => .error .endOfInput
  | first :: rest =>
    let major := first.toNat / 32
    let info := first.toNat % 32
    let argument (width : Nat) : Except ReadError (Head × Bytes) :=
      match Bytes.split? width rest with
      | none => .error .endOfInput
      | some (bytes, rest) => .ok (Head.ofArgument major info bytes.toNatBE, rest)
    if info < 24 then .ok (Head.ofArgument major info info, rest)
    else if info = 24 then argument 1
    else if info = 25 then argument 2
    else if info = 26 then argument 4
    else if info = 27 then argument 8
    else if info = 31 then
      match Head.openEnded? major with
      | some head => .ok (head, rest)
      | none => .error (.malformed (first :: rest))
    else .error (.malformed (first :: rest))

/-! ## Strings -/

/-- Reads `length` bytes. -/
def readBytes (length : Nat) : Reader Bytes := fun input =>
  match Bytes.split? length input with
  | some found => .ok found
  | none => .error .endOfInput

/-- Long texts are checked in pieces of this many bytes while they are read. -/
def pieceSize : Nat := 4096

/-- How many bytes at the end of a piece, at most three, are left to be checked with the next one:
    as few as make the rest UTF-8. -/
def openTail? (piece : Bytes) : Option Nat :=
  [0, 1, 2, 3].find? fun n => (Bytes.toText? (piece.take (piece.length - n))).isSome

/-- Whether a long text of which only `present` is there has a fault in one of the full pieces.
    `carried` is the unchecked end of the piece before. -/
def hasBadPiece : (fuel : Nat) → (carried present : Bytes) → Bool
  | 0, _, _ => false
  | fuel + 1, carried, present =>
    match Bytes.split? (pieceSize - carried.length) present with
    | none => false
    | some (more, rest) =>
      let piece := carried ++ more
      match openTail? piece with
      | none => true
      | some n => hasBadPiece fuel (piece.drop (piece.length - n)) rest

/-- Reads a text of `length` bytes. A text that is no UTF-8 is reported at `fault`; where the input
    ends inside the text, that is what is reported, unless an earlier piece was no UTF-8. -/
def readText (fault : Bytes) (length : Nat) : Reader String := fun input =>
  match Bytes.split? length input with
  | some (content, rest) =>
    match Bytes.toText? content with
    | some text => .ok (text, rest)
    | none => .error (.malformed fault)
  | none =>
    if pieceSize < length ∧ hasBadPiece input.length [] input then .error (.malformed fault)
    else .error .endOfInput

/-- Reads the segments of an open-ended string up to the break that closes it. `length?` tells the
    heads of segments: with a length, or open-ended again and then `nesting` one deeper. -/
def readSegments {α : Type} (length? : Head → Option (Option Nat))
    (content : (fault : Bytes) → (length : Nat) → Reader α) :
    (fuel nesting : Nat) → Reader (List α)
  | 0, _, _ => .error .endOfInput
  | fuel + 1, nesting, input =>
    match readHead input with
    | .error e => .error e
    | .ok (.break, rest) =>
      match nesting with
      | 0 => .ok ([], rest)
      | outer + 1 => readSegments length? content fuel outer rest
    | .ok (head, rest) =>
      match length? head with
      | none => .error (.malformed input)
      | some none => readSegments length? content fuel (nesting + 1) rest
      | some (some length) =>
        match content input length rest with
        | .error e => .error e
        | .ok (found, rest) =>
          match readSegments length? content fuel nesting rest with
          | .error e => .error e
          | .ok (more, rest) => .ok (found :: more, rest)

/-- The segments of a byte string. -/
def byteSegment? : Head → Option (Option Nat)
  | .bytes length => some length
  | _ => none

/-- The segments of a text. -/
def textSegment? : Head → Option (Option Nat)
  | .text length => some length
  | _ => none

/-! ## Repetition -/

/-- Reads `n` times. -/
def readMany {α : Type} (step : Reader α) : (n : Nat) → Reader (List α)
  | 0, input => .ok ([], input)
  | n + 1, input =>
    match step input with
    | .error e => .error e
    | .ok (found, rest) =>
      match readMany step n rest with
      | .error e => .error e
      | .ok (more, rest) => .ok (found :: more, rest)

/-- Reads until a break stands where the next reading would start. -/
def readUntilBreak {α : Type} (step : Reader α) : (fuel : Nat) → Reader (List α)
  | 0, _ => .error .endOfInput
  | fuel + 1, input =>
    match readHead input with
    | .error e => .error e
    | .ok (.break, rest) => .ok ([], rest)
    | .ok _ =>
      match step input with
      | .error e => .error e
      | .ok (found, rest) =>
        match readUntilBreak step fuel rest with
        | .error e => .error e
        | .ok (more, rest) => .ok (found :: more, rest)

/-- Reads one thing after the other. -/
def readPair {α β : Type} (first : Reader α) (second : Reader β) : Reader (α × β) := fun input =>
  match first input with
  | .error e => .error e
  | .ok (a, rest) =>
    match second rest with
    | .error e => .error e
    | .ok (b, rest) => .ok ((a, b), rest)

/-- Reads a given number of times, or until a break where no number is given. -/
def readSequence {α : Type} (step : Reader α) (length? : Option Nat) : Reader (List α) :=
  match length? with
  | some n => readMany step n
  | none => fun input => readUntilBreak step (input.length + 1) input

/-! ## Items -/

/-- A tag that announces a big number: tag 2 or 3 before a byte string of at most 16 bytes. -/
def bigNumberLength? (tag : Nat) : Head → Option Nat
  | .bytes (some length) => if (tag = 2 ∨ tag = 3) ∧ length ≤ 16 then some length else none
  | _ => none

/-- The simple values that have a meaning. Undefined reads as null. -/
def simpleItem? : Nat → Option Item
  | 20 => some (.bool false)
  | 21 => some (.bool true)
  | 22 => some .null
  | 23 => some .null
  | _ => none

/-- Where a text that is no UTF-8 is reported: at its head, or as many bytes into the head as it is
    longer than need be. -/
def textFault (input rest : Bytes) (length : Nat) : Bytes :=
  input.drop (input.length - rest.length - (head .text length).length)

/-- Reads an item that needs no depth, or says how a deeper one goes on. `inner` reads an item one
    level deeper, if there is one. -/
def readItemWith (inner : Option (Reader Item)) : Reader Item := fun input =>
  let enter {α : Type} (go : Reader Item → Except ReadError α) : Except ReadError α :=
    match inner with
    | none => .error .tooDeep
    | some read => go read
  match readHead input with
  | .error e => .error e
  | .ok (.unsigned n, rest) => .ok (.int n, rest)
  | .ok (.negative n, rest) => .ok (.int (-1 - n), rest)
  | .ok (.bytes (some length), rest) =>
    (readBytes length rest).map fun (content, rest) => (.bytes content, rest)
  | .ok (.bytes none, rest) =>
    (readSegments byteSegment? (fun _ => readBytes) (rest.length + 1) 0 rest).map
      fun (contents, rest) => (.bytes contents.flatten, rest)
  | .ok (.text (some length), rest) =>
    (readText (textFault input rest length) length rest).map
      fun (content, rest) => (.text content, rest)
  | .ok (.text none, rest) =>
    (readSegments textSegment? readText (rest.length + 1) 0 rest).map
      fun (contents, rest) => (.text (String.join contents), rest)
  | .ok (.array length, rest) =>
    enter fun item => (readSequence item length rest).map fun (items, rest) => (.array items, rest)
  | .ok (.map length, rest) =>
    enter fun item => (readSequence (readPair item item) length rest).map
      fun (entries, rest) => (.map entries, rest)
  | .ok (.tag tag, rest) =>
    match readHead rest with
    | .error e => .error e
    | .ok (next, content) =>
      match bigNumberLength? tag next with
      | some length =>
        match readBytes length content with
        | .error e => .error e
        | .ok (digits, rest) =>
          if tag = 3 ∧ (1 <<< 127) ≤ digits.toNatBE then .error .numberTooLarge
          else .ok (.other, rest)
      | none => enter fun item => (item rest).map fun (_, rest) => (.other, rest)
  | .ok (.simple n, rest) =>
    match simpleItem? n with
    | some item => .ok (item, rest)
    | none => .error .unknownSimple
  | .ok (.float, rest) => .ok (.other, rest)
  | .ok (.break, _) => .error .strayBreak

/-- Reads an item in which arrays, maps and tags nest at most `depth` deep. -/
def readItem : (depth : Nat) → Reader Item
  | 0 => readItemWith none
  | depth + 1 => readItemWith (some (readItem depth))

/-- How deep arrays, maps and tags may nest. -/
def maxDepth : Nat := 256

end TokenLedger.Cbor
