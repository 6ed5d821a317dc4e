import Mathlib.Data.List.TakeWhile
import TokenLedger.Json.Reader

/-! # The grammar of JSON

Which texts are JSON, and for which value, said without the reader.  Each relation takes
something off the front of an input and leaves a rest: blanks, the parts of a number, the
pieces of a string, and with `Spelled` a value or what is inside of one.  A text spells a
value if nothing but blanks is around it (`Spells`).

The grammar takes blanks and digits as it likes.  What it leaves is always shorter, except
behind blanks and behind parts of a number that need not be there.
-/

namespace TokenLedger.Json

variable {input rest : List Char}

/-! ## Blanks -/

/-- What is left of an input where some of the blanks at its front are passed over. -/
inductive Blanks : List Char → List Char → Prop
  | none (rest : List Char) : Blanks rest rest
  | more {c : Char} {input rest : List Char} (blank : c = ' ' ∨ c = '\n' ∨ c = '\t' ∨ c = '\r')
    (others : Blanks input rest) : Blanks (c :: input) rest

theorem Blanks.length_le (blanks : Blanks input rest) : rest.length ≤ input.length := by
  induction blanks with
  | none => exact Nat.le_refl _
  | more _ _ ih => exact Nat.le_succ_of_le ih

/-! ## Numbers -/

/-- The sign of a number, and whether there is one. -/
inductive Sign : List Char → Bool → List Char → Prop
  | none (rest : List Char) : Sign rest false rest
  | minus (rest : List Char) : Sign ('-' :: rest) true rest

/-- The integer part of a number: zero, or digits of which the first is another. -/
inductive Integer : List Char → Nat → List Char → Prop
  | zero (rest : List Char) : Integer ('0' :: rest) 0 rest
  | digits {c : Char} {more : List Char} (first : c ≠ '0') (all : ∀ d ∈ c :: more, isDigit d = true)
    (rest : List Char) : Integer (c :: more ++ rest) (digitsValue (c :: more)) rest

/-- The fraction of a number, and whether there is one. -/
inductive Fraction : List Char → Bool → List Char → Prop
  | none (rest : List Char) : Fraction rest false rest
  | point {digits : List Char} (some : digits ≠ []) (all : ∀ d ∈ digits, isDigit d = true)
    (rest : List Char) : Fraction ('.' :: digits ++ rest) true rest

/-- The exponent of a number, and whether there is one. -/
inductive Exponent : List Char → Bool → List Char → Prop
  | none (rest : List Char) : Exponent rest false rest
  | power {e : Char} {sign digits : List Char} (letter : e = 'e' ∨ e = 'E')
    (signed : sign = [] ∨ sign = ['+'] ∨ sign = ['-']) (some : digits ≠ [])
    (all : ∀ d ∈ digits, isDigit d = true) (rest : List Char) :
    Exponent (e :: sign ++ digits ++ rest) true rest

/-- A number. Only one that is all integer part stands for a number that is told apart. -/
inductive Number : List Char → Value → List Char → Prop
  | mk {input unsigned behind tail rest : List Char} {n : Nat} {signed fraction exponent : Bool}
    (sign : Sign input signed unsigned) (integer : Integer unsigned n behind)
    (point : Fraction behind fraction tail) (power : Exponent tail exponent rest) :
    Number input (if signed || fraction || exponent then .otherNumber else .natural n) rest

theorem Sign.length_le {signed : Bool} (sign : Sign input signed rest) :
    rest.length ≤ input.length := by
  cases sign with
  | none => exact Nat.le_refl _
  | minus => exact Nat.le_succ _

theorem Integer.length_lt {n : Nat} (integer : Integer input n rest) :
    rest.length < input.length := by
  cases integer with
  | zero => exact Nat.lt_succ_self _
  | digits =>
    rw [List.length_append]
    exact Nat.lt_add_of_pos_left (Nat.zero_lt_succ _)

theorem Fraction.length_le {fraction : Bool} (spelled : Fraction input fraction rest) :
    rest.length ≤ input.length := by
  cases spelled with
  | none => exact Nat.le_refl _
  | point => simp only [List.length_append, Nat.le_add_left]

theorem Exponent.length_le {exponent : Bool} (spelled : Exponent input exponent rest) :
    rest.length ≤ input.length := by
  cases spelled with
  | none => exact Nat.le_refl _
  | power => simp only [List.length_append, Nat.le_add_left]

theorem Number.length_lt {value : Value} (number : Number input value rest) :
    rest.length < input.length := by
  obtain ⟨sign, integer, point, power⟩ := number
  have behind := power.length_le.trans point.length_le
  exact behind.trans_lt (integer.length_lt.trans_le sign.length_le)

/-! ## Strings -/

/-- The pieces of a string up to the closing quote. -/
inductive Pieces : List Char → List Piece → List Char → Prop
  | close (rest : List Char) : Pieces ('"' :: rest) [] rest
  | char {c : Char} {input rest : List Char} {pieces : List Piece} (quote : c ≠ '"')
    (backslash : c ≠ '\\') (printed : ¬c.toNat < 32) (more : Pieces input pieces rest) :
    Pieces (c :: input) (.char c :: pieces) rest
  | short {e c : Char} {input rest : List Char} {pieces : List Piece}
    (escape : shortEscape? e = some c) (more : Pieces input pieces rest) :
    Pieces ('\\' :: e :: input) (.char c :: pieces) rest
  | unit {a b c d : Char} {w x y z : Nat} {input rest : List Char} {pieces : List Piece}
    (first : hexValue? a = some w) (second : hexValue? b = some x) (third : hexValue? c = some y)
    (fourth : hexValue? d = some z) (more : Pieces input pieces rest) :
    Pieces ('\\' :: 'u' :: a :: b :: c :: d :: input)
      (.unit (4096 * w + 256 * x + 16 * y + z) :: pieces) rest

theorem Pieces.length_lt {pieces : List Piece} (spelled : Pieces input pieces rest) :
    rest.length < input.length := by
  induction spelled with
  | close => exact Nat.lt_succ_self _
  | char _ _ _ _ ih => exact ih.trans (Nat.lt_succ_self _)
  | short _ _ ih => exact Nat.lt_succ_of_lt (Nat.lt_succ_of_lt ih)
  | unit _ _ _ _ _ ih =>
    simp only [List.length_cons]
    omega

/-! ## Values -/

/-- The name of a member, with what stands around it up to the value. -/
inductive Name : List Char → Text → List Char → Prop
  | mk {input first colon behind rest : List Char} {pieces : List Piece}
    (quote : Blanks input ('"' :: first)) (text : Pieces first pieces colon)
    (between : Blanks colon (':' :: behind)) (blanks : Blanks behind rest) :
    Name input (textOfPieces pieces) rest

/-- What a part of a text stands for: a value, or what is in an array or an object up to its
    end. -/
inductive Part where
  | value (value : Value)
  | items (items : List Value)
  | members (members : List (Text × Value))

/-- What is left of an input behind a part of a text. -/
inductive Spelled : List Char → Part → List Char → Prop
  | null (rest : List Char) : Spelled ("null".toList ++ rest) (.value .null) rest
  | true (rest : List Char) : Spelled ("true".toList ++ rest) (.value (.bool .true)) rest
  | false (rest : List Char) : Spelled ("false".toList ++ rest) (.value (.bool .false)) rest
  | number {input rest : List Char} {value : Value} (spelled : Number input value rest) :
    Spelled input (.value value) rest
  | string {input rest : List Char} {pieces : List Piece} (spelled : Pieces input pieces rest) :
    Spelled ('"' :: input) (.value (.string (textOfPieces pieces))) rest
  | emptyArray {input rest : List Char} (close : Blanks input (']' :: rest)) :
    Spelled ('[' :: input) (.value (.array [])) rest
  | array {input rest : List Char} {items : List Value}
    (spelled : Spelled input (.items items) rest) :
    Spelled ('[' :: input) (.value (.array items)) rest
  | emptyObject {input rest : List Char} (close : Blanks input ('\x7d' :: rest)) :
    Spelled ('\x7b' :: input) (.value (.object [])) rest
  | object {input rest : List Char} {members : List (Text × Value)}
    (spelled : Spelled input (.members members) rest) :
    Spelled ('\x7b' :: input) (.value (.object members)) rest
  | lastItem {input start behind rest : List Char} {item : Value} (before : Blanks input start)
    (spelled : Spelled start (.value item) behind) (close : Blanks behind (']' :: rest)) :
    Spelled input (.items [item]) rest
  | item {input start behind next rest : List Char} {item : Value} {items : List Value}
    (before : Blanks input start) (spelled : Spelled start (.value item) behind)
    (comma : Blanks behind (',' :: next)) (others : Spelled next (.items items) rest) :
    Spelled input (.items (item :: items)) rest
  | lastMember {input start behind rest : List Char} {text : Text} {value : Value}
    (name : Name input text start) (spelled : Spelled start (.value value) behind)
    (close : Blanks behind ('\x7d' :: rest)) : Spelled input (.members [(text, value)]) rest
  | member {input start behind next rest : List Char} {text : Text} {value : Value}
    {members : List (Text × Value)} (name : Name input text start)
    (spelled : Spelled start (.value value) behind) (comma : Blanks behind (',' :: next))
    (others : Spelled next (.members members) rest) :
    Spelled input (.members ((text, value) :: members)) rest

/-- Whether a text is JSON and which value it is: nothing but blanks is around it. -/
def Spells (text : String) (value : Value) : Prop :=
  ∃ start behind, Blanks text.toList start ∧ Spelled start (.value value) behind ∧ Blanks behind []

theorem Name.length_lt {text : Text} (name : Name input text rest) :
    rest.length < input.length := by
  obtain ⟨quote, text, between, blanks⟩ := name
  have lengths := And.intro quote.length_le between.length_le
  have := text.length_lt
  have := blanks.length_le
  simp only [List.length_cons] at lengths
  omega

theorem Spelled.length_lt {part : Part} (spelled : Spelled input part rest) :
    rest.length < input.length := by
  induction spelled with
  | null | true | false =>
    rw [List.length_append]
    exact Nat.lt_add_of_pos_left (by decide)
  | number spelled => exact spelled.length_lt
  | string spelled => exact Nat.lt_succ_of_lt spelled.length_lt
  | emptyArray close | emptyObject close => exact Nat.lt_succ_of_lt close.length_le
  | array _ ih | object _ ih => exact Nat.lt_succ_of_lt ih
  | lastItem before _ close ih =>
    exact (Nat.lt_of_succ_le close.length_le).trans (ih.trans_le before.length_le)
  | item before _ comma _ ih ih' =>
    have comma := Nat.lt_of_succ_le comma.length_le
    exact ih'.trans (comma.trans (ih.trans_le before.length_le))
  | lastMember name _ close ih =>
    exact (Nat.lt_of_succ_le close.length_le).trans (ih.trans name.length_lt)
  | member name _ comma _ ih ih' =>
    have comma := Nat.lt_of_succ_le comma.length_le
    exact ih'.trans (comma.trans (ih.trans name.length_lt))

end TokenLedger.Json
