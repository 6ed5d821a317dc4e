import TokenLedger.Proofs.Json.Grammar

/-! # Reading what has no parts

The reader of blanks, of numbers and of strings takes off an input what the grammar does.
It takes all the blanks and digits there are.  For blanks that is no matter, as nothing
begins with one.  A number is told from what follows it only if the input does not go on
as a number would (`EndsNumber`), as no input does behind a whole value.
-/

namespace TokenLedger.Json

variable {input rest : List Char}

/-! ## Blanks -/

theorem skipBlanks_cons {c : Char} {rest : List Char}
    (solid : ¬(c = ' ' ∨ c = '\n' ∨ c = '\t' ∨ c = '\r')) :
    skipBlanks (c :: rest) = c :: rest := by
  rw [skipBlanks, if_neg solid]

theorem blanks_skipBlanks (input : List Char) : Blanks input (skipBlanks input) := by
  induction input with
  | nil => exact .none []
  | cons c rest ih =>
    rw [skipBlanks]
    split
    next blank => exact .more blank ih
    · exact .none _

theorem Blanks.skipBlanks_eq (blanks : Blanks input rest) : skipBlanks input = skipBlanks rest := by
  induction blanks with
  | none => rfl
  | more blank _ ih => rw [skipBlanks, if_pos blank, ih]

theorem Blanks.skipBlanks_eq_cons {c : Char} (blanks : Blanks input (c :: rest))
    (solid : ¬(c = ' ' ∨ c = '\n' ∨ c = '\t' ∨ c = '\r')) : skipBlanks input = c :: rest :=
  blanks.skipBlanks_eq.trans (skipBlanks_cons solid)

/-! ## Numbers -/

/-- Whether a number in front is not taken to go on. -/
def EndsNumber (rest : List Char) : Prop :=
  ∀ c ∈ rest.head?, isDigit c = false ∧ c ≠ '.' ∧ c ≠ 'e' ∧ c ≠ 'E'

theorem endsNumber_cons {c : Char} (other : isDigit c = false ∧ c ≠ '.' ∧ c ≠ 'e' ∧ c ≠ 'E')
    (rest : List Char) : EndsNumber (c :: rest) := by
  rintro c ⟨⟩
  exact other

theorem Blanks.endsNumber {c : Char} (blanks : Blanks input (c :: rest))
    (other : isDigit c = false ∧ c ≠ '.' ∧ c ≠ 'e' ∧ c ≠ 'E') : EndsNumber input := by
  cases blanks with
  | none => exact endsNumber_cons other rest
  | more blank _ =>
    refine endsNumber_cons ?_ _
    rcases blank with rfl | rfl | rfl | rfl <;> decide

theorem Blanks.endsNumber_of_nil (blanks : Blanks input []) : EndsNumber input := by
  cases blanks with
  | none => exact nofun
  | more blank _ =>
    refine endsNumber_cons ?_ _
    rcases blank with rfl | rfl | rfl | rfl <;> decide

/-- Whether digits in front are not taken to go on. -/
def EndsDigits (rest : List Char) : Prop := ∀ c ∈ rest.head?, isDigit c = false

theorem EndsNumber.endsDigits (ends : EndsNumber rest) : EndsDigits rest :=
  fun c front => (ends c front).1

theorem splitDigits_append {digits : List Char} (all : ∀ c ∈ digits, isDigit c = true)
    (ends : EndsDigits rest) : splitDigits (digits ++ rest) = (digits, rest) := by
  have stop : rest.takeWhile isDigit = [] ∧ rest.dropWhile isDigit = rest := by
    cases rest with
    | nil => exact ⟨rfl, rfl⟩
    | cons c rest => simp [ends c rfl]
  rw [splitDigits, List.takeWhile_append_of_pos all, List.dropWhile_append_of_pos all, stop.1,
    stop.2, List.append_nil]

theorem splitDigits_eq {digits : List Char} (split : splitDigits input = (digits, rest)) :
    input = digits ++ rest ∧ (∀ c ∈ digits, isDigit c = true) ∧ EndsDigits rest := by
  cases split
  refine ⟨(List.takeWhile_append_dropWhile ..).symm, fun c member => ?_, fun c front => ?_⟩
  · exact List.mem_takeWhile_imp member
  · have stops := List.head?_dropWhile_not isDigit input
    rw [Option.mem_def.mp front] at stops
    simpa using stops

theorem readInteger_eq_some {n : Nat} (read : readInteger input = some (n, rest)) :
    Integer input n rest := by
  rw [readInteger] at read
  cases split : splitDigits input with
  | mk digits tail =>
    obtain ⟨rfl, all, _⟩ := splitDigits_eq split
    simp only [split] at read
    split at read
    · cases read
    · cases read
      exact .zero rest
    · cases read
    next none _ other =>
      cases read
      obtain ⟨c, more, rfl⟩ := List.exists_cons_of_ne_nil none
      refine .digits ?_ all rest
      rintro rfl
      exact other more rfl

theorem Integer.read {n : Nat} (integer : Integer input n rest) (ends : EndsDigits rest) :
    readInteger input = some (n, rest) := by
  cases integer with
  | zero rest =>
    have split : splitDigits (['0'] ++ rest) = _ :=
      splitDigits_append (List.forall_mem_singleton.mpr rfl) ends
    rw [List.singleton_append] at split
    simp only [readInteger, split]
  | digits first all rest =>
    simp only [readInteger, splitDigits_append all ends]
    split
    next none => cases none
    next zero =>
      cases zero
      exact absurd rfl first
    next zero =>
      cases zero
      exact absurd rfl first
    · rfl

theorem skipFraction_eq_some {fraction : Bool} (read : skipFraction input = some (fraction, rest)) :
    Fraction input fraction rest := by
  rw [skipFraction.eq_def] at read
  split at read
  next behind =>
    cases split : splitDigits behind with
    | mk digits tail =>
      obtain ⟨rfl, all, _⟩ := splitDigits_eq split
      simp only [split] at read
      cases digits with
      | nil => cases read
      | cons d more =>
        cases read
        exact .point (List.cons_ne_nil d more) all rest
  · cases read
    exact .none _

theorem Fraction.read {fraction : Bool} (spelled : Fraction input fraction rest)
    (ends : ∀ c ∈ rest.head?, isDigit c = false ∧ c ≠ '.') :
    skipFraction input = some (fraction, rest) := by
  cases spelled with
  | none rest =>
    rw [skipFraction.eq_def]
    split
    · exact absurd rfl (ends '.' rfl).2
    · rfl
  | @point digits some all rest =>
    obtain ⟨d, more, rfl⟩ := List.exists_cons_of_ne_nil some
    simp only [List.cons_append, skipFraction]
    rw [← List.cons_append, splitDigits_append all fun c front => (ends c front).1]

/-- The digits of an exponent, of which there is one at least. -/
def readPower (input : List Char) : Option (Bool × List Char) :=
  match splitDigits input with
  | ([], _) => none
  | (_, rest) => some (true, rest)

theorem skipExponent_eq_some {exponent : Bool} (read : skipExponent input = some (exponent, rest)) :
    Exponent input exponent rest := by
  rw [skipExponent.eq_def] at read
  split at read
  next e behind =>
    split at read
    next letter =>
      -- a sign in front of the digits may be there or not
      obtain ⟨sign, tail, signed, rfl, found⟩ : ∃ sign tail,
          (sign = [] ∨ sign = ['+'] ∨ sign = ['-']) ∧ behind = sign ++ tail ∧
          readPower tail = some (exponent, rest) := by
        split at read
        · exact ⟨['+'], _, .inr (.inl rfl), rfl, read⟩
        · exact ⟨['-'], _, .inr (.inr rfl), rfl, read⟩
        · exact ⟨[], _, .inl rfl, rfl, read⟩
      cases split : splitDigits tail with
      | mk digits tail =>
        obtain ⟨rfl, all, _⟩ := splitDigits_eq split
        simp only [readPower, split] at found
        cases digits with
        | nil => cases found
        | cons d more =>
          cases found
          have power := Exponent.power letter signed (List.cons_ne_nil d more) all rest
          rwa [List.cons_append, List.cons_append, List.append_assoc] at power
    · cases read
      exact .none _
  · cases read
    exact .none []

theorem Exponent.read {exponent : Bool} (spelled : Exponent input exponent rest)
    (ends : EndsNumber rest) : skipExponent input = some (exponent, rest) := by
  cases spelled with
  | none =>
    cases input with
    | nil => rfl
    | cons c rest =>
      obtain ⟨_, _, lower, upper⟩ := ends c rfl
      simp [skipExponent.eq_def, lower, upper]
  | @power e sign digits letter signed some all rest =>
    obtain ⟨d, more, rfl⟩ := List.exists_cons_of_ne_nil some
    have split := splitDigits_append all ends.endsDigits
    have digit := all d List.mem_cons_self
    have plus : d ≠ '+' := by
      rintro rfl
      cases digit
    have minus : d ≠ '-' := by
      rintro rfl
      cases digit
    rw [List.cons_append] at split
    rcases signed with rfl | rfl | rfl <;>
      simp [skipExponent, letter, split, plus, minus]

/-- What is left behind the integer part does not go on with a digit. -/
theorem Exponent.ends {exponent : Bool} (spelled : Exponent input exponent rest)
    (ends : EndsNumber rest) : ∀ c ∈ input.head?, isDigit c = false ∧ c ≠ '.' := by
  cases spelled with
  | none rest => exact fun c front => ⟨(ends c front).1, (ends c front).2.1⟩
  | power letter =>
    rintro c ⟨⟩
    rcases letter with rfl | rfl <;> decide

theorem Fraction.ends {fraction : Bool} (spelled : Fraction input fraction rest)
    (ends : EndsDigits rest) : EndsDigits input := by
  cases spelled with
  | none rest => exact ends
  | point =>
    rintro c ⟨⟩
    decide

/-- Reads a number behind its sign. -/
def readUnsigned (signed : Bool) (input : List Char) : Option (Value × List Char) := do
  let (n, rest) ← readInteger input
  let (fraction, rest) ← skipFraction rest
  let (exponent, rest) ← skipExponent rest
  return (if signed || fraction || exponent then .otherNumber else .natural n, rest)

theorem readNumber_minus (input : List Char) :
    readNumber ('-' :: input) = readUnsigned true input := rfl

theorem readNumber_unsigned (unsigned : input.head? ≠ some '-') :
    readNumber input = readUnsigned false input := by
  cases input with
  | nil => rfl
  | cons c rest =>
    have other : c ≠ '-' := fun minus => unsigned (congrArg some minus)
    simp [readNumber, readUnsigned, other]

theorem readUnsigned_eq_some {signed : Bool} {value : Value} {start : List Char}
    (sign : Sign start signed input) (read : readUnsigned signed input = some (value, rest)) :
    Number start value rest := by
  simp only [readUnsigned, Option.bind_eq_bind, Option.bind_eq_some_iff, Option.pure_def] at read
  obtain ⟨⟨n, behind⟩, integer, ⟨fraction, tail⟩, point, ⟨exponent, last⟩, power, done⟩ := read
  cases done
  exact .mk sign (readInteger_eq_some integer) (skipFraction_eq_some point)
    (skipExponent_eq_some power)

theorem readNumber_eq_some {value : Value} (read : readNumber input = some (value, rest)) :
    Number input value rest := by
  by_cases minus : input.head? = some '-'
  · obtain ⟨behind, rfl⟩ := List.head?_eq_some_iff.mp minus
    rw [readNumber_minus] at read
    exact readUnsigned_eq_some (.minus behind) read
  · rw [readNumber_unsigned minus] at read
    exact readUnsigned_eq_some (.none input) read

theorem Integer.head?_ne {n : Nat} (integer : Integer input n rest) : input.head? ≠ some '-' := by
  cases integer with
  | zero => simp
  | digits first all =>
    rintro ⟨⟩
    cases all '-' List.mem_cons_self

theorem readUnsigned_eq {n : Nat} {fraction exponent : Bool} {behind tail : List Char}
    (integer : Integer input n behind) (point : Fraction behind fraction tail)
    (power : Exponent tail exponent rest) (ends : EndsNumber rest) (signed : Bool) :
    readUnsigned signed input =
      some (if signed || fraction || exponent then .otherNumber else .natural n, rest) := by
  have front := power.ends ends
  have whole : EndsDigits behind := point.ends fun c head => (front c head).1
  simp only [readUnsigned, integer.read whole, point.read front, power.read ends,
    Option.bind_eq_bind, Option.bind_some, Option.pure_def]

theorem Number.read {value : Value} (number : Number input value rest) (ends : EndsNumber rest) :
    readNumber input = some (value, rest) := by
  obtain ⟨sign, integer, point, power⟩ := number
  have read := readUnsigned_eq integer point power ends
  cases sign with
  | none => exact (readNumber_unsigned integer.head?_ne).trans (read false)
  | minus => exact (readNumber_minus _).trans (read true)

/-- A number begins with its sign or with a digit. -/
theorem Number.front {value : Value} (number : Number input value rest) :
    ∃ c more, input = c :: more ∧ ∀ d, d ≠ '-' → isDigit d = false → c ≠ d := by
  obtain ⟨sign, integer, point, power⟩ := number
  cases sign with
  | minus => exact ⟨'-', _, rfl, fun d other _ => other.symm⟩
  | none =>
    cases integer with
    | zero => exact ⟨'0', _, rfl, by rintro d _ other rfl; cases other⟩
    | digits first all =>
      refine ⟨_, _, rfl, ?_⟩
      rintro d _ other rfl
      rw [all _ List.mem_cons_self] at other
      cases other

/-! ## Strings -/

theorem readUnit_eq_some {n : Nat} (read : readUnit input = some (n, rest)) :
    ∃ a b c d w x y z, input = a :: b :: c :: d :: rest ∧ hexValue? a = some w ∧
      hexValue? b = some x ∧ hexValue? c = some y ∧ hexValue? d = some z ∧
      n = 4096 * w + 256 * x + 16 * y + z := by
  rw [readUnit.eq_def] at read
  split at read
  · simp only [Option.bind_eq_bind, Option.bind_eq_some_iff, Option.pure_def] at read
    obtain ⟨w, first, x, second, y, third, z, fourth, done⟩ := read
    cases done
    exact ⟨_, _, _, _, w, x, y, z, rfl, first, second, third, fourth, rfl⟩
  · cases read

theorem readPieces_eq_some {fuel : Nat} {pieces : List Piece}
    (read : readPieces fuel input = some (pieces, rest)) : Pieces input pieces rest := by
  induction fuel generalizing input pieces with
  | zero => cases read
  | succ fuel ih =>
    rw [readPieces.eq_def] at read
    dsimp only at read
    split at read
    · cases read
    · cases read
      exact .close _
    · split at read
      · cases read
      next unit =>
        obtain ⟨⟨pieces, rest⟩, more, done⟩ := Option.map_eq_some_iff.mp read
        cases done
        obtain ⟨a, b, c, d, w, x, y, z, rfl, first, second, third, fourth, rfl⟩ :=
          readUnit_eq_some unit
        exact .unit first second third fourth (ih more)
    · split at read
      · cases read
      next escape =>
        obtain ⟨⟨pieces, rest⟩, more, done⟩ := Option.map_eq_some_iff.mp read
        cases done
        exact .short escape (ih more)
    · cases read
    next behind quote _ short last =>
      split at read
      · cases read
      next printed =>
        obtain ⟨⟨pieces, rest⟩, more, done⟩ := Option.map_eq_some_iff.mp read
        cases done
        refine .char quote ?_ printed (ih more)
        rintro rfl
        -- a backslash in front of anything, or of nothing, is settled above
        cases behind with
        | nil => exact last rfl rfl
        | cons e behind => exact short e behind rfl rfl

theorem readPieces_char {c : Char} (quote : c ≠ '"') (backslash : c ≠ '\\')
    (printed : ¬c.toNat < 32) (fuel : Nat) (input : List Char) :
    readPieces (fuel + 1) (c :: input) =
      (readPieces fuel input).map fun (more, rest) => (.char c :: more, rest) := by
  rw [readPieces.eq_def]
  simp [backslash, printed]

theorem readPieces_short {e c : Char} (escape : shortEscape? e = some c) (fuel : Nat)
    (input : List Char) : readPieces (fuel + 1) ('\\' :: e :: input) =
      (readPieces fuel input).map fun (more, rest) => (.char c :: more, rest) := by
  have letter : e ≠ 'u' := by
    rintro rfl
    cases escape
  rw [readPieces.eq_def]
  simp [escape]

theorem Pieces.read {pieces : List Piece} (spelled : Pieces input pieces rest) {fuel : Nat}
    (enough : input.length ≤ fuel) : readPieces fuel input = some (pieces, rest) := by
  induction spelled generalizing fuel with
  | close rest =>
    cases fuel with
    | zero => cases enough
    | succ fuel => rw [readPieces]
  | char quote backslash printed _ ih =>
    cases fuel with
    | zero => cases enough
    | succ fuel =>
      rw [readPieces_char quote backslash printed, ih (Nat.le_of_succ_le_succ enough)]
      rfl
  | short escape _ ih =>
    cases fuel with
    | zero => cases enough
    | succ fuel =>
      rw [readPieces_short escape, ih (Nat.le_of_succ_le (Nat.le_of_succ_le_succ enough))]
      rfl
  | unit first second third fourth _ ih =>
    cases fuel with
    | zero => cases enough
    | succ fuel =>
      simp only [List.length_cons] at enough
      simp [readPieces, readUnit, first, second, third, fourth, @ih fuel (by omega)]

theorem readText_eq_some {text : Text} (read : readText input = some (text, rest)) :
    ∃ pieces, Pieces input pieces rest ∧ textOfPieces pieces = text := by
  obtain ⟨⟨pieces, behind⟩, found, done⟩ := Option.map_eq_some_iff.mp read
  cases done
  exact ⟨pieces, readPieces_eq_some found, rfl⟩

theorem readText_eq {pieces : List Piece} (spelled : Pieces input pieces rest) :
    readText input = some (textOfPieces pieces, rest) := by
  rw [readText, spelled.read (Nat.le_succ _)]
  rfl

end TokenLedger.Json
