import TokenLedger.Proofs.Json.Scanning

/-! # Which texts the reader accepts

The reader answers with a value just for the texts that spell it (`ofText?_eq_some_iff`).
That what is read is spelled goes by the calls that are left, for the three parts of the
reader together (`Sound`).  The other way the calls must not run out (`Spelled.isRead`):
the reader counts them down from the length of the input, and each of them is for
something that is taken off it.
-/

namespace TokenLedger.Json

variable {input rest : List Char}

/-! ## Blanks in front -/

theorem readValue_of_blanks (blanks : Blanks input rest) (fuel : Nat) :
    readValue fuel input = readValue fuel rest := by
  cases fuel with
  | zero => rfl
  | succ fuel => rw [readValue, readValue, blanks.skipBlanks_eq]

theorem readItems_of_blanks (blanks : Blanks input rest) (fuel : Nat) :
    readItems fuel input = readItems fuel rest := by
  cases fuel with
  | zero => rfl
  | succ fuel => rw [readItems, readItems, readValue_of_blanks blanks]

theorem readMembers_of_blanks (blanks : Blanks input rest) (fuel : Nat) :
    readMembers fuel input = readMembers fuel rest := by
  cases fuel with
  | zero => rfl
  | succ fuel => rw [readMembers, readMembers, blanks.skipBlanks_eq]

/-! ## What is read is spelled -/

theorem skipWord_eq_some {word : List Char} (read : skipWord word input = some rest) :
    input = word ++ rest := by
  induction word generalizing input with
  | nil =>
    cases read
    rfl
  | cons w word ih =>
    cases input with
    | nil => cases read
    | cons c input =>
      rw [skipWord] at read
      split at read
      next same => rw [same, List.cons_append, ih read]
      · cases read

theorem Spelled.of_skipWord {word : List Char} {value meaning : Value}
    (spelled : ∀ rest, Spelled (word ++ rest) (.value meaning) rest)
    (read : (skipWord word input).map (fun rest => (meaning, rest)) = some (value, rest)) :
    Spelled input (.value value) rest := by
  obtain ⟨behind, found, done⟩ := Option.map_eq_some_iff.mp read
  cases done
  rw [skipWord_eq_some found]
  exact spelled rest

theorem readSimple_eq_some {value : Value} (read : readSimple input = some (value, rest)) :
    Spelled input (.value value) rest := by
  rw [readSimple.eq_def] at read
  split at read
  · exact .of_skipWord .null read
  · exact .of_skipWord .true read
  · exact .of_skipWord .false read
  · exact .number (readNumber_eq_some read)

/-- Whatever the reader takes off an input with some calls left is spelled there. -/
structure Sound (fuel : Nat) : Prop where
  value : ∀ {input rest value}, readValue fuel input = some (value, rest) →
    ∃ start, Blanks input start ∧ Spelled start (.value value) rest
  items : ∀ {input rest items}, readItems fuel input = some (items, rest) →
    Spelled input (.items items) rest
  members : ∀ {input rest members}, readMembers fuel input = some (members, rest) →
    Spelled input (.members members) rest

theorem Sound.readValue_succ {fuel : Nat} (sound : Sound fuel) {value : Value}
    (read : readValue (fuel + 1) input = some (value, rest)) :
    ∃ start, Blanks input start ∧ Spelled start (.value value) rest := by
  refine ⟨skipBlanks input, blanks_skipBlanks input, ?_⟩
  rw [readValue] at read
  split at read
  next front =>
    obtain ⟨⟨text, behind⟩, found, done⟩ := Option.map_eq_some_iff.mp read
    cases done
    obtain ⟨pieces, spelled, rfl⟩ := readText_eq_some found
    rw [front]
    exact .string spelled
  next behind front =>
    rw [front]
    have blanks := blanks_skipBlanks behind
    split at read
    next close =>
      cases read
      rw [close] at blanks
      exact .emptyArray blanks
    · obtain ⟨⟨items, last⟩, found, done⟩ := Option.map_eq_some_iff.mp read
      cases done
      rw [← readItems_of_blanks blanks] at found
      exact .array (sound.items found)
  next behind front =>
    rw [front]
    have blanks := blanks_skipBlanks behind
    split at read
    next close =>
      cases read
      rw [close] at blanks
      exact .emptyObject blanks
    · obtain ⟨⟨members, last⟩, found, done⟩ := Option.map_eq_some_iff.mp read
      cases done
      rw [← readMembers_of_blanks blanks] at found
      exact .object (sound.members found)
  · exact readSimple_eq_some read

theorem Sound.readItems_succ {fuel : Nat} (sound : Sound fuel) {items : List Value}
    (read : readItems (fuel + 1) input = some (items, rest)) :
    Spelled input (.items items) rest := by
  rw [readItems] at read
  split at read
  · cases read
  next item behind found =>
    obtain ⟨start, before, spelled⟩ := sound.value found
    have blanks := blanks_skipBlanks behind
    split at read
    next next comma =>
      obtain ⟨⟨more, last⟩, others, done⟩ := Option.map_eq_some_iff.mp read
      cases done
      rw [comma] at blanks
      exact .item before spelled blanks (sound.items others)
    next close =>
      cases read
      rw [close] at blanks
      exact .lastItem before spelled blanks
    · cases read

theorem Sound.readMembers_succ {fuel : Nat} (sound : Sound fuel) {members : List (Text × Value)}
    (read : readMembers (fuel + 1) input = some (members, rest)) :
    Spelled input (.members members) rest := by
  rw [readMembers] at read
  have quote := blanks_skipBlanks input
  split at read
  next first front =>
    rw [front] at quote
    split at read
    · cases read
    next text behind named =>
      obtain ⟨pieces, text, rfl⟩ := readText_eq_some named
      have colon := blanks_skipBlanks behind
      split at read
      next before between =>
        rw [between] at colon
        split at read
        · cases read
        next value behind found =>
          obtain ⟨start, blanks, spelled⟩ := sound.value found
          have name := Name.mk quote text colon blanks
          have after := blanks_skipBlanks behind
          split at read
          next comma =>
            obtain ⟨⟨more, last⟩, others, done⟩ := Option.map_eq_some_iff.mp read
            cases done
            rw [comma] at after
            exact .member name spelled after (sound.members others)
          next close =>
            cases read
            rw [close] at after
            exact .lastMember name spelled after
          · cases read
      · cases read
  · cases read

theorem sound (fuel : Nat) : Sound fuel := by
  induction fuel with
  | zero => exact ⟨nofun, nofun, nofun⟩
  | succ fuel ih => exact ⟨ih.readValue_succ, ih.readItems_succ, ih.readMembers_succ⟩

/-! ## What is spelled is read -/

theorem readItems_close (fuel : Nat) (rest : List Char) : readItems fuel (']' :: rest) = none := by
  rcases fuel with _ | _ | fuel
  · rfl
  · rfl
  · have closed : readValue (fuel + 1) (']' :: rest) = none := rfl
    rw [readItems, closed]

theorem readMembers_close (fuel : Nat) (rest : List Char) :
    readMembers fuel ('\x7d' :: rest) = none := by
  cases fuel <;> rfl

/-- What begins with an item is not the end of an array. -/
theorem readValue_array {fuel : Nat} {items : List Value}
    (read : readItems fuel input = some (items, rest)) :
    readValue (fuel + 1) ('[' :: input) = some (.array items, rest) := by
  rw [readItems_of_blanks (blanks_skipBlanks input)] at read
  have opened : skipBlanks ('[' :: input) = '[' :: input := skipBlanks_cons (by decide)
  simp only [readValue, opened]
  split
  next closed =>
    rw [closed, readItems_close] at read
    cases read
  · rw [read]
    rfl

theorem readValue_object {fuel : Nat} {members : List (Text × Value)}
    (read : readMembers fuel input = some (members, rest)) :
    readValue (fuel + 1) ('\x7b' :: input) = some (.object members, rest) := by
  rw [readMembers_of_blanks (blanks_skipBlanks input)] at read
  have opened : skipBlanks ('\x7b' :: input) = '\x7b' :: input := skipBlanks_cons (by decide)
  simp only [readValue, opened]
  split
  next closed =>
    rw [closed, readMembers_close] at read
    cases read
  · rw [read]
    rfl

theorem readItems_last {fuel : Nat} {item : Value} {start behind : List Char}
    (before : Blanks input start) (read : readValue fuel start = some (item, behind))
    (close : Blanks behind (']' :: rest)) : readItems (fuel + 1) input = some ([item], rest) := by
  rw [readItems, readValue_of_blanks before, read]
  simp only [close.skipBlanks_eq_cons (by decide)]

theorem readItems_more {fuel : Nat} {item : Value} {items : List Value}
    {start behind next : List Char} (before : Blanks input start)
    (read : readValue fuel start = some (item, behind)) (comma : Blanks behind (',' :: next))
    (others : readItems fuel next = some (items, rest)) :
    readItems (fuel + 1) input = some (item :: items, rest) := by
  rw [readItems, readValue_of_blanks before, read]
  simp only [comma.skipBlanks_eq_cons (by decide), others, Option.map_some]

theorem readMembers_last {fuel : Nat} {name : Text} {value : Value} {start behind : List Char}
    (named : Name input name start) (read : readValue fuel start = some (value, behind))
    (close : Blanks behind ('\x7d' :: rest)) :
    readMembers (fuel + 1) input = some ([(name, value)], rest) := by
  obtain ⟨quote, text, colon, blanks⟩ := named
  rw [readMembers, quote.skipBlanks_eq_cons (by decide)]
  simp only [readText_eq text, colon.skipBlanks_eq_cons (by decide), readValue_of_blanks blanks,
    read, close.skipBlanks_eq_cons (by decide)]

theorem readMembers_more {fuel : Nat} {name : Text} {value : Value}
    {members : List (Text × Value)} {start behind next : List Char}
    (named : Name input name start) (read : readValue fuel start = some (value, behind))
    (comma : Blanks behind (',' :: next)) (others : readMembers fuel next = some (members, rest)) :
    readMembers (fuel + 1) input = some ((name, value) :: members, rest) := by
  obtain ⟨quote, text, colon, blanks⟩ := named
  rw [readMembers, quote.skipBlanks_eq_cons (by decide)]
  simp only [readText_eq text, colon.skipBlanks_eq_cons (by decide), readValue_of_blanks blanks,
    read, comma.skipBlanks_eq_cons (by decide), others, Option.map_some]

/-- No other value begins as a number does. -/
theorem readValue_number {value : Value} (number : Number input value rest) (ends : EndsNumber rest)
    (fuel : Nat) : readValue (fuel + 1) input = some (value, rest) := by
  have read := number.read ends
  obtain ⟨c, more, rfl, front⟩ := number.front
  have solid : ¬(c = ' ' ∨ c = '\n' ∨ c = '\t' ∨ c = '\r') := by
    simp only [not_or]
    exact ⟨front _ (by decide) rfl, front _ (by decide) rfl, front _ (by decide) rfl,
      front _ (by decide) rfl⟩
  rw [readValue, skipBlanks_cons solid]
  split
  iterate 3 next opened => cases opened; exact absurd rfl (front _ (by decide) rfl)
  rw [readSimple.eq_def]
  split
  iterate 3 next begun => cases begun; exact absurd rfl (front _ (by decide) rfl)
  exact read

/-- Whether the reader takes a part off an input. A number has to be told from what follows it. -/
def Part.IsRead (fuel : Nat) (input rest : List Char) : Part → Prop
  | .value v => EndsNumber rest → readValue fuel input = some (v, rest)
  | .items vs => readItems fuel input = some (vs, rest)
  | .members ms => readMembers fuel input = some (ms, rest)

/-- A call is taken for what is at the front, and what is left of the input is shorter. -/
theorem Spelled.isRead {part : Part} {input rest : List Char} {fuel : Nat}
    (spelled : Spelled input part rest) (enough : input.length ≤ rest.length + fuel) :
    part.IsRead fuel input rest := by
  have shorter := spelled.length_lt
  -- on the calls that are left: a part of a part is shorter, and is read with one call less
  match fuel with
  | 0 => omega
  | fuel + 1 =>
  cases spelled with
  | null | true | false => exact fun _ => rfl
  | number spelled => exact fun ends => readValue_number spelled ends fuel
  | string spelled =>
    intro _
    rw [readValue, skipBlanks_cons (by decide)]
    simp only [readText_eq spelled, Option.map_some]
  | emptyArray close =>
    intro _
    rw [readValue, skipBlanks_cons (by decide)]
    simp only [close.skipBlanks_eq_cons (by decide)]
  | array spelled =>
    rw [List.length_cons] at enough
    have read : Part.IsRead fuel _ _ _ := Spelled.isRead spelled (by omega)
    exact fun _ => readValue_array read
  | emptyObject close =>
    intro _
    rw [readValue, skipBlanks_cons (by decide)]
    simp only [close.skipBlanks_eq_cons (by decide)]
  | object spelled =>
    rw [List.length_cons] at enough
    have read : Part.IsRead fuel _ _ _ := Spelled.isRead spelled (by omega)
    exact fun _ => readValue_object read
  | lastItem before spelled close =>
    have blanks := before.length_le
    have behind := close.length_le
    rw [List.length_cons] at behind
    have read : Part.IsRead fuel _ _ _ := Spelled.isRead spelled (by omega)
    exact readItems_last before (read (close.endsNumber (by decide))) close
  | item before spelled comma others =>
    have blanks := before.length_le
    have item := spelled.length_lt
    have behind := comma.length_le
    have last := others.length_lt
    rw [List.length_cons] at behind
    have read : Part.IsRead fuel _ _ _ := Spelled.isRead spelled (by omega)
    have more : Part.IsRead fuel _ _ _ := Spelled.isRead others (by omega)
    exact readItems_more before (read (comma.endsNumber (by decide))) comma more
  | lastMember name spelled close =>
    have front := name.length_lt
    have behind := close.length_le
    rw [List.length_cons] at behind
    have read : Part.IsRead fuel _ _ _ := Spelled.isRead spelled (by omega)
    exact readMembers_last name (read (close.endsNumber (by decide))) close
  | member name spelled comma others =>
    have front := name.length_lt
    have item := spelled.length_lt
    have behind := comma.length_le
    have last := others.length_lt
    rw [List.length_cons] at behind
    have read : Part.IsRead fuel _ _ _ := Spelled.isRead spelled (by omega)
    have more : Part.IsRead fuel _ _ _ := Spelled.isRead others (by omega)
    exact readMembers_more name (read (comma.endsNumber (by decide))) comma more
termination_by fuel

/-! ## Whole texts -/

/-- The reader answers with a value just for the texts that spell it. -/
theorem ofText?_eq_some_iff {text : String} {value : Value} :
    Value.ofText? text = some value ↔ Spells text value := by
  constructor
  · intro read
    rw [Value.ofText?] at read
    split at read
    next rest found =>
      obtain ⟨start, before, spelled⟩ := (sound _).value found
      have behind := blanks_skipBlanks rest
      split at read
      next empty =>
        cases read
        rw [List.isEmpty_iff.mp empty] at behind
        exact ⟨start, _, before, spelled, behind⟩
      · cases read
    · cases read
  · rintro ⟨start, behind, before, spelled, after⟩
    have shorter := before.length_le
    have read : Part.IsRead (2 * text.toList.length + 2) _ _ _ := spelled.isRead (by omega)
    have whole := read after.endsNumber_of_nil
    rw [← readValue_of_blanks before] at whole
    rw [Value.ofText?]
    simp only [whole, after.skipBlanks_eq]
    rfl

end TokenLedger.Json
