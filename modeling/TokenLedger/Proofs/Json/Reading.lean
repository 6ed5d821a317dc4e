import TokenLedger.Proofs.Json.Acceptance

/-! # Reading what has been written

Both texts of a value spell it, the compact one (`spelled_render`) and the one over lines
(`spelled_layout`), so that the reader answers with the value for either
(`ofText?_compact`, `ofText?_pretty`).  What is written is spelled in front of any rest,
because the grammar may stop where the text does.
-/

namespace TokenLedger.Json

/-! ## Numbers -/

theorem isDigit_of_mem_toDigits {n : Nat} {c : Char} (member : c ∈ Nat.toDigits 10 n) :
    isDigit c = true := by
  have digit := Nat.isDigit_of_mem_toDigits (by omega) (by omega) member
  simp only [Char.isDigit, Bool.and_eq_true, decide_eq_true_eq] at digit
  simp only [isDigit, decide_eq_true_eq]
  exact ⟨digit.1, digit.2⟩

/-- Only the number zero has a zero at its front. -/
theorem head?_toDigits_ne {n : Nat} (positive : 0 < n) : (Nat.toDigits 10 n).head? ≠ some '0' := by
  induction n using Nat.strongRecOn with
  | ind n ih =>
    rw [Nat.toDigits_eq_if (by omega)]
    split
    next small =>
      have others : ∀ d < 10, 0 < d → [d.digitChar].head? ≠ some '0' := by decide
      exact others n small positive
    next large =>
      have shorter := ih (n / 10) (by omega) (by omega)
      rwa [List.head?_append, Option.or_of_isSome (by simp)]

theorem number_toDigits (n : Nat) (rest : List Char) :
    Number (Nat.toDigits 10 n ++ rest) (.natural n) rest := by
  have value : digitsValue (Nat.toDigits 10 n) = n :=
    Nat.ofDigitChars_toDigits (by omega) (by omega)
  have integer : Integer (Nat.toDigits 10 n ++ rest) n rest := by
    rcases Nat.eq_zero_or_pos n with rfl | positive
    · rw [Nat.toDigits_zero, List.singleton_append]
      exact .zero rest
    · have front := head?_toDigits_ne positive
      have all : ∀ d ∈ Nat.toDigits 10 n, isDigit d = true := fun _ => isDigit_of_mem_toDigits
      obtain ⟨c, more, digits⟩ := List.exists_cons_of_ne_nil (@Nat.toDigits_ne_nil n 10)
      rw [digits] at value front all ⊢
      have spelled := Integer.digits (fun zero => front (congrArg some zero)) all rest
      rwa [value] at spelled
  exact .mk (.none _) integer (.none rest) (.none rest)

theorem number_signed (rest : List Char) : Number ('-' :: '0' :: rest) .otherNumber rest :=
  .mk (.minus _) (.zero rest) (.none rest) (.none rest)

/-! ## Strings -/

theorem hexValue?_digit {d : Nat} (small : d < 16) : hexValue? (Hex.digit d) = some d := by
  have all : ∀ d < 16, hexValue? (Hex.digit d) = some d := by decide
  exact all d small

theorem joinPieces?_unit {n : Nat} (small : n < 0xd800) (pieces : List Piece) :
    joinPieces? (.unit n :: pieces) = (joinPieces? pieces).map (Char.ofNat n :: ·) := by
  cases pieces with
  | nil => simp [joinPieces?, show ¬0xd800 ≤ n by omega]
  | cons piece pieces =>
    cases piece <;> simp [joinPieces?, show ¬0xd800 ≤ n by omega]

/-- An escaped character is a piece, and the piece stands for the character. -/
theorem exists_piece (c : Char) : ∃ piece,
    (∀ {input pieces rest}, Pieces input pieces rest →
      Pieces (escape c ++ input) (piece :: pieces) rest) ∧
    ∀ pieces, joinPieces? (piece :: pieces) = (joinPieces? pieces).map (c :: ·) := by
  by_cases control : escape c = controlEscape c.toNat ∧ c.toNat < 32
  · obtain ⟨escaped, small⟩ := control
    have number : 4096 * 0 + 256 * 0 + 16 * (c.toNat / 16) + c.toNat % 16 = c.toNat := by omega
    refine ⟨.unit c.toNat, fun more => ?_, fun pieces => ?_⟩
    · have zero : hexValue? '0' = some 0 := rfl
      have high : hexValue? (Hex.digit (c.toNat / 16)) = some (c.toNat / 16) :=
        hexValue?_digit (by omega)
      have low : hexValue? (Hex.digit (c.toNat % 16)) = some (c.toNat % 16) :=
        hexValue?_digit (by omega)
      have unit := Pieces.unit zero zero high low more
      rw [number] at unit
      rw [escaped]
      exact unit
    · rw [joinPieces?_unit (by omega), Char.ofNat_toNat]
  · refine ⟨.char c, fun more => ?_, fun _ => rfl⟩
    unfold escape at control ⊢
    split
    -- seven characters have an escape of their own
    iterate 7 exact .short rfl more
    next quote backslash _ _ _ _ _ =>
      have printed : ¬c.toNat < 32 := fun small => by simp_all
      rw [if_neg printed, List.singleton_append]
      exact .char quote backslash printed more

theorem exists_pieces (chars : List Char) : ∃ pieces,
    (∀ rest, Pieces (chars.flatMap escape ++ '"' :: rest) pieces rest) ∧
    joinPieces? pieces = some chars := by
  induction chars with
  | nil => exact ⟨[], .close, rfl⟩
  | cons c chars ih =>
    obtain ⟨piece, spelled, joined⟩ := exists_piece c
    obtain ⟨pieces, more, joins⟩ := ih
    refine ⟨piece :: pieces, fun rest => ?_, by rw [joined, joins]; rfl⟩
    rw [List.flatMap_cons, List.append_assoc]
    exact spelled (more rest)

/-- A string is spelled from behind its opening quote. -/
theorem exists_body (text : Text) : ∃ body, text.render = '"' :: body ∧
    ∀ rest, ∃ pieces, Pieces (body ++ rest) pieces rest ∧ textOfPieces pieces = text := by
  cases text with
  | plain text =>
    obtain ⟨pieces, spelled, joins⟩ := exists_pieces text.toList
    refine ⟨text.toList.flatMap escape ++ ['"'], List.cons_append, fun rest => ⟨pieces, ?_, ?_⟩⟩
    · rw [List.append_assoc]
      exact spelled rest
    · rw [textOfPieces, joins]
      exact congrArg Text.plain String.ofList_toList
  | unpaired =>
    have written : Text.unpaired.render = "\"\\ud800\"".toList := rfl
    refine ⟨['\\', 'u', 'd', '8', '0', '0', '"'], written.trans (by decide), fun rest => ?_⟩
    have zero : hexValue? '0' = some 0 := rfl
    have unit := Pieces.unit (show hexValue? 'd' = some 13 from rfl)
      (show hexValue? '8' = some 8 from rfl) zero zero (.close rest)
    refine ⟨_, unit, ?_⟩
    simp [textOfPieces, joinPieces?]

theorem spelled_text (text : Text) (rest : List Char) :
    Spelled (text.render ++ rest) (.value (.string text)) rest := by
  obtain ⟨body, render, spelled⟩ := exists_body text
  obtain ⟨pieces, found, rfl⟩ := spelled rest
  rw [render]
  exact .string found

/-- The name of a member, with whatever blanks stand in front of it and of the value. -/
theorem name_render {input : List Char} (text : Text) {before rest : List Char}
    (quote : Blanks input (text.render ++ ':' :: before)) (blanks : Blanks before rest) :
    Name input text rest := by
  obtain ⟨body, render, spelled⟩ := exists_body text
  obtain ⟨pieces, found, rfl⟩ := spelled (':' :: before)
  rw [render] at quote
  exact .mk quote found (.none _) blanks

/-! ## Compact text -/

mutual

/-- The compact text of a value spells it, whatever follows. -/
theorem spelled_render (value : Value) (rest : List Char) :
    Spelled (value.render ++ rest) (.value value) rest := by
  match value with
  | .null => exact .null rest
  | .bool true => exact .true rest
  | .bool false => exact .false rest
  | .natural n => exact .number (number_toDigits n rest)
  | .otherNumber => exact .number (number_signed rest)
  | .string text => exact spelled_text text rest
  | .array [] => exact .emptyArray (.none _)
  | .array (item :: items) =>
    simp only [Value.render, List.append_assoc, List.cons_append]
    exact .array (spelled_renderItems (item :: items) (List.cons_ne_nil _ _) rest)
  | .object [] => exact .emptyObject (.none _)
  | .object (member :: members) =>
    simp only [Value.render, List.append_assoc, List.cons_append]
    exact .object (spelled_renderMembers (member :: members) (List.cons_ne_nil _ _) rest)

/-- The items of an array that has some, up to its end. -/
theorem spelled_renderItems (items : List Value) (some : items ≠ []) (rest : List Char) :
    Spelled (renderItems items ++ ']' :: rest) (.items items) rest := by
  match items with
  | [] => exact absurd rfl some
  | [item] => exact .lastItem (.none _) (spelled_render item _) (.none _)
  | item :: next :: items =>
    simp only [renderItems, List.append_assoc, List.cons_append]
    exact .item (.none _) (spelled_render item _) (.none _)
      (spelled_renderItems (next :: items) (List.cons_ne_nil _ _) rest)

/-- The members of an object that has some, up to its end. -/
theorem spelled_renderMembers (members : List (Text × Value)) (some : members ≠ [])
    (rest : List Char) :
    Spelled (renderMembers members ++ '\x7d' :: rest) (.members members) rest := by
  match members with
  | [] => exact absurd rfl some
  | [(text, value)] =>
    simp only [renderMembers, List.append_assoc, List.cons_append]
    exact .lastMember (name_render text (.none _) (.none _)) (spelled_render value _) (.none _)
  | (text, value) :: next :: members =>
    simp only [renderMembers, List.append_assoc, List.cons_append]
    exact .member (name_render text (.none _) (.none _)) (spelled_render value _) (.none _)
      (spelled_renderMembers (next :: members) (List.cons_ne_nil _ _) rest)

end

/-- The compact text of a value is read as the value. -/
theorem ofText?_compact (value : Value) : Value.ofText? value.compact = some value := by
  refine ofText?_eq_some_iff.mpr ⟨value.render, [], ?_, ?_, .none []⟩
  · rw [Value.compact, String.toList_ofList]
    exact .none _
  · have spelled := spelled_render value []
    rwa [List.append_nil] at spelled

/-! ## Text over lines -/

theorem blanks_newLine (level : Nat) (rest : List Char) : Blanks (newLine level ++ rest) rest := by
  have spaces : ∀ n, Blanks (List.replicate n ' ' ++ rest) rest := by
    intro n
    induction n with
    | zero => exact .none rest
    | succ n ih => exact .more (.inl rfl) ih
  exact .more (.inr (.inl rfl)) (spaces _)

mutual

/-- The text of a value over lines spells it at every level, whatever follows. -/
theorem spelled_layout (value : Value) (level : Nat) (rest : List Char) :
    Spelled (value.layout level ++ rest) (.value value) rest := by
  match value with
  | .null | .bool _ | .natural _ | .otherNumber | .string _ => exact spelled_render _ rest
  | .array [] => exact .emptyArray (.none _)
  | .array (item :: items) =>
    simp only [Value.layout, List.append_assoc, List.cons_append]
    exact .array (spelled_layoutItems (item :: items) (List.cons_ne_nil _ _) _ rest
      (blanks_newLine level _))
  | .object [] => exact .emptyObject (.none _)
  | .object (member :: members) =>
    simp only [Value.layout, List.append_assoc, List.cons_append]
    exact .object (spelled_layoutMembers (member :: members) (List.cons_ne_nil _ _) _ rest
      (blanks_newLine level _))

/-- The end of an array stands on a line of another level. -/
theorem spelled_layoutItems (items : List Value) (some : items ≠ []) (level : Nat)
    {last : List Char} (rest : List Char) (close : Blanks last (']' :: rest)) :
    Spelled (layoutItems level items ++ last) (.items items) rest := by
  match items with
  | [] => exact absurd rfl some
  | [item] =>
    simp only [layoutItems, List.append_assoc]
    exact .lastItem (blanks_newLine _ _) (spelled_layout item _ _) close
  | item :: next :: items =>
    simp only [layoutItems, List.append_assoc, List.cons_append]
    exact .item (blanks_newLine _ _) (spelled_layout item _ _) (.none _)
      (spelled_layoutItems (next :: items) (List.cons_ne_nil _ _) level rest close)

theorem spelled_layoutMembers (members : List (Text × Value)) (some : members ≠ []) (level : Nat)
    {last : List Char} (rest : List Char) (close : Blanks last ('\x7d' :: rest)) :
    Spelled (layoutMembers level members ++ last) (.members members) rest := by
  have space : ∀ behind, Blanks (' ' :: behind) behind := fun behind => .more (.inl rfl) (.none _)
  match members with
  | [] => exact absurd rfl some
  | [(text, value)] =>
    simp only [layoutMembers, List.append_assoc, List.cons_append]
    exact .lastMember (name_render text (blanks_newLine _ _) (space _)) (spelled_layout value _ _)
      close
  | (text, value) :: next :: members =>
    simp only [layoutMembers, List.append_assoc, List.cons_append]
    exact .member (name_render text (blanks_newLine _ _) (space _)) (spelled_layout value _ _)
      (.none _) (spelled_layoutMembers (next :: members) (List.cons_ne_nil _ _) level rest close)

end

/-- The text of a value over lines is read as the value. -/
theorem ofText?_pretty (value : Value) : Value.ofText? value.pretty = some value := by
  refine ofText?_eq_some_iff.mpr ⟨value.layout 0, [], ?_, ?_, .none []⟩
  · rw [Value.pretty, String.toList_ofList]
    exact .none _
  · have spelled := spelled_layout value 0 []
    rwa [List.append_nil] at spelled

end TokenLedger.Json
