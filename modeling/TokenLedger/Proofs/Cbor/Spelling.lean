import TokenLedger.Proofs.Cbor.Reading

/-! # All spellings of an item

CBOR leaves choices to whoever writes it.  The argument of a head may take more bytes
than it needs, strings, arrays and maps may do without a length and end in a break,
and there are floats, tags and an undefined value.  A `Spelling` is an item with all
of these choices made, `Spelling.bytes` are its bytes, and `Spelling.Deterministic`
says that every choice was the one that the deterministic encoding makes.

The deterministic encoding of an item is spelled in no other way and begins nothing
longer (`Spelling.isEncoding_of_append_eq`).  A spelling and an item start with a head
each; heads that stand at the front of the same bytes are the same head, so the proof
compares heads first and goes on with what follows them.
-/

namespace TokenLedger.Cbor

/-! ## What has no length -/

/-- The first byte of an array, a map or a string without a length. -/
def openHead (major : Major) : UInt8 := UInt8.ofNat (32 * major.code + 31)

/-- The byte that ends what has no length. -/
def breakByte : UInt8 := 0xff

theorem openHead_ne {form : HeadForm} {major major' : Major} {n : Nat} {rest rest' : Bytes}
    (holds : form.Holds n) : openHead major :: rest ≠ form.bytes major' n ++ rest' := by
  intro same
  -- no form has 31 for its low bits
  have small := HeadForm.info_lt holds
  obtain ⟨_, infos⟩ := firstByte_inj (by decide) (by omega) (List.cons.inj same).1
  omega

/-! ## Spellings -/

/-- A well-formed item as it stands in bytes, with every choice that the format leaves. -/
inductive Spelling where
  /-- The integer `n` or, if negative, `-1 - n`. -/
  | int (negative : Bool) (form : HeadForm) (n : Nat)
  /-- A text or a byte string with its length. -/
  | string (text : Bool) (form : HeadForm) (content : Bytes)
  /-- A text or a byte string in pieces, up to a break. -/
  | pieces (text : Bool) (contents : List (HeadForm × Bytes))
  /-- An array with its length or, without a form for one, up to a break. -/
  | array (form? : Option HeadForm) (items : List Spelling)
  /-- A map with its length or, without a form for one, up to a break. -/
  | map (form? : Option HeadForm) (entries : List (Spelling × Spelling))
  | tag (form : HeadForm) (n : Nat) (content : Spelling)
  /-- A simple value or, in a form of two bytes and more, a float. -/
  | simple (form : HeadForm) (n : Nat)

namespace Spelling

@[elab_as_elim]
theorem induct {P : Spelling → Prop} (int : ∀ negative form n, P (.int negative form n))
    (string : ∀ text form content, P (.string text form content))
    (pieces : ∀ text contents, P (.pieces text contents))
    (array : ∀ form? items, (∀ item ∈ items, P item) → P (.array form? items))
    (map : ∀ form? entries, (∀ entry ∈ entries, P entry.1 ∧ P entry.2) → P (.map form? entries))
    (tag : ∀ form n content, P content → P (.tag form n content))
    (simple : ∀ form n, P (.simple form n)) (spelling : Spelling) : P spelling :=
  @Spelling.rec P (fun items => ∀ item ∈ items, P item)
    (fun entries => ∀ entry ∈ entries, P entry.1 ∧ P entry.2) (fun entry => P entry.1 ∧ P entry.2)
    int string pieces array map tag simple
    (by simp) (fun _ _ first rest => List.forall_mem_cons.mpr ⟨first, rest⟩)
    (by simp) (fun _ _ first rest => List.forall_mem_cons.mpr ⟨first, rest⟩)
    (fun _ _ key value => ⟨key, value⟩) spelling

/-- The major type of an integer. -/
def integerMajor (negative : Bool) : Major := if negative then .negative else .unsigned

/-- The major type of a string. -/
def stringMajor (text : Bool) : Major := if text then .text else .bytes

/-- What is written of members, with the length before them or the break after them. -/
def enclose (major : Major) (form? : Option HeadForm) (length : Nat) (members : Bytes) : Bytes :=
  match form? with
  | some form => form.bytes major length ++ members
  | none => openHead major :: members ++ [breakByte]

/-- The bytes of a piece of a string. -/
def pieceBytes (text : Bool) (piece : HeadForm × Bytes) : Bytes :=
  piece.1.bytes (stringMajor text) piece.2.length ++ piece.2

mutual

/-- The bytes of a spelling. -/
def bytes : Spelling → Bytes
  | .int negative form n => form.bytes (integerMajor negative) n
  | .string text form content => form.bytes (stringMajor text) content.length ++ content
  | .pieces text contents =>
    enclose (stringMajor text) none 0 (contents.map (pieceBytes text)).flatten
  | .array form? items => enclose .array form? items.length (itemsBytes items)
  | .map form? entries => enclose .map form? entries.length (entriesBytes entries)
  | .tag form n content => form.bytes .tag n ++ content.bytes
  | .simple form n => form.bytes .simple n

/-- The bytes of spellings one after the other. -/
def itemsBytes : List Spelling → Bytes
  | [] => []
  | item :: rest => item.bytes ++ itemsBytes rest

/-- The bytes of entries one after the other, each key before its value. -/
def entriesBytes : List (Spelling × Spelling) → Bytes
  | [] => []
  | (key, value) :: rest => key.bytes ++ value.bytes ++ entriesBytes rest

end

/-- Whether every argument has room in the form chosen for it. -/
inductive WellFormed : Spelling → Prop
  | int {negative : Bool} {form : HeadForm} {n : Nat} (holds : form.Holds n) :
    WellFormed (.int negative form n)
  | string {text : Bool} {form : HeadForm} {content : Bytes} (holds : form.Holds content.length) :
    WellFormed (.string text form content)
  | pieces {text : Bool} {contents : List (HeadForm × Bytes)}
    (holds : ∀ piece ∈ contents, piece.1.Holds piece.2.length) : WellFormed (.pieces text contents)
  | array {form? : Option HeadForm} {items : List Spelling}
    (holds : ∀ form ∈ form?, form.Holds items.length) (members : ∀ item ∈ items, WellFormed item) :
    WellFormed (.array form? items)
  | map {form? : Option HeadForm} {entries : List (Spelling × Spelling)}
    (holds : ∀ form ∈ form?, form.Holds entries.length)
    (keys : ∀ entry ∈ entries, WellFormed entry.1)
    (values : ∀ entry ∈ entries, WellFormed entry.2) : WellFormed (.map form? entries)
  | tag {form : HeadForm} {n : Nat} {content : Spelling} (holds : form.Holds n)
    (inside : WellFormed content) : WellFormed (.tag form n content)
  | simple {form : HeadForm} {n : Nat} (holds : form.Holds n) : WellFormed (.simple form n)

/-- Whether a spelling makes the choices of the deterministic encoding all through: shortest heads,
    lengths and no breaks, keys in order, and no tag, no float and no simple value but the booleans
    and null. -/
inductive Deterministic : Spelling → Prop
  | int (negative : Bool) (n : Nat) : Deterministic (.int negative (.shortest n) n)
  | string (text : Bool) (content : Bytes) :
    Deterministic (.string text (.shortest content.length) content)
  | array {items : List Spelling} (members : ∀ item ∈ items, Deterministic item) :
    Deterministic (.array (some (.shortest items.length)) items)
  | map {entries : List (Spelling × Spelling)} (keys : ∀ entry ∈ entries, Deterministic entry.1)
    (values : ∀ entry ∈ entries, Deterministic entry.2)
    (sorted : entries.Pairwise (KeyLe fun entry => entry.1.bytes)) :
    Deterministic (.map (some (.shortest entries.length)) entries)
  | simple {n : Nat} (known : n = 20 ∨ n = 21 ∨ n = 22) : Deterministic (.simple .within n)

/-! ## The one spelling of an encoding -/

theorem itemsBytes_eq (items : List Spelling) : itemsBytes items = (items.map bytes).flatten := by
  induction items with
  | nil => rfl
  | cons first rest ih => rw [itemsBytes, ih, List.map_cons, List.flatten_cons]

theorem entriesBytes_eq (entries : List (Spelling × Spelling)) :
    entriesBytes entries = (entries.map fun entry => entry.1.bytes ++ entry.2.bytes).flatten := by
  induction entries with
  | nil => rfl
  | cons first rest ih => rw [entriesBytes, ih, List.map_cons, List.flatten_cons]

end Spelling

/-- The major type and the argument that the encoding of an item starts with. -/
def Item.leading : Item → Major × Nat
  | .int n => if 0 ≤ n then (.unsigned, n.toNat) else (.negative, (-1 - n).toNat)
  | .bytes content => (.bytes, content.length)
  | .text content => (.text, (Bytes.ofText content).length)
  | .array items => (.array, items.length)
  | .map entries => (.map, entries.length)
  | .bool b => (.simple, if b then 21 else 20)
  | .null => (.simple, 22)
  | .other => (.simple, 23)

/-- What follows the head in the encoding of an item. -/
def Item.body : Item → Bytes
  | .bytes content => content
  | .text content => Bytes.ofText content
  | .array items => (items.map encode).flatten
  | .map entries =>
    ((sortByKey entries).map fun entry => entry.1.encode ++ entry.2.encode).flatten
  | _ => []

theorem Item.encode_eq_head_append (item : Item) :
    item.encode = head item.leading.1 item.leading.2 ++ item.body := by
  cases item with
  | int n => by_cases nonneg : 0 ≤ n <;> simp [encode, leading, body, nonneg]
  | array items => exact encode_array items
  | map entries => exact encode_map entries
  | bool b => cases b <;> rfl
  | _ => rfl

theorem Item.Plain.leading_lt {depth : Nat} {item : Item} (plain : item.Plain depth)
    (short : item.encode.length < 2 ^ 64) : item.leading.2 < 2 ^ 64 := by
  cases plain with
  | @int _ n low high =>
    by_cases nonneg : 0 ≤ n <;> simp only [leading, nonneg, if_true, if_false] <;> omega
  | bytes content | text content =>
    rw [encode_eq_head_append, List.length_append] at short
    exact Nat.lt_of_add_left_lt short
  | array members => exact Nat.lt_of_le_of_lt (length_le_encode_array _) short
  | map keys values => exact Nat.lt_of_le_of_lt (length_le_encode_map _) short
  | bool b => cases b <;> decide
  | null => decide

namespace Item

variable {item : Item} {n : Nat}

theorem leading_int_fst (k : Int) :
    (int k).leading.1 = .unsigned ∨ (int k).leading.1 = .negative := by
  by_cases nonneg : 0 ≤ k <;> simp [leading, nonneg]

theorem body_of_leading_integer {negative : Bool}
    (leading : item.leading = (Spelling.integerMajor negative, n)) : item.body = [] := by
  cases item with
  | int | bool | null | other => rfl
  | _ => cases negative <;> cases leading

theorem length_body_of_leading_string {text : Bool}
    (leading : item.leading = (Spelling.stringMajor text, n)) : item.body.length = n := by
  cases item with
  | bytes | text => cases text <;> cases leading; rfl
  | int k =>
    have major := leading_int_fst k
    rw [leading] at major
    cases text <;> simp [Spelling.stringMajor] at major
  | _ => cases text <;> cases leading

theorem eq_array_of_leading (leading : item.leading = (.array, n)) :
    ∃ items, item = .array items ∧ items.length = n := by
  cases item with
  | array items => exact ⟨items, rfl, (Prod.mk.inj leading).2⟩
  | int k => have major := leading_int_fst k; simp [leading] at major
  | _ => cases leading

theorem eq_map_of_leading (leading : item.leading = (.map, n)) :
    ∃ entries, item = .map entries ∧ entries.length = n := by
  cases item with
  | map entries => exact ⟨entries, rfl, (Prod.mk.inj leading).2⟩
  | int k => have major := leading_int_fst k; simp [leading] at major
  | _ => cases leading

theorem leading_ne_tag : item.leading ≠ (.tag, n) := by
  intro leading
  cases item with
  | int k => have major := leading_int_fst k; simp [leading] at major
  | _ => cases leading

theorem Plain.of_leading_simple {depth : Nat} (plain : item.Plain depth)
    (leading : item.leading = (.simple, n)) : item.body = [] ∧ (n = 20 ∨ n = 21 ∨ n = 22) := by
  cases plain with
  | bool b => cases b <;> cases leading <;> simp [body]
  | null => cases leading; simp [body]
  | @int _ k => have major := leading_int_fst k; simp [leading] at major
  | _ => cases leading

end Item

theorem HeadForm.eq_of_bytes_append_eq {form : HeadForm} {major : Major} {n : Nat} {item : Item}
    {rest rest' : Bytes} (holds : form.Holds n) (fits : item.leading.2 < 2 ^ 64)
    (same : form.bytes major n ++ rest = item.encode ++ rest') :
    form = shortest n ∧ item.leading = (major, n) ∧ rest = item.body ++ rest' := by
  rw [item.encode_eq_head_append, head_eq, List.append_assoc] at same
  obtain ⟨rfl, rfl, rfl, rests⟩ := bytes_append_inj holds (holds_shortest fits) same
  exact ⟨rfl, rfl, rests⟩

/-- Lists of the same length fall apart in the same way if their members do. -/
theorem forall₂_of_flatten_append_eq {α β : Type} {f : α → Bytes} {g : β → Bytes}
    {R : α → β → Prop} {as : List α} {bs : List β} {rest rest' : Bytes}
    (each : ∀ a ∈ as, ∀ b ∈ bs, ∀ rest rest', f a ++ rest = g b ++ rest' → R a b ∧ rest = rest')
    (length : as.length = bs.length)
    (same : (as.map f).flatten ++ rest = (bs.map g).flatten ++ rest') :
    List.Forall₂ R as bs ∧ rest = rest' := by
  induction as generalizing bs with
  | nil =>
    obtain rfl := List.length_eq_zero_iff.mp length.symm
    exact ⟨.nil, same⟩
  | cons a as ih =>
    cases bs with
    | nil => cases length
    | cons b bs =>
      simp only [List.map_cons, List.flatten_cons, List.append_assoc] at same
      obtain ⟨first, more⟩ := each a (by simp) b (by simp) _ _ same
      obtain ⟨others, rests⟩ := ih
        (fun a seen b seen' => each a (.tail _ seen) b (.tail _ seen')) (Nat.succ.inj length) more
      exact ⟨.cons first others, rests⟩

namespace Spelling

/-- A spelling that is the deterministic encoding of an item. -/
def IsEncoding (spelling : Spelling) (item : Item) : Prop :=
  spelling.Deterministic ∧ spelling.bytes = item.encode

/-- Nothing that lacks a length starts as an encoding does. -/
theorem enclose_none_append_ne {major : Major} {n : Nat} {members rest rest' : Bytes} {item : Item}
    (fits : item.leading.2 < 2 ^ 64) :
    enclose major none n members ++ rest ≠ item.encode ++ rest' := by
  rw [item.encode_eq_head_append, HeadForm.head_eq, List.append_assoc]
  exact openHead_ne (HeadForm.holds_shortest fits)

/-- Entries spelled as the encodings of keys and values. -/
def AreEncodings (entry : Spelling × Spelling) (item : Item × Item) : Prop :=
  entry.1.IsEncoding item.1 ∧ entry.2.IsEncoding item.2

/-- Entries with the same encoded keys are in the same order. -/
theorem pairwise_of_forall₂ {entries : List (Spelling × Spelling)} {encoded : List (Item × Item)}
    (same : List.Forall₂ AreEncodings entries encoded)
    (sorted : encoded.Pairwise (KeyLe fun entry => entry.1.encode)) :
    entries.Pairwise (KeyLe fun entry => entry.1.bytes) := by
  have keys : entries.map (fun entry => entry.1.bytes) =
      encoded.map (fun entry => entry.1.encode) := by
    induction same with
    | nil => rfl
    | cons first _ ih => rw [List.map_cons, List.map_cons, first.1.2, ih sorted.of_cons]
  have ordered : (encoded.map fun entry => entry.1.encode).Pairwise (KeyLe id) :=
    List.pairwise_map.mpr sorted
  rw [← keys] at ordered
  exact (List.pairwise_map (f := fun entry : Spelling × Spelling => entry.1.bytes)).mp ordered

/-- Where the spelling of one thing and the encoding of another stand at the front of the same
    bytes, the spelling is the encoding and the same bytes follow. -/
theorem isEncoding_of_append_eq {spelling : Spelling} (wellFormed : spelling.WellFormed)
    {item : Item} {depth : Nat} (plain : item.Plain depth) (ordered : item.InOrder)
    (short : item.encode.length < 2 ^ 64) {rest rest' : Bytes}
    (same : spelling.bytes ++ rest = item.encode ++ rest') :
    spelling.IsEncoding item ∧ rest = rest' := by
  induction wellFormed generalizing item depth rest rest' with
  | @int negative form n holds =>
    have fits := plain.leading_lt short
    obtain ⟨rfl, leading, rests⟩ := HeadForm.eq_of_bytes_append_eq holds fits same
    rw [Item.body_of_leading_integer leading] at rests
    obtain rfl : rest = rest' := rests
    exact ⟨⟨.int negative n, List.append_cancel_right same⟩, rfl⟩
  | @string text form content holds =>
    have fits := plain.leading_lt short
    rw [bytes, List.append_assoc] at same
    obtain ⟨rfl, leading, contents⟩ := HeadForm.eq_of_bytes_append_eq holds fits same
    obtain ⟨_, rfl⟩ := List.append_inj contents (Item.length_body_of_leading_string leading).symm
    rw [← List.append_assoc] at same
    exact ⟨⟨.string text content, List.append_cancel_right same⟩, rfl⟩
  | pieces holds => exact absurd same (enclose_none_append_ne (plain.leading_lt short))
  | @array form? items holds members ih =>
    have fits := plain.leading_lt short
    cases form? with
    | none => exact absurd same (enclose_none_append_ne fits)
    | some form =>
      rw [bytes, enclose, List.append_assoc] at same
      obtain ⟨rfl, leading, body⟩ := HeadForm.eq_of_bytes_append_eq (holds form rfl) fits same
      obtain ⟨encoded, rfl, length⟩ := Item.eq_array_of_leading leading
      cases plain with | array plain =>
      cases ordered with | array ordered =>
      rw [itemsBytes_eq] at body
      obtain ⟨matched, rfl⟩ := forall₂_of_flatten_append_eq (fun spelled seen item seen' _ _ same =>
        ih spelled seen (plain item seen') (ordered item seen')
          (Nat.lt_of_le_of_lt (Item.encode_length_le_array seen') short) same) length.symm body
      rw [← List.append_assoc] at same
      have members := (List.forall₂_and_left _ _).mp matched
      exact ⟨⟨.array members.1, List.append_cancel_right same⟩, rfl⟩
  | @map form? entries holds keys values ihKeys ihValues =>
    have fits := plain.leading_lt short
    cases form? with
    | none => exact absurd same (enclose_none_append_ne fits)
    | some form =>
      rw [bytes, enclose, List.append_assoc] at same
      obtain ⟨rfl, leading, body⟩ := HeadForm.eq_of_bytes_append_eq (holds form rfl) fits same
      obtain ⟨encoded, rfl, length⟩ := Item.eq_map_of_leading leading
      cases plain with | map plainKeys plainValues =>
      cases ordered with | map orderedKeys orderedValues sorted =>
      rw [entriesBytes_eq, Item.body, sortByKey_eq_self sorted] at body
      -- in an entry the value is compared once the key is known to be the same
      obtain ⟨matched, rfl⟩ := forall₂_of_flatten_append_eq
        (R := AreEncodings)
        (fun entry seen item seen' rest rest' same => by
          obtain ⟨shortKey, shortValue⟩ := Item.encode_length_le_map seen'
          simp only [List.append_assoc] at same
          obtain ⟨key, same⟩ := ihKeys entry seen (plainKeys item seen') (orderedKeys item seen')
            (by omega) same
          obtain ⟨value, same⟩ := ihValues entry seen (plainValues item seen')
            (orderedValues item seen') (by omega) same
          exact ⟨⟨key, value⟩, same⟩) length.symm body
      rw [← List.append_assoc] at same
      have keys := (List.forall₂_and_left _ _).mp (matched.imp fun _ _ both => ⟨both.1.1, both⟩)
      have values := (List.forall₂_and_left _ _).mp (matched.imp fun _ _ both => ⟨both.2.1, both⟩)
      exact ⟨⟨.map keys.1 values.1 (pairwise_of_forall₂ matched sorted),
        List.append_cancel_right same⟩, rfl⟩
  | @tag form n content holds inside ih =>
    have fits := plain.leading_lt short
    rw [bytes, List.append_assoc] at same
    obtain ⟨_, leading, _⟩ := HeadForm.eq_of_bytes_append_eq holds fits same
    exact absurd leading Item.leading_ne_tag
  | @simple form n holds =>
    have fits := plain.leading_lt short
    obtain ⟨rfl, leading, rests⟩ := HeadForm.eq_of_bytes_append_eq holds fits same
    obtain ⟨empty, known⟩ := plain.of_leading_simple leading
    rw [empty] at rests
    obtain rfl : rest = rest' := rests
    have within : HeadForm.shortest n = .within := if_pos (by omega)
    rw [within] at same ⊢
    exact ⟨⟨.simple known, List.append_cancel_right same⟩, rfl⟩

end Spelling

end TokenLedger.Cbor
