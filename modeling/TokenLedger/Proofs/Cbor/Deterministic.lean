import TokenLedger.Proofs.Cbor.Reading
import TokenLedger.Proofs.Except

/-! # What is read and encodes to the same bytes

The reader accepts much, but what it finds is bounded: integers fit in a head, and
arrays and maps nest no deeper than they may be entered (`plain_of_readItem`).  So
what is found can be written and read once more.  If writing it gives the bytes that
were read, both readings are of the same bytes, and the second finds the item sorted
and without what has no encoding: the item was so from the start, and no byte was left
over.  `readItem_canonical_iff` is this argument.
-/

namespace TokenLedger.Cbor

/-! ## Lists -/

theorem exists_read_of_readMany {α : Type} {step : Reader α} {n : Nat} {input rest : Bytes}
    {found : List α} (read : readMany step n input = .ok (found, rest)) :
    ∀ a ∈ found, ∃ input rest, step input = .ok (a, rest) := by
  induction n generalizing input found with
  | zero =>
    cases read
    simp
  | succ n ih =>
    unfold readMany at read
    split at read
    · cases read
    next first _ readFirst =>
      split at read
      · cases read
      next more _ readMore =>
        cases read
        exact List.forall_mem_cons.mpr ⟨⟨_, _, readFirst⟩, ih readMore⟩

theorem exists_read_of_readUntilBreak {α : Type} {step : Reader α} {fuel : Nat}
    {input rest : Bytes} {found : List α}
    (read : readUntilBreak step fuel input = .ok (found, rest)) :
    ∀ a ∈ found, ∃ input rest, step input = .ok (a, rest) := by
  induction fuel generalizing input found with
  | zero => cases read
  | succ fuel ih =>
    unfold readUntilBreak at read
    split at read
    · cases read
    · cases read
      simp
    · split at read
      · cases read
      next first _ readFirst =>
        split at read
        · cases read
        next more _ readMore =>
          cases read
          exact List.forall_mem_cons.mpr ⟨⟨_, _, readFirst⟩, ih readMore⟩

theorem exists_read_of_readSequence {α : Type} {step : Reader α} {length? : Option Nat}
    {input rest : Bytes} {found : List α}
    (read : readSequence step length? input = .ok (found, rest)) :
    ∀ a ∈ found, ∃ input rest, step input = .ok (a, rest) := by
  cases length? with
  | some n => exact exists_read_of_readMany read
  | none => exact exists_read_of_readUntilBreak read

theorem exists_reads_of_readPair {α β : Type} {first : Reader α} {second : Reader β}
    {input rest : Bytes} {a : α} {b : β} (read : readPair first second input = .ok ((a, b), rest)) :
    (∃ input rest, first input = .ok (a, rest)) ∧ ∃ input rest, second input = .ok (b, rest) := by
  unfold readPair at read
  split at read
  · cases read
  next readFirst =>
    split at read
    · cases read
    next readSecond =>
      cases read
      exact ⟨⟨_, _, readFirst⟩, ⟨_, _, readSecond⟩⟩

/-! ## Heads -/

/-- Whether the argument of an integer fits in eight bytes. -/
def Head.InRange : Head → Prop
  | .unsigned n => n < 2 ^ 64
  | .negative n => n < 2 ^ 64
  | _ => True

theorem Head.inRange_ofArgument {major info n : Nat} (fits : n < 2 ^ 64) :
    (Head.ofArgument major info n).InRange := by
  unfold ofArgument
  split
  case h_1 | h_2 => exact fits
  case h_8 => split <;> trivial
  all_goals trivial

theorem Head.inRange_openEnded {major : Nat} {found : Head}
    (opened : Head.openEnded? major = some found) : found.InRange := by
  unfold openEnded? at opened
  split at opened <;> cases opened <;> trivial

theorem inRange_of_readHead {input rest : Bytes} {found : Head}
    (read : readHead input = .ok (found, rest)) : found.InRange := by
  rcases exists_form_of_readHead read with ⟨major, form, n, holds, _, rfl⟩ | ⟨code, opened⟩
  · exact Head.inRange_ofArgument (HeadForm.lt_size_of_holds holds)
  · exact Head.inRange_openEnded opened

/-! ## Items -/

/-- What a reader finds is bounded by its depth, once it is plain. -/
theorem plain_of_readItemWith {inner : Option (Reader Item)} {depth : Nat}
    (bounded : ∀ read, inner = some read → ∃ less, depth = less + 1 ∧
      ∀ {input rest item}, read input = .ok (item, rest) → item.nulled.Plain less)
    {input rest : Bytes} {item : Item} (read : readItemWith inner input = .ok (item, rest)) :
    item.nulled.Plain depth := by
  unfold readItemWith at read
  cases head : readHead input with
  | error e => rw [head] at read; cases read
  | ok found =>
    obtain ⟨found, afterHead⟩ := found
    have range := inRange_of_readHead head
    simp only [head] at read
    cases found with
    | unsigned n =>
      cases read
      exact .int (by omega) (Int.ofNat_lt.mpr range)
    | negative n =>
      cases read
      have small : n < 2 ^ 64 := range
      exact .int (by omega) (by omega)
    | bytes length? =>
      cases length? <;> obtain ⟨_, _, same⟩ := map_eq_ok_iff.mp read <;> cases same <;>
        exact .bytes _
    | text length? =>
      cases length? <;> obtain ⟨_, _, same⟩ := map_eq_ok_iff.mp read <;> cases same <;>
        exact .text _
    | array length? =>
      cases inner with
      | none => cases read
      | some inner =>
        obtain ⟨less, rfl, members⟩ := bounded inner rfl
        obtain ⟨_, sequence, same⟩ := map_eq_ok_iff.mp read
        cases same
        rw [Item.nulled_array]
        refine .array (List.forall_mem_map.mpr fun item member => ?_)
        obtain ⟨_, _, read⟩ := exists_read_of_readSequence sequence item member
        exact members read
    | map length? =>
      cases inner with
      | none => cases read
      | some inner =>
        obtain ⟨less, rfl, members⟩ := bounded inner rfl
        obtain ⟨_, sequence, same⟩ := map_eq_ok_iff.mp read
        cases same
        rw [Item.nulled_map]
        refine .map (List.forall_mem_map.mpr fun entry member => ?_)
          (List.forall_mem_map.mpr fun entry member => ?_)
        · obtain ⟨_, _, pair⟩ := exists_read_of_readSequence sequence entry member
          obtain ⟨⟨_, _, key⟩, _⟩ := exists_reads_of_readPair pair
          exact members key
        · obtain ⟨_, _, pair⟩ := exists_read_of_readSequence sequence entry member
          obtain ⟨_, ⟨_, _, value⟩⟩ := exists_reads_of_readPair pair
          exact members value
    | tag tag =>
      -- what is tagged is read and dropped, be it a big number or not
      have other : item = .other := by
        dsimp only at read
        split at read
        · cases read
        split at read
        · split at read
          · cases read
          split at read <;> cases read
          rfl
        · cases inner with
          | none => cases read
          | some inner =>
            obtain ⟨_, _, same⟩ := map_eq_ok_iff.mp read
            cases same
            rfl
      exact other ▸ .null
    | simple n =>
      dsimp only at read
      split at read
      next known =>
        cases read
        unfold simpleItem? at known
        split at known <;> cases known
        · exact .bool false
        · exact .bool true
        · exact .null
        · exact .null
      · cases read
    | float =>
      cases read
      exact .null
    | «break» => cases read

/-- What a reader finds has integers in range, and arrays and maps no deeper than they may be
    entered. -/
theorem plain_of_readItem {depth : Nat} {input rest : Bytes} {item : Item}
    (read : readItem depth input = .ok (item, rest)) : item.nulled.Plain depth := by
  induction depth generalizing input rest item with
  | zero => exact plain_of_readItemWith (fun _ impossible => by cases impossible) read
  | succ depth ih =>
    refine plain_of_readItemWith (fun inner same => ⟨depth, rfl, fun found => ?_⟩) read
    cases same
    exact ih found

/-- An item is read from its own encoding just if it is plain and in order, and then all of the
    encoding is read. -/
theorem readItem_canonical_iff {depth : Nat} {data rest : Bytes} (short : data.length < 2 ^ 64)
    {item : Item} :
    readItem depth data = .ok (item, rest) ∧ item.encode = data ↔
      data = item.encode ∧ rest = [] ∧ item.Plain depth ∧ item.InOrder := by
  constructor
  · rintro ⟨read, rfl⟩
    have plain := plain_of_readItem read
    have again := readsAs_sorted_nulled plain short []
    rw [List.append_nil, read] at again
    obtain ⟨same, rfl⟩ := Prod.mk.inj (Except.ok.inj again)
    -- being written and read makes no difference, so the item was sorted and plain
    obtain ⟨sorted, nulled⟩ := Item.sorted_eq_and_nulled_eq same.symm
    exact ⟨rfl, rfl, nulled ▸ plain, sorted ▸ item.inOrder_sorted⟩
  · rintro ⟨rfl, rfl, plain, ordered⟩
    have read := readsAs_sorted_nulled (plain.nulled_eq.symm ▸ plain) short []
    rw [List.append_nil, ordered.sorted_eq, plain.nulled_eq] at read
    exact ⟨read, rfl⟩

end TokenLedger.Cbor
