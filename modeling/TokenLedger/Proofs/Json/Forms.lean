import Mathlib.Data.List.Forall2
import Mathlib.Data.List.Nodup
import TokenLedger.Envelope
import TokenLedger.Json.Forms
import TokenLedger.Proofs.Hex
import TokenLedger.Proofs.Json.Reading

/-! # Values sent as JSON

Every value that has a JSON form is read back from the compact text of its form
(`json_lossless`), and so an envelope is authenticated alike before and after it has been
sent.

A form is a value, so the text of it is no concern here: `ofText?_compact` has settled
that.  What is left is that the forms are read back as values.  A record is read by the
names of its fields, each of which is there once (`fields?_record`), an operation by the
name of its kind first, and numbers are below the bounds of their types.
-/

namespace TokenLedger

namespace Json

/-! ## Records -/

theorem mapM_eq_some_iff {α β : Type} {f : α → Option β} {items : List α} {results : List β} :
    items.mapM f = some results ↔
      List.Forall₂ (fun item result => f item = some result) items results := by
  induction items generalizing results with
  | nil => simp [eq_comm]
  | cons item items ih =>
    simp only [List.mapM_cons, Option.bind_eq_bind, Option.bind_eq_some_iff, Option.pure_def,
      List.forall₂_cons_left_iff, ih]
    constructor
    · rintro ⟨first, here, rest, there, done⟩
      cases done
      exact ⟨first, rest, here, there, rfl⟩
    · rintro ⟨first, rest, here, there, rfl⟩
      exact ⟨first, here, rest, there, rfl⟩

/-- A member is found by a name that occurs once. -/
theorem member?_eq_some_iff {members : List (Text × Value)} {name : String} {value : Value} :
    member? members name = some value ↔
      (.plain name, value) ∈ members ∧ (members.map (·.1)).count (.plain name) = 1 := by
  have count : (members.map (·.1)).count (.plain name) =
      (members.filter (·.1 = .plain name)).length := by
    rw [List.count, List.countP_map, List.countP_eq_length_filter]
    rfl
  have found : (.plain name, value) ∈ members.filter (·.1 = .plain name) ↔
      (.plain name, value) ∈ members := by simp
  rw [member?, count, ← found]
  constructor
  · intro only
    split at only
    next first _ one =>
      cases only
      have named : (first, value) ∈ members.filter (·.1 = .plain name) := by simp [one]
      have same : first = .plain name := of_decide_eq_true (List.mem_filter.mp named).2
      rw [same] at one
      simp [one]
    · cases only
  · rintro ⟨member, one⟩
    obtain ⟨only, single⟩ := List.length_eq_one_iff.mp one
    rw [single] at member ⊢
    rw [← List.mem_singleton.mp member]

theorem record_eq (members : List (String × Value)) :
    Value.record members = .object (members.map (Prod.map .plain id)) := rfl

/-- Whether a value is a record with fields of these names: an array of just the fields, or
    an object in which each name occurs once, beside others that are texts too. -/
inductive IsRecord (names : List String) : Value → List Value → Prop
  | array {values : List Value} (lengths : names.length = values.length) :
    IsRecord names (.array values) values
  | object {members : List (Text × Value)} {values : List Value}
    (texts : .unpaired ∉ members.map (·.1))
    (fields : List.Forall₂ (fun name value => (.plain name, value) ∈ members ∧
      (members.map (·.1)).count (.plain name) = 1) names values) :
    IsRecord names (.object members) values

/-- The fields are read off the values that have them, and off no others. -/
theorem fields?_eq_some_iff {names : List String} {value : Value} {values : List Value} :
    value.fields? names = some values ↔ IsRecord names value values := by
  constructor
  · intro read
    cases value with
    | array items =>
      obtain ⟨lengths, same⟩ := Option.ite_none_right_eq_some.mp read
      cases same
      exact .array lengths.symm
    | object members =>
      obtain ⟨texts, each⟩ := Option.ite_none_left_eq_some.mp read
      have fields := (mapM_eq_some_iff.mp each).imp fun _ _ => member?_eq_some_iff.mp
      exact .object (by simpa using texts) fields
    | _ => cases read
  · rintro (lengths | ⟨texts, fields⟩)
    · exact if_pos lengths.symm
    · have each := mapM_eq_some_iff.mpr (fields.imp fun _ _ => member?_eq_some_iff.mpr)
      rw [Value.fields?, if_neg (by simpa using texts), each]

/-- A record is read as the fields it was written with. -/
theorem fields?_record {names : List String} {values : List Value} (nodup : names.Nodup)
    (lengths : names.length = values.length) :
    (Value.record (names.zip values)).fields? names = some values := by
  have written : ((names.zip values).map (Prod.map Text.plain id)).map (·.1) =
      names.map .plain := by
    rw [List.map_map, ← List.map_fst_zip (Nat.le_of_eq lengths), List.map_map,
      List.map_fst_zip (Nat.le_of_eq lengths)]
    rfl
  have once : (names.map Text.plain).Nodup := nodup.map fun _ _ => Text.plain.inj
  rw [fields?_eq_some_iff, record_eq]
  refine .object (by simp [written]) (List.forall₂_iff_zip.mpr ⟨lengths, fun member => ?_⟩)
  have listed := @List.mem_map_of_mem _ _ _ _ (Prod.map Text.plain id) member
  -- each name was written once, as no two of them are the same
  refine ⟨listed, List.count_eq_one_of_mem ?_ (List.mem_map_of_mem listed)⟩
  rwa [written]

/-! ## Numbers -/

theorem below?_natural {n bound : Nat} (small : n < bound) :
    (Value.natural n).below? bound = some n := if_pos small

theorem word?_toNat (n : UInt64) : (Value.natural n.toNat).word? = some n := by
  rw [Value.word?, below?_natural n.toNat_lt_size, Option.map_some, UInt64.ofNat_toNat]

end Json

open Json (Value)

/-! ## Addresses, principals and signatures -/

theorem Bytes32.ofJson?_toJson (value : Bytes32) : Bytes32.ofJson? value.toJson = some value := by
  have bytes : (value.toBytes.map fun byte => Value.natural byte.toNat).mapM
      (fun item => (item.below? 256).map UInt8.ofNat) = some value.toBytes := by
    refine Json.mapM_eq_some_iff.mpr (List.forall₂_map_left_iff.mpr ?_)
    refine List.forall₂_same.mpr fun byte _ => ?_
    rw [Json.below?_natural byte.toNat_lt, Option.map_some, UInt8.ofNat_toNat]
  rw [toJson, ofJson?, bytes]
  exact Bytes32.ofBytes?_toBytes value

theorem MintAddress.ofJson?_toJson (a : MintAddress) : MintAddress.ofJson? a.toJson = some a := by
  rw [ofJson?, toJson, Bytes32.ofJson?_toJson, Option.map_some]

theorem AccountAddress.ofJson?_toJson (a : AccountAddress) :
    AccountAddress.ofJson? a.toJson = some a := by
  rw [ofJson?, toJson, Bytes32.ofJson?_toJson, Option.map_some]

theorem Principal.ofJson?_toJson (p : Principal) : Principal.ofJson? p.toJson = some p := by
  rw [ofJson?, toJson, Bytes32.ofJson?_toJson, Option.map_some]

theorem Signature.ofJson?_toJson (s : Signature) : Signature.ofJson? s.toJson = some s := by
  have text : s.toJson.text? = some (Hex.encode s.toBytes) := rfl
  simp only [ofJson?, text, Option.bind_eq_bind, Option.bind_some, Hex.decode_encode,
    ofBytes?_toBytes]

/-! ## Operations -/

theorem OperationKind.ofJson?_toJson (kind : OperationKind) :
    OperationKind.ofJson? kind.toJson = some kind := ofJsonName?_jsonName kind

namespace Operation

theorem nodup_fieldNames (kind : OperationKind) : (fieldNames kind).Nodup := by
  cases kind <;> decide

theorem length_fieldNames (operation : Operation) :
    (fieldNames operation.kind).length = operation.toFields.length := by
  cases operation <;> rfl

theorem ofFields?_toFields (operation : Operation) :
    ofFields? operation.kind operation.toFields = some operation := by
  cases operation with
  | createMint mint decimals =>
    have bound : (Value.natural decimals.toNat).below? 256 = some decimals.toNat :=
      Json.below?_natural decimals.toNat_lt
    simp [kind, toFields, ofFields?, bound, MintAddress.ofJson?_toJson]
  | createAccount mint owner =>
    simp [kind, toFields, ofFields?, MintAddress.ofJson?_toJson, Principal.ofJson?_toJson]
  | issue mint account amount =>
    simp [kind, toFields, ofFields?, Json.word?_toNat, MintAddress.ofJson?_toJson,
      AccountAddress.ofJson?_toJson]
  | transfer sender recipient amount =>
    simp [kind, toFields, ofFields?, Json.word?_toNat, AccountAddress.ofJson?_toJson]
  | burn mint account amount =>
    simp [kind, toFields, ofFields?, Json.word?_toNat, MintAddress.ofJson?_toJson,
      AccountAddress.ofJson?_toJson]

theorem ofJson?_toJson (operation : Operation) : ofJson? operation.toJson = some operation := by
  have fields := Json.fields?_record (nodup_fieldNames operation.kind) (length_fieldNames operation)
  have form : operation.toJson = .object [(.plain operation.kind.jsonName,
      .record ((fieldNames operation.kind).zip operation.toFields))] := rfl
  simp only [form, ofJson?, OperationKind.ofJsonName?_jsonName, fields, Option.bind_eq_bind,
    Option.bind_some, ofFields?_toFields]

end Operation

theorem SignedOperation.ofJson?_toJson (envelope : SignedOperation) :
    SignedOperation.ofJson? envelope.toJson = some envelope := by
  have fields := @Json.fields?_record ["signer", "operation", "signature"]
    [envelope.signer.toJson, envelope.operation.toJson, envelope.signature.toJson]
    (by decide) rfl
  simp only [List.zip_cons_cons, List.zip_nil_right] at fields
  simp only [ofJson?, toJson, fields, Option.bind_eq_bind, Option.bind_some,
    Principal.ofJson?_toJson, Operation.ofJson?_toJson, Signature.ofJson?_toJson, Option.pure_def]

/-! ## Reports -/

theorem SupplyReport.ofJson?_toJson (report : SupplyReport) :
    SupplyReport.ofJson? report.toJson = some report := by
  have fields := @Json.fields?_record
    ["mint", "total_supply", "account_sum", "accounts", "consistent"]
    [report.mint.toJson, .natural report.supply.toNat, .natural report.accountSum.toNat,
      .natural report.accounts.toNat, .bool report.consistent] (by decide) rfl
  have sum : (Value.natural report.accountSum.toNat).below? (1 <<< 128) =
      some report.accountSum.toNat := Json.below?_natural report.accountSum.isLt
  have consistent : (Value.bool report.consistent).bool? = some report.consistent := rfl
  simp only [List.zip_cons_cons, List.zip_nil_right] at fields
  simp only [ofJson?, toJson, fields, sum, consistent, Option.bind_eq_bind, Option.bind_some,
    MintAddress.ofJson?_toJson, Json.word?_toNat, BitVec.ofNat_toNat, BitVec.setWidth_eq,
    Option.pure_def]

/-! ## Sending -/

namespace Json

/-- What a text is read as, by whoever knows which form to expect. -/
def receive? {α : Type} (ofJson? : Value → Option α) (text : String) : Option α :=
  (Value.ofText? text).bind ofJson?

/-- Whether every value arrives as it was sent. -/
def Lossless {α : Type} (toJson : α → Value) (ofJson? : Value → Option α) : Prop :=
  ∀ value, receive? ofJson? (toJson value).compact = some value

theorem lossless_of_ofJson?_toJson {α : Type} {toJson : α → Value} {ofJson? : Value → Option α}
    (read : ∀ value, ofJson? (toJson value) = some value) : Lossless toJson ofJson? := by
  intro value
  rw [receive?, ofText?_compact, Option.bind_some, read]

end Json

/-- Nothing is lost on the way, and an envelope that has been sent is authenticated as the
    one that was signed. -/
theorem json_lossless :
    Json.Lossless MintAddress.toJson MintAddress.ofJson? ∧
    Json.Lossless AccountAddress.toJson AccountAddress.ofJson? ∧
    Json.Lossless Principal.toJson Principal.ofJson? ∧
    Json.Lossless Signature.toJson Signature.ofJson? ∧
    Json.Lossless OperationKind.toJson OperationKind.ofJson? ∧
    Json.Lossless Operation.toJson Operation.ofJson? ∧
    Json.Lossless SupplyReport.toJson SupplyReport.ofJson? ∧
    Json.Lossless SignedOperation.toJson SignedOperation.ofJson? ∧
    ∀ (authenticator : Authenticator) (envelope : SignedOperation),
      (Json.receive? SignedOperation.ofJson? envelope.toJson.compact).map
        authenticator.authenticate = some (authenticator.authenticate envelope) := by
  have envelopes := Json.lossless_of_ofJson?_toJson SignedOperation.ofJson?_toJson
  refine ⟨Json.lossless_of_ofJson?_toJson MintAddress.ofJson?_toJson,
    Json.lossless_of_ofJson?_toJson AccountAddress.ofJson?_toJson,
    Json.lossless_of_ofJson?_toJson Principal.ofJson?_toJson,
    Json.lossless_of_ofJson?_toJson Signature.ofJson?_toJson,
    Json.lossless_of_ofJson?_toJson OperationKind.ofJson?_toJson,
    Json.lossless_of_ofJson?_toJson Operation.ofJson?_toJson,
    Json.lossless_of_ofJson?_toJson SupplyReport.ofJson?_toJson, envelopes,
    fun authenticator envelope => ?_⟩
  rw [envelopes, Option.map_some]

end TokenLedger
