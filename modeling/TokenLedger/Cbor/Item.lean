import TokenLedger.Bytes

/-!
# CBOR items and their deterministic encoding

Records and operations are kept and signed as CBOR in one fixed form: the shortest heads, definite
lengths throughout, and the entries of every map in the order of their encoded keys. `Item.encode`
writes that form. Items that have no place in it (floats, tagged items, big numbers) are all read as
`Item.other`, which is written as the one byte for "undefined"; since that byte is read as null, no
encoding that contains it is ever reproduced from what was read.
-/

namespace TokenLedger.Cbor

/-! ## Heads -/

/-- The major types that carry an argument. -/
inductive Major where
  | unsigned
  | negative
  | bytes
  | text
  | array
  | map
  | tag
  | simple
deriving DecidableEq

namespace Major

/-- The number in the upper three bits of a head. -/
def code : Major → Nat
  | unsigned => 0
  | negative => 1
  | bytes => 2
  | text => 3
  | array => 4
  | map => 5
  | tag => 6
  | simple => 7

end Major

/-- A head with argument `n`, in the first of its five forms that has room for `n`. -/
def head (major : Major) (n : Nat) : Bytes :=
  if n < 24 then [UInt8.ofNat (32 * major.code + n)]
  else if n < UInt8.size then UInt8.ofNat (32 * major.code + 24) :: Bytes.ofNatBE 1 n
  else if n < UInt16.size then UInt8.ofNat (32 * major.code + 25) :: Bytes.ofNatBE 2 n
  else if n < UInt32.size then UInt8.ofNat (32 * major.code + 26) :: Bytes.ofNatBE 4 n
  else UInt8.ofNat (32 * major.code + 27) :: Bytes.ofNatBE 8 n

/-! ## Items -/

/-- A CBOR item, as far as the ledger tells items apart. -/
inductive Item where
  /-- An integer between `-2^64` and `2^64 - 1`. -/
  | int (n : Int)
  | bytes (content : Bytes)
  | text (content : String)
  | array (items : List Item)
  /-- Entries in the order read; a key may occur more than once. -/
  | map (entries : List (Item × Item))
  | bool (b : Bool)
  | null
  /-- A float, a tagged item or a big number. -/
  | other

/-! ## Sorting by encoded key -/

/-- Puts an entry in front of the first entry whose key is not smaller. -/
def insertEntry (entry : Bytes × Bytes) : List (Bytes × Bytes) → List (Bytes × Bytes)
  | [] => [entry]
  | first :: rest =>
    if first.1 < entry.1 then first :: insertEntry entry rest else entry :: first :: rest

/-- Sorts encoded entries by key; entries with equal keys keep their order. -/
def sortEntries (entries : List (Bytes × Bytes)) : List (Bytes × Bytes) :=
  entries.foldr insertEntry []

/-- Encoded entries one after the other, each key before its value. -/
def joinEntries : List (Bytes × Bytes) → Bytes
  | [] => []
  | (key, value) :: rest => key ++ value ++ joinEntries rest

/-! ## Encoding -/

mutual

/-- The deterministic encoding of an item. -/
def Item.encode : Item → Bytes
  | .int n => if 0 ≤ n then head .unsigned n.toNat else head .negative (-1 - n).toNat
  | .bytes content => head .bytes content.length ++ content
  | .text content => head .text (Bytes.ofText content).length ++ Bytes.ofText content
  | .array items => head .array items.length ++ encodeItems items
  | .map entries => head .map entries.length ++ joinEntries (sortEntries (encodeEntries entries))
  | .bool b => [if b then 0xf5 else 0xf4]
  | .null => [0xf6]
  | .other => [0xf7]

/-- The encodings of items one after the other. -/
def encodeItems : List Item → Bytes
  | [] => []
  | item :: rest => item.encode ++ encodeItems rest

/-- The entries of a map with key and value encoded, in the order given. -/
def encodeEntries : List (Item × Item) → List (Bytes × Bytes)
  | [] => []
  | (key, value) :: rest => (key.encode, value.encode) :: encodeEntries rest

end

end TokenLedger.Cbor
