/-!
# Byte strings

Everything the ledger hashes, signs or stores is a byte string, kept as a list so that it can be
taken apart by recursion. This module holds the fixed-width number encodings in both byte orders
and `Bytes32`, the 32-byte values that name mints, accounts and principals.
-/

namespace TokenLedger

/-- A byte string. Byte strings are ordered lexicographically, a proper beginning coming first. -/
abbrev Bytes := List UInt8

namespace Bytes

/-! ## Numbers as bytes -/

/-- The `width` low bytes of `n`, most significant first. -/
def ofNatBE : (width : Nat) → (n : Nat) → Bytes
  | 0, _ => []
  | width + 1, n => UInt8.ofNat (n >>> (8 * width)) :: ofNatBE width n

/-- The `width` low bytes of `n`, least significant first. -/
def ofNatLE : (width : Nat) → (n : Nat) → Bytes
  | 0, _ => []
  | width + 1, n => UInt8.ofNat n :: ofNatLE width (n / 256)

/-- The number that the bytes spell, most significant first. -/
def toNatBE (bytes : Bytes) : Nat :=
  bytes.foldl (fun n byte => 256 * n + byte.toNat) 0

/-- The number that the bytes spell, least significant first. -/
def toNatLE : Bytes → Nat
  | [] => 0
  | byte :: rest => byte.toNat + 256 * toNatLE rest

@[simp] theorem length_ofNatBE (width n : Nat) : (ofNatBE width n).length = width := by
  induction width with
  | zero => rfl
  | succ width ih => simp [ofNatBE, ih]

@[simp] theorem length_ofNatLE (width n : Nat) : (ofNatLE width n).length = width := by
  induction width generalizing n with
  | zero => rfl
  | succ width ih => simp [ofNatLE, ih]

/-! ## Cutting -/

/-- The first `n` bytes and what follows them, if there are that many. -/
def split? (n : Nat) (bytes : Bytes) : Option (Bytes × Bytes) :=
  if n ≤ bytes.length then some (bytes.take n, bytes.drop n) else none

theorem split?_append (front rest : Bytes) :
    split? front.length (front ++ rest) = some (front, rest) := by
  simp [split?]

theorem append_of_split? {n : Nat} {bytes front rest : Bytes}
    (splits : split? n bytes = some (front, rest)) : bytes = front ++ rest ∧ front.length = n := by
  unfold split? at splits
  split at splits
  · obtain ⟨rfl, rfl⟩ := by simpa using splits
    simp; omega
  · simp at splits

/-- The bytes in runs of `size`, the last run being shorter where they do not divide evenly. -/
def chunks (size : Nat) (bytes : Bytes) : List Bytes :=
  (List.range ((bytes.length + size - 1) / size)).map fun i => (bytes.drop (i * size)).take size

/-- The parts of a byte string between the bytes that separate them, of which there is one more than
    there are separators. -/
def splitOn (separator : UInt8) : Bytes → List Bytes
  | [] => [[]]
  | byte :: rest =>
    if byte = separator then [] :: splitOn separator rest
    else
      match splitOn separator rest with
      | [] => [[byte]]
      | part :: parts => (byte :: part) :: parts

/-- What stands in front of the first separator and what follows it, which is nothing where there is
    no separator. -/
def cutAt (separator : UInt8) (bytes : Bytes) : Bytes × Bytes :=
  (bytes.takeWhile (· ≠ separator), (bytes.dropWhile (· ≠ separator)).drop 1)

/-! ## Texts -/

def ofText (text : String) : Bytes := text.toUTF8.data.toList

/-- The text that the bytes spell in UTF-8, if they spell one. -/
def toText? (bytes : Bytes) : Option String := String.fromUTF8? ⟨bytes.toArray⟩

theorem ofText_of_toText? {bytes : Bytes} {text : String} (read : toText? bytes = some text) :
    ofText text = bytes := by
  unfold toText? String.fromUTF8? at read
  split at read
  · obtain rfl := Option.some.inj read; rfl
  · simp at read

theorem toText?_ofText (text : String) : toText? (ofText text) = some text := by
  unfold toText? String.fromUTF8?
  exact dif_pos text.isValidUTF8

/-- Whether the bytes are the first of a character's, or all of them. What can be completed to a
    character can be so by the least of the bytes that may follow, or by the greatest. -/
def beginsCharacter (bytes : Bytes) : Bool :=
  [0x80, 0xBF].any fun byte => (List.range 4).any fun n =>
    (toText? (bytes ++ List.replicate n byte)).any (·.length = 1)

/-- What stands for bytes that are no text. -/
def replacement : String := "\uFFFD"

/-- The text that bytes are shown as. Where they do not spell one, as many of them as can be the
    first of a character's are replaced together, or else one. -/
def shown : Bytes → String
  | [] => ""
  | byte :: rest =>
    let more := ([3, 2, 1].find? fun n => beginsCharacter (byte :: rest.take n)).getD 0
    (toText? (byte :: rest.take more)).getD replacement ++ shown (rest.drop more)
termination_by bytes => bytes.length
decreasing_by simp only [List.length_drop, List.length_cons]; omega

end Bytes

/-! ## Values of 32 bytes -/

/-- A byte string of length 32. -/
structure Bytes32 where
  toBytes : Bytes
  length_toBytes : toBytes.length = 32
deriving DecidableEq

namespace Bytes32

def ofBytes? (bytes : Bytes) : Option Bytes32 :=
  if whole : bytes.length = 32 then some ⟨bytes, whole⟩ else none

@[simp] theorem ofBytes?_toBytes (value : Bytes32) : ofBytes? value.toBytes = some value := by
  simp [ofBytes?, value.length_toBytes]

theorem toBytes_of_ofBytes? {bytes : Bytes} {value : Bytes32} (read : ofBytes? bytes = some value) :
    value.toBytes = bytes := by
  unfold ofBytes? at read
  split at read
  · simp only [Option.some.injEq] at read; rw [← read]
  · simp at read

def ofNatLE (n : Nat) : Bytes32 := ⟨Bytes.ofNatLE 32 n, Bytes.length_ofNatLE 32 n⟩

/-- The number that the bytes spell, least significant first. -/
def toNatLE (value : Bytes32) : Nat := value.toBytes.toNatLE

def replicate (byte : UInt8) : Bytes32 := ⟨List.replicate 32 byte, by simp⟩

/-- Values compare as byte strings. -/
instance : LT Bytes32 := ⟨fun a b => a.toBytes < b.toBytes⟩

instance : DecidableLT Bytes32 := fun a b => inferInstanceAs (Decidable (a.toBytes < b.toBytes))

end Bytes32

end TokenLedger
