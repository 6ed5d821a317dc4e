import TokenLedger.Bytes

/-!
# BLAKE3

The unkeyed hash with 32-byte output. The input is cut into chunks of 1024 bytes, each chunk into
blocks of 64. Within a chunk the blocks are chained; the chunks are the leaves of a binary tree
whose left branches are full. Building that tree level by level, two neighbours at a time with an
odd last node carried up, gives the same shape. The root is told apart by a flag.
-/

namespace TokenLedger.Blake3

/-- Eight words: a chaining value. -/
structure Chain where
  a : UInt32
  b : UInt32
  c : UInt32
  d : UInt32
  e : UInt32
  f : UInt32
  g : UInt32
  h : UInt32

/-- The initial chaining value. -/
def start : Chain where
  a := 0x6a09e667
  b := 0xbb67ae85
  c := 0x3c6ef372
  d := 0xa54ff53a
  e := 0x510e527f
  f := 0x9b05688c
  g := 0x1f83d9ab
  h := 0x5be0cd19

namespace Chain

def words (v : Chain) : List UInt32 := [v.a, v.b, v.c, v.d, v.e, v.f, v.g, v.h]

/-- The words as bytes, least significant first. -/
def toBytes (v : Chain) : Bytes := v.words.flatMap fun w => Bytes.ofNatLE 4 w.toNat

theorem length_toBytes (v : Chain) : v.toBytes.length = 32 := by simp [toBytes, words]

end Chain

/-- Rotation to the right, for `0 < n < 32`. -/
def rotateRight (x : UInt32) (n : UInt32) : UInt32 := (x >>> n) ||| (x <<< (32 - n))

/-- Four words of the mixing state. -/
structure Quad where
  a : UInt32
  b : UInt32
  c : UInt32
  d : UInt32

/-- Mixes two message words into a column or diagonal. -/
def mix (q : Quad) (x y : UInt32) : Quad :=
  let a := q.a + q.b + x
  let d := rotateRight (q.d ^^^ a) 16
  let c := q.c + d
  let b := rotateRight (q.b ^^^ c) 12
  let a := a + b + y
  let d := rotateRight (d ^^^ a) 8
  let c := c + d
  let b := rotateRight (b ^^^ c) 7
  { a, b, c, d }

/-- The mixing state: a matrix of four rows. -/
structure Matrix where
  row0 : Quad
  row1 : Quad
  row2 : Quad
  row3 : Quad

/-- One round: the four columns, then the four diagonals. -/
def round (s : Matrix) (m : List UInt32) : Matrix :=
  let word (i : Nat) : UInt32 := m.getD i 0
  let c0 := mix ⟨s.row0.a, s.row1.a, s.row2.a, s.row3.a⟩ (word 0) (word 1)
  let c1 := mix ⟨s.row0.b, s.row1.b, s.row2.b, s.row3.b⟩ (word 2) (word 3)
  let c2 := mix ⟨s.row0.c, s.row1.c, s.row2.c, s.row3.c⟩ (word 4) (word 5)
  let c3 := mix ⟨s.row0.d, s.row1.d, s.row2.d, s.row3.d⟩ (word 6) (word 7)
  let d0 := mix ⟨c0.a, c1.b, c2.c, c3.d⟩ (word 8) (word 9)
  let d1 := mix ⟨c1.a, c2.b, c3.c, c0.d⟩ (word 10) (word 11)
  let d2 := mix ⟨c2.a, c3.b, c0.c, c1.d⟩ (word 12) (word 13)
  let d3 := mix ⟨c3.a, c0.b, c1.c, c2.d⟩ (word 14) (word 15)
  { row0 := ⟨d0.a, d1.a, d2.a, d3.a⟩
    row1 := ⟨d3.b, d0.b, d1.b, d2.b⟩
    row2 := ⟨d2.c, d3.c, d0.c, d1.c⟩
    row3 := ⟨d1.d, d2.d, d3.d, d0.d⟩ }

/-- Where each message word of the next round comes from. -/
def permutation : List Nat := [2, 6, 3, 10, 7, 0, 4, 13, 1, 11, 12, 5, 9, 14, 15, 8]

/-- Runs `n` rounds, permuting the message words between them. -/
def rounds : (n : Nat) → Matrix → List UInt32 → Matrix
  | 0, s, _ => s
  | n + 1, s, m => rounds n (round s m) (permutation.map fun i => m.getD i 0)

/-- A compression that has not been run yet, since only the root carries the root flag. -/
structure Node where
  chain : Chain
  block : List UInt32
  counter : Nat
  blockLength : Nat
  flags : UInt32

def chunkStart : UInt32 := 1
def chunkEnd : UInt32 := 2
def parentFlag : UInt32 := 4
/-- The node whose output is the hash. -/
def rootFlag : UInt32 := 8

/-- Runs a compression with further flags and keeps half of the output. -/
def Node.compress (n : Node) (flags : UInt32) : Chain :=
  let v := n.chain
  let s := rounds 7
    { row0 := ⟨v.a, v.b, v.c, v.d⟩
      row1 := ⟨v.e, v.f, v.g, v.h⟩
      row2 := ⟨start.a, start.b, start.c, start.d⟩
      row3 := ⟨UInt32.ofNat n.counter, UInt32.ofNat (n.counter >>> 32),
        UInt32.ofNat n.blockLength, n.flags ||| flags⟩ }
    n.block
  { a := s.row0.a ^^^ s.row2.a, b := s.row0.b ^^^ s.row2.b
    c := s.row0.c ^^^ s.row2.c, d := s.row0.d ^^^ s.row2.d
    e := s.row1.a ^^^ s.row3.a, f := s.row1.b ^^^ s.row3.b
    g := s.row1.c ^^^ s.row3.c, h := s.row1.d ^^^ s.row3.d }

/-- The words of a block, filled up with zeros. -/
def blockWords (block : Bytes) : List UInt32 :=
  (Bytes.chunks 4 (block ++ List.replicate (64 - block.length) 0)).map fun b =>
    UInt32.ofNat b.toNatLE

/-- Chains the blocks of a chunk; the last is left to be run by whoever needs it. -/
def chainBlocks (counter : Nat) (chain : Chain) (flags : UInt32) : List Bytes → Node
  | [] => ⟨chain, blockWords [], counter, 0, flags ||| chunkEnd⟩
  | [last] => ⟨chain, blockWords last, counter, last.length, flags ||| chunkEnd⟩
  | block :: rest =>
    let next := Node.compress ⟨chain, blockWords block, counter, block.length, flags⟩ 0
    chainBlocks counter next 0 rest

/-- The leaf for the chunk with this number. -/
def leaf (counter : Nat) (chunk : Bytes) : Node :=
  chainBlocks counter start chunkStart (Bytes.chunks 64 chunk)

def parent (left right : Node) : Node where
  chain := start
  block := (left.compress 0).words ++ (right.compress 0).words
  counter := 0
  blockLength := 64
  flags := parentFlag

def levelAbove : List Node → List Node
  | left :: right :: rest => parent left right :: levelAbove rest
  | rest => rest

/-- Builds levels until one node is left; each level of two or more is shorter than the last. -/
def root : (fuel : Nat) → List Node → Node
  | 0, nodes => nodes.headD (leaf 0 [])
  | fuel + 1, nodes =>
    match nodes with
    | [] => leaf 0 []
    | [node] => node
    | nodes => root fuel (levelAbove nodes)

def hash (input : Bytes) : Bytes32 :=
  let leaves := (Bytes.chunks 1024 input).zipIdx.map fun (chunk, i) => leaf i chunk
  let chain := (root leaves.length leaves).compress rootFlag
  ⟨chain.toBytes, chain.length_toBytes⟩

end TokenLedger.Blake3
