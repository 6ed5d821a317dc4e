import TokenLedger.Bytes

/-!
# The curve edwards25519

The twisted Edwards curve `-x² + y² = 1 + d x² y²` over the integers modulo `2^255 - 19`. Points are
kept in extended coordinates, where one addition formula serves for all pairs of points, doubling
and the neutral point included. Field elements and points are read from and written to 32 bytes.
-/

namespace TokenLedger.Ed25519

/-- Combines `n` copies of `x` by halving `n`: powers from a product, multiples from a sum. `fuel`
    is at least the number of binary digits of `n`. -/
def combine {α : Type} (op : α → α → α) (unit : α) : (fuel : Nat) → (x : α) → (n : Nat) → α
  | 0, _, _ => unit
  | fuel + 1, x, n =>
    if n = 0 then unit
    else
      let rest := combine op unit fuel (op x x) (n / 2)
      if n % 2 = 1 then op x rest else rest

/-! ## The field -/

/-- The order of the field. -/
def fieldOrder : Nat := (1 <<< 255) - 19

instance : @NeZero Nat Zero.ofOfNat0 fieldOrder := ⟨by decide⟩

/-- Integers modulo `2^255 - 19`. -/
abbrev Field := Fin fieldOrder

namespace Field

/-- Powers by repeated squaring. -/
def power (x : Field) (n : Nat) : Field := combine (· * ·) 1 256 x n

/-- The inverse of a nonzero element, and zero for zero. -/
def inverse (x : Field) : Field := power x (fieldOrder - 2)

/-- A square root of minus one. -/
def rootOfMinusOne : Field :=
  Fin.ofNat fieldOrder
    19681161376707505956807079304988542015446066515923890162744021073123829784752

/-- An even square root of `u / v`, if the quotient is a square. -/
def rootOfQuotient? (u v : Field) : Option Field :=
  let v3 := v * v * v
  let candidate := u * v3 * power (u * v3 * v3 * v) ((fieldOrder - 5) / 8)
  let square := v * candidate * candidate
  let even (r : Field) : Field := if r.val % 2 = 1 then -r else r
  if square = u then some (even candidate)
  else if square = -u then some (even (rootOfMinusOne * candidate))
  else none

end Field

/-! ## The group -/

/-- The constant `d` of the curve. -/
def curveD : Field :=
  Fin.ofNat fieldOrder
    37095705934669439343138083508754565189542113879843219016388785533085940283555

/-- A point `(X : Y : Z : T)` standing for `x = X / Z` and `y = Y / Z`, with `T = X Y / Z`. -/
structure Point where
  x : Field
  y : Field
  z : Field
  t : Field
deriving DecidableEq

namespace Point

def zero : Point := ⟨0, 1, 1, 0⟩

/-- The point with these affine coordinates. -/
def affine (x y : Field) : Point := ⟨x, y, 1, x * y⟩

def add (p q : Point) : Point :=
  let a := (p.y - p.x) * (q.y - q.x)
  let b := (p.y + p.x) * (q.y + q.x)
  let c := p.t * (curveD + curveD) * q.t
  let d := p.z * (q.z + q.z)
  let e := b - a
  let f := d - c
  let g := d + c
  let h := b + a
  ⟨e * f, g * h, f * g, e * h⟩

/-- The point below the `y` axis from `p`. -/
def neg (p : Point) : Point := ⟨-p.x, p.y, p.z, -p.t⟩

/-- The `n`-fold sum of `p`, for `n` below `2^256`. -/
def multiple (n : Nat) (p : Point) : Point := combine add zero 256 p n

def base : Point :=
  affine
    (Fin.ofNat fieldOrder
      15112221349535400772501151409588531511454012693041857206046113283949847762202)
    (Fin.ofNat fieldOrder
      46316835694926478169428394003475163141307993866256225615783033603165251855960)

/-- Writes `y`, with the parity of `x` in the top bit. -/
def encode (p : Point) : Bytes32 :=
  let recip := Field.inverse p.z
  let x := p.x * recip
  let y := p.y * recip
  Bytes32.ofNatLE (y.val + ((x.val % 2) <<< 255))

/-- Reads a point: `y` is taken modulo the order of the field, and `x` is the root whose parity the
    top bit gives, zero serving for either parity. -/
def decode? (bytes : Bytes32) : Option Point :=
  let n := bytes.toNatLE
  let y := Fin.ofNat fieldOrder (n % (1 <<< 255))
  let yy := y * y
  (Field.rootOfQuotient? (yy - 1) (curveD * yy + 1)).map fun root =>
    affine (if n >>> 255 = 1 then -root else root) y

end Point

end TokenLedger.Ed25519
