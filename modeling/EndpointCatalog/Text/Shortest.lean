import EndpointCatalog.Text.Numeral

namespace EndpointCatalog.Text.Shortest

open Text.Numeral

/-- A positive number `mantissa · 2 ^ exponent`, and half the distances to its neighbours below
and above in units of `2 ^ (exponent - 2)`. -/
structure Binary where
  mantissa : Nat
  exponent : Int
  below : Nat
deriving DecidableEq, Repr

def ofBits (bits : Nat) : Binary :=
  let fraction : Nat := bits % capacity 52
  let scale : Nat := bits / capacity 52 % capacity 11
  if scale = 0 then ⟨fraction, -1074, 2⟩
  else ⟨capacity 52 + fraction, (scale : Int) - 1075, if fraction = 0 ∧ 1 < scale then 1 else 2⟩

namespace Binary

variable (b : Binary)

def power (base : Nat) (e : Int) : Nat × Nat := (Nat.pow base e.toNat, Nat.pow base (-e).toNat)

/-- How often `10 ^ step` goes into `quarters · 2 ^ (exponent - 2)`, as a fraction. -/
def ratio (quarters : Nat) (step : Int) : Nat × Nat :=
  let (n, d) := power 2 (b.exponent - 2)
  let (n', d') := power 10 step
  (quarters * n * d', d * n')

def magnitude : Int :=
  let (n, d) := b.ratio (4 * b.mantissa) (-400)
  ((Nat.toDigits 10 (n / d)).length : Int) - 401

/-- Whether `c · 10 ^ step` is rounded to the number. -/
def holds (step : Int) (c : Nat) : Bool :=
  let (lo, d) := b.ratio (4 * b.mantissa - b.below) step
  let (hi, _) := b.ratio (4 * b.mantissa + 2) step
  if b.mantissa % 2 = 0 then lo ≤ c * d && c * d ≤ hi else lo < c * d && c * d < hi

/-- The multiple of `10 ^ step` that is rounded to the number; of two the nearer, and the even one
if both are as near. -/
def onGrid? (step : Int) : Option Nat :=
  let (n, d) := b.ratio (4 * b.mantissa) step
  let c := n / d
  match b.holds step c, b.holds step (c + 1) with
  | true, true =>
    if 2 * (n % d) < d then some c
    else if d < 2 * (n % d) then some (c + 1)
    else some (c + c % 2)
  | true, false => some c
  | false, true => some (c + 1)
  | false, false => none

/-- The decimal with the fewest digits, from `n` on; seventeen are always enough. -/
def shortestFrom (fuel n : Nat) : Nat × Int :=
  let step := b.magnitude - n + 1
  match fuel, b.onGrid? step with
  | _, some c => (c, step)
  | 0, none => (0, 0)
  | fuel + 1, none => shortestFrom fuel (n + 1)

end Binary

def decimal (x : Float) : Decimal :=
  let b := ofBits x.toBits.toNat
  if b.mantissa = 0 then ⟨['0'], 0⟩
  else
    let (c, step) := b.shortestFrom 17 1
    let ds := (Nat.toDigits 10 c).reverse
    let zeros := ds.takeWhile (· == '0')
    ⟨(ds.drop zeros.length).reverse, step + zeros.length⟩

end EndpointCatalog.Text.Shortest
