import EndpointCatalog.Json.Value
import EndpointCatalog.Text.Numeral

namespace EndpointCatalog.Json.Number

open Text.Numeral

structure Written where
  negative : Bool
  whole : List Char
  fraction? : Option (List Char)
  exponent? : Option Int

def bound : Nat := capacity 64

/-- Takes digits behind `n` for as long as 64 bits hold the number, and counts those left. -/
def fill (n : Nat) : List Char → Nat × Nat
  | [] => (n, 0)
  | c :: cs =>
    let m := 10 * n + (c.toNat - '0'.toNat)
    if m < bound then fill m cs else (n, cs.length + 1)

def powerOfTen (n : Nat) : Float := .ofScientific 1 false n

/-- The number `x · 10 ^ e`; the divisions by great powers come to an end at zero. -/
def scale (x : Float) (e : Int) : Nat → Option Float
  | 0 => some 0
  | n + 1 =>
    if e.natAbs ≤ 308 then
      if 0 ≤ e then
        let y := x * powerOfTen e.natAbs
        if y.isInf then none else some y
      else some (x / powerOfTen e.natAbs)
    else if x == 0 then some x
    else if 0 ≤ e then none
    else scale (x / powerOfTen 308) (e + 308) n

namespace Written

variable (w : Written)

def float? : Option Float :=
  let (n, dropped) := fill 0 w.whole
  let part := w.fraction?.getD []
  let (m, unread) := fill n part
  let e := (dropped : Int) - (part.length - unread) + w.exponent?.getD 0
  (scale m.toUInt64.toFloat e 4).map fun x => if w.negative then -x else x

/-- The whole number, if 64 bits hold it; zero has no minus sign. -/
def integer? : Option Int :=
  match w.fraction?, w.exponent?, digits? 10 w.whole with
  | none, none, some n =>
    if w.negative then if 0 < n ∧ n ≤ capacity 63 then some (-n) else none
    else if n < bound then some n else none
  | _, _, _ => none

def value? : Option Value :=
  match w.integer? with
  | some n => some (.integer n)
  | none => w.float?.map .float

end Written

def digitsOf? (cs : List Char) : Option (List Char × List Char) :=
  let ds := cs.takeWhile Char.isDigit
  if ds.isEmpty then none else some (ds, cs.dropWhile Char.isDigit)

def whole? (cs : List Char) : Option (List Char × List Char) :=
  (digitsOf? cs).filter fun d => d.1.head? != some '0' || d.1.length == 1

def fraction? : List Char → Option (Option (List Char) × List Char)
  | '.' :: cs => (digitsOf? cs).map fun (ds, cs) => (some ds, cs)
  | cs => some (none, cs)

def exponentOf? (cs : List Char) : Option (Int × List Char) :=
  match cs with
  | '-' :: cs =>
    (digitsOf? cs).bind fun (ds, cs) => (digits? 10 ds).map fun n => (-(n : Int), cs)
  | cs =>
    (digitsOf? (dropPlus cs)).bind fun (ds, cs) => (digits? 10 ds).map fun n => ((n : Int), cs)

def exponent? : List Char → Option (Option Int × List Char)
  | [] => some (none, [])
  | c :: cs =>
    if c = 'e' ∨ c = 'E' then (exponentOf? cs).map fun (e, cs) => (some e, cs)
    else some (none, c :: cs)

def sign : List Char → Bool × List Char
  | '-' :: cs => (true, cs)
  | cs => (false, cs)

def read? (cs : List Char) : Option (Value × List Char) := do
  let (negative, cs) := sign cs
  let (whole, cs) ← whole? cs
  let (fraction?, cs) ← fraction? cs
  let (exponent?, cs) ← exponent? cs
  return (← Written.value? ⟨negative, whole, fraction?, exponent?⟩, cs)

end EndpointCatalog.Json.Number
