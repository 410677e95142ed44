namespace EndpointCatalog.Text.Numeral

def hexValue? (c : Char) : Option Nat :=
  if c.isDigit then some (c.toNat - '0'.toNat)
  else if 'a' ≤ c ∧ c ≤ 'f' then some (c.toNat - 'a'.toNat + 10)
  else if 'A' ≤ c ∧ c ≤ 'F' then some (c.toNat - 'A'.toNat + 10)
  else none

def hexNumber? (cs : List Char) : Option Nat :=
  cs.foldl (fun n c => n.bind fun n => (hexValue? c).map (16 * n + ·)) (some 0)

def charOf? (n : Nat) : Option Char := if h : n.isValidChar then some (Char.ofNatAux n h) else none

def capacity (bits : Nat) : Nat := Nat.pow 2 bits

def isSign (c : Char) : Bool := c == '+' || c == '-'

def dropPlus : List Char → List Char
  | '+' :: cs => cs
  | cs => cs

def digits? (base : Nat) : List Char → Option Nat
  | [] => none
  | cs => cs.foldl
      (fun n c => n.bind fun n =>
        ((hexValue? c).filter (· < base)).map (base * n + ·)) (some 0)

/-- A decimal number as it is written: all its digits, and the power of ten of the last. -/
structure Decimal where
  digits : List Char
  exponent : Int

def exponent? : List Char → Option Int
  | [] => some 0
  | c :: cs =>
    if c = 'e' ∨ c = 'E' then
      match cs with
      | '-' :: ds => (digits? 10 ds).map fun n => -(n : Int)
      | ds => (digits? 10 (dropPlus ds)).map fun n => (n : Int)
    else none

def decimal? (s : List Char) : Option Decimal :=
  let whole := s.takeWhile Char.isDigit
  let (part, rest) := match s.dropWhile Char.isDigit with
    | '.' :: cs => (cs.takeWhile Char.isDigit, cs.dropWhile Char.isDigit)
    | cs => ([], cs)
  if whole.isEmpty && part.isEmpty then none
  else (exponent? rest).map fun e => ⟨whole ++ part, e - part.length⟩

/-- The least number that lies halfway beyond the greatest of 64 bits. -/
def overflow : Nat := capacity 1024 - capacity 970

/-- Whether a decimal number is read as a finite one of 64 bits. -/
def isFinite (d : Decimal) : Bool :=
  let ds := d.digits.dropWhile (· == '0')
  let value := (digits? 10 ds).getD 0
  let magnitude : Int := ds.length + d.exponent
  if value = 0 ∨ magnitude ≤ 308 then true
  else if 310 ≤ magnitude then false
  else if 0 ≤ d.exponent then value * Nat.pow 10 d.exponent.toNat < overflow
  else value < overflow * Nat.pow 10 (-d.exponent).toNat

end EndpointCatalog.Text.Numeral
