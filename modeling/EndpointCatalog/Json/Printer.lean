import EndpointCatalog.Json.Quoted
import EndpointCatalog.Json.Value
import EndpointCatalog.Text.Shortest

namespace EndpointCatalog.Json

open Text.Numeral

/-- The powers of ten for which a float is written without an exponent. -/
def isPositional (magnitude : Int) : Bool := -5 ≤ magnitude && magnitude ≤ 15

def writePositional (d : Decimal) : List Char :=
  if 0 ≤ d.exponent then d.digits ++ List.replicate d.exponent.toNat '0' ++ ['.', '0']
  else
    let places := (-d.exponent).toNat
    let ds := List.replicate (places + 1 - d.digits.length) '0' ++ d.digits
    ds.take (ds.length - places) ++ '.' :: ds.drop (ds.length - places)

def writeScientific (d : Decimal) (magnitude : Int) : List Char :=
  d.digits.take 1 ++ (if d.digits.length = 1 then [] else '.' :: d.digits.drop 1) ++
    'e' :: (if magnitude < 0 then '-' else '+') :: Nat.toDigits 10 magnitude.natAbs

def writeFloat (x : Float) : List Char :=
  let d := Text.Shortest.decimal x
  let magnitude := d.exponent + d.digits.length - 1
  (if x.toBits.toNat < capacity 63 then [] else ['-']) ++
    (if isPositional magnitude then writePositional d else writeScientific d magnitude)

def writeInteger (n : Int) : List Char :=
  (if n < 0 then ['-'] else []) ++ Nat.toDigits 10 n.natAbs

def newLine (level : Nat) : List Char := '\n' :: List.replicate (4 * level) ' '

mutual

/-- A value whose further lines stand at least at `level`. -/
def write (level : Nat) : Value → List Char
  | .null => "null".toList
  | .bool b => if b then "true".toList else "false".toList
  | .integer n => writeInteger n
  | .float x => writeFloat x
  | .text s => Quoted.write s.toList
  | .list [] => ['[', ']']
  | .list (v :: vs) =>
    '[' :: newLine (level + 1) ++ write (level + 1) v ++ writeItems (level + 1) vs ++
      newLine level ++ [']']
  | .fields [] => ['{', '}']
  | .fields ((k, v) :: es) =>
    '{' :: newLine (level + 1) ++ Quoted.write k.toList ++ ':' :: ' ' :: write (level + 1) v ++
      writeEntries (level + 1) es ++ newLine level ++ ['}']

def writeItems (level : Nat) : List Value → List Char
  | [] => []
  | v :: vs => ',' :: newLine level ++ write level v ++ writeItems level vs

def writeEntries (level : Nat) : List (String × Value) → List Char
  | [] => []
  | (k, v) :: es =>
    ',' :: newLine level ++ Quoted.write k.toList ++ ':' :: ' ' :: write level v ++
      writeEntries level es

end

def Value.pretty (v : Value) : String := String.ofList (write 0 v)

end EndpointCatalog.Json
