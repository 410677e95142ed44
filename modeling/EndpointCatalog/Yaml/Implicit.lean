import EndpointCatalog.Text.Numeral

namespace EndpointCatalog.Yaml.Implicit

open Text.Numeral

def isNull (s : List Char) : Bool :=
  [[], "null".toList, "Null".toList, "NULL".toList, "~".toList].contains s

def isBool (s : List Char) : Bool :=
  ["true", "True", "TRUE", "false", "False", "FALSE"].any (·.toList == s)

def dropSign : List Char → List Char
  | c :: cs => if isSign c then cs else c :: cs
  | [] => []

def startsWithSign : List Char → Bool
  | c :: _ => isSign c
  | [] => false

/-- Digits that start with a zero but are more than it; they are a text. -/
def hasLeadingZero (s : List Char) : Bool :=
  match dropSign s with
  | '0' :: d :: ds => (d :: ds).all Char.isDigit
  | _ => false

def baseOf? (c : Char) : Option Nat :=
  if c = 'x' then some 16 else if c = 'o' then some 8 else if c = 'b' then some 2 else none

def based? : List Char → Option (Nat × List Char)
  | '0' :: c :: cs => (baseOf? c).map (·, cs)
  | _ => none

def isBased (bound : Nat) (cs : List Char) : Bool :=
  match based? cs with
  | some (base, ds) => (digits? base ds).any (· < bound)
  | none => false

def isUnsigned (s : List Char) : Bool :=
  let u := dropPlus s
  isBased (capacity 128) u ||
    (!startsWithSign u && !hasLeadingZero s && (digits? 10 u).any (· < capacity 128))

def isNegative (s : List Char) : Bool :=
  match s with
  | '-' :: cs =>
    isBased (capacity 127 + 1) cs ||
      (!hasLeadingZero s && (digits? 10 cs).any (· ≤ capacity 127))
  | _ => false

def isInteger (s : List Char) : Bool := isUnsigned s || isNegative s

def isInfinity (s : List Char) : Bool := [".inf", ".Inf", ".INF"].any (·.toList == s)

def isNaN (s : List Char) : Bool := [".nan", ".NaN", ".NAN"].any (·.toList == s)

def isFloat (s : List Char) : Bool :=
  let u := dropPlus s
  let signed := u != s && startsWithSign u
  isNaN s || isInfinity (dropSign s) || (!signed && (decimal? (dropSign u)).any isFinite)

/-- Whether a plain text would be taken for something else than a text. -/
def looksTyped (s : List Char) : Bool :=
  isNull s || isBool s || isInteger s || hasLeadingZero s || isFloat s

end EndpointCatalog.Yaml.Implicit
