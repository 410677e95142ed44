import EndpointCatalog.Text.Search
import EndpointCatalog.Toml.Token

namespace EndpointCatalog.Toml.Bare

open Token Text.Numeral

/-- What was seen of the digits of a number: whether there were any, whether the first was a zero,
and whether the last character was an underscore. -/
structure Digits where
  isEmpty : Bool := true
  zero : Bool := false
  underscore : Bool := false

/-- The digits to the base `base` that a text starts with, without the underscores between them,
and what follows. A zero may stand in front of others if `zeros` allows it. -/
def digitsFrom? (base : Nat) (zeros : Bool) (d : Digits) :
    List Char → Option (List Char × List Char)
  | [] => if d.isEmpty || d.underscore then none else some ([], [])
  | c :: cs =>
    if (hexValue? c).any (· < base) then
      if !d.isEmpty && d.zero && !zeros then none
      else (digitsFrom? base zeros ⟨false, d.zero || (d.isEmpty && c == '0'), false⟩ cs).map
        fun (ds, cs) => (c :: ds, cs)
    else if c = '_' && !d.isEmpty && !d.underscore then
      digitsFrom? base zeros ⟨false, d.zero, true⟩ cs
    else if d.isEmpty || d.underscore then none
    else some ([], c :: cs)

def digits? (base : Nat) (zeros : Bool) (cs : List Char) : Option (List Char × List Char) :=
  digitsFrom? base zeros {} cs

def signedDigits? (zeros : Bool) : List Char → Option (Bool × List Char × List Char)
  | '-' :: cs => (digits? 10 zeros cs).map (true, ·)
  | cs => (digits? 10 zeros (dropPlus cs)).map (false, ·)

/-- Whether a word is a whole number to a base, of at most 64 bits. -/
def isBased (base : Nat) (cs : List Char) : Bool :=
  match digits? base true cs with
  | some (ds, []) => (Text.Numeral.digits? base ds).any (· < Text.Numeral.capacity 63)
  | _ => false

def isInteger (cs : List Char) : Bool :=
  match signedDigits? false cs with
  | some (negative, ds, []) =>
    let bound := Text.Numeral.capacity 63 + if negative then 1 else 0
    (Text.Numeral.digits? 10 ds).any (· < bound)
  | _ => false

def isExponentSign (c : Char) : Bool := c == 'e' || c == 'E'

/-- The exponent behind the digits of a number. Its letter may be the end of a word, with a plus
sign between it and the next. -/
def exponent? (cs : List Char) (ts : List Token) : Option (Int × List Token) :=
  match cs with
  | [] => some (0, ts)
  | [c] =>
    if isExponentSign c then
      let ts := if ts.head? = some (.sign '+') then ts.drop 1 else ts
      match ts with
      | .bare ds :: ts => match digits? 10 true ds with
        | some (ds, []) => (Text.Numeral.digits? 10 ds).map fun n => ((n : Int), ts)
        | _ => none
      | _ => none
    else none
  | c :: cs =>
    if isExponentSign c then
      match signedDigits? true cs with
      | some (negative, ds, []) =>
        (Text.Numeral.digits? 10 ds).map fun n => (if negative then -(n : Int) else n, ts)
      | _ => none
    else none

def float? (cs : List Char) (fraction? : Option (List Char)) (ts : List Token) :
    Option (List Token) := do
  let (_, whole, rest) ← signedDigits? false cs
  let (part, rest) ← match fraction? with
    | some f => if rest.isEmpty then digits? 10 true f else none
    | none => some ([], rest)
  let (e, ts) ← exponent? rest ts
  if isFinite ⟨whole ++ part, e - part.length⟩ then some ts else none

def number? (cs : List Char) (ts : List Token) : Option (List Token) :=
  match cs with
  | '0' :: 'x' :: ds => if isBased 16 ds then some ts else none
  | '0' :: 'o' :: ds => if isBased 8 ds then some ts else none
  | '0' :: 'b' :: ds => if isBased 2 ds then some ts else none
  | cs =>
    if cs.any isExponentSign then float? cs none ts
    else match ts with
      | .sign '.' :: .bare f :: ts => float? cs (some f) ts
      | .sign '.' :: _ => none
      | ts =>
        if ["inf", "-inf", "nan", "-nan"].any (·.toList == cs) || isInteger cs then some ts
        else none

def word? : List Token → Option (List Token)
  | .bare _ :: ts => some ts
  | _ => none

def part? (c : Char) (ts : List Token) : Option (List Token) :=
  if ts.head? = some (.sign c) then word? (ts.drop 1) else some ts

def time? (ts : List Token) : Option (List Token) := do
  match ← word? ts with
  | .sign ':' :: ts => part? ':' (← part? '+' (← part? '.' (← word? ts)))
  | _ => none

def date? (ts : List Token) : Option (List Token) :=
  let ts := match ts with
    | .blank true :: .bare _ :: ts => ts
    | ts => ts
  match ts with
  | .sign ':' :: ts => time? ts
  | ts => some ts

def looksLikeDate (cs : List Char) : Bool :=
  cs.contains 'T' || cs.contains 't' ||
    (cs.tail.contains '-' && !Text.Search.contains ['e', '-'] cs &&
      !Text.Search.contains ['E', '-'] cs)

def value? (cs : List Char) (ts : List Token) : Option (List Token) :=
  if cs = "true".toList ∨ cs = "false".toList then some ts
  else if cs = "inf".toList ∨ cs = "nan".toList ∨ cs.head?.any fun c => c == '-' || c.isDigit then
    if looksLikeDate cs then date? ts
    else if ts.head? = some (.sign ':') then time? (ts.drop 1)
    else number? cs ts
  else none

end EndpointCatalog.Toml.Bare
