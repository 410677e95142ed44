import EndpointCatalog.Text.Numeral

namespace EndpointCatalog.Json.Quoted

open Text.Numeral

def letters : List (Char × Char) :=
  [('"', '"'), ('\\', '\\'), ('/', '/'), ('b', '\x08'), ('f', '\x0c'), ('n', '\n'), ('r', '\r'),
    ('t', '\t')]

def isLead (n : Nat) : Bool := 0xD800 ≤ n && n < 0xDC00

def isTrail (n : Nat) : Bool := 0xDC00 ≤ n && n < 0xE000

def code? (cs : List Char) : Option Nat :=
  if (cs.take 4).length = 4 then hexNumber? (cs.take 4) else none

/-- What the escape whose backslash is past stands for, and how many characters it takes. -/
def escaped? : List Char → Option (Char × Nat)
  | [] => none
  | 'u' :: cs => do
    let n ← code? cs
    if isLead n then
      match cs.drop 4 with
      | '\\' :: 'u' :: ds => do
        let m ← code? ds
        if isTrail m then
          return (← charOf? (0x10000 + (n - 0xD800) * 0x400 + (m - 0xDC00)), 11)
        else none
      | _ => none
    else return (← charOf? n, 5)
  | c :: _ => (letters.lookup c).map (·, 1)

def read? : List Char → Option (List Char × List Char)
  | [] => none
  | c :: cs =>
    if c = '"' then some ([], cs)
    else if c = '\\' then
      match escaped? cs with
      | some (d, n) => (read? (cs.drop n)).map fun (s, cs) => (d :: s, cs)
      | none => none
    else if c.toNat < 0x20 then none
    else (read? cs).map fun (s, cs) => (c :: s, cs)
termination_by cs => cs.length
decreasing_by all_goals simp only [List.length_cons, List.length_drop]; omega

def hexDigit (n : Nat) : Char := ((Nat.toDigits 16 n).head?).getD '0'

def writeChar (c : Char) : List Char :=
  if c = '/' then [c]
  else match letters.find? (·.2 == c) with
    | some (l, _) => ['\\', l]
    | none =>
      if c.toNat < 0x20 then
        ['\\', 'u', '0', '0', hexDigit (c.toNat / 16), hexDigit (c.toNat % 16)]
      else [c]

def write (s : List Char) : List Char := '"' :: s.flatMap writeChar ++ ['"']

end EndpointCatalog.Json.Quoted
