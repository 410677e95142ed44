import EndpointCatalog.Text.CaseTable

namespace EndpointCatalog.Text.Casing

open Text.Ranges Text.CaseTable

def lowerChar (c : Char) : List Char :=
  if c.toNat < 0x80 then [c.toLower]
  else if c = '\u0130' then ['i', '\u0307']
  else [shifted lowerRuns c]

def upperChar (c : Char) : List Char :=
  if c.toNat < 0x80 then [c.toUpper]
  else match upperExpansions.lookup c.toNat with
    | some ns => ns.map Char.ofNat
    | none => [shifted upperRuns c]

/-- Whether the nearest character that is not passed over is a letter with a case. -/
def nextIsCased (cs : List Char) : Bool :=
  match cs.dropWhile (holds ignorableRanges) with
  | [] => false
  | c :: _ => holds casedRanges c

/-- The lower case of `cs`, where `before` holds the characters in front of it, nearest first. -/
def lowerAfter (before : List Char) : List Char → List Char
  | [] => []
  | c :: cs =>
    (if c = 'Σ' then [if nextIsCased before && !nextIsCased cs then 'ς' else 'σ']
      else lowerChar c) ++ lowerAfter (c :: before) cs

def lower (cs : List Char) : List Char := lowerAfter [] cs

def upper (cs : List Char) : List Char := cs.flatMap upperChar

def lowercase (s : String) : String := String.ofList (lower s.toList)

def uppercase (s : String) : String := String.ofList (upper s.toList)

end EndpointCatalog.Text.Casing
