import EndpointCatalog.Text.Numeral

namespace EndpointCatalog.Toml

open Text.Numeral

inductive Token where
  /-- Blanks of one line; `single` if they are just one space. -/
  | blank (single : Bool)
  | newLine
  | comment
  | sign (c : Char)
  | bare (word : List Char)
  | quoted (text : List Char) (multiline : Bool)
deriving DecidableEq, Repr

namespace Token

def signs : List Char := ['=', '.', ',', ':', '+', '{', '}', '[', ']']

def isBlank (c : Char) : Bool := c == ' ' || c == '\t'

def isBare (c : Char) : Bool := c.isAlphanum || c == '-' || c == '_'

def isCommentChar (c : Char) : Bool := c == '\t' || 0x20 ≤ c.toNat

def isTextChar (c : Char) : Bool := isCommentChar c && c.toNat != 0x7F

def foldReturns : List Char → List Char
  | '\r' :: '\n' :: cs => '\n' :: foldReturns cs
  | c :: cs => c :: foldReturns cs
  | [] => []

def letters : List (Char × Char) :=
  [('"', '"'), ('\\', '\\'), ('b', '\x08'), ('f', '\x0c'), ('n', '\n'), ('r', '\r'), ('t', '\t')]

/-- The letter of an escape that is followed by digits, and how many there are. -/
def codeLength? (c : Char) : Option Nat :=
  if c = 'u' then some 4 else if c = 'U' then some 8 else none

def afterLineEnd? (cs : List Char) : Option (List Char) :=
  match cs.dropWhile isBlank with
  | '\n' :: ds => some (ds.dropWhile fun c => isBlank c || c == '\n')
  | [] => some []
  | _ => none

/-- What an escape stands for, and the number of characters that it takes. -/
def escaped? (multiline : Bool) (cs : List Char) : Option (List Char × Nat) :=
  match cs with
  | [] => none
  | c :: ds =>
    match codeLength? c with
    | some n =>
      if (ds.take n).length = n then
        (hexNumber? (ds.take n)).bind fun v => (charOf? v).map fun e => ([e], n + 1)
      else none
    | none =>
      if multiline && (isBlank c || c == '\n') then
        (afterLineEnd? cs).map fun rest => ([], cs.length - rest.length)
      else (letters.lookup c).map fun e => ([e], 1)

def quotesBefore (q : Char) (cs : List Char) : Nat := (cs.takeWhile (· == q)).length

/-- The text up to its closing quote `q`, or up to three of them, of which two more may belong to
the text. -/
def quotedFrom? (q : Char) (multiline : Bool) (cs : List Char) : Option (List Char × List Char) :=
  match cs with
  | [] => none
  | c :: cs =>
    if c = q then
      if !multiline then some ([], cs)
      else
        let n := quotesBefore q cs
        if n < 2 then (quotedFrom? q multiline cs).map fun (s, cs) => (c :: s, cs)
        else some (List.replicate (min n 4 - 2) q, cs.drop (min n 4))
    else if c = '\\' && q == '"' then
      match escaped? multiline cs with
      | some (s, n) => (quotedFrom? q multiline (cs.drop n)).map fun (t, cs) => (s ++ t, cs)
      | none => none
    else if isTextChar c || (multiline && c == '\n') then
      (quotedFrom? q multiline cs).map fun (s, cs) => (c :: s, cs)
    else none
termination_by cs.length
decreasing_by all_goals simp only [List.length_cons, List.length_drop]; omega

/-- A quoted text from behind its first quote on. Three quotes begin a text of several lines,
whose first line end does not count. -/
def quoted? (q : Char) (cs : List Char) : Option (Token × List Char) :=
  match cs with
  | c :: d :: ds =>
    if c = q && d == q then
      let ds := if ds.head? = some '\n' then ds.drop 1 else ds
      (quotedFrom? q true ds).map fun (s, cs) => (quoted s true, cs)
    else (quotedFrom? q false cs).map fun (s, cs) => (quoted s false, cs)
  | _ => (quotedFrom? q false cs).map fun (s, cs) => (quoted s false, cs)

def next? (c : Char) (cs : List Char) : Option (Token × List Char) :=
  if c = '\n' then some (newLine, cs)
  else if isBlank c then
    some (blank (c == ' ' && !(cs.head?.any isBlank)), cs.dropWhile isBlank)
  else if c = '#' then some (comment, cs.dropWhile isCommentChar)
  else if signs.contains c then some (sign c, cs)
  else if c = '"' ∨ c = '\'' then quoted? c cs
  else if isBare c then some (bare (c :: cs.takeWhile isBare), cs.dropWhile isBare)
  else none

def all? (n : Nat) (cs : List Char) : Option (List Token) :=
  match n, cs with
  | _, [] => some []
  | 0, _ => none
  | n + 1, c :: cs => do
    let (t, cs) ← next? c cs
    return t :: (← all? n cs)

def dropMark : List Char → List Char
  | '\uFEFF' :: cs => cs
  | cs => cs

def ofText? (text : String) : Option (List Token) :=
  let cs := foldReturns (dropMark text.toList)
  all? cs.length cs

end Token

end EndpointCatalog.Toml
