import EndpointCatalog.Text.Search

namespace EndpointCatalog.Controller.Parameter

open Text.Blank Text.Search

/-- Where a reader of a parameter list stands: inside a quotation or not, and how deep inside
brackets. -/
structure Nesting where
  quote? : Option Char := none
  depth : Nat := 0
deriving DecidableEq, Repr

namespace Nesting

def atTop (n : Nesting) : Bool := n.quote? == none && n.depth == 0

def step (n : Nesting) (c : Char) : Nesting :=
  match n.quote? with
  | some q => if c = q then { n with quote? := none } else n
  | none =>
    if c = '\'' ∨ c = '"' then { n with quote? := some c }
    else if c = '(' ∨ c = '[' then { n with depth := n.depth + 1 }
    else if c = ')' ∨ c = ']' then { n with depth := n.depth - 1 }
    else n

end Nesting

/-- Cuts a list at the commas that stand at the top. -/
def splitFrom (n : Nesting) : List Char → List (List Char)
  | [] => [[]]
  | c :: cs =>
    if n.atTop && c == ',' then [] :: splitFrom n cs
    else match splitFrom (n.step c) cs with
      | [] => [[c]]
      | w :: ws => (c :: w) :: ws

def split (cs : List Char) : List (List Char) := splitFrom {} cs

def dropEllipses : List Char → List Char
  | '.' :: '.' :: '.' :: cs => dropEllipses cs
  | cs => cs

def nameOf? (piece : List Char) : Option (List Char) :=
  match (words (trim (piece.takeWhile (· ≠ '=')))).getLast? with
  | none => none
  | some w =>
    let name := (dropEllipses (w.dropWhile (· = '&'))).dropWhile (· = '$')
    if name.isEmpty then none else some name

def names (cs : List Char) : List (List Char) :=
  if cs.all isBlank then [] else (split cs).filterMap nameOf?

def parse (text : String) : List String := (names text.toList).map String.ofList

end EndpointCatalog.Controller.Parameter
