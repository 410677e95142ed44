import EndpointCatalog.Json.Number
import EndpointCatalog.Json.Quoted

namespace EndpointCatalog.Json

abbrev Reader (α : Type) := List Char → Option (α × List Char)

def isBlank (c : Char) : Bool := c == ' ' || c == '\n' || c == '\t' || c == '\r'

def skipBlanks (cs : List Char) : List Char := cs.dropWhile isBlank

def words : List (List Char × Value) :=
  [("null".toList, .null), ("true".toList, .bool true), ("false".toList, .bool false)]

def word? (cs : List Char) : Option (Value × List Char) :=
  words.findSome? fun (w, v) => if w.isPrefixOf cs then some (v, cs.drop w.length) else none

def scalar? : Reader Value
  | '"' :: cs => (Quoted.read? cs).map fun (s, cs) => (.text (String.ofList s), cs)
  | cs => (word? cs).or (Number.read? cs)

/-- Reads `part?` again and again, with commas between, until `close`; `n` bounds how often. -/
def parts? {α : Type} (part? : Reader α) (close : Char) (n : Nat) (cs : List Char) :
    Option (List α × List Char) :=
  match n with
  | 0 => none
  | n + 1 => do
    let (v, cs) ← part? (skipBlanks cs)
    match skipBlanks cs with
    | [] => none
    | c :: cs =>
      if c = close then some ([v], cs)
      else if c = ',' then (parts? part? close n cs).map fun (vs, cs) => (v :: vs, cs)
      else none

def collection? {α : Type} (part? : Reader α) (close : Char) (cs : List Char) :
    Option (List α × List Char) :=
  if (skipBlanks cs).head? = some close then some ([], (skipBlanks cs).drop 1)
  else parts? part? close cs.length cs

def field? (value? : Reader Value) : Reader (String × Value)
  | '"' :: cs => do
    let (name, cs) ← Quoted.read? cs
    match skipBlanks cs with
    | ':' :: cs => do
      let (v, cs) ← value? (skipBlanks cs)
      pure ((String.ofList name, v), cs)
    | _ => none
  | _ => none

/-- A value whose collections are nested at most `depth` times. -/
def value? : Nat → Reader Value
  | 0 => scalar?
  | depth + 1 => fun
    | '[' :: cs => (collection? (value? depth) ']' cs).map fun (vs, cs) => (.list vs, cs)
    | '{' :: cs => (collection? (field? (value? depth)) '}' cs).map fun (es, cs) =>
        (.fields (es.foldl (fun fs e => insert e.1 e.2 fs) []), cs)
    | cs => scalar? cs

def depthLimit : Nat := 127

def parse? (text : String) : Option Value := do
  let (v, cs) ← value? depthLimit (skipBlanks text.toList)
  if (skipBlanks cs).isEmpty then some v else none

end EndpointCatalog.Json
