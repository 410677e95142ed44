import EndpointCatalog.Yaml.Block
import EndpointCatalog.Yaml.Implicit
import EndpointCatalog.Yaml.Plain

namespace EndpointCatalog.Yaml

open Quoted

/-- What a document can be written from; the names of fields are plain words. -/
inductive Value where
  | text (s : String)
  | bool (b : Bool)
  | list (items : List Value)
  | fields (entries : List (String × Value))

namespace Value

def hasPair (p q : Char → Bool) : List Char → Bool
  | c :: d :: cs => (p c && q d) || hasPair p q (d :: cs)
  | _ => false

def isSpace (c : Char) : Bool := c == ' '

def isShown (s : List Char) : Bool := s.all isPrintable && !hasPair isSpace isBreak s

def singleAllowed (s : List Char) : Bool := isShown s && !hasPair isBreak isSpace s

def literalAllowed (s : List Char) : Bool := isShown s && s.getLast? != some ' '

def writeText (indent : Nat) (s : List Char) : List Char :=
  if s.contains '\n' then
    if literalAllowed s then Block.writeLiteral indent s else writeDouble s
  else if !Implicit.looksTyped s && Plain.allowed s then s
  else if singleAllowed s then writeSingle indent s
  else writeDouble s

def endLine (cs : List Char) : List Char :=
  if (cs.getLast?).any isBreak then cs else cs ++ ['\n']

def writeBool (b : Bool) : List Char := if b then "true".toList else "false".toList

mutual

def writeItem (column : Nat) : Value → List Char
  | text s => endLine (writeText (column + 2) s.toList)
  | bool b => endLine (writeBool b)
  | list [] => "[]\n".toList
  | list (v :: vs) => writeItems (column + 2) [] (v :: vs)
  | fields [] => "\x7b\x7d\n".toList
  | fields (e :: es) => writeEntries (column + 2) [] (e :: es)

def writeField (column : Nat) : Value → List Char
  | text s => ' ' :: endLine (writeText (column + 2) s.toList)
  | bool b => ' ' :: endLine (writeBool b)
  | list [] => " []\n".toList
  | list (v :: vs) => '\n' :: writeItems column (spaces column) (v :: vs)
  | fields [] => " \x7b\x7d\n".toList
  | fields (e :: es) => '\n' :: writeEntries (column + 2) (spaces (column + 2)) (e :: es)

/-- The items of a list; `lead` stands before the first dash. -/
def writeItems (column : Nat) (lead : List Char) : List Value → List Char
  | [] => []
  | v :: vs =>
    lead ++ '-' :: ' ' :: writeItem column v ++ writeItems column (spaces column) vs

def writeEntries (column : Nat) (lead : List Char) : List (String × Value) → List Char
  | [] => []
  | (k, v) :: es =>
    lead ++ k.toList ++ ':' :: writeField column v ++ writeEntries column (spaces column) es

end

def writeDocument : List Value → List Char
  | [] => "[]\n".toList
  | v :: vs => writeItems 0 [] (v :: vs)

def document (vs : List Value) : String := String.ofList (writeDocument vs)

def texts (ss : List String) : Value := list (ss.map text)

end Value

end EndpointCatalog.Yaml
