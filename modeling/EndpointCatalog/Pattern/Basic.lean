import EndpointCatalog.Text.Blank
import EndpointCatalog.Text.Word

namespace EndpointCatalog

open Text

inductive CharSet where
  | range (first last : Char)
  | word
  | blank
  | digit
  | union (s t : CharSet)
  | complement (s : CharSet)
deriving DecidableEq, Repr

namespace CharSet

def single (c : Char) : CharSet := range c c

def inLine : CharSet := complement (single '\n')

def contains : CharSet → Char → Bool
  | range a b, c => a ≤ c && c ≤ b
  | word, c => Word.isWord c
  | blank, c => Blank.isBlank c
  | digit, c => Word.isDecimal c
  | union s t, c => s.contains c || t.contains c
  | complement s, c => !s.contains c

end CharSet

inductive Pattern where
  | empty
  | one (s : CharSet)
  | seq (p q : Pattern)
  | alt (p q : Pattern)
  | plus (greedy : Bool) (p : Pattern)
  | group (index : Nat) (p : Pattern)
  | atStart
  | atEnd
deriving DecidableEq, Repr

namespace Pattern

def char (c : Char) : Pattern := one (.single c)

def concat : List Pattern → Pattern
  | [] => empty
  | [p] => p
  | p :: ps => seq p (concat ps)

def choice : List Pattern → Pattern
  | [] => empty
  | [p] => p
  | p :: ps => alt p (choice ps)

def literal (s : String) : Pattern := concat (s.toList.map char)

def opt (greedy : Bool) (p : Pattern) : Pattern := if greedy then alt p empty else alt empty p

def star (greedy : Bool) (p : Pattern) : Pattern := opt greedy (plus greedy p)

def restOfLine : Pattern := star true (one .inLine)

end Pattern

end EndpointCatalog
