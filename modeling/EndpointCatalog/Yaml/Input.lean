namespace EndpointCatalog.Yaml

/-- A place: how many characters lie before it, its line, and its column in the line. -/
structure Mark where
  index : Nat := 0
  line : Nat := 0
  column : Nat := 0
deriving DecidableEq, Repr

namespace Mark

def next (m : Mark) : Mark := ⟨m.index + 1, m.line, m.column + 1⟩

def nextBy (m : Mark) (n : Nat) : Mark := ⟨m.index + n, m.line, m.column + n⟩

def newLine (m : Mark) : Mark := ⟨m.index + 1, m.line + 1, 0⟩

def pass (m : Mark) : Mark := { m with index := m.index + 1 }

end Mark

structure Input where
  mark : Mark
  rest : List Char

def isBlank (c : Char) : Bool := c == ' ' || c == '\t'

def isBreak (c : Char) : Bool :=
  c == '\n' || c == '\r' || c == '\x85' || c == '\u2028' || c == '\u2029'

def atGap : List Char → Bool
  | [] => true
  | c :: _ => isBlank c || isBreak c

def atLineEnd : List Char → Bool
  | [] => true
  | c :: _ => isBreak c

def breakOf (c : Char) : Char := if c = '\u2028' ∨ c = '\u2029' then c else '\n'

def atReturn (c : Char) (cs : List Char) : Bool := c == '\r' && cs.head? == some '\n'

/-- Whether a text starts with the mark that opens or ends a document. -/
def atDocumentMark : List Char → Bool
  | '-' :: '-' :: '-' :: cs => atGap cs
  | '.' :: '.' :: '.' :: cs => atGap cs
  | _ => false

namespace Input

def skip (i : Input) (n : Nat) : Input := ⟨i.mark.nextBy n, i.rest.drop n⟩

def skipWhile (p : Char → Bool) (i : Input) : Input :=
  ⟨i.mark.nextBy (i.rest.takeWhile p).length, i.rest.dropWhile p⟩

def skipBreak (i : Input) : Input :=
  match i.rest with
  | '\r' :: '\n' :: cs => ⟨i.mark.pass.newLine, cs⟩
  | c :: cs => if isBreak c then ⟨i.mark.newLine, cs⟩ else i
  | [] => i

end Input

/-- The white space between two parts of a scalar: the blanks before the first break, and the
breaks. An escaped break is not among them, but hides the blanks. -/
structure Gap where
  blanks : List Char := []
  breaks : List Char := []
  escaped : Bool := false
deriving DecidableEq, Repr

namespace Gap

def isEmpty (g : Gap) : Bool := g.blanks.isEmpty && g.breaks.isEmpty

def broken (g : Gap) : Bool := g.escaped || !g.breaks.isEmpty

def addBlank (g : Gap) (c : Char) : Gap :=
  if g.broken then g else { g with blanks := g.blanks ++ [c] }

def addBreak (g : Gap) (c : Char) : Gap := { g with breaks := g.breaks ++ [breakOf c] }

/-- What the gap contributes to the scalar: a lone break is a space, and the first of several is
dropped. -/
def text (g : Gap) : List Char :=
  if g.escaped then g.breaks
  else match g.breaks with
    | [] => g.blanks
    | ['\n'] => [' ']
    | '\n' :: bs => bs
    | bs => bs

end Gap

end EndpointCatalog.Yaml
