import EndpointCatalog.Yaml.Quoted

namespace EndpointCatalog.Yaml.Plain

open Quoted

def isFlowSign (c : Char) : Bool := c == ',' || c == '[' || c == ']' || c == '{' || c == '}'

/-- Whether a colon before `cs` may not stand in a scalar inside a flow collection. -/
def clashes (cs : List Char) : Bool :=
  match cs with
  | c :: _ => isFlowSign c || c == '?'
  | [] => false

def ends (flow : Bool) (c : Char) (cs : List Char) : Bool :=
  (c == ':' && atGap cs) || (flow && isFlowSign c)

/-- The text of a plain scalar, whether a line break was passed behind it, and what follows. `g` is
the white space just passed. -/
def readFrom (flow : Bool) (indent : Int) (g : Gap) (m : Mark) :
    List Char → Option (List Char × Bool × Input)
  | [] => some ([], g.broken, ⟨m, []⟩)
  | c :: cs =>
    if isBlank c then
      if g.broken && m.column < indent && c == '\t' then none
      else readFrom flow indent (g.addBlank c) m.next cs
    else if atReturn c cs then readFrom flow indent g m.pass cs
    else if isBreak c then readFrom flow indent (g.addBreak c) m.newLine cs
    else if (!g.isEmpty && (c == '#' || (!flow && m.column < indent)))
        || (m.column = 0 && atDocumentMark (c :: cs)) then
      some ([], g.broken, ⟨m, c :: cs⟩)
    else if flow && c == ':' && clashes cs then none
    else if ends flow c cs then some ([], g.broken, ⟨m, c :: cs⟩)
    else (readFrom flow indent {} m.next cs).map fun (s, b, i) => (g.text ++ c :: s, b, i)

def read? (flow : Bool) (indent : Int) (i : Input) : Option (List Char × Bool × Input) :=
  readFrom flow indent {} i.mark i.rest

def isSign (c : Char) : Bool :=
  isFlowSign c || c == '#' || c == '&' || c == '*' || c == '!' || c == '|' || c == '>' ||
    c == '\'' || c == '"' || c == '%' || c == '@' || c == '`'

def mayStart (flow : Bool) (c : Char) (cs : List Char) : Bool :=
  if c == '-' then !(match cs with | d :: _ => isBlank d | [] => false)
  else if c == '?' || c == ':' then !flow && !atGap cs
  else !(isSign c || isBlank c || isBreak c)

/-- Whether what follows a character would be taken for white space. -/
def beforeSpace : List Char → Bool
  | [] => true
  | c :: _ => c == ' '

/-- Whether a text holds a colon before white space or a number sign behind it; `spaced` tells
whether a space precedes the text. -/
def hasBreakingSign (spaced : Bool) : List Char → Bool
  | [] => false
  | c :: cs =>
    (c == ':' && beforeSpace cs) || (c == '#' && spaced) || hasBreakingSign (c == ' ') cs

def startsWithSign : List Char → Bool
  | [] => false
  | c :: cs => isSign c || ((c == '-' || c == '?' || c == ':') && beforeSpace cs)

def startsWithMark (cs : List Char) : Bool :=
  ['-', '-', '-'].isPrefixOf cs || ['.', '.', '.'].isPrefixOf cs

def allowed (cs : List Char) : Bool :=
  cs.all (fun c => isPrintable c && !isBreak c) && cs.head? != some ' ' &&
    cs.getLast? != some ' ' && !startsWithMark cs && !startsWithSign cs &&
    !hasBreakingSign true cs

end EndpointCatalog.Yaml.Plain
