import EndpointCatalog.Text.Numeral
import EndpointCatalog.Yaml.Input

namespace EndpointCatalog.Yaml.Quoted

open Text.Numeral

def letters : List (Char × Char) :=
  [('0', '\x00'), ('a', '\x07'), ('b', '\x08'), ('t', '\t'), ('n', '\n'), ('v', '\x0b'),
    ('f', '\x0c'), ('r', '\r'), ('e', '\x1b'), ('"', '"'), ('\\', '\\'), ('N', '\x85'),
    ('_', '\xa0'), ('L', '\u2028'), ('P', '\u2029'), (' ', ' '), ('/', '/'), ('\t', '\t')]

def codeLength? (c : Char) : Option Nat :=
  if c = 'x' then some 2 else if c = 'u' then some 4 else if c = 'U' then some 8 else none

/-- What the escape with the letter `c` stands for, and how many characters of `cs` belong
to it. -/
def escaped? (c : Char) (cs : List Char) : Option (Char × Nat) :=
  match codeLength? c with
  | none => (letters.lookup c).map (·, 0)
  | some n =>
    if (cs.take n).length = n then
      (hexNumber? (cs.take n)).bind fun v => (charOf? v).map (·, n)
    else none

/-- The text of a quoted scalar from inside it on, and what follows its closing quote. `g` is the
white space just passed. -/
def readFrom (single : Bool) (g : Gap) (m : Mark) (cs : List Char) :
    Option (List Char × Input) :=
  match cs with
  | [] => none
  | c :: cs =>
    if isBlank c then readFrom single (g.addBlank c) m.next cs
    else if atReturn c cs then readFrom single g m.pass cs
    else if isBreak c then readFrom single (g.addBreak c) m.newLine cs
    else if m.column = 0 && atDocumentMark (c :: cs) then none
    else if single && c == '\'' then
      match cs with
      | '\'' :: cs =>
        (readFrom single {} (m.nextBy 2) cs).map fun (s, i) => (g.text ++ '\'' :: s, i)
      | cs => some (g.text, ⟨m.next, cs⟩)
    else if !single && c == '"' then some (g.text, ⟨m.next, cs⟩)
    else if !single && c == '\\' then
      match cs with
      | [] => none
      | d :: ds =>
        if atReturn d ds then
          (readFrom single { escaped := true } m.next.pass.newLine (ds.drop 1)).map fun (s, i) =>
            (g.text ++ s, i)
        else if isBreak d then
          (readFrom single { escaped := true } m.next.newLine ds).map fun (s, i) =>
            (g.text ++ s, i)
        else match escaped? d ds with
          | none => none
          | some (e, n) =>
            (readFrom single {} (m.nextBy (n + 2)) (ds.drop n)).map fun (s, i) =>
              (g.text ++ e :: s, i)
    else (readFrom single {} m.next cs).map fun (s, i) => (g.text ++ c :: s, i)
termination_by cs.length
decreasing_by all_goals simp only [List.length_cons, List.length_drop]; omega

def read? (single : Bool) (i : Input) : Option (List Char × Input) :=
  readFrom single {} i.mark.next (i.rest.drop 1)

def hexDigit (n : Nat) : Char := if n < 10 then Char.ofNat (48 + n) else Char.ofNat (55 + n)

def hexDigits (n : Nat) : Nat → List Char
  | 0 => []
  | width + 1 => hexDigits (n / 16) width ++ [hexDigit (n % 16)]

def isPrintable (c : Char) : Bool :=
  let n := c.toNat
  n == 0xA || (0x20 ≤ n && n ≤ 0x7E) || (0xA0 ≤ n && n ≤ 0xD7FF) ||
    (0xE000 ≤ n && n ≤ 0xFFFD && n != 0xFEFF) || 0x10000 ≤ n

def needsEscape (c : Char) : Bool := !isPrintable c || isBreak c || c == '"' || c == '\\'

def letterOf? (c : Char) : Option Char := (letters.find? (·.2 == c)).map (·.1)

def escape (c : Char) : List Char :=
  match letterOf? c with
  | some l => ['\\', l]
  | none =>
    if c.toNat ≤ 0xFF then '\\' :: 'x' :: hexDigits c.toNat 2
    else if c.toNat ≤ 0xFFFF then '\\' :: 'u' :: hexDigits c.toNat 4
    else '\\' :: 'U' :: hexDigits c.toNat 8

def writeDouble (s : List Char) : List Char :=
  '"' :: s.flatMap (fun c => if needsEscape c then escape c else [c]) ++ ['"']

def spaces (n : Nat) : List Char := List.replicate n ' '

/-- A text between single quotes, where `broken` tells whether a break has just been written;
what follows a break is indented. -/
def singleFrom (indent : Nat) (broken : Bool) : List Char → List Char
  | [] => (if broken then spaces indent else []) ++ ['\'']
  | c :: cs =>
    if isBreak c then c :: singleFrom indent true cs
    else (if broken then spaces indent else []) ++ (if c = '\'' then ['\''] else []) ++
      c :: singleFrom indent false cs

def writeSingle (indent : Nat) (s : List Char) : List Char := '\'' :: singleFrom indent false s

end EndpointCatalog.Yaml.Quoted
