import EndpointCatalog.Yaml.Quoted

namespace EndpointCatalog.Yaml.Block

open Quoted

/-- Which of the line breaks at the end belong to the scalar. -/
inductive Chomp where
  | strip
  | clip
  | keep
deriving DecidableEq, Repr

structure Header where
  chomp : Chomp := .clip
  increment : Nat := 0
deriving DecidableEq, Repr

def chompOf? (c : Char) : Option Chomp :=
  if c = '+' then some .keep else if c = '-' then some .strip else none

def incrementOf? (c : Char) : Option Nat :=
  if c.isDigit then some (c.toNat - '0'.toNat) else none

/-- The signs behind `|` or `>`, in either order. -/
def header (cs : List Char) : Header × Nat :=
  match cs with
  | [] => ({}, 0)
  | c :: cs =>
    match chompOf? c, incrementOf? c, cs.head?.bind chompOf?, cs.head?.bind incrementOf? with
    | some k, _, _, some n => (⟨k, n⟩, 2)
    | some k, _, _, none => ({ chomp := k }, 1)
    | none, some n, some k, _ => (⟨k, n⟩, 2)
    | none, some n, none, _ => ({ increment := n }, 1)
    | none, none, _, _ => ({}, 0)

def hasZero (cs : List Char) : Bool := (cs.take (header cs).2).contains '0'

/-- The line breaks in front of a line, the greatest column that was reached, and the line. With an
indentation of zero, which is not known yet, all spaces belong to the indentation. -/
def breaks (indent : Nat) (most : Nat) (m : Mark) : List Char → Option (List Char × Nat × Input)
  | [] => some ([], max most m.column, ⟨m, []⟩)
  | c :: cs =>
    if (indent = 0 || m.column < indent) && c == ' ' then breaks indent most m.next cs
    else if (indent = 0 || m.column < indent) && c == '\t' then none
    else if atReturn c cs then breaks indent most m.pass cs
    else if isBreak c then
      (breaks indent (max most m.column) m.newLine cs).map fun (bs, r) => (breakOf c :: bs, r)
    else some ([], max most m.column, ⟨m, c :: cs⟩)

def lineEnd (i : Input) : List Char × Input :=
  match i.rest with
  | [] => ([], i)
  | c :: cs => ([if atReturn c cs then '\n' else breakOf c], i.skipBreak)

def startsBlank : List Char → Bool
  | [] => false
  | c :: _ => isBlank c

/-- The breaks between two lines; in a folded scalar a lone break is a space, unless one of the
lines starts with a blank. -/
def between (literal : Bool) (lead trail : List Char) (blank blank' : Bool) : List Char :=
  if !literal && lead == ['\n'] && !blank && !blank' then
    if trail.isEmpty then [' '] else trail
  else lead ++ trail

def ending (chomp : Chomp) (lead trail : List Char) : List Char :=
  match chomp with
  | .strip => []
  | .clip => lead
  | .keep => lead ++ trail

/-- The lines of a block scalar: `lead` and `trail` are the breaks just passed, and `blank` tells
whether the line before started with a blank. At most `n` lines are read. -/
def lines (literal : Bool) (chomp : Chomp) (indent : Nat) :
    Nat → List Char → List Char → Bool → Input → Option (List Char × Input)
  | 0, lead, trail, _, i => some (ending chomp lead trail, i)
  | n + 1, lead, trail, blank, i =>
    if i.mark.column = indent && !i.rest.isEmpty then
      let blank' := startsBlank i.rest
      let line := i.rest.takeWhile (!isBreak ·)
      let (lead', i) := lineEnd (i.skipWhile (!isBreak ·))
      match breaks indent 0 i.mark i.rest with
      | none => none
      | some (trail', _, i) =>
        (lines literal chomp indent n lead' trail' blank' i).map fun (s, i) =>
          (between literal lead trail blank blank' ++ line ++ s, i)
    else some (ending chomp lead trail, i)

def afterHeader? (i : Input) : Option Input :=
  let i := i.skipWhile isBlank
  let i := if i.rest.head? = some '#' then i.skipWhile (!isBreak ·) else i
  if atLineEnd i.rest then some i.skipBreak else none

def read? (literal : Bool) (parent : Int) (i : Input) : Option (List Char × Input) := do
  let i := i.skip 1
  let (h, n) := header i.rest
  if hasZero i.rest then none
  let i ← afterHeader? (i.skip n)
  let known := if h.increment = 0 then 0 else (max parent 0).toNat + h.increment
  let (trail, most, i) ← breaks known 0 i.mark i.rest
  let indent := if known = 0 then max (max most (parent + 1).toNat) 1 else known
  lines literal h.chomp indent (i.rest.length + 1) [] trail false i

/-- The sign for the indentation, where the first line would not show it. -/
def indentSign (s : List Char) : List Char :=
  match s with
  | c :: _ => if c = ' ' || isBreak c then ['2'] else []
  | [] => []

def chompSign (s : List Char) : List Char :=
  match s.reverse with
  | [] => ['-']
  | [c] => if isBreak c then ['+'] else ['-']
  | c :: d :: _ => if !isBreak c then ['-'] else if isBreak d then ['+'] else []

def writeLines (indent : Nat) (fresh : Bool) : List Char → List Char
  | [] => []
  | c :: cs =>
    if isBreak c then c :: writeLines indent true cs
    else (if fresh then spaces indent else []) ++ c :: writeLines indent false cs

def writeLiteral (indent : Nat) (s : List Char) : List Char :=
  '|' :: indentSign s ++ chompSign s ++ '\n' :: writeLines indent true s

end EndpointCatalog.Yaml.Block
