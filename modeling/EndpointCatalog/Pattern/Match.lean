import EndpointCatalog.Pattern.Basic

namespace EndpointCatalog

/-- A point in a text: how many characters lie before it, and those that follow. -/
structure Cursor where
  offset : Nat
  rest : List Char
deriving DecidableEq, Repr

namespace Cursor

def start (cs : List Char) : Cursor := ⟨0, cs⟩

def upTo (a b : Cursor) : List Char := a.rest.take (b.offset - a.offset)

end Cursor

/-- A way to take a text: where it ends, and the texts of the groups, the latest first. -/
structure Run where
  stop : Cursor
  groups : List (Nat × List Char)
deriving DecidableEq, Repr

namespace Run

def andThen (r s : Run) : Run := ⟨s.stop, s.groups ++ r.groups⟩

end Run

namespace Pattern

/-- The ways to go on with a repetition after `r`, each further time taking at least one
character; `n` bounds how often. Puts them in front of `others`. -/
def again (once : Cursor → List Run) (greedy : Bool) : Nat → Run → List Run → List Run
  | 0, r, others => r :: others
  | n + 1, r, others =>
    let further := fun after =>
      ((once r.stop).filter (r.stop.offset < ·.stop.offset)).foldr
        (fun s => again once greedy n (r.andThen s)) after
    if greedy then further (r :: others) else r :: further others

def runs : Pattern → Cursor → List Run
  | empty, a => [⟨a, []⟩]
  | one s, a =>
    match a.rest with
    | [] => []
    | c :: cs => if s.contains c then [⟨⟨a.offset + 1, cs⟩, []⟩] else []
  | seq p q, a => (runs p a).flatMap fun r => (runs q r.stop).map r.andThen
  | alt p q, a => runs p a ++ runs q a
  | plus greedy p, a =>
    (runs p a).foldr
      (fun r others =>
        if r.stop.offset = a.offset then r :: others
        else again (runs p) greedy r.stop.rest.length r others) []
  | group i p, a => (runs p a).map fun r => ⟨r.stop, (i, a.upTo r.stop) :: r.groups⟩
  | atStart, a => if a.offset = 0 then [⟨a, []⟩] else []
  | atEnd, a => if a.rest.isEmpty then [⟨a, []⟩] else []

end Pattern

structure Match where
  start : Cursor
  run : Run
deriving DecidableEq, Repr

namespace Match

def stop (m : Match) : Cursor := m.run.stop

def group? (m : Match) (i : Nat) : Option (List Char) := m.run.groups.lookup i

end Match

namespace Pattern

variable (p : Pattern)

/-- The first match that starts at `offset` or later, where `rest` is the text from there. -/
def findFrom? (offset : Nat) (rest : List Char) : Option Match :=
  match (p.runs ⟨offset, rest⟩).head? with
  | some r => some ⟨⟨offset, rest⟩, r⟩
  | none =>
    match rest with
    | [] => none
    | _ :: cs => findFrom? (offset + 1) cs

def find? (text : List Char) : Option Match := p.findFrom? 0 text

/-- The first match from `a` on that is not empty at the offset `last`. -/
def next? (a : Cursor) (last : Option Nat) : Option Match :=
  match p.findFrom? a.offset a.rest with
  | none => none
  | some m =>
    if m.stop.offset = m.start.offset ∧ last = some m.stop.offset then
      match a.rest with
      | [] => none
      | _ :: cs => p.findFrom? (a.offset + 1) cs
    else some m

def findAllFrom : Nat → Cursor → Option Nat → List Match
  | 0, _, _ => []
  | n + 1, a, last =>
    match p.next? a last with
    | none => []
    | some m => m :: findAllFrom n m.stop (some m.stop.offset)

def findAll (text : List Char) : List Match :=
  p.findAllFrom (2 * text.length + 2) (.start text) none

end Pattern

end EndpointCatalog
