import EndpointCatalog.Toml.Value

namespace EndpointCatalog.Toml

structure Section where
  header : List String
  isItem : Bool
  entries : List (String × Value) := []

namespace Section

open Tokens

def header? (ts : Tokens) : Option (Section × Tokens) := do
  let isItem := ts.head? == some (.sign '[')
  let ts := if isItem then ts.drop 1 else ts
  let (names, ts) ← key? ts.length ts
  let ts ← expect? ']' ts
  let ts ← if isItem then expect? ']' ts else some ts
  return (⟨names, isItem, []⟩, ← lineEnd? ts)

/-- The sections from `current` on; `n` bounds the number of lines. -/
def allFrom? (current : Section) (n : Nat) (ts : Tokens) : Option (List Section) :=
  match n with
  | 0 => none
  | n + 1 =>
    match dropLines ts with
    | [] => some [current]
    | .sign '[' :: ts => do
      let (next, ts) ← header? ts
      return current :: (← allFrom? next n ts)
    | ts => do
      let (key, v, ts) ← line? ts
      let entries ← v.add? key current.entries
      allFrom? { current with entries } n ts

def below? (name : String) (s : Section) : Option Section :=
  match s.header with
  | [] => none
  | k :: ks => if k = name then some { s with header := ks } else none

/-- Cuts sections in front of each that starts an item. -/
def windows : List Section → List (List Section)
  | [] => []
  | s :: ss =>
    match windows ss with
    | [] => [[s]]
    | [] :: ws => [s] :: ws
    | (t :: w) :: ws =>
      if t.isItem && t.header.isEmpty then [s] :: (t :: w) :: ws else (s :: t :: w) :: ws

def unmarked : List Section → List Section
  | [] => []
  | s :: ss => { s with isItem := false } :: ss

mutual

/-- The entries of the table that some sections make up together; `n` bounds the length of their
headers. -/
def tableOf? (n : Nat) (ss : List Section) : Option (List (String × Value)) :=
  match n with
  | 0 => none
  | n + 1 => do
    let own := ss.filter (·.header.isEmpty)
    if 1 < own.length || own.any (·.isItem) then none
    else
      let names := (ss.filterMap (·.header.head?)).eraseDups
      let values ← names.mapM fun k => return (k, ← childOf? n (ss.filterMap (below? k)))
      return own.flatMap (·.entries) ++ values

/-- What some sections below one name are: a list, if the first starts an item, or a table. -/
def childOf? (n : Nat) (ss : List Section) : Option Value :=
  match n with
  | 0 => none
  | n + 1 =>
    if ss.head?.any fun s => s.isItem && s.header.isEmpty then
      (windows ss).mapM (fun w => (tableOf? n (unmarked w)).map (Value.table .header ·))
        |>.map .list
    else (tableOf? n ss).map (Value.table .header ·)

end

end Section

def parse? (text : String) : Option (List (String × Value)) := do
  let ts ← Token.ofText? text
  let ss ← Section.allFrom? ⟨[], false, []⟩ (ts.length + 1) ts
  Section.tableOf? (2 * ts.length + 2) ss

end EndpointCatalog.Toml
