import EndpointCatalog.Toml.Bare

namespace EndpointCatalog.Toml

/-- How a table came about: between braces, by the dots of a key, or by a header. -/
inductive TableKind where
  | braces
  | dots
  | header
deriving DecidableEq, Repr

inductive Value where
  | text (s : String)
  | bare
  | list (items : List Value)
  | table (kind : TableKind) (entries : List (String × Value))

namespace Value

def replaceFirst (name : String) (value : Value) :
    List (String × Value) → List (String × Value)
  | [] => []
  | (k, v) :: es => if k = name then (k, value) :: es else (k, v) :: replaceFirst name value es

/-- Adds a value under a key; the dots of the key lead only into tables made by dots. -/
def add? (value : Value) : List String → List (String × Value) → Option (List (String × Value))
  | [], _ => none
  | [k], es => some (es ++ [(k, value)])
  | k :: ks, es =>
    match es.lookup k with
    | none => (add? value ks []).map fun inner => es ++ [(k, table .dots inner)]
    | some (table .dots inner) =>
      (add? value ks inner).map fun inner => replaceFirst k (table .dots inner) es
    | some _ => none

end Value

open Token

abbrev Tokens := List Token

namespace Tokens

def dropBlanks (ts : Tokens) : Tokens :=
  ts.dropWhile fun t => match t with
    | .blank _ => true
    | _ => false

def dropLines (ts : Tokens) : Tokens :=
  ts.dropWhile fun t => match t with
    | .blank _ | .newLine | .comment => true
    | _ => false

def expect? (c : Char) (ts : Tokens) : Option Tokens :=
  if ts.head? = some (.sign c) then some (ts.drop 1) else none

def lineEnd? (ts : Tokens) : Option Tokens :=
  match dropBlanks ts with
  | [] => some []
  | .newLine :: ts => some ts
  | [.comment] => some []
  | .comment :: .newLine :: ts => some ts
  | _ => none

def name? : Tokens → Option (String × Tokens)
  | .bare w :: ts => some (String.ofList w, ts)
  | .quoted s false :: ts => some (String.ofList s, ts)
  | _ => none

def key? (n : Nat) (ts : Tokens) : Option (List String × Tokens) :=
  match n with
  | 0 => none
  | n + 1 => do
    let (k, ts) ← name? (dropBlanks ts)
    match dropBlanks ts with
    | .sign '.' :: ts => do
      let (ks, ts) ← key? n ts
      pure (k :: ks, ts)
    | ts => pure ([k], ts)

mutual

def value? (n : Nat) (ts : Tokens) : Option (Value × Tokens) :=
  match n, ts with
  | _, .quoted s _ :: ts => some (.text (String.ofList s), ts)
  | _, .bare w :: ts => (Bare.value? w ts).map (.bare, ·)
  | _, .sign '+' :: .bare w :: ts => (Bare.number? w ts).map (.bare, ·)
  | n + 1, .sign '[' :: ts => (items? n ts).map fun (vs, ts) => (.list vs, ts)
  | n + 1, .sign '{' :: ts =>
    if (dropBlanks ts).head? = some (.sign '}') then
      some (.table .braces [], (dropBlanks ts).drop 1)
    else (entries? n [] ts).map fun (es, ts) => (.table .braces es, ts)
  | _, _ => none

/-- The items of a list; a comma may stand behind the last. -/
def items? (n : Nat) (ts : Tokens) : Option (List Value × Tokens) :=
  match n with
  | 0 => none
  | n + 1 =>
    match dropLines ts with
    | .sign ']' :: ts => some ([], ts)
    | ts => do
      let (v, ts) ← value? n ts
      match dropLines ts with
      | .sign ',' :: ts => do
        let (vs, ts) ← items? n ts
        pure (v :: vs, ts)
      | .sign ']' :: ts => pure ([v], ts)
      | _ => none

def entries? (n : Nat) (es : List (String × Value)) (ts : Tokens) :
    Option (List (String × Value) × Tokens) :=
  match n with
  | 0 => none
  | n + 1 => do
    let (key, ts) ← key? ts.length ts
    let (v, ts) ← value? n (dropBlanks (← expect? '=' ts))
    let es ← v.add? key es
    match dropBlanks ts with
    | .sign '}' :: ts => pure (es, ts)
    | .sign ',' :: ts => entries? n es ts
    | _ => none

end

def line? (ts : Tokens) : Option (List String × Value × Tokens) := do
  let (key, ts) ← key? ts.length ts
  let (v, ts) ← value? (2 * ts.length) (dropBlanks (← expect? '=' ts))
  return (key, v, ← lineEnd? ts)

end Tokens

end EndpointCatalog.Toml
