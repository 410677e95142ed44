import EndpointCatalog.Pattern.Basic

namespace EndpointCatalog.Pattern.Reader

/-- What was read of one alternative list: the alternatives before the last, and the parts of the
last, both the latest first. -/
structure Draft where
  branches : List (List Pattern) := []
  parts : List Pattern := []

namespace Draft

def push (d : Draft) (p : Pattern) : Draft := { d with parts := p :: d.parts }

def bar (d : Draft) : Draft := ⟨d.parts :: d.branches, []⟩

def close (d : Draft) : Pattern :=
  choice ((d.parts :: d.branches).reverse.map fun ps => concat ps.reverse)

end Draft

/-- A group that is still open: its index, if it has one, and what stood before it. -/
structure Frame where
  index? : Option Nat
  before : Draft

structure State where
  draft : Draft := {}
  frames : List Frame := []
  groups : Nat := 0
  names : List (List Char) := []

namespace State

def push (s : State) (p : Pattern) : State := { s with draft := s.draft.push p }

def enter (s : State) (index? : Option Nat) : State :=
  { s with draft := {}, frames := ⟨index?, s.draft⟩ :: s.frames }

def capture (s : State) : State :=
  { s.enter (some (s.groups + 1)) with groups := s.groups + 1 }

def leave? (s : State) : Option State :=
  match s.frames with
  | [] => none
  | f :: fs =>
    let p := s.draft.close
    some { s with
      draft := f.before.push (match f.index? with | some i => .group i p | none => p)
      frames := fs }

def repeatLast? (s : State) (f : Pattern → Pattern) : Option State :=
  match s.draft.parts with
  | [] => none
  | p :: ps => some { s with draft := { s.draft with parts := f p :: ps } }

end State

def copies (p : Pattern) : Nat → List Pattern
  | 0 => []
  | n + 1 => p :: copies p n

def upTo (greedy : Bool) (p : Pattern) : Nat → Pattern
  | 0 => .empty
  | n + 1 => opt greedy (seq p (upTo greedy p n))

def times (greedy : Bool) (p : Pattern) (least : Nat) : Option Nat → Pattern
  | some most => concat (copies p least ++ [upTo greedy p (most - least)])
  | none =>
    match least with
    | 0 => star greedy p
    | n + 1 => concat (copies p n ++ [plus greedy p])

def classOf? (c : Char) : Option CharSet :=
  match c with
  | 'w' => some .word
  | 'W' => some (.complement .word)
  | 's' => some .blank
  | 'S' => some (.complement .blank)
  | 'd' => some .digit
  | 'D' => some (.complement .digit)
  | _ => none

def controlOf? (c : Char) : Option Char :=
  match c with
  | 'n' => some '\n'
  | 't' => some '\t'
  | 'r' => some '\r'
  | 'f' => some '\x0c'
  | 'v' => some '\x0b'
  | 'a' => some '\x07'
  | _ => none

def escaped? (c : Char) : Option Char :=
  match controlOf? c with
  | some d => some d
  | none =>
    if c.toNat < 0x80 && !c.isAlphanum && c != '<' && c != '>' then some c else none

def number (cs : List Char) : Option Nat × List Char :=
  let ds := cs.takeWhile Char.isDigit
  (if ds.isEmpty then none else some (ds.foldl (fun n d => 10 * n + (d.toNat - 48)) 0),
    cs.dropWhile Char.isDigit)

def bounds? (cs : List Char) : Option ((Nat × Option Nat) × List Char) :=
  match number cs with
  | (some m, '}' :: cs) => some ((m, some m), cs)
  | (some m, ',' :: '}' :: cs) => some ((m, none), cs)
  | (some m, ',' :: cs) =>
    match number cs with
    | (some n, '}' :: cs) => if m ≤ n then some ((m, some n), cs) else none
    | _ => none
  | _ => none

def member? : List Char → Option ((Char ⊕ CharSet) × List Char)
  | [] => none
  | '\\' :: c :: cs =>
    match classOf? c with
    | some s => some (.inr s, cs)
    | none => (escaped? c).map (.inl ·, cs)
  | '\\' :: [] => none
  | c :: cs => some (.inl c, cs)

def addTo (set? : Option CharSet) (s : CharSet) : Option CharSet :=
  match set? with
  | none => some s
  | some t => some (.union t s)

def finish (negated : Bool) (s : CharSet) : CharSet := if negated then .complement s else s

mutual

/-- The members of a bracketed class up to its bracket; `n` bounds how many steps are made. -/
def members? (n : Nat) (set? : Option CharSet) (cs : List Char) :
    Option (CharSet × List Char) :=
  match n with
  | 0 => none
  | n + 1 =>
    match cs, set? with
    | ']' :: cs, some s => some (s, cs)
    | '[' :: cs, _ =>
      match bracket? n cs with
      | some (s, cs) => members? n (addTo set? s) cs
      | none => none
    | _, _ =>
      match member? cs with
      | none => none
      | some (.inr s, cs) => members? n (addTo set? s) cs
      | some (.inl c, '-' :: ']' :: cs) =>
        some (.union (((addTo set? (.single c)).getD (.single c))) (.single '-'), cs)
      | some (.inl c, '-' :: cs) =>
        match member? cs with
        | some (.inl d, cs) => if c ≤ d then members? n (addTo set? (.range c d)) cs else none
        | _ => none
      | some (.inl c, cs) => members? n (addTo set? (.single c)) cs

/-- A bracketed class after its opening bracket. A bracket or a dash at the front stands for
itself. -/
def bracket? (n : Nat) (cs : List Char) : Option (CharSet × List Char) :=
  match n with
  | 0 => none
  | n + 1 =>
    let (negated, cs) := match cs with
      | '^' :: cs => (true, cs)
      | cs => (false, cs)
    let read := match cs with
      | ']' :: cs => members? n (some (.single ']')) cs
      | '-' :: cs => members? n (some (.single '-')) cs
      | cs => members? n none cs
    read.map fun (s, cs) => (finish negated s, cs)

end

def isNameChar (c : Char) : Bool := c.isAlphanum || c == '_' || c == '.' || c == '[' || c == ']'

def groupName? (cs : List Char) : Option (List Char × List Char) :=
  match cs.takeWhile isNameChar, cs.dropWhile isNameChar with
  | c :: name, '>' :: cs => if c.isAlpha || c == '_' then some (c :: name, cs) else none
  | _, _ => none

def named? (s : State) (cs : List Char) : Option (State × List Char) :=
  match groupName? cs with
  | some (name, cs) =>
    if name ∈ s.names then none else some ({ s.capture with names := name :: s.names }, cs)
  | none => none

def greed : List Char → Bool × List Char
  | '?' :: cs => (false, cs)
  | cs => (true, cs)

def repeated? (s : State) (least : Nat) (most : Option Nat) (cs : List Char) :
    Option (State × List Char) :=
  let (greedy, cs) := greed cs
  (s.repeatLast? fun p => times greedy p least most).map (·, cs)

def step? (s : State) : List Char → Option (State × List Char)
  | [] => none
  | '(' :: '?' :: ':' :: cs => some (s.enter none, cs)
  | '(' :: '?' :: 'P' :: '<' :: cs => named? s cs
  | '(' :: '?' :: '<' :: cs => named? s cs
  | '(' :: '?' :: _ => none
  | '(' :: cs => some (s.capture, cs)
  | ')' :: cs => s.leave?.map (·, cs)
  | '|' :: cs => some ({ s with draft := s.draft.bar }, cs)
  | '*' :: cs => repeated? s 0 none cs
  | '+' :: cs => repeated? s 1 none cs
  | '?' :: cs => repeated? s 0 (some 1) cs
  | '{' :: cs =>
    match bounds? cs with
    | some ((m, n), cs) => repeated? s m n cs
    | none => none
  | '.' :: cs => some (s.push (.one .inLine), cs)
  | '^' :: cs => some (s.push .atStart, cs)
  | '$' :: cs => some (s.push .atEnd, cs)
  | '[' :: cs => (bracket? (cs.length + 1) cs).map fun (set, cs) => (s.push (.one set), cs)
  | '\\' :: 'A' :: cs => some (s.push .atStart, cs)
  | '\\' :: 'z' :: cs => some (s.push .atEnd, cs)
  | '\\' :: c :: cs =>
    match classOf? c with
    | some set => some (s.push (.one set), cs)
    | none => (escaped? c).map fun c => (s.push (.char c), cs)
  | '\\' :: [] => none
  | c :: cs => some (s.push (.char c), cs)

def steps? : Nat → State → List Char → Option State
  | _, s, [] => some s
  | 0, _, _ :: _ => none
  | n + 1, s, cs =>
    match step? s cs with
    | some (s, cs) => steps? n s cs
    | none => none

end Reader

def parse? (text : String) : Option Pattern :=
  match Reader.steps? text.length {} text.toList with
  | some s => if s.frames.isEmpty then some s.draft.close else none
  | none => none

end EndpointCatalog.Pattern
