namespace EndpointCatalog.CommandLine

inductive Takes where
  | nothing
  | text
  | path
  | oneOf (names : List String)
deriving DecidableEq, Repr

/-- An option, by its name and perhaps by a letter; where it is not given, a variable of the
environment may stand for it. -/
structure Choice where
  name : String
  letter? : Option Char := none
  takes : Takes := .text
  environment? : Option String := none
deriving DecidableEq, Repr

structure Stage where
  choices : List Choice
  hasWords : Bool := false
deriving DecidableEq, Repr

structure Given where
  values : List (String × String) := []
  words : List String := []
deriving DecidableEq, Repr

namespace Given

def value? (g : Given) (name : String) : Option String := g.values.lookup name

def has (g : Given) (name : String) : Bool := (g.value? name).isSome

end Given

namespace Takes

def accepts (value : String) : Takes → Bool
  | nothing => false
  | text => true
  | path => value != ""
  | oneOf names => names.contains value

end Takes

namespace Stage

variable (s : Stage)

def named? (name : String) : Option Choice := s.choices.find? (·.name == name)

def lettered? (letter : Char) : Option Choice := s.choices.find? (·.letter? == some letter)

def give? (c : Choice) (value : String) (g : Given) : Option Given :=
  if c.takes.accepts value && !g.has c.name then
    some { g with values := g.values ++ [(c.name, value)] }
  else none

def flag? (c : Choice) (g : Given) : Option Given :=
  if g.has c.name then none else some { g with values := g.values ++ [(c.name, "")] }

/-- Reads letters behind a dash; the option of the last one may be left waiting for its value. -/
def letters? (g : Given) : List Char → Option (Given × Option Choice)
  | [] => some (g, none)
  | l :: ls => do
    let c ← s.lettered? l
    match c.takes, ls with
    | .nothing, ls => letters? (← flag? c g) ls
    | _, [] => some (g, some c)
    | _, '=' :: ls => (give? c (String.ofList ls) g).map (·, none)
    | _, ls => (give? c (String.ofList ls) g).map (·, none)

def long? (g : Given) (cs : List Char) : Option (Given × Option Choice) := do
  let c ← s.named? (String.ofList (cs.takeWhile (· ≠ '=')))
  match c.takes, cs.dropWhile (· ≠ '=') with
  | .nothing, [] => (flag? c g).map (·, none)
  | .nothing, _ => none
  | _, [] => some (g, some c)
  | _, _ :: value => (give? c (String.ofList value) g).map (·, none)

def isWord (arg : String) : Bool := arg.toList.head? != some '-' || arg == "-"

def option? (g : Given) (arg : String) : Option (Given × Option Choice) :=
  match arg.toList with
  | '-' :: '-' :: cs => s.long? g cs
  | '-' :: cs => s.letters? g cs
  | _ => none

/-- Reads arguments up to the word that names the next stage. -/
def read? (g : Given) : List String → Option (Given × List String)
  | [] => some (g, [])
  | arg :: args =>
    if arg = "--" then
      if s.hasWords then some ({ g with words := g.words ++ args }, [])
      else if args.isEmpty then some (g, [])
      else none
    else if isWord arg then
      if s.hasWords then read? { g with words := g.words ++ [arg] } args
      else some (g, arg :: args)
    else
      match s.option? g arg, args with
      | some (g, none), args => read? g args
      | some (g, some c), value :: args =>
        if isWord value then (give? c value g).bind fun g => read? g args else none
      | _, _ => none

def fromVariable? (environment : String → Option String) (g : Given) (c : Choice) :
    Option Given :=
  match g.has c.name, c.environment?.bind environment with
  | false, some value =>
    if c.takes = .nothing then
      if value = "true" then flag? c g else if value = "false" then some g else none
    else give? c value g
  | _, _ => some g

def run? (environment : String → Option String) (args : List String) :
    Option (Given × List String) := do
  let (g, rest) ← s.read? {} args
  return (← s.choices.foldlM (fromVariable? environment) g, rest)

end Stage

end EndpointCatalog.CommandLine
