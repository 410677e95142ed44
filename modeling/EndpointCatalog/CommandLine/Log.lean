import EndpointCatalog.Text.Blank
import EndpointCatalog.Text.Numeral
import EndpointCatalog.Text.Word

namespace EndpointCatalog.CommandLine

open Text.Blank Text.Numeral

inductive Level where
  | error
  | warn
  | info
  | debug
  | trace
deriving DecidableEq, Repr

namespace Level

def rank : Level → Nat
  | error => 1
  | warn => 2
  | info => 3
  | debug => 4
  | trace => 5

def names : List String := ["off", "error", "warn", "info", "debug", "trace"]

/-- The rank that a name or a digit stands for; nothing is told at rank zero. -/
def rankOf? (cs : List Char) : Option Nat :=
  match names.findIdx? fun n => n.toList == cs.map Char.toLower with
  | some n => some n
  | none => if cs.length = 1 then (digits? 10 cs).filter (· ≤ 5) else none

end Level

inductive Event where
  | nameMissing
  | routineUnknown
  | stepSkipped
  | catalogWritten
  | commandsLoaded
  | running
  | pulling
  | cloning
deriving DecidableEq, Repr

namespace Event

def text : Event → String
  | nameMissing => "macro name required"
  | routineUnknown => "macro not found"
  | stepSkipped => "command not in catalog, skipping"
  | catalogWritten => "catalog written"
  | commandsLoaded => "commands loaded"
  | running => "running"
  | pulling => "pulling changes"
  | cloning => "cloning"

def level : Event → Level
  | nameMissing => .error
  | routineUnknown => .warn
  | stepSkipped => .warn
  | _ => .info

def source : Event → String
  | nameMissing => "opncat::cli::macros"
  | routineUnknown => "opncat::cli::macros"
  | stepSkipped => "opncat::cli::macros"
  | running => "opncat::cli::macros"
  | catalogWritten => "opncat::cli::collect"
  | commandsLoaded => "opncat::cli::raw"
  | pulling => "opncat::source"
  | cloning => "opncat::source"

end Event

/-- The sources whose names start with `source` are told up to a rank. -/
structure Rule where
  source : List Char
  rank : Nat
deriving DecidableEq, Repr

abbrev Filter := List Rule

namespace Filter

def isSourceChar (c : Char) : Bool := Text.Word.isWord c || c == ':' || c == '-'

def rankAfter? : List Char → Option Nat
  | [] => some 5
  | ['='] => some 5
  | '=' :: cs => Level.rankOf? cs
  | _ => none

/-- Reads a rule: a rank, or the start of a source with or without a rank. A rule for a span of
time, in brackets, holds for no event. -/
def rule? (cs : List Char) : Option (List Rule) :=
  match Level.rankOf? cs with
  | some n => some [⟨[], n⟩]
  | none =>
    let source := cs.takeWhile isSourceChar
    let rest := cs.dropWhile isSourceChar
    match rest with
    | '[' :: span =>
      match span.dropWhile (· ≠ ']') with
      | _ :: after => (rankAfter? (after.dropWhile isSourceChar)).map fun _ => []
      | [] => none
    | _ =>
      if source.isEmpty then none
      else (rankAfter? rest).map fun n =>
        [⟨if (Level.rankOf? source).isSome then [] else source, n⟩]

def parse? (text : String) : Option Filter :=
  (((text.toList.splitOn ',').filter (!·.isEmpty)).mapM rule?).map List.flatten

/-- The later of two rules, unless the other tells more of the source. -/
def closer (r s : Rule) : Rule := if s.source.length < r.source.length then r else s

def allows (f : Filter) (e : Event) : Bool :=
  match f.filter fun r => r.source.isPrefixOf e.source.toList with
  | [] => false
  | r :: rs => e.level.rank ≤ (rs.foldl closer r).rank

end Filter

end EndpointCatalog.CommandLine
