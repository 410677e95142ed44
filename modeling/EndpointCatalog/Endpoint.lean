import EndpointCatalog.Path.Basic
import EndpointCatalog.Text.Search

namespace EndpointCatalog

open Text.Search

/-- The verb that an endpoint answers to; `any` leaves the choice to the caller. -/
inductive Verb where
  | get
  | post
  | any
deriving DecidableEq, Repr

namespace Verb

def text : Verb → String
  | get => "GET"
  | post => "POST"
  | any => "*"

def ofText? (s : String) : Option Verb :=
  if s = "GET" then some get
  else if s = "POST" then some post
  else if s = "*" then some any
  else none

theorem ofText?_text (v : Verb) : ofText? v.text = some v := by cases v <;> rfl

end Verb

inductive Kind where
  | abstract
  | service
  | resources
deriving DecidableEq, Repr

namespace Kind

def text : Kind → String
  | abstract => "Abstract [non-callable]"
  | service => "Service"
  | resources => "Resources"

/-- Abstract controllers come first; of the others, those are services whose name holds
`marker`. -/
def classify (isAbstract : Bool) (controller marker : String) : Kind :=
  if isAbstract then abstract
  else if holds controller marker then service
  else resources

end Kind

structure Endpoint where
  verb : Verb
  module : String
  controller : String
  isAbstract : Bool
  baseClass : String
  command : String
  parameters : List String
  fileName : String
  modelFile? : Option Path
  kind : Kind
deriving DecidableEq, Repr

namespace Endpoint

def qualifiedName (e : Endpoint) : String := e.module ++ "/" ++ e.controller ++ "/" ++ e.command

def isCallable (e : Endpoint) : Bool := !e.isAbstract

/-- In the order of their commands; endpoints of one command keep their places. -/
def sort (es : List Endpoint) : List Endpoint := es.mergeSort fun a b => a.command ≤ b.command

end Endpoint

end EndpointCatalog
