import EndpointCatalog.Pattern.Match
import EndpointCatalog.Settings.Basic

namespace EndpointCatalog

open Pattern Text.Search

structure Dialect where
  classHeader : Pattern
  modelFields : List Pattern
  methodHeader : Pattern
  verbMarkers : List (String × Verb)
  conventions : Conventions

namespace Dialect

namespace Usual

def words : Pattern := star true (one .word)

def blanks : Pattern := plus true (one .blank)

def blank : Pattern := one .blank

/-- The characters of a class name with its namespaces; a bar counts as well. -/
def className : Pattern := star true (one (.union .word (.union (.single '|') (.single '\\'))))

def quote : Pattern := one (.union (.single '\'') (.union (.single '|') (.single '"')))

/-- A line that declares a controller: group 1 is its first word, group 2 the class it extends. -/
def classHeader : Pattern :=
  concat [char '\n', group 1 words, restOfLine, literal "class", restOfLine,
    literal "Controller", restOfLine, literal "extends", blank, group 2 className]

def classField (name : String) : Pattern :=
  concat [blank, literal "protected", blank, literal "static", blank, char '$', literal name,
    blank, char '=', blank, quote, group 1 className, quote, char ';']

def visibility : Pattern :=
  choice [literal "private", literal "public", literal "protected"]

/-- The header of a method: group 3 is its name, group 4 what stands between its parentheses. -/
def methodHeader : Pattern :=
  group 1 (concat [char '\n', blanks, group 2 visibility, blanks, literal "function", blanks,
    group 3 (plus true (one .word)), char '(', group 4 restOfLine, char ')'])

/-- What a method's body holds if it answers to a verb other than the usual one; the first marker
that is found decides. -/
def verbMarkers : List (String × Verb) :=
  [("request->isPost(", .post), ("$this->delBase", .post), ("$this->addBase", .post),
    ("$this->setBase", .post), ("$this->toggleBase", .post), ("$this->searchBase", .any)]

end Usual

def ofConventions (c : Conventions) : Dialect where
  classHeader := Usual.classHeader
  modelFields := [Usual.classField "internalModelClass", Usual.classField "internalServiceClass"]
  methodHeader := Usual.methodHeader
  verbMarkers := Usual.verbMarkers
  conventions := c

def verbOf (d : Dialect) (body : List Char) : Verb :=
  match d.verbMarkers.find? fun m => contains m.1.toList body with
  | some m => m.2
  | none => .get

def commandOf? (d : Dialect) (method : List Char) : Option (List Char) :=
  (until? d.conventions.actionSuffix.toList method).filter (!·.isEmpty)

end Dialect

end EndpointCatalog
