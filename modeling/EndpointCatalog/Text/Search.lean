import EndpointCatalog.Text.Blank

namespace EndpointCatalog.Text.Search

open Text.Blank

def contains (needle : List Char) : List Char → Bool
  | [] => needle.isEmpty
  | c :: cs => needle.isPrefixOf (c :: cs) || contains needle cs

def holds (text needle : String) : Bool := contains needle.toList text.toList

/-- The text before the first place where the rest satisfies `p`. -/
def before? (p : List Char → Bool) : List Char → Option (List Char)
  | [] => if p [] then some [] else none
  | c :: cs => if p (c :: cs) then some [] else (before? p cs).map (c :: ·)

/-- What remains of a text after `lead`, if the text starts with it. -/
def after? : List Char → List Char → Option (List Char)
  | [], cs => some cs
  | _ :: _, [] => none
  | l :: ls, c :: cs => if l = c then after? ls cs else none

def until? (tail cs : List Char) : Option (List Char) :=
  (after? tail.reverse cs.reverse).map List.reverse

def replace (old new : Char) (cs : List Char) : List Char :=
  cs.map fun c => if c = old then new else c

end EndpointCatalog.Text.Search
