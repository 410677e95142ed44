import EndpointCatalog.Yaml.Block
import EndpointCatalog.Yaml.Plain
import EndpointCatalog.Text.Bytes

namespace EndpointCatalog.Yaml

inductive Token where
  | version (major minor : Nat)
  | tagHandle (handle lead : List Char)
  | documentStart
  | documentEnd
  | blockSequence
  | blockMapping
  | blockEnd
  | flowSequence
  | flowSequenceEnd
  | flowMapping
  | flowMappingEnd
  | blockEntry
  | flowEntry
  | key
  | value
  | aliasOf (name : List Char)
  | anchor (name : List Char)
  | tag (handle suffix : List Char)
  | scalar (plain : Bool) (text : List Char)
deriving DecidableEq, Repr

/-- A place where a key may have started: how many tokens lie before it, and whether nothing but a
key can stand there. -/
structure KeyPlace where
  mark : Mark
  before : Nat
  required : Bool
deriving DecidableEq, Repr

/-- What a scanner has found so far; tokens, indentations and key places have the latest first, and
there is a key place for each flow collection that is open and one more. -/
structure Scanner where
  input : Input
  tokens : List Token := []
  count : Nat := 0
  indent : Int := -1
  indents : List Int := []
  keyAllowed : Bool := true
  keys : List (Option KeyPlace) := [none]

namespace Scanner

variable (s : Scanner)

def inFlow : Bool := 1 < s.keys.length

def column : Int := s.input.mark.column

def push (t : Token) : Scanner := { s with tokens := t :: s.tokens, count := s.count + 1 }

def insert (before : Nat) (t : Token) : Scanner :=
  let later := s.count - before
  { s with tokens := s.tokens.take later ++ t :: s.tokens.drop later, count := s.count + 1 }

def skip (n : Nat) : Scanner := { s with input := s.input.skip n }

def sign (t : Token) : Scanner := (s.skip 1).push t

def allowKey (b : Bool) : Scanner := { s with keyAllowed := b }

/-- Closes the block collections that are indented by more than `column`. -/
def closeTo (column : Int) : List Int → Scanner → Scanner
  | [], s => s
  | i :: is, s =>
    if column < s.indent then closeTo column is { s.push .blockEnd with indent := i, indents := is }
    else s

def unroll (column : Int) : Scanner := if s.inFlow then s else closeTo column s.indents s

/-- Opens a block collection at a column, if it is indented more than the one around it. -/
def roll (column : Int) (before : Nat) (t : Token) : Scanner :=
  if !s.inFlow && s.indent < column then
    { s.insert before t with indent := column, indents := s.indent :: s.indents }
  else s

/-- Gives up the innermost key place; a key that had to come did not. -/
def forgetKey? : Option Scanner :=
  match s.keys with
  | some k :: ks => if k.required then none else some { s with keys := none :: ks }
  | _ => some s

def noteKey? : Option Scanner :=
  if s.keyAllowed then do
    let required := !s.inFlow && s.indent == s.column
    let s ← s.forgetKey?
    pure { s with keys := some ⟨s.input.mark, s.count, required⟩ :: s.keys.drop 1 }
  else some s

def isStale (m : Mark) (k : KeyPlace) : Bool :=
  k.mark.line < m.line || k.mark.index + 1024 < m.index

def dropStale? : Option Scanner := do
  let stale := fun (k : KeyPlace) => isStale s.input.mark k
  if s.keys.any fun k => k.any fun k => stale k && k.required then none
  else some { s with keys := s.keys.map fun k => k.filter (!stale ·) }

/-- Past blanks, comments and line breaks, and whether a key may start behind them. A tab counts
where no key may start; outside flow collections one may after a break. -/
def toNextFrom (flow keyAllowed comment : Bool) (m : Mark) : List Char → Input × Bool
  | [] => (⟨m, []⟩, keyAllowed)
  | c :: cs =>
    if atReturn c cs then toNextFrom flow keyAllowed comment m.pass cs
    else if isBreak c then toNextFrom flow (keyAllowed || !flow) false m.newLine cs
    else if comment || c == ' ' || (c == '\t' && (flow || !keyAllowed)) then
      toNextFrom flow keyAllowed comment m.next cs
    else if c == '#' then toNextFrom flow keyAllowed true m.next cs
    else if m.index = 0 ∧ c = '\uFEFF' then toNextFrom flow keyAllowed false m.next cs
    else (⟨m, c :: cs⟩, keyAllowed)

def toNext : Scanner :=
  let (i, keyAllowed) := toNextFrom s.inFlow s.keyAllowed false s.input.mark s.input.rest
  { s with input := i, keyAllowed := keyAllowed }

def isNameChar (c : Char) : Bool := c.isAlphanum || c == '-' || c == '_'

def anchorEnds (cs : List Char) : Bool :=
  match cs with
  | [] => true
  | c :: _ => atGap cs || "?:,]\x7d%@\x60".toList.contains c

def anchor? (token : List Char → Token) : Option Scanner := do
  let s ← s.noteKey?
  let s := (s.allowKey false).skip 1
  let name := s.input.rest.takeWhile isNameChar
  let i := s.input.skipWhile isNameChar
  if name.isEmpty || !anchorEnds i.rest then none
  else some ({ s with input := i }.push (token name))

def isUriChar (wide : Bool) (c : Char) : Bool :=
  isNameChar c || ";/?:@&=+$.!~*'()".toList.contains c || (wide && ",[]".toList.contains c)

def uriByte? (cs : List Char) : Option UInt8 :=
  match cs with
  | '%' :: a :: b :: _ => do
    let a ← Text.Numeral.hexValue? a
    let b ← Text.Numeral.hexValue? b
    pure (UInt8.ofNat (16 * a + b))
  | _ => none

def uriTail? : Nat → List Char → Option (List UInt8 × List Char)
  | 0, cs => some ([], cs)
  | n + 1, cs => do
    let b ← uriByte? cs
    if 0x80 ≤ b && b ≤ 0xBF then
      let (bs, cs) ← uriTail? n (cs.drop 3)
      pure (b :: bs, cs)
    else none

def uriWidth? (b : UInt8) : Option Nat :=
  if b < 0x80 then some 1
  else if 0xC0 ≤ b && b < 0xE0 then some 2
  else if 0xE0 ≤ b && b < 0xF0 then some 3
  else if 0xF0 ≤ b && b < 0xF8 then some 4
  else none

def uriEscape? (cs : List Char) : Option (List UInt8 × List Char) := do
  let b ← uriByte? cs
  let n ← uriWidth? b
  let (bs, cs) ← uriTail? (n - 1) (cs.drop 3)
  pure (b :: bs, cs)

def uri? (wide : Bool) : Nat → List Char → Option (List UInt8 × List Char)
  | 0, cs => some ([], cs)
  | _ + 1, [] => some ([], [])
  | n + 1, c :: cs => do
    if c = '%' then
      let (bs, cs) ← uriEscape? (c :: cs)
      let (rest, cs) ← uri? wide n cs
      pure (bs ++ rest, cs)
    else if isUriChar wide c then
      let (rest, cs) ← uri? wide n cs
      pure (String.utf8EncodeChar c ++ rest, cs)
    else pure ([], c :: cs)

def text? (bs : List UInt8) : Option (List Char) := (Text.Bytes.decode? bs).map String.toList

def address? (wide : Bool) (i : Input) : Option (List Char × Input) := do
  let (bs, rest) ← uri? wide i.rest.length i.rest
  let cs ← text? bs
  pure (cs, ⟨i.mark.nextBy (i.rest.length - rest.length), rest⟩)

/-- A handle: `!`, or a name between two of them; or the start of a tag without a handle. -/
def handle? (i : Input) : Option (List Char × Input) :=
  match i.rest with
  | '!' :: cs =>
    let name := cs.takeWhile isNameChar
    match cs.dropWhile isNameChar with
    | '!' :: _ => some ('!' :: name ++ ['!'], i.skip (name.length + 2))
    | _ => some ('!' :: name, i.skip (name.length + 1))
  | _ => none

def isHandle (h : List Char) : Bool := 1 < h.length && h.getLast? == some '!'

def tagText? (i : Input) : Option ((List Char × List Char) × Input) := do
  if (i.rest.drop 1).head? = some '<' then
    let (suffix, j) ← address? true (i.skip 2)
    if suffix.isEmpty || j.rest.head? != some '>' then none
    pure (([], suffix), j.skip 1)
  else
    let (handle, j) ← handle? i
    if isHandle handle then
      let (suffix, j) ← address? false j
      if suffix.isEmpty then none
      pure ((handle, suffix), j)
    else
      let (suffix, j) ← address? false j
      let suffix := handle.drop 1 ++ suffix
      pure (if suffix.isEmpty then ([], ['!']) else (['!'], suffix), j)

def tag? : Option Scanner := do
  let s ← s.noteKey?
  let s := s.allowKey false
  let ((handle, suffix), i) ← tagText? s.input
  if atGap i.rest || (s.inFlow && i.rest.head? == some ',') then
    pure ({ s with input := i }.push (.tag handle suffix))
  else none

def versionNumber? (i : Input) : Option (Nat × Input) :=
  let ds := i.rest.takeWhile Char.isDigit
  if ds.isEmpty || 9 < ds.length then none
  else some (ds.foldl (fun n c => 10 * n + (c.toNat - '0'.toNat)) 0, i.skip ds.length)

def versionText? (i : Input) : Option (Token × Input) := do
  let (major, i) ← versionNumber? (i.skipWhile isBlank)
  if i.rest.head? != some '.' then none
  let (minor, i) ← versionNumber? (i.skip 1)
  pure (.version major minor, i)

def handleText? (i : Input) : Option (Token × Input) := do
  let (handle, i) ← handle? (i.skipWhile isBlank)
  if !(isHandle handle || handle == ['!']) || !(i.rest.head?.any isBlank) then none
  let (lead, i) ← address? true (i.skipWhile isBlank)
  if lead.isEmpty || !atGap i.rest then none
  pure (.tagHandle handle lead, i)

def directive? : Option Scanner := do
  let s ← (s.unroll (-1)).forgetKey?
  let s := (s.allowKey false).skip 1
  let name := s.input.rest.takeWhile isNameChar
  let i := s.input.skipWhile isNameChar
  if !atGap i.rest then none
  let (t, i) ←
    if name = "YAML".toList then versionText? i
    else if name = "TAG".toList then handleText? i
    else none
  let i ← Block.afterHeader? i
  pure ({ s with input := i }.push t)

def documentMark? (t : Token) : Option Scanner := do
  let s ← (s.unroll (-1)).forgetKey?
  pure (((s.allowKey false).skip 3).push t)

def openFlow? (t : Token) : Option Scanner := do
  let s ← s.noteKey?
  pure ({ s with keys := none :: s.keys, keyAllowed := true }.sign t)

def closeFlow? (t : Token) : Option Scanner := do
  let s ← s.forgetKey?
  let keys := if s.inFlow then s.keys.drop 1 else s.keys
  pure ({ s with keys := keys, keyAllowed := false }.sign t)

def flowEntry? : Option Scanner := do
  let s ← s.forgetKey?
  pure ((s.allowKey true).sign .flowEntry)

def blockEntry? : Option Scanner := do
  if !s.inFlow && !s.keyAllowed then none
  let s ← (s.roll s.column s.count .blockSequence).forgetKey?
  pure ((s.allowKey true).sign .blockEntry)

def key? : Option Scanner := do
  if !s.inFlow && !s.keyAllowed then none
  let s ← (s.roll s.column s.count .blockMapping).forgetKey?
  pure ((s.allowKey !s.inFlow).sign .key)

def value? : Option Scanner :=
  match s.keys with
  | some k :: ks =>
    let s := (s.insert k.before .key).roll k.mark.column k.before .blockMapping
    some ({ s with keys := none :: ks, keyAllowed := false }.sign .value)
  | _ =>
    if !s.inFlow && !s.keyAllowed then none
    else
      let s := s.roll s.column s.count .blockMapping
      some ((s.allowKey !s.inFlow).sign .value)

def blockScalar? (literal : Bool) : Option Scanner := do
  let s ← s.forgetKey?
  let (text, i) ← Block.read? literal s.indent s.input
  pure ({ s with input := i, keyAllowed := true }.push (.scalar false text))

def quotedScalar? (single : Bool) : Option Scanner := do
  let s ← s.noteKey?
  let (text, i) ← Quoted.read? single s.input
  pure ({ s with input := i, keyAllowed := false }.push (.scalar false text))

def plainScalar? : Option Scanner := do
  let s ← s.noteKey?
  let (text, broken, i) ← Plain.read? s.inFlow (s.indent + 1) s.input
  pure ({ s with input := i, keyAllowed := broken }.push (.scalar true text))

def token? (c : Char) (cs : List Char) : Option Scanner :=
  let first := s.input.mark.column = 0
  if first && c == '%' then s.directive?
  else if first && atDocumentMark (c :: cs) then
    s.documentMark? (if c = '-' then .documentStart else .documentEnd)
  else if c = '[' then s.openFlow? .flowSequence
  else if c = '{' then s.openFlow? .flowMapping
  else if c = ']' then s.closeFlow? .flowSequenceEnd
  else if c = '}' then s.closeFlow? .flowMappingEnd
  else if c = ',' then s.flowEntry?
  else if c == '-' && atGap cs then s.blockEntry?
  else if c == '?' && (s.inFlow || atGap cs) then s.key?
  else if c == ':' && (s.inFlow || atGap cs) then s.value?
  else if c = '*' then s.anchor? .aliasOf
  else if c = '&' then s.anchor? .anchor
  else if c = '!' then s.tag?
  else if c == '|' && !s.inFlow then s.blockScalar? true
  else if c == '>' && !s.inFlow then s.blockScalar? false
  else if c = '\'' then s.quotedScalar? true
  else if c = '"' then s.quotedScalar? false
  else if Plain.mayStart s.inFlow c cs then s.plainScalar?
  else none

def finish? : Option Scanner :=
  let m := s.input.mark
  let m : Mark := if m.column = 0 then m else ⟨m.index, m.line + 1, 0⟩
  ({ s with input := ⟨m, []⟩ }.unroll (-1)).forgetKey?

def run? : Nat → Scanner → Option (List Token)
  | 0, _ => none
  | n + 1, s => do
    let s ← s.toNext.dropStale?
    let s := s.unroll s.column
    match s.input.rest with
    | [] => return (← s.finish?).tokens
    | c :: cs => run? n (← s.token? c cs)

end Scanner

def isAllowed (c : Char) : Bool :=
  let n := c.toNat
  n == 9 || n == 0xA || n == 0xD || (0x20 ≤ n && n ≤ 0x7E) || n == 0x85 ||
    (0xA0 ≤ n && n ≤ 0xD7FF) || (0xE000 ≤ n && n ≤ 0xFFFD) || 0x10000 ≤ n

/-- The tokens of a document. A byte order mark in front of it is passed over. -/
def tokens? (text : List Char) : Option (List Token) :=
  let cs := if text.head? = some '\uFEFF' then text.drop 1 else text
  if cs.all isAllowed then
    (Scanner.run? (cs.length + 1) { input := ⟨{}, cs⟩ }).map List.reverse
  else none

end EndpointCatalog.Yaml
