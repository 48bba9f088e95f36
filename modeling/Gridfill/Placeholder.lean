import Gridfill.Text.Cut
import Gridfill.Text.Quoted

/-!
# Placeholders

A placeholder is written `${name}`, `${name.key}` or `${kind:name.key}`. The kind is what stands
before the first colon of the body, unless that is nothing, and is `normal` when it is left out; the
key is everything after the first dot of the rest. A body without a name is no placeholder.

`scan` walks over a text once and remembers the last opening mark since the last closing one, so of
several opening marks before a closing one the innermost counts.
-/

namespace Gridfill

/-- A placeholder found in a text. -/
structure Placeholder where
  /-- The placeholder as it is written, with its marks. -/
  raw : String
  kind : String
  name : String
  key : Option String
  /-- Does the placeholder span the whole text? -/
  whole : Bool
  /-- The place of the opening mark. -/
  start : Nat
  /-- The place after the closing mark. -/
  stop : Nat
deriving DecidableEq, Repr

namespace Placeholder

/-- Does the placeholder ask for records, one below the other? -/
def isTable (p : Placeholder) : Bool := p.kind = "table"

/-- Does the placeholder ask for a value, or for values side by side? -/
def isNormal (p : Placeholder) : Bool := p.kind = "normal"

/-! ### The body of a placeholder -/

/-- What the body of a placeholder says. -/
structure Body where
  kind : List Char
  name : List Char
  key : Option (List Char)
deriving DecidableEq, Repr

/-- The kind in front of the first colon of a body, and the rest. -/
def Body.readKind (body : List Char) : List Char × List Char :=
  match Text.cutAtFirst ':' body with
  | (c :: cs, some rest) => (c :: cs, rest)
  | _ => ("normal".toList, body)

/-- What a body says; nothing when it has no name. -/
def Body.read (body : List Char) : Option Body :=
  let (kind, rest) := Body.readKind body
  let (name, key) := Text.cutAtFirst '.' rest
  if name.isEmpty then none
  else some ⟨kind, name, key.bind fun k => if k.isEmpty then none else some k⟩

/-! ### Scanning -/

/-- The body between the marks of a placeholder, and the place of the opening mark. -/
structure Span where
  start : Nat
  body : List Char
deriving DecidableEq, Repr

/-- The characters of a span with its marks. -/
def Span.rawChars (s : Span) : List Char := '$' :: '{' :: s.body ++ ['}']

/-- The spans of a text from place `pos` on, `opened` being the last opening mark since the last
closing one, with what follows it in reverse. -/
def spansFrom (pos : Nat) (opened : Option Span) : List Char → List Span
  | [] => []
  | c :: cs =>
    if c = '}' then
      match opened with
      | some s => ⟨s.start, s.body.reverse⟩ :: spansFrom (pos + 1) none cs
      | none => spansFrom (pos + 1) none cs
    else
      match cs with
      | d :: ds =>
        if c = '$' ∧ d = '{' then spansFrom (pos + 2) (some ⟨pos, []⟩) ds
        else spansFrom (pos + 1) (opened.map fun s => ⟨s.start, c :: s.body⟩) (d :: ds)
      | [] => []

/-- The spans of a text, from left to right. -/
def spans (cs : List Char) : List Span := spansFrom 0 none cs

/-- The placeholder that a span of a text of the given length is, when its body has a name. -/
def ofSpan (length : Nat) (s : Span) : Option Placeholder :=
  (Body.read s.body).map fun b =>
    { raw := String.ofList s.rawChars
      kind := String.ofList b.kind
      name := String.ofList b.name
      key := b.key.map String.ofList
      whole := s.body.length + 3 = length
      start := s.start
      stop := s.start + (s.body.length + 3) }

/-- The placeholders of a text, from left to right. -/
def scanChars (cs : List Char) : List Placeholder := (spans cs).filterMap (ofSpan cs.length)

/-- The placeholders of a text, from left to right. -/
def scan (text : String) : List Placeholder := scanChars text.toList

/-- Does the text hold a placeholder? -/
def any (text : Option String) : Bool :=
  match text with
  | some s => !(scan s).isEmpty
  | none => false

/-- The placeholders of a text as messages show them: by the text. -/
def shown (text : String) : String := "Placeholders(" ++ Text.quoted text ++ ")"

end Placeholder
end Gridfill
