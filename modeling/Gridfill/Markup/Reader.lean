import Gridfill.Markup.Doctype
import Gridfill.Markup.Printer
import Gridfill.Markup.Scope

/-!
# Reading documents

From characters to the root element. The text must be well formed: one root, matching tags, quoted
attributes, every short form declared and no attribute twice. Sections of verbatim character data
become character data; comments, instructions and the document type outside of the root are checked
and left out.

The readers take the text that is left and return what they read with the text behind it. Nested
content is read with a bound on the number of steps, and the length of the text is bound enough since
every step uses up a character.
-/

namespace Gridfill.Markup

/-! ### Attributes -/

/-- A name as it is spelled: an optional short form and a label. -/
structure Spelling where
  short : Option String
  label : String
deriving DecidableEq, Repr

/-- A name with at most one colon at the front of a text, and the rest. -/
def readSpelling (cs : List Char) : Option (Spelling × List Char) :=
  match readLabel cs with
  | some (first, ':' :: rest) =>
    match readLabel rest with
    | some (_, ':' :: _) => none
    | some (second, rest) => some (⟨some first, second⟩, rest)
    | none => none
  | some (label, rest) => some (⟨none, label⟩, rest)
  | none => none

/-- An attribute as it is read, before its name is looked up. -/
structure RawAttribute where
  name : Spelling
  value : String
  written : Option String
deriving DecidableEq, Repr

/-- A value under way: its characters and its written form, both in reverse, and whether it refers to
an entity. -/
structure ValueBuffer where
  value : List Char
  written : List Char
  refers : Bool

/-- A buffer with one more character. -/
def ValueBuffer.push (b : ValueBuffer) (c : Char) : ValueBuffer :=
  ⟨c :: b.value, (escapeValue c).reverse ++ b.written, b.refers⟩

/-- A buffer with a reference to an entity with the given replacement. -/
def ValueBuffer.refer (b : ValueBuffer) (label replacement : String) : ValueBuffer :=
  ⟨replacement.toList.reverse ++ b.value, (';' :: label.toList.reverse ++ '&' :: b.written), true⟩

/-- A quoted value up to its closing quote. Blanks become spaces. -/
def readValue (es : Entities) (quote : Char) :
    Nat → ValueBuffer → List Char → Option (ValueBuffer × List Char)
  | 0, _, _ => none
  | _ + 1, _, [] => none
  | fuel + 1, b, c :: cs =>
    if c = quote then some (b, cs)
    else if c = '<' then none
    else if c = '&' then
      match readReference cs with
      | some (.char d, rest) => readValue es quote fuel (b.push d) rest
      | some (.entity label, rest) =>
        match es.internal.lookup label with
        | some replacement =>
          if replacement.toList.contains '<' then none
          else readValue es quote fuel (b.refer label replacement) rest
        | none =>
          if es.isPartial && !es.external.contains label && !es.unparsed.contains label then
            readValue es quote fuel b rest
          else none
      | none => none
    else readValue es quote fuel (b.push (if isSpace c then ' ' else c)) cs

/-- An attribute at the front of a text, and the rest. -/
def readAttribute (es : Entities) (fuel : Nat) (cs : List Char) :
    Option (RawAttribute × List Char) := do
  let (name, cs) ← readSpelling cs
  match cs.dropWhile isSpace with
  | '=' :: cs =>
    match cs.dropWhile isSpace with
    | quote :: cs =>
      if quote = '"' ∨ quote = '\'' then
        let (b, cs) ← readValue es quote fuel ⟨[], [], false⟩ cs
        let written := if b.refers then some (String.ofList b.written.reverse) else none
        return (⟨name, String.ofList b.value.reverse, written⟩, cs)
      else none
    | [] => none
  | _ => none

/-- The attributes of a start tag up to its end; whether it is an empty tag, and the rest. -/
def readAttributes (es : Entities) :
    Nat → List Char → Option (List RawAttribute × Bool × List Char)
  | 0, _ => none
  | fuel + 1, cs =>
    match cs.dropWhile isSpace with
    | '>' :: rest => some ([], false, rest)
    | '/' :: '>' :: rest => some ([], true, rest)
    | _ => do
      let (a, rest) ← readAttribute es fuel (← dropSpaces? cs)
      let (as, isEmpty, rest) ← readAttributes es fuel rest
      return (a :: as, isEmpty, rest)

/-! ### Namespaces of a start tag -/

/-- Does an attribute declare a namespace? -/
def RawAttribute.isDeclaration (a : RawAttribute) : Bool :=
  a.name.short = some "xmlns" || (a.name.short.isNone && a.name.label = "xmlns")

/-- The namespace of the declarations themselves, which none may declare. -/
def xmlnsUri : String := "http://www.w3.org/2000/xmlns/"

/-- Is the text an escaped character of a namespace, or a run of characters that need no escape? -/
def isUriText : List Char → Bool
  | [] => true
  | '%' :: a :: b :: cs => (hexValue? a).isSome && (hexValue? b).isSome && isUriText cs
  | c :: cs => (c.isAlphanum || "-._~!$&'()*+,;=:@/?#[]".toList.contains c) && isUriText cs

/-- The binding that a declaration makes; `none` inside for the one that every document has. -/
def RawAttribute.binding (a : RawAttribute) : Option (Option Binding) :=
  let uri := a.value
  if !isUriText uri.toList || 1 < uri.toList.count '#' then none
  else
    match a.name.short with
    | none => if uri = xmlUri ∨ uri = xmlnsUri then none else some (some ⟨none, uri⟩)
    | some _ =>
      if a.name.label = "xml" then if uri = xmlUri then some none else none
      else if a.name.label = "xmlns" ∨ uri = "" ∨ uri = xmlUri ∨ uri = xmlnsUri then none
      else some (some ⟨some a.name.label, uri⟩)

/-- The bindings that the declarations of a start tag make, no short form twice. -/
def declaredBindings : List RawAttribute → Option (List Binding)
  | [] => some []
  | a :: as => do
    let b ← a.binding
    let bs ← declaredBindings as
    match b with
    | none => return bs
    | some b => if b.short ∈ bs.map (·.short) then none else return b :: bs

/-- The name that a spelling means in scope. Without a short form an element is in the default
namespace and an attribute in none. -/
def resolveSpelling (inScope : List Binding) (isAttribute : Bool) (s : Spelling) : Option Name :=
  match s.short with
  | none =>
    if isAttribute then some (Name.bare s.label)
    else
      match inScope.find? (·.short.isNone) with
      | some b => some ⟨if b.uri = "" then none else some b, s.label⟩
      | none => some (Name.bare s.label)
  | some short =>
    if short = "xml" then some ⟨some xmlBinding, s.label⟩
    else (inScope.find? (·.short = some short)).map fun b => ⟨some b, s.label⟩

/-- The attributes of a start tag with their names looked up, no name twice. -/
def resolveAttributes (inScope : List Binding) : List RawAttribute → Option (List Attribute)
  | [] => some []
  | a :: as => do
    let name ← resolveSpelling inScope true a.name
    let rest ← resolveAttributes inScope as
    if rest.any fun b => b.name.tag = name.tag then none
    else return ⟨name, a.value, a.written⟩ :: rest

/-! ### Content -/

/-- Character data up to the next tag or reference to an entity, in reverse, and the rest; the flag
tells whether a verbatim section was among it. -/
def readText : Nat → List Char → Bool → List Char → Option (List Char × Bool × List Char)
  | 0, _, _, _ => none
  | _ + 1, acc, verbatim, [] => some (acc, verbatim, [])
  | fuel + 1, acc, verbatim, c :: cs =>
    if c = '<' then
      match Text.dropLead? "![CDATA[".toList cs with
      | some rest =>
        match Text.find? "]]>".toList rest with
        | some (body, rest) => readText fuel (body.reverse ++ acc) true rest
        | none => none
      | none => some (acc, verbatim, c :: cs)
    else if c = '&' then
      match readReference cs with
      | some (.char d, rest) => readText fuel (d :: acc) verbatim rest
      | some (.entity _, _) => some (acc, verbatim, c :: cs)
      | none => none
    else if c = ']' && (Text.dropLead? "]>".toList cs).isSome then none
    else readText fuel (c :: acc) verbatim cs

/-- The end of an element with the given start: its closing tag, and the rest. -/
def readClosing (name : Spelling) (cs : List Char) : Option (List Char) :=
  match Text.dropLead? ['<', '/'] cs with
  | some rest =>
    match readSpelling rest with
    | some (s, rest) =>
      match rest.dropWhile isSpace with
      | '>' :: rest => if s = name then some rest else none
      | _ => none
    | none => none
  | none => none

mutual

/-- The content of an element up to its closing tag: the leading character data, the children with
their tails, and the rest. -/
def readContent (es : Entities) (inScope : List Binding) :
    Nat → List Char → Option (Option String × List Node × List Char)
  | 0, _ => none
  | fuel + 1, cs => do
    let (acc, verbatim, rest) ← readText fuel [] false cs
    let text := if acc.isEmpty && !verbatim then none else some (String.ofList acc.reverse)
    match rest with
    | [] => return (text, [], [])
    | '<' :: '/' :: _ => return (text, [], rest)
    | '<' :: '!' :: _ =>
      let (body, rest) ← readComment rest
      let (tail, nodes, rest) ← readContent es inScope fuel rest
      return (text, .comment body (tail.getD "") :: nodes, rest)
    | '<' :: '?' :: _ =>
      let (target, body, rest) ← readInstruction rest
      let (tail, nodes, rest) ← readContent es inScope fuel rest
      return (text, .instruction target body (tail.getD "") :: nodes, rest)
    | '<' :: rest =>
      let (e, rest) ← readElement es inScope fuel rest
      let (tail, nodes, rest) ← readContent es inScope fuel rest
      return (text, .element { e with tail := tail.getD "" } :: nodes, rest)
    | _ :: rest =>
      match readReference rest with
      | some (.entity label, rest) =>
        if es.allowsInContent label then
          let (tail, nodes, rest) ← readContent es inScope fuel rest
          return (text, .entity label (tail.getD "") :: nodes, rest)
        else none
      | _ => none

/-- An element behind its opening angle bracket, without its tail, and the rest. -/
def readElement (es : Entities) (inScope : List Binding) :
    Nat → List Char → Option (Element × List Char)
  | 0, _ => none
  | fuel + 1, cs => do
    let (spelling, rest) ← readSpelling cs
    let (raw, isEmpty, rest) ← readAttributes es fuel rest
    let bindings ← declaredBindings (raw.filter RawAttribute.isDeclaration)
    let inScope := bindings ++ inScope
    let name ← resolveSpelling inScope false spelling
    let attributes ← resolveAttributes inScope (raw.filter fun a => !a.isDeclaration)
    if isEmpty then return (⟨name, bindings, attributes, none, [], ""⟩, rest)
    else
      let (text, content, rest) ← readContent es inScope fuel rest
      let rest ← readClosing spelling rest
      return (⟨name, bindings, attributes, text, content, ""⟩, rest)

end

/-! ### Documents -/

/-- Are there only blanks, comments and instructions? -/
def isMisc : Nat → List Char → Bool
  | 0, _ => false
  | fuel + 1, cs =>
    match skipMisc fuel cs with
    | some rest => rest.isEmpty
    | none => false

/-- The root of the document that the characters spell. -/
def readDocument (cs : List Char) : Option Element := do
  let cs := normalizeLines cs
  if !cs.all isAllowed then none
  else
    let (standalone, cs) ← readDeclaration cs
    let cs ← skipMisc (cs.length + 1) cs
    let (es, cs) ← readDoctype standalone cs
    let cs ← skipMisc (cs.length + 1) cs
    match cs with
    | '<' :: rest =>
      let (root, rest) ← readElement es [] (rest.length + 1) rest
      if isMisc (rest.length + 2) rest then return root else none
    | _ => none

end Gridfill.Markup
