import Gridfill.Markup.Entity

/-!
# The parts of a document before its root

The first line that names the version and the encoding, comments and instructions, and the document
type. Of the document type only the entities matter.
-/

namespace Gridfill.Markup

/-- Line ends become single line feeds. -/
def normalizeLines : List Char → List Char
  | [] => []
  | c :: cs =>
    if c = '\r' then
      match cs with
      | [] => ['\n']
      | d :: ds => if d = '\n' then '\n' :: normalizeLines ds else '\n' :: normalizeLines (d :: ds)
    else c :: normalizeLines cs

/-! ### Comments and instructions -/

/-- A comment at the front of a text, and the rest. Two hyphens may stand only at its end. -/
def readComment (cs : List Char) : Option (String × List Char) :=
  match Text.dropLead? "<!--".toList cs with
  | some rest =>
    match Text.find? ['-', '-'] rest with
    | some (body, '>' :: rest) => some (String.ofList body, rest)
    | _ => none
  | none => none

/-- An instruction at the front of a text: its target, its body and the rest. -/
def readInstruction (cs : List Char) : Option (String × Option String × List Char) :=
  match Text.dropLead? ['<', '?'] cs with
  | some rest =>
    match readLabel rest with
    | some (target, rest) =>
      if target.toLower = "xml" then none
      else
        match rest with
        | '?' :: '>' :: rest => some (target, none, rest)
        | c :: _ =>
          if isSpace c then
            match Text.find? ['?', '>'] (rest.dropWhile isSpace) with
            | some (body, rest) => some (target, some (String.ofList body), rest)
            | none => none
          else none
        | [] => none
    | none => none
  | none => none

/-- The text behind blanks, comments and instructions. -/
def skipMisc : Nat → List Char → Option (List Char)
  | 0, _ => none
  | fuel + 1, cs =>
    match cs.dropWhile isSpace with
    | '<' :: '!' :: '-' :: rest =>
      match readComment ('<' :: '!' :: '-' :: rest) with
      | some (_, rest) => skipMisc fuel rest
      | none => none
    | '<' :: '?' :: rest =>
      match readInstruction ('<' :: '?' :: rest) with
      | some (_, _, rest) => skipMisc fuel rest
      | none => none
    | rest => some rest

/-! ### The first line -/

/-- A text between quotes at the front, and the rest. -/
def readLiteral (cs : List Char) : Option (List Char × List Char) :=
  match cs with
  | quote :: rest =>
    if quote = '"' ∨ quote = '\'' then
      match Text.cutAtFirst quote rest with
      | (body, some rest) => some (body, rest)
      | _ => none
    else none
  | [] => none

/-- A setting `name="value"` behind blanks, and the rest; nothing when there is none. -/
def readSetting (name : String) (cs : List Char) : Option (List Char × List Char) :=
  let rest := cs.dropWhile isSpace
  if rest.length = cs.length then none
  else
    match Text.dropLead? name.toList rest with
    | some rest =>
      match rest.dropWhile isSpace with
      | '=' :: rest => readLiteral (rest.dropWhile isSpace)
      | _ => none
    | none => none

/-- Is the text the number of a version of the document language? -/
def isVersion (cs : List Char) : Bool :=
  match cs with
  | '1' :: '.' :: ds => ds.all Char.isDigit
  | _ => false

/-- Is the text the name of an encoding? -/
def isEncodingName (cs : List Char) : Bool :=
  match cs with
  | c :: cs => c.isAlpha && cs.all fun d => d.isAlphanum || d = '.' || d = '_' || d = '-'
  | [] => false

/-- The settings of a first line. -/
structure Declaration where
  encoding : Option String
  standalone : Bool
deriving DecidableEq, Repr

/-- The first line behind its opening, and the rest. -/
def readSettings (cs : List Char) : Option (Declaration × List Char) := do
  let (version, cs) ← readSetting "version" cs
  if !isVersion version then none
  else
    let (encoding, cs) := match readSetting "encoding" cs with
      | some (e, cs) => (some e, cs)
      | none => (none, cs)
    let (standalone, cs) := match readSetting "standalone" cs with
      | some (s, cs) => (some s, cs)
      | none => (none, cs)
    let goodEncoding := encoding.elim true isEncodingName
    let goodStandalone := standalone.elim true fun s => s = "yes".toList || s = "no".toList
    match cs.dropWhile isSpace with
    | '?' :: '>' :: rest =>
      if goodEncoding && goodStandalone then
        return (⟨encoding.map String.ofList, standalone = some "yes".toList⟩, rest)
      else none
    | _ => none

/-- Does the text begin with a first line? -/
def hasDeclaration (cs : List Char) : Bool :=
  match Text.dropLead? "<?xml".toList cs with
  | some (c :: _) => isSpace c
  | _ => false

/-- The first line at the front of a text, when there is one: whether the document stands alone, and
the rest. -/
def readDeclaration (cs : List Char) : Option (Bool × List Char) :=
  if hasDeclaration cs then
    (readSettings (cs.drop 5)).map fun r => (r.1.standalone, r.2)
  else some (false, cs)

/-! ### The document type -/

/-- The text behind a declaration of which only the end matters: the first closing angle bracket
outside of quotes. -/
def skipDeclaration : Nat → List Char → Option (List Char)
  | 0, _ => none
  | _ + 1, [] => none
  | fuel + 1, c :: cs =>
    if c = '>' then some cs
    else if c = '"' ∨ c = '\'' then
      match Text.cutAtFirst c cs with
      | (_, some rest) => skipDeclaration fuel rest
      | _ => none
    else if c = '<' then none
    else skipDeclaration fuel cs

/-- The text behind blanks, of which there must be one. -/
def dropSpaces? (cs : List Char) : Option (List Char) :=
  match cs with
  | c :: rest => if isSpace c then some (rest.dropWhile isSpace) else none
  | [] => none

/-- May the character stand in the public name of a document type? -/
def isPublicChar (c : Char) : Bool :=
  c.isAlphanum || " \n-'()+,./:=?;!*#@$_%".toList.contains c

/-- The names of a place outside of the document; the rest. -/
def readExternal (cs : List Char) : Option (List Char) :=
  match Text.dropLead? "SYSTEM".toList cs with
  | some rest => do
    let (_, rest) ← readLiteral (← dropSpaces? rest)
    return rest
  | none =>
    match Text.dropLead? "PUBLIC".toList cs with
    | some rest => do
      let (name, rest) ← readLiteral (← dropSpaces? rest)
      let (_, rest) ← readLiteral (← dropSpaces? rest)
      if name.all isPublicChar then return rest else none
    | none => none

/-- The replacement text of an entity: references to characters in its literal are carried out, other
references stay. -/
def replacementText : Nat → List Char → Option (List Char)
  | 0, _ => none
  | _ + 1, [] => some []
  | fuel + 1, c :: cs =>
    if c = '&' then
      match cs with
      | '#' :: _ =>
        match readReference cs with
        | some (.char d, rest) => (replacementText fuel rest).map (d :: ·)
        | _ => none
      | _ =>
        match readReference cs with
        | some _ => (replacementText fuel cs).map (c :: ·)
        | none => none
    else if c = '%' then none
    else (replacementText fuel cs).map (c :: ·)

/-- What an entity is, behind its name, and the rest. -/
def readEntityKind (cs : List Char) : Option (EntityKind × List Char) :=
  match readExternal cs with
  | none => do
    let (body, rest) ← readLiteral cs
    let replacement ← replacementText (body.length + 1) body
    return (.internal (String.ofList replacement), rest)
  | some rest =>
    match (dropSpaces? rest).bind (Text.dropLead? "NDATA".toList) with
    | none => some (.external, rest)
    | some rest => do
      let (_, rest) ← readLabel (← dropSpaces? rest)
      return (.unparsed, rest)

/-- The declaration of an entity behind its opening: what is known afterwards, and the rest. -/
def readEntity (es : Entities) (cs : List Char) : Option (Entities × List Char) := do
  match ← dropSpaces? cs with
  | '%' :: rest =>
    let rest ← skipDeclaration (rest.length + 1) rest
    return (es, rest)
  | cs =>
    let (label, cs) ← readLabel cs
    let (kind, cs) ← readEntityKind (← dropSpaces? cs)
    match cs.dropWhile isSpace with
    | '>' :: rest => return (es.declare label kind, rest)
    | _ => none

/-- The declarations inside a document type up to its closing bracket: what they say about entities,
and the rest. -/
def readSubset : Nat → Entities → List Char → Option (Entities × List Char)
  | 0, _, _ => none
  | fuel + 1, es, cs =>
    match cs.dropWhile isSpace with
    | ']' :: rest => some (es, rest)
    | '%' :: rest =>
      match readLabel rest with
      | some (_, ';' :: rest) => readSubset fuel { es with isPartial := true } rest
      | _ => none
    | '<' :: '?' :: rest =>
      match readInstruction ('<' :: '?' :: rest) with
      | some (_, _, rest) => readSubset fuel es rest
      | none => none
    | '<' :: '!' :: '-' :: rest =>
      match readComment ('<' :: '!' :: '-' :: rest) with
      | some (_, rest) => readSubset fuel es rest
      | none => none
    | '<' :: '!' :: rest =>
      match Text.dropLead? "ENTITY".toList rest with
      | some rest =>
        match readEntity es rest with
        | some (es, rest) => readSubset fuel es rest
        | none => none
      | none =>
        if ["ELEMENT", "ATTLIST", "NOTATION"].any fun w => (Text.dropLead? w.toList rest).isSome then
          match skipDeclaration (rest.length + 1) rest with
          | some rest => readSubset fuel es rest
          | none => none
        else none
    | _ => none

/-- The document type at the front of a text, when there is one: what it says about entities, and the
rest. A document that stands alone has no unknown entities. -/
def readDoctype (standalone : Bool) (cs : List Char) : Option (Entities × List Char) :=
  match Text.dropLead? "<!DOCTYPE".toList cs with
  | none => some (Entities.none, cs)
  | some cs => do
    let (_, cs) ← readLabel (← dropSpaces? cs)
    let cs := match cs with
      | ':' :: rest => rest.dropWhile isNameChar
      | _ => cs
    let cs := cs.dropWhile isSpace
    let (isExternal, cs) := match readExternal cs with
      | some rest => (true, rest.dropWhile isSpace)
      | none => (false, cs)
    let (es, cs) ← match cs with
      | '[' :: rest => readSubset (rest.length + 1) ⟨[], [], [], isExternal⟩ rest
      | _ => some (⟨[], [], [], isExternal⟩, cs)
    match cs.dropWhile isSpace with
    | '>' :: rest => return ({ es with isPartial := es.isPartial && !standalone }, rest)
    | _ => none

end Gridfill.Markup
