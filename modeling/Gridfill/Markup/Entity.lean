import Gridfill.Markup.Character
import Gridfill.Text.Cut
import Gridfill.Text.Integer

/-!
# References and entities

A reference names a character, by number or as one of the five predefined entities, or an entity that
the document type declares. Character references are read here; a reference to a declared entity is
kept as a reference. Where the document type is not fully known, because part of it lies outside of
the document, a name that it does not declare may be an entity too.
-/

namespace Gridfill.Markup

/-- What a document type declares about its entities. -/
structure Entities where
  /-- Entities with their replacement texts. -/
  internal : List (String × String)
  /-- Entities that lie outside of the document. -/
  external : List String
  /-- Entities that are no markup. -/
  unparsed : List String
  /-- Is part of the document type unknown? -/
  isPartial : Bool
deriving DecidableEq, Repr

/-- A document without a document type declares no entities. -/
def Entities.none : Entities := ⟨[], [], [], false⟩

/-- What a declaration says of an entity. -/
inductive EntityKind where
  | internal (replacement : String)
  | external
  | unparsed
deriving DecidableEq, Repr

/-- Is the entity declared? -/
def Entities.knows (es : Entities) (label : String) : Bool :=
  (es.internal.lookup label).isSome || es.external.contains label || es.unparsed.contains label

/-- The entities with one more declared; the first declaration of a name counts. -/
def Entities.declare (es : Entities) (label : String) (kind : EntityKind) : Entities :=
  if es.knows label then es
  else
    match kind with
    | .internal replacement => { es with internal := es.internal ++ [(label, replacement)] }
    | .external => { es with external := es.external ++ [label] }
    | .unparsed => { es with unparsed := es.unparsed ++ [label] }

/-- May content refer to the entity? -/
def Entities.allowsInContent (es : Entities) (label : String) : Bool :=
  (es.internal.lookup label).isSome || es.external.contains label ||
    (es.isPartial && !es.unparsed.contains label)

/-- The value of a hexadecimal digit. -/
def hexValue? (c : Char) : Option Nat :=
  if c.isDigit then some (c.toNat - 48)
  else if 'a' ≤ c && c ≤ 'f' then some (c.toNat - 87)
  else if 'A' ≤ c && c ≤ 'F' then some (c.toNat - 55)
  else none

/-- The number that digits spell in a base, when every character is a digit and there is one. -/
def numberIn (base : Nat) (digit? : Char → Option Nat) (cs : List Char) : Option Nat :=
  if cs.isEmpty then none
  else cs.foldl (fun n c => n.bind fun n => (digit? c).map (n * base + ·)) (some 0)

/-- The character with a number, when it may stand in a document. -/
def allowedChar? (n : Nat) : Option Char :=
  if h : n.isValidChar then
    let c := Char.ofNatAux n h
    if isAllowed c then some c else none
  else none

/-- The character of a numeric reference from its text between `&#` and the semicolon. -/
def numericReference (body : List Char) : Option Char :=
  match body with
  | 'x' :: ds => (numberIn 16 hexValue? ds).bind allowedChar?
  | ds => (numberIn 10 (fun c => if c.isDigit then some (c.toNat - 48) else none) ds).bind allowedChar?

/-- The predefined entities. -/
def predefined : List (String × Char) :=
  [("amp", '&'), ("lt", '<'), ("gt", '>'), ("quot", '"'), ("apos", '\'')]

/-- A name without colons at the front of a text, and the rest. -/
def readLabel (cs : List Char) : Option (String × List Char) :=
  match cs with
  | c :: rest =>
    if isNameStart c then
      some (String.ofList (c :: rest.takeWhile isNameChar), rest.dropWhile isNameChar)
    else none
  | [] => none

/-- What a reference stands for. -/
inductive Reference where
  | char (c : Char)
  | entity (label : String)
deriving DecidableEq, Repr

/-- The reference behind an ampersand, and the rest of the text. -/
def readReference (cs : List Char) : Option (Reference × List Char) :=
  match cs with
  | '#' :: rest =>
    match Text.cutAtFirst ';' rest with
    | (body, some after) => (numericReference body).map fun c => (.char c, after)
    | _ => none
  | _ =>
    match readLabel cs with
    | some (label, ';' :: after) =>
      match predefined.lookup label with
      | some c => some (.char c, after)
      | none => some (.entity label, after)
    | _ => none

end Gridfill.Markup
