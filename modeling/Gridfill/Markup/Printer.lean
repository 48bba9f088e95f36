import Gridfill.Markup.Basic

/-!
# Printing documents

The text of an element: namespace declarations before attributes, attributes in their order between
double quotes, and an element without content as a single empty tag. A document is printed as a fixed
first line and its root.
-/

namespace Gridfill.Markup

/-! ### Escapes -/

/-- A character of character data. -/
def escapeText (c : Char) : List Char :=
  if c = '&' then "&amp;".toList
  else if c = '<' then "&lt;".toList
  else if c = '>' then "&gt;".toList
  else if c = '\r' then "&#13;".toList
  else [c]

/-- A character of an attribute value. -/
def escapeValue (c : Char) : List Char :=
  if c = '&' then "&amp;".toList
  else if c = '<' then "&lt;".toList
  else if c = '>' then "&gt;".toList
  else if c = '"' then "&quot;".toList
  else if c = '\t' then "&#9;".toList
  else if c = '\n' then "&#10;".toList
  else if c = '\r' then "&#13;".toList
  else [c]

/-- Character data. -/
def printText (s : String) : List Char := s.toList.flatMap escapeText

/-- An attribute value. -/
def printValue (s : String) : List Char := s.toList.flatMap escapeValue

/-! ### Tags -/

/-- A name with its short form. -/
def printName (n : Name) : List Char :=
  match n.space.bind (·.short) with
  | some short => short.toList ++ ':' :: n.label.toList
  | none => n.label.toList

/-- A namespace between quotes: single ones when it holds a double quote and no single one. -/
def printUri (s : String) : List Char :=
  let cs := s.toList
  if !cs.contains '"' then '"' :: cs ++ ['"']
  else if !cs.contains '\'' then '\'' :: cs ++ ['\'']
  else '"' :: (cs.flatMap fun c => if c = '"' then "&quot;".toList else [c]) ++ ['"']

/-- A namespace declaration. -/
def printBinding (b : Binding) : List Char :=
  let name := match b.short with
    | some short => "xmlns:".toList ++ short.toList
    | none => "xmlns".toList
  ' ' :: name ++ '=' :: printUri b.uri

/-- An attribute; a value that refers to entities as it was written. -/
def printAttribute (a : Attribute) : List Char :=
  let value := match a.written with
    | some w => w.toList
    | none => printValue a.value
  ' ' :: printName a.name ++ '=' :: '"' :: value ++ ['"']

/-- The inside of a start tag. -/
def printTag (name : Name) (bindings : List Binding) (attributes : List Attribute) : List Char :=
  printName name ++ bindings.flatMap printBinding ++ attributes.flatMap printAttribute

/-! ### Elements -/

mutual

/-- The text of an element without its tail. -/
def printElement : Element → List Char
  | ⟨name, bindings, attributes, text, content, _⟩ =>
    let opening := '<' :: printTag name bindings attributes
    if text.isNone && content.isEmpty then opening ++ ['/', '>']
    else
      opening ++ '>' :: text.elim [] printText ++ printNodes content ++
        '<' :: '/' :: printName name ++ ['>']

/-- The text of a node with its tail. -/
def printNode : Node → List Char
  | .element e => printElement e ++ printText e.tail
  | .comment body tail => "<!--".toList ++ body.toList ++ "-->".toList ++ printText tail
  | .instruction target body tail =>
    "<?".toList ++ target.toList ++ body.elim [] (fun b => ' ' :: b.toList) ++ "?>".toList ++
      printText tail
  | .entity label tail => '&' :: label.toList ++ ';' :: printText tail

/-- The text of nodes. -/
def printNodes : List Node → List Char
  | [] => []
  | n :: ns => printNode n ++ printNodes ns

end

/-- The first line of a document. -/
def declaration : String := "<?xml version=\"1.0\" encoding=\"UTF-8\" standalone=\"yes\"?>\n"

/-- The text of the document with the given root. -/
def Element.print (root : Element) : String :=
  declaration ++ String.ofList (printElement root)

/-- The bytes of the document with the given root. -/
def Element.toBytes (root : Element) : ByteArray := root.print.toUTF8

end Gridfill.Markup
