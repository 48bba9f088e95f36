/-!
# Marked-up documents

Elements with attributes and content. Names belong to namespaces: a name carries the binding of the
short form that it is written with, and an element lists the bindings that it declares. Two names
with one namespace and one label are the same name, whatever the short form (`Name.tag`).

Character data is kept with the node that it follows: an element has the text between its start tag
and its first child, and every node has the text behind it, its tail. A child that moves takes its
tail along.
-/

namespace Gridfill.Markup

/-- A short form and the namespace that it stands for; without a short form, the namespace of the
names that are written without one. -/
structure Binding where
  short : Option String
  uri : String
deriving DecidableEq, Repr

/-- A name as a namespace and a label. -/
structure Tag where
  uri : Option String
  label : String
deriving DecidableEq, Repr

/-- A name as it is written: the label and the binding of the short form in front of it. -/
structure Name where
  space : Option Binding
  label : String
deriving DecidableEq, Repr

/-- What a name means. -/
def Name.tag (n : Name) : Tag := ⟨n.space.map (·.uri), n.label⟩

/-- A name outside of all namespaces. -/
def Name.bare (label : String) : Name := ⟨none, label⟩

/-- The tag with the namespace in braces in front of the label. -/
def Tag.text (t : Tag) : String :=
  match t.uri with
  | none => t.label
  | some uri => "\x7b" ++ uri ++ "\x7d" ++ t.label

/-- An attribute. A value that refers to entities is also kept as it is written. -/
structure Attribute where
  name : Name
  value : String
  written : Option String
deriving DecidableEq, Repr

mutual

/-- An element of a document. -/
structure Element where
  name : Name
  bindings : List Binding
  attributes : List Attribute
  text : Option String
  content : List Node
  tail : String

/-- What may stand among the content of an element. -/
inductive Node where
  | element (e : Element)
  | comment (body tail : String)
  | instruction (target : String) (body : Option String) (tail : String)
  | entity (label tail : String)

end

/-- The element that a node is. -/
def Node.element? : Node → Option Element
  | .element e => some e
  | _ => none

namespace Element

/-- What the name of the element means. -/
def tag (e : Element) : Tag := e.name.tag

/-! ### Attributes -/

/-- The value of the attribute with the given meaning. -/
def get? (e : Element) (tag : Tag) : Option String :=
  (e.attributes.find? fun a => a.name.tag = tag).map (·.value)

/-- The value of the attribute with the given label outside of all namespaces. -/
def attribute? (e : Element) (label : String) : Option String := e.get? ⟨none, label⟩

/-- The value of the attribute with the given label, or nothing. -/
def attributeOr (e : Element) (label : String) (absent : String) : String :=
  (e.attribute? label).getD absent

/-- A list of attributes with one set: in its place when it is there, at the end otherwise. -/
def setIn (label value : String) : List Attribute → List Attribute
  | [] => [⟨Name.bare label, value, none⟩]
  | a :: as =>
    if a.name.tag = ⟨none, label⟩ then ⟨a.name, value, none⟩ :: as else a :: setIn label value as

/-- The element with an attribute set. -/
def set (e : Element) (label value : String) : Element :=
  { e with attributes := setIn label value e.attributes }

/-- The element without an attribute. -/
def unset (e : Element) (label : String) : Element :=
  { e with attributes := e.attributes.filter fun a => a.name.tag ≠ ⟨none, label⟩ }

theorem find?_setIn (label value : String) (as : List Attribute) :
    ((setIn label value as).find? fun a => a.name.tag = ⟨none, label⟩).map (·.value) = some value := by
  induction as with
  | nil => simp [setIn, Name.bare, Name.tag]
  | cons a as ih =>
    by_cases h : a.name.tag = ⟨none, label⟩
    · simp [setIn, h]
    · simp only [setIn, h, if_false, List.find?_cons, decide_false]
      exact ih

/-- An attribute that was set has the value that it was set to. -/
@[simp] theorem attribute?_set (e : Element) (label value : String) :
    (e.set label value).attribute? label = some value :=
  find?_setIn label value e.attributes

theorem find?_setIn_ne {label : String} {tag : Tag} (value : String) (as : List Attribute)
    (h : tag ≠ ⟨none, label⟩) :
    ((setIn label value as).find? fun a => a.name.tag = tag).map (·.value) =
      (as.find? fun a => a.name.tag = tag).map (·.value) := by
  induction as with
  | nil => simp [setIn, Name.bare, Name.tag, Ne.symm h]
  | cons a as ih =>
    by_cases ha : a.name.tag = ⟨none, label⟩
    · have : a.name.tag ≠ tag := fun hc => h (hc ▸ ha)
      simp [setIn, ha, Ne.symm h]
    · by_cases ht : a.name.tag = tag
      · simp [setIn, ht, h]
      · simp only [setIn, ha, if_false, List.find?_cons, ht, decide_false]
        exact ih

/-- Setting an attribute leaves the others as they were. -/
theorem attribute?_set_ne (e : Element) {label other : String} (value : String) (h : other ≠ label) :
    (e.set label value).attribute? other = e.attribute? other :=
  find?_setIn_ne value e.attributes (by simpa using h)

/-! ### Children -/

/-- The child elements, in order. -/
def children (e : Element) : List Element := e.content.filterMap Node.element?

/-- The child elements with the given meaning, in order. -/
def childrenWith (e : Element) (tag : Tag) : List Element := e.children.filter (·.tag = tag)

/-- The first child element with the given meaning. -/
def child? (e : Element) (tag : Tag) : Option Element := e.children.find? (·.tag = tag)

/-- The elements reached by a path of tags, in document order. -/
def descendants (e : Element) : List Tag → List Element
  | [] => [e]
  | tag :: path => (e.childrenWith tag).flatMap fun c => c.descendants path

/-- A list of nodes with its first element of the given meaning changed. -/
def changeFirst (tag : Tag) (f : Element → Element) : List Node → List Node
  | [] => []
  | .element c :: ns => if c.tag = tag then .element (f c) :: ns else .element c :: changeFirst tag f ns
  | n :: ns => n :: changeFirst tag f ns

/-- The element with its first child of the given meaning changed. -/
def changeChild (e : Element) (tag : Tag) (f : Element → Element) : Element :=
  { e with content := changeFirst tag f e.content }

/-- The element without the first child of the given meaning. -/
def dropFirst (tag : Tag) : List Node → List Node
  | [] => []
  | .element c :: ns => if c.tag = tag then ns else .element c :: dropFirst tag ns
  | n :: ns => n :: dropFirst tag ns

/-- The element with its character data in front of the first child set. -/
def setText (e : Element) (text : String) : Element := { e with text := some text }

end Element
end Gridfill.Markup
