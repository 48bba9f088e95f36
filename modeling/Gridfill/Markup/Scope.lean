import Gridfill.Markup.Basic

/-!
# Namespaces in scope

The bindings in force at a place of a document, and what happens to the bindings of an element that
moves to another place. An element that is taken out declares, on itself, what it used from outside
(`Element.detach`). An element that is put in drops the declarations whose namespace is in scope at
its new place, and its names are then written with the short form of that place (`Element.settle`).
A copy declares what it uses from outside under the short forms that it is written with
(`Element.copy`).
-/

namespace Gridfill.Markup

/-- What an element brings into scope: its declarations and the binding of its own name. -/
structure Frame where
  bindings : List Binding
  own : Option Binding
deriving DecidableEq, Repr

/-- The frames of an element's ancestors, the nearest first. -/
abbrev Scope := List Frame

/-- The frame of an element. -/
def Element.frame (e : Element) : Frame := ⟨e.bindings, e.name.space⟩

/-- The namespace of the names that belong to the language of documents itself. -/
def xmlUri : String := "http://www.w3.org/XML/1998/namespace"

/-- The binding that every document has. -/
def xmlBinding : Binding := ⟨some "xml", xmlUri⟩

namespace Scope

/-- The binding of a short form. -/
def resolve? (s : Scope) (short : Option String) : Option Binding :=
  s.findSome? fun f => f.bindings.find? (·.short = short)

/-- The first binding of a namespace among frames, `hidden` being the short forms that nearer frames
bind anew. The binding of an element's own name counts as well, save that of the nearest. -/
def searchFrom (uri : String) (accept : Binding → Bool) :
    List (Option String) → Bool → Scope → Option Binding
  | _, _, [] => none
  | hidden, nearest, f :: fs =>
    let fits (b : Binding) : Bool := b.uri = uri && accept b && !hidden.contains b.short
    match f.bindings.find? fits with
    | some b => some b
    | none =>
      match if nearest then none else f.own.filter fits with
      | some b => some b
      | none => searchFrom uri accept (f.bindings.map (·.short) ++ hidden) false fs

/-- The binding by which a namespace is in scope. -/
def search? (s : Scope) (uri : String) : Option Binding := searchFrom uri (fun _ => true) [] true s

/-- The binding by which a namespace is in scope for attributes, which need a short form. -/
def searchShort? (s : Scope) (uri : String) : Option Binding :=
  searchFrom uri (·.short.isSome) [] true s

/-- A short form that nothing in scope uses: `ns0`, `ns1` and so on. -/
def freshShort (s : Scope) : String :=
  let used := s.foldl (fun n f => n + f.bindings.length) 0
  let free := (List.range (used + 1)).find? fun n => (s.resolve? (some ("ns" ++ toString n))).isNone
  "ns" ++ toString (free.getD 0)

end Scope

/-! ### Settling at a new place -/

/-- A declared binding of a moved element and the binding that takes its place. -/
structure Renaming where
  old : Binding
  new : Binding
deriving DecidableEq, Repr

/-- The declarations of an element that stay, those whose namespace the scope of its parent lacks,
and what becomes of each. -/
def settleBindings (parent : Scope) (bs : List Binding) : List Binding × List Renaming :=
  (bs.filter fun b => (parent.search? b.uri).isNone,
    bs.map fun b => ⟨b, (parent.search? b.uri).getD b⟩)

/-- The binding that a name is written with after the move, and the declarations that the moved
element has to add. A name whose binding was declared inside follows its renaming; any other takes
the binding in scope at the moved element, or has one declared there. -/
def settleSpace (home : List Binding → Scope) (renamed : List Renaming) (isAttribute : Bool)
    (added : List Binding) (b : Binding) : Binding × List Binding :=
  if b.uri = xmlUri then (b, added)
  else
    let keepsShort (r : Renaming) : Bool := !(isAttribute && b.short.isSome) || r.new.short.isSome
    match renamed.find? fun r => r.old = b && keepsShort r with
    | some r => (r.new, added)
    | none =>
      let here := home added
      let found := if isAttribute then here.searchShort? b.uri else here.search? b.uri
      match found with
      | some c => (c, added)
      | none =>
        let short := match b.short with
          | some s => if (here.resolve? (some s)).isSome then here.freshShort else s
          | none => here.freshShort
        (⟨some short, b.uri⟩, added ++ [⟨some short, b.uri⟩])

/-- A name after the move. -/
def settleName (home : List Binding → Scope) (renamed : List Renaming) (isAttribute : Bool)
    (added : List Binding) (n : Name) : Name × List Binding :=
  match n.space with
  | none => (n, added)
  | some b =>
    let r := settleSpace home renamed isAttribute added b
    (⟨some r.1, n.label⟩, r.2)

/-- The attributes after the move. -/
def settleAttributes (home : List Binding → Scope) (renamed : List Renaming) :
    List Binding → List Attribute → List Attribute × List Binding
  | added, [] => ([], added)
  | added, a :: as =>
    let n := settleName home renamed true added a.name
    let r := settleAttributes home renamed n.2 as
    ({ a with name := n.1 } :: r.1, r.2)

mutual

/-- An element inside the moved one after the move; `home` gives the scope at the moved element from
the declarations added to it, and `inner` holds the frames between the two. -/
def settleElement (home : List Binding → Scope) (inner : Scope) (renamed : List Renaming)
    (added : List Binding) : Element → Element × List Binding
  | ⟨name, bindings, attributes, text, content, tail⟩ =>
    let kept := settleBindings (inner ++ home added) bindings
    let renamed := kept.2 ++ renamed
    let n := settleName home renamed false added name
    let a := settleAttributes home renamed n.2 attributes
    let c := settleNodes home (⟨kept.1, n.1.space⟩ :: inner) renamed a.2 content
    (⟨n.1, kept.1, a.1, text, c.1, tail⟩, c.2)

/-- A node inside the moved element after the move. -/
def settleNode (home : List Binding → Scope) (inner : Scope) (renamed : List Renaming)
    (added : List Binding) : Node → Node × List Binding
  | .element e =>
    let r := settleElement home inner renamed added e
    (.element r.1, r.2)
  | .comment body tail => (.comment body tail, added)
  | .instruction target body tail => (.instruction target body tail, added)
  | .entity label tail => (.entity label tail, added)

/-- Nodes inside the moved element after the move. -/
def settleNodes (home : List Binding → Scope) (inner : Scope) (renamed : List Renaming)
    (added : List Binding) : List Node → List Node × List Binding
  | [] => ([], added)
  | n :: ns =>
    let r := settleNode home inner renamed added n
    let rs := settleNodes home inner renamed r.2 ns
    (r.1 :: rs.1, rs.2)

end

namespace Element

/-- The element at a place with the given scope. -/
def settle (scope : Scope) (e : Element) : Element :=
  let kept := settleBindings scope e.bindings
  let home (added : List Binding) : Scope := ⟨kept.1 ++ added, none⟩ :: scope
  let n := settleName home kept.2 false [] e.name
  let a := settleAttributes home kept.2 n.2 e.attributes
  let around (added : List Binding) : Scope := ⟨kept.1 ++ added, n.1.space⟩ :: scope
  let c := settleNodes around [] kept.2 a.2 e.content
  { e with name := n.1, bindings := kept.1 ++ c.2, attributes := a.1, content := c.1 }

/-- The element on its own. -/
def detach (e : Element) : Element := e.settle []

/-- The element moved to a place with the given scope. -/
def moveTo (scope : Scope) (e : Element) : Element := e.detach.settle scope

end Element

/-- A node moved to a place with the given scope. -/
def Node.moveTo (scope : Scope) : Node → Node
  | .element e => .element (e.moveTo scope)
  | n => n

/-! ### Copies -/

/-- The bindings of names, apart from those already bound, each short form once. -/
def addFree (bound : List (Option String)) (free : List Binding) (space : Option Binding) :
    List Binding :=
  match space with
  | none => free
  | some b =>
    if b.uri = xmlUri ∨ b.short ∈ bound ∨ b.short ∈ free.map (·.short) then free else free ++ [b]

mutual

/-- The bindings that an element uses and neither it nor the elements around it declare. -/
def freeInElement (bound : List (Option String)) (free : List Binding) : Element → List Binding
  | ⟨name, bindings, attributes, _, content, _⟩ =>
    let bound := bindings.map (·.short) ++ bound
    let free := addFree bound free name.space
    let free := attributes.foldl (fun free a => addFree bound free a.name.space) free
    freeInNodes bound free content

/-- The bindings that a node uses and nothing around it declares. -/
def freeInNode (bound : List (Option String)) (free : List Binding) : Node → List Binding
  | .element e => freeInElement bound free e
  | .comment _ _ => free
  | .instruction _ _ _ => free
  | .entity _ _ => free

/-- The bindings that nodes use and nothing around them declares. -/
def freeInNodes (bound : List (Option String)) (free : List Binding) : List Node → List Binding
  | [] => free
  | n :: ns => freeInNodes bound (freeInNode bound free n) ns

end

namespace Element

/-- A copy of the element with its content and its tail, on its own. -/
def copy (e : Element) : Element :=
  { e with bindings := e.bindings ++ freeInElement [] [] e }

/-- The bindings in scope at an element, its own first and each short form once. -/
def visible (scope : Scope) (e : Element) : List Binding :=
  ((e.bindings :: scope.map (·.bindings)).flatten).foldl
    (fun seen b => if b.short ∈ seen.map (·.short) then seen else seen ++ [b]) []

/-- A name written with the first of the bindings that fits. -/
def respelled (bindings : List Binding) (isAttribute : Bool) (n : Name) : Name :=
  match n.space with
  | none => n
  | some b =>
    let fits (c : Binding) : Bool := c.uri = b.uri && !(isAttribute && c.short.isNone)
    ⟨some ((bindings.find? fits).getD b), n.label⟩

/-- A copy of the element without its children, on its own: it declares everything in scope. -/
def copyBare (scope : Scope) (e : Element) : Element :=
  let bindings := e.visible scope
  { name := respelled bindings false e.name
    bindings := bindings
    attributes := e.attributes.map fun a => ⟨respelled bindings true a.name, a.value, none⟩
    text := e.text
    content := []
    tail := e.tail }

/-- The element with the given nodes, moved to it, as its content. -/
def replaceContent (scope : Scope) (e : Element) (nodes : List Node) : Element :=
  { e with content := nodes.map (Node.moveTo (e.frame :: scope)) }

/-- The element with one more child. -/
def append (scope : Scope) (e child : Element) : Element :=
  { e with content := e.content ++ [.element (child.moveTo (e.frame :: scope))] }

/-- A new element with the given meaning inside `e`: it is written with a binding in scope, or
declares one. -/
def newChild (scope : Scope) (e : Element) (uri label : String) : Element :=
  let home : Scope := ⟨[], none⟩ :: e.frame :: scope
  match home.search? uri with
  | some b => ⟨⟨some b, label⟩, [], [], none, [], ""⟩
  | none =>
    let b : Binding := ⟨some home.freshShort, uri⟩
    ⟨⟨some b, label⟩, [b], [], none, [], ""⟩

end Element
end Gridfill.Markup
