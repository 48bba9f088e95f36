import Gridfill.Markup.Scope

/-!
# What an element means

Moving an element to another place and copying it change the short forms that its names are written
with and the declarations that it carries, and nothing else. The meaning of an element is what stays:
its names by their namespaces, its attributes, texts and content (`meaning_moveTo`, `meaning_copy`).
Whatever is asked of an element by tags is answered by its meaning alone (`get?_meaning`,
`childrenWith_meaning` and so on).
-/

namespace Gridfill.Markup

/-- The name without the short form that it is written with. -/
def Name.meaning (n : Name) : Name := ⟨n.space.map fun b => ⟨none, b.uri⟩, n.label⟩

/-- The attribute with the meaning of its name. -/
def Attribute.meaning (a : Attribute) : Attribute := { a with name := a.name.meaning }

mutual

/-- The element with the meanings of its names and without declarations. -/
def Element.meaning : Element → Element
  | ⟨name, _, attributes, text, content, tail⟩ =>
    ⟨name.meaning, [], attributes.map Attribute.meaning, text, meaningOfNodes content, tail⟩

/-- The node with the meaning of the element that it is. -/
def Node.meaning : Node → Node
  | .element e => .element e.meaning
  | .comment body tail => .comment body tail
  | .instruction target body tail => .instruction target body tail
  | .entity label tail => .entity label tail

/-- Nodes with the meanings of the elements among them. -/
def meaningOfNodes : List Node → List Node
  | [] => []
  | n :: ns => n.meaning :: meaningOfNodes ns

end

theorem meaningOfNodes_eq_map : ∀ (ns : List Node), meaningOfNodes ns = ns.map Node.meaning
  | [] => rfl
  | n :: ns => by rw [meaningOfNodes, meaningOfNodes_eq_map ns, List.map_cons]

@[simp] theorem tag_meaning_name (n : Name) : n.meaning.tag = n.tag := by
  obtain ⟨space, label⟩ := n
  cases space <;> rfl

namespace Element

/-! ### What the meaning answers -/

theorem meaning_name (e : Element) : e.meaning.name = e.name.meaning := by cases e; rfl

theorem meaning_attributes (e : Element) :
    e.meaning.attributes = e.attributes.map Attribute.meaning := by cases e; rfl

theorem meaning_text (e : Element) : e.meaning.text = e.text := by cases e; rfl

theorem meaning_content (e : Element) : e.meaning.content = e.content.map Node.meaning := by
  cases e
  exact meaningOfNodes_eq_map _

@[simp] theorem tag_meaning (e : Element) : e.meaning.tag = e.tag := by
  rw [tag, meaning_name, tag_meaning_name, tag]

@[simp] theorem get?_meaning (e : Element) (tag : Tag) : e.meaning.get? tag = e.get? tag := by
  rw [get?, meaning_attributes, List.find?_map, Option.map_map, get?]
  simp only [Function.comp_def, Attribute.meaning, tag_meaning_name]

@[simp] theorem attribute?_meaning (e : Element) (label : String) :
    e.meaning.attribute? label = e.attribute? label :=
  get?_meaning e _

theorem children_meaning (e : Element) : e.meaning.children = e.children.map meaning := by
  rw [children, meaning_content, List.filterMap_map, children, List.map_filterMap]
  congr 1
  funext n
  cases n <;> rfl

theorem childrenWith_meaning (e : Element) (tag : Tag) :
    e.meaning.childrenWith tag = (e.childrenWith tag).map meaning := by
  rw [childrenWith, children_meaning, List.filter_map, childrenWith]
  simp only [Function.comp_def, tag_meaning]

theorem child?_meaning (e : Element) (tag : Tag) :
    e.meaning.child? tag = (e.child? tag).map meaning := by
  rw [child?, children_meaning, List.find?_map, child?]
  simp only [Function.comp_def, tag_meaning]

end Element

/-! ### Equal meanings -/

section
variable {a b : Element} (h : a.meaning = b.meaning)
include h

theorem tag_eq_of_meaning : a.tag = b.tag := by
  rw [← Element.tag_meaning, h, Element.tag_meaning]

theorem get?_eq_of_meaning (tag : Tag) : a.get? tag = b.get? tag := by
  rw [← Element.get?_meaning, h, Element.get?_meaning]

theorem attribute?_eq_of_meaning (label : String) : a.attribute? label = b.attribute? label :=
  get?_eq_of_meaning h _

theorem attributeOr_eq_of_meaning (label absent : String) :
    a.attributeOr label absent = b.attributeOr label absent := by
  rw [Element.attributeOr, attribute?_eq_of_meaning h, Element.attributeOr]

theorem text_eq_of_meaning : a.text = b.text := by
  rw [← Element.meaning_text, h, Element.meaning_text]

theorem childrenWith_eq_of_meaning (tag : Tag) :
    (a.childrenWith tag).map Element.meaning = (b.childrenWith tag).map Element.meaning := by
  rw [← Element.childrenWith_meaning, h, Element.childrenWith_meaning]

theorem child?_eq_of_meaning (tag : Tag) :
    (a.child? tag).map Element.meaning = (b.child? tag).map Element.meaning := by
  rw [← Element.child?_meaning, h, Element.child?_meaning]

end

/-! ### Moving -/

/-- The binding that takes the place of another stands for the same namespace. -/
def Renaming.Faithful (r : Renaming) : Prop := r.new.uri = r.old.uri

theorem uri_of_searchFrom {uri : String} {accept : Binding → Bool} {b : Binding} :
    ∀ {hidden : List (Option String)} {nearest : Bool} {s : Scope},
      Scope.searchFrom uri accept hidden nearest s = some b → b.uri = uri
  | _, _, [], h => by cases h
  | hidden, nearest, f :: fs, h => by
      rw [Scope.searchFrom] at h
      split at h
      · next c hc =>
        injection h with h
        have := List.find?_some hc
        simp only [Bool.and_eq_true, decide_eq_true_eq] at this
        rw [← h]
        exact this.1.1
      · split at h
        · next c hc =>
          injection h with h
          cases nearest with
          | true => cases hc
          | false =>
              have := Option.filter_eq_some_iff.mp hc
              simp only [Bool.and_eq_true, decide_eq_true_eq] at this
              rw [← h]
              exact this.2.1.1
        · exact uri_of_searchFrom h

theorem settleBindings_faithful (parent : Scope) (bs : List Binding) :
    ∀ r ∈ (settleBindings parent bs).2, r.Faithful := by
  intro r hr
  obtain ⟨b, -, rfl⟩ := List.mem_map.mp hr
  show ((parent.search? b.uri).getD b).uri = b.uri
  cases h : parent.search? b.uri with
  | none => rfl
  | some c => exact uri_of_searchFrom h

theorem settleSpace_uri {renamed : List Renaming} (hr : ∀ r ∈ renamed, r.Faithful)
    (home : List Binding → Scope) (isAttribute : Bool) (added : List Binding) (b : Binding) :
    (settleSpace home renamed isAttribute added b).1.uri = b.uri := by
  rw [settleSpace]
  split
  · rfl
  · simp only
    split
    · next r hf =>
      have hm := List.mem_of_find?_eq_some hf
      have hp := List.find?_some hf
      simp only [Bool.and_eq_true, decide_eq_true_eq] at hp
      rw [← hp.1]
      exact hr r hm
    · split
      · next c hc =>
        cases isAttribute with
        | true => exact uri_of_searchFrom hc
        | false => exact uri_of_searchFrom hc
      · rfl

theorem meaning_settleName {renamed : List Renaming} (hr : ∀ r ∈ renamed, r.Faithful)
    (home : List Binding → Scope) (isAttribute : Bool) (added : List Binding) (n : Name) :
    (settleName home renamed isAttribute added n).1.meaning = n.meaning := by
  obtain ⟨space, label⟩ := n
  cases space with
  | none => rfl
  | some b =>
      simp only [settleName, Name.meaning, Option.map_some, settleSpace_uri hr]

theorem meaning_settleAttributes {renamed : List Renaming} (hr : ∀ r ∈ renamed, r.Faithful)
    (home : List Binding → Scope) : ∀ (added : List Binding) (as : List Attribute),
      (settleAttributes home renamed added as).1.map Attribute.meaning = as.map Attribute.meaning
  | _, [] => rfl
  | added, a :: as => by
      rw [settleAttributes]
      simp only [List.map_cons, meaning_settleAttributes hr home _ as, Attribute.meaning,
        meaning_settleName hr]

mutual

theorem meaning_settleElement (home : List Binding → Scope) (inner : Scope)
    (renamed : List Renaming) (hr : ∀ r ∈ renamed, r.Faithful) (added : List Binding) :
    ∀ e : Element, (settleElement home inner renamed added e).1.meaning = e.meaning
  | ⟨name, bindings, attributes, text, content, tail⟩ => by
      have hr' : ∀ r ∈ (settleBindings (inner ++ home added) bindings).2 ++ renamed, r.Faithful := by
        intro r hm
        rcases List.mem_append.mp hm with hm | hm
        · exact settleBindings_faithful _ _ r hm
        · exact hr r hm
      simp only [settleElement, Element.meaning, meaning_settleName hr', meaning_settleAttributes hr',
        meaning_settleNodes home _ _ hr' _ content]

theorem meaning_settleNode (home : List Binding → Scope) (inner : Scope)
    (renamed : List Renaming) (hr : ∀ r ∈ renamed, r.Faithful) (added : List Binding) :
    ∀ n : Node, (settleNode home inner renamed added n).1.meaning = n.meaning
  | .element e => by
      simp only [settleNode, Node.meaning, meaning_settleElement home inner renamed hr added e]
  | .comment _ _ => rfl
  | .instruction _ _ _ => rfl
  | .entity _ _ => rfl

theorem meaning_settleNodes (home : List Binding → Scope) (inner : Scope)
    (renamed : List Renaming) (hr : ∀ r ∈ renamed, r.Faithful) (added : List Binding) :
    ∀ ns : List Node,
      meaningOfNodes (settleNodes home inner renamed added ns).1 = meaningOfNodes ns
  | [] => rfl
  | n :: ns => by
      simp only [settleNodes, meaningOfNodes, meaning_settleNode home inner renamed hr added n,
        meaning_settleNodes home inner renamed hr _ ns]

end

namespace Element

theorem meaning_settle (scope : Scope) (e : Element) : (e.settle scope).meaning = e.meaning := by
  obtain ⟨name, bindings, attributes, text, content, tail⟩ := e
  have hr := settleBindings_faithful scope bindings
  simp only [settle, meaning, meaning_settleName hr, meaning_settleAttributes hr,
    meaning_settleNodes _ _ _ hr]

/-- An element means the same at another place. -/
@[simp] theorem meaning_moveTo (scope : Scope) (e : Element) : (e.moveTo scope).meaning = e.meaning := by
  rw [moveTo, meaning_settle, detach, meaning_settle]

/-- A copy means what the element means. -/
@[simp] theorem meaning_copy (e : Element) : e.copy.meaning = e.meaning := by cases e; rfl

end Element

@[simp] theorem Node.meaning_moveTo (scope : Scope) (n : Node) :
    (n.moveTo scope).meaning = n.meaning := by
  cases n with
  | element e => rw [Node.moveTo, Node.meaning, Element.meaning_moveTo, Node.meaning]
  | comment _ _ => rfl
  | instruction _ _ _ => rfl
  | entity _ _ => rfl

end Gridfill.Markup
