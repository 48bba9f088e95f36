import Gridfill.Proofs.Markup.Meaning

/-!
# Changing elements

What an element answers after one of its attributes was set or taken away, after its first child of a
tag was changed, and after its content was replaced. Everything that a change is not about stays as it
was (`get?_set_ne`, `childrenWith_changeChild_ne`).
-/

namespace Gridfill.Markup.Element

/-! ### Attributes -/

@[simp] theorem tag_set (e : Element) (label value : String) : (e.set label value).tag = e.tag := rfl

@[simp] theorem childrenWith_set (e : Element) (label value : String) (tag : Tag) :
    (e.set label value).childrenWith tag = e.childrenWith tag := rfl

theorem get?_set_ne (e : Element) {tag : Tag} {label : String} (value : String)
    (h : tag ≠ ⟨none, label⟩) : (e.set label value).get? tag = e.get? tag :=
  find?_setIn_ne value e.attributes h

theorem get?_unset_ne (e : Element) {tag : Tag} {label : String} (h : tag ≠ ⟨none, label⟩) :
    (e.unset label).get? tag = e.get? tag := by
  rw [get?, unset, List.find?_filter, get?]
  congr 2
  funext a
  by_cases ha : a.name.tag = tag
  · simp [ha, h]
  · simp [ha]

@[simp] theorem attribute?_unset (e : Element) (label : String) :
    (e.unset label).attribute? label = none := by
  rw [attribute?, get?, unset, List.find?_filter, Option.map_eq_none_iff, List.find?_eq_none]
  intro a _
  simp

@[simp] theorem attributeOr_set (e : Element) (label value absent : String) :
    (e.set label value).attributeOr label absent = value := by
  rw [attributeOr, attribute?_set]
  rfl

/-! ### The first child of a tag -/

/-- A list of elements with its first element of a tag changed. -/
def changeFirstChild (tag : Tag) (f : Element → Element) : List Element → List Element
  | [] => []
  | c :: cs => if c.tag = tag then f c :: cs else c :: changeFirstChild tag f cs

theorem children_changeChild (e : Element) (tag : Tag) (f : Element → Element) :
    (e.changeChild tag f).children = changeFirstChild tag f e.children := by
  have key : ∀ ns : List Node, (changeFirst tag f ns).filterMap Node.element? =
      changeFirstChild tag f (ns.filterMap Node.element?) := by
    intro ns
    induction ns with
    | nil => rfl
    | cons n ns ih =>
        cases n with
        | element c =>
            by_cases h : c.tag = tag
            · simp [changeFirst, changeFirstChild, h, Node.element?]
            · simp [changeFirst, changeFirstChild, h, Node.element?, ih]
        | comment _ _ => exact ih
        | instruction _ _ _ => exact ih
        | entity _ _ => exact ih
  exact key e.content

/-- The children of the changed tag: the first is changed and the others stay. -/
theorem childrenWith_changeChild (e : Element) {tag : Tag} {f : Element → Element}
    (hf : ∀ c, c.tag = tag → (f c).tag = tag) :
    (e.changeChild tag f).childrenWith tag =
      match e.childrenWith tag with
      | [] => []
      | c :: cs => f c :: cs := by
  rw [childrenWith, children_changeChild, childrenWith]
  induction e.children with
  | nil => rfl
  | cons c cs ih =>
      by_cases h : c.tag = tag
      · simp [changeFirstChild, h, hf c h]
      · simp [changeFirstChild, h, ih]

/-- The children of other tags stay. -/
theorem childrenWith_changeChild_ne (e : Element) {tag other : Tag} {f : Element → Element}
    (hf : ∀ c, c.tag = tag → (f c).tag = tag) (h : other ≠ tag) :
    (e.changeChild tag f).childrenWith other = e.childrenWith other := by
  rw [childrenWith, children_changeChild, childrenWith]
  induction e.children with
  | nil => rfl
  | cons c cs ih =>
      by_cases hc : c.tag = tag
      · simp [changeFirstChild, hc, hf c hc, Ne.symm h]
      · simp only [changeFirstChild, hc, if_false, List.filter_cons, ih]

theorem child?_eq_head? (e : Element) (tag : Tag) : e.child? tag = (e.childrenWith tag).head? := by
  rw [child?, childrenWith, List.head?_filter]

theorem child?_changeChild {e : Element} {tag : Tag} {f : Element → Element} {c : Element}
    (hf : ∀ c, c.tag = tag → (f c).tag = tag) (h : e.child? tag = some c) :
    (e.changeChild tag f).child? tag = some (f c) := by
  rw [child?_eq_head?] at h ⊢
  rw [childrenWith_changeChild e hf]
  cases hc : e.childrenWith tag with
  | nil => rw [hc] at h; cases h
  | cons d ds =>
      rw [hc] at h
      injection h with h
      rw [h]
      rfl

theorem child?_changeChild_ne (e : Element) {tag other : Tag} {f : Element → Element}
    (hf : ∀ c, c.tag = tag → (f c).tag = tag) (h : other ≠ tag) :
    (e.changeChild tag f).child? other = e.child? other := by
  rw [child?_eq_head?, childrenWith_changeChild_ne e hf h, child?_eq_head?]

theorem tag_of_child? {e c : Element} {tag : Tag} (h : e.child? tag = some c) : c.tag = tag := by
  have := List.find?_some h
  simpa using this

theorem tag_of_mem_childrenWith {e c : Element} {tag : Tag} (h : c ∈ e.childrenWith tag) :
    c.tag = tag := by
  have := (List.mem_filter.mp h).2
  simpa using this

/-! ### New content -/

theorem children_replaceContent (scope : Scope) (e : Element) (cs : List Element) :
    (e.replaceContent scope (cs.map Node.element)).children = cs.map (moveTo (e.frame :: scope)) := by
  rw [children, replaceContent]
  induction cs with
  | nil => rfl
  | cons c cs ih => simpa [Node.moveTo, Node.element?] using ih

/-- The children of an element whose content was replaced mean what the new content means. -/
theorem meaning_children_replaceContent (scope : Scope) (e : Element) (cs : List Element) :
    (e.replaceContent scope (cs.map Node.element)).children.map meaning = cs.map meaning := by
  rw [children_replaceContent, List.map_map]
  exact List.map_congr_left fun c _ => meaning_moveTo _ c

theorem meaning_childrenWith_replaceContent (scope : Scope) (e : Element) {tag : Tag}
    {cs : List Element} (h : ∀ c ∈ cs, c.tag = tag) :
    ((e.replaceContent scope (cs.map Node.element)).childrenWith tag).map meaning =
      cs.map meaning := by
  have all : ∀ c ∈ (e.replaceContent scope (cs.map Node.element)).children, c.tag = tag := by
    intro c hc
    rw [children_replaceContent] at hc
    obtain ⟨d, hd, rfl⟩ := List.mem_map.mp hc
    rw [tag_eq_of_meaning (meaning_moveTo _ d)]
    exact h d hd
  rw [childrenWith, List.filter_eq_self.mpr fun c hc => by simpa using all c hc,
    meaning_children_replaceContent]

@[simp] theorem tag_replaceContent (scope : Scope) (e : Element) (ns : List Node) :
    (e.replaceContent scope ns).tag = e.tag := rfl

@[simp] theorem attribute?_replaceContent (scope : Scope) (e : Element) (ns : List Node)
    (label : String) : (e.replaceContent scope ns).attribute? label = e.attribute? label := rfl

@[simp] theorem get?_append (scope : Scope) (e child : Element) (tag : Tag) :
    (e.append scope child).get? tag = e.get? tag := rfl

@[simp] theorem tag_append (scope : Scope) (e child : Element) :
    (e.append scope child).tag = e.tag := rfl

/-! ### Copies without content -/

theorem uri_visible (bs : List Binding) (isAttribute : Bool) (n : Name) :
    (respelled bs isAttribute n).tag = n.tag := by
  obtain ⟨space, label⟩ := n
  cases space with
  | none => rfl
  | some b =>
      simp only [respelled, Name.tag, Option.map_some]
      congr 2
      cases h : bs.find? fun c => c.uri = b.uri && !(isAttribute && c.short.isNone) with
      | none => rfl
      | some c =>
          have := List.find?_some h
          simp only [Bool.and_eq_true, decide_eq_true_eq] at this
          exact this.1

@[simp] theorem tag_copyBare (scope : Scope) (e : Element) : (e.copyBare scope).tag = e.tag :=
  uri_visible _ _ _

@[simp] theorem get?_copyBare (scope : Scope) (e : Element) (tag : Tag) :
    (e.copyBare scope).get? tag = e.get? tag := by
  rw [get?, copyBare, List.find?_map, Option.map_map, get?]
  simp only [Function.comp_def, uri_visible]

end Gridfill.Markup.Element
