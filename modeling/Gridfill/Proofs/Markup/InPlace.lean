import Gridfill.Proofs.Markup.Editing

/-!
# Elements put back where they stood

An element that is taken out of a document and put in again at the same place means what it meant. When it declares
nothing, at any depth, and its names are written with the bindings by which their namespaces are in scope there
(`Element.atHome`), it is the same element as well (`moveTo_eq_self`): the declarations that it takes along when it is
taken out are dropped when it is put in, and its names are written as before. Other changes that change nothing are
those that set an attribute to the value that it is written with (`set_eq_self`), and those of the first child of a tag
that leave the child what it is (`changeChild_eq_self`).
-/

namespace Gridfill.Markup

/-- Is the name written with the binding by which its namespace is in scope? -/
def Name.atHome (scope : Scope) (isAttribute : Bool) (n : Name) : Bool :=
  n.space.all fun b =>
    b.uri = xmlUri || (scope.search? b.uri = some b && (!isAttribute || b.short.isSome))

mutual

/-- Does the element declare nothing, and are all its names written with bindings in scope? -/
def Element.atHome (scope : Scope) : Element → Bool
  | ⟨name, bindings, attributes, _, content, _⟩ =>
    bindings.isEmpty && name.atHome scope false && attributes.all (fun a => a.name.atHome scope true) &&
      atHomeNodes scope content

/-- Is the element that the node is at home? -/
def Node.atHome (scope : Scope) : Node → Bool
  | .element e => e.atHome scope
  | .comment _ _ => true
  | .instruction _ _ _ => true
  | .entity _ _ => true

/-- Are all elements among the nodes at home? -/
def atHomeNodes (scope : Scope) : List Node → Bool
  | [] => true
  | n :: ns => n.atHome scope && atHomeNodes scope ns

end

/-! ### Out and in again -/

/-- What is found at an element that was taken out is declared there. -/
structure Alone (home : List Binding → Scope) : Prop where
  mem_of_search? : ∀ {added uri c}, (home added).search? uri = some c → c ∈ added
  mem_of_searchShort? : ∀ {added uri c}, (home added).searchShort? uri = some c → c ∈ added ∧ c.short.isSome = true

theorem mem_of_searchFrom_single {uri : String} {accept : Binding → Bool} {f : Frame} {c : Binding}
    (h : Scope.searchFrom uri accept [] true [f] = some c) : c ∈ f.bindings ∧ accept c = true := by
  rw [Scope.searchFrom] at h
  simp only at h
  split at h
  · next d hd =>
    obtain rfl := Option.some.inj h
    have fits := List.find?_some hd
    simp only [Bool.and_eq_true] at fits
    exact ⟨List.mem_of_find?_eq_some hd, fits.1.2⟩
  · cases h

theorem alone_single (space : Option Binding) : Alone fun added => [⟨added, space⟩] where
  mem_of_search? h := (mem_of_searchFrom_single h).1
  mem_of_searchShort? h := mem_of_searchFrom_single h

/-- The declarations of an element that was taken out grow by bindings of namespaces in scope at its place. -/
structure Declares (scope : Scope) (before after : List Binding) : Prop where
  kept : before ⊆ after
  inScope : ∀ b ∈ after, b ∈ before ∨ (scope.search? b.uri).isSome = true

theorem Declares.refl (scope : Scope) (bs : List Binding) : Declares scope bs bs :=
  ⟨List.Subset.refl bs, fun _ hb => Or.inl hb⟩

theorem Declares.trans {scope : Scope} {as bs cs : List Binding} (h : Declares scope as bs)
    (h' : Declares scope bs cs) : Declares scope as cs where
  kept := List.Subset.trans h.kept h'.kept
  inScope b hb := (h'.inScope b hb).elim (h.inScope b) Or.inr

/-- A declared binding of a namespace in scope is renamed to the binding there. -/
theorem find?_settleBindings {scope : Scope} {b c : Binding} {bs : List Binding} (hc : c ∈ bs)
    (same : c.uri = b.uri) (found : scope.search? b.uri = some b) (accept : Renaming → Bool)
    (accepts : ∀ r : Renaming, r.old = c → r.new = b → accept r = true) :
    ∃ r, ((settleBindings scope bs).2.find? fun r => r.old = c && accept r) = some r ∧ r.new = b := by
  have new (d : Binding) (hd : d = c) : (scope.search? d.uri).getD d = b := by
    rw [hd, same, found]
    rfl
  cases h : (settleBindings scope bs).2.find? fun r => r.old = c && accept r with
  | none =>
      have := List.find?_eq_none.mp h ⟨c, (scope.search? c.uri).getD c⟩ (List.mem_map_of_mem hc)
      rw [accepts _ rfl (new c rfl), Bool.and_true, decide_eq_true_iff] at this
      exact absurd rfl this
  | some r =>
      obtain ⟨d, -, rfl⟩ := List.mem_map.mp (List.mem_of_find?_eq_some h)
      have fits := List.find?_some h
      simp only [Bool.and_eq_true, decide_eq_true_eq] at fits
      exact ⟨_, rfl, new d fits.1⟩

section
variable {scope : Scope} {home : List Binding → Scope}

theorem settleName_again (alone : Alone home) {isAttribute : Bool} {n : Name} (h : n.atHome scope isAttribute = true)
    (added : List Binding) :
    Declares scope added (settleName home [] isAttribute added n).2 ∧
      ∀ all, (settleName home [] isAttribute added n).2 ⊆ all → ∀ home' added',
        settleName home' (settleBindings scope all).2 isAttribute added' (settleName home [] isAttribute added n).1 =
          (n, added') := by
  obtain ⟨space, label⟩ := n
  cases space with
  | none => exact ⟨.refl _ _, fun _ _ _ _ => rfl⟩
  | some b =>
      simp only [Name.atHome, Option.all_some, Bool.or_eq_true, Bool.and_eq_true, decide_eq_true_eq,
        Bool.not_eq_true'] at h
      by_cases xml : b.uri = xmlUri
      · simp only [settleName, settleSpace, xml, if_true]
        exact ⟨.refl _ _, fun _ _ _ _ => trivial⟩
      obtain ⟨found, short⟩ := h.resolve_left xml
      -- a binding declared outside takes the name back, when it is one that an attribute can have
      have back {c : Binding} {all : List Binding} (hc : c ∈ all) (same : c.uri = b.uri) (home' : List Binding → Scope)
          (added' : List Binding) :
          settleSpace home' (settleBindings scope all).2 isAttribute added' c = (b, added') := by
        obtain ⟨r, hr, new⟩ := find?_settleBindings hc same found
          (fun r => !(isAttribute && c.short.isSome) || r.new.short.isSome) fun r _ hnew => by
            rw [hnew]
            cases short with
            | inl h => rw [h]; rfl
            | inr h => rw [h, Bool.or_true]
        rw [settleSpace, if_neg (same ▸ xml)]
        simp only [hr, new]
      have step : ∃ c after, settleSpace home [] isAttribute added b = (c, after) ∧ c.uri = b.uri ∧ c ∈ after ∧
          Declares scope added after := by
        rw [settleSpace, if_neg xml]
        simp only [List.find?_nil]
        split
        · next c hc =>
          cases isAttribute with
          | true => exact ⟨c, added, rfl, uri_of_searchFrom hc, (alone.mem_of_searchShort? hc).1, .refl _ _⟩
          | false => exact ⟨c, added, rfl, uri_of_searchFrom hc, alone.mem_of_search? hc, .refl _ _⟩
        · refine ⟨_, _, rfl, rfl, List.mem_append_right _ (List.mem_singleton_self _), List.subset_append_left _ _, ?_⟩
          intro d hd
          rcases List.mem_append.mp hd with hd | hd
          · exact Or.inl hd
          · rw [List.mem_singleton.mp hd]
            exact Or.inr (by rw [found]; rfl)
      obtain ⟨c, after, eq, same, hc, declares⟩ := step
      simp only [settleName, eq]
      exact ⟨declares, fun all hall home' added' => by rw [back (hall hc) same]⟩

theorem settleAttributes_again (alone : Alone home) : ∀ {as : List Attribute},
    (∀ a ∈ as, a.name.atHome scope true = true) → ∀ added, Declares scope added (settleAttributes home [] added as).2 ∧
      ∀ all, (settleAttributes home [] added as).2 ⊆ all → ∀ home' added',
        settleAttributes home' (settleBindings scope all).2 added' (settleAttributes home [] added as).1 = (as, added')
  | [], _, added => ⟨.refl _ _, fun _ _ _ _ => rfl⟩
  | a :: as, h, added => by
      obtain ⟨first, again⟩ := settleName_again alone (h a List.mem_cons_self) added
      obtain ⟨rest, again'⟩ := settleAttributes_again alone (fun d hd => h d (List.mem_cons_of_mem a hd))
        (settleName home [] true added a.name).2
      simp only [settleAttributes]
      refine ⟨first.trans rest, fun all hall home' added' => ?_⟩
      rw [again all (List.Subset.trans rest.kept hall), again' all hall]

mutual

theorem settleElement_again (alone : Alone home) : ∀ (e : Element), e.atHome scope = true → ∀ inner added,
    Declares scope added (settleElement home inner [] added e).2 ∧
      ∀ all, (settleElement home inner [] added e).2 ⊆ all → ∀ home' inner' added',
        settleElement home' inner' (settleBindings scope all).2 added' (settleElement home inner [] added e).1 =
          (e, added')
  | ⟨name, bindings, attributes, text, content, tail⟩, h, inner, added => by
      simp only [Element.atHome, Bool.and_eq_true, List.isEmpty_iff, List.all_eq_true] at h
      obtain ⟨⟨⟨rfl, hname⟩, hattributes⟩, hcontent⟩ := h
      have none (parent : Scope) : settleBindings parent [] = ([], []) := rfl
      obtain ⟨first, again⟩ := settleName_again alone hname added
      obtain ⟨second, again'⟩ := settleAttributes_again alone hattributes (settleName home [] false added name).2
      obtain ⟨third, again''⟩ := settleNodes_again alone content hcontent
        (⟨[], (settleName home [] false added name).1.space⟩ :: inner)
        (settleAttributes home [] (settleName home [] false added name).2 attributes).2
      simp only [settleElement, none, List.nil_append]
      refine ⟨(first.trans second).trans third, fun all hall home' inner' added' => ?_⟩
      rw [again all (List.Subset.trans (second.trans third).kept hall),
        again' all (List.Subset.trans third.kept hall), again'' all hall]

theorem settleNode_again (alone : Alone home) : ∀ (n : Node), n.atHome scope = true → ∀ inner added,
    Declares scope added (settleNode home inner [] added n).2 ∧
      ∀ all, (settleNode home inner [] added n).2 ⊆ all → ∀ home' inner' added',
        settleNode home' inner' (settleBindings scope all).2 added' (settleNode home inner [] added n).1 = (n, added')
  | .element e, h, inner, added => by
      obtain ⟨declares, again⟩ := settleElement_again alone e h inner added
      simp only [settleNode]
      exact ⟨declares, fun all hall home' inner' added' => by rw [again all hall]⟩
  | .comment _ _, _, _, _ => ⟨.refl _ _, fun _ _ _ _ _ => rfl⟩
  | .instruction _ _ _, _, _, _ => ⟨.refl _ _, fun _ _ _ _ _ => rfl⟩
  | .entity _ _, _, _, _ => ⟨.refl _ _, fun _ _ _ _ _ => rfl⟩

theorem settleNodes_again (alone : Alone home) : ∀ (ns : List Node), atHomeNodes scope ns = true → ∀ inner added,
    Declares scope added (settleNodes home inner [] added ns).2 ∧
      ∀ all, (settleNodes home inner [] added ns).2 ⊆ all → ∀ home' inner' added',
        settleNodes home' inner' (settleBindings scope all).2 added' (settleNodes home inner [] added ns).1 =
          (ns, added')
  | [], _, _, _ => ⟨.refl _ _, fun _ _ _ _ _ => rfl⟩
  | n :: ns, h, inner, added => by
      rw [atHomeNodes, Bool.and_eq_true] at h
      obtain ⟨first, again⟩ := settleNode_again alone n h.1 inner added
      obtain ⟨rest, again'⟩ := settleNodes_again alone ns h.2 inner (settleNode home inner [] added n).2
      simp only [settleNodes]
      refine ⟨first.trans rest, fun all hall home' inner' added' => ?_⟩
      rw [again all (List.Subset.trans rest.kept hall), again' all hall]

end

end

namespace Element

/-- An element that declares nothing and is written with the bindings in scope at its place is the same when it was
taken out and put in again. -/
theorem moveTo_eq_self {scope : Scope} {e : Element} (h : e.atHome scope = true) : e.moveTo scope = e := by
  obtain ⟨name, bindings, attributes, text, content, tail⟩ := e
  simp only [atHome, Bool.and_eq_true, List.isEmpty_iff, List.all_eq_true] at h
  obtain ⟨⟨⟨rfl, hname⟩, hattributes⟩, hcontent⟩ := h
  have none (parent : Scope) : settleBindings parent [] = ([], []) := rfl
  obtain ⟨first, again⟩ := settleName_again (alone_single Option.none) hname []
  obtain ⟨second, again'⟩ := settleAttributes_again (alone_single Option.none) hattributes
    (settleName (fun added => [⟨added, Option.none⟩]) [] false [] name).2
  obtain ⟨third, again''⟩ := settleNodes_again
    (alone_single (settleName (fun added => [⟨added, Option.none⟩]) [] false [] name).1.space) content hcontent []
    (settleAttributes (fun added => [⟨added, Option.none⟩]) []
      (settleName (fun added => [⟨added, Option.none⟩]) [] false [] name).2 attributes).2
  rw [moveTo, detach]
  simp only [settle, none, List.nil_append]
  rw [again _ (second.trans third).kept]
  simp only
  rw [again' _ third.kept]
  simp only
  rw [again'' _ (List.Subset.refl _)]
  have dropped : (settleBindings scope (settleNodes
      (fun added => [⟨added, (settleName (fun added => [⟨added, Option.none⟩]) [] false [] name).1.space⟩]) [] []
      (settleAttributes (fun added => [⟨added, Option.none⟩]) []
        (settleName (fun added => [⟨added, Option.none⟩]) [] false [] name).2 attributes).2 content).2).1 = [] := by
    refine List.filter_eq_nil_iff.mpr fun b hb => ?_
    have found := (((first.trans second).trans third).inScope b hb).resolve_left List.not_mem_nil
    rw [Option.isNone_iff_eq_none]
    exact Option.ne_none_iff_isSome.mpr found
  simp only [dropped, List.nil_append]

theorem replaceContent_eq_self {scope : Scope} {e : Element} {cs : List Element}
    (content : e.content = cs.map Node.element) (home : ∀ c ∈ cs, c.atHome (e.frame :: scope) = true) :
    e.replaceContent scope (cs.map Node.element) = e := by
  have same : (cs.map Node.element).map (Node.moveTo (e.frame :: scope)) = e.content := by
    rw [content, List.map_map]
    refine List.map_congr_left fun c hc => ?_
    rw [Function.comp_apply, Node.moveTo, moveTo_eq_self (home c hc)]
  rw [replaceContent, same]
  cases e
  rfl

/-- An element whose content is taken out and put in again means what it meant. -/
theorem meaning_replaceContent {scope : Scope} {e : Element} {ns : List Node}
    (content : e.content.map Node.meaning = ns.map Node.meaning) :
    (e.replaceContent scope ns).meaning = e.meaning := by
  obtain ⟨name, bindings, attributes, text, own, tail⟩ := e
  have same : ((ns.map (Node.moveTo (frame ⟨name, bindings, attributes, text, own, tail⟩ :: scope))).map
      Node.meaning) = own.map Node.meaning := by
    rw [List.map_map, content]
    exact List.map_congr_left fun n _ => Node.meaning_moveTo _ n
  simp only [replaceContent, meaning, meaningOfNodes_eq_map, same]

/-! ### Attributes as they are written -/

/-- The attribute with the label is written with the value, with no entity in it. -/
def Writes (e : Element) (label value : String) : Prop :=
  ∃ name : Name, e.attributes.find? (fun a => a.name.tag = ⟨none, label⟩) = some ⟨name, value, none⟩

theorem setIn_eq_self {label value : String} {name : Name} : ∀ {as : List Attribute},
    as.find? (fun a => a.name.tag = ⟨none, label⟩) = some ⟨name, value, none⟩ → setIn label value as = as
  | [], h => by cases h
  | a :: as, h => by
      rw [List.find?_cons] at h
      rw [setIn]
      by_cases ha : a.name.tag = ⟨none, label⟩
      · rw [decide_eq_true ha] at h
        rw [if_pos ha, Option.some.inj h]
      · rw [decide_eq_false ha] at h
        rw [if_neg ha, setIn_eq_self h]

section
variable {e : Element} {label value : String} (h : e.Writes label value)
include h

/-- An attribute that is set to what is written there is as it was. -/
theorem set_eq_self : e.set label value = e := by
  obtain ⟨name, h⟩ := h
  rw [set, setIn_eq_self h]
  cases e
  rfl

theorem Writes.attribute? : e.attribute? label = some value := by
  obtain ⟨name, h⟩ := h
  rw [Element.attribute?, get?, h]
  rfl

theorem Writes.attributeOr (absent : String) : e.attributeOr label absent = value := by
  rw [Element.attributeOr, h.attribute?]
  rfl

end

/-- An attribute that was set is written so. -/
theorem writes_set (e : Element) (label value : String) : (e.set label value).Writes label value := by
  have key (as : List Attribute) : ∃ name : Name,
      (setIn label value as).find? (fun a => a.name.tag = ⟨none, label⟩) = some ⟨name, value, none⟩ := by
    induction as with
    | nil => exact ⟨Name.bare label, by simp [setIn, Name.bare, Name.tag]⟩
    | cons a as ih =>
        by_cases ha : a.name.tag = ⟨none, label⟩
        · exact ⟨a.name, by simp [setIn, ha]⟩
        · obtain ⟨name, hname⟩ := ih
          exact ⟨name, by simpa [setIn, ha] using hname⟩
  exact key e.attributes

/-- What is written of an attribute is part of the meaning. -/
theorem writes_of_meaning {a b : Element} (h : a.meaning = b.meaning) {label value : String}
    (written : a.Writes label value) : b.Writes label value := by
  have find (e : Element) : e.meaning.attributes.find? (fun a => a.name.tag = ⟨none, label⟩) =
      (e.attributes.find? fun a => a.name.tag = ⟨none, label⟩).map Attribute.meaning := by
    rw [meaning_attributes, List.find?_map]
    simp only [Function.comp_def, Attribute.meaning, tag_meaning_name]
  obtain ⟨name, written⟩ := written
  have there := find a
  rw [written, h, find b, Option.map_some, Option.map_eq_some_iff] at there
  obtain ⟨⟨own, value', written'⟩, hb, same⟩ := there
  injection same with _ hvalue hwritten
  obtain rfl : value' = value := hvalue
  obtain rfl : written' = none := hwritten
  exact ⟨own, hb⟩

/-- Other attributes that are set or taken away leave what is written. -/
theorem Writes.set_ne {e : Element} {label value : String} (h : e.Writes label value) {other : String}
    (own : label ≠ other) (new : String) : (e.set other new).Writes label value := by
  have key : ∀ as : List Attribute, (setIn other new as).find? (fun a => a.name.tag = ⟨none, label⟩) =
      as.find? fun a => a.name.tag = ⟨none, label⟩ := by
    intro as
    induction as with
    | nil => simp [setIn, Name.bare, Name.tag, Ne.symm own]
    | cons a as ih =>
        by_cases ha : a.name.tag = ⟨none, other⟩
        · simp [setIn, ha, Ne.symm own]
        · rw [setIn, if_neg ha, List.find?_cons, List.find?_cons, ih]
  obtain ⟨name, h⟩ := h
  exact ⟨name, (key e.attributes).trans h⟩

theorem Writes.unset_ne {e : Element} {label value : String} (h : e.Writes label value) {other : String}
    (own : label ≠ other) : (e.unset other).Writes label value := by
  obtain ⟨name, h⟩ := h
  refine ⟨name, ?_⟩
  rw [unset, List.find?_filter, ← h]
  congr 1
  funext a
  by_cases ha : a.name.tag = ⟨none, label⟩
  · simp [ha, own]
  · simp [ha]

/-- New children leave what is written. -/
theorem Writes.foldl_append {label value : String} (scope : Scope) : ∀ {cs : List Element} {e : Element},
    e.Writes label value → (cs.foldl (fun e c => e.append scope c) e).Writes label value
  | [], _, h => h
  | c :: cs, e, h => by
      obtain ⟨name, h⟩ := h
      have more : (e.append scope c).Writes label value := ⟨name, h⟩
      rw [List.foldl_cons]
      exact more.foldl_append scope

/-! ### Elements that hold nothing but children of a tag -/

/-- The element holds nothing but elements of the tag. -/
def HoldsOnly (tag : Tag) (e : Element) : Prop := ∀ n ∈ e.content, ∃ c : Element, n = .element c ∧ c.tag = tag

theorem content_of_holdsOnly {tag : Tag} {e : Element} (h : e.HoldsOnly tag) :
    e.content = (e.childrenWith tag).map Node.element := by
  unfold HoldsOnly at h
  rw [childrenWith, children]
  generalize e.content = nodes at h
  induction nodes with
  | nil => rfl
  | cons n ns ih =>
      obtain ⟨c, rfl, same⟩ := h n List.mem_cons_self
      have first : (Node.element c :: ns).filterMap Node.element? = c :: ns.filterMap Node.element? := rfl
      rw [first, List.filter_cons, if_pos (decide_eq_true same), List.map_cons,
        ← ih fun m hm => h m (List.mem_cons_of_mem _ hm)]

theorem holdsOnly_of_meaning {tag : Tag} {a b : Element} (h : a.meaning = b.meaning) (only : a.HoldsOnly tag) :
    b.HoldsOnly tag := by
  intro n hn
  have same : b.content.map Node.meaning = a.content.map Node.meaning := by
    rw [← meaning_content, ← meaning_content, h]
  obtain ⟨m, hm, alike⟩ := List.mem_map.mp (same ▸ List.mem_map_of_mem hn)
  obtain ⟨c, rfl, hc⟩ := only m hm
  cases n with
  | element d =>
      refine ⟨d, rfl, ?_⟩
      rw [← hc, ← tag_meaning d, ← tag_meaning c]
      injection alike with alike
      rw [alike]
  | comment _ _ => cases alike
  | instruction _ _ _ => cases alike
  | entity _ _ => cases alike

theorem holdsOnly_replaceContent (scope : Scope) (e : Element) {tag : Tag} {cs : List Element}
    (h : ∀ c ∈ cs, c.tag = tag) : (e.replaceContent scope (cs.map Node.element)).HoldsOnly tag := by
  intro n hn
  rw [replaceContent, List.map_map] at hn
  obtain ⟨c, hc, rfl⟩ := List.mem_map.mp hn
  exact ⟨_, rfl, (tag_eq_of_meaning (meaning_moveTo _ c)).trans (h c hc)⟩

theorem HoldsOnly.foldl_append {tag : Tag} (scope : Scope) : ∀ {cs : List Element} {e : Element}, e.HoldsOnly tag →
    (∀ c ∈ cs, c.tag = tag) → (cs.foldl (fun e c => e.append scope c) e).HoldsOnly tag
  | [], _, only, _ => only
  | c :: cs, e, only, h => by
      have more : (e.append scope c).HoldsOnly tag := by
        intro n hn
        rcases List.mem_append.mp hn with hn | hn
        · exact only n hn
        · rw [List.mem_singleton.mp hn]
          exact ⟨_, rfl, (tag_eq_of_meaning (meaning_moveTo _ c)).trans (h c List.mem_cons_self)⟩
      rw [List.foldl_cons]
      exact HoldsOnly.foldl_append scope more fun d hd => h d (List.mem_cons_of_mem c hd)

/-! ### The first child of a tag -/

section
variable {e c c' : Element} {tag : Tag}

theorem changeFirst_of_child {f : Element → Element} {ns : List Node}
    (h : (ns.filterMap Node.element?).find? (·.tag = tag) = some c) :
    ∃ before after, ns = before ++ .element c :: after ∧ changeFirst tag f ns = before ++ .element (f c) :: after := by
  induction ns with
  | nil => cases h
  | cons n ns ih =>
      cases n with
      | element d =>
          have h : (d :: ns.filterMap Node.element?).find? (·.tag = tag) = some c := h
          rw [List.find?_cons] at h
          by_cases hd : d.tag = tag
          · rw [decide_eq_true hd] at h
            obtain rfl := Option.some.inj h
            exact ⟨[], ns, rfl, if_pos hd⟩
          · rw [decide_eq_false hd] at h
            obtain ⟨before, after, rfl, changed⟩ := ih h
            exact ⟨.element d :: before, after, rfl, (if_neg hd).trans (congrArg _ changed)⟩
      | comment body tail =>
          obtain ⟨before, after, rfl, changed⟩ := ih h
          exact ⟨.comment body tail :: before, after, rfl, congrArg _ changed⟩
      | instruction target body tail =>
          obtain ⟨before, after, rfl, changed⟩ := ih h
          exact ⟨.instruction target body tail :: before, after, rfl, congrArg _ changed⟩
      | entity label tail =>
          obtain ⟨before, after, rfl, changed⟩ := ih h
          exact ⟨.entity label tail :: before, after, rfl, congrArg _ changed⟩

theorem changeChild_eq_self (h : e.child? tag = some c) : e.changeChild tag (fun _ => c) = e := by
  obtain ⟨before, after, content, changed⟩ := changeFirst_of_child (f := fun _ => c) h
  rw [changeChild, changed, ← content]
  cases e
  rfl

/-- An element whose first child of a tag makes way for one with its meaning means what it meant. -/
theorem meaning_changeChild (h : e.child? tag = some c) (same : c'.meaning = c.meaning) :
    (e.changeChild tag fun _ => c').meaning = e.meaning := by
  obtain ⟨name, bindings, attributes, text, own, tail⟩ := e
  obtain ⟨before, after, content, changed⟩ := changeFirst_of_child (f := fun _ => c') h
  have content : own = before ++ .element c :: after := content
  have changed : changeFirst tag (fun _ => c') own = before ++ .element c' :: after := changed
  simp only [changeChild, meaning, meaningOfNodes_eq_map, changed]
  rw [content]
  simp only [List.map_append, List.map_cons, Node.meaning, same]

end

end Element
end Gridfill.Markup
