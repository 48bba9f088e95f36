import Gridfill.Markup.Printer
import Gridfill.Proofs.Markup.Encoding

/-!
# Documents read again

An empty text is printed as no text is, so a document that is printed and read again can differ from what it was
in its empty texts. `Element.tidy` takes these away, and elements are the same trees when nothing else tells them
apart (`SameTree`). Whatever is asked of an element by tags is answered alike (`SameTree.get?`,
`SameTree.childrenWith` and so on).

A document that was printed names its encoding in its first line, so its bytes are read as its text
(`readBytes?_toBytes`).
-/

namespace Gridfill.Markup

mutual

/-- The element without its empty texts. -/
def Element.tidy : Element → Element
  | ⟨name, bindings, attributes, text, content, tail⟩ =>
    ⟨name, bindings, attributes, text.filter (· ≠ ""), tidyNodes content, tail⟩

/-- The node without the empty texts of the element that it is. -/
def Node.tidy : Node → Node
  | .element e => .element e.tidy
  | .comment body tail => .comment body tail
  | .instruction target body tail => .instruction target body tail
  | .entity label tail => .entity label tail

/-- Nodes without the empty texts of the elements among them. -/
def tidyNodes : List Node → List Node
  | [] => []
  | n :: ns => n.tidy :: tidyNodes ns

end

theorem tidyNodes_eq_map (ns : List Node) : tidyNodes ns = ns.map Node.tidy := by
  induction ns with
  | nil => rfl
  | cons n ns ih => rw [tidyNodes, ih, List.map_cons]

namespace Element

@[simp] theorem tag_tidy (e : Element) : e.tidy.tag = e.tag := by cases e; rfl

@[simp] theorem get?_tidy (e : Element) (tag : Tag) : e.tidy.get? tag = e.get? tag := by cases e; rfl

@[simp] theorem attribute?_tidy (e : Element) (label : String) : e.tidy.attribute? label = e.attribute? label :=
  get?_tidy e _

@[simp] theorem attributeOr_tidy (e : Element) (label absent : String) :
    e.tidy.attributeOr label absent = e.attributeOr label absent := by
  rw [attributeOr, attribute?_tidy, attributeOr]

@[simp] theorem text_tidy (e : Element) : e.tidy.text = e.text.filter (· ≠ "") := by cases e; rfl

/-- An empty text is as good as none. -/
@[simp] theorem text_tidy_getD (e : Element) : e.tidy.text.getD "" = e.text.getD "" := by
  rw [text_tidy]
  cases e.text with
  | none => rfl
  | some s => by_cases h : s = "" <;> simp [Option.filter, h]

theorem children_tidy (e : Element) : e.tidy.children = e.children.map tidy := by
  have content : e.tidy.content = e.content.map Node.tidy := by
    cases e
    exact tidyNodes_eq_map _
  rw [children, content, List.filterMap_map, children, List.map_filterMap]
  congr 1
  funext n
  cases n <;> rfl

theorem childrenWith_tidy (e : Element) (tag : Tag) : e.tidy.childrenWith tag = (e.childrenWith tag).map tidy := by
  rw [childrenWith, children_tidy, List.filter_map, childrenWith]
  simp only [Function.comp_def, tag_tidy]

theorem child?_tidy (e : Element) (tag : Tag) : e.tidy.child? tag = (e.child? tag).map tidy := by
  rw [child?, children_tidy, List.find?_map, child?]
  simp only [Function.comp_def, tag_tidy]

theorem descendants_tidy (path : List Tag) : ∀ e : Element, e.tidy.descendants path = (e.descendants path).map tidy := by
  induction path with
  | nil => exact fun e => rfl
  | cons tag path ih =>
      intro e
      rw [descendants, childrenWith_tidy, List.flatMap_map, descendants, List.map_flatMap]
      simp only [ih]

end Element

/-- Elements that are the same but for their empty texts. -/
def SameTree (a b : Element) : Prop := a.tidy = b.tidy

namespace SameTree

theorem refl (a : Element) : SameTree a a := rfl

section
variable {a b : Element} (h : SameTree a b)
include h

theorem symm : SameTree b a := Eq.symm h

theorem get? (tag : Tag) : a.get? tag = b.get? tag := by
  rw [← a.get?_tidy, h, b.get?_tidy]

end

end SameTree

/-! ### Comparing trees -/

mutual

/-- Are the elements the same tree? -/
def Element.isSame : Element → Element → Bool
  | ⟨name, bindings, attributes, text, content, tail⟩, ⟨name', bindings', attributes', text', content', tail'⟩ =>
    name = name' && bindings = bindings' && attributes = attributes' &&
      text.filter (· ≠ "") = text'.filter (· ≠ "") && tail = tail' && areSame content content'

/-- Are the nodes the same but for empty texts? -/
def Node.isSame : Node → Node → Bool
  | .element e, .element f => e.isSame f
  | .comment body tail, .comment body' tail' => body = body' && tail = tail'
  | .instruction target body tail, .instruction target' body' tail' =>
    target = target' && body = body' && tail = tail'
  | .entity label tail, .entity label' tail' => label = label' && tail = tail'
  | _, _ => false

/-- Are nodes the same, one by one? -/
def areSame : List Node → List Node → Bool
  | [], [] => true
  | n :: ns, m :: ms => n.isSame m && areSame ns ms
  | _, _ => false

end

mutual

theorem sameTree_of_isSame : ∀ {a b : Element}, a.isSame b = true → SameTree a b
  | ⟨_, _, _, _, content, _⟩, ⟨_, _, _, _, content', _⟩, h => by
      simp only [Element.isSame, Bool.and_eq_true, decide_eq_true_eq] at h
      obtain ⟨⟨⟨⟨⟨rfl, rfl⟩, rfl⟩, text⟩, rfl⟩, nodes⟩ := h
      rw [SameTree, Element.tidy, Element.tidy, text, sameNodes_of_areSame nodes]

theorem sameNode_of_isSame : ∀ {a b : Node}, a.isSame b = true → a.tidy = b.tidy
  | .element e, .element f, h => congrArg Node.element (sameTree_of_isSame (a := e) (b := f) h)
  | .comment _ _, .comment _ _, h => by
      simp only [Node.isSame, Bool.and_eq_true, decide_eq_true_eq] at h
      rw [h.1, h.2]
  | .instruction _ _ _, .instruction _ _ _, h => by
      simp only [Node.isSame, Bool.and_eq_true, decide_eq_true_eq] at h
      rw [h.1.1, h.1.2, h.2]
  | .entity _ _, .entity _ _, h => by
      simp only [Node.isSame, Bool.and_eq_true, decide_eq_true_eq] at h
      rw [h.1, h.2]

theorem sameNodes_of_areSame : ∀ {as bs : List Node}, areSame as bs = true → tidyNodes as = tidyNodes bs
  | [], [], _ => rfl
  | n :: ns, m :: ms, h => by
      simp only [areSame, Bool.and_eq_true] at h
      rw [tidyNodes, tidyNodes, sameNode_of_isSame h.1, sameNodes_of_areSame h.2]

end

/-! ### Documents that were printed -/

/-- The bytes of the first line of a document. -/
def declarationBytes : List UInt8 := declaration.toList.flatMap String.utf8EncodeChar

/-- The first line names the encoding, whatever follows it. -/
theorem namedEncoding_declaration (rest : List UInt8) :
    namedEncoding (declarationBytes ++ rest) = some "UTF-8" := by
  have ends : (declarationBytes.takeWhile fun b => decide (b ≠ 62)).length ≠ declarationBytes.length := by
    decide +kernel
  have own : namedEncoding declarationBytes = some "UTF-8" := by decide +kernel
  rw [namedEncoding, List.takeWhile_append, if_neg ends]
  exact own

/-- The bytes of a document that was printed are read as its text. -/
theorem readBytes?_toBytes (root : Element) :
    readBytes? root.toBytes = readDocument (declaration.toList ++ printElement root) := by
  have chars : root.print = String.ofList (declaration.toList ++ printElement root) := by
    rw [Element.print, String.ofList_append, String.ofList_toList]
  have bytes : root.toBytes.toList =
      declarationBytes ++ (printElement root).flatMap String.utf8EncodeChar := by
    rw [Element.toBytes, chars, String.toUTF8_eq_toByteArray, String.toByteArray_ofList, toList_utf8Encode,
      List.flatMap_append, declarationBytes]
  have first : root.toBytes.toList.take 4 = [60, 63, 120, 109] := by
    have long : 4 ≤ declarationBytes.length := by decide +kernel
    have own : declarationBytes.take 4 = [60, 63, 120, 109] := by decide +kernel
    rw [bytes, List.take_append_of_le_length long, own]
  have utf8 : Encoding.named? "UTF-8" = some .utf8 := by decide +kernel
  have decoded : decodeDocument? root.toBytes = some (declaration.toList ++ printElement root) := by
    rw [decodeDocument?, first]
    rw [bytes, namedEncoding_declaration]
    simp only [utf8, Option.bind_some]
    rw [Element.toBytes, decode?_toUTF8, chars, String.toList_ofList]
    rfl
  rw [readBytes?, decoded, Option.bind_some]

/-- The document is printed as something that reads as it, but for empty texts. -/
def ReadsAgain (root : Element) : Prop := ∃ e, readBytes? root.toBytes = some e ∧ SameTree e root

/-- The characters of the first line of a document. -/
def firstLine : { cs : List Char // declaration = String.ofList cs } := ⟨_, rfl⟩

/-- Is what is printed of the document read as the document? -/
def Element.isReadAgain (root : Element) : Bool :=
  (readDocument (firstLine.val ++ printElement root)).any fun e => e.isSame root

theorem readsAgain_of_isReadAgain {root : Element} (h : root.isReadAgain = true) : ReadsAgain root := by
  obtain ⟨e, he, same⟩ := (Option.any_eq_true _ _).mp h
  refine ⟨e, (readBytes?_toBytes root).trans ?_, sameTree_of_isSame same⟩
  rw [firstLine.property, String.toList_ofList]
  exact he

end Gridfill.Markup
