import Gridfill.Listing
import Gridfill.Markup.Character
import Gridfill.Markup.Scope
import Gridfill.Package.Vocabulary
import Gridfill.Text.Blank

/-!
# The pool of texts

Cells do not hold their texts; they hold a place in a pool that the whole workbook shares. The pool
is a list of texts and an index that finds the place of a text. An entry that was read from a document
keeps its markup until its text changes, so styled texts survive. That markup is the element in the
document itself: when the pool is written, it is put into the document again.

A pool that was read may hold a text twice; the index then knows the first place. Adding a text points
the index to the new place.
-/

namespace Gridfill

open Markup (Element Node Name Binding)

/-- A text of the pool and the markup it was read from. -/
structure PoolEntry where
  text : String
  markup : Option Element

/-- The texts of a workbook. -/
structure Pool where
  entries : List PoolEntry
  index : Listing Nat

namespace Pool

/-- The pool without texts. -/
def empty : Pool := ⟨[], []⟩

/-- The texts in the order of their places. -/
def texts (p : Pool) : List String := p.entries.map (·.text)

/-- The number of texts. -/
def size (p : Pool) : Nat := p.entries.length

/-- The text at a place. -/
def get? (p : Pool) (i : Nat) : Option String := (p.entries[i]?).map (·.text)

/-- The text at a place given by an integer; a negative place has none. -/
def at? (p : Pool) (i : Int) : Option String := if i < 0 then none else p.get? i.toNat

/-- The text at a place, a negative one counting from the end. -/
def item (p : Pool) (i : Int) : Except Failure String :=
  match p.at? (if i < 0 then i + p.size else i) with
  | some s => .ok s
  | none => .error .indexOutOfRange

/-- The place of a text that the index knows. -/
def find? (p : Pool) (text : String) : Option Nat := p.index.lookup text

/-- Does the index know the text? -/
def contains (p : Pool) (text : String) : Bool := (p.find? text).isSome

/-! ### Changing the pool -/

/-- The pool with one more text, and its place. -/
def add (p : Pool) (text : String) : Pool × Nat :=
  (⟨p.entries ++ [⟨text, none⟩], p.index.put text p.size⟩, p.size)

/-- The place of a text, which is added when the index does not know it. -/
def indexOf (p : Pool) (text : String) : Pool × Nat :=
  match p.find? text with
  | some i => (p, i)
  | none => p.add text

/-- Puts `new` in the place of `old`. When the index knows `new`, that place is taken and `old` stays;
when it does not know `old`, the new text is added. -/
def replace (p : Pool) (old new : String) : Pool × Nat :=
  match p.find? new with
  | some i => (p, i)
  | none =>
    match p.find? old with
    | none => p.add new
    | some i =>
      (⟨p.entries.set i ⟨new, none⟩, (p.index.erase old).put new i⟩, i)

/-- The pool with the given texts, each in a place of its own. -/
def ofTexts (texts : List String) : Pool := texts.foldl (fun p t => (p.add t).1) empty

@[simp] theorem size_add (p : Pool) (text : String) : (p.add text).1.size = p.size + 1 := by
  simp [add, size]

@[simp] theorem texts_add (p : Pool) (text : String) : (p.add text).1.texts = p.texts ++ [text] := by
  simp [add, texts]

@[simp] theorem find?_add (p : Pool) (text : String) : (p.add text).1.find? text = some p.size := by
  simp [add, find?, Listing.lookup_put]

theorem find?_add_ne (p : Pool) {text other : String} (h : other ≠ text) :
    (p.add text).1.find? other = p.find? other := by
  simp [add, find?, Listing.lookup_put_ne _ _ h]

/-! ### Reading and writing -/

/-- The plain text of an entry: its own text and then those of its runs. -/
def entryText (e : Element) : String :=
  let own := e.childrenWith Vocabulary.stringText
  let runs := e.descendants [Vocabulary.stringRun, Vocabulary.stringText]
  String.join ((own ++ runs).map fun t => t.text.getD "")

/-- The pool with an entry read from markup at its end. -/
def addRead (p : Pool) (e : Element) : Pool :=
  let text := entryText e
  { entries := p.entries ++ [⟨text, some e⟩]
    index := if p.contains text then p.index else p.index ++ [(text, p.size)] }

/-- The pool of a document. -/
def ofRoot (root : Element) : Pool :=
  (root.childrenWith Vocabulary.stringItem).foldl addRead empty

/-- Does the text begin or end with a blank? -/
def hasOuterBlank (text : String) : Bool :=
  text.toList.head?.elim false Text.isBlank || text.toList.getLast?.elim false Text.isBlank

/-- The markup of a new entry. -/
def newItem (text : String) : Except Failure Element :=
  if Markup.isAllowedText text then
    let space : Binding := ⟨none, Vocabulary.main⟩
    let keep : List Markup.Attribute :=
      if hasOuterBlank text then [⟨⟨some Markup.xmlBinding, "space"⟩, "preserve", none⟩] else []
    let t : Element := ⟨⟨some space, "t"⟩, [], keep, some text, [], ""⟩
    .ok ⟨⟨some space, "si"⟩, [space], [], none, [.element t], ""⟩
  else .error .forbiddenCharacter

/-- The markup of an entry. -/
def itemOf (e : PoolEntry) : Except Failure Element :=
  match e.markup with
  | some m => .ok m
  | none => newItem e.text

/-- The pool with the markup of its entries moved to the root of a document. -/
def movedTo (p : Pool) (root : Element) : Pool :=
  { p with entries := p.entries.map fun e => { e with markup := e.markup.map (·.moveTo [root.frame]) } }

/-- The root of a document with the texts of the pool as its content, and the pool, whose markup is
that content. -/
def writeTo (p : Pool) (root : Element) : Except Failure (Element × Pool) := do
  let items ← p.entries.mapM itemOf
  let count ← writeInteger p.size
  let root' := ((root.replaceContent [] (items.map .element)).set "count" count).set "uniqueCount" count
  return (root', p.movedTo root)

end Pool
end Gridfill
