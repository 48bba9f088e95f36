import Gridfill.Proofs.Markup.Editing
import Gridfill.Proofs.Outcome
import Gridfill.Proofs.Pool.Steps
import Gridfill.Proofs.Reference.Range
import Gridfill.Sheet.Cell

/-!
# What filling a cell keeps and what it changes

A cell that is filled keeps its tag and all its attributes apart from its type (`fill_style`). The pool
changes by looking for at most one text (`fill_pool`), and a cell that holds a place in the pool
afterwards holds one that the pool has (`placed_fill`).
-/

namespace Gridfill

open Markup (Element Tag)

/-! ### Style and place on the sheet -/

/-- The elements have one tag and agree on all attributes but the reference and the type. -/
structure SameStyle (e c : Element) : Prop where
  tag : e.tag = c.tag
  get? : ∀ tag : Tag, tag ≠ ⟨none, "r"⟩ → tag ≠ ⟨none, "t"⟩ → e.get? tag = c.get? tag

namespace SameStyle

theorem refl (e : Element) : SameStyle e e := ⟨rfl, fun _ _ _ => rfl⟩

theorem trans {a b c : Element} (h : SameStyle a b) (h' : SameStyle b c) : SameStyle a c :=
  ⟨h.tag.trans h'.tag, fun tag hr ht => (h.get? tag hr ht).trans (h'.get? tag hr ht)⟩

theorem of_meaning {a b : Element} (h : a.meaning = b.meaning) : SameStyle a b :=
  ⟨Markup.tag_eq_of_meaning h, fun tag _ _ => Markup.get?_eq_of_meaning h tag⟩

theorem set_ref (e : Element) (ref : String) : SameStyle (e.set "r" ref) e :=
  ⟨rfl, fun _ hr _ => e.get?_set_ne ref hr⟩

end SameStyle

/-- The references of cells are those of the given columns in a row. -/
def StandAt (row : Int) (columns : List Nat) (cells : List Element) : Prop :=
  cells.map (·.attribute? "r") = columns.map fun c => some (CellRef.numbered c row).text

namespace StandAt

theorem append {row : Int} {as bs : List Nat} {cells more : List Element} (h : StandAt row as cells)
    (h' : StandAt row bs more) : StandAt row (as ++ bs) (cells ++ more) := by
  rw [StandAt, List.map_append, List.map_append, h, h']

theorem length_eq {row : Int} {columns : List Nat} {cells : List Element}
    (h : StandAt row columns cells) : cells.length = columns.length := by
  have := congrArg List.length h
  rwa [List.length_map, List.length_map] at this

theorem singleton {row : Int} {column : Nat} {e : Element}
    (h : e.attribute? "r" = some (CellRef.numbered column row).text) : StandAt row [column] [e] := by
  rw [StandAt, List.map_singleton, h]
  rfl

theorem of_meaning {row : Int} {columns : List Nat} {cells others : List Element}
    (hm : others.map Element.meaning = cells.map Element.meaning) (h : StandAt row columns cells) :
    StandAt row columns others := by
  have refs (es : List Element) : es.map (·.attribute? "r") =
      (es.map Element.meaning).map (·.attribute? "r") := by
    rw [List.map_map]
    exact List.map_congr_left fun e _ => (Element.attribute?_meaning e "r").symm
  rw [StandAt, refs, hm, ← refs]
  exact h

/-- The columns of cells in two parts. -/
theorem exists_append {row : Int} {columns : List Nat} {cells more : List Element}
    (h : StandAt row columns (cells ++ more)) :
    ∃ as bs, columns = as ++ bs ∧ StandAt row as cells ∧ StandAt row bs more := by
  unfold StandAt at h
  rw [List.map_append, eq_comm, List.map_eq_append_iff] at h
  obtain ⟨as, bs, rfl, has, hbs⟩ := h
  exact ⟨as, bs, rfl, has.symm, hbs.symm⟩

/-- Cells stand in the columns that their references name, and in no others. -/
theorem unique {row : Int} {as bs : List Nat} {cells : List Element} (h : StandAt row as cells)
    (h' : StandAt row bs cells) : as = bs := by
  have injective : Function.Injective fun c => some (CellRef.numbered c row).text := by
    intro c d e
    have chars := congrArg String.toList (Option.some.inj e)
    rw [CellRef.toList_numbered, CellRef.toList_numbered] at chars
    exact Reference.columnLetters_injective (List.append_cancel_right chars)
  exact (List.map_inj_right fun _ _ e => injective e).mp (h.symm.trans h')

end StandAt

namespace Cell

/-! ### Writing the content -/

@[simp] theorem tag_prepare (cell : Element) : (prepare cell).tag = cell.tag := by
  unfold prepare
  simp only
  split <;> rfl

@[simp] theorem get?_prepare (cell : Element) (tag : Tag) : (prepare cell).get? tag = cell.get? tag := by
  unfold prepare
  simp only
  split <;> rfl

theorem tag_newChild (scope : Markup.Scope) (e : Element) (uri label : String) :
    (e.newChild scope uri label).tag = ⟨some uri, label⟩ := by
  unfold Element.newChild
  simp only
  split
  · next b hb =>
    show (⟨some b.uri, label⟩ : Tag) = _
    rw [Markup.uri_of_searchFrom hb]
  · rfl

/-- A prepared cell has an element for its content. -/
theorem exists_child_prepare (cell : Element) :
    ∃ v, (prepare cell).child? Vocabulary.cellValue = some v := by
  unfold prepare
  simp only
  split
  · next v hv => exact ⟨v, hv⟩
  · next hv =>
    rw [Element.child?, Element.children] at hv
    rw [Element.child?, Element.children, List.filterMap_append, List.find?_append, hv, Option.none_or]
    exact ⟨_, List.find?_cons_of_pos (by simp [tag_newChild, Vocabulary.cellValue, Vocabulary.inMain])⟩

@[simp] theorem tag_putText (cell : Element) (text : String) : (putText cell text).tag = cell.tag :=
  tag_prepare cell

@[simp] theorem get?_putText (cell : Element) (text : String) (tag : Tag) :
    (putText cell text).get? tag = cell.get? tag :=
  get?_prepare cell tag

/-- The content that was written is the content that is read. -/
theorem valueText_putText (cell : Element) (text : String) :
    valueText (putText cell text) = some text := by
  obtain ⟨v, hv⟩ := exists_child_prepare cell
  rw [valueText, putText, Element.child?_changeChild (f := (·.setText text)) (fun _ h => h) hv]
  rfl

theorem valueText_eq_of_meaning {a b : Element} (h : a.meaning = b.meaning) :
    valueText a = valueText b := by
  have hc := Markup.child?_eq_of_meaning h Vocabulary.cellValue
  unfold valueText
  cases ha : a.child? Vocabulary.cellValue with
  | none =>
      cases hb : b.child? Vocabulary.cellValue with
      | none => rfl
      | some w => rw [ha, hb] at hc; cases hc
  | some v =>
      cases hb : b.child? Vocabulary.cellValue with
      | none => rw [ha, hb] at hc; cases hc
      | some w =>
          rw [ha, hb] at hc
          exact Markup.text_eq_of_meaning (Option.some.inj hc)

/-! ### Filling -/

theorem writeForm_style (cell : Element) (form : CellForm) (pool : Pool) :
    SameStyle (writeForm cell form pool).1 cell := by
  have tag (text : String) : (putText cell text).tag = cell.tag := tag_putText cell text
  unfold writeForm
  split
  · next b =>
    exact ⟨tag (if b then "1" else "0"),
      fun _ _ ht => ((putText cell _).get?_set_ne _ ht).trans (get?_putText _ _ _)⟩
  · next text =>
    exact ⟨tag text, fun _ _ ht => ((putText cell _).get?_unset_ne ht).trans (get?_putText _ _ _)⟩
  · next s =>
    exact ⟨tag (toString (pool.indexOf s).2),
      fun _ _ ht => ((putText cell _).get?_set_ne _ ht).trans (get?_putText _ _ _)⟩

theorem writeForm_ref (cell : Element) (form : CellForm) (pool : Pool) :
    (writeForm cell form pool).1.attribute? "r" = cell.attribute? "r" := by
  have ht : (⟨none, "r"⟩ : Tag) ≠ ⟨none, "t"⟩ := by decide
  unfold writeForm
  split
  · exact ((putText cell _).get?_set_ne _ ht).trans (get?_putText _ _ _)
  · exact ((putText cell _).get?_unset_ne ht).trans (get?_putText _ _ _)
  · exact ((putText cell _).get?_set_ne _ ht).trans (get?_putText _ _ _)

theorem clear_style (cell : Element) : SameStyle (clear cell) cell :=
  ⟨rfl, fun _ _ ht => cell.get?_unset_ne ht⟩

theorem clear_ref (cell : Element) : (clear cell).attribute? "r" = cell.attribute? "r" :=
  cell.get?_unset_ne (by decide)

section
variable {cell e : Element} {v : Value} {pool pool' : Pool}

/-- Filling either clears the cell or writes the form of the value. -/
theorem fill_cases (h : fill cell v pool = .ok (e, pool')) :
    v = .null ∧ e = clear cell ∧ pool' = pool ∨
    ∃ form, v ≠ .null ∧ v.cellForm = .ok form ∧ e = (writeForm cell form pool).1 ∧
      pool' = (writeForm cell form pool).2.1 := by
  have written (hv : v ≠ .null) (h : (write cell v pool).map (fun r => (r.1, r.2.1)) = .ok (e, pool')) :
      ∃ form, v ≠ .null ∧ v.cellForm = .ok form ∧ e = (writeForm cell form pool).1 ∧
        pool' = (writeForm cell form pool).2.1 := by
    obtain ⟨r, hr, same⟩ := map_eq_ok_iff.mp h
    obtain ⟨form, hform, rfl⟩ := map_eq_ok_iff.mp hr
    obtain ⟨rfl, rfl⟩ := Prod.mk.inj same
    exact ⟨form, hv, hform, rfl, rfl⟩
  cases v with
  | null =>
      obtain ⟨rfl, rfl⟩ := Prod.mk.inj (Except.ok.inj h)
      exact Or.inl ⟨rfl, rfl, rfl⟩
  | _ => exact Or.inr (written nofun h)

variable (h : fill cell v pool = .ok (e, pool'))
include h

/-- A filled cell keeps its tag and its attributes apart from its type. -/
theorem fill_style : SameStyle e cell := by
  rcases fill_cases h with ⟨-, rfl, -⟩ | ⟨form, -, -, rfl, -⟩
  · exact clear_style cell
  · exact writeForm_style cell form pool

theorem fill_ref : e.attribute? "r" = cell.attribute? "r" := by
  rcases fill_cases h with ⟨-, rfl, -⟩ | ⟨form, -, -, rfl, -⟩
  · exact clear_ref cell
  · exact writeForm_ref cell form pool

end

/-! ### The pool behind a filled cell -/

section
variable (holds : Nat → Prop) (becomes : String → String → Prop)

theorem writeForm_pool (cell : Element) (form : CellForm) (pool : Pool) :
    Pool.Steps holds becomes pool (writeForm cell form pool).2.1 := by
  unfold writeForm
  split
  · exact .refl
  · exact .refl
  · exact .single (.indexOf pool _)

/-- Filling a cell looks for at most one text in the pool. -/
theorem fill_pool {cell e : Element} {v : Value} {pool pool' : Pool} (h : fill cell v pool = .ok (e, pool')) :
    Pool.Steps holds becomes pool pool' := by
  rcases fill_cases h with ⟨-, -, rfl⟩ | ⟨form, -, -, -, rfl⟩
  · exact .refl
  · exact writeForm_pool holds becomes cell form pool

end

/-- If the cell holds a place in the pool, it is one below `size`. A number that is too long to be read
counts as well. -/
def Placed (size : Nat) (cell : Element) : Prop :=
  cell.attribute? "t" = some "s" → ∃ i : Nat, i < size ∧
    (i < Text.integerBound →
      let text := Text.strip ((valueText cell).getD "").toList
      Text.isDigitRun text = true ∧ parseInteger (String.ofList text) = .ok (i : Int))

theorem Placed.mono {m n : Nat} {cell : Element} (h : Placed m cell) (hle : m ≤ n) :
    Placed n cell := by
  intro ht
  obtain ⟨i, hi, hread⟩ := h ht
  exact ⟨i, Nat.lt_of_lt_of_le hi hle, hread⟩

theorem Placed.of_meaning {size : Nat} {a b : Element} (hm : a.meaning = b.meaning)
    (h : Placed size b) : Placed size a := by
  intro ht
  rw [Markup.attribute?_eq_of_meaning hm] at ht
  rw [valueText_eq_of_meaning hm]
  exact h ht

theorem Placed.set_ref {size : Nat} {cell : Element} (h : Placed size cell) (ref : String) :
    Placed size (cell.set "r" ref) := by
  intro ht
  rw [Element.attribute?_set_ne cell ref (by decide)] at ht
  exact h ht

theorem isDigitMark_of_isDigit {c : Char} (h : c.isDigit = true) : Text.isDigitMark c = true :=
  (Text.inRanges_iff _ _).mpr
    ⟨⟨48, 57⟩, by unfold Text.digitMarkRanges; exact List.mem_cons_self, Text.isDigit_toNat h⟩

theorem strip_decimal (n : Nat) : Text.strip (Text.decimal n) = Text.decimal n :=
  Text.trim_eq_self fun _ hc => Text.isBlank_of_isDigit (Text.isDigit_of_mem_decimal hc)

theorem isDigitRun_decimal (n : Nat) : Text.isDigitRun (Text.decimal n) = true := by
  rw [Text.isDigitRun, Bool.and_eq_true, List.all_eq_true]
  exact ⟨by simp [Text.decimal_ne_nil], fun c hc => isDigitMark_of_isDigit (Text.isDigit_of_mem_decimal hc)⟩

/-- A place that was written is read again. -/
theorem placed_of_valueText {size i : Nat} {cell : Element} (hi : i < size)
    (h : valueText cell = some (toString i)) : Placed size cell := by
  intro _
  refine ⟨i, hi, fun hb => ?_⟩
  have digits : (toString i).toList = Text.decimal i := Text.toList_toString_ofNat i
  simp only [h, Option.getD_some, digits, strip_decimal]
  refine ⟨isDigitRun_decimal i, ?_⟩
  rw [← digits, String.ofList_toList]
  exact parseInteger_of_write (writeInteger_eq_ok_iff.mpr ⟨by omega, rfl⟩)

theorem placed_writeForm {pool : Pool} (hp : pool.Sound) (cell : Element) (form : CellForm) :
    Placed (writeForm cell form pool).2.1.size (writeForm cell form pool).1 := by
  unfold writeForm
  split
  · intro ht
    rw [Element.attribute?_set] at ht
    exact absurd ht (by decide)
  · intro ht
    rw [Element.attribute?_unset] at ht
    cases ht
  · exact placed_of_valueText (hp.indexOf_lt _) (valueText_putText _ _)

/-- A filled cell holds a place that the pool has, if it holds one at all. -/
theorem placed_fill {cell e : Element} {v : Value} {pool pool' : Pool} (hp : pool.Sound)
    (h : fill cell v pool = .ok (e, pool')) : Placed pool'.size e := by
  rcases fill_cases h with ⟨-, rfl, -⟩ | ⟨form, -, -, rfl, rfl⟩
  · intro ht
    have hn : (clear cell).attribute? "t" = none := cell.attribute?_unset "t"
    rw [hn] at ht
    cases ht
  · exact placed_writeForm hp cell form

/-! ### The place that a cell holds -/

/-- The place in the pool that a cell holds. -/
def place? (cell : Element) : Option Nat :=
  (placeText cell).bind fun s =>
    match Text.readInteger s.toList with
    | .ok i => if i < 0 then none else some i.toNat
    | .error _ => none

/-- A cell that holds a place in digits shows the text there. -/
theorem shownText_of_digits {pool : Pool} {cell : Element} {s : String} {i : Int} (type : cell.attribute? "t" = some "s")
    (hs : valueText cell = some s) (run : Text.isDigitRun (Text.strip s.toList) = true)
    (hi : parseInteger s = .ok i) : shownText pool cell = pool.at? i := by
  have filled : (!(Text.strip s.toList).isEmpty) = true := (Bool.and_eq_true_iff.mp run).1
  rw [shownText, placeText, if_pos type, hs, Option.filter_some, if_pos filled, Option.bind_some,
    parseInteger_eq_ok_iff.mp hi]

/-- The text that a cell shows stands at the place that it holds. -/
theorem shownText_eq (pool : Pool) (cell : Element) :
    shownText pool cell = (place? cell).bind pool.get? := by
  unfold shownText place?
  cases placeText cell with
  | none => rfl
  | some s =>
      simp only [Option.bind_some]
      cases Text.readInteger s.toList with
      | error f => rfl
      | ok i =>
          simp only [Pool.at?]
          split <;> rfl

/-- Putting the texts away moves none of them. -/
@[simp] theorem shownText_movedTo (pool : Pool) (root cell : Element) :
    shownText (pool.movedTo root) cell = shownText pool cell := by
  rw [shownText_eq, shownText_eq, funext (pool.get?_movedTo root)]

theorem place?_set_ref (cell : Element) (ref : String) : place? (cell.set "r" ref) = place? cell := by
  have h : placeText (cell.set "r" ref) = placeText cell := by
    rw [placeText, Element.attribute?_set_ne cell ref (by decide)]
    rfl
  rw [place?, h, place?]

theorem shownText_set_ref (pool : Pool) (cell : Element) (ref : String) :
    shownText pool (cell.set "r" ref) = shownText pool cell := by
  rw [shownText_eq, place?_set_ref, ← shownText_eq]

end Cell
end Gridfill
