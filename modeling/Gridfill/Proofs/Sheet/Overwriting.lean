import Gridfill.Proofs.Sheet.HeaderCells
import Gridfill.Proofs.Text.Overwriting

/-!
# Texts with placeholders among other text

A cell or a column whose text holds placeholders among other text is filled by overwriting them one after the other.
When each is found first at its own place, this comes to overwriting them where they stand, all at once
(`filledText_eq_overwritten`): the cell then points at that text, and the column has it as its name
(`overwritten_in_cells_and_names`).
-/

namespace Gridfill

open Markup (Element)
open Placeholder (scan overwritten overwrittenTo replacement FoundInPlace Located)

namespace Header

variable {data : Bindings} {text : String}

/-- Behind the placeholders that are overwritten the text stands as it was, and the others are overwritten in it. -/
theorem filledText_located (found : FoundInPlace data text) : ∀ (ps before : List Placeholder) {pos : Nat}
    {done : List Char}, scan text = before ++ ps → Located pos ps (text.toList.drop pos) →
      (∀ stop, overwrittenTo data text.toList stop 0 before = done ++ text.toList.extract pos stop) →
      filledText data ps (String.ofList (done ++ text.toList.drop pos)) = overwritten data text
  | [], before, pos, done, all, _, so_far => by
      rw [List.append_nil] at all
      rw [filledText, overwritten, all, so_far]
      show _ = String.ofList (done ++ (text.toList.drop pos).take (text.toList.length - pos))
      rw [List.take_of_length_le (Nat.le_of_eq List.length_drop)]
  | p :: ps, before, pos, done, all, located, so_far => by
      obtain ⟨around, written, opening, closing, raw, rest⟩ := located.extract
      have next : ∀ stop, overwrittenTo data text.toList stop 0 (before ++ [p]) =
          done ++ text.toList.extract pos p.start ++ replacement data text.toList p ++
            text.toList.extract p.stop stop := by
        intro stop
        rw [Placeholder.overwrittenTo_append, so_far]
        rfl
      have split : scan text = before ++ [p] ++ ps := by rw [all, List.append_assoc, List.singleton_append]
      have ih := filledText_located found ps (before ++ [p]) split rest next
      rw [around, ← List.append_assoc, ← List.append_assoc]
      unfold filledText
      cases value : data.find? p.name p.key with
      | none =>
          rw [replacement, value, ← written] at ih
          exact ih
      | some v =>
          have at_p : (scan text)[before.length]? = some p := by
            rw [all, List.getElem?_append_right (Nat.le_refl _), Nat.sub_self]
            rfl
          have first : ¬ p.raw.toList <:+: done ++ text.toList.extract pos p.start := by
            have clear := found before.length p at_p (by rw [value]; rfl)
            rw [all, List.take_left, so_far] at clear
            exact clear
          rw [replacement, value] at ih
          rw [raw] at first
          simp only [String.toList_ofList]
          rw [raw, Text.replaceFirst_of_not_infix closing _ _ first]
          exact ih

/-- Overwriting the placeholders one after the other overwrites each where it stands. -/
theorem filledText_eq_overwritten (found : FoundInPlace data text) :
    filledText data (scan text) text = overwritten data text := by
  have all : filledText data (scan text) (String.ofList ([] ++ text.toList.drop 0)) = overwritten data text :=
    filledText_located found (scan text) [] rfl (Placeholder.located_scan text) fun stop => rfl
  rwa [List.nil_append, List.drop_zero, String.ofList_toList] at all

/-! ### Names of columns -/

/-- A name is filled when it may stand in a document and the values that come into it have texts that may. -/
theorem exists_fillName {ps : List Placeholder} : ∀ {name : String} {column : Element},
    Markup.isAllowedText name = true →
    (∀ p ∈ ps, ∀ v, data.find? p.name p.key = some v → v.HasText ∧ Markup.isAllowedText v.wording = true) →
    ∃ column', fillName data ps name column = .ok column' := by
  induction ps with
  | nil => exact fun {_ column} _ _ => ⟨column, rfl⟩
  | cons p ps ih =>
      intro name column own values
      have others := fun q hq => values q (List.mem_cons_of_mem p hq)
      unfold fillName
      cases value : data.find? p.name p.key with
      | none => exact ih own others
      | some v =>
          obtain ⟨text, written⟩ := values p List.mem_cons_self v value
          have allowed : Markup.isAllowedText (String.ofList
              (Text.replaceFirst p.raw.toList v.wording.toList name.toList)) = true := by
            rw [Markup.isAllowedText, String.toList_ofList, List.all_eq_true]
            intro c hc
            rcases Text.mem_of_mem_replaceFirst hc with hc | hc
            · exact List.all_eq_true.mp written c hc
            · exact List.all_eq_true.mp own c hc
          obtain ⟨column', h⟩ := ih allowed others
          exact ⟨column', bind_eq_ok_iff.mpr ⟨_, text.toText, bind_eq_ok_iff.mpr ⟨_, if_pos allowed, h⟩⟩⟩

/-- A name that was filled may stand in a document, and the values that came into it have texts. -/
theorem spec_of_fillName {ps : List Placeholder} : ∀ {name : String} {column column' : Element},
    Markup.isAllowedText name = true → fillName data ps name column = .ok column' →
    Markup.isAllowedText (filledText data ps name) = true ∧
      ∀ p ∈ ps, ∀ v, data.find? p.name p.key = some v → v.HasText := by
  induction ps with
  | nil => exact fun own _ => ⟨own, fun _ hp => nomatch hp⟩
  | cons p ps ih =>
      intro name column column' own h
      rw [List.forall_mem_cons]
      unfold fillName at h
      unfold filledText
      cases value : data.find? p.name p.key with
      | none =>
          rw [value] at h
          obtain ⟨allowed, others⟩ := ih own h
          exact ⟨allowed, fun _ none => (Option.some_ne_none _ none.symm).elim, others⟩
      | some v =>
          rw [value] at h
          obtain ⟨new, hnew, h⟩ := bind_eq_ok_iff.mp h
          obtain ⟨next, hnext, h⟩ := bind_eq_ok_iff.mp h
          obtain rfl := Value.wording_of_toText hnew
          have name_allowed : Markup.isAllowedText (String.ofList
              (Text.replaceFirst p.raw.toList v.wording.toList name.toList)) = true := by
            unfold setName at hnext
            split at hnext
            · next allowed => exact allowed
            · cases hnext
          obtain ⟨allowed, others⟩ := ih name_allowed h
          exact ⟨allowed, fun u hu => Option.some.inj hu ▸ Value.hasText_iff.mpr ⟨_, hnew⟩, others⟩

/-- A column whose name has placeholders among other text keeps to one column. -/
theorem fillColumn_of_parts {column : Element} (place : Nat)
    (parts : ∀ p ∈ scan (column.attributeOr "name" ""), p.whole = false) :
    fillColumn data column place = (fillName data (scan (column.attributeOr "name" ""))
      (column.attributeOr "name" "") (setPlace column place)).map fun c => [c] := by
  rcases fillColumn_cases data column place with ⟨items, across, -⟩ | ⟨-, filled⟩
  · obtain ⟨p, one, -, layout⟩ := layout?_of_across? across
    obtain ⟨whole, -⟩ := Placeholder.exists_of_layout? layout
    rw [parts p (one ▸ List.mem_singleton_self p)] at whole
    cases whole
  · exact filled

/-- A name goes over into one name in which its placeholders are overwritten where they stand, when the values that come
into it have texts that may stand in a document. -/
theorem names_of_parts {column : Element} (place : Nat) (parts : ∀ p ∈ scan text, p.whole = false)
    (found : FoundInPlace data text) (name : column.attributeOr "name" "" = text)
    (own : Markup.isAllowedText text = true) :
    ((∃ columns, fillColumn data column place = .ok columns) ↔
        ∀ p ∈ scan text, ∀ v, data.find? p.name p.key = some v →
          v.HasText ∧ Markup.isAllowedText v.wording = true) ∧
      ∀ columns, fillColumn data column place = .ok columns →
        columns.map (·.attributeOr "name" "") = [overwritten data text] := by
  subst name
  rw [fillColumn_of_parts place parts]
  refine ⟨⟨fun ⟨columns, h⟩ p hp v hv => ?_, fun values => ?_⟩, fun columns h => ?_⟩
  · obtain ⟨c, hc, -⟩ := map_eq_ok_iff.mp h
    obtain ⟨allowed, texts⟩ := spec_of_fillName own hc
    rw [filledText_eq_overwritten found] at allowed
    refine ⟨texts p hp v hv, List.all_eq_true.mpr fun d hd => List.all_eq_true.mp allowed d ?_⟩
    rw [overwritten, String.toList_ofList]
    refine Placeholder.mem_overwrittenTo hp ?_
    rwa [replacement, hv]
  · obtain ⟨c, hc⟩ : ∃ c, fillName data _ _ (setPlace column place) = .ok c := exists_fillName own values
    exact ⟨[c], map_eq_ok_iff.mpr ⟨c, hc, rfl⟩⟩
  · obtain ⟨c, hc, rfl⟩ := map_eq_ok_iff.mp h
    rw [List.map_singleton, name_of_fillName hc (name_setPlace column place), filledText_eq_overwritten found]

end Header

/-! ### Cells -/

/-- The cell points at a text of the pool: it holds the number of a place where the text stands, as such numbers are
written or as they are read. -/
def Cell.PointsAt (pool : Pool) (cell : Element) (text : String) : Prop :=
  cell.attribute? "t" = some "s" ∧ ∃ i : Nat, pool.get? i = some text ∧
    (valueText cell = some (toString i) ∨ place? cell = some i)

theorem Cell.pointsAt_of_shownText {pool : Pool} {cell : Element} {text : String}
    (h : shownText pool cell = some text) : PointsAt pool cell text := by
  have type := type_of_shownText h
  rw [shownText_eq] at h
  obtain ⟨i, place, there⟩ := Option.bind_eq_some_iff.mp h
  exact ⟨type, i, there, .inr place⟩

theorem Cell.pointsAt_writeForm {pool : Pool} (hp : pool.Sound) (cell : Element) (text : String) :
    PointsAt (writeForm cell (.text text) pool).2.1 (writeForm cell (.text text) pool).1 text :=
  ⟨Element.attribute?_set _ _ _, (pool.indexOf text).2, get?_indexOf hp text, .inl (valueText_putText cell _)⟩

/-- The placeholders of a text are overwritten when all values that come into it have texts. -/
theorem Expand.fillText_isOk_iff {data : Bindings} {ps : List Placeholder} : ∀ {text : String} {changed : Bool}
    {work : Work}, (∃ r, fillText data ps text changed work = .ok r) ↔
      ∀ p ∈ ps, ∀ v, data.find? p.name p.key = some v → v.HasText := by
  induction ps with
  | nil => exact ⟨fun _ _ hp => (List.not_mem_nil hp).elim, fun _ => ⟨_, rfl⟩⟩
  | cons p ps ih =>
      intro text changed work
      rw [List.forall_mem_cons, fillText]
      cases data.find? p.name p.key with
      | none => exact ih.trans ⟨fun others => ⟨nofun, others⟩, And.right⟩
      | some v =>
          constructor
          · rintro ⟨r, h⟩
            obtain ⟨new, hnew, h⟩ := bind_eq_ok_iff.mp h
            exact ⟨fun u hu => Option.some.inj hu ▸ Value.hasText_iff.mpr ⟨new, hnew⟩, ih.mp ⟨r, h⟩⟩
          · rintro ⟨own, others⟩
            obtain ⟨new, hnew⟩ := Value.hasText_iff.mp (own v rfl)
            obtain ⟨r, h⟩ := ih.mpr others
            exact ⟨r, bind_eq_ok_iff.mpr ⟨new, hnew, h⟩⟩

/-- A cell that shows a text with placeholders among other text goes over into one cell, which points at the text in
which they are overwritten where they stand, when the values that come into it have texts. -/
theorem Expand.pointsAt_of_parts {site : Site} {cell : Element} {work : Work} {text : String}
    (parts : ∀ p ∈ scan text, p.whole = false) (found : FoundInPlace site.data text) (hp : work.pool.Sound)
    (shown : Cell.shownText work.pool cell = some text) :
    ((∃ o, fillCell site cell work = .ok o) ↔
        ∀ p ∈ scan text, ∀ v, site.data.find? p.name p.key = some v → v.HasText) ∧
      ∀ o, fillCell site cell work = .ok o → ∃ c, o.cells = [c] ∧ o.inserted = 0 ∧
        Cell.PointsAt o.work.pool c (overwritten site.data text) := by
  have one : ∀ p, scan text = [p] → p.whole = false := fun p h => parts p (h ▸ List.mem_singleton_self p)
  rw [fillCell_of_parts shown one, ← Header.filledText_eq_overwritten found]
  refine ⟨⟨fun ⟨o, h⟩ => ?_, fun texts => ?_⟩, fun o h => ?_⟩
  · obtain ⟨r, htext, -⟩ := bind_eq_ok_iff.mp h
    exact fillText_isOk_iff.mp ⟨r, htext⟩
  · obtain ⟨⟨s, changed, work'⟩, htext⟩ := fillText_isOk_iff.mpr texts
    cases changed with
    | true => exact ⟨_, bind_eq_ok_iff.mpr ⟨_, htext, rfl⟩⟩
    | false => exact ⟨_, bind_eq_ok_iff.mpr ⟨_, htext, rfl⟩⟩
  · obtain ⟨⟨s, changed, work'⟩, htext, h⟩ := bind_eq_ok_iff.mp h
    obtain ⟨counted, -⟩ := fillText_spec site.data htext
    obtain ⟨filled, changes⟩ := filledText_of_fillText htext
    obtain ⟨_, _, rfl⟩ := counted
    rw [← filled]
    cases changed with
    | true =>
        rw [← Except.ok.inj h]
        exact ⟨_, rfl, rfl, Cell.pointsAt_writeForm hp cell s⟩
    | false =>
        rw [← Except.ok.inj h, (changes rfl).2]
        exact ⟨cell, rfl, rfl, Cell.pointsAt_of_shownText shown⟩

/-- A text that has placeholders, none of which spans it, and in which each that resolves is found first at its own
place: a cell that shows it goes over into a cell that points at the text with the placeholders overwritten where they
stand, unless a value that comes into it is an integer that cannot be written, and a column with that name goes over
into one with the name overwritten so, unless a text that comes into the name may not stand in a document either. -/
theorem overwritten_in_cells_and_names {data : Bindings} {text : String} (parts : ∀ p ∈ scan text, p.whole = false)
    (found : FoundInPlace data text) :
    (∀ (site : Expand.Site) (cell : Element) (work : Expand.Work), site.data = data → work.pool.Sound →
        Cell.shownText work.pool cell = some text →
        ((∃ o, Expand.fillCell site cell work = .ok o) ↔
          ∀ p ∈ scan text, ∀ v, data.find? p.name p.key = some v → v.HasText) ∧
        ∀ o, Expand.fillCell site cell work = .ok o → ∃ c, o.cells = [c] ∧ o.inserted = 0 ∧
          Cell.PointsAt o.work.pool c (overwritten data text)) ∧
      ∀ (column : Element) (place : Nat), column.attributeOr "name" "" = text → Markup.isAllowedText text = true →
        ((∃ columns, Header.fillColumn data column place = .ok columns) ↔
          ∀ p ∈ scan text, ∀ v, data.find? p.name p.key = some v →
            v.HasText ∧ Markup.isAllowedText v.wording = true) ∧
        ∀ columns, Header.fillColumn data column place = .ok columns →
          columns.map (·.attributeOr "name" "") = [overwritten data text] := by
  refine ⟨fun site cell work same hp shown => ?_, fun column place name own => ?_⟩
  · subst same
    exact Expand.pointsAt_of_parts parts found hp shown
  · exact Header.names_of_parts place parts found name own

namespace Small

open Expand (plainElement plainCell)

/-- A text with three placeholders, and values for two of them. -/
def partsText : String := "a ${x}, ${y} and ${z}"

def partsData : Bindings := .ofValues [("x", .text "$1"), ("y", .int 7)]

/-- A cell that shows the text, and a column with it as its name. -/
def partsCell : Element := plainCell [("r", "A1"), ("t", "s")] "0"

def partsColumn : Element := plainElement "tableColumn" [("id", "1"), ("name", partsText)] []

def partsSite : Expand.Site := ⟨partsData, [], plainElement "row" [("r", "1")] [partsCell], 1⟩

def partsWork : Expand.Work := ⟨.ofTexts [partsText], [], [], Expand.Stats.zero⟩

end Small

theorem overwritten_in_cells_and_names_small : (∀ p ∈ scan Small.partsText, p.whole = false) ∧
    FoundInPlace Small.partsData Small.partsText ∧
    (∃ o c, Expand.fillCell Small.partsSite Small.partsCell Small.partsWork = .ok o ∧ o.cells = [c] ∧ o.inserted = 0 ∧
      Cell.PointsAt o.work.pool c "a $1, 7 and ${z}") ∧
    ∃ columns, Header.fillColumn Small.partsData Small.partsColumn 1 = .ok columns ∧
      columns.map (·.attributeOr "name" "") = ["a $1, 7 and ${z}"] := by
  have parts : ∀ p ∈ scan Small.partsText, p.whole = false := by decide +kernel
  have found : FoundInPlace Small.partsData Small.partsText := by decide +kernel
  have text : overwritten Small.partsData Small.partsText = "a $1, 7 and ${z}" := by decide +kernel
  have shown : Cell.shownText Small.partsWork.pool Small.partsCell = some Small.partsText := by decide +kernel
  have name : Small.partsColumn.attributeOr "name" "" = Small.partsText := by decide +kernel
  have own : Markup.isAllowedText Small.partsText = true := by decide +kernel
  have values : (scan Small.partsText).all (fun p => (Small.partsData.find? p.name p.key).all fun v =>
      v.HasText ∧ Markup.isAllowedText v.wording = true) = true := by decide +kernel
  have texts : ∀ p ∈ scan Small.partsText, ∀ v, Small.partsData.find? p.name p.key = some v →
      v.HasText ∧ Markup.isAllowedText v.wording = true := by
    intro p hp v hv
    have value := List.all_eq_true.mp values p hp
    rw [hv, Option.all_some] at value
    exact of_decide_eq_true value
  obtain ⟨cells, names⟩ := overwritten_in_cells_and_names parts found
  obtain ⟨fills, points⟩ := cells Small.partsSite Small.partsCell Small.partsWork rfl (Pool.sound_ofTexts _) shown
  obtain ⟨goes, filled⟩ := names Small.partsColumn 1 name own
  obtain ⟨o, ho⟩ := fills.mpr fun p hp v hv => (texts p hp v hv).1
  obtain ⟨c, cell⟩ := points o ho
  obtain ⟨columns, hcolumns⟩ := goes.mpr texts
  rw [text] at cell filled
  exact ⟨parts, found, ⟨o, c, ho, cell⟩, columns, hcolumns, filled columns hcolumns⟩

/-- A value in which another placeholder is written is overwritten in its place. -/
example :
    let data := Bindings.ofValues [("x", .text "${y}"), ("y", .int 1)]
    Header.filledText data (scan "${x} ${y}") "${x} ${y}" = "1 ${y}" ∧ overwritten data "${x} ${y}" = "${y} 1" := by
  decide +kernel

end Gridfill
