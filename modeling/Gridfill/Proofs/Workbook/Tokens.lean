import Gridfill.Proofs.Sheet.Tokens
import Gridfill.Proofs.Sheet.Values
import Gridfill.Proofs.Workbook.Filled

/-!
# Placeholders listed and placeholders counted

The listing of a sheet shows the placeholders of all cells by the pool as it is, while a substitution reads each cell by
the pool as it is by then. It counts what is listed, less one for each cell whose text has changed by the time it is
reached (`placeholders_counted_once`).
-/

namespace Gridfill

open Markup (Element)

theorem Listing.put_of_not_mem {α : Type} {name : String} (a : α) : ∀ {es : Listing α}, name ∉ names es →
    put name a es = es ++ [(name, a)]
  | [], _ => rfl
  | e :: es, h => by
      rw [names, List.map_cons, List.mem_cons, not_or] at h
      rw [put, if_neg (Ne.symm h.1), put_of_not_mem a h.2]
      rfl

/-! ### Small sheets -/

namespace Small

open Expand (plainElement plainCell)

/-- A row with two cells that hold places in the pool. -/
def pairSheet (first second : String) : Sheet where
  info := ⟨1, "Data", "sheet1.xml", none⟩
  root := plainElement "worksheet" []
    [plainElement "sheetData" []
      [plainElement "row" [("r", "1")]
        [plainCell [("r", "A1"), ("t", "s")] first, plainCell [("r", "B1"), ("t", "s")] second]]]
  tables := []

def greeting : Bindings := .ofValues [("x", .text "hello")]

theorem unmarked_greeting : greeting.Unmarked := Bindings.unmarked_ofValues (by decide)

end Small

/-! ### The listing -/

/-- If the cell holds a place in the pool, it holds it in plain digits. -/
def Cell.PlainPlace (cell : Element) : Prop :=
  cell.attribute? "t" = some "s" → ∀ s, valueText cell = some s → ∀ c ∈ s.toList, c.isDigit = true

/-- Whether the cells hold their places in plain digits can be computed. -/
theorem Cell.plainPlace_of_all {cells : List Element}
    (h : (cells.all fun cell => (valueText cell).all fun s => s.toList.all Char.isDigit) = true) :
    ∀ cell ∈ cells, PlainPlace cell := by
  intro cell hcell _ s hs
  have all := List.all_eq_true.mp h cell hcell
  rw [hs] at all
  exact List.all_eq_true.mp all

namespace Workbook

open Expand (Met overtaken textsReached met_textsReached counted_of_run)

/-- The number of placeholders in a listing, all cells together. -/
def listedCount (found : Listing (List Placeholder)) : Nat := (found.map (·.2.length)).sum

/-- The placeholders of a cell are those of the text that it shows. -/
theorem length_cellPlaceholders {pool : Pool} {cell : Element} (type : cell.attribute? "t" = some "s")
    (plain : Cell.PlainPlace cell) {ps : List Placeholder} (h : cellPlaceholders pool cell = .ok ps) :
    ps.length = Placeholder.count (Cell.shownText pool cell) := by
  unfold cellPlaceholders at h
  cases hv : Cell.valueText cell with
  | none =>
      rw [hv] at h
      rw [← Except.ok.inj h, Cell.shownText, Cell.placeText, if_pos type, hv]
      rfl
  | some s =>
      have digits := plain type s hv
      have blank : Text.strip s.toList = s.toList := Text.trim_eq_self fun c hc => Text.isBlank_of_isDigit (digits c hc)
      simp only [hv, blank] at h
      by_cases none : s.toList = []
      · rw [none, Text.isDigitRun] at h
        rw [← Except.ok.inj h, Cell.shownText, Cell.placeText, if_pos type, hv, Option.filter_some, blank, none]
        rfl
      · have run : Text.isDigitRun s.toList = true := by
          simp only [Text.isDigitRun, Bool.and_eq_true, Bool.not_eq_true', List.isEmpty_eq_false_iff, List.all_eq_true]
          exact ⟨none, fun c hc => Cell.isDigitMark_of_isDigit (digits c hc)⟩
        rw [run, if_pos rfl] at h
        obtain ⟨i, hi, h⟩ := bind_eq_ok_iff.mp h
        rw [← Except.ok.inj h, Cell.shownText_of_digits type hv (blank.symm ▸ run) hi]
        cases hat : pool.at? i with
        | none => rfl
        | some t => rfl

/-- Cells with different references are listed one after the other. -/
theorem listedCount_gatherPlaceholders {pool : Pool} : ∀ {cells : List Element}
    {found found' : Listing (List Placeholder)}, (∀ cell ∈ cells, cell.attribute? "t" = some "s") →
      (∀ cell ∈ cells, Cell.PlainPlace cell) → (cells.map (·.attributeOr "r" "")).Nodup →
      (∀ cell ∈ cells, cell.attributeOr "r" "" ∉ found.names) → gatherPlaceholders pool cells found = .ok found' →
        listedCount found' =
          listedCount found + ((cells.map (Cell.shownText pool)).map Placeholder.count).sum
  | [], _, _, _, _, _, _, h => by rw [← Except.ok.inj h]; rfl
  | cell :: cells, found, found', types, plain, distinct, fresh, h => by
      obtain ⟨ps, hps, h⟩ := bind_eq_ok_iff.mp h
      rw [List.map_cons, List.nodup_cons] at distinct
      have length := length_cellPlaceholders (types cell List.mem_cons_self) (plain cell List.mem_cons_self) hps
      have types' := fun d hd => types d (List.mem_cons_of_mem cell hd)
      have plain' := fun d hd => plain d (List.mem_cons_of_mem cell hd)
      have fresh' := fun d hd => fresh d (List.mem_cons_of_mem cell hd)
      rw [List.map_cons, List.map_cons, List.sum_cons, ← length]
      split at h
      · rw [listedCount_gatherPlaceholders types' plain' distinct.2 fresh' h, List.length_nil, Nat.zero_add]
      · rw [Listing.put_of_not_mem _ (fresh cell List.mem_cons_self)] at h
        rw [listedCount_gatherPlaceholders types' plain' distinct.2 (fun d hd => ?_) h]
        · simp only [listedCount, List.map_append, List.sum_append, List.map_singleton, List.sum_singleton]
          exact Nat.add_assoc _ _ _
        · rw [Listing.names, List.map_append, List.mem_append, not_or]
          refine ⟨fresh' d hd, fun same => distinct.1 ?_⟩
          have same : d.attributeOr "r" "" = cell.attributeOr "r" "" := List.mem_singleton.mp same
          rw [← same]
          exact List.mem_map_of_mem hd

/-- Other cells than those with the type of the pool show no text. -/
theorem sum_count_filter (pool : Pool) (cells : List Element) :
    (((cells.filter fun c => c.attribute? "t" = some "s").map (Cell.shownText pool)).map Placeholder.count).sum =
      ((cells.map (Cell.shownText pool)).map Placeholder.count).sum := by
  induction cells with
  | nil => rfl
  | cons cell cells ih =>
      rw [List.map_cons, List.map_cons, List.sum_cons, ← ih, List.filter_cons]
      by_cases type : cell.attribute? "t" = some "s"
      · rw [if_pos (decide_eq_true type)]
        rfl
      · have unread : Cell.shownText pool cell = none := by
          rw [Cell.shownText, Cell.placeText, if_neg type]
          rfl
        rw [if_neg (mt of_decide_eq_true type), unread]
        exact (Nat.zero_add _).symm

/-- The placeholders listed for a sheet are those of the texts that its cells show. -/
theorem listedCount_sheetPlaceholders {pool : Pool} {sheet : Sheet} {found : Listing (List Placeholder)}
    (distinct : ((sheet.rows.flatMap cellsOf).map (·.attributeOr "r" "")).Nodup)
    (plain : ∀ cell ∈ sheet.rows.flatMap cellsOf, Cell.PlainPlace cell)
    (h : sheetPlaceholders pool sheet = .ok found) :
    listedCount found =
      (((sheet.rows.flatMap cellsOf).map (Cell.shownText pool)).map Placeholder.count).sum := by
  have sub := List.filter_sublist (p := fun c : Element => c.attribute? "t" = some "s")
    (l := sheet.rows.flatMap cellsOf)
  unfold sheetPlaceholders at h
  rw [← sum_count_filter, listedCount_gatherPlaceholders (fun cell hc => of_decide_eq_true (List.mem_filter.mp hc).2)
    (fun cell hc => plain cell (List.mem_filter.mp hc).1) (distinct.sublist (sub.map _)) (fun _ _ => List.not_mem_nil) h]
  exact Nat.zero_add _

/-- A substitution that goes through, in a sheet whose cells have references of their own and hold places in the pool
in plain digits, with values without an opening mark. The texts that its pass meets are those from before, but for
cells behind others with the same text: `Met` says which. It fills or leaves as many placeholders as were listed, less
one for each text that has changed by the time its cell is reached; none has when no two cells show the same
placeholder that a string takes the place of. -/
theorem placeholders_counted_once {w w' ready : Workbook} {key : SheetKey} {data : Bindings} {stats : Expand.Stats}
    {sheet : Sheet} {found : Listing (List Placeholder)} (hpool : w.pool.Built)
    (hopen : w.openSheet key = .ok (sheet, ready))
    (hplaces : ∀ row ∈ sheet.rows, ∀ cell ∈ cellsOf row, ∀ k, Cell.place? cell = some k → k < w.pool.size)
    (hmarks : data.Unmarked) (distinct : ((sheet.rows.flatMap cellsOf).map (·.attributeOr "r" "")).Nodup)
    (plain : ∀ cell ∈ sheet.rows.flatMap cellsOf, Cell.PlainPlace cell)
    (hlist : sheetPlaceholders w.pool sheet = .ok found) (hsub : w.substitute key data = (w', .ok stats)) :
    let texts := (sheet.rows.flatMap cellsOf).map (Cell.shownText w.pool)
    let reached := textsReached sheet w.document w.pool data
    Met data [] texts reached ∧ stats.substituted + stats.skipped + overtaken texts reached = listedCount found ∧
      ((∀ t s, Fills data t s → texts.count (some t) ≤ 1) →
        stats.substituted + stats.skipped = listedCount found) := by
  intro texts reached
  have sound := Pool.sound_of_built hpool
  obtain ⟨filled, sheet', by_⟩ := exists_filledBy hpool hopen hsub
  have met : Met data [] texts reached := met_textsReached hmarks.plain sound hplaces by_.run
  have counted : stats.substituted + stats.skipped = (reached.map Placeholder.count).sum := by
    rw [by_.stats]
    exact counted_of_run sound by_.run
  have total : stats.substituted + stats.skipped + overtaken texts reached = listedCount found := by
    rw [counted, met.count hmarks.plain, listedCount_sheetPlaceholders distinct plain hlist]
  refine ⟨met, total, fun single => ?_⟩
  have same : reached = texts := met.eq_of_single single
  rw [counted, same, listedCount_sheetPlaceholders distinct plain hlist]

/-- How many placeholders are listed can be computed. -/
theorem exists_listedCount (pool : Pool) (sheet : Sheet) (n : Nat)
    (h : (sheetPlaceholders pool sheet).toOption.any (fun found => listedCount found = n) = true) :
    ∃ found, sheetPlaceholders pool sheet = .ok found ∧ listedCount found = n := by
  obtain ⟨found, hfound, hn⟩ := (Option.any_eq_true _ _).mp h
  exact ⟨found, toOption_eq_some_iff.mp hfound, of_decide_eq_true hn⟩

/-- Three placeholders are listed for a cell with one and a cell with two, and all three are counted. -/
theorem placeholders_counted_once_small : ∃ w' stats found,
    (Small.openedBook (Small.pairSheet "0" "1") ["${x}", "a ${x} ${u}"]).substitute (.name "Data") Small.greeting =
        (w', .ok stats) ∧
      sheetPlaceholders (.ofTexts ["${x}", "a ${x} ${u}"]) (Small.pairSheet "0" "1") = .ok found ∧
      listedCount found = 3 ∧ stats.substituted + stats.skipped = 3 := by
  have goes : ((Small.openedBook (Small.pairSheet "0" "1") ["${x}", "a ${x} ${u}"]).substitute (.name "Data")
      Small.greeting).2.toBool = true := by decide +kernel
  obtain ⟨w', stats, hsub⟩ := Small.exists_substitute_openedBook goes
  obtain ⟨found, hlist, three⟩ := exists_listedCount (.ofTexts ["${x}", "a ${x} ${u}"])
    (Small.pairSheet "0" "1") 3 (by decide +kernel)
  have hopen := Small.openSheet_openedBook (Small.pairSheet "0" "1") ["${x}", "a ${x} ${u}"]
  obtain ⟨-, -, equal⟩ := placeholders_counted_once (.ofTexts _) hopen (Small.places_of_all (by decide +kernel))
    Small.unmarked_greeting (by decide +kernel) (Cell.plainPlace_of_all (by decide +kernel)) hlist hsub
  have apart : (((Small.pairSheet "0" "1").rows.flatMap cellsOf).map
      (Cell.shownText (.ofTexts ["${x}", "a ${x} ${u}"]))).Nodup := by decide +kernel
  exact ⟨w', stats, found, hsub, hlist, three, (equal fun t _ _ => List.nodup_iff_count.mp apart (some t)).trans three⟩

/-- Of two cells that show the same placeholder the second is not counted, as it shows the string by then; and a cell
that holds the place behind the last one of the pool shows the text that the first cell adds there, whose placeholder is
counted once more. -/
theorem placeholders_miscounted :
    Small.greeting.Unmarked ∧
    (∀ second ∈ ["0", "1"],
      (((Small.pairSheet "0" second).rows.flatMap cellsOf).map (·.attributeOr "r" "")).Nodup ∧
      ∀ cell ∈ (Small.pairSheet "0" second).rows.flatMap cellsOf, Cell.PlainPlace cell) ∧
    (∃ w' stats found,
      (Small.openedBook (Small.pairSheet "0" "0") ["${x}"]).substitute (.name "Data") Small.greeting = (w', .ok stats) ∧
        sheetPlaceholders (.ofTexts ["${x}"]) (Small.pairSheet "0" "0") = .ok found ∧
        listedCount found = 2 ∧ stats.substituted + stats.skipped = 1) ∧
    ∃ w' stats found,
      (Small.openedBook (Small.pairSheet "0" "1") ["a ${x} ${u}"]).substitute (.name "Data") Small.greeting =
          (w', .ok stats) ∧
        sheetPlaceholders (.ofTexts ["a ${x} ${u}"]) (Small.pairSheet "0" "1") = .ok found ∧
        listedCount found = 2 ∧ stats.substituted + stats.skipped = 3 := by
  have counts (second text : String) (n : Nat)
      (h : ((Small.openedBook (Small.pairSheet "0" second) [text]).substitute (.name "Data") Small.greeting).2.toOption.any
        (fun s => s.substituted + s.skipped = n) = true) :
      ∃ w' stats, (Small.openedBook (Small.pairSheet "0" second) [text]).substitute (.name "Data") Small.greeting =
        (w', .ok stats) ∧ stats.substituted + stats.skipped = n := by
    obtain ⟨stats, hstats, hn⟩ := (Option.any_eq_true _ _).mp h
    exact ⟨_, stats, Prod.ext rfl (toOption_eq_some_iff.mp hstats), of_decide_eq_true hn⟩
  obtain ⟨first, stats, hfirst, one⟩ := counts "0" "${x}" 1 (by decide +kernel)
  obtain ⟨last, stats', hlast, three⟩ := counts "1" "a ${x} ${u}" 3 (by decide +kernel)
  obtain ⟨found, hfound, two⟩ := exists_listedCount (.ofTexts ["${x}"]) (Small.pairSheet "0" "0") 2
    (by decide +kernel)
  obtain ⟨found', hfound', two'⟩ := exists_listedCount (.ofTexts ["a ${x} ${u}"])
    (Small.pairSheet "0" "1") 2 (by decide +kernel)
  refine ⟨Small.unmarked_greeting, ?_, ⟨first, stats, found, hfirst, hfound, two, one⟩, last, stats', found', hlast,
    hfound', two', three⟩
  rintro second hsecond
  obtain rfl | rfl := List.mem_pair.mp hsecond
  · exact ⟨by decide +kernel, Cell.plainPlace_of_all (by decide +kernel)⟩
  · exact ⟨by decide +kernel, Cell.plainPlace_of_all (by decide +kernel)⟩

end Workbook
end Gridfill
