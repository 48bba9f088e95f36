import Gridfill.Proofs.Markup.Editing
import Gridfill.Proofs.Outcome
import Gridfill.Proofs.Reference.Range
import Gridfill.Proofs.Sheet.Growth
import Gridfill.Sheet.Shift

/-!
# How merged ranges follow the rows

A merged range that begins below a row moves down with the rows inserted behind it, and one that begins on
the row gets a copy for each of them (`shiftMerges_spec`). When rows are inserted behind several rows, one
after the other, the copies made for one row are neither moved nor copied for a later one, so what becomes
of the ranges is said by their places at the start (`shifted_settled`).
-/

namespace Gridfill

open Markup (Element Node Scope)

/-! ### Ranges and their copies -/

/-- The extent of the range that an element refers to, if it reads. -/
def extent? (e : Element) : Option Extent :=
  (CellRange.parse (e.attributeOr "ref" "")).toOption.map (·.extent)

/-- The elements of the merged ranges of a sheet: those in its first list of them, which is the one that a pass
changes. -/
def mergeElements (root : Element) : List Element :=
  (root.child? Vocabulary.mergeCells).elim [] (·.childrenWith Vocabulary.mergeCell)

/-- The merged ranges of a sheet, in order. -/
def merges (root : Element) : List (Option Extent) := (mergeElements root).map extent?

/-- The copies of a range that begins on a row, one for each of the rows inserted behind it. -/
def Extent.copies (number : Int) (count : Nat) (e : Extent) : List (Option Extent) :=
  if e.top = number then (List.range count).map fun (i : Nat) => some (e.down ((i : Int) + 1)) else []

/-- A range after `count` rows were inserted behind a row. -/
def Extent.shift (number count : Int) (e : Extent) : Extent := if number < e.top then e.down count else e

/-- The merged ranges after `count` rows were inserted behind a row: each in its place, then the copies. -/
def shifted (number : Int) (count : Nat) (ms : List (Option Extent)) : List (Option Extent) :=
  ms.map (Option.map (Extent.shift number count)) ++
    ms.flatMap fun m => m.elim [] (Extent.copies number count)

theorem extent?_eq_of_meaning {a b : Element} (h : a.meaning = b.meaning) : extent? a = extent? b := by
  rw [extent?, Markup.attributeOr_eq_of_meaning h, extent?]

theorem extent?_of_parse {e : Element} {r : CellRange}
    (h : CellRange.parse (e.attributeOr "ref" "") = .ok r) : extent? e = some r.extent := by
  rw [extent?, h]
  rfl

theorem extent?_set_ref (e : Element) {r : CellRange} {s : String} (h : CellRange.parse s = .ok r) :
    extent? (e.set "ref" s) = some r.extent :=
  extent?_of_parse (by rw [Element.attributeOr_set, h])

/-! ### One shift -/

/-- A range that is moved down and written reads as the moved range. -/
theorem extent?_of_write {r : CellRange} (valid : r.Valid) {k : Int} (hk : 0 ≤ k) {s : String}
    (h : (r.down k).write = .ok s) (e : Element) :
    extent? (e.set "ref" s) = some (r.extent.down k) := by
  have hparse := CellRange.parse_of_write ⟨valid.start, valid.stop⟩ valid.stop_sheet
    (by have := valid.start.row_pos; omega) (by have := valid.stop.row_pos; omega) h
  rw [extent?_set_ref e hparse]
  rfl

/-- The parts of a range's shift: where it begins below the row, it is moved and written; its copies are
written. -/
theorem shiftMergeElement_cases {number count : Int} {e kept : Element} {copies : List Element}
    (h : Shift.shiftMergeElement number count e = .ok (kept, copies)) :
    ∃ r texts, CellRange.parse (e.attributeOr "ref" "") = .ok r ∧
      (number < r.start.row ∧ (∃ s, (r.down count).write = .ok s ∧ kept = e.set "ref" s) ∨
        ¬ number < r.start.row ∧ kept = e) ∧
      (Shift.shiftMerge number count r).2.mapM CellRange.write = .ok texts ∧
      copies = texts.map (e.copy.set "ref") := by
  obtain ⟨r, hr, h⟩ := bind_eq_ok_iff.mp h
  simp only at h
  split at h
  · next hlt =>
    obtain ⟨kept', hkept, h⟩ := bind_eq_ok_iff.mp h
    obtain ⟨texts, htexts, h⟩ := bind_eq_ok_iff.mp h
    obtain ⟨s, hs, rfl⟩ := map_eq_ok_iff.mp hkept
    rw [Shift.shiftMerge, if_pos hlt] at hs
    injection Except.ok.inj h with hk hc
    exact ⟨r, texts, hr, Or.inl ⟨hlt, s, hs, hk.symm⟩, htexts, hc.symm⟩
  · next hlt =>
    obtain ⟨kept', hkept, h⟩ := bind_eq_ok_iff.mp h
    obtain ⟨texts, htexts, h⟩ := bind_eq_ok_iff.mp h
    injection Except.ok.inj h with hk hc
    exact ⟨r, texts, hr, Or.inr ⟨hlt, hk.symm.trans (Except.ok.inj hkept).symm⟩, htexts, hc.symm⟩

/-- Copies of an element that are given the written forms of ranges read as these ranges. -/
theorem extents_of_written {r : CellRange} (valid : r.Valid) (e : Element) :
    ∀ {is : List Nat} {texts : List String},
      List.Forall₂ (fun c s => CellRange.write c = .ok s) (is.map fun (i : Nat) => r.down ((i : Int) + 1)) texts →
        (texts.map (e.set "ref")).map extent? = is.map fun (i : Nat) => some (r.extent.down ((i : Int) + 1))
  | [], _, h => by
      cases h
      rfl
  | i :: is, _, h => by
      cases h with
      | cons hs hrest =>
          simp only [List.map_cons]
          rw [extents_of_written valid e hrest, extent?_of_write valid (by omega) hs]

theorem shiftMergeElement_spec {number : Int} {count : Nat} {e kept : Element} {copies : List Element}
    (h : Shift.shiftMergeElement number count e = .ok (kept, copies)) :
    ∃ x, extent? e = some x ∧ extent? kept = some (x.shift number count) ∧
      copies.map extent? = x.copies number count ∧ kept.tag = e.tag ∧ ∀ c ∈ copies, c.tag = e.tag := by
  obtain ⟨r, texts, hr, hkept, htexts, rfl⟩ := shiftMergeElement_cases h
  have valid := CellRange.valid_of_parse hr
  refine ⟨r.extent, extent?_of_parse hr, ?_, ?_, ?_, ?_⟩
  · rcases hkept with ⟨hlt, s, hs, rfl⟩ | ⟨hlt, rfl⟩
    · have hshift : r.extent.shift number count = r.extent.down count := if_pos hlt
      rw [hshift, extent?_of_write valid (by omega) hs]
    · have hshift : r.extent.shift number count = r.extent := if_neg hlt
      rw [hshift, extent?_of_parse hr]
  · by_cases htop : r.start.row = number
    · have hcopies : r.extent.copies number count =
          (List.range count).map fun (i : Nat) => some (r.extent.down ((i : Int) + 1)) := if_pos htop
      have hmade : (Shift.shiftMerge number count r).2 =
          (List.range count).map fun (i : Nat) => r.down ((i : Int) + 1) := by
        rw [Shift.shiftMerge, if_neg (by omega), if_pos htop, Int.toNat_natCast]
      rw [hmade] at htexts
      rw [hcopies, extents_of_written valid _ (mapM_eq_ok_iff.mp htexts)]
    · have hcopies : r.extent.copies number count = [] := if_neg htop
      have hmade : (Shift.shiftMerge number count r).2 = [] := by
        rw [Shift.shiftMerge, if_neg htop]
        split
        · rfl
        · rfl
      rw [hmade] at htexts
      rw [hcopies, ← Except.ok.inj htexts]
      rfl
  · rcases hkept with ⟨-, s, -, rfl⟩ | ⟨-, rfl⟩
    · exact Element.tag_set _ _ _
    · rfl
  · intro c hc
    obtain ⟨s, -, rfl⟩ := List.mem_map.mp hc
    exact (Element.tag_set _ _ _).trans (Markup.tag_eq_of_meaning (Element.meaning_copy e))

/-! ### The list of merged ranges -/

/-- The merged ranges among nodes. -/
def mergesIn (ns : List Node) : List (Option Extent) :=
  ((ns.filterMap Node.element?).filter (·.tag = Vocabulary.mergeCell)).map extent?

theorem mergesIn_append (ns ms : List Node) : mergesIn (ns ++ ms) = mergesIn ns ++ mergesIn ms := by
  simp [mergesIn]

theorem mergesIn_cons_element (e : Element) (ns : List Node) :
    mergesIn (.element e :: ns) =
      if e.tag = Vocabulary.mergeCell then extent? e :: mergesIn ns else mergesIn ns := by
  by_cases h : e.tag = Vocabulary.mergeCell
  · simp [mergesIn, Node.element?, h]
  · simp [mergesIn, Node.element?, h]

theorem shiftMergeNodes_spec {number : Int} {count : Nat} : ∀ {ns ns' : List Node} {copies : List Element},
    Shift.shiftMergeNodes number count ns = .ok (ns', copies) →
      mergesIn ns' = (mergesIn ns).map (Option.map (Extent.shift number count)) ∧
      copies.map extent? = (mergesIn ns).flatMap (fun m => m.elim [] (Extent.copies number count)) ∧
      ∀ c ∈ copies, c.tag = Vocabulary.mergeCell
  | [], ns', copies, h => by
      injection Except.ok.inj h with h1 h2
      subst h1 h2
      exact ⟨rfl, rfl, fun c hc => by cases hc⟩
  | n :: ns, ns', copies, h => by
      have skipped (hn : mergesIn (n :: ns) = mergesIn ns) (hn' : ∀ ms, mergesIn (n :: ms) = mergesIn ms)
          (h : (Shift.shiftMergeNodes number count ns >>= fun r => pure (n :: r.1, r.2)) =
            .ok (ns', copies)) :
          mergesIn ns' = (mergesIn (n :: ns)).map (Option.map (Extent.shift number count)) ∧
            copies.map extent? = (mergesIn (n :: ns)).flatMap (fun m => m.elim [] (Extent.copies number count)) ∧
            ∀ c ∈ copies, c.tag = Vocabulary.mergeCell := by
        obtain ⟨⟨rest, more⟩, hrest, h⟩ := bind_eq_ok_iff.mp h
        injection Except.ok.inj h with h1 h2
        subst h1 h2
        rw [hn, hn']
        exact shiftMergeNodes_spec hrest
      unfold Shift.shiftMergeNodes at h
      simp only at h
      cases n with
      | element e =>
          simp only at h
          split at h
          · next htag =>
            obtain ⟨⟨n', own⟩, hn, h⟩ := bind_eq_ok_iff.mp h
            obtain ⟨⟨rest, more⟩, hrest, h⟩ := bind_eq_ok_iff.mp h
            obtain ⟨⟨kept, own'⟩, hkept, hn⟩ := map_eq_ok_iff.mp hn
            injection hn with h1 h2
            subst h1 h2
            injection Except.ok.inj h with h1 h2
            subst h1 h2
            obtain ⟨moves, makes, tags⟩ := shiftMergeNodes_spec hrest
            obtain ⟨x, hx, hkept', hown, tag, owntags⟩ := shiftMergeElement_spec hkept
            refine ⟨?_, ?_, ?_⟩
            · rw [mergesIn_cons_element, if_pos (tag.trans htag), mergesIn_cons_element, if_pos htag, moves,
                hkept', hx]
              rfl
            · rw [mergesIn_cons_element, if_pos htag, List.map_append, hown, makes, hx]
              rfl
            · intro c hc
              rcases List.mem_append.mp hc with hc | hc
              · exact (owntags c hc).trans htag
              · exact tags c hc
          · next htag =>
            have none (ms : List Node) : mergesIn (.element e :: ms) = mergesIn ms := by
              rw [mergesIn_cons_element, if_neg htag]
            exact skipped (none ns) none h
      | comment _ _ => exact skipped rfl (fun _ => rfl) h
      | instruction _ _ _ => exact skipped rfl (fun _ => rfl) h
      | entity _ _ => exact skipped rfl (fun _ => rfl) h

/-- Copies that are moved to their place are the merged ranges that they were. -/
theorem mergesIn_moveTo (scope : Scope) : ∀ {cs : List Element}, (∀ c ∈ cs, c.tag = Vocabulary.mergeCell) →
    mergesIn (cs.map fun e => Node.element (e.moveTo scope)) = cs.map extent?
  | [], _ => rfl
  | c :: cs, h => by
      have hm := Element.meaning_moveTo scope c
      rw [List.map_cons, mergesIn_cons_element,
        if_pos ((Markup.tag_eq_of_meaning hm).trans (h c List.mem_cons_self)),
        mergesIn_moveTo scope fun d hd => h d (List.mem_cons_of_mem c hd), extent?_eq_of_meaning hm]
      rfl

/-- The list says how many merged ranges it has. -/
def CountAgrees (list : Element) : Prop :=
  parseInteger (list.attributeOr "count" "") = .ok ((list.childrenWith Vocabulary.mergeCell).length : Int)

instance (list : Element) : Decidable (CountAgrees list) := inferInstanceAs (Decidable (_ = _))

theorem shiftMergeList_spec {scope : Scope} {number : Int} {count : Nat} {list list' : Element}
    (h : Shift.shiftMergeList scope number count list = .ok list') :
    list'.tag = list.tag ∧ CountAgrees list' ∧
      mergesIn list'.content = shifted number count (mergesIn list.content) := by
  obtain ⟨⟨content, copies⟩, hcontent, h⟩ := bind_eq_ok_iff.mp h
  obtain ⟨s, hs, h⟩ := bind_eq_ok_iff.mp h
  obtain ⟨moves, makes, tags⟩ := shiftMergeNodes_spec hcontent
  rw [← Except.ok.inj h]
  refine ⟨rfl, ?_, ?_⟩
  · rw [CountAgrees, Element.attributeOr_set]
    exact parseInteger_of_write hs
  · show mergesIn (content ++ copies.map fun (e : Element) => Node.element (e.moveTo (list.frame :: scope))) = _
    rw [mergesIn_append, moves, mergesIn_moveTo _ tags, makes]
    rfl

theorem merges_eq (root : Element) :
    merges root = (root.child? Vocabulary.mergeCells).elim [] fun list => mergesIn list.content := by
  unfold merges mergeElements
  cases root.child? Vocabulary.mergeCells with
  | none => rfl
  | some list => rfl

/-- The sheet's list of merged ranges, if it has one, says how many it has. -/
def MergeCountAgrees (root : Element) : Prop :=
  ∀ list, root.child? Vocabulary.mergeCells = some list → CountAgrees list

/-- The merged ranges of a sheet after rows were inserted behind a row. The other parts of the sheet stay. -/
theorem shiftMerges_spec {number : Int} {count : Nat} {root root' : Element}
    (h : Shift.shiftMerges number count root = .ok root') :
    merges root' = shifted number count (merges root) ∧ MergeCountAgrees root' ∧
      ∀ tag, tag ≠ Vocabulary.mergeCells → root'.childrenWith tag = root.childrenWith tag := by
  unfold Shift.shiftMerges at h
  cases hm : root.child? Vocabulary.mergeCells with
  | none =>
      rw [hm] at h
      obtain rfl := Except.ok.inj h
      refine ⟨?_, ?_, fun _ _ => rfl⟩
      · rw [merges_eq, hm]
        rfl
      · intro list hl
        rw [hm] at hl
        cases hl
  | some list =>
      rw [hm] at h
      obtain ⟨list', hlist, h⟩ := bind_eq_ok_iff.mp h
      obtain ⟨tag, agrees, hshifted⟩ := shiftMergeList_spec hlist
      rw [← Except.ok.inj h]
      have tag' : ∀ c : Element, c.tag = Vocabulary.mergeCells → list'.tag = Vocabulary.mergeCells :=
        fun _ _ => tag.trans (Element.tag_of_child? hm)
      have hc : (root.changeChild Vocabulary.mergeCells fun _ => list').child? Vocabulary.mergeCells =
          some list' := Element.child?_changeChild tag' hm
      refine ⟨?_, ?_, fun tag ht => Element.childrenWith_changeChild_ne root tag' ht⟩
      · rw [merges_eq, hc, merges_eq, hm]
        exact hshifted
      · intro l hl
        rw [hc] at hl
        rw [← Option.some.inj hl]
        exact agrees

/-! ### Merged ranges that read -/

/-- All merged ranges of a sheet read. -/
def MergesRead (root : Element) : Prop :=
  ∀ m ∈ root.descendants [Vocabulary.mergeCells, Vocabulary.mergeCell],
    ∃ r, CellRange.parse (m.attributeOr "ref" "") = .ok r

theorem isSome_extent?_iff {e : Element} :
    (extent? e).isSome = true ↔ ∃ r, CellRange.parse (e.attributeOr "ref" "") = .ok r := by
  unfold extent?
  cases CellRange.parse (e.attributeOr "ref" "") with
  | error f =>
      constructor
      · intro h
        cases h
      · rintro ⟨r, h⟩
        cases h
  | ok r => exact ⟨fun _ => ⟨r, rfl⟩, fun _ => rfl⟩

/-- All merged ranges of a sheet read when those of each of its lists do. -/
theorem mergesRead_iff {root : Element} :
    MergesRead root ↔
      ∀ list ∈ root.childrenWith Vocabulary.mergeCells, ∀ m ∈ mergesIn list.content, m.isSome = true := by
  have path : root.descendants [Vocabulary.mergeCells, Vocabulary.mergeCell] =
      (root.childrenWith Vocabulary.mergeCells).flatMap (·.childrenWith Vocabulary.mergeCell) := by
    simp only [Element.descendants, List.flatMap_singleton']
  unfold MergesRead
  rw [path]
  simp only [List.forall_mem_flatMap, ← isSome_extent?_iff]
  refine forall_congr' fun list => forall_congr' fun _ => ?_
  show _ ↔ ∀ m ∈ (list.childrenWith Vocabulary.mergeCell).map extent?, _
  rw [List.forall_mem_map]

/-- Whether the merged ranges of a sheet read depends on its lists of merged ranges only. -/
theorem MergesRead.of_childrenWith {root root' : Element}
    (h : root'.childrenWith Vocabulary.mergeCells = root.childrenWith Vocabulary.mergeCells)
    (hr : MergesRead root) : MergesRead root' := by
  rw [mergesRead_iff] at hr ⊢
  rwa [h]

theorem isSome_of_mem_shifted {number : Int} {count : Nat} {ms : List (Option Extent)}
    (h : ∀ m ∈ ms, m.isSome = true) : ∀ m ∈ shifted number count ms, m.isSome = true := by
  intro m hm
  rcases List.mem_append.mp hm with hm | hm
  · obtain ⟨o, ho, rfl⟩ := List.mem_map.mp hm
    rw [Option.isSome_map]
    exact h o ho
  · obtain ⟨o, ho, hm⟩ := List.mem_flatMap.mp hm
    cases o with
    | none => cases hm
    | some e =>
        have hm : m ∈ e.copies number count := hm
        unfold Extent.copies at hm
        split at hm
        · obtain ⟨i, -, rfl⟩ := List.mem_map.mp hm
          rfl
        · cases hm

/-- Merged ranges that read still do after rows were inserted behind a row. -/
theorem mergesRead_of_shiftMerges {number : Int} {count : Nat} {root root' : Element}
    (h : Shift.shiftMerges number count root = .ok root') (hr : MergesRead root) : MergesRead root' := by
  unfold Shift.shiftMerges at h
  cases hm : root.child? Vocabulary.mergeCells with
  | none =>
      rw [hm] at h
      rwa [← Except.ok.inj h]
  | some list =>
      rw [hm] at h
      obtain ⟨list', hlist, h⟩ := bind_eq_ok_iff.mp h
      obtain ⟨tag, -, hshifted⟩ := shiftMergeList_spec hlist
      have tag' : ∀ c : Element, c.tag = Vocabulary.mergeCells → list'.tag = Vocabulary.mergeCells :=
        fun _ _ => tag.trans (Element.tag_of_child? hm)
      rw [← Except.ok.inj h]
      rw [mergesRead_iff] at hr ⊢
      rw [Element.childrenWith_changeChild root tag']
      rw [Element.child?_eq_head?] at hm
      cases hc : root.childrenWith Vocabulary.mergeCells with
      | nil =>
          rw [hc] at hm
          cases hm
      | cons c cs =>
          rw [hc] at hm hr
          obtain rfl := Option.some.inj hm
          rw [List.forall_mem_cons] at hr ⊢
          refine ⟨?_, hr.2⟩
          rw [hshifted]
          exact isSome_of_mem_shifted hr.1

/-! ### Several shifts -/

/-- A range after rows were inserted behind several rows. -/
def Extent.settle (gs : List Growth) (e : Extent) : Extent := e.down (insertedAbove gs e.top)

/-- The copies of a range for the rows inserted behind one of the rows, each as many rows lower. -/
def Extent.replicas (gs : List Growth) (g : Growth) (e : Extent) : List (Option Extent) :=
  if e.top = g.number then
    (List.range g.count).map fun (i : Nat) => some ((e.settle gs).down ((i : Int) + 1))
  else []

/-- The merged ranges after rows were inserted behind several rows: each in its place, then the copies, row
after row. -/
def settled (gs : List Growth) (ms : List (Option Extent)) : List (Option Extent) :=
  ms.map (Option.map (Extent.settle gs)) ++
    gs.flatMap fun g => ms.flatMap fun m => m.elim [] (Extent.replicas gs g)

theorem Extent.down_down (e : Extent) (a b : Int) : (e.down a).down b = e.down (a + b) := by
  simp only [Extent.down, Int.add_assoc]

theorem Extent.settle_append (gs : List Growth) (g : Growth) (e : Extent) :
    e.settle (gs ++ [g]) = if g.number < e.top then (e.settle gs).down g.count else e.settle gs := by
  rw [settle, settle, insertedAbove_append, insertedAbove_singleton]
  split
  · rw [down_down, Int.natCast_add]
  · rw [Nat.add_zero]

section
variable {gs : List Growth} {g : Growth} (hg : ∀ x ∈ gs, x.number < g.number)
include hg

theorem shift_settle (e : Extent) :
    (e.settle gs).shift (g.number + insertedTotal gs) g.count = e.settle (gs ++ [g]) := by
  have lt : g.number + insertedTotal gs < (e.settle gs).top ↔ g.number < e.top := lt_moved_iff hg
  simp only [Extent.shift, lt, Extent.settle_append]

theorem copies_settle (e : Extent) :
    (e.settle gs).copies (g.number + insertedTotal gs) g.count = e.replicas (gs ++ [g]) g := by
  have eq : (e.settle gs).top = g.number + insertedTotal gs ↔ e.top = g.number := moved_eq_iff hg
  simp only [Extent.copies, Extent.replicas, eq]
  by_cases h : e.top = g.number
  · rw [if_pos h, if_pos h, Extent.settle_append, if_neg (by omega)]
  · rw [if_neg h, if_neg h]

/-- The copies made for an earlier row begin above the next row that grows. -/
theorem replica_above {x : Growth} (hx : x ∈ gs) {e : Extent} {m : Option Extent} (hm : m ∈ e.replicas gs x) :
    ∃ c, m = some c ∧ c.top < g.number + insertedTotal gs := by
  unfold Extent.replicas at hm
  split at hm
  · next htop =>
    obtain ⟨i, hi, rfl⟩ := List.mem_map.mp hm
    have hi' := List.mem_range.mp hi
    have hle := insertedAbove_add_count_le hx
    have hlt := hg x hx
    refine ⟨_, rfl, ?_⟩
    show e.top + insertedAbove gs e.top + ((i : Int) + 1) < g.number + insertedTotal gs
    rw [htop]
    omega
  · cases hm

/-- The copies made for an earlier row stay, and are not copied. -/
theorem shifted_replica {x : Growth} (hx : x ∈ gs) {e : Extent} {m : Option Extent}
    (hm : m ∈ e.replicas gs x) :
    m.map (Extent.shift (g.number + insertedTotal gs) g.count) = m ∧
      m.elim [] (Extent.copies (g.number + insertedTotal gs) g.count) = [] := by
  obtain ⟨c, rfl, above⟩ := replica_above hg hx hm
  constructor
  · rw [Option.map_some, Extent.shift, if_neg (by omega)]
  · rw [Option.elim_some, Extent.copies, if_neg (by omega)]

theorem replicas_append {x : Growth} (hx : x ∈ gs) (e : Extent) :
    e.replicas (gs ++ [g]) x = e.replicas gs x := by
  unfold Extent.replicas
  split
  · next htop =>
    have hlt := hg x hx
    rw [Extent.settle_append, if_neg (by omega)]
  · rfl

/-- When the next row grows, the merged ranges are settled for that row as well. -/
theorem shifted_settled (ms : List (Option Extent)) :
    shifted (g.number + insertedTotal gs) g.count (settled gs ms) = settled (gs ++ [g]) ms := by
  have old : ∀ m ∈ gs.flatMap fun x => ms.flatMap fun m => m.elim [] (Extent.replicas gs x),
      m.map (Extent.shift (g.number + insertedTotal gs) g.count) = m ∧
        m.elim [] (Extent.copies (g.number + insertedTotal gs) g.count) = [] := by
    intro m hm
    obtain ⟨x, hx, hm⟩ := List.mem_flatMap.mp hm
    obtain ⟨o, -, hm⟩ := List.mem_flatMap.mp hm
    cases o with
    | none => cases hm
    | some e => exact shifted_replica hg hx hm
  have kept : (gs.flatMap fun x => ms.flatMap fun m => m.elim [] (Extent.replicas gs x)) =
      gs.flatMap fun x => ms.flatMap fun m => m.elim [] (Extent.replicas (gs ++ [g]) x) := by
    refine List.flatMap_congr fun x hx => List.flatMap_congr fun m _ => ?_
    cases m with
    | none => rfl
    | some e => exact (replicas_append hg hx e).symm
  have moves : (ms.map (Option.map (Extent.settle gs))).map
      (Option.map (Extent.shift (g.number + insertedTotal gs) g.count)) =
        ms.map (Option.map (Extent.settle (gs ++ [g]))) := by
    rw [List.map_map]
    refine List.map_congr_left fun m _ => ?_
    cases m with
    | none => rfl
    | some e => exact congrArg some (shift_settle hg e)
  have makes : (ms.map (Option.map (Extent.settle gs))).flatMap
      (fun m => m.elim [] (Extent.copies (g.number + insertedTotal gs) g.count)) =
        ms.flatMap fun m => m.elim [] (Extent.replicas (gs ++ [g]) g) := by
    rw [List.flatMap_map]
    refine List.flatMap_congr fun m _ => ?_
    cases m with
    | none => rfl
    | some e => exact copies_settle hg e
  have none : (gs.flatMap fun x => ms.flatMap fun m => m.elim [] (Extent.replicas gs x)).flatMap
      (fun m => m.elim [] (Extent.copies (g.number + insertedTotal gs) g.count)) = [] :=
    List.flatMap_eq_nil_iff.mpr fun m hm => (old m hm).2
  rw [shifted, settled, List.map_append, List.flatMap_append, moves, makes, none,
    List.map_congr_left (g := id) (fun m hm => (old m hm).1), List.map_id, kept, settled,
    List.flatMap_append, List.flatMap_singleton, List.append_nil, List.append_assoc]

end

end Gridfill
