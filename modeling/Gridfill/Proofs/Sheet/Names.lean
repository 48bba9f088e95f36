import Gridfill.Proofs.Reference.Target
import Gridfill.Proofs.Sheet.Insertions

/-!
# Defined names follow the rows

The text of a defined name is read as a reference, and its sheet compared with the sheet at hand. One shift moves
the reference when it begins below the row and leaves a text that reads as the moved reference (`follows_shiftName`),
so the shifts of a pass add up, and each name ends where the rows inserted above its first row put it
(`names_follow_rows`). A text with a comma is not read at all, even when the comma belongs to the name of the sheet.
-/

namespace Gridfill

open Markup (Element)

/-! ### The sheet in front of a reference -/

/-- The text stands between two quotes, or is a single quote. -/
def Delimited (s : String) : Prop := s.toList.head? = some '\'' ∧ s.toList.getLast? = some '\''

instance (s : String) : Decidable (Delimited s) := inferInstanceAs (Decidable (_ ∧ _))

/-- The name of a sheet between quotes, its own quotes doubled. -/
def quotedSheet (s : String) : String := String.ofList ('\'' :: Text.double '\'' s.toList ++ ['\''])

/-- The ways to write the name of a sheet in front of a reference. -/
inductive SpellsSheet (s : String) : String → Prop
  | bare (named : s ≠ "") (undelimited : ¬ Delimited s) : SpellsSheet s s
  | quoted : SpellsSheet s (quotedSheet s)

theorem meansSheet_quotedSheet (s name : String) :
    Shift.meansSheet (some (quotedSheet s)) name = decide (s = name) := by
  unfold Shift.meansSheet quotedSheet
  rw [Option.map_some, String.toList_ofList, List.cons_append]
  have last : ('\'' :: (Text.double '\'' s.toList ++ ['\''])).getLast? = some '\'' := by
    rw [← List.cons_append, List.getLast?_concat]
  simp only [last, decide_true, Bool.and_self, if_true]
  rw [List.dropLast_concat, Text.undouble_double, String.ofList_toList]

theorem meansSheet_bare {s : String} (named : s ≠ "") (undelimited : ¬ Delimited s) (name : String) :
    Shift.meansSheet (some s) name = decide (s = name) := by
  unfold Shift.meansSheet
  unfold Delimited at undelimited
  rw [Option.map_some]
  cases hl : s.toList with
  | nil => exact absurd (String.toList_injective hl) named
  | cons c cs =>
      rw [hl, List.head?_cons] at undelimited
      have notQuoted : ¬ ((decide (c = '\'') && decide ((c :: cs).getLast? = some '\'')) = true) := by
        rw [Bool.and_eq_true, decide_eq_true_eq, decide_eq_true_eq]
        rintro ⟨rfl, last⟩
        exact undelimited ⟨rfl, last⟩
      simp only
      rw [if_neg notQuoted, ← hl, String.ofList_toList]

/-- What is written in front of a reference is compared by the name of the sheet that it spells. -/
theorem SpellsSheet.meansSheet {s q : String} (h : SpellsSheet s q) (name : String) :
    Shift.meansSheet (some q) name = decide (s = name) := by
  cases h with
  | bare named undelimited => exact meansSheet_bare named undelimited name
  | quoted => exact meansSheet_quotedSheet s name

/-! ### The reference of a defined name -/

/-- The text of a defined name, without blanks at its ends. -/
def nameText (e : Element) : String := String.ofList (Text.strip (e.text.getD "").toList)

/-- The defined names of a workbook. -/
def definedNames (document : Element) : List Element :=
  document.descendants [Vocabulary.definedNames, Vocabulary.definedName]

/-- The reference by which a text follows the rows of the sheet of the given name. -/
def followed (sheet text : String) : Option Target :=
  if text.toList.contains ',' then none else (Target.read text).filter fun t => Shift.meansSheet t.sheet sheet

/-- The defined name with its reference moved down, left as it is for no rows. -/
def moveName (e : Element) (t : Target) (rows : Nat) : Element :=
  if rows = 0 then e else e.setText (t.down rows).text

/-- The defined name is where its reference, moved down by a number of rows, is written, and is read so. -/
structure MovedTo (sheet : String) (e : Element) (t : Target) (rows : Nat) (x : Element) : Prop where
  eq : x = moveName e t rows
  reads : ∃ t', followed sheet (nameText x) = some t' ∧ t'.row = t.row + rows ∧
    ∀ k, (t'.down k).text = (t.down (rows + k)).text

/-- The defined name after rows were inserted, `above a` of them above each row `a` of the sheet. -/
structure NameFollows (sheet : String) (above : Int → Nat) (e x : Element) : Prop where
  stays : followed sheet (nameText e) = none → x = e
  moves : ∀ t, followed sheet (nameText e) = some t → MovedTo sheet e t (above t.row) x

theorem strip_nameText (e : Element) : Text.strip (nameText e).toList = (nameText e).toList := by
  unfold nameText
  rw [String.toList_ofList]
  exact Text.trim_trim _

theorem nameText_setText {e : Element} {s : String} (h : Text.strip s.toList = s.toList) :
    nameText (e.setText s) = s := by
  show String.ofList (Text.strip s.toList) = s
  rw [h, String.ofList_toList]

theorem MovedTo.refl {sheet : String} {e : Element} {t : Target} (h : followed sheet (nameText e) = some t) :
    MovedTo sheet e t 0 e := by
  refine ⟨rfl, t, h, (Int.add_zero _).symm, ?_⟩
  intro k
  rw [Int.natCast_zero, Int.zero_add]

theorem MovedTo.trans {sheet : String} {e x y : Element} {t t' : Target} {m n : Nat} (h : MovedTo sheet e t m x)
    (ht : followed sheet (nameText x) = some t') (h' : MovedTo sheet x t' n y) :
    t'.row = t.row + m ∧ MovedTo sheet e t (m + n) y := by
  obtain ⟨u, hu, hrow, htext⟩ := h.reads
  obtain rfl := Option.some.inj (ht.symm.trans hu)
  obtain ⟨v, hv, hrow', htext'⟩ := h'.reads
  refine ⟨hrow, ?_, v, hv, ?_, ?_⟩
  · rw [h'.eq, h.eq]
    unfold moveName
    by_cases hn : n = 0
    · rw [if_pos hn, hn, Nat.add_zero]
    · have both : m + n ≠ 0 := by omega
      rw [if_neg hn, if_neg both, htext, Int.natCast_add]
      split <;> rfl
  · omega
  · intro k
    rw [htext', htext, Int.natCast_add, Int.add_assoc]

theorem NameFollows.refl {sheet : String} {above : Int → Nat} (h : ∀ a, above a = 0) (e : Element) :
    NameFollows sheet above e e := by
  refine ⟨fun _ => rfl, ?_⟩
  intro t ht
  rw [h]
  exact .refl ht

/-- Rows inserted one time after the other add up. -/
theorem NameFollows.trans {sheet : String} {f g h : Int → Nat} (both : ∀ a, f a + g (a + f a) = h a)
    {e x y : Element} (first : NameFollows sheet f e x) (second : NameFollows sheet g x y) :
    NameFollows sheet h e y := by
  constructor
  · intro unfollowed
    obtain rfl := first.stays unfollowed
    exact second.stays unfollowed
  · intro t ht
    have moved := first.moves t ht
    obtain ⟨u, hu, -⟩ := moved.reads
    obtain ⟨hrow, all⟩ := moved.trans hu (second.moves u hu)
    rw [← both, ← hrow]
    exact all

/-! ### One shift -/

theorem followed_eq_some {sheet text : String} {t : Target} (h : followed sheet text = some t) :
    ',' ∉ text.toList ∧ Target.read text = some t ∧ Shift.meansSheet t.sheet sheet = true := by
  unfold followed at h
  split at h
  · cases h
  · next comma =>
    obtain ⟨read, means⟩ := Option.filter_eq_some_iff.mp h
    exact ⟨fun hm => comma (List.contains_iff_mem.mpr hm), read, means⟩

theorem followed_of_read {sheet text : String} {t : Target} (comma : ',' ∉ text.toList)
    (h : Target.read text = some t) :
    followed sheet text = if Shift.meansSheet t.sheet sheet then some t else none := by
  unfold followed
  rw [if_neg fun hm => comma (List.contains_iff_mem.mp hm), h]
  rfl

/-- A text without a comma that reads as a reference is written again when the reference moves. -/
theorem shiftReference_of_read {sheet text : String} {row count : Int} {moved : Option String} {t : Target}
    (comma : ',' ∉ text.toList) (read : Target.read text = some t)
    (h : Shift.shiftReference sheet row count text = .ok moved) :
    (if Shift.meansSheet t.sheet sheet && decide (row < t.row) then (t.down count).write >>= fun s => pure (some s)
      else pure none) = Except.ok moved := by
  have named : text ≠ "" := by
    rintro rfl
    cases read
  have proper : (text = "" || text.toList.contains ',') = false := by
    rw [Bool.or_eq_false_iff, decide_eq_false_iff_not, List.contains_eq_mem, decide_eq_false_iff_not]
    exact ⟨named, comma⟩
  unfold Shift.shiftReference at h
  rw [proper, if_neg Bool.false_ne_true] at h
  obtain ⟨isRef, hisRef, h⟩ := bind_eq_ok_iff.mp h
  rw [Target.isSome_read hisRef, read, Option.isSome_some, Bool.not_true, if_neg Bool.false_ne_true] at h
  rcases Target.cases_of_read read with ⟨c, rfl, colon, hc⟩ | ⟨r, rfl, colon, hr⟩
  · rw [colon, if_neg Bool.false_ne_true] at h
    obtain ⟨c', hc', h⟩ := bind_eq_ok_iff.mp h
    obtain rfl := Except.ok.inj (hc.symm.trans hc')
    exact h
  · rw [colon, if_pos rfl] at h
    obtain ⟨r', hr', h⟩ := bind_eq_ok_iff.mp h
    obtain rfl := Except.ok.inj (hr.symm.trans hr')
    exact h

/-- A text that follows the sheet is written again when its reference begins below the row. -/
theorem shiftReference_of_followed {sheet text : String} {row count : Int} {moved : Option String} {t : Target}
    (ht : followed sheet text = some t) (h : Shift.shiftReference sheet row count text = .ok moved) :
    if row < t.row then ∃ s, (t.down count).write = .ok s ∧ moved = some s else moved = none := by
  obtain ⟨comma, read, means⟩ := followed_eq_some ht
  have h := shiftReference_of_read comma read h
  rw [means, Bool.true_and] at h
  by_cases below : row < t.row
  · rw [decide_eq_true below, if_pos rfl] at h
    obtain ⟨s, hs, h⟩ := bind_eq_ok_iff.mp h
    rw [if_pos below]
    exact ⟨s, hs, (Except.ok.inj h).symm⟩
  · rw [decide_eq_false below, if_neg Bool.false_ne_true] at h
    rw [if_neg below]
    exact (Except.ok.inj h).symm

/-- A text that does not follow the sheet stays. -/
theorem shiftReference_of_not_followed {sheet text : String} {row count : Int} {moved : Option String}
    (ht : followed sheet text = none) (h : Shift.shiftReference sheet row count text = .ok moved) : moved = none := by
  by_cases comma : ',' ∈ text.toList
  · unfold Shift.shiftReference at h
    rw [List.contains_iff_mem.mpr comma, Bool.or_true, if_pos rfl] at h
    exact (Except.ok.inj h).symm
  · cases read : Target.read text with
    | none =>
        unfold Shift.shiftReference at h
        split at h
        · exact (Except.ok.inj h).symm
        · obtain ⟨isRef, hisRef, h⟩ := bind_eq_ok_iff.mp h
          rw [Target.isSome_read hisRef, read, Option.isSome_none, Bool.not_false, if_pos rfl] at h
          exact (Except.ok.inj h).symm
    | some t =>
        have h := shiftReference_of_read comma read h
        rw [followed_of_read comma read] at ht
        split at ht
        · cases ht
        · next means =>
          rw [Bool.eq_false_iff.mpr means, Bool.false_and, if_neg Bool.false_ne_true] at h
          exact (Except.ok.inj h).symm

theorem meansSheet_filter (sheet : Option String) (name : String) :
    Shift.meansSheet (sheet.filter (· ≠ "")) name = Shift.meansSheet sheet name := by
  cases sheet with
  | none => rfl
  | some q =>
      by_cases hq : q = ""
      · subst hq
        rfl
      · rw [Option.filter_some, if_pos (decide_eq_true hq)]

/-- A reference that was moved and written is followed as before. -/
theorem followed_text_down {sheet text s : String} {t : Target} {rows : Nat} (hs : Text.strip text.toList = text.toList)
    (h : followed sheet text = some t) (hw : (t.down rows).write = .ok s) :
    s = (t.down rows).text ∧ Text.strip s.toList = s.toList ∧ followed sheet s = some (t.down rows).normal := by
  obtain ⟨comma, read, means⟩ := followed_eq_some h
  obtain ⟨valid, rfl⟩ := (Target.valid_of_read hs read).down (Int.natCast_nonneg rows) hw
  have comma' : ',' ∉ (t.down rows).text.toList := by
    intro hm
    rcases Target.mem_text valid hm with ⟨q, hq, hc⟩ | hc | hc
    · rw [Target.sheet_down] at hq
      obtain ⟨rest, e⟩ := Target.exists_of_sheet hs read hq
      apply comma
      rw [e]
      exact List.mem_append_left _ hc
    · cases hc
    · rcases valid.isLocal_of_mem_body hc with hl | hc
      · exact hl.ne (CellRef.not_isLocal_of_toNat (by decide) (by decide) (by decide)) rfl
      · cases hc
  refine ⟨rfl, Target.strip_text valid, ?_⟩
  rw [followed_of_read comma' (Target.read_text valid), if_pos]
  cases t with
  | cell c => exact means
  | range r => exact (meansSheet_filter r.start.sheet sheet).trans means

/-- What shifting a defined name comes to: its text is shifted and put in its place. -/
theorem shiftName_cases {sheet : String} {row count : Int} {e x : Element}
    (h : Shift.shiftName sheet row count e = .ok x) :
    ∃ moved, Shift.shiftReference sheet row count (nameText e) = .ok moved ∧ x = moved.elim e e.setText := by
  unfold Shift.shiftName at h
  obtain ⟨moved, hmoved, h⟩ := bind_eq_ok_iff.mp h
  refine ⟨moved, hmoved, ?_⟩
  cases moved with
  | none => exact (Except.ok.inj h).symm
  | some s => exact (Except.ok.inj h).symm

theorem follows_shiftName {sheet : String} {row : Int} {count : Nat} (hcount : 0 < count) {e x : Element}
    (h : Shift.shiftName sheet row count e = .ok x) :
    NameFollows sheet (fun a => if row < a then count else 0) e x := by
  obtain ⟨moved, hmoved, rfl⟩ := shiftName_cases h
  constructor
  · intro unfollowed
    rw [shiftReference_of_not_followed unfollowed hmoved]
    rfl
  · intro t ht
    have written := shiftReference_of_followed ht hmoved
    by_cases below : row < t.row
    · rw [if_pos below] at written ⊢
      obtain ⟨s, hs, rfl⟩ := written
      obtain ⟨rfl, stripped, again⟩ := followed_text_down (strip_nameText e) ht hs
      rw [Option.elim_some]
      refine ⟨?_, (t.down count).normal, ?_, ?_, ?_⟩
      · unfold moveName
        rw [if_neg (Nat.pos_iff_ne_zero.mp hcount)]
      · rw [nameText_setText stripped]
        exact again
      · rw [Target.row_normal, Target.row_down]
      · intro k
        rw [Target.text_down_normal, Target.down_down]
    · rw [if_neg below] at written ⊢
      rw [written]
      exact .refl ht

/-! ### The defined names of the workbook -/

/-- What became of the children when those of a meaning were changed: each of these was, and the others stay. -/
theorem forall₂_children_changeChildren {tag : Markup.Tag} {f : Element → Except Failure Element} {e x : Element}
    (h : Shift.changeChildren tag f e = .ok x) :
    List.Forall₂ (fun c c' => c.tag = tag ∧ f c = .ok c' ∨ c.tag ≠ tag ∧ c' = c) e.children x.children := by
  obtain ⟨content, hcontent, hx⟩ := bind_eq_ok_iff.mp h
  obtain rfl : ({ e with content } : Element) = x := Except.ok.inj hx
  have nodes := mapM_eq_ok_iff.mp hcontent
  clear h hx hcontent
  unfold Element.children
  generalize e.content = ns at nodes
  show List.Forall₂ _ _ (content.filterMap Markup.Node.element?)
  induction nodes with
  | nil => exact .nil
  | @cons n n' _ _ first _ ih =>
      cases n with
      | element c =>
          replace first : (if c.tag = tag then (f c).map Markup.Node.element else .ok (.element c)) = Except.ok n' :=
            first
          split at first
          · next own =>
            obtain ⟨c', hc', rfl⟩ := map_eq_ok_iff.mp first
            exact .cons (Or.inl ⟨own, hc'⟩) ih
          · next other =>
            obtain rfl := Except.ok.inj first
            exact .cons (Or.inr ⟨other, rfl⟩) ih
      | comment _ _ =>
          obtain rfl := Except.ok.inj first
          exact ih
      | instruction _ _ _ =>
          obtain rfl := Except.ok.inj first
          exact ih
      | entity _ _ =>
          obtain rfl := Except.ok.inj first
          exact ih

section
variable {tag : Markup.Tag} {f : Element → Except Failure Element} {e x : Element}
  (keeps : ∀ c c', f c = .ok c' → c'.tag = c.tag) (h : Shift.changeChildren tag f e = .ok x)
include keeps h

/-- What became of the children of a meaning when each of them was changed. -/
theorem forall₂_changeChildren :
    List.Forall₂ (fun c c' => f c = .ok c') (e.childrenWith tag) (x.childrenWith tag) := by
  have children := forall₂_children_changeChildren h
  unfold Element.childrenWith
  generalize e.children = cs, x.children = cs' at children
  induction children with
  | nil => exact .nil
  | @cons c c' _ _ first _ ih =>
      rcases first with ⟨own, hc'⟩ | ⟨other, rfl⟩
      · have own' : c'.tag = tag := (keeps c c' hc').trans own
        simp only [List.filter_cons, own, own', decide_true, if_true]
        exact .cons hc' ih
      · simp only [List.filter_cons, other, decide_false, Bool.false_eq_true, if_false]
        exact ih

/-- Changing the children of a tag leaves those of other tags. -/
theorem childrenWith_changeChildren_ne {other : Markup.Tag} (hne : other ≠ tag) :
    x.childrenWith other = e.childrenWith other := by
  have children := forall₂_children_changeChildren h
  unfold Element.childrenWith
  generalize e.children = cs, x.children = cs' at children
  induction children with
  | nil => rfl
  | @cons c c' _ _ first _ ih =>
      rcases first with ⟨own, hc'⟩ | ⟨-, rfl⟩
      · have before : c.tag ≠ other := own ▸ hne.symm
        have after : c'.tag ≠ other := keeps c c' hc' ▸ before
        simp only [List.filter_cons, before, after, decide_false, Bool.false_eq_true, if_false]
        exact ih
      · rw [List.filter_cons, List.filter_cons, ih]

end

theorem tag_of_shiftName {sheet : String} {row count : Int} {e x : Element}
    (h : Shift.shiftName sheet row count e = .ok x) : x.tag = e.tag := by
  obtain ⟨moved, -, rfl⟩ := shiftName_cases h
  cases moved <;> rfl

theorem tag_of_changeChildren {tag : Markup.Tag} {f : Element → Except Failure Element} {e x : Element}
    (h : Shift.changeChildren tag f e = .ok x) : x.tag = e.tag := by
  obtain ⟨content, -, h⟩ := bind_eq_ok_iff.mp h
  rw [← Except.ok.inj h]
  rfl

theorem names_of_shiftNames {sheet : String} {number : Int} {count : Nat} (hcount : 0 < count)
    {document document' : Element} (h : Shift.shiftNames sheet number count document = .ok document') :
    List.Forall₂ (NameFollows sheet fun row => if number < row then count else 0)
      (definedNames document) (definedNames document') := by
  apply List.rel_flatMap (forall₂_changeChildren (fun _ _ h => tag_of_changeChildren h) h)
  intro list list' hlist
  apply List.rel_flatMap (forall₂_changeChildren (fun _ _ h => tag_of_shiftName h) hlist)
  intro e x hname
  exact .cons (follows_shiftName hcount hname) .nil

/-- The defined names after one shift. -/
theorem names_of_pushDown {sheet : String} {number : Int} {count : Nat} {a b : Shift.Anchored}
    (h : Shift.pushDown sheet number count a = .ok b) :
    List.Forall₂ (NameFollows sheet fun row => if number < row then count else 0)
      (definedNames a.workbook) (definedNames b.workbook) := by
  unfold Shift.pushDown at h
  split at h
  · next nothing =>
    obtain rfl : count = 0 := by omega
    rw [← Except.ok.inj h]
    apply List.forall₂_same.mpr
    intro e _
    exact .refl (fun _ => ite_self 0) e
  · next inserted =>
    obtain ⟨_, -, h⟩ := bind_eq_ok_iff.mp h
    obtain ⟨_, -, h⟩ := bind_eq_ok_iff.mp h
    obtain ⟨workbook, hworkbook, h⟩ := bind_eq_ok_iff.mp h
    rw [← Except.ok.inj h]
    exact names_of_shiftNames (by omega) hworkbook

namespace Expand

/-- The defined names after a pass over a sheet whose rows are in order, with `gs` the rows and how many rows the pass
put behind each. -/
theorem names_of_run {sheet : Sheet} {workbook : Element} {pool : Pool} {data : Bindings} {filled : Filled}
    {numbers : List Int} (hp : pool.Sound) (hnumbers : sheet.rows.mapM ownNumber = .ok numbers)
    (hincreasing : numbers.Pairwise (· < ·)) (hrun : run sheet workbook pool data = .ok filled) :
    List.Forall₂ (NameFollows sheet.name (insertedAbove (growths numbers (blocks sheet workbook pool data))))
      (definedNames workbook) (definedNames filled.workbook) := by
  apply follow_of_run
    (P := fun gs names => List.Forall₂ (NameFollows sheet.name (insertedAbove gs)) (definedNames workbook) names)
    (R := fun g => List.Forall₂ (NameFollows sheet.name fun row => if g.number < row then g.count else 0))
    (fun _ document => definedNames document) hp hnumbers hincreasing
  · intro number count a b h
    exact names_of_pushDown h
  · intro _ _ _ _
    rfl
  · intro gs g names names' above first second
    refine forall₂_comp ?_ first second
    intro e x y
    apply NameFollows.trans
    intro a
    rw [insertedAbove_append, insertedAbove_singleton]
    congr 1
    have same := lt_moved_iff above (a := a)
    unfold moved at same
    simp only [same]
  · exact hrun
  · apply List.forall₂_same.mpr
    intro e _
    exact .refl (fun _ => rfl) e

end Expand

/-! ### Which names move -/

/-- A reference as it stands in a defined name: to valid cells, with the name of a sheet in front of it or without. -/
structure Target.Plain (t : Target) : Prop where
  valid : t.Valid
  named : t.sheet ≠ some ""

/-- A defined name whose text is a plain reference reads as that reference. -/
theorem read_nameText {e : Element} {t : Target} (plain : t.Plain) (h : e.text = some t.text) :
    Target.read (nameText e) = some t := by
  have stripped : nameText e = t.text := by
    unfold nameText
    rw [h, Option.getD_some, Target.strip_text plain.valid, String.ofList_toList]
  rw [stripped, Target.read_text plain.valid, Target.normal_eq_self plain.named]

/-- What becomes of a defined name when rows are inserted into a sheet, `above a` of them above each row `a`. -/
structure NamePlaced (sheet : String) (above : Int → Nat) (e x : Element) : Prop where
  /-- A reference with no sheet or the sheet at hand in front of it moves with its first row. -/
  own : ∀ t, Target.read (nameText e) = some t → ',' ∉ (nameText e).toList →
    (∀ q ∈ t.sheet, SpellsSheet sheet q) → x = moveName e t (above t.row)
  /-- A reference with another sheet in front of it stays. -/
  other : ∀ t q s, Target.read (nameText e) = some t → t.sheet = some q → SpellsSheet s q → s ≠ sheet → x = e
  /-- What is not a reference stays. -/
  unread : Target.read (nameText e) = none → x = e
  /-- So does every text with a comma, be it in the name of the sheet. -/
  comma : ',' ∈ (nameText e).toList → x = e
  /-- Nothing else becomes of a defined name. -/
  kept : x = e ∨ ∃ t, Target.read (nameText e) = some t ∧ x = moveName e t (above t.row)

theorem NameFollows.placed {sheet : String} {above : Int → Nat} {e x : Element} (h : NameFollows sheet above e x) :
    NamePlaced sheet above e x := by
  have uncounted (hm : ',' ∈ (nameText e).toList) : followed sheet (nameText e) = none := by
    unfold followed
    rw [if_pos (List.contains_iff_mem.mpr hm)]
  refine ⟨?_, ?_, ?_, fun hm => h.stays (uncounted hm), ?_⟩
  · intro t read comma spelled
    apply (h.moves t _).eq
    rw [followed_of_read comma read, if_pos]
    cases hq : t.sheet with
    | none => rfl
    | some q => exact ((spelled q hq).meansSheet sheet).trans (decide_eq_true rfl)
  · intro t q s read hq spelled ne
    by_cases comma : ',' ∈ (nameText e).toList
    · exact h.stays (uncounted comma)
    · apply h.stays
      rw [followed_of_read comma read, hq, spelled.meansSheet, decide_eq_false ne, if_neg Bool.false_ne_true]
  · intro unread
    apply h.stays
    unfold followed
    rw [unread]
    split <;> rfl
  · cases ht : followed sheet (nameText e) with
    | none => exact .inl (h.stays ht)
    | some t => exact .inr ⟨t, (followed_eq_some ht).2.1, (h.moves t ht).eq⟩

namespace Expand

/-- Over a whole pass on a sheet whose rows carry increasing numbers, with `gs` the rows and how many rows the pass put
behind each: a defined name that reads as a reference, without a comma, with no sheet in front of it or the sheet at
hand, bare or between quotes, is the same reference with every row moved down by the rows inserted above its first
row; every other defined name is as it was. The text of a plain reference reads as that reference. -/
theorem names_follow_rows {sheet : Sheet} {workbook : Element} {pool : Pool} {data : Bindings} {filled : Filled}
    {numbers : List Int} (hpool : pool.Built) (hnumbers : sheet.rows.mapM ownNumber = .ok numbers)
    (hincreasing : numbers.Pairwise (· < ·)) (hrun : run sheet workbook pool data = .ok filled) :
    let gs := growths numbers (blocks sheet workbook pool data)
    List.Forall₂ (NamePlaced sheet.name (insertedAbove gs)) (definedNames workbook) (definedNames filled.workbook) ∧
      ∀ (e : Element) (t : Target), t.Plain → e.text = some t.text → Target.read (nameText e) = some t := by
  have follows := names_of_run (Pool.sound_of_built hpool) hnumbers hincreasing hrun
  refine ⟨follows.imp fun _ _ h => h.placed, ?_⟩
  intro e t plain
  exact read_nameText plain

/-- A workbook with three defined names: a range on the sheet of the small pass, a cell on another sheet, and
a formula. -/
def namedWorkbook : Element :=
  plainElement "workbook" []
    [plainElement "definedNames" []
      (["'Data'!$A$3:B4", "Data2!A3", "SUM(A3)"].map (plainElement "definedName" [] []).setText)]

/-- The range moves down by the two rows that go in above it. -/
theorem names_follow_rows_small : ∃ filled, run smallSheet namedWorkbook smallPool smallData = .ok filled ∧
    (definedNames filled.workbook).map (·.text) = [some "'Data'!$A$5:B6", some "Data2!A3", some "SUM(A3)"] := by
  obtain ⟨filled, hrun⟩ : ∃ filled, run smallSheet namedWorkbook smallPool smallData = .ok filled :=
    exists_of_isOk (by decide +kernel)
  have hnumbers : smallSheet.rows.mapM ownNumber = .ok [1, 3] := by decide +kernel
  have hgrowths : growths [1, 3] (blocks smallSheet namedWorkbook smallPool smallData) = [⟨1, 2⟩, ⟨3, 0⟩] := by
    decide +kernel
  have hpool : smallPool.Built := .ofTexts _
  obtain ⟨placed, -⟩ := names_follow_rows hpool hnumbers (by decide) hrun
  have names : definedNames namedWorkbook =
      ["'Data'!$A$3:B4", "Data2!A3", "SUM(A3)"].map (plainElement "definedName" [] []).setText := rfl
  rw [hgrowths, names] at placed
  refine ⟨filled, hrun, ?_⟩
  generalize definedNames filled.workbook = after at placed ⊢
  cases placed with
  | cons own placed =>
      cases placed with
      | cons other placed =>
          cases placed with
          | cons formula placed =>
              cases placed
              rw [own.own (.range ⟨⟨some "'Data'", "A", true, 3, true⟩, ⟨none, "B", false, 4, false⟩⟩)
                  (by decide +kernel) (by decide +kernel) (fun q hq => Option.some.inj hq ▸ .quoted),
                other.other (.cell ⟨some "Data2", "A", false, 3, false⟩) "Data2" "Data2" (by decide +kernel) rfl
                  (.bare (by decide) (by decide)) (by decide),
                formula.unread (by decide +kernel)]
              decide +kernel

end Expand
end Gridfill
