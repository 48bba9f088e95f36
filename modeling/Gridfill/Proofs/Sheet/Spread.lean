import Gridfill.Proofs.Outcome
import Gridfill.Proofs.Sheet.Cell
import Gridfill.Sheet.Expand

/-!
# Cells side by side

The cells for a sequence stand in consecutive columns from that of their cell on, all in its style
(`spread_spec`). The cells of a record do the same in their new row, as many columns further to the right
as cells were inserted into that row before (`recordCells_spec`).
-/

namespace Gridfill

open Markup (Element)
open CellRef (numbered)

/-! ### References to the right -/

/-- A reference moved to the right is that of the column further to the right. -/
theorem shift_numbered {c : Nat} {m : Int} (hc : 1 ≤ c) {k : Nat} {s : String}
    (h : CellRef.shift (numbered c m).text 0 k = .ok s) : s = (numbered (c + k) m).text := by
  obtain ⟨r, hr, h⟩ := bind_eq_ok_iff.mp h
  obtain ⟨-, rfl⟩ := CellRef.valid_of_parse_numbered hc hr
  simp only [CellRef.down_zero] at h
  split at h
  · next hk =>
    have hk : k = 0 := by omega
    rw [(CellRef.write_eq_ok_iff.mp h).2, hk, Nat.add_zero]
  · obtain ⟨r', hr', h⟩ := bind_eq_ok_iff.mp h
    obtain ⟨n, hn, hr'⟩ := bind_eq_ok_iff.mp hr'
    obtain ⟨column, hcolumn, hr'⟩ := bind_eq_ok_iff.mp hr'
    have hn' : (c : Nat) = n :=
      Except.ok.inj ((Reference.columnNumber_columnLetters hc).symm.trans hn)
    rw [← hn', ← Int.natCast_add, Reference.columnName_ofNat (by omega)] at hcolumn
    rw [(CellRef.write_eq_ok_iff.mp h).2, ← Except.ok.inj hr', ← Except.ok.inj hcolumn]
    rfl

namespace Expand

/-- The copy for `k` columns to the right stands there and has the style of the cell. -/
theorem copyRight_spec {cell copy : Element} {c k : Nat} {m : Int} (hc : 1 ≤ c)
    (hr : cell.attribute? "r" = some (numbered c m).text) (h : copyRight cell k = .ok copy) :
    SameStyle copy cell ∧ copy.attribute? "r" = some (numbered (c + k) m).text := by
  unfold copyRight at h
  split at h
  · next hk =>
    rw [← Except.ok.inj h, hk]
    exact ⟨.of_meaning (Element.meaning_copy cell),
      (Markup.attribute?_eq_of_meaning (Element.meaning_copy cell) "r").trans hr⟩
  · obtain ⟨ref, href, h⟩ := bind_eq_ok_iff.mp h
    rw [Element.attributeOr, hr] at href
    rw [← Except.ok.inj h, shift_numbered hc href]
    exact ⟨.trans (.set_ref _ _) (.of_meaning (Element.meaning_copy cell)), Element.attribute?_set _ _ _⟩

/-- What is known of cells that take the place of a cell: they stand side by side from its column on, are
of its style, and hold places that the pool has. -/
structure Laid (row : Int) (column : Nat) (cell : Element) (size : Nat) (cells : List Element) :
    Prop where
  stand : StandAt row (List.range' column cells.length) cells
  style : ∀ e ∈ cells, SameStyle e cell
  placed : ∀ e ∈ cells, Cell.Placed size e

theorem Laid.singleton {row : Int} {column : Nat} {cell e : Element} {size : Nat}
    (hr : e.attribute? "r" = some (numbered column row).text) (hs : SameStyle e cell)
    (hp : Cell.Placed size e) : Laid row column cell size [e] where
  stand := StandAt.singleton hr
  style d hd := by
    rw [List.mem_singleton.mp hd]
    exact hs
  placed d hd := by
    rw [List.mem_singleton.mp hd]
    exact hp

section
variable (holds : Nat → Prop) (becomes : String → String → Prop)

theorem layRight_spec {cell : Element} {c : Nat} {m : Int} (hc : 1 ≤ c)
    (hr : cell.attribute? "r" = some (numbered c m).text) :
    ∀ {items : List Value} {offset : Nat} {pool pool' : Pool} {cells : List Element}, pool.Sound →
      layRight cell offset items pool = .ok (cells, pool') →
      cells.length = items.length ∧ Laid m (c + offset) cell pool'.size cells ∧
        Pool.Steps holds becomes pool pool'
  | [], offset, pool, pool', cells, _, h => by
      injection h with h
      injection h with h1 h2
      subst h1 h2
      exact ⟨rfl, ⟨rfl, fun e he => absurd he (by simp), fun e he => absurd he (by simp)⟩, .refl⟩
  | v :: vs, offset, pool, pool', cells, hp, h => by
      obtain ⟨copy, hcopy, h⟩ := bind_eq_ok_iff.mp h
      obtain ⟨⟨filled, mid⟩, hfill, h⟩ := bind_eq_ok_iff.mp h
      obtain ⟨⟨rest, pool''⟩, hrest, h⟩ := bind_eq_ok_iff.mp h
      obtain ⟨style, ref⟩ := copyRight_spec hc hr hcopy
      have steps := Cell.fill_pool holds becomes hfill
      obtain ⟨len, laid, more⟩ := layRight_spec hc hr (steps.sound hp) hrest
      have hcells := Except.ok.inj h
      injection hcells with hcells hpool
      subst hcells hpool
      have ref' := (Cell.fill_ref hfill).trans ref
      refine ⟨by rw [List.length_cons, len, List.length_cons], ⟨?_, ?_, ?_⟩, steps.trans more⟩
      · rw [List.length_cons, List.range'_succ]
        exact (StandAt.singleton ref').append laid.stand
      · intro e he
        rcases List.mem_cons.mp he with rfl | he
        · exact (Cell.fill_style hfill).trans style
        · exact laid.style e he
      · intro e he
        rcases List.mem_cons.mp he with rfl | he
        · exact (Cell.placed_fill hp hfill).mono more.size_le
        · exact laid.placed e he

theorem length_laidOut (items : List Value) : (laidOut items).length = max 1 items.length := by
  cases items with
  | nil => rfl
  | cons v vs => simp [laidOut]

/-- The cells for a sequence stand side by side from the column of the cell on, one for each item and at
least one. -/
theorem spread_spec {cell : Element} {c : Nat} {m : Int} (hc : 1 ≤ c)
    (hr : cell.attribute? "r" = some (numbered c m).text) {items : List Value} {pool pool' : Pool}
    {cells : List Element} (hp : pool.Sound) (h : spread cell items pool = .ok (cells, pool')) :
    cells.length = max 1 items.length ∧ Laid m c cell pool'.size cells ∧
      Pool.Steps holds becomes pool pool' := by
  obtain ⟨len, laid, steps⟩ := layRight_spec holds becomes hc hr hp h
  exact ⟨len.trans (length_laidOut items), laid, steps⟩

/-! ### The cells of a value -/

/-- The values that stand side by side for a value: the elements of a sequence, or the value alone. -/
def sideBySide (v : Value) : List Value := v.items?.elim [v] laidOut

theorem sideBySide_of_items? {v : Value} {items : List Value} (h : v.items? = some items) :
    sideBySide v = laidOut items := by
  rw [sideBySide, h]
  rfl

theorem sideBySide_of_items?_none {v : Value} (h : v.items? = none) : sideBySide v = [v] := by
  rw [sideBySide, h]
  rfl

/-- The cells that a value puts in the place of a cell, and the pool behind them: those for its elements when it
is a sequence, and the filled cell otherwise. -/
inductive Puts (cell : Element) (item : Value) (pool : Pool) : List Element → Pool → Prop where
  | sequence {items : List Value} {cells : List Element} {pool' : Pool} (items_eq : item.items? = some items)
      (spread_eq : spread cell items pool = .ok (cells, pool')) : Puts cell item pool cells pool'
  | single {e : Element} {pool' : Pool} (items_eq : item.items? = none)
      (fill_eq : Cell.fill cell item pool = .ok (e, pool')) : Puts cell item pool [e] pool'

/-- The cells of a value stand side by side from the column of the cell on, as many as the value asks for. -/
theorem puts_spec {cell : Element} {c : Nat} {m : Int} (hc : 1 ≤ c)
    (hr : cell.attribute? "r" = some (numbered c m).text) {item : Value} {pool pool' : Pool}
    {cells : List Element} (hp : pool.Sound) (h : Puts cell item pool cells pool') :
    cells.length = (sideBySide item).length ∧ Laid m c cell pool'.size cells ∧
      Pool.Steps holds becomes pool pool' := by
  cases h with
  | @sequence items _ _ hitems hspread =>
      obtain ⟨len, laid, steps⟩ := spread_spec holds becomes hc hr hp hspread
      rw [sideBySide_of_items? hitems, length_laidOut]
      exact ⟨len, laid, steps⟩
  | single hitems hfill =>
      rw [sideBySide_of_items?_none hitems]
      exact ⟨rfl, .singleton ((Cell.fill_ref hfill).trans hr) (Cell.fill_style hfill) (Cell.placed_fill hp hfill),
        Cell.fill_pool holds becomes hfill⟩

theorem sideBySide_ne_nil (v : Value) : sideBySide v ≠ [] := by
  unfold sideBySide
  cases v.items? with
  | none => exact List.cons_ne_nil _ _
  | some items =>
      show laidOut items ≠ []
      cases items <;> exact List.cons_ne_nil _ _

theorem Puts.length_pos {cell : Element} {c : Nat} {m : Int} (hc : 1 ≤ c)
    (hr : cell.attribute? "r" = some (numbered c m).text) {item : Value} {pool pool' : Pool}
    {cells : List Element} (hp : pool.Sound) (h : Puts cell item pool cells pool') : 1 ≤ cells.length := by
  obtain ⟨len, -⟩ := puts_spec (fun _ => True) (fun _ _ => True) hc hr hp h
  rw [len]
  exact List.length_pos_of_ne_nil (sideBySide_ne_nil item)

/-! ### The cells of a record -/

/-- The copy of a cell at a place in a new row. -/
def copyAt (cell : Element) (ref : String) : Element := cell.copy.set "r" ref

theorem sameStyle_copyAt (cell : Element) (ref : String) : SameStyle (copyAt cell ref) cell :=
  .trans (.set_ref _ _) (.of_meaning (Element.meaning_copy cell))

/-- The cells of a record are those that its value puts in the place of a copy of the cell, which stands in the
column of the cell moved by the cells inserted into the new row before. -/
theorem recordCells_cases {cell : Element} {c : Nat} (hc : 1 ≤ c) {target : NewRow} {number : Int}
    (hn : parseInteger (target.row.attributeOr "r" "") = .ok number) {item : Value} {pool pool' : Pool}
    {cells : List Element} {ref : String} {inserted : Nat}
    (h : recordCells cell (String.ofList (Reference.columnLetters c)) target item pool =
      .ok (cells, ref, inserted, pool')) :
    ref = (numbered (c + target.shift) number).text ∧ inserted = cells.length - 1 ∧
      Puts (copyAt cell ref) item pool cells pool' := by
  unfold recordCells at h
  obtain ⟨number', hn', h⟩ := bind_eq_ok_iff.mp h
  obtain rfl : number = number' := Except.ok.inj (hn.symm.trans hn')
  obtain ⟨own, hown, h⟩ := bind_eq_ok_iff.mp h
  obtain ⟨ref', href, h⟩ := bind_eq_ok_iff.mp h
  rw [(CellRef.write_eq_ok_iff.mp hown).2] at href
  have eref := shift_numbered hc href
  cases hi : item.items? with
  | some items =>
      simp only [hi] at h
      obtain ⟨⟨cells', pool''⟩, hs, h⟩ := bind_eq_ok_iff.mp h
      injection Except.ok.inj h with h1 h
      injection h with h2 h
      injection h with h3 h4
      subst h1 h2 h3 h4
      exact ⟨eref, rfl, .sequence hi hs⟩
  | none =>
      simp only [hi] at h
      obtain ⟨⟨filled, pool''⟩, hs, h⟩ := bind_eq_ok_iff.mp h
      injection Except.ok.inj h with h1 h
      injection h with h2 h
      injection h with h3 h4
      subst h1 h2 h3 h4
      exact ⟨eref, rfl, .single hi hs⟩

/-- The cells of a record stand in its new row, from the column of the cell moved by the cells inserted
there before. -/
theorem recordCells_spec {cell : Element} {c : Nat} (hc : 1 ≤ c) {target : NewRow} {number : Int}
    (hn : parseInteger (target.row.attributeOr "r" "") = .ok number) {item : Value} {pool pool' : Pool}
    {cells : List Element} {ref : String} {inserted : Nat} (hp : pool.Sound)
    (h : recordCells cell (String.ofList (Reference.columnLetters c)) target item pool =
      .ok (cells, ref, inserted, pool')) :
    cells.length = inserted + 1 ∧ Laid number (c + target.shift) cell pool'.size cells ∧
      Pool.Steps holds becomes pool pool' ∧ ref = (numbered (c + target.shift) number).text := by
  obtain ⟨rfl, rfl, puts⟩ := recordCells_cases hc hn h
  have copyRef := cell.copy.attribute?_set "r" (numbered (c + target.shift) number).text
  have pos := puts.length_pos (by omega) copyRef hp
  obtain ⟨-, laid, steps⟩ := puts_spec holds becomes (by omega) copyRef hp puts
  refine ⟨by omega, ⟨laid.stand, fun e he => ?_, laid.placed⟩, steps, rfl⟩
  exact (laid.style e he).trans (sameStyle_copyAt cell _)

end

end Expand
end Gridfill
