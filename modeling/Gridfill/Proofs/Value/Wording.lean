import Gridfill.Proofs.Outcome
import Gridfill.Proofs.Text.Decimal
import Gridfill.Value.Text

/-!
# Values in words

Every value has a text but for integers with too many digits (`hasText_iff`). A value that goes into a cell
as a text goes in as its own (`toText_of_cellForm`, `InWords`).
-/

namespace Gridfill

/-- The integer whose digits are the text of a number. -/
def NumberValue.digits? : NumberValue → Option Int
  | .int n => some n
  | .float x => x.toInt?
  | .decimal _ => none

theorem NumberValue.text_isOk_iff (n : NumberValue) :
    (∃ s, n.text = .ok s) ↔ ∀ i, n.digits? = some i → i.natAbs < Text.integerBound := by
  have written (i : Int) : (∃ s, writeInteger i = .ok s) ↔ i.natAbs < Text.integerBound := by
    simp only [writeInteger_eq_ok_iff, exists_and_left, exists_eq, and_true]
  cases n with
  | int i => simpa only [NumberValue.text, digits?, Option.some.injEq, forall_eq'] using written i
  | float x =>
      simp only [NumberValue.text, digits?]
      cases x.toInt? with
      | none => exact iff_of_true ⟨_, rfl⟩ fun _ h => by cases h
      | some i => simpa only [Option.some.injEq, forall_eq'] using written i
  | decimal d => exact iff_of_true ⟨_, rfl⟩ fun _ h => by cases h

namespace Value

variable {v : Value} {s : String}

/-- The value has a text: it is no number that is written as an integer with too many digits. -/
def HasText (v : Value) : Prop := ∀ i, v.number?.bind (·.digits?) = some i → i.natAbs < Text.integerBound

theorem hasText_iff : v.HasText ↔ ∃ s, v.toText = .ok s := by
  unfold HasText Value.toText
  cases v.number? with
  | none => exact iff_of_true (fun _ h => by cases h) ⟨_, rfl⟩
  | some n => exact n.text_isOk_iff.symm

instance (v : Value) : Decidable v.HasText :=
  match h : v.number?.bind (·.digits?) with
  | none => isTrue fun _ hi => nomatch h.symm.trans hi
  | some i => decidable_of_iff (i.natAbs < Text.integerBound)
      ⟨fun short _ hj => Option.some.inj (h.symm.trans hj) ▸ short, fun short => short i h⟩

/-- The text of a value; it has no characters when the value has none. -/
def wording (v : Value) : String := v.toText.toOption.getD ""

theorem wording_of_toText (h : v.toText = .ok s) : v.wording = s := by
  rw [wording, h]
  rfl

theorem HasText.toText (h : v.HasText) : v.toText = .ok v.wording := by
  obtain ⟨s, hs⟩ := hasText_iff.mp h
  rw [hs, wording_of_toText hs]

/-- A value that goes into a cell as a text is neither a number nor a date, and goes in with its words. -/
theorem words_of_cellForm (h : v.cellForm = .ok (.text s)) :
    (∀ b, v ≠ .bool b) ∧ v.number? = none ∧ v.serial? = none ∧ v.words = s := by
  unfold cellForm at h
  split at h
  · cases h
  · next v flag =>
    split at h
    · next n _ =>
      obtain ⟨t, -, ht⟩ := map_eq_ok_iff.mp h
      cases ht
    · next none =>
      obtain ⟨number, serial⟩ := Option.or_eq_none_iff.mp none
      injection Except.ok.inj h with e
      exact ⟨flag, number, Option.map_eq_none_iff.mp serial, e⟩

/-- A value that goes into a cell as a text goes in as its own text. -/
theorem toText_of_cellForm (h : v.cellForm = .ok (.text s)) : v.toText = .ok s := by
  obtain ⟨-, number, -, words⟩ := words_of_cellForm h
  rw [Value.toText, number, words]

/-- The value goes into a cell as a text. -/
def InWords (v : Value) : Prop := ∃ s, v.cellForm = .ok (.text s)

theorem InWords.cellForm {v : Value} (h : v.InWords) : v.cellForm = .ok (.text v.wording) := by
  obtain ⟨s, hs⟩ := h
  rw [hs, wording_of_toText (toText_of_cellForm hs)]

instance (v : Value) : Decidable v.InWords :=
  match h : v.cellForm with
  | .ok (.text s) => isTrue ⟨s, h⟩
  | .ok (.flag b) => isFalse fun ⟨s, hs⟩ => by rw [h] at hs; cases hs
  | .ok (.number t) => isFalse fun ⟨s, hs⟩ => by rw [h] at hs; cases hs
  | .error e => isFalse fun ⟨s, hs⟩ => by rw [h] at hs; cases hs

end Value
end Gridfill
