import Gridfill.Proofs.Text.Overwriting
import Mathlib.Data.List.TakeWhile

/-!
# Which placeholders are found

Where a placeholder stands is said by places alone (`StandsAt`): an opening mark, the first closing mark behind it, no
other opening mark between the two, and a body with a name. Scanning a text from left to right finds a placeholder for
each such pair of places and none besides (`scan_exactly`). The invariant of the scan (`Reading`) says what is known
of the text in front of the place that was reached.
-/

namespace Gridfill

/-- Cutting a text at its first separator, by what stands in front of it. -/
theorem Text.cutAtFirst_eq (sep : Char) (cs : List Char) :
    cutAtFirst sep cs =
      (cs.takeWhile (· ≠ sep), if sep ∈ cs then some ((cs.dropWhile (· ≠ sep)).drop 1) else none) := by
  induction cs with
  | nil => rfl
  | cons c cs ih =>
      by_cases h : c = sep
      · simp [cutAtFirst, h]
      · simp [cutAtFirst, h, ih, Ne.symm h]

namespace Placeholder

/-! ### The parts of a body -/

/-- Does the body begin with a kind: has it a colon that is not its first character? -/
def HasKind (body : List Char) : Prop := ':' ∈ body ∧ body.head? ≠ some ':'

instance (body : List Char) : Decidable (HasKind body) := inferInstanceAs (Decidable (_ ∧ _))

/-- The kind in front of the first colon. -/
def kindChars (body : List Char) : List Char :=
  if HasKind body then body.takeWhile (· ≠ ':') else "normal".toList

/-- The body without its kind and the first colon. -/
def afterKind (body : List Char) : List Char :=
  if HasKind body then (body.dropWhile (· ≠ ':')).drop 1 else body

/-- The name in front of the first dot behind the kind. -/
def nameChars (body : List Char) : List Char := (afterKind body).takeWhile (· ≠ '.')

/-- What stands behind the first dot behind the kind. -/
def keyChars (body : List Char) : List Char := ((afterKind body).dropWhile (· ≠ '.')).drop 1

theorem readKind_eq (body : List Char) : Body.readKind body = (kindChars body, afterKind body) := by
  unfold Body.readKind kindChars afterKind
  rw [Text.cutAtFirst_eq]
  cases body with
  | nil => rfl
  | cons c cs =>
      by_cases front : c = ':'
      · simp [HasKind, front]
      · by_cases colon : ':' ∈ cs
        · simp [HasKind, front, colon]
        · simp [HasKind, front, Ne.symm front, colon]

/-- What a body says is its kind, its name and its key, if it has a name. -/
theorem read_eq (body : List Char) :
    Body.read body =
      if nameChars body = [] then none
      else some ⟨kindChars body, nameChars body, if keyChars body = [] then none else some (keyChars body)⟩ := by
  have key : ((if '.' ∈ afterKind body then some (keyChars body) else none).bind fun k =>
      if k.isEmpty then none else some k) = if keyChars body = [] then none else some (keyChars body) := by
    by_cases dot : '.' ∈ afterKind body
    · by_cases nothing : keyChars body = []
      · simp [dot, nothing]
      · simp [dot, nothing]
    · have nothing : keyChars body = [] := by
        rw [keyChars, List.dropWhile_eq_nil_iff.mpr fun c hc => decide_eq_true (ne_of_mem_of_not_mem hc dot)]
        rfl
      simp [dot, nothing]
  unfold Body.read
  rw [readKind_eq]
  simp only [Text.cutAtFirst_eq]
  rw [← keyChars, key, ← nameChars]
  by_cases nothing : nameChars body = []
  · simp [nothing]
  · simp [nothing]

/-! ### Where a placeholder stands -/

/-- An opening mark stands at the place. -/
def OpensAt (text : List Char) (i : Nat) : Prop := text[i]? = some '$' ∧ text[i + 1]? = some '{'

instance (text : List Char) (i : Nat) : Decidable (OpensAt text i) := inferInstanceAs (Decidable (_ ∧ _))

/-- The opening mark at `i` and the closing mark at `j` go together: the closing mark is the first one behind the
opening mark, and the opening mark is the last one in front of the closing mark. -/
structure Marked (text : List Char) (i j : Nat) : Prop where
  opening : OpensAt text i
  behind : i + 2 ≤ j
  closing : text[j]? = some '}'
  first : ∀ k < j, i + 2 ≤ k → text[k]? ≠ some '}'
  innermost : ∀ k < j, i < k → ¬ OpensAt text k

/-- A placeholder stands between the marks at `i` and `j`: they go together, and what is between them has a name. -/
def StandsAt (text : List Char) (i j : Nat) : Prop := Marked text i j ∧ nameChars (text.extract (i + 2) j) ≠ []

instance (text : List Char) (i j : Nat) : Decidable (StandsAt text i j) :=
  have : Decidable (Marked text i j) :=
    decidable_of_iff (OpensAt text i ∧ i + 2 ≤ j ∧ text[j]? = some '}' ∧
        (∀ k < j, i + 2 ≤ k → text[k]? ≠ some '}') ∧ ∀ k < j, i < k → ¬ OpensAt text k)
      ⟨fun ⟨h1, h2, h3, h4, h5⟩ => ⟨h1, h2, h3, h4, h5⟩, fun ⟨h1, h2, h3, h4, h5⟩ => ⟨h1, h2, h3, h4, h5⟩⟩
  inferInstanceAs (Decidable (_ ∧ _))

/-- The placeholder between the marks at `i` and `j`. -/
def standingAt (text : List Char) (i j : Nat) : Placeholder :=
  let body := text.extract (i + 2) j
  { raw := String.ofList (text.extract i (j + 1))
    kind := String.ofList (kindChars body)
    name := String.ofList (nameChars body)
    key := if keyChars body = [] then none else some (String.ofList (keyChars body))
    whole := i = 0 ∧ j + 1 = text.length
    start := i
    stop := j + 1 }

/-! ### The scan -/

/-- What is known of the text in front of the place `pos` that a scan has reached: with an opening mark remembered,
that it is the last one and has no closing mark behind it; with none, that each opening mark has one. -/
def Reading (text : List Char) (pos : Nat) : Option Span → Prop
  | none => ∀ k < pos, OpensAt text k → ∃ m < pos, k + 2 ≤ m ∧ text[m]? = some '}'
  | some o => OpensAt text o.start ∧ o.start + 2 ≤ pos ∧ o.body.reverse = text.extract (o.start + 2) pos ∧
      (∀ k < pos, o.start + 2 ≤ k → text[k]? ≠ some '}') ∧ ∀ k < pos, o.start < k → ¬ OpensAt text k

section
variable {text : List Char} {pos : Nat} {c : Char} {cs : List Char}

theorem getElem?_of_drop (h : text.drop pos = c :: cs) : text[pos]? = some c := by
  have first : (text.drop pos)[0]? = some c := by rw [h]; rfl
  rwa [List.getElem?_drop] at first

theorem drop_of_drop (h : text.drop pos = c :: cs) : text.drop (pos + 1) = cs := by
  rw [← List.drop_drop, h]
  rfl

/-- Behind a closing mark no opening mark is left open. -/
theorem Reading.closed (h : text[pos]? = some '}') : Reading text (pos + 1) none := by
  intro k hk opens
  have notHere : k ≠ pos := by
    rintro rfl
    cases h.symm.trans opens.1
  have notBefore : k + 1 ≠ pos := by
    rintro rfl
    cases h.symm.trans opens.2
  exact ⟨pos, by omega, by omega, h⟩

/-- An opening mark is the last one when it has just been read. -/
theorem Reading.opened (h : OpensAt text pos) : Reading text (pos + 2) (some ⟨pos, []⟩) := by
  refine ⟨h, Nat.le_refl _, ?_, fun k hk hle => ?_, fun k hk hlt opens => ?_⟩
  · simp
  · exact absurd hk (Nat.not_lt.mpr hle)
  · obtain rfl : k = pos + 1 := Nat.le_antisymm (Nat.le_of_lt_succ hk) hlt
    cases h.2.symm.trans opens.1

/-- A character that is no mark leaves the last opening mark as it is. -/
theorem Reading.step {opened : Option Span} (h : Reading text pos opened) (here : text[pos]? = some c)
    (notClosing : c ≠ '}') (notOpening : ¬ OpensAt text pos) :
    Reading text (pos + 1) (opened.map fun s => ⟨s.start, c :: s.body⟩) := by
  cases opened with
  | none =>
      intro k hk opens
      have before : k ≠ pos := fun e => notOpening (e ▸ opens)
      obtain ⟨m, hm, closes⟩ := h k (by omega) opens
      exact ⟨m, by omega, closes⟩
  | some o =>
      obtain ⟨opens, place, body, closing, opening⟩ := h
      refine ⟨opens, Nat.le_succ_of_le place, ?_, fun k hk hle => ?_, fun k hk hlt => ?_⟩
      · show (c :: o.body).reverse = text.extract (o.start + 2) (pos + 1)
        rw [List.reverse_cons, body]
        show (text.drop (o.start + 2)).take (pos - (o.start + 2)) ++ [c] =
          (text.drop (o.start + 2)).take (pos + 1 - (o.start + 2))
        have next : (text.drop (o.start + 2))[pos - (o.start + 2)]? = some c := by
          rw [List.getElem?_drop, Nat.add_sub_cancel' place, here]
        rw [Nat.succ_sub place, List.take_add_one, next]
        rfl
      · rcases Nat.lt_or_eq_of_le (Nat.le_of_lt_succ hk) with before | rfl
        · exact closing k before hle
        · rw [here]
          exact fun e => notClosing (Option.some.inj e)
      · rcases Nat.lt_or_eq_of_le (Nat.le_of_lt_succ hk) with before | rfl
        · exact opening k before hlt
        · exact notOpening

/-- A closing mark goes together with the opening mark that is remembered, and with no other. -/
theorem Reading.marked_iff {opened : Option Span} (h : Reading text pos opened) (here : text[pos]? = some '}')
    (i : Nat) : Marked text i pos ↔ ∃ o, opened = some o ∧ i = o.start := by
  cases opened with
  | none =>
      constructor
      · intro marked
        have behind := marked.behind
        obtain ⟨m, hm, hle, closes⟩ := h i (by omega) marked.opening
        exact absurd closes (marked.first m hm hle)
      · rintro ⟨_, ho, -⟩
        cases ho
  | some o =>
      obtain ⟨opens, place, -, closing, opening⟩ := h
      constructor
      · intro marked
        have behind := marked.behind
        refine ⟨o, rfl, ?_⟩
        rcases Nat.lt_trichotomy i o.start with before | same | after
        · exact absurd opens (marked.innermost o.start (by omega) before)
        · exact same
        · exact absurd marked.opening (opening i (by omega) after)
      · rintro ⟨_, ho, rfl⟩
        obtain rfl := Option.some.inj ho
        exact ⟨opens, place, here, closing, opening⟩

end

/-- The closing mark of the span stands at the place or behind it. -/
def ClosesFrom (text : List Char) (pos : Nat) (s : Span) : Prop :=
  ∃ j, pos ≤ j ∧ Marked text s.start j ∧ s.body = text.extract (s.start + 2) j

theorem closesFrom_iff (text : List Char) (pos : Nat) (s : Span) : ClosesFrom text pos s ↔
    (Marked text s.start pos ∧ s.body = text.extract (s.start + 2) pos) ∨ ClosesFrom text (pos + 1) s := by
  constructor
  · rintro ⟨j, hj, closes⟩
    rcases Nat.lt_or_eq_of_le hj with later | rfl
    · exact .inr ⟨j, later, closes⟩
    · exact .inl closes
  · rintro (closes | ⟨j, hj, closes⟩)
    · exact ⟨pos, Nat.le_refl _, closes⟩
    · exact ⟨j, Nat.le_of_succ_le hj, closes⟩

section
variable {text : List Char} {pos : Nat} {s : Span}

/-- Past a character that is no closing mark there are the same closing marks to reach. -/
theorem closesFrom_succ_iff (h : text[pos]? ≠ some '}') : ClosesFrom text (pos + 1) s ↔ ClosesFrom text pos s := by
  rw [closesFrom_iff text pos]
  exact (or_iff_right fun closes => h closes.1.closing).symm

theorem not_closesFrom (h : text.drop pos = []) : ¬ ClosesFrom text pos s := by
  rintro ⟨j, hj, marked, -⟩
  have inside := (List.getElem?_eq_some_iff.mp marked.closing).1
  have beyond := List.drop_eq_nil_iff.mp h
  omega

end

/-- A scan finds the spans whose closing mark it has still to reach. -/
theorem mem_spansFrom_iff {text : List Char} {s : Span} {pos : Nat} {opened : Option Span} {cs : List Char}
    (rest : text.drop pos = cs) (reading : Reading text pos opened) :
    s ∈ spansFrom pos opened cs ↔ ClosesFrom text pos s := by
  induction pos, opened, cs using spansFrom.induct with
  | case1 pos opened =>
      rw [spansFrom]
      exact iff_of_false List.not_mem_nil (not_closesFrom rest)
  | case2 pos cs o ih =>
      have here := getElem?_of_drop rest
      have meets := reading.marked_iff here s.start
      obtain ⟨-, -, body, -⟩ := reading
      unfold spansFrom
      simp only [if_true, List.mem_cons, ih (drop_of_drop rest) (.closed here)]
      rw [closesFrom_iff text pos]
      refine or_congr_left ⟨?_, ?_⟩
      · rintro rfl
        exact ⟨meets.mpr ⟨o, rfl, rfl⟩, body⟩
      · rintro ⟨marked, own⟩
        obtain ⟨_, ho, start⟩ := meets.mp marked
        obtain rfl := Option.some.inj ho
        rw [start, ← body] at own
        rw [← start, ← own]
  | case3 pos cs ih =>
      have here := getElem?_of_drop rest
      unfold spansFrom
      simp only [if_true, ih (drop_of_drop rest) (.closed here)]
      rw [closesFrom_iff text pos]
      refine (or_iff_right ?_).symm
      rintro ⟨marked, -⟩
      obtain ⟨_, ho, -⟩ := (reading.marked_iff here s.start).mp marked
      cases ho
  | case4 pos opened c hc d ds mark ih =>
      obtain ⟨rfl, rfl⟩ := mark
      have here := getElem?_of_drop rest
      have next := getElem?_of_drop (drop_of_drop rest)
      unfold spansFrom
      simp only [if_neg hc, and_self, if_true]
      rw [ih (drop_of_drop (drop_of_drop rest)) (.opened ⟨here, next⟩),
        closesFrom_succ_iff (by rw [next]; decide), closesFrom_succ_iff (by rw [here]; decide)]
  | case5 pos opened c hc d ds mark ih =>
      have here := getElem?_of_drop rest
      have next := getElem?_of_drop (drop_of_drop rest)
      have notOpening : ¬ OpensAt text pos := by
        rintro ⟨h1, h2⟩
        exact mark ⟨Option.some.inj (here.symm.trans h1), Option.some.inj (next.symm.trans h2)⟩
      unfold spansFrom
      simp only [if_neg hc, if_neg mark]
      rw [ih (drop_of_drop rest) (reading.step here hc notOpening),
        closesFrom_succ_iff fun e => hc (Option.some.inj (here.symm.trans e))]
  | case6 pos opened c hc =>
      have here := getElem?_of_drop rest
      unfold spansFrom
      simp only [if_neg hc]
      rw [← closesFrom_succ_iff fun e => hc (Option.some.inj (here.symm.trans e))]
      exact iff_of_false List.not_mem_nil (not_closesFrom (drop_of_drop rest))

/-! ### The placeholders -/

theorem drop_of_getElem? {text : List Char} {i : Nat} {c : Char} (h : text[i]? = some c) :
    text.drop i = c :: text.drop (i + 1) := by
  obtain ⟨inside, rfl⟩ := List.getElem?_eq_some_iff.mp h
  exact List.drop_eq_getElem_cons inside

section
variable {text : List Char} {i j : Nat}

/-- The characters between two marks, with the marks. -/
theorem Marked.rawChars (h : Marked text i j) :
    Span.rawChars ⟨i, text.extract (i + 2) j⟩ = text.extract i (j + 1) := by
  have behind := h.behind
  have closes : (text.drop (i + 2))[j - (i + 2)]? = some '}' := by
    rw [List.getElem?_drop, Nat.add_sub_cancel' behind, h.closing]
  have count : j + 1 - i = j - (i + 2) + 1 + 1 + 1 := by omega
  show '$' :: '{' :: (text.drop (i + 2)).take (j - (i + 2)) ++ ['}'] = (text.drop i).take (j + 1 - i)
  rw [count, drop_of_getElem? h.opening.1, drop_of_getElem? h.opening.2, List.take_succ_cons,
    List.take_succ_cons, List.take_add_one, closes]
  rfl

theorem Marked.length_body (h : Marked text i j) : i + ((text.extract (i + 2) j).length + 3) = j + 1 := by
  have behind := h.behind
  have inside := (List.getElem?_eq_some_iff.mp h.closing).1
  have length : (text.extract (i + 2) j).length = j - (i + 2) := by
    show ((text.drop (i + 2)).take (j - (i + 2))).length = j - (i + 2)
    rw [List.length_take, List.length_drop]
    omega
  omega

/-- Between two marks that go together stands a placeholder, unless there is no name. -/
theorem Marked.ofSpan_eq (h : Marked text i j) :
    ofSpan text.length ⟨i, text.extract (i + 2) j⟩ =
      if nameChars (text.extract (i + 2) j) = [] then none else some (standingAt text i j) := by
  have length := h.length_body
  have inside := (List.getElem?_eq_some_iff.mp h.closing).1
  have whole : (text.extract (i + 2) j).length + 3 = text.length ↔ i = 0 ∧ j + 1 = text.length := by omega
  unfold ofSpan
  rw [h.rawChars, read_eq]
  by_cases nothing : nameChars (text.extract (i + 2) j) = []
  · rw [if_pos nothing, if_pos nothing]
    rfl
  · rw [if_neg nothing, if_neg nothing]
    simp only [Option.map_some, length, whole, standingAt, apply_ite (Option.map String.ofList), Option.map_none]

end

/-- The placeholders that a scan finds are those that stand in the text. -/
theorem mem_scan_iff (text : String) (p : Placeholder) :
    p ∈ scan text ↔ ∃ i j, StandsAt text.toList i j ∧ p = standingAt text.toList i j := by
  have found (i : Nat) (body : List Char) : ⟨i, body⟩ ∈ spans text.toList ↔
      ∃ j, 0 ≤ j ∧ Marked text.toList i j ∧ body = text.toList.extract (i + 2) j :=
    mem_spansFrom_iff rfl fun k hk => absurd hk (Nat.not_lt_zero k)
  unfold scan scanChars
  rw [List.mem_filterMap]
  constructor
  · rintro ⟨⟨i, body⟩, hs, hp⟩
    obtain ⟨j, -, marked, rfl⟩ := (found i body).mp hs
    rw [marked.ofSpan_eq] at hp
    split at hp
    · cases hp
    · next name => exact ⟨i, j, ⟨marked, name⟩, (Option.some.inj hp).symm⟩
  · rintro ⟨i, j, ⟨marked, name⟩, rfl⟩
    refine ⟨⟨i, _⟩, (found i _).mpr ⟨j, Nat.zero_le j, marked, rfl⟩, ?_⟩
    rw [marked.ofSpan_eq, if_neg name]

/-- Placeholders that stand one behind the other do not overlap. -/
theorem Located.apart {pos : Nat} {ps : List Placeholder} {cs : List Char} (h : Located pos ps cs) :
    (∀ p ∈ ps, pos ≤ p.start) ∧ ps.Pairwise fun p q => p.stop ≤ q.start := by
  induction h with
  | nil => exact ⟨fun _ hp => absurd hp List.not_mem_nil, List.Pairwise.nil⟩
  | @cons pos p ps front opening back written closing start stop rest ih =>
      obtain ⟨behind, apart⟩ := ih
      refine ⟨fun q hq => ?_, .cons behind apart⟩
      rcases List.mem_cons.mp hq with rfl | hq
      · omega
      · have := behind q hq
        omega

/-- A scan finds one placeholder for each pair of places where one stands, and no other, from left to right and
without overlap. Each is written as it stands in the text, and it is the whole text when it begins and ends where the
text does. A text holds a placeholder when one stands in it. -/
theorem scan_exactly (text : String) :
    (∀ p, p ∈ scan text ↔ ∃ i j, StandsAt text.toList i j ∧ p = standingAt text.toList i j) ∧
    ((scan text).Pairwise fun p q => p.stop ≤ q.start) ∧
    (∀ p ∈ scan text, p.start < p.stop ∧ p.raw.toList = text.toList.extract p.start p.stop ∧
      (p.whole = true ↔ p.start = 0 ∧ p.stop = text.length)) ∧
    (any (some text) = true ↔ ∃ i j, StandsAt text.toList i j) := by
  refine ⟨mem_scan_iff text, (located_scan text).apart.2, fun p hp => ?_, ?_⟩
  · obtain ⟨i, j, ⟨marked, -⟩, rfl⟩ := (mem_scan_iff text p).mp hp
    have behind := marked.behind
    refine ⟨?_, String.toList_ofList, ?_⟩
    · show i < j + 1
      omega
    · rw [← String.length_toList]
      exact decide_eq_true_iff
  · have some : any (some text) = true ↔ ∃ p, p ∈ scan text := by
      rw [any, Bool.not_eq_true', List.isEmpty_eq_false_iff_exists_mem]
    rw [some]
    constructor
    · rintro ⟨p, hp⟩
      obtain ⟨i, j, stands, -⟩ := (mem_scan_iff text p).mp hp
      exact ⟨i, j, stands⟩
    · rintro ⟨i, j, stands⟩
      exact ⟨_, (mem_scan_iff text _).mpr ⟨i, j, stands, rfl⟩⟩

/-- A text with an opening mark in front of another one, and with a body without a name. -/
def nestedText : String := "$\x7b ${a.b}$\x7b\x7d${k:n}"

/-- Of two opening marks in front of a closing one the second counts, and a body without a name is passed over. -/
theorem scan_exactly_nested :
    standingAt nestedText.toList 3 8 ∈ scan nestedText ∧ (standingAt nestedText.toList 3 8).raw = "${a.b}" ∧
      standingAt nestedText.toList 12 17 ∈ scan nestedText ∧ ¬ StandsAt nestedText.toList 0 8 ∧
      ¬ StandsAt nestedText.toList 9 11 ∧ any (some nestedText) = true := by
  obtain ⟨found, -, each, some⟩ := scan_exactly nestedText
  have first : standingAt nestedText.toList 3 8 ∈ scan nestedText := (found _).mpr ⟨3, 8, by decide, rfl⟩
  have written := (each _ first).2.1
  exact ⟨first, String.toList_injective (written.trans (by decide)), (found _).mpr ⟨12, 17, by decide, rfl⟩,
    by decide, by decide, some.mpr ⟨3, 8, by decide⟩⟩

end Placeholder
end Gridfill
