import Gridfill.Failure
import Mathlib.Data.List.Forall2

/-!
# Steps that went through

What is known of the parts when a whole that may fail has gone through: each step of a sequence of
steps has gone through (`bind_eq_ok_iff`), and so has a step for each element of a list
(`mapM_eq_ok_iff`). When the whole has failed, one step has, and those before it have gone through
(`bind_eq_error_iff`, `mapM_eq_error_iff`), so the whole fails only in the ways of its steps (`FailsOnly`).
-/

namespace Gridfill

section
variable {α β : Type} {a : α} {b : β} {x : Except Failure α}

theorem bind_eq_ok_iff {f : α → Except Failure β} :
    (x >>= f) = .ok b ↔ ∃ a, x = .ok a ∧ f a = .ok b := by
  cases x with
  | error e =>
      constructor
      · intro h
        cases h
      · rintro ⟨a, h, -⟩
        cases h
  | ok a =>
      constructor
      · intro h
        exact ⟨a, rfl, h⟩
      · rintro ⟨a', h, hf⟩
        injection h with h
        rw [h]
        exact hf

theorem ok_bind (a : α) (f : α → Except Failure β) : (Except.ok a >>= f) = f a := rfl

theorem bind_eq_error_iff {f : α → Except Failure β} {e : Failure} :
    (x >>= f) = .error e ↔ x = .error e ∨ ∃ a, x = .ok a ∧ f a = .error e := by
  cases x with
  | error e' =>
      constructor
      · intro h
        exact .inl (congrArg Except.error (Except.error.inj h))
      · rintro (h | ⟨a, h, -⟩)
        · exact congrArg Except.error (Except.error.inj h)
        · cases h
  | ok a =>
      constructor
      · intro h
        exact .inr ⟨a, rfl, h⟩
      · rintro (h | ⟨a', h, hf⟩)
        · cases h
        · injection h with h
          rw [h]
          exact hf

theorem map_eq_ok_iff {f : α → β} : x.map f = .ok b ↔ ∃ a, x = .ok a ∧ f a = b := by
  cases x with
  | error e =>
      constructor
      · intro h
        cases h
      · rintro ⟨a, h, -⟩
        cases h
  | ok a =>
      constructor
      · intro h
        exact ⟨a, rfl, Except.ok.inj h⟩
      · rintro ⟨a', h, rfl⟩
        injection h with h
        rw [h]
        rfl

theorem toOption_eq_some_iff {a : α} : x.toOption = some a ↔ x = .ok a := by
  cases x with
  | error e => exact ⟨nofun, nofun⟩
  | ok b =>
      constructor
      · intro h
        rw [Option.some.inj h]
      · intro h
        rw [Except.ok.inj h]
        rfl

/-- The result of a step that goes through. -/
theorem exists_of_isOk (h : x.toBool = true) : ∃ a, x = .ok a := by
  cases x with
  | error e => cases h
  | ok a => exact ⟨a, rfl⟩

end

section
variable {α β : Type} {f : α → Except Failure β}

/-- A step for each element has gone through when each of them has. -/
theorem mapM_eq_ok_iff : ∀ {xs : List α} {ys : List β},
    xs.mapM f = .ok ys ↔ List.Forall₂ (fun x y => f x = .ok y) xs ys
  | [], ys => by
      rw [List.mapM_nil, List.forall₂_nil_left_iff]
      exact ⟨fun h => (Except.ok.inj h).symm, fun h => congrArg Except.ok h.symm⟩
  | x :: xs, ys => by
      rw [List.mapM_cons, bind_eq_ok_iff, List.forall₂_cons_left_iff]
      constructor
      · rintro ⟨y, hy, h⟩
        obtain ⟨rest, hrest, h⟩ := bind_eq_ok_iff.mp h
        exact ⟨y, rest, hy, mapM_eq_ok_iff.mp hrest, (Except.ok.inj h).symm⟩
      · rintro ⟨y, rest, hy, hrest, rfl⟩
        exact ⟨y, hy, bind_eq_ok_iff.mpr ⟨rest, mapM_eq_ok_iff.mpr hrest, rfl⟩⟩

/-- A step for each element has failed when one of them has and those before it have gone through. -/
theorem mapM_eq_error_iff {e : Failure} : ∀ {xs : List α}, xs.mapM f = .error e ↔
    ∃ before x after, xs = before ++ x :: after ∧ (∀ y ∈ before, ∃ b, f y = .ok b) ∧ f x = .error e
  | [] => by
      rw [List.mapM_nil]
      constructor
      · intro h
        cases h
      · rintro ⟨before, _, _, split, -⟩
        cases before <;> cases split
  | x :: xs => by
      rw [List.mapM_cons, bind_eq_error_iff]
      constructor
      · rintro (h | ⟨b, hb, h⟩)
        · exact ⟨[], x, xs, rfl, fun y hy => (by cases hy), h⟩
        · rcases bind_eq_error_iff.mp h with h | ⟨bs, -, h⟩
          · obtain ⟨before, y, after, rfl, through, fails⟩ := mapM_eq_error_iff.mp h
            exact ⟨x :: before, y, after, rfl, List.forall_mem_cons.mpr ⟨⟨b, hb⟩, through⟩, fails⟩
          · cases h
      · rintro ⟨before, y, after, split, through, fails⟩
        cases before with
        | nil =>
            obtain ⟨rfl, rfl⟩ := List.cons.inj split
            exact .inl fails
        | cons first before =>
            obtain ⟨rfl, rfl⟩ := List.cons.inj split
            obtain ⟨⟨b, hb⟩, through⟩ := List.forall_mem_cons.mp through
            have rest := mapM_eq_error_iff.mpr ⟨before, y, after, rfl, through, fails⟩
            exact .inr ⟨b, hb, bind_eq_error_iff.mpr (.inl rest)⟩

/-- What stands at a place of the first of two lists goes with what stands there in the second. -/
theorem exists_of_getElem? {R : α → β → Prop} {a : α} {as : List α} {bs : List β} (h : List.Forall₂ R as bs) :
    ∀ {i : Nat}, as[i]? = some a → ∃ b, bs[i]? = some b ∧ R a b := by
  induction h with
  | nil =>
      intro i hi
      cases hi
  | @cons _ b _ _ hr _ ih =>
      intro i hi
      cases i with
      | zero =>
          obtain rfl := Option.some.inj hi
          exact ⟨b, rfl, hr⟩
      | succ i => exact ih hi

/-- Two lists go together when what stands at each place of them does. -/
theorem forall₂_of_getElem? {R : α → β → Prop} : ∀ {as : List α} {bs : List β}, as.length = bs.length →
    (∀ (i : Nat) (a : α), as[i]? = some a → ∃ b, bs[i]? = some b ∧ R a b) → List.Forall₂ R as bs
  | [], [], _, _ => .nil
  | a :: as, b :: bs, hlen, h => by
      obtain ⟨b', hb, hr⟩ := h 0 a rfl
      obtain rfl := Option.some.inj hb
      exact .cons hr (forall₂_of_getElem? (Nat.succ.inj hlen) fun i c hc => h (i + 1) c hc)

/-- Lists that go together with the lists between them go together. -/
theorem forall₂_comp {γ : Type} {R : α → β → Prop} {S : β → γ → Prop} {T : α → γ → Prop}
    (hT : ∀ a b c, R a b → S b c → T a c) : ∀ {as : List α} {bs : List β} {cs : List γ},
      List.Forall₂ R as bs → List.Forall₂ S bs cs → List.Forall₂ T as cs
  | _, _, _, .nil, .nil => .nil
  | _, _, _, .cons h hs, .cons h' hs' => .cons (hT _ _ _ h h') (forall₂_comp hT hs hs')

/-- What stands in the second of two lists that go together has something in the first to go with. -/
theorem exists_of_mem_right {R : α → β → Prop} {b : β} : ∀ {as : List α} {bs : List β},
    List.Forall₂ R as bs → b ∈ bs → ∃ a ∈ as, R a b
  | _, _, .nil, h => by cases h
  | a :: _, _, .cons hr hrest, h => by
      rcases List.mem_cons.mp h with rfl | h
      · exact ⟨a, List.mem_cons_self, hr⟩
      · obtain ⟨c, hc, hcb⟩ := exists_of_mem_right hrest h
        exact ⟨c, List.mem_cons_of_mem a hc, hcb⟩

end

section
variable {α β : Type} {P : Failure → Prop} {x : Except Failure α}

/-- The step goes through, or fails in one of the given ways. -/
def FailsOnly (P : Failure → Prop) (x : Except Failure α) : Prop := ∀ f, x = .error f → P f

theorem FailsOnly.ok (a : α) : FailsOnly P (.ok a) := nofun

theorem FailsOnly.bind {next : α → Except Failure β} (hx : FailsOnly P x)
    (hnext : ∀ a, x = .ok a → FailsOnly P (next a)) : FailsOnly P (x >>= next) := by
  intro f h
  rcases bind_eq_error_iff.mp h with h | ⟨a, ha, h⟩
  · exact hx f h
  · exact hnext a ha f h

theorem FailsOnly.mapM {g : α → Except Failure β} {xs : List α} (h : ∀ x ∈ xs, FailsOnly P (g x)) :
    FailsOnly P (xs.mapM g) := by
  intro f hf
  obtain ⟨before, x, after, rfl, -, hx⟩ := mapM_eq_error_iff.mp hf
  exact h x (List.mem_append_right _ List.mem_cons_self) f hx

end

end Gridfill
