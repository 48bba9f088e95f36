/-!
# Listings

A listing holds things by name, in the order in which the names came in. `List.lookup` finds the thing
of a name; `put` sets it, in its place when the name is there and at the end otherwise; `erase` takes
every thing of a name away. What either does to a look-up is said by `lookup_put`, `lookup_put_ne`,
`lookup_erase` and `lookup_erase_ne`, and what they do to the names by `names_put` and `names_erase`.
-/

namespace Gridfill

/-- Things by name. -/
abbrev Listing (α : Type) := List (String × α)

namespace Listing

variable {α : Type}

/-- The names, in order. -/
def names (es : Listing α) : List String := es.map (·.1)

/-- The listing with the thing of a name set. -/
def put (name : String) (a : α) : Listing α → Listing α
  | [] => [(name, a)]
  | e :: es => if e.1 = name then (name, a) :: es else e :: put name a es

/-- The listing without the things of a name. -/
def erase (name : String) (es : Listing α) : Listing α := es.filter fun e => e.1 ≠ name

theorem beq_eq_false {name other : String} (h : other ≠ name) : (other == name) = false := by
  simp [h]

theorem lookup_put (name : String) (a : α) (es : Listing α) :
    (put name a es).lookup name = some a := by
  induction es with
  | nil => simp [put]
  | cons e es ih =>
    obtain ⟨n, b⟩ := e
    by_cases h : n = name
    · simp [put, h]
    · simp only [put, h, if_false, List.lookup_cons, beq_eq_false (Ne.symm h)]
      exact ih

theorem lookup_put_ne {name other : String} (a : α) (es : Listing α) (h : other ≠ name) :
    (put name a es).lookup other = es.lookup other := by
  induction es with
  | nil => simp [put, List.lookup_cons, beq_eq_false h]
  | cons e es ih =>
    obtain ⟨n, b⟩ := e
    by_cases hn : n = name
    · subst hn
      simp [put, List.lookup_cons, beq_eq_false h]
    · simp only [put, hn, if_false, List.lookup_cons, ih]

/-- Setting a name that is there keeps the names, and setting a new one puts it last. -/
theorem names_put (name : String) (a : α) (es : Listing α) :
    names (put name a es) = if name ∈ names es then names es else names es ++ [name] := by
  induction es with
  | nil => simp [put, names]
  | cons e es ih =>
    by_cases h : e.1 = name
    · simp [put, names, h]
    · have ih' : (put name a es).map (·.1) =
          if name ∈ es.map (·.1) then es.map (·.1) else es.map (·.1) ++ [name] := ih
      simp only [put, names, h, if_false, List.map_cons, List.mem_cons, Ne.symm h, false_or, ih']
      split <;> simp

theorem lookup_erase (name : String) (es : Listing α) : (erase name es).lookup name = none := by
  induction es with
  | nil => rfl
  | cons e es ih =>
    obtain ⟨n, b⟩ := e
    by_cases h : n = name
    · simpa [erase, h] using ih
    · simpa [erase, h, List.lookup_cons, beq_eq_false (Ne.symm h)] using ih

theorem lookup_erase_ne {name other : String} (es : Listing α) (h : other ≠ name) :
    (erase name es).lookup other = es.lookup other := by
  induction es with
  | nil => rfl
  | cons e es ih =>
    obtain ⟨n, b⟩ := e
    by_cases hn : n = name
    · subst hn
      simpa [erase, List.lookup_cons, beq_eq_false h] using ih
    · cases ho : other == n
      · simpa [erase, hn, List.lookup_cons, ho] using ih
      · simp [erase, hn, List.lookup_cons, ho]

theorem names_erase (name : String) (es : Listing α) :
    names (erase name es) = (names es).filter (· ≠ name) := by
  simp [names, erase, List.filter_map, Function.comp_def]

end Listing
end Gridfill
