/-!
# Entries under names

A list of entries under names keeps the order in which the names were first given. Assigning to a
name that is taken replaces its entry where it stands.

## Main definitions

* `Entries α`: entries under names
* `Entries.assign`, `Entries.remove`: giving and removing an entry

## Main results

* `Entries.lookup_assign`, `Entries.lookup_remove`: what is found afterwards
* `Entries.keys_assign`: a name that is taken stays where it is
* `Entries.nodup_keys_assign`: names stay distinct
* `Entries.mem_keys_iff`: something is found under the names, and only there
* `Entries.lookup_map`, `Entries.lookup_filter`: what is found in changed and in chosen entries
* `Entries.lookup_eq_some_iff_mem`: under distinct names every entry is found
-/

namespace ChartQuery

/-- Entries under names, in the order in which the names were first given. -/
abbrev Entries (α : Type) := List (String × α)

namespace Entries

variable {α : Type}

/-- The entries with one under a name: in place of the one that stands there, else at the end. -/
def assign (es : Entries α) (name : String) (a : α) : Entries α :=
  match es with
  | [] => [(name, a)]
  | (k, b) :: rest => if k = name then (k, a) :: rest else (k, b) :: assign rest name a

/-- The entries without those under a name. -/
def remove (es : Entries α) (name : String) : Entries α := es.filter (·.1 != name)

/-- What is found after an assignment. -/
theorem lookup_assign (es : Entries α) (name k : String) (a : α) :
    (assign es name a).lookup k = if k = name then some a else es.lookup k := by
  induction es with
  | nil =>
    by_cases h : k = name
    · simp [assign, h]
    · have : (k == name) = false := by simpa using h
      simp [assign, List.lookup_cons, this, h]
  | cons e rest ih =>
    obtain ⟨j, b⟩ := e
    by_cases hj : j = name
    · subst hj
      by_cases h : k = j
      · simp [assign, h]
      · have : (k == j) = false := by simpa using h
        simp [assign, List.lookup_cons, this, h]
    · by_cases h : k = j
      · subst h
        simp [assign, hj]
      · have : (k == j) = false := by simpa using h
        simp [assign, hj, List.lookup_cons, this, ih]

/-- What is found after a removal. -/
theorem lookup_remove (es : Entries α) (name k : String) :
    (remove es name).lookup k = if k = name then none else es.lookup k := by
  induction es with
  | nil => simp [remove]
  | cons e rest ih =>
    obtain ⟨j, b⟩ := e
    simp only [remove] at ih
    by_cases hj : j = name
    · subst hj
      have hf : remove ((j, b) :: rest) j = rest.filter (·.1 != j) := by simp [remove]
      rw [hf, ih]
      by_cases h : k = j
      · simp only [h, if_true]
      · have : (k == j) = false := by simpa using h
        simp [List.lookup_cons, this, h]
    · by_cases h : k = j
      · subst h
        simp [remove, hj]
      · have : (k == j) = false := by simpa using h
        simp [remove, hj, List.lookup_cons, this, ih]

/-- A name that is taken stays where it is, any other comes to the end. -/
theorem keys_assign (es : Entries α) (name : String) (a : α) :
    (assign es name a).map (·.1) =
      if name ∈ es.map (·.1) then es.map (·.1) else es.map (·.1) ++ [name] := by
  induction es with
  | nil => simp [assign]
  | cons e rest ih =>
    obtain ⟨j, b⟩ := e
    by_cases hj : j = name
    · simp [assign, hj]
    · have hj' : ¬ name = j := fun h => hj h.symm
      simp only [assign, hj, if_false, List.map_cons, ih, List.mem_cons, hj', false_or]
      split <;> simp

/-- An entry under a new name comes to the end. -/
theorem assign_of_notMem {es : Entries α} {name : String} (h : name ∉ es.map (·.1)) (a : α) :
    assign es name a = es ++ [(name, a)] := by
  induction es with
  | nil => rfl
  | cons e rest ih =>
    obtain ⟨j, b⟩ := e
    rw [List.map_cons, List.mem_cons, not_or] at h
    rw [assign, if_neg (Ne.symm h.1), ih h.2, List.cons_append]

/-- Distinct names stay distinct. -/
theorem nodup_keys_assign {es : Entries α} (h : (es.map (·.1)).Nodup) (name : String) (a : α) :
    ((assign es name a).map (·.1)).Nodup := by
  rw [keys_assign]
  split
  · exact h
  · rename_i hname
    rw [List.nodup_append]
    refine ⟨h, List.nodup_cons.2 ⟨List.not_mem_nil, List.nodup_nil⟩, ?_⟩
    rintro k hk _ (_ | _) rfl
    · exact hname hk
    · contradiction

/-- Something is found under the names, and only there. -/
theorem mem_keys_iff {es : Entries α} {name : String} :
    name ∈ es.map (·.1) ↔ (es.lookup name).isSome := by
  rw [List.lookup_isSome_iff, List.mem_map]
  constructor
  · rintro ⟨e, he, rfl⟩
    exact ⟨e, he, beq_self_eq_true e.1⟩
  · rintro ⟨e, he, hname⟩
    exact ⟨e, he, (eq_of_beq hname).symm⟩

/-- Under distinct names an entry is found exactly if it is there. -/
theorem lookup_eq_some_iff_mem {es : Entries α} (h : (es.map Prod.fst).Nodup) {k : String} {a : α} :
    es.lookup k = some a ↔ (k, a) ∈ es := by
  induction es with
  | nil => simp
  | cons e rest ih =>
    obtain ⟨j, b⟩ := e
    rw [List.map_cons, List.nodup_cons] at h
    by_cases hk : k = j
    · subst hk
      have hrest : (k, a) ∉ rest := fun hmem => h.1 (List.mem_map.2 ⟨_, hmem, rfl⟩)
      simp [hrest, eq_comm]
    · have : (k == j) = false := by simpa using hk
      simp [List.lookup_cons, this, hk, ih h.2]

/-- What is found once every entry is changed. -/
theorem lookup_map {β : Type} (f : α → β) (es : Entries α) (k : String) :
    (es.map fun e => (e.1, f e.2)).lookup k = (es.lookup k).map f := by
  induction es with
  | nil => rfl
  | cons e rest ih =>
    obtain ⟨j, b⟩ := e
    simp only [List.map_cons, List.lookup_cons, ih]
    split <;> rfl

/-- What is found once only some names are kept. -/
theorem lookup_filter (p : String → Bool) (es : Entries α) (k : String) :
    (es.filter fun e => p e.1).lookup k = if p k then es.lookup k else none := by
  induction es with
  | nil => simp
  | cons e rest ih =>
    obtain ⟨j, b⟩ := e
    by_cases hk : k = j
    · subst hk
      by_cases hp : p k = true
      · simp [hp]
      · simp [hp, ih]
    · have hkj : (k == j) = false := by simpa using hk
      by_cases hp : p j = true
      · simp [hp, List.lookup_cons, hkj, ih]
      · simp [hp, List.lookup_cons, hkj, ih]

end Entries

end ChartQuery
