import Mathlib.Data.List.Forall2
import Mathlib.Logic.Basic

/-!
# Computations that may fail

When one computation behind another, a computation with its failures told otherwise, or a run
through a list succeeds, and when it fails.

## Main results

* `bind_eq_ok_iff`, `bind_eq_error_iff`: one computation behind another
* `exists_mapM_ok_iff`, `exists_mapM_error_iff`: a run through a list
* `forall₂_of_mapM_ok`, `exists_mem_of_mapM_ok`: a run gives a result for each item
* `exists_mem_of_mapM_error`: the failure of a run is that of an item
* `anyM_eq_error_iff`: when a disjunction from the left fails
* `exists_runs_error_iff`: one run behind another
-/

namespace ChartQuery

section Single

variable {ε δ α β : Type} {x : Except ε α}

/-- A computation fails unless it succeeds. -/
theorem exists_error_iff : (∃ e, x = .error e) ↔ ¬ ∃ a, x = .ok a := by
  cases x <;> simp

theorem bind_eq_ok_iff {f : α → Except ε β} {b : β} :
    (x >>= f) = .ok b ↔ ∃ a, x = .ok a ∧ f a = .ok b := by
  cases x <;> simp [bind, Except.bind]

theorem bind_eq_error_iff {f : α → Except ε β} {e : ε} :
    (x >>= f) = .error e ↔ x = .error e ∨ ∃ a, x = .ok a ∧ f a = .error e := by
  cases x <;> simp [bind, Except.bind]

theorem toOption_eq_some_iff {a : α} : x.toOption = some a ↔ x = .ok a := by
  cases x <;> simp [Except.toOption]

theorem map_eq_ok_iff {g : α → β} {b : β} : x.map g = .ok b ↔ ∃ a, x = .ok a ∧ g a = b := by
  cases x <;> simp [Except.map]

theorem mapError_eq_ok_iff {g : ε → δ} {a : α} : x.mapError g = .ok a ↔ x = .ok a := by
  cases x <;> simp [Except.mapError]

theorem mapError_eq_error_iff {g : ε → δ} {d : δ} :
    x.mapError g = .error d ↔ ∃ e, x = .error e ∧ d = g e := by
  cases x <;> simp [Except.mapError, eq_comm]

end Single

section Running

variable {ε α β : Type} {f : α → Except ε β} {l : List α}

/-- Computations that do the same for each item run alike. -/
theorem mapM_congr {g : α → Except ε β} (h : ∀ a ∈ l, f a = g a) : l.mapM f = l.mapM g := by
  induction l with
  | nil => rfl
  | cons a l ih =>
    rw [List.forall_mem_cons] at h
    rw [List.mapM_cons, List.mapM_cons, h.1, ih h.2]

/-- Running through a list succeeds exactly if it does for each item. -/
theorem exists_mapM_ok_iff : (∃ bs, l.mapM f = .ok bs) ↔ ∀ a ∈ l, ∃ b, f a = .ok b := by
  induction l with
  | nil => exact ⟨fun _ a ha => absurd ha List.not_mem_nil, fun _ => ⟨[], rfl⟩⟩
  | cons a l ih =>
    rw [List.mapM_cons, List.forall_mem_cons, ← ih]
    cases f a with
    | error e => simp [bind, Except.bind]
    | ok b => cases l.mapM f <;> simp [bind, Except.bind, pure, Except.pure]

/-- A run gives a result for each item. -/
theorem forall₂_of_mapM_ok {bs : List β} (h : l.mapM f = .ok bs) :
    List.Forall₂ (fun a b => f a = .ok b) l bs := by
  induction l generalizing bs with
  | nil =>
    cases h
    exact .nil
  | cons a l ih =>
    rw [List.mapM_cons] at h
    obtain ⟨b, hb, h⟩ := bind_eq_ok_iff.1 h
    obtain ⟨rest, hrest, h⟩ := bind_eq_ok_iff.1 h
    cases h
    exact .cons hb (ih hrest)

/-- What the results of a run have in place is what the items have. -/
theorem map_eq_of_mapM_ok {κ : Type} {key : α → κ} {key' : β → κ} {bs : List β}
    (h : l.mapM f = .ok bs) (hkey : ∀ a b, f a = .ok b → key' b = key a) :
    bs.map key' = l.map key := by
  have hrun := forall₂_of_mapM_ok h
  clear h
  induction hrun with
  | nil => rfl
  | cons hab _ ih => rw [List.map_cons, List.map_cons, ih, hkey _ _ hab]

/-- Every result of a run is that of an item. -/
theorem exists_mem_of_mapM_ok {bs : List β} (h : l.mapM f = .ok bs) {b : β} (hb : b ∈ bs) :
    ∃ a ∈ l, f a = .ok b := by
  have hrun := forall₂_of_mapM_ok h
  clear h
  induction hrun with
  | nil => cases hb
  | cons hab _ ih =>
    rcases List.mem_cons.1 hb with rfl | hb
    · exact ⟨_, List.mem_cons_self, hab⟩
    · obtain ⟨a, ha, hfa⟩ := ih hb
      exact ⟨a, List.mem_cons_of_mem _ ha, hfa⟩

/-- The result of every item of a run is among its results. -/
theorem mem_of_mapM_ok {bs : List β} (h : l.mapM f = .ok bs) {a : α} (ha : a ∈ l) {b : β}
    (hb : f a = .ok b) : b ∈ bs := by
  have hrun := forall₂_of_mapM_ok h
  clear h
  induction hrun with
  | nil => cases ha
  | cons hab _ ih =>
    rcases List.mem_cons.1 ha with rfl | ha
    · exact List.mem_cons.2 (.inl (Except.ok.inj (hb.symm.trans hab)))
    · exact List.mem_cons_of_mem _ (ih ha)

/-- Running through a list fails exactly if it does for some item. -/
theorem exists_mapM_error_iff : (∃ e, l.mapM f = .error e) ↔ ∃ a ∈ l, ∃ e, f a = .error e := by
  simp only [exists_error_iff, exists_mapM_ok_iff, not_forall, exists_prop]

/-- The failure of a run is that of some item. -/
theorem exists_mem_of_mapM_error {e : ε} (h : l.mapM f = .error e) : ∃ a ∈ l, f a = .error e := by
  induction l with
  | nil => cases h
  | cons a l ih =>
    rw [List.mapM_cons] at h
    rcases bind_eq_error_iff.1 h with ha | ⟨b, -, h⟩
    · exact ⟨a, List.mem_cons_self, ha⟩
    -- The head succeeds, so that the failure comes from the rest.
    rcases bind_eq_error_iff.1 h with hl | ⟨bs, -, hpure⟩
    · obtain ⟨c, hc, hfail⟩ := ih hl
      exact ⟨c, List.mem_cons_of_mem a hc, hfail⟩
    · cases hpure

theorem anyM_cons {p : α → Except ε Bool} {a : α} :
    (a :: l).anyM p = p a >>= fun held => if held then .ok true else l.anyM p := by
  rw [List.anyM]
  cases p a with
  | error e => rfl
  | ok held => cases held <;> rfl

/-- A disjunction from the left fails at the first item that fails, if none holds before it. -/
theorem anyM_eq_error_iff {p : α → Except ε Bool} {e : ε} :
    l.anyM p = .error e ↔ ∃ before a after, l = before ++ a :: after ∧
      (∀ b ∈ before, p b = .ok false) ∧ p a = .error e := by
  induction l with
  | nil =>
    constructor
    · intro h
      cases h
    · rintro ⟨before, a, after, h, -⟩
      simp at h
  | cons x l ih =>
    rw [anyM_cons, bind_eq_error_iff]
    constructor
    · rintro (hx | ⟨held, hx, h⟩)
      · exact ⟨[], x, l, rfl, by simp, hx⟩
      · cases held with
        | true => cases h
        | false =>
          obtain ⟨before, a, after, rfl, hbefore, ha⟩ := ih.1 h
          exact ⟨x :: before, a, after, rfl, List.forall_mem_cons.2 ⟨hx, hbefore⟩, ha⟩
    · rintro ⟨before, a, after, hl, hbefore, ha⟩
      cases before with
      | nil =>
        cases hl
        exact .inl ha
      | cons y before =>
        cases hl
        obtain ⟨hx, hbefore⟩ := List.forall_mem_cons.1 hbefore
        exact .inr ⟨false, hx, ih.2 ⟨before, a, after, rfl, hbefore, ha⟩⟩

end Running

section Runs

variable {ε α α' β β' γ : Type} {f : α → Except ε β} {f' : α' → Except ε β'} {l : List α}
  {l' : List α'} {g : List β → List β' → γ}

/-- The failure of one run behind another is that of an item of either. -/
theorem exists_mem_of_runs_error {e : ε}
    (h : (do let bs ← l.mapM f; let bs' ← l'.mapM f'; .ok (g bs bs')) = .error e) :
    (∃ a ∈ l, f a = .error e) ∨ ∃ a ∈ l', f' a = .error e := by
  rcases bind_eq_error_iff.1 h with hl | ⟨bs, -, h⟩
  · exact .inl (exists_mem_of_mapM_error hl)
  rcases bind_eq_error_iff.1 h with hl' | ⟨bs', -, h⟩
  · exact .inr (exists_mem_of_mapM_error hl')
  · cases h

/-- One run behind another fails exactly if an item of either does. -/
theorem exists_runs_error_iff :
    (∃ e, (do let bs ← l.mapM f; let bs' ← l'.mapM f'; .ok (g bs bs')) = .error e) ↔
      (∃ a ∈ l, ∃ e, f a = .error e) ∨ ∃ a ∈ l', ∃ e, f' a = .error e := by
  constructor
  · rintro ⟨e, h⟩
    rcases exists_mem_of_runs_error h with ⟨a, ha, hfail⟩ | ⟨a, ha, hfail⟩
    · exact .inl ⟨a, ha, e, hfail⟩
    · exact .inr ⟨a, ha, e, hfail⟩
  · rw [← exists_mapM_error_iff, ← exists_mapM_error_iff]
    intro h
    cases hl : l.mapM f with
    | error e => exact ⟨e, rfl⟩
    | ok bs =>
      rw [hl] at h
      rcases h with ⟨e, h⟩ | ⟨e, hl'⟩
      · cases h
      · exact ⟨e, by rw [hl']; rfl⟩

end Runs

end ChartQuery
