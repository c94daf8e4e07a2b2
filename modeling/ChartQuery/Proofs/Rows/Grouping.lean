import ChartQuery.Rows.Grouping
import Mathlib.Algebra.BigOperators.Group.List.Basic
import Mathlib.Algebra.GroupWithZero.Nat
import Mathlib.Data.List.Nodup

/-!
# Groups under changes of rows and keys

Groups depend on their rows only through the keys, and on the comparison of keys only where it is
made. No two groups have the same key; where keys are the same only if they are equal, every group
has rows, and its key is that of each of them. The groups are a partition of the rows then: each row
is in one of them.

## Main results

* `groupRows_map`: the groups of changed rows are the changed groups
* `groupRows_congr`: keys that are compared alike make the same groups
* `groupRows_key_eq`, `groupRows_ne_nil`: a group has rows, and its key is theirs
* `pairwise_distinctKeys`: no distinct key is the same as another
* `nodup_distinctKeys`, `mem_distinctKeys_iff`: the distinct keys are the keys, each once
* `map_groupRows_perm`: rows in another order have the same groups
* `sum_countP_groupRows`: whatever is counted is counted once over all groups
* `flatMap_filter_groupRows_perm`: the groups under some of the keys are the rows under these
-/

namespace ChartQuery

variable {α β κ : Type}

/-- The groups of changed rows are the changed groups. -/
theorem groupRows_map (same : κ → κ → Bool) (key : β → κ) (f : α → β) (rows : List α) :
    groupRows same key (rows.map f) =
      (groupRows same (key ∘ f) rows).map fun g => (g.1, g.2.map f) := by
  simp only [groupRows, List.map_map, List.filter_map, Function.comp_def]

theorem distinctKeys_subset (same : κ → κ → Bool) (ks : List κ) : distinctKeys same ks ⊆ ks := by
  have hfold : ∀ js done : List κ, ∀ k ∈ js.foldl (addKey same) done, k ∈ done ∨ k ∈ js := by
    intro js
    induction js with
    | nil => exact fun done k hk => .inl hk
    | cons j js ih =>
      intro done k hk
      rcases ih _ k hk with h | h
      · unfold addKey at h
        split at h
        · exact .inl h
        · rcases List.mem_append.1 h with h | h
          · exact .inl h
          · rw [List.mem_singleton.1 h]
            exact .inr List.mem_cons_self
      · exact .inr (List.mem_cons_of_mem j h)
  intro k hk
  rcases hfold ks [] k hk with h | h
  · exact absurd h List.not_mem_nil
  · exact h

theorem distinctKeys_congr {same same' : κ → κ → Bool} {ks : List κ}
    (h : ∀ k ∈ ks, ∀ j ∈ ks, same k j = same' k j) :
    distinctKeys same ks = distinctKeys same' ks := by
  -- The keys found so far are among those compared.
  have hfold : ∀ js done : List κ, js ⊆ ks → done ⊆ ks →
      js.foldl (addKey same) done = js.foldl (addKey same') done := by
    intro js
    induction js with
    | nil => exact fun _ _ _ => rfl
    | cons j js ih =>
      intro done hjs hdone
      have hj := hjs List.mem_cons_self
      have hadd : addKey same done j = addKey same' done j := by
        have hany : done.any (same · j) = done.any (same' · j) := by
          rw [Bool.eq_iff_iff, List.any_eq_true, List.any_eq_true]
          exact exists_congr fun k => and_congr_right fun hk => by rw [h k (hdone hk) j hj]
        rw [addKey, addKey, hany]
      rw [List.foldl_cons, List.foldl_cons, hadd]
      refine ih _ (fun k hk => hjs (List.mem_cons_of_mem j hk)) fun k hk => ?_
      unfold addKey at hk
      split at hk
      · exact hdone hk
      · rcases List.mem_append.1 hk with hk | hk
        · exact hdone hk
        · rw [List.mem_singleton.1 hk]
          exact hj
  exact hfold ks [] (fun _ h => h) (List.nil_subset ks)

/-- Keys that are compared alike make the same groups. -/
theorem groupRows_congr {same same' : κ → κ → Bool} {key key' : α → κ} {rows : List α}
    (hkey : ∀ r ∈ rows, key r = key' r)
    (h : ∀ r ∈ rows, ∀ s ∈ rows, same (key r) (key s) = same' (key r) (key s)) :
    groupRows same key rows = groupRows same' key' rows := by
  have hkeys : rows.map key = rows.map key' := List.map_congr_left hkey
  have hdistinct : distinctKeys same (rows.map key) = distinctKeys same' (rows.map key) := by
    refine distinctKeys_congr fun k hk j hj => ?_
    obtain ⟨r, hr, rfl⟩ := List.mem_map.1 hk
    obtain ⟨s, hs, rfl⟩ := List.mem_map.1 hj
    exact h r hr s hs
  rw [groupRows, groupRows, hdistinct, hkeys]
  refine List.map_congr_left fun k hk => ?_
  rw [← hkeys] at hk
  obtain ⟨r, hr, rfl⟩ := List.mem_map.1 (distinctKeys_subset same' _ hk)
  refine congrArg (Prod.mk _) (List.filter_congr fun s hs => ?_)
  rw [← hkey s hs, h r hr s hs]

section LawfulKeys

variable {same : κ → κ → Bool} {key : α → κ} {rows : List α} {g : κ × List α}

/-- No two groups have the same key. -/
theorem groupRows_eq_of_key_eq {g' : κ × List α} (h : g ∈ groupRows same key rows)
    (h' : g' ∈ groupRows same key rows) (hkey : g.1 = g'.1) : g = g' := by
  obtain ⟨k, -, rfl⟩ := List.mem_map.1 h
  obtain ⟨k', -, rfl⟩ := List.mem_map.1 h'
  obtain rfl : k = k' := hkey
  rfl

theorem groupRows_subset (h : g ∈ groupRows same key rows) : g.2 ⊆ rows := by
  obtain ⟨k, -, rfl⟩ := List.mem_map.1 h
  exact fun r hr => (List.mem_filter.1 hr).1

/-- The key of a group is that of a row. -/
theorem exists_mem_of_groupRows (h : g ∈ groupRows same key rows) : ∃ r ∈ rows, g.1 = key r := by
  obtain ⟨k, hk, rfl⟩ := List.mem_map.1 h
  obtain ⟨r, hr, rfl⟩ := List.mem_map.1 (distinctKeys_subset same _ hk)
  exact ⟨r, hr, rfl⟩

/-- The key of a group is that of each of its rows. -/
theorem groupRows_key_eq (hsame : ∀ r ∈ rows, ∀ s ∈ rows, same (key r) (key s) = true →
    key r = key s) (h : g ∈ groupRows same key rows) : ∀ r ∈ g.2, key r = g.1 := by
  obtain ⟨k, hk, rfl⟩ := List.mem_map.1 h
  intro r hr
  obtain ⟨hmem, heq⟩ := List.mem_filter.1 hr
  obtain ⟨s, hs, rfl⟩ := List.mem_map.1 (distinctKeys_subset same _ hk)
  exact (hsame s hs r hmem heq).symm

/-- Every group has rows. -/
theorem groupRows_ne_nil (hrefl : ∀ r ∈ rows, same (key r) (key r) = true)
    (h : g ∈ groupRows same key rows) : g.2 ≠ [] := by
  obtain ⟨k, hk, rfl⟩ := List.mem_map.1 h
  obtain ⟨s, hs, rfl⟩ := List.mem_map.1 (distinctKeys_subset same _ hk)
  exact List.ne_nil_of_mem (List.mem_filter.2 ⟨hs, hrefl s hs⟩)

/-! ## Groups as a partition -/

/-- No distinct key is the same as one behind it. -/
theorem pairwise_distinctKeys (same : κ → κ → Bool) (ks : List κ) :
    (distinctKeys same ks).Pairwise fun k j => same k j = false := by
  -- A key is added only where none of those before it is the same.
  have hfold : ∀ js done : List κ, (done.Pairwise fun k j => same k j = false) →
      (js.foldl (addKey same) done).Pairwise fun k j => same k j = false := by
    intro js
    induction js with
    | nil => exact fun _ hdone => hdone
    | cons j js ih =>
      intro done hdone
      refine ih _ ?_
      unfold addKey
      split
      · exact hdone
      · rename_i hnone
        refine List.pairwise_append.2 ⟨hdone, List.pairwise_singleton _ _, fun k hk i hi => ?_⟩
        rw [List.mem_singleton.1 hi]
        exact Bool.eq_false_iff.2 fun hsame => hnone (List.any_eq_true.2 ⟨k, hk, hsame⟩)
  exact hfold ks [] .nil

/-- No distinct key occurs twice. -/
theorem nodup_distinctKeys {ks : List κ} (hrefl : ∀ k ∈ ks, same k k = true) :
    (distinctKeys same ks).Nodup := by
  refine (pairwise_distinctKeys same ks).imp_of_mem fun hk _ hsame heq => ?_
  rw [← heq, hrefl _ (distinctKeys_subset same ks hk)] at hsame
  cases hsame

/-- No group has the same key as one behind it. -/
theorem pairwise_groupRows (same : κ → κ → Bool) (key : α → κ) (rows : List α) :
    (groupRows same key rows).Pairwise fun g g' => same g.1 g'.1 = false := by
  have hkeys := pairwise_distinctKeys same (rows.map key)
  rw [← groupRows_keys, List.pairwise_map] at hkeys
  exact hkeys

/-- Where keys are the same only if they are equal, the distinct keys are the keys. -/
theorem mem_distinctKeys_iff {ks : List κ}
    (hsame : ∀ k ∈ ks, ∀ j ∈ ks, same k j = true ↔ k = j) {k : κ} :
    k ∈ distinctKeys same ks ↔ k ∈ ks := by
  classical
  refine ⟨fun h => distinctKeys_subset same ks h, fun hk => ?_⟩
  have hequal : distinctKeys same ks = distinctKeys (fun k j => decide (k = j)) ks := by
    refine distinctKeys_congr fun k hk j hj => ?_
    rw [Bool.eq_iff_iff, hsame k hk j hj, decide_eq_true_eq]
  have hfound : (distinctKeys (fun k j => decide (k = j)) ks).any (fun j => decide (j = k)) :=
    mem_distinctKeys_self (decide_eq_true rfl) hk
  obtain ⟨j, hj, hkj⟩ := List.any_eq_true.1 hfound
  rw [hequal, ← of_decide_eq_true hkj]
  exact hj

/-- The distinct keys of keys in another order are the same, in some order. -/
theorem distinctKeys_perm {ks ks' : List κ} (hperm : ks'.Perm ks)
    (hsame : ∀ k ∈ ks, ∀ j ∈ ks, same k j = true ↔ k = j) :
    (distinctKeys same ks').Perm (distinctKeys same ks) := by
  have hsame' : ∀ k ∈ ks', ∀ j ∈ ks', same k j = true ↔ k = j :=
    fun k hk j hj => hsame k (hperm.mem_iff.1 hk) j (hperm.mem_iff.1 hj)
  refine (List.perm_ext_iff_of_nodup ?_ ?_).2 fun k => ?_
  · exact nodup_distinctKeys fun k hk => (hsame' k hk k hk).2 rfl
  · exact nodup_distinctKeys fun k hk => (hsame k hk k hk).2 rfl
  · rw [mem_distinctKeys_iff hsame', mem_distinctKeys_iff hsame, hperm.mem_iff]

/-- Rows in another order have the same groups, in some order and each with its rows in some order:
whatever does not depend on the order of the rows of a group is made of the same groups. -/
theorem map_groupRows_perm {β : Type} {rows' : List α} (hperm : rows'.Perm rows)
    (hsame : ∀ r ∈ rows, ∀ s ∈ rows, same (key r) (key s) = true ↔ key r = key s)
    {f f' : κ × List α → β}
    (hf : ∀ k rs rs', rs ⊆ rows → rs'.Perm rs → f' (k, rs') = f (k, rs)) :
    ((groupRows same key rows').map f').Perm ((groupRows same key rows).map f) := by
  have hkeys : ∀ k ∈ rows.map key, ∀ j ∈ rows.map key, same k j = true ↔ k = j := by
    simpa [List.forall_mem_map] using hsame
  have hmap : (groupRows same key rows').map f' =
      (distinctKeys same (rows'.map key)).map fun k =>
        f (k, rows.filter fun r => same k (key r)) := by
    rw [groupRows, List.map_map]
    refine List.map_congr_left fun k _ => ?_
    exact hf k _ _ List.filter_sublist.subset (hperm.filter _)
  rw [hmap, groupRows, List.map_map]
  exact (distinctKeys_perm (hperm.map key) hkeys).map _

/-- Among keys that do not repeat, exactly one is the same as a key that is one of them. -/
theorem countP_same_eq_one {ks : List κ} (hnodup : ks.Nodup) {j : κ} (hj : j ∈ ks)
    (hsame : ∀ k ∈ ks, same k j = true ↔ k = j) : ks.countP (same · j) = 1 := by
  classical
  have hequal : ks.countP (same · j) = ks.count j := by
    refine List.countP_congr fun k hk => ?_
    rw [hsame k hk, beq_iff_eq]
  rw [hequal, List.count_eq_one_of_mem hnodup hj]

/-- Rows that fall under exactly one of several keys each are counted once under them all. -/
theorem sum_countP_filter {ks : List κ} (h : ∀ r ∈ rows, ks.countP (same · (key r)) = 1)
    (q : α → Bool) :
    (ks.map fun k => (rows.filter fun r => same k (key r)).countP q).sum = rows.countP q := by
  induction rows with
  | nil => simp
  | cons r rows ih =>
    -- One more row is counted under each key that is the same as its own, and there is one.
    have hstep (k : κ) : ((r :: rows).filter fun s => same k (key s)).countP q =
        (if same k (key r) = true then (if q r = true then 1 else 0) else 0) +
          (rows.filter fun s => same k (key s)).countP q := by
      rw [List.filter_cons]
      split
      · rw [List.countP_cons, Nat.add_comm]
      · rw [Nat.zero_add]
    have hone (n : Nat) (ks : List κ) :
        (ks.map fun k => if same k (key r) = true then n else 0).sum =
          ks.countP (same · (key r)) * n := by
      induction ks with
      | nil => simp
      | cons k ks ih =>
        rw [List.map_cons, List.sum_cons, ih, List.countP_cons]
        split
        · rw [Nat.add_mul, Nat.one_mul, Nat.add_comm]
        · rw [Nat.add_zero, Nat.zero_add]
    simp only [hstep]
    rw [List.sum_map_add, hone, ih fun s hs => h s (List.mem_cons_of_mem r hs),
      h r List.mem_cons_self, Nat.one_mul, List.countP_cons, Nat.add_comm]

/-- Whatever is counted over rows is counted once over all their groups. -/
theorem sum_countP_groupRows
    (hsame : ∀ r ∈ rows, ∀ s ∈ rows, same (key r) (key s) = true ↔ key r = key s)
    (q : α → Bool) :
    ((groupRows same key rows).map fun g => g.2.countP q).sum = rows.countP q := by
  have hkeys : ∀ k ∈ rows.map key, ∀ j ∈ rows.map key, same k j = true ↔ k = j := by
    simpa [List.forall_mem_map] using hsame
  have hnodup := nodup_distinctKeys fun k hk => (hkeys k hk k hk).2 rfl
  rw [groupRows, List.map_map]
  refine sum_countP_filter (fun r hr => ?_) q
  have hr := List.mem_map_of_mem (f := key) hr
  refine countP_same_eq_one hnodup ((mem_distinctKeys_iff hkeys).2 hr) fun k hk => ?_
  exact hkeys k (distinctKeys_subset same _ hk) _ hr

/-- The groups together are the rows, in some order. -/
theorem flatMap_groupRows_perm
    (hsame : ∀ r ∈ rows, ∀ s ∈ rows, same (key r) (key s) = true ↔ key r = key s) :
    ((groupRows same key rows).flatMap (·.2)).Perm rows := by
  classical
  refine List.perm_iff_count.2 fun r => ?_
  rw [List.count_flatMap]
  exact sum_countP_groupRows hsame (· == r)

/-- The groups under some of the keys together are the rows under these keys, in some order. -/
theorem flatMap_filter_groupRows_perm
    (hsame : ∀ r ∈ rows, ∀ s ∈ rows, same (key r) (key s) = true ↔ key r = key s)
    (q : κ → Bool) :
    (((groupRows same key rows).filter fun g => q g.1).flatMap (·.2)).Perm
      (rows.filter fun r => q (key r)) := by
  -- Of a group all rows or none are under these keys.
  have hfilter : ∀ gs ⊆ groupRows same key rows,
      (gs.filter fun g => q g.1).flatMap (·.2) =
        (gs.flatMap (·.2)).filter fun r => q (key r) := by
    intro gs hgs
    induction gs with
    | nil => rfl
    | cons g gs ih =>
      obtain ⟨hg, hgs⟩ := List.cons_subset.1 hgs
      have hkey := groupRows_key_eq (fun r hr s hs => (hsame r hr s hs).1) hg
      have hgroup : g.2.filter (fun r => q (key r)) = g.2.filter fun _ => q g.1 :=
        List.filter_congr fun r hr => by rw [hkey r hr]
      rw [List.flatMap_cons, List.filter_append, ← ih hgs, hgroup, List.filter_cons]
      cases q g.1 <;> simp
  rw [hfilter _ (List.Subset.refl _)]
  exact (flatMap_groupRows_perm hsame).filter _
end LawfulKeys

end ChartQuery
