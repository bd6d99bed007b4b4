import TaskRelay.Proofs.Shape.Gathered

/-!
# Members as a map

A list of members says what stands under each key. If it is sorted, that is all it says:

> `Members.Increasing.ext`: members with increasing keys are the same if the same is found under
> every key.

So what is done to sorted members is known by what is found afterwards: of members that were sorted
the last one of each key (`Members.get?_sort`), and of a selection what was selected
(`Members.get?_filter`).
-/

namespace TaskRelay

namespace Members

variable {α : Type} {key k : String} {value v : α} {ms ns : List (String × α)}

/-! ## The last member counts -/

/-- Inserting members one by one keeps the last value under each name. -/
theorem get?_foldl_insert (ms sorted : List (String × α)) :
    get? key (ms.foldl (fun acc m => insert m.1 m.2 acc) sorted) =
      (valuesOf key ms).getLast?.or (get? key sorted) := by
  induction ms generalizing sorted with
  | nil => rfl
  | cons m ms ih =>
    obtain ⟨k, v⟩ := m
    rw [List.foldl_cons, ih, get?_insert]
    by_cases hk : k = key
    · subst hk
      rw [if_pos rfl, valuesOf_cons_self, List.getLast?_cons]
      cases (valuesOf k ms).getLast? <;> rfl
    · rw [if_neg (Ne.symm hk), valuesOf_cons_of_ne hk]

/-- The last member of a name is the one that counts. -/
theorem get?_sort : get? key (sort ms) = (valuesOf key ms).getLast? := by
  unfold sort
  rw [get?_foldl_insert]
  exact Option.or_none

/-! ## Sorted members -/

/-- Where each key is there once, the members are what is found. -/
theorem get?_eq_some_iff (h : Increasing ms) : get? key ms = some value ↔ (key, value) ∈ ms := by
  induction ms with
  | nil => exact ⟨fun h => (nomatch h), fun h => (nomatch h)⟩
  | cons m ms ih =>
    obtain ⟨k, v⟩ := m
    obtain ⟨hfirst, hrest⟩ := List.pairwise_cons.mp h
    rw [List.mem_cons, get?]
    by_cases hk : key = k
    · subst hk
      rw [if_pos rfl]
      constructor
      · rintro ⟨⟩
        exact .inl rfl
      · rintro (heq | hmem)
        · cases heq
          rfl
        · exact absurd (hfirst key (List.mem_map_of_mem hmem)) (String.lt_irrefl key)
    · rw [if_neg hk, ih hrest]
      refine ⟨.inr, ?_⟩
      rintro (heq | hmem)
      · exact absurd (Prod.mk.inj heq).1 hk
      · exact hmem

/-- Nothing is found under a name that no member has. -/
theorem get?_eq_none_iff : get? key ms = none ↔ ∀ m ∈ ms, m.1 ≠ key := by
  induction ms with
  | nil => simp [get?]
  | cons m ms ih =>
    obtain ⟨k, v⟩ := m
    rw [get?, List.forall_mem_cons]
    by_cases hk : key = k
    · simp [hk]
    · simp [hk, ih, Ne.symm hk]

/-- Something is found under the names of members. -/
theorem isSome_get?_iff : (get? key ms).isSome ↔ ∃ m ∈ ms, m.1 = key := by
  rw [Option.isSome_iff_ne_none, Ne, get?_eq_none_iff]
  simp

/-- A key has at most one value. -/
theorem valuesOf_of_increasing (h : Increasing ms) : valuesOf key ms = (get? key ms).toList := by
  induction ms with
  | nil => rfl
  | cons m ms ih =>
    obtain ⟨k, v⟩ := m
    obtain ⟨hfirst, hrest⟩ := List.pairwise_cons.mp h
    by_cases hk : k = key
    · subst hk
      have hnone : valuesOf k ms = [] := valuesOf_eq_nil fun m hm heq =>
        String.lt_irrefl k (hfirst k (heq ▸ List.mem_map_of_mem hm))
      rw [valuesOf_cons_self, hnone, get?, if_pos rfl]
      rfl
    · rw [valuesOf_cons_of_ne hk, get?, if_neg (Ne.symm hk), ih hrest]

theorem Increasing.filter (h : Increasing ms) (p : String × α → Bool) :
    Increasing (ms.filter p) :=
  List.Pairwise.sublist (List.filter_sublist.map _) h

/-- Leaving out members leaves the others where they are. -/
theorem get?_filter (h : Increasing ms) (p : String × α → Bool) :
    get? key (ms.filter p) = (get? key ms).filter fun v => p (key, v) := by
  ext v
  rw [get?_eq_some_iff (h.filter p), List.mem_filter, Option.filter_eq_some_iff,
    get?_eq_some_iff h]

/-- Sorted members are the same if the same is found under every key. -/
theorem Increasing.ext (hms : Increasing ms) (hns : Increasing ns)
    (h : ∀ key, get? key ms = get? key ns) : ms = ns := by
  have hnodup : ∀ {ms : List (String × α)}, Increasing ms → ms.Nodup := fun h =>
    (List.pairwise_map.mp h).imp fun hlt heq => String.ne_of_lt hlt (congrArg Prod.fst heq)
  have hperm : ms.Perm ns := (List.perm_ext_iff_of_nodup (hnodup hms) (hnodup hns)).mpr
    fun ⟨key, v⟩ => by rw [← get?_eq_some_iff hms, ← get?_eq_some_iff hns, h]
  -- keys tell members apart, so there is one way to sort them
  refine hperm.eq_of_pairwise (fun m n _ _ hmn hnm => ?_)
    (List.pairwise_map.mp hms) (List.pairwise_map.mp hns)
  exact absurd hnm (String.lt_asymm hmn)

end Members

end TaskRelay
