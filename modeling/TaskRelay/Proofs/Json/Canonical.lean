import TaskRelay.Json.Basic

/-!
# The canonical form is canonical

`Json.canonical` sorts the members of every object. What is sorted already, it leaves alone:

> `Json.canonical_of_sorted`: a tree that is sorted at every level is its own canonical form.

So a value is the value of its own tree (`Value.ofJson_tree`).
-/

namespace TaskRelay

namespace Members

variable {α : Type} {key : String} {value : α} {ms : List (String × α)}

/-- A key greater than all others is inserted at the end. -/
theorem insert_of_gt (h : ∀ k ∈ ms.map Prod.fst, k < key) :
    insert key value ms = ms ++ [(key, value)] := by
  induction ms with
  | nil => rfl
  | cons m ms ih =>
    obtain ⟨k, v⟩ := m
    have hk : k < key := h k (by simp)
    have hne : key ≠ k := fun he => by rw [he] at hk; exact String.lt_irrefl k hk
    have hrest := ih fun x hx => h x (by simp only [List.map_cons, List.mem_cons, hx, or_true])
    rw [insert, if_neg (String.lt_asymm hk), if_neg hne, hrest]
    rfl

/-- Members are put behind smaller ones as they come. -/
theorem foldl_insert_of_increasing (sorted : List (String × α)) (h : Increasing (sorted ++ ms)) :
    ms.foldl (fun acc m => insert m.1 m.2 acc) sorted = sorted ++ ms := by
  induction ms generalizing sorted with
  | nil => simp
  | cons m ms ih =>
    have hgt : ∀ k ∈ sorted.map Prod.fst, k < m.1 := fun k hk => by
      unfold Increasing at h
      rw [List.map_append, List.pairwise_append] at h
      exact h.2.2 k hk m.1 (by simp)
    rw [List.foldl_cons, insert_of_gt hgt]
    have hmore : Increasing ((sorted ++ [m]) ++ ms) := by simpa using h
    rw [ih (sorted ++ [m]) hmore]
    simp

/-- Members in their order are sorted already. -/
theorem sort_of_increasing (h : Increasing ms) : sort ms = ms :=
  foldl_insert_of_increasing [] h

end Members

namespace Json

mutual

/-- A tree whose members are in order is its own normal form. -/
theorem canonical_of_sorted : {j : Json} → j.Sorted → j.canonical = j
  | .array items, h => by rw [canonical, canonicalItems_of_sorted h]
  | .object members, h => by
    rw [canonical, canonicalMembers_of_sorted h.2, Members.sort_of_increasing h.1]
  | .null, _ | .bool _, _ | .number _, _ | .string _, _ => by rw [canonical]

theorem canonicalItems_of_sorted :
    {items : List Json} → SortedItems items → canonicalItems items = items
  | [], _ => rfl
  | j :: items, h => by
    rw [canonicalItems, canonical_of_sorted h.1, canonicalItems_of_sorted h.2]

theorem canonicalMembers_of_sorted :
    {members : List (String × Json)} → SortedMembers members → canonicalMembers members = members
  | [], _ => rfl
  | (key, j) :: members, h => by
    rw [canonicalMembers, canonical_of_sorted h.1, canonicalMembers_of_sorted h.2]

end

end Json

/-- A value is what its tree stands for. -/
theorem Value.ofJson_tree (v : Value) : Value.ofJson v.tree = v :=
  Value.ext (Json.canonical_of_sorted v.sorted)

end TaskRelay
