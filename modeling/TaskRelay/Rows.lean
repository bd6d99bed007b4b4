/-!
# Rows with keys

A short list of rows, each under a key, in the order in which they were added.

> `Rows.get?_set`: after a row was set, its key finds the new row and every other key what it
> found before.

> `Rows.countP_set`, `Rows.countP_erase`: counting rows, a change of one row changes the count by
> that row alone.
-/

namespace TaskRelay

/-- Rows under keys. -/
abbrev Rows (κ α : Type) := List (κ × α)

namespace Rows

variable {κ α : Type} [DecidableEq κ]

/-- The first row of a key. -/
def get? (key : κ) : Rows κ α → Option α
  | [] => none
  | (k, a) :: rest => if k = key then some a else get? key rest

/-- Replaces the first row of a key; changes nothing if there is none. -/
def set (key : κ) (a : α) : Rows κ α → Rows κ α
  | [] => []
  | (k, b) :: rest => if k = key then (k, a) :: rest else (k, b) :: set key a rest

/-- Removes the first row of a key. -/
def erase (key : κ) : Rows κ α → Rows κ α
  | [] => []
  | (k, b) :: rest => if k = key then rest else (k, b) :: erase key rest

theorem get?_set {key k : κ} {a : α} {rows : Rows κ α} :
    get? k (set key a rows) = if k = key then (get? k rows).map fun _ => a else get? k rows := by
  induction rows with
  | nil => simp [set, get?]
  | cons row rest ih => grind [set, get?]

theorem keys_set {key : κ} {a : α} {rows : Rows κ α} :
    (set key a rows).map Prod.fst = rows.map Prod.fst := by
  induction rows with
  | nil => rfl
  | cons row rest ih => grind [set]

theorem length_set {key : κ} {a : α} {rows : Rows κ α} : (set key a rows).length = rows.length := by
  rw [← List.length_map (f := Prod.fst), keys_set, List.length_map]

theorem get?_append {key k : κ} {a : α} {rows : Rows κ α} :
    get? k (rows ++ [(key, a)]) = (get? k rows).or (if key = k then some a else none) := by
  induction rows with
  | nil => simp [get?]
  | cons row rest ih => grind [get?]

theorem get?_eq_none {key : κ} {rows : Rows κ α} :
    get? key rows = none ↔ key ∉ rows.map Prod.fst := by
  induction rows with
  | nil => simp [get?]
  | cons row rest ih => grind [get?]

theorem mem_of_get? {key : κ} {a : α} {rows : Rows κ α} (h : get? key rows = some a) :
    (key, a) ∈ rows := by
  induction rows with
  | nil => simp [get?] at h
  | cons row rest ih => grind [get?]

/-- Where no key has two rows, a row is found. -/
theorem get?_of_mem {key : κ} {a : α} {rows : Rows κ α} (h : (rows.map Prod.fst).Nodup)
    (hmem : (key, a) ∈ rows) : get? key rows = some a := by
  induction rows with
  | nil => cases hmem
  | cons row rest ih =>
    obtain ⟨hrow, hrest⟩ := List.nodup_cons.mp h
    rcases List.mem_cons.mp hmem with heq | hmem
    · cases heq
      simp [get?]
    · have hne : row.1 ≠ key := fun he => hrow (he ▸ List.mem_map_of_mem hmem)
      simp only [get?, hne, if_false]
      exact ih hrest hmem

/-- Where no key has two rows, an erased key finds nothing. -/
theorem get?_erase {key k : κ} {rows : Rows κ α} (h : (rows.map Prod.fst).Nodup) :
    get? k (erase key rows) = if k = key then none else get? k rows := by
  induction rows with
  | nil => simp [erase, get?]
  | cons row rest ih =>
    have hrest := List.nodup_cons.mp h
    have hnone := get?_eq_none.mpr hrest.1
    grind [erase, get?]

theorem keys_erase {key : κ} {rows : Rows κ α} :
    (erase key rows).map Prod.fst = (rows.map Prod.fst).erase key := by
  induction rows with
  | nil => rfl
  | cons row rest ih =>
    rw [List.map_cons, List.erase_cons]
    unfold erase
    by_cases hk : row.1 = key
    · simp [hk]
    · simp [hk, ih]

theorem keys_erase_sublist {key : κ} {rows : Rows κ α} :
    ((erase key rows).map Prod.fst).Sublist (rows.map Prod.fst) := by
  rw [keys_erase]
  exact List.erase_sublist

/-! ### Rows in any order -/

theorem perm_set {key : κ} {a b : α} {rows : Rows κ α} (h : get? key rows = some b) :
    ((key, b) :: set key a rows).Perm ((key, a) :: rows) := by
  induction rows with
  | nil => cases h
  | cons row rest ih =>
    obtain ⟨k, c⟩ := row
    by_cases hk : k = key
    · subst hk
      simp only [get?, if_true, Option.some.injEq] at h
      subst h
      simp only [set, if_true]
      exact .swap ..
    · simp only [get?, hk, if_false] at h
      simp only [set, hk, if_false]
      exact (List.Perm.swap ..).trans (((ih h).cons _).trans (.swap ..))

theorem perm_erase {key : κ} {b : α} {rows : Rows κ α} (h : get? key rows = some b) :
    ((key, b) :: erase key rows).Perm rows := by
  induction rows with
  | nil => cases h
  | cons row rest ih =>
    obtain ⟨k, c⟩ := row
    by_cases hk : k = key
    · subst hk
      simp only [get?, if_true, Option.some.injEq] at h
      subst h
      simp only [erase, if_true]
      exact .refl _
    · simp only [get?, hk, if_false] at h
      simp only [erase, hk, if_false]
      exact (List.Perm.swap ..).trans ((ih h).cons _)

theorem mem_set {key : κ} {a b : α} {row : κ × α} {rows : Rows κ α}
    (h : get? key rows = some b) (hrow : row ∈ set key a rows) : row = (key, a) ∨ row ∈ rows :=
  List.mem_cons.mp ((perm_set h).subset (List.mem_cons_of_mem _ hrow))

theorem mem_erase {key : κ} {b : α} {row : κ × α} {rows : Rows κ α}
    (h : get? key rows = some b) (hrow : row ∈ erase key rows) : row ∈ rows :=
  (perm_erase h).subset (List.mem_cons_of_mem _ hrow)

/-! ### Counting -/

theorem countP_set {key : κ} {a b : α} {f : κ × α → Bool} {rows : Rows κ α}
    (h : get? key rows = some b) :
    (set key a rows).countP f + (if f (key, b) then 1 else 0) =
      rows.countP f + (if f (key, a) then 1 else 0) := by
  have hcount := (perm_set (a := a) h).countP_eq f
  rwa [List.countP_cons, List.countP_cons] at hcount

theorem countP_erase {key : κ} {b : α} {f : κ × α → Bool} {rows : Rows κ α}
    (h : get? key rows = some b) :
    (erase key rows).countP f + (if f (key, b) then 1 else 0) = rows.countP f := by
  have hcount := (perm_erase h).countP_eq f
  rwa [List.countP_cons] at hcount

theorem countP_set_eq {key : κ} {a b : α} {f : κ × α → Bool} {rows : Rows κ α}
    (h : get? key rows = some b) (hsame : f (key, a) = f (key, b)) :
    (set key a rows).countP f = rows.countP f := by
  have hcount := countP_set (a := a) (f := f) h
  rw [hsame] at hcount
  exact Nat.add_right_cancel hcount

theorem countP_erase_eq {key : κ} {b : α} {f : κ × α → Bool} {rows : Rows κ α}
    (h : get? key rows = some b) (hnone : f (key, b) = false) :
    (erase key rows).countP f = rows.countP f := by
  have hcount := countP_erase (f := f) h
  rw [hnone] at hcount
  exact hcount

theorem countP_set_gain {key : κ} {a b : α} {f : κ × α → Bool} {rows : Rows κ α}
    (h : get? key rows = some b) (hb : f (key, b) = false) (ha : f (key, a) = true) :
    (set key a rows).countP f = rows.countP f + 1 := by
  have hcount := countP_set (a := a) (f := f) h
  rw [hb, ha] at hcount
  exact hcount

theorem countP_set_loss {key : κ} {a b : α} {f : κ × α → Bool} {rows : Rows κ α}
    (h : get? key rows = some b) (hb : f (key, b) = true) (ha : f (key, a) = false) :
    (set key a rows).countP f + 1 = rows.countP f := by
  have hcount := countP_set (a := a) (f := f) h
  rw [hb, ha] at hcount
  exact hcount

theorem countP_erase_loss {key : κ} {b : α} {f : κ × α → Bool} {rows : Rows κ α}
    (h : get? key rows = some b) (hb : f (key, b) = true) :
    (erase key rows).countP f + 1 = rows.countP f := by
  have hcount := countP_erase (f := f) h
  rw [hb] at hcount
  exact hcount

/-- Where no key has two rows, at most one row of a key counts. -/
theorem countP_key (key : κ) {f : α → Bool} {rows : Rows κ α} (h : (rows.map Prod.fst).Nodup) :
    rows.countP (fun row => row.1 = key && f row.2) = if (get? key rows).any f then 1 else 0 := by
  induction rows with
  | nil => simp [get?]
  | cons row rest ih =>
    obtain ⟨k, b⟩ := row
    have hrest := List.nodup_cons.mp h
    have hnone := get?_eq_none.mpr hrest.1
    by_cases hk : k = key
    · subst hk
      rw [List.countP_cons, ih hrest.2, hnone]
      simp [get?]
    · rw [List.countP_cons, ih hrest.2]
      simp [get?, hk]

end Rows

end TaskRelay
