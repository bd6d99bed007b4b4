import TaskRelay.Proofs.Members
import TaskRelay.Proofs.Shape.Read

/-!
# Optional data

A field with optional data may be left out, may be null, and may hold data. What is found under its
name says which data that is (`Means`), whatever the data looks like:

> `Field.pick_option_eq_some_iff`: an optional field takes what is meant, and refuses whatever
> means nothing.

> `exists_means_iff`: of sorted members, a key means something unless it holds what is neither null
> nor data.
-/

namespace TaskRelay

/-- Whether there is nothing but a null. -/
def Json.isNull : Json → Bool
  | .null => true
  | _ => false

theorem Json.isNull_iff {j : Json} : j.isNull = true ↔ j = .null := by
  cases j <;> simp [isNull]

/-- What is found, unless it is a null. -/
def Json.dropNull (found : Option Json) : Option Json := found.filter fun j => !j.isNull

theorem Json.dropNull_some {j : Json} (h : j.isNull = false) : dropNull (some j) = some j := by
  simp [dropNull, h]

/-- A selection that passes over nothing but nulls leaves everything else where it was. -/
theorem Members.dropNull_get?_filter {key : String} {ms : List (String × Json)}
    (h : Increasing ms) {keep : String × Json → Bool}
    (hkeep : ∀ m ∈ ms, keep m = false → m.2 = .null) :
    Json.dropNull (get? key (ms.filter keep)) = Json.dropNull (get? key ms) := by
  rw [get?_filter h]
  cases hfound : get? key ms with
  | none => rfl
  | some j =>
    cases hj : keep (key, j) with
    | true => rw [Option.filter_some, hj, if_pos rfl]
    | false =>
      obtain rfl : j = .null := hkeep _ ((get?_eq_some_iff h).mp hfound) hj
      rw [Option.filter_some, hj]
      rfl

/-! ## What is meant -/

/-- The optional data that is meant by what is found under a name; nothing and null mean none. -/
inductive Means {α : Type} (toJson : α → Json) : Option Json → Option α → Prop
  | absent : Means toJson none none
  | null : Means toJson (some .null) none
  | value (a : α) : Means toJson (some (toJson a)) (some a)

section

variable {α : Type} {toJson : α → Json} {found : Option Json} {v : Option α} {key : String}
  {ms : List (String × Json)}

/-- Data means itself. -/
theorem means_map (v : Option α) : Means toJson (v.map toJson) v := by
  cases v with
  | none => exact .absent
  | some a => exact .value a

/-- What is meant is what is found, unless that is a null. -/
theorem means_iff (hnull : ∀ a, (toJson a).isNull = false) :
    Means toJson found v ↔ Json.dropNull found = v.map toJson := by
  constructor
  · intro h
    cases h with
    | absent | null => rfl
    | value a => exact Json.dropNull_some (hnull a)
  · intro h
    match found with
    | none =>
      rw [Option.map_eq_none_iff.mp h.symm]
      exact .absent
    | some j =>
      cases hj : j.isNull with
      | true =>
        obtain rfl := Json.isNull_iff.mp hj
        rw [Option.map_eq_none_iff.mp h.symm]
        exact .null
      | false =>
        rw [Json.dropNull_some hj] at h
        obtain ⟨a, rfl, rfl⟩ := Option.map_eq_some_iff.mp h.symm
        exact .value a

/-- Nulls that are passed over change nothing about what is meant. -/
theorem means_filter_iff (hnull : ∀ a, (toJson a).isNull = false) (h : Members.Increasing ms)
    {keep : String × Json → Bool} (hkeep : ∀ m ∈ ms, keep m = false → m.2 = .null) :
    Means toJson (Members.get? key (ms.filter keep)) v ↔
      Means toJson (Members.get? key ms) v := by
  rw [means_iff hnull, means_iff hnull, Members.dropNull_get?_filter h hkeep]

/-- An optional entry is absent, null or a value. -/
theorem exists_means_iff (h : Members.Increasing ms) :
    (∃ v, Means toJson (Members.get? key ms) v) ↔
      ∀ j, (key, j) ∈ ms → j = .null ∨ ∃ a, j = toJson a := by
  constructor
  · rintro ⟨v, hv⟩ j hmem
    rw [(Members.get?_eq_some_iff h).mpr hmem] at hv
    cases hv with
    | null => exact .inl rfl
    | value a => exact .inr ⟨a, rfl⟩
  · intro hall
    cases hfound : Members.get? key ms with
    | none => exact ⟨none, .absent⟩
    | some j =>
      obtain rfl | ⟨a, rfl⟩ := hall j ((Members.get?_eq_some_iff h).mp hfound)
      · exact ⟨none, .null⟩
      · exact ⟨some a, .value a⟩

end

/-! ## What is taken -/

/-- A number within its range stays the same. -/
theorem Ranged.whole_of_ofInt? {k : IntKind} {n : Whole} {r : Ranged k}
    (h : ofInt? k n.val = some r) : r.whole = n := by
  unfold ofInt? at h
  split at h
  · cases h
    rfl
  · cases h

namespace Shape

variable {o : Origin} {j : Json}

/-- Only a string is a text. -/
theorem ofJson_text_eq_ok_iff {s : String} : Shape.text.ofJson o j = .ok s ↔ j = .string s := by
  cases j with
  | string t =>
    show Except.ok t = Except.ok s ↔ _
    simp
  | null | bool _ | number _ | array _ | object _ =>
    exact ⟨fun h => (nomatch h), fun h => (nomatch h)⟩

/-- Only a truth value is one. -/
theorem ofJson_bool_eq_ok_iff {b : Bool} : Shape.bool.ofJson o j = .ok b ↔ j = .bool b := by
  cases j with
  | bool c =>
    show Except.ok c = Except.ok b ↔ _
    simp
  | null | string _ | number _ | array _ | object _ =>
    exact ⟨fun h => (nomatch h), fun h => (nomatch h)⟩

/-- A number out of range is refused. -/
theorem ofJson_int_of_none {k : IntKind} {n : Whole} (h : Ranged.ofInt? k n.val = none) :
    (Shape.int k).ofJson o (.number (.whole n)) =
      .error (.invalidValue (.number (.whole n)) k.name) := by
  conv => lhs; whnf
  rw [h]

/-- Only a whole number within its range is one. -/
theorem ofJson_int_eq_ok_iff {k : IntKind} {r : Ranged k} :
    (Shape.int k).ofJson o j = .ok r ↔ j = r.toJson := by
  constructor
  · intro h
    cases j with
    | number n =>
      cases n with
      | whole n =>
        cases hr : Ranged.ofInt? k n.val with
        | none =>
          rw [ofJson_int_of_none hr] at h
          cases h
        | some r' =>
          rw [ofJson_int hr] at h
          cases h
          rw [Ranged.toJson, Ranged.whole_of_ofInt? hr]
      | double => cases h
    | null | bool | string | array | object => cases h
  · rintro rfl
    exact ofJson_int r.ofInt?_val

end Shape

/-- Optional data is taken from whatever is not null as the data itself. -/
theorem Shape.toOption_ofJson_option {o : Origin} {s : Shape} {j : Json} (h : j ≠ .null) :
    ((Shape.option s).ofJson o j).toOption = (s.ofJson o j).toOption.map some := by
  have heq : (Shape.option s).ofJson o j = (s.ofJson o j).map some := by
    cases j with
    | null => exact absurd rfl h
    | bool _ | number _ | string _ | array _ | object _ => rfl
  rw [heq]
  cases s.ofJson o j <;> rfl

/-- An optional field takes what is meant by what is found under its name. -/
theorem Field.pick_option_eq_some_iff {o : Origin} {f : Field} {s : Shape}
    {toJson : s.Carrier → Json} (hread : ∀ j a, s.ofJson o j = .ok a ↔ j = toJson a)
    (hnull : ∀ a, (toJson a).isNull = false) {found : Option Json} {v : Option s.Carrier} :
    f.pick o (.option s) found.toList = some v ↔ Means toJson found v := by
  -- nothing, a null and a value are the three things that can be found
  cases found with
  | none =>
    show some none = some v ↔ _
    constructor
    · rintro ⟨⟩
      exact .absent
    · intro h
      cases h
      rfl
  | some j =>
    show ((Shape.option s).ofJson o j).toOption = some v ↔ _
    by_cases hj : j = .null
    · subst hj
      show some none = some v ↔ _
      constructor
      · rintro ⟨⟩
        exact .null
      · intro h
        have hnone : none = v.map toJson := (means_iff hnull).mp h
        rw [Option.map_eq_none_iff.mp hnone.symm]
    · rw [Shape.toOption_ofJson_option hj]
      refine Option.map_eq_some_iff.trans ?_
      constructor
      · rintro ⟨a, ha, rfl⟩
        rw [(hread j a).mp (toOption_eq_some_iff.mp ha)]
        exact .value a
      · intro h
        cases h with
        | null => exact absurd rfl hj
        | value a => exact ⟨a, toOption_eq_some_iff.mpr ((hread _ a).mpr rfl), rfl⟩

/-- An optional field of one name that is no other field's takes what is meant under it. -/
theorem Fields.collect_option_cons_iff {o : Origin} {name : String} {s : Shape} {rest : Fields}
    {toJson : s.Carrier → Json} (hread : ∀ j a, s.ofJson o j = .ok a ↔ j = toJson a)
    (hnull : ∀ a, (toJson a).isNull = false) (hrest : rest.answersTo name = false)
    {ms : List (String × Json)} (h : Members.Increasing ms) {v : Option s.Carrier}
    {vs : rest.Carrier} :
    (Fields.cons (.blankable name) (.option s) rest).collect o ms = some (v, vs) ↔
      Means toJson (Members.get? name ms) v ∧ rest.collect o ms = some vs := by
  refine (collect_cons_eq_some_iff rfl hrest).trans (and_congr_left' ?_)
  show (Field.blankable name).pick o (.option s) (Members.valuesOf name ms) = some v ↔ _
  rw [Members.valuesOf_of_increasing h]
  exact Field.pick_option_eq_some_iff hread hnull

end TaskRelay
