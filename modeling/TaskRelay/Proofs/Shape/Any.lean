import TaskRelay.Proofs.Json.Canonical
import TaskRelay.Proofs.Shape.Read
import TaskRelay.Shape.ToJson

/-!
# Lists and objects of any values

A task may take its data as it is: any values in a list, or any values under keys. Such data is
written as the trees of its values, and the readers of both shapes leave the values to the reader of
trees, with room for one container less.

> `Shape.faithful_values`, `Shape.faithful_entries`: what was written comes back if it is nested no
> deeper than the reader goes, the list or object itself included, and otherwise the nesting is
> complained about.
-/

namespace TaskRelay

/-! ## Written -/

/-- Values in a list. -/
def Json.ofValues (vs : List Value) : Json := .array (vs.map Value.tree)

/-- Values under keys. -/
def Json.ofEntries (ms : List (String × Value)) : Json := .object (ms.map fun m => (m.1, m.2.tree))

section

variable {vs : List Value} {ms : List (String × Value)}

theorem Json.sorted_ofValues (vs : List Value) : (ofValues vs).Sorted := by
  refine sortedItems_iff.mpr fun j hj => ?_
  obtain ⟨v, -, rfl⟩ := List.mem_map.mp hj
  exact v.sorted

/-- Entries in their order make an object that is in normal form. -/
theorem Json.sorted_ofEntries (hms : Members.Increasing ms) : (ofEntries ms).Sorted := by
  constructor
  · show ((ms.map fun m => (m.1, m.2.tree)).map Prod.fst).Pairwise (· < ·)
    rw [List.map_map]
    exact hms
  · refine sortedMembers_iff.mpr fun m hm => ?_
    obtain ⟨entry, -, rfl⟩ := List.mem_map.mp hm
    exact entry.2.sorted

/-- Values as data are their trees. -/
theorem ToJson.items_value (vs : List Value) :
    ToJson.items Shape.value.toJson vs = .ok (vs.map Value.tree) := by
  induction vs with
  | nil => rfl
  | cons v vs ih =>
    show (ToJson.items Shape.value.toJson vs).map (v.tree :: ·) = _
    rw [ih]
    rfl

theorem ToJson.members_value (ms : List (String × Value)) :
    ToJson.members Shape.value.toJson ms = .ok (ms.map fun m => (m.1, m.2.tree)) := by
  induction ms with
  | nil => rfl
  | cons m ms ih =>
    show (ToJson.members Shape.value.toJson ms).map ((m.1, m.2.tree) :: ·) = _
    rw [ih]
    rfl

/-- Values in a list are a value. -/
theorem Shape.toValue_values (vs : List Value) :
    (Shape.list .value).toValue vs = .ok ⟨.ofValues vs, Json.sorted_ofValues vs⟩ := by
  show ((ToJson.items Shape.value.toJson vs).map Json.array).map Value.ofJson = _
  rw [ToJson.items_value]
  exact congrArg Except.ok (Value.ofJson_tree ⟨.ofValues vs, Json.sorted_ofValues vs⟩)

/-- Values under increasing keys are a value. -/
theorem Shape.toValue_entries (hms : Members.Increasing ms) :
    (Shape.dict .value).toValue ms = .ok ⟨.ofEntries ms, Json.sorted_ofEntries hms⟩ := by
  show ((ToJson.members Shape.value.toJson ms).map Json.object).map Value.ofJson = _
  rw [ToJson.members_value]
  exact congrArg Except.ok (Value.ofJson_tree ⟨.ofEntries ms, Json.sorted_ofEntries hms⟩)

end

/-! ## Read -/

namespace Shape

variable {limit : Nat} {rest : List Char} {v : Value} {vs : List Value} {ms : List (String × Value)}

/-- A value within the limit comes back. -/
theorem reads_value (hd : v.tree.DoubleFree) (hdepth : v.tree.depth ≤ limit)
    (hrest : Follows rest) : Reads (Shape.value.read limit) (v.tree.write rest) v rest := by
  have hread := ((Json.faithful_read limit v.tree rest hd hrest).1 hdepth).map (f := Value.ofJson)
  rw [Value.ofJson_tree] at hread
  exact hread

/-- A deeper one is refused for it. -/
theorem refuses_value (hd : v.tree.DoubleFree) (hdepth : limit < v.tree.depth)
    (hrest : Follows rest) :
    Refuses (Shape.value.read limit) (v.tree.write rest) .nestedTooDeeply :=
  ((Json.faithful_read limit v.tree rest hd hrest).2 hdepth).map

/-! ### In a list -/

/-- So it is with lists of values. -/
theorem takesItems_values (hd : Json.DoubleFreeItems (vs.map Value.tree))
    (hdepth : Json.depthItems (vs.map Value.tree) ≤ limit) :
    TakesItems (Shape.value.read limit) (vs.map Value.tree) vs := by
  induction vs with
  | nil => exact .nil
  | cons v vs ih =>
    obtain ⟨hv, hvs⟩ := hd
    simp only [List.map_cons, Json.depthItems, Nat.max_le] at hdepth
    exact .cons hv (fun rest hrest => reads_value hv hdepth.1 hrest) (ih hvs hdepth.2)

/-- A list of any values comes back, or is nested too deeply. -/
theorem faithful_values (limit : Nat) (rest : List Char) (hd : (Json.ofValues vs).DoubleFree) :
    ((Json.ofValues vs).depth ≤ limit →
      Reads ((Shape.list .value).read limit) ((Json.ofValues vs).write rest) vs rest) ∧
    (limit < (Json.ofValues vs).depth →
      Refuses ((Shape.list .value).read limit) ((Json.ofValues vs).write rest)
        .nestedTooDeeply) := by
  cases limit with
  | zero =>
    obtain ⟨text, htext⟩ := Json.write_array (vs.map Value.tree) rest
    refine ⟨fun h => absurd h (Nat.not_succ_le_zero _), fun _ => ?_⟩
    rw [Json.ofValues, htext]
    exact fun p => ⟨_, rfl⟩
  | succ limit =>
    refine ⟨fun hdepth => reads_list (takesItems_values hd (Nat.le_of_succ_le_succ hdepth)),
      fun hdepth => ?_⟩
    -- reading stops at the first item that is too deep; what stands in front of it is read
    obtain ⟨before, j, after, hsplit, hbefore, hj⟩ :=
      Json.exists_deep_item (Nat.lt_of_succ_lt_succ hdepth)
    obtain ⟨us, ws, rfl, rfl, htail⟩ := List.map_eq_append_iff.mp hsplit
    obtain ⟨w, ws, rfl, rfl, rfl⟩ := List.map_eq_cons_iff.mp htail
    rw [Json.ofValues, hsplit] at hd ⊢
    obtain ⟨hdbefore, hdw, -⟩ := Json.doubleFreeItems_append.mp hd
    obtain ⟨text, htext, hread⟩ := (takesItems_values hdbefore hbefore).exists_text_refuses hdw
      (fun rest hrest => refuses_value hdw hj hrest) (ws.map Value.tree) rest
    rw [htext]
    exact fun p => hread.inList p

/-! ### Under keys -/

/-- Reads one entry behind its key and keeps the entries in order. -/
def takeEntry (limit : Nat) (done : List (String × Value)) (key : String) (c : Cursor) :
    Reading (List (String × Value)) :=
  c.colon.andThen fun _ c =>
    (Shape.value.read limit c).map fun v => Members.insert key v done

/-- And with entries, of which the last one under a key counts. -/
theorem takes_entries (done : List (String × Value))
    (hd : Json.DoubleFreeMembers (ms.map fun m => (m.1, m.2.tree)))
    (hdepth : Json.depthMembers (ms.map fun m => (m.1, m.2.tree)) ≤ limit) :
    Takes (takeEntry limit) done (ms.map fun m => (m.1, m.2.tree))
      (ms.foldl (fun acc m => Members.insert m.1 m.2 acc) done) := by
  induction ms generalizing done with
  | nil => exact .nil
  | cons m ms ih =>
    obtain ⟨hm, hms⟩ := hd
    simp only [List.map_cons, Json.depthMembers, Nat.max_le] at hdepth
    refine .cons (fun rest hrest => ?_) (ih (Members.insert m.1 m.2 done) hms hdepth.2)
    exact Cursor.colon_cons.andThen (reads_value hm hdepth.1 hrest).map

/-- An object of any values comes back, or is nested too deeply. -/
theorem faithful_entries (limit : Nat) (rest : List Char) (hms : Members.Increasing ms)
    (hd : (Json.ofEntries ms).DoubleFree) :
    ((Json.ofEntries ms).depth ≤ limit →
      Reads ((Shape.dict .value).read limit) ((Json.ofEntries ms).write rest) ms rest) ∧
    (limit < (Json.ofEntries ms).depth →
      Refuses ((Shape.dict .value).read limit) ((Json.ofEntries ms).write rest)
        .nestedTooDeeply) := by
  -- without a level to spare no object is opened at all
  cases limit with
  | zero =>
    obtain ⟨text, htext⟩ := Json.write_object (ms.map fun m => (m.1, m.2.tree)) rest
    refine ⟨fun h => absurd h (Nat.not_succ_le_zero _), fun _ => ?_⟩
    rw [Json.ofEntries, htext]
    exact fun p => ⟨_, rfl⟩
  | succ limit =>
    refine ⟨fun hdepth => ?_, fun hdepth => ?_⟩
    · have htakes := takes_entries [] hd (Nat.le_of_succ_le_succ hdepth)
      rw [Members.foldl_insert_of_increasing [] hms] at htakes
      obtain ⟨text, htext, hread⟩ := htakes.exists_text rest
      rw [Json.ofEntries, htext]
      exact fun p => hread.inObject p
    -- the members in front of the first one that is too deep are taken, and that one is refused
    · obtain ⟨before, key, j, after, hsplit, hbefore, hj⟩ :=
        Json.exists_deep_member (Nat.lt_of_succ_lt_succ hdepth)
      obtain ⟨us, ws, rfl, rfl, htail⟩ := List.map_eq_append_iff.mp hsplit
      obtain ⟨w, ws, rfl, hw, rfl⟩ := List.map_eq_cons_iff.mp htail
      obtain ⟨rfl, rfl⟩ := Prod.mk.inj hw
      rw [Json.ofEntries, hsplit] at hd ⊢
      obtain ⟨hdbefore, hdw, -⟩ := Json.doubleFreeMembers_append.mp hd
      obtain ⟨text, htext, hread⟩ := (takes_entries [] hdbefore hbefore).exists_text_refuses
        (fun rest hrest => Cursor.colon_cons.refuses_andThen (refuses_value hdw hj hrest).map)
        (ws.map fun m => (m.1, m.2.tree)) rest
      rw [htext]
      exact fun p => hread.inObject p

/-! ### Whole texts -/

/-- A list of any values comes back from its text. -/
theorem parse_values (hd : (Json.ofValues vs).DoubleFree)
    (hdepth : (Json.ofValues vs).depth ≤ Json.depthLimit) :
    (Shape.list .value).parse (Json.ofValues vs).compact = .ok vs := by
  refine Reads.readAll ?_
  rw [Json.toList_compact]
  exact (faithful_values Json.depthLimit [] hd).1 hdepth

/-- It is refused if it is nested too deeply. -/
theorem parse_values_tooDeep (hd : (Json.ofValues vs).DoubleFree)
    (hdepth : Json.depthLimit < (Json.ofValues vs).depth) :
    ∃ p, (Shape.list .value).parse (Json.ofValues vs).compact =
      .error ⟨.malformed .nestedTooDeeply, some p⟩ := by
  refine Refuses.readAll ?_
  rw [Json.toList_compact]
  exact (faithful_values Json.depthLimit [] hd).2 hdepth

/-- Any entries come back from their text. -/
theorem parse_entries (hms : Members.Increasing ms) (hd : (Json.ofEntries ms).DoubleFree)
    (hdepth : (Json.ofEntries ms).depth ≤ Json.depthLimit) :
    (Shape.dict .value).parse (Json.ofEntries ms).compact = .ok ms := by
  refine Reads.readAll ?_
  rw [Json.toList_compact]
  exact (faithful_entries Json.depthLimit [] hms hd).1 hdepth

/-- They are refused if they are nested too deeply. -/
theorem parse_entries_tooDeep (hms : Members.Increasing ms) (hd : (Json.ofEntries ms).DoubleFree)
    (hdepth : Json.depthLimit < (Json.ofEntries ms).depth) :
    ∃ p, (Shape.dict .value).parse (Json.ofEntries ms).compact =
      .error ⟨.malformed .nestedTooDeeply, some p⟩ := by
  refine Refuses.readAll ?_
  rw [Json.toList_compact]
  exact (faithful_entries Json.depthLimit [] hms hd).2 hdepth

end Shape

end TaskRelay
