import TaskRelay.Proofs.Json.Beside

/-!
# How deep a text goes

A reader may open only so many containers at once, so what it returns is nested no more deeply:

> `Json.depth_le_of_read`: the tree of a text.

> `Tagged.depth_le_of_read`: what is buffered with a tag.

Sorting members and dropping repeated ones does not open any (`Json.depth_canonical_le`), so a value
that came out of a text is never nested more deeply than the text.
-/

namespace TaskRelay

namespace Json

open Reading (items entries)

variable {limit : Nat} {c c' : Cursor} {j : Json}

/-! ## Items and members -/

/-- A list is nested no deeper than its items. -/
theorem depthItems_le {bound : Nat} {js : List Json} (h : ∀ j ∈ js, j.depth ≤ bound) :
    depthItems js ≤ bound := by
  induction js with
  | nil => exact Nat.zero_le _
  | cons j js ih =>
    exact Nat.max_le.mpr ⟨h j List.mem_cons_self, ih fun k hk => h k (List.mem_cons_of_mem _ hk)⟩

/-- An object is nested no deeper than its members. -/
theorem depthMembers_le {bound : Nat} {ms : List (String × Json)}
    (h : ∀ m ∈ ms, m.2.depth ≤ bound) : depthMembers ms ≤ bound := by
  induction ms with
  | nil => exact Nat.zero_le _
  | cons m ms ih =>
    exact Nat.max_le.mpr ⟨h m List.mem_cons_self, ih fun n hn => h n (List.mem_cons_of_mem _ hn)⟩

theorem depth_le_of_isScalar {bound : Nat} (h : Scalar.IsScalar j) : j.depth ≤ bound := by
  cases j with
  | array js => exact h.elim
  | object ms => exact h.elim
  | null | bool _ | number _ | string _ => exact Nat.zero_le _

/-- No member is nested deeper than all of them. -/
theorem depth_le_depthMembers {ms : List (String × Json)} {m : String × Json} (h : m ∈ ms) :
    m.2.depth ≤ depthMembers ms := by
  induction ms with
  | nil => cases h
  | cons n ms ih =>
    obtain ⟨k, j⟩ := n
    rw [depthMembers]
    rcases List.mem_cons.mp h with rfl | h
    · exact Nat.le_max_left ..
    · exact Nat.le_trans (ih h) (Nat.le_max_right ..)

/-- No item is nested deeper than all of them. -/
theorem depth_le_depthItems {js : List Json} {j : Json} (h : j ∈ js) : j.depth ≤ depthItems js := by
  induction js with
  | nil => cases h
  | cons k js ih =>
    rw [depthItems]
    rcases List.mem_cons.mp h with rfl | h
    · exact Nat.le_max_left ..
    · exact Nat.le_trans (ih h) (Nat.le_max_right ..)

mutual

/-- Sorting members and dropping repeated ones opens no new containers. -/
theorem depth_canonical_le : (j : Json) → j.canonical.depth ≤ j.depth
  | .array items => by
    rw [canonical, depth, depth]
    exact Nat.succ_le_succ (depthItems_canonicalItems_le items)
  | .object members => by
    rw [canonical, depth, depth]
    refine Nat.succ_le_succ (Nat.le_trans ?_ (depthMembers_canonicalMembers_le members))
    exact depthMembers_le fun m hm => depth_le_depthMembers (Members.mem_of_mem_sort hm)
  | .null | .bool _ | .number _ | .string _ => by simp only [canonical, Nat.le_refl]

theorem depthItems_canonicalItems_le :
    (js : List Json) → depthItems (canonicalItems js) ≤ depthItems js
  | [] => Nat.le_refl _
  | j :: js => by
    rw [canonicalItems, depthItems, depthItems]
    have hj := depth_canonical_le j
    have hjs := depthItems_canonicalItems_le js
    omega

theorem depthMembers_canonicalMembers_le :
    (ms : List (String × Json)) → depthMembers (canonicalMembers ms) ≤ depthMembers ms
  | [] => Nat.le_refl _
  | (_, j) :: ms => by
    rw [canonicalMembers, depthMembers, depthMembers]
    have hj := depth_canonical_le j
    have hms := depthMembers_canonicalMembers_le ms
    omega

end

/-! ## Readers -/

/-- Keeping a member keeps a bound on what the members hold. -/
theorem depth_le_of_keepMember {bound : Nat} {value : Cursor → Reading Json} {key : String}
    {done done' : List (String × Json)}
    (hvalue : ∀ {c j c'}, value c = .ok (j, c') → j.depth ≤ bound)
    (hdone : ∀ m ∈ done, m.2.depth ≤ bound)
    (h : keepMember value done key c = .ok (done', c')) : ∀ m ∈ done', m.2.depth ≤ bound := by
  obtain ⟨c₁, j, -, hj, rfl⟩ := keepMember_eq_ok h
  exact List.forall_mem_cons.mpr ⟨hvalue hj, hdone⟩

/-- The reader of trees opens no more containers than it may. -/
theorem depth_le_of_read (h : read limit c = .ok (j, c')) : j.depth ≤ limit := by
  induction limit generalizing c c' j with
  | zero =>
    obtain ⟨_, _, _, _, hlimit, -⟩ | ⟨_, _, _, _, hlimit, -⟩ | ⟨hj, -⟩ := read_cases h
    · cases hlimit
    · cases hlimit
    · exact depth_le_of_isScalar hj
  | succ limit ih =>
    obtain ⟨_, js, _, _, hlimit, rfl, -, hitems, -⟩ |
      ⟨_, ms, _, _, hlimit, rfl, -, hentries, -⟩ | ⟨hj, -⟩ := read_cases h
    · cases hlimit
      refine Nat.succ_le_succ (depthItems_le ?_)
      exact Reading.forall_of_itemsFrom (fun c j c' => ih) hitems (by simp)
    · cases hlimit
      refine Nat.succ_le_succ (depthMembers_le fun m hm => ?_)
      exact Reading.invariant_of_entriesFrom
        (P := fun done : List (String × Json) => ∀ m ∈ done, m.2.depth ≤ limit)
        (fun done key c done' c' hdone => depth_le_of_keepMember ih hdone) hentries (by simp) m
        (List.mem_reverse.mpr hm)
    · exact depth_le_of_isScalar hj

end Json

namespace Tagged

open Reading (itemsFrom)

variable {τ : Type} {tags : Tags τ} {limit : Nat} {c c' : Cursor} {tag : τ} {j : Json}

/-- What is read between brackets is one level deeper than the limit at most. -/
theorem depth_le_of_readList (h : readList tags limit c = .ok ((tag, j), c')) :
    j.depth ≤ limit + 1 := by
  obtain ⟨more, c₁, -, h⟩ := Reading.andThen_eq_ok h
  cases more with
  | false => cases h
  | true =>
    obtain ⟨found, c₂, -, h⟩ := Reading.andThen_eq_ok h
    obtain ⟨rest, hrest, heq⟩ := Reading.map_eq_ok h
    cases heq
    refine Nat.succ_le_succ (Json.depthItems_le ?_)
    exact Reading.forall_of_itemsFrom (fun c j c' => Json.depth_le_of_read) hrest (by simp)

/-- A member is read within the limit, and so were those before it. -/
theorem depth_le_of_readMember {name : String} {s s' : Option τ × List (String × Json)}
    (hs : ∀ m ∈ s.2, m.2.depth ≤ limit) (h : readMember tags limit s name c = .ok (s', c')) :
    ∀ m ∈ s'.2, m.2.depth ≤ limit := by
  unfold readMember at h
  split at h
  · split at h
    · cases h
    · obtain ⟨_, c₁, -, h⟩ := Reading.andThen_eq_ok h
      obtain ⟨found, -, rfl⟩ := Reading.map_eq_ok h
      exact hs
  · obtain ⟨done, hdone, rfl⟩ := Reading.map_eq_ok h
    exact Json.depth_le_of_keepMember Json.depth_le_of_read hs hdone

/-- What is read between braces is one level deeper than the limit at most. -/
theorem depth_le_of_readObject (h : readObject tags limit c = .ok ((tag, j), c')) :
    j.depth ≤ limit + 1 := by
  obtain ⟨found, c₁, hentries, h⟩ := Reading.andThen_eq_ok h
  split at h
  · cases h
    refine Nat.succ_le_succ (Json.depthMembers_le fun m hm => ?_)
    exact Reading.invariant_of_entriesFrom
      (P := fun s : Option τ × List (String × Json) => ∀ m ∈ s.2, m.2.depth ≤ limit)
      (fun s name c s' c' => depth_le_of_readMember) hentries (by simp) m (List.mem_reverse.mp hm)
  · cases h

/-- What is buffered with a tag was read in the same container as the tag. -/
theorem depth_le_of_read (h : read tags limit c = .ok ((tag, j), c')) : j.depth ≤ limit := by
  unfold read Reading.byKind at h
  dsimp only at h
  split at h
  · cases limit with
    | zero => cases h
    | succ inner =>
      obtain ⟨c₁, hlist, -⟩ := Reading.inList_eq_ok h
      exact depth_le_of_readList hlist
  · cases limit with
    | zero => cases h
    | succ inner =>
      obtain ⟨c₁, hobject, -⟩ := Reading.inObject_eq_ok h
      exact depth_le_of_readObject hobject
  · obtain ⟨k, c₁, -, h⟩ := Reading.andThen_eq_ok h
    cases h

end Tagged

end TaskRelay
