import TaskRelay.Proofs.Shape.Read
import TaskRelay.Shape.Tagged

/-!
# Tagged objects are read as they were written

The member with the tag may stand among the others at any place.

> `Tagged.reads_read`: of the text of an object with one tag, the reader makes the tag and an
> object of the other members.

> `Tagged.refuses_read`: if one of the others is nested too deeply, the reader says so, whatever was
> taken before it.

The object itself takes one of the containers that may be opened.
-/

namespace TaskRelay

/-! ## Members and their tag -/

namespace Tagged

section

variable {τ : Type} {tags : Tags τ} {limit : Nat} {found : Option τ} {tag : τ} {name k : String}
  {j : Json} {ms done before after : List (String × Json)} {rest : List Char}

/-- A member that is not the tag is kept. -/
theorem readMember_of_ne (hk : k ≠ key) :
    readMember tags limit (found, done) k =
      fun c => (Json.keepMember (Json.read limit) done k c).map fun done => (found, done) := by
  funext c
  exact if_neg hk

/-- Members without the tag are kept in their order. -/
theorem takes_members (tags : Tags τ) (found : Option τ) (done : List (String × Json))
    (hkeys : key ∉ ms.map Prod.fst) (hd : Json.DoubleFreeMembers ms)
    (hdepth : Json.depthMembers ms ≤ limit) :
    Takes (readMember tags limit) (found, done) ms (found, ms.reverse ++ done) := by
  induction ms generalizing done with
  | nil => exact .nil
  | cons member ms ih =>
    obtain ⟨k, j⟩ := member
    obtain ⟨hj, hms⟩ := hd
    simp only [List.map_cons, List.mem_cons, not_or] at hkeys
    simp only [Json.depthMembers, Nat.max_le] at hdepth
    have hmore := ih ((k, j) :: done) hkeys.2 hms hdepth.2
    rw [List.reverse_cons, List.append_assoc, List.singleton_append]
    refine .cons (fun rest hrest => ?_) hmore
    rw [readMember_of_ne (Ne.symm hkeys.1)]
    exact ((Json.faithful_read limit j rest hj hrest).1 hdepth.1).keepMember.map

/-- A member that is nested too deeply is refused. -/
theorem refuses_member (hk : k ≠ key) (hd : j.DoubleFree) (hdepth : limit < j.depth)
    (hrest : Follows rest) :
    Refuses (readMember tags limit (found, done) k) (':' :: j.write rest) .nestedTooDeeply := by
  rw [readMember_of_ne hk]
  exact ((Json.faithful_read limit j rest hd hrest).2 hdepth).keepMember.map

/-- The tag is taken out of the members. -/
theorem takes_tag (htag : Members.get? name tags.choices = some tag) :
    Takes (readMember tags limit) (none, done) [(key, .string name)] (some tag, done) := by
  refine .cons (fun rest hrest => ?_) .nil
  have hread : Reads (readTag tags) (Json.write (.string name) rest) tag rest :=
    Reading.reads_byKind_scalar trivial trivial hrest (by simp only [htag])
  exact Cursor.colon_cons.andThen hread.map

/-- The tag may stand anywhere among the members. -/
theorem reads_read (htag : Members.get? name tags.choices = some tag)
    (hkeys : key ∉ (before ++ after).map Prod.fst) (hd : Json.DoubleFreeMembers (before ++ after))
    (hdepth : Json.depthMembers (before ++ after) ≤ limit) :
    Reads (read tags (limit + 1))
      ((Json.object (before ++ (key, .string name) :: after)).write rest)
      (tag, .object (before ++ after)) rest := by
  rw [List.map_append, List.mem_append, not_or] at hkeys
  rw [Json.doubleFreeMembers_append] at hd
  rw [Json.depthMembers_append, Nat.max_le] at hdepth
  -- the tag is found wherever it stands, and the members around it are kept in their order
  have htakes := (takes_members tags none [] hkeys.1 hd.1 hdepth.1).append
    ((takes_tag htag).append (takes_members tags _ _ hkeys.2 hd.2 hdepth.2))
  obtain ⟨text, htext, hread⟩ := htakes.exists_text rest
  have hobject :
      Reads (readObject tags limit) text (tag, .object (before ++ after)) ('}' :: rest) :=
    hread.andThen fun p => ⟨p, by simp⟩
  rw [show before ++ (key, .string name) :: after =
    before ++ ([(key, .string name)] ++ after) from rfl, htext]
  exact Reading.reads_byKind_object hobject.inObject

/-- One member that is nested too deeply is enough. -/
theorem refuses_read {taken : Option τ × List (String × Json)}
    (htakes : Takes (readMember tags limit) (none, []) before taken) (hk : k ≠ key)
    (hj : j.DoubleFree) (hdeep : limit < j.depth) :
    Refuses (read tags (limit + 1)) ((Json.object (before ++ (k, j) :: after)).write rest)
      .nestedTooDeeply := by
  -- what stands behind the bad member is never looked at
  obtain ⟨text, htext, hread⟩ := htakes.exists_text_refuses
    (fun rest hrest => refuses_member hk hj hdeep hrest) after rest
  have hobject : Refuses (readObject tags limit) text .nestedTooDeeply := hread.andThen
  rw [htext]
  exact Reading.refuses_byKind_object hobject.inObject

end

/-! ## Messages -/

section

variable {τ α : Type} {tags : Tags τ} {take : τ → Json → Except Cause α} {tag : τ}
  {s name k : String} {j : Json} {before after : List (String × Json)} {a : α}

/-- The text of a tagged object is read as what is taken from its other members. -/
theorem readAll_readThen (before after : List (String × Json))
    (hs : s = (Json.object (before ++ (key, .string name) :: after)).compact)
    (htag : Members.get? name tags.choices = some tag)
    (hkeys : key ∉ (before ++ after).map Prod.fst) (hd : Json.DoubleFreeMembers (before ++ after))
    (hdepth : Json.depthMembers (before ++ after) < Json.depthLimit)
    (htake : take tag (.object (before ++ after)) = .ok a) :
    readAll (readThen tags take) s = .ok a := by
  refine Reads.readAll ?_
  rw [hs, Json.toList_compact]
  refine (reads_read htag hkeys hd (Nat.le_of_lt_succ hdepth)).andThen fun p => ⟨p, ?_⟩
  simp only [Reading.looseIn, htake]

/-- The text of an object with a member that is nested too deeply is not read, whether or not the
tag stands in front of it. -/
theorem readAll_readThen_tooDeep {taken : Option τ × List (String × Json)}
    (before after : List (String × Json))
    (hs : s = (Json.object (before ++ (k, j) :: after)).compact)
    (htakes : Takes (readMember tags (Json.depthLimit - 1)) (none, []) before taken)
    (hk : k ≠ key) (hj : j.DoubleFree) (hdeep : Json.depthLimit ≤ j.depth) :
    ∃ p, readAll (readThen tags take) s = .error ⟨.malformed .nestedTooDeeply, some p⟩ := by
  refine Refuses.readAll ?_
  rw [hs, Json.toList_compact]
  exact (refuses_read htakes hk hj hdeep).andThen

end

end Tagged

end TaskRelay
