import TaskRelay.Proofs.Json.Scalars
import TaskRelay.Shape.Tagged

/-!
# Readers beside the reader of trees

A text is a tree, and a message is read from the same text by other readers: one of them looks for
a tag, one counts, one fills slots. They go over the text in the same steps as the reader of trees
does, and what they make of it depends on the tree alone:

> `Reading.Ends c r o`: a reader that was started on a text of which the reader of trees has taken
> a part up to `c` takes the same part, with what `o` holds, or refuses it, if `o` holds nothing.

> `Reading.Ends.entriesFrom`: if each member by itself is read beside its tree, so are all of them,
> and what comes of them is the fold over the members of the tree.
-/

namespace TaskRelay

namespace Reading

variable {α β σ : Type}

/-! ## Readings that succeeded -/

/-- Two readings that succeed one after the other succeed each. -/
theorem andThen_eq_ok {r : Reading α} {more : α → Cursor → Reading β} {x : β × Cursor}
    (h : r.andThen more = .ok x) : ∃ a c, r = .ok (a, c) ∧ more a c = .ok x := by
  cases r with
  | error halt => cases h
  | ok found => exact ⟨found.1, found.2, rfl, h⟩

/-- What is made of a reading was read. -/
theorem map_eq_ok {r : Reading α} {f : α → β} {b : β} {c : Cursor} (h : r.map f = .ok (b, c)) :
    ∃ a, r = .ok (a, c) ∧ f a = b := by
  obtain ⟨a, c', hr, hb⟩ := andThen_eq_ok h
  cases hb
  exact ⟨a, hr, rfl⟩

/-- The inside of a list was read up to its end. -/
theorem inList_eq_ok {body : Cursor → Reading α} {c c' : Cursor} {a : α}
    (h : inList body c = .ok (a, c')) :
    ∃ c₁, body c.next = .ok (a, c₁) ∧ c₁.endList = .ok ((), c') := by
  unfold inList at h
  split at h
  · cases h
  · next b c₁ hbody =>
    obtain ⟨u, hend, rfl⟩ := map_eq_ok h
    exact ⟨c₁, hbody, hend⟩

/-- So was the inside of an object. -/
theorem inObject_eq_ok {body : Cursor → Reading α} {c c' : Cursor} {a : α}
    (h : inObject body c = .ok (a, c')) :
    ∃ c₁, body c.next = .ok (a, c₁) ∧ c₁.endObject = .ok ((), c') := by
  unfold inObject at h
  split at h
  · cases h
  · next b c₁ hbody =>
    obtain ⟨u, hend, rfl⟩ := map_eq_ok h
    exact ⟨c₁, hbody, hend⟩

/-- What holds of each item holds of all of them. -/
theorem forall_of_itemsFrom {mode : Mode} {item : Cursor → Reading α} {P : α → Prop}
    (hitem : ∀ c a c', item c = .ok (a, c') → P a) {fuel : List Char} {first : Bool}
    {done as : List α} {c c' : Cursor} (h : itemsFrom mode item fuel first done c = .ok (as, c'))
    (hdone : ∀ a ∈ done, P a) : ∀ a ∈ as, P a := by
  induction fuel generalizing first done c with
  | nil => cases h
  | cons x fuel ih =>
    obtain ⟨more, c₁, -, h⟩ := andThen_eq_ok h
    cases more with
    | false =>
      cases h
      exact fun a ha => hdone a (List.mem_reverse.mp ha)
    | true =>
      obtain ⟨a, c₂, ha, h⟩ := andThen_eq_ok h
      refine ih h fun b hb => ?_
      rcases List.mem_cons.mp hb with rfl | hb
      · exact hitem _ _ _ ha
      · exact hdone b hb

/-- What each entry keeps up holds at the end. -/
theorem invariant_of_entriesFrom {mode : Mode} {entry : σ → String → Cursor → Reading σ}
    {P : σ → Prop} (hentry : ∀ s key c s' c', P s → entry s key c = .ok (s', c') → P s')
    {fuel : List Char} {first : Bool} {s s' : σ} {c c' : Cursor}
    (h : entriesFrom mode entry fuel first s c = .ok (s', c')) (hs : P s) : P s' := by
  induction fuel generalizing first s c with
  | nil => cases h
  | cons x fuel ih =>
    obtain ⟨more, c₁, -, h⟩ := andThen_eq_ok h
    cases more with
    | false =>
      cases h
      exact hs
    | true =>
      obtain ⟨key, c₂, -, h⟩ := andThen_eq_ok h
      obtain ⟨s₁, c₃, hs₁, h⟩ := andThen_eq_ok h
      exact ih h (hentry _ _ _ _ _ hs hs₁)

/-! ## Ending in the same place -/

/-- What comes of a reader on a text of which another one has taken a part up to `c`: it takes the
same part with what is in the option, or it takes nothing and there is nothing in the option. -/
inductive Ends (c : Cursor) : Reading α → Option α → Prop
  | taken (a : α) : Ends c (.ok (a, c)) (some a)
  | refused (halt : Halt) : Ends c (.error halt) none

namespace Ends

variable {c c' : Cursor} {r : Reading α} {o : Option α}

theorem map (h : Ends c r o) (f : α → β) : Ends c (r.map f) (o.map f) := by
  cases h with
  | taken a => exact .taken (f a)
  | refused halt => exact .refused halt

/-- Where the first reading ends well the second one goes on from the same place. -/
theorem andThen {more : α → Cursor → Reading β} {next : α → Option β} (h : Ends c r o)
    (hmore : ∀ a, o = some a → Ends c' (more a c) (next a)) :
    Ends c' (r.andThen more) (o.bind next) := by
  cases h with
  | taken a => exact hmore a rfl
  | refused halt => exact .refused halt

/-- A reader behind a part that was taken. -/
theorem behind {more : α → Cursor → Reading β} {a : α} {o : Option β} (hr : r = .ok (a, c))
    (hmore : Ends c' (more a c) o) : Ends c' (r.andThen more) o := by
  rw [hr]
  exact hmore

/-- What is made of data without reading any further ends where the data ends. -/
theorem ofExcept (r : Except Cause α) : Ends c (looseIn r c) r.toOption := by
  cases r with
  | ok a => exact .taken a
  | error cause => exact .refused _

/-- If the inside of an object ends in front of its brace, the object ends behind it. -/
theorem inObject {body : Cursor → Reading α} {c₀ : Cursor} (h : Ends c (body c₀.next) o)
    (hend : c.endObject = .ok ((), c')) : Ends c' (Reading.inObject body c₀) o := by
  unfold Reading.inObject
  cases hbody : body c₀.next with
  | error halt =>
    rw [hbody] at h
    cases h
    exact .refused _
  | ok found =>
    rw [hbody] at h
    cases h
    simp only [hend]
    exact .taken _

/-- Where a reader ends that is not the whole text, unless there is nothing behind it. -/
theorem readAll {read : Cursor → Reading α} {s : String} (h : Ends c (read (.ofText s)) o)
    (hend : c.skipBlank.rest = []) : (TaskRelay.readAll read s).toOption = o := by
  unfold TaskRelay.readAll
  cases hread : read (.ofText s) with
  | error halt =>
    rw [hread] at h
    cases h
    rfl
  | ok found =>
    rw [hread] at h
    cases h
    simp only [hend]
    rfl

end Ends

end Reading

/-- Behind what is taken from a whole text there are only blanks. -/
theorem readAll_eq_ok {α : Type} {read : Cursor → Reading α} {s : String} {a : α}
    (h : readAll read s = .ok a) :
    ∃ c, read (.ofText s) = .ok (a, c) ∧ c.skipBlank.rest = [] := by
  unfold readAll at h
  split at h
  · cases h
  · next b c hread =>
    dsimp only at h
    split at h
    · next hend =>
      cases h
      exact ⟨c, hread, hend⟩
    · cases h

/-- A text is read if nothing but blanks is left of it. -/
theorem readAll_of_eq_ok {α : Type} {read : Cursor → Reading α} {s : String} {a : α} {c : Cursor}
    (h : read (.ofText s) = .ok (a, c)) (hend : c.skipBlank.rest = []) :
    readAll read s = .ok a := by
  unfold readAll
  rw [h]
  simp only [hend]

namespace Scalar

/-- A list or an object is no scalar, so its first character is a bracket or a brace. -/
theorem isScalar_of_read {c c' : Cursor} {j : Json} (h : read c = .ok (j, c')) :
    IsScalar j := by
  unfold read at h
  split at h
  · cases h
  · obtain ⟨_, -, rfl⟩ := Reading.map_eq_ok h
    trivial
  · obtain ⟨_, -, rfl⟩ := Reading.map_eq_ok h
    trivial
  · obtain ⟨_, -, rfl⟩ := Reading.map_eq_ok h
    trivial
  · obtain ⟨_, -, rfl⟩ := Reading.map_eq_ok h
    trivial
  · split at h
    · obtain ⟨_, -, rfl⟩ := Reading.map_eq_ok h
      trivial
    · cases h

end Scalar

namespace Json

open Reading (byKind opening inList inObject entries items Ends)

variable {limit : Nat} {c c' : Cursor} {j : Json}

/-! ## The reader of trees -/

/-- A tree is read by what its first character says. -/
theorem read_eq_byKind (limit : Nat) (c : Cursor) :
    read limit c =
      byKind (opening limit fun limit c => (inList (items .keep (read limit)) c).map .array)
        (opening limit fun limit c =>
          (inObject (entries .keep (keepMember (read limit)) []) c).map fun done =>
            .object done.reverse) .ok c := by
  have hscalar : ∀ c : Cursor, ((Scalar.read c).andThen fun j c => .ok (j, c)) = Scalar.read c := by
    intro c
    cases Scalar.read c <;> rfl
  unfold byKind
  cases limit with
  | zero =>
    rw [read]
    split <;> simp_all [opening]
  | succ limit =>
    rw [read]
    split <;> simp_all [opening]

/-- How the reader of trees comes to a tree: by a list, by an object, or by a scalar. -/
theorem read_cases (h : read limit c = .ok (j, c')) :
    (∃ inner js c₁ rest, limit = inner + 1 ∧ j = .array js ∧ c.skipBlank.rest = '[' :: rest ∧
      items .keep (read inner) c.skipBlank.next = .ok (js, c₁) ∧ c₁.endList = .ok ((), c')) ∨
    (∃ inner ms c₁ rest, limit = inner + 1 ∧ j = .object ms ∧ c.skipBlank.rest = '{' :: rest ∧
      entries .keep (keepMember (read inner)) [] c.skipBlank.next = .ok (ms.reverse, c₁) ∧
      c₁.endObject = .ok ((), c')) ∨
    (Scalar.IsScalar j ∧ (∀ rest, c.skipBlank.rest ≠ '[' :: rest ∧ c.skipBlank.rest ≠ '{' :: rest) ∧
      Scalar.read c.skipBlank = .ok (j, c')) := by
  rw [read_eq_byKind] at h
  unfold byKind at h
  dsimp only at h
  -- the first character decides between the three
  split at h
  · next rest hrest =>
    cases limit with
    | zero => cases h
    | succ inner =>
      obtain ⟨js, hlist, rfl⟩ := Reading.map_eq_ok h
      obtain ⟨c₁, hitems, hend⟩ := Reading.inList_eq_ok hlist
      exact .inl ⟨inner, js, c₁, rest, rfl, rfl, hrest, hitems, hend⟩
  · next rest hrest =>
    cases limit with
    | zero => cases h
    | succ inner =>
      obtain ⟨done, hobject, rfl⟩ := Reading.map_eq_ok h
      obtain ⟨c₁, hentries, hend⟩ := Reading.inObject_eq_ok hobject
      rw [← List.reverse_reverse done] at hentries
      exact .inr (.inl ⟨inner, done.reverse, c₁, rest, rfl, rfl, hrest, hentries, hend⟩)
  · next hlist hobject =>
    obtain ⟨j', c₁, hscalar, hj⟩ := Reading.andThen_eq_ok h
    cases hj
    exact .inr (.inr ⟨Scalar.isScalar_of_read hscalar,
      fun rest => ⟨hlist rest, hobject rest⟩, hscalar⟩)

/-- A member that is kept is the tree behind the colon. -/
theorem keepMember_eq_ok {value : Cursor → Reading Json} {done done' : List (String × Json)}
    {key : String} (h : keepMember value done key c = .ok (done', c')) :
    ∃ c₁ j, c.colon = .ok ((), c₁) ∧ value c₁ = .ok (j, c') ∧ done' = (key, j) :: done := by
  obtain ⟨⟨⟩, c₁, hcolon, h⟩ := Reading.andThen_eq_ok h
  obtain ⟨j, hj, rfl⟩ := Reading.map_eq_ok h
  exact ⟨c₁, j, hcolon, hj, rfl⟩

end Json

namespace Reading

open Json (keepMember)

variable {σ : Type} {value : Cursor → Reading Json} {entry : σ → String → Cursor → Reading σ}
  {step : σ → String × Json → Option σ}

/-- Members that are kept one by one are a list of members; another reader of the same members does
with each of them what `step` says. -/
theorem Ends.entriesFrom
    (hentry : ∀ s key j c c₁ c', c.colon = .ok ((), c₁) → value c₁ = .ok (j, c') →
      Ends c' (entry s key c) (step s (key, j)))
    {fuel : List Char} {first : Bool} {done done' : List (String × Json)} {c c' : Cursor}
    (h : Reading.entriesFrom .keep (keepMember value) fuel first done c = .ok (done', c')) :
    ∃ ms : List (String × Json), done' = ms.reverse ++ done ∧
      ∀ s, Ends c' (Reading.entriesFrom .keep entry fuel first s c) (ms.foldlM step s) := by
  induction fuel generalizing first done c with
  | nil => cases h
  | cons x fuel ih =>
    obtain ⟨more, c₁, hmore, h⟩ := andThen_eq_ok h
    cases more with
    | false =>
      cases h
      exact ⟨[], rfl, fun s => .behind hmore (.taken s)⟩
    | true =>
      obtain ⟨key, c₂, hkey, h⟩ := andThen_eq_ok h
      obtain ⟨kept, c₃, hkept, h⟩ := andThen_eq_ok h
      obtain ⟨c₄, j, hcolon, hj, rfl⟩ := Json.keepMember_eq_ok hkept
      obtain ⟨ms, hms, hrest⟩ := ih h
      refine ⟨(key, j) :: ms, by rw [hms]; simp, fun s => .behind hmore (.behind hkey ?_)⟩
      exact (hentry s key j c₂ c₄ c₃ hcolon hj).andThen fun s' _ => hrest s'

end Reading

end TaskRelay
