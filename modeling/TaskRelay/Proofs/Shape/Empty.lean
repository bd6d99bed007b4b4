import Mathlib.Data.Finset.Card
import TaskRelay.Proofs.Dispatcher
import TaskRelay.Proofs.Json.Beside
import TaskRelay.Proofs.Json.Passing
import TaskRelay.Proofs.Members

/-!
# Shapes of nothing

A task without arguments still gets two texts: an empty list, which is all that `Shape.noItems`
takes, and an empty object, which is all that `Shape.noMembers` takes. Where there is something in
them, the error says how much, and nothing else:

> `Reading.readAll_ifNone_eq_ok_iff`: a text is accepted if nothing was passed over in it.

> `Reading.readAll_ifNone_of_reads`: what was passed over at the front of a text is counted,
> whatever follows it.

Items are passed over without a look at them (`Json.reads_skip`). Members are passed over under the
names that their keys stand for, and a name that comes again is not counted again
(`Members.length_foldl_insert`). A dispatcher that finds something does not build the task
(`Dispatcher.keepsArgsEmpty`, `Dispatcher.keepsKwargsEmpty`).
-/

namespace TaskRelay

/-! ## Counting names -/

namespace Members

variable {α : Type}

/-- Inserting keys one by one leaves no key out. -/
theorem mem_keys_foldl_insert {k : String} {ms sorted : List (String × α)} :
    k ∈ (ms.foldl (fun acc m => insert m.1 m.2 acc) sorted).map Prod.fst ↔
      k ∈ ms.map Prod.fst ∨ k ∈ sorted.map Prod.fst := by
  induction ms generalizing sorted with
  | nil => simp
  | cons m ms ih =>
    rw [List.foldl_cons, ih, mem_keys_insert, List.map_cons, List.mem_cons]
    tauto

/-- Of sorted members there are as many as there are names. -/
theorem length_sort (ms : List (String × α)) :
    (sort ms).length = (ms.map Prod.fst).toFinset.card := by
  have hnodup : ((sort ms).map Prod.fst).Nodup :=
    (increasing_sort ms).imp fun hlt heq => String.ne_of_lt hlt heq
  have hnames : ((sort ms).map Prod.fst).toFinset = (ms.map Prod.fst).toFinset := by
    ext k
    unfold sort
    rw [List.mem_toFinset, List.mem_toFinset, mem_keys_foldl_insert]
    simp
  rw [← hnames, List.toFinset_card_of_nodup hnodup, List.length_map]

/-- And each of them is counted once. -/
theorem length_foldl_insert (keys : List String) :
    (keys.foldl (fun done key => insert key () done) []).length = keys.toFinset.card := by
  have hsort : keys.foldl (fun done key => insert key () done) [] =
      sort (keys.map fun key => (key, ())) := by
    unfold sort
    rw [List.foldl_map]
  rw [hsort, length_sort, List.map_map]
  simp only [Function.comp_def, List.map_id']

end Members

/-! ## What a reader has gone over -/

namespace Cursor

variable {c c' : Cursor}

/-- What is skipped is blank. -/
theorem exists_blank (c : Cursor) :
    ∃ before, Json.Blank before ∧ c.rest = before ++ c.skipBlank.rest := by
  obtain ⟨rest, p⟩ := c
  induction rest generalizing p with
  | nil => exact ⟨[], Json.blank_nil, rfl⟩
  | cons x rest ih =>
    unfold skipBlank skipBlankFrom
    split
    · next hx =>
      obtain ⟨before, hbefore, hrest⟩ := ih (p.after x)
      refine ⟨x :: before, ?_, congrArg _ hrest⟩
      simp only [isBlank, Bool.or_eq_true, decide_eq_true_eq] at hx
      rintro y (_ | ⟨_, hy⟩)
      · tauto
      · exact hbefore y hy
    · exact ⟨[], Json.blank_nil, rfl⟩

/-- Where skipping leaves nothing there were only blanks. -/
theorem blank_of_skipBlank_nil (h : c.skipBlank.rest = []) : Json.Blank c.rest := by
  obtain ⟨before, hbefore, hrest⟩ := c.exists_blank
  rw [hrest, h, List.append_nil]
  exact hbefore

theorem skipBlank_skipBlank (c : Cursor) : c.skipBlank.skipBlank = c.skipBlank := by
  obtain ⟨rest, p⟩ := c
  induction rest generalizing p with
  | nil => rfl
  | cons x rest ih =>
    cases hx : isBlank x with
    | true =>
      have hskip : skipBlank ⟨x :: rest, p⟩ = skipBlank ⟨rest, p.after x⟩ := if_pos hx
      rw [hskip, ih]
    | false => rw [skipBlank_cons hx, skipBlank_cons hx]

/-- Two signs with blanks in front of each. -/
theorem exists_blanks {x y : Char} {more rest : List Char} (hx : c.skipBlank.rest = x :: more)
    (hy : c.skipBlank.next.skipBlank.rest = y :: rest) :
    ∃ before inner, Json.Blank before ∧ Json.Blank inner ∧
      c.rest = before ++ x :: (inner ++ y :: rest) := by
  obtain ⟨before, hbefore, hrest⟩ := c.exists_blank
  obtain ⟨inner, hinner, hmore⟩ := c.skipBlank.next.exists_blank
  have hnext : c.skipBlank.next.rest = more := by
    unfold next
    rw [hx]
  exact ⟨before, inner, hbefore, hinner, by rw [hrest, hx, ← hy, ← hmore, hnext]⟩

/-- A list is over only at its bracket. -/
theorem nextItem_eq_false {mode : Mode} {first : Bool}
    (h : c.nextItem mode first = .ok (false, c')) : c' = c.skipBlank := by
  unfold nextItem at h
  dsimp only at h
  split at h
  · cases h
  · cases h
    rfl
  · split at h
    · cases h
    · split at h
      · split at h <;> cases h
      · cases h

/-- An object is over only at its brace. -/
theorem nextKey_eq_false {mode : Mode} {first : Bool}
    (h : c.nextKey mode first = .ok (false, c')) : c' = c.skipBlank := by
  unfold nextKey at h
  dsimp only at h
  split at h
  · cases h
  · cases h
    rfl
  · split at h
    · split at h <;> cases h
    · split at h
      · split at h <;> cases h
      · cases h

/-- Behind the items there is a bracket. -/
theorem endList_eq_ok (h : c.endList = .ok ((), c')) : c.skipBlank.rest = ']' :: c'.rest := by
  unfold endList at h
  dsimp only at h
  split at h
  · cases h
  · next rest hrest =>
    cases h
    rw [hrest]
    unfold next
    rw [hrest]
  · split at h <;> cases h
  · cases h

/-- Behind the members there is a brace. -/
theorem endObject_eq_ok (h : c.endObject = .ok ((), c')) : c.skipBlank.rest = '}' :: c'.rest := by
  unfold endObject at h
  dsimp only at h
  split at h
  · cases h
  · next rest hrest =>
    cases h
    rw [hrest]
    unfold next
    rw [hrest]
  · cases h
  · cases h

end Cursor

namespace Reading

variable {α σ : Type} {mode : Mode} {c c' : Cursor}

/-- What was read of a kind was a list, an object, or a scalar that is taken. -/
theorem byKind_eq_ok {list object : Cursor → Reading α} {scalar : Json → Except Cause α} {a : α}
    (h : byKind list object scalar c = .ok (a, c')) :
    (∃ rest, c.skipBlank.rest = '[' :: rest ∧ list c.skipBlank = .ok (a, c')) ∨
    (∃ rest, c.skipBlank.rest = '{' :: rest ∧ object c.skipBlank = .ok (a, c')) ∨
    ∃ j, scalar j = .ok a := by
  unfold byKind at h
  dsimp only at h
  split at h
  · next rest hrest => exact .inl ⟨rest, hrest, h⟩
  · next rest hrest => exact .inr (.inl ⟨rest, hrest, h⟩)
  · obtain ⟨j, c₁, -, hj⟩ := andThen_eq_ok h
    split at hj
    · next hscalar =>
      cases hj
      exact .inr (.inr ⟨j, hscalar⟩)
    · cases hj

/-- Items that were read stay read. -/
theorem length_le_of_itemsFrom {item : Cursor → Reading α} {fuel : List Char} {first : Bool}
    {done as : List α} (h : itemsFrom mode item fuel first done c = .ok (as, c')) :
    done.length ≤ as.length := by
  induction fuel generalizing first done c with
  | nil => cases h
  | cons x fuel ih =>
    obtain ⟨more, c₁, -, h⟩ := andThen_eq_ok h
    cases more with
    | false =>
      cases h
      rw [List.length_reverse]
    | true =>
      obtain ⟨a, c₂, -, h⟩ := andThen_eq_ok h
      exact Nat.le_trans (Nat.le_succ _) (ih h)

/-- Where no items were read there are none. -/
theorem items_eq_nil {item : Cursor → Reading α} (h : items mode item c = .ok ([], c')) :
    c' = c.skipBlank := by
  obtain ⟨more, c₁, hnext, h⟩ := andThen_eq_ok h
  cases more with
  | false =>
    cases h
    exact Cursor.nextItem_eq_false hnext
  | true =>
    obtain ⟨a, c₂, -, h⟩ := andThen_eq_ok h
    cases length_le_of_itemsFrom h

/-- Where the state is none that an entry leaves behind there are no entries. -/
theorem entries_eq_nil {entry : List σ → String → Cursor → Reading (List σ)}
    (hentry : ∀ s key c s' c', entry s key c = .ok (s', c') → s' ≠ [])
    (h : entries mode entry [] c = .ok ([], c')) : c' = c.skipBlank := by
  obtain ⟨more, c₁, hnext, h⟩ := andThen_eq_ok h
  cases more with
  | false =>
    cases h
    exact Cursor.nextKey_eq_false hnext
  | true =>
    obtain ⟨key, c₂, -, h⟩ := andThen_eq_ok h
    obtain ⟨s, c₃, hs, h⟩ := andThen_eq_ok h
    have hne := invariant_of_entriesFrom (P := (· ≠ []))
      (fun _ _ _ _ _ _ h => hentry _ _ _ _ _ h) h (hentry _ _ _ _ _ hs)
    exact absurd rfl hne

/-- Nothing may have been passed over; anything else is too much of `what`. -/
def ifNone (what : String) (passed : List α) (c : Cursor) : Reading Unit :=
  if passed.isEmpty then .ok ((), c) else .error (.loose (.invalidLength passed.length what) c)

end Reading

/-! ## Both shapes -/

section

open Reading (ifNone byKind opening inList inObject items entries refuse)
open Json (Blank WellFormed Separated Named SpellsString)

variable {α : Type} {pass : Cursor → Reading (List α)} {what : String} {t : String}

/-- A text is accepted if nothing was passed over in it. -/
theorem Reading.readAll_ifNone_eq_ok_iff :
    readAll (fun c => (pass c).andThen (ifNone what)) t = .ok () ↔ readAll pass t = .ok [] := by
  constructor
  · intro h
    obtain ⟨c, hread, hend⟩ := readAll_eq_ok h
    obtain ⟨passed, c₁, hpass, hnone⟩ := Reading.andThen_eq_ok hread
    unfold ifNone at hnone
    split at hnone
    · next hempty =>
      cases hnone
      rw [List.isEmpty_iff.mp hempty] at hpass
      exact readAll_of_eq_ok hpass hend
    · cases hnone
  · intro h
    obtain ⟨c, hpass, hend⟩ := readAll_eq_ok h
    refine readAll_of_eq_ok (c := c) ?_ hend
    rw [hpass]
    rfl

/-- What was passed over at the front of a text is counted, whatever follows it. -/
theorem Reading.readAll_ifNone_of_reads {passed : List α} {rest : List Char}
    (h : Reads pass t.toList passed rest) (hne : passed ≠ []) :
    readAll (fun c => (pass c).andThen (ifNone what)) t =
      .error ⟨.invalidLength passed.length what, none⟩ := by
  obtain ⟨q, hq⟩ := h ⟨1, 0⟩
  have hcount : passed.isEmpty = false := List.isEmpty_eq_false_iff.mpr hne
  unfold readAll Cursor.ofText ifNone
  simp only [hq, Reading.andThen, hcount, Bool.false_eq_true, if_false]
  rfl

/-- A pair of brackets with blanks in it and around it. -/
def IsBare (first last : Char) (t : String) : Prop :=
  ∃ before inner after, Blank before ∧ Blank inner ∧ Blank after ∧
    t.toList = before ++ first :: (inner ++ last :: after)

/-- Where brackets without anything in them are what nothing is passed over in, they are what is
accepted. -/
theorem Reading.readAll_eq_nil_iff {first last : Char}
    (hreads : ∀ {before inner after}, Blank before → Blank inner →
      Reads pass (before ++ first :: (inner ++ last :: after)) [] after)
    (hnil : ∀ {c c'}, pass c = .ok ([], c') → ∃ before inner, Blank before ∧ Blank inner ∧
      c.rest = before ++ first :: (inner ++ last :: c'.rest)) :
    readAll pass t = .ok [] ↔ IsBare first last t := by
  constructor
  · intro h
    obtain ⟨c, hpass, hend⟩ := readAll_eq_ok h
    obtain ⟨before, inner, hbefore, hinner, ht⟩ := hnil hpass
    exact ⟨before, inner, c.rest, hbefore, hinner, Cursor.blank_of_skipBlank_nil hend, ht⟩
  · rintro ⟨before, inner, after, hbefore, hinner, hafter, ht⟩
    refine Reads.readAll_blank hafter ?_
    rw [ht]
    exact hreads hbefore hinner

theorem Reading.skipsBlank_byKind {list object : Cursor → Reading (List α)}
    {scalar : Json → Except Cause (List α)} : SkipsBlank (byKind list object scalar) := by
  intro c c' h
  unfold byKind
  rw [h]

namespace Shape

variable {depth : Nat} {before inner after : List Char} {c c' : Cursor}

/-! ### Lists -/

/-- Passes over a list. -/
def passItems (depth : Nat) : Cursor → Reading (List Unit) :=
  byKind (opening depth fun _ => inList (items .keep Json.skip)) (refuse .map noItems.expected)
    fun j => j.mismatch noItems.expected

/-- Items that can be skipped are passed over. -/
theorem reads_passItems {values : List Unit} (hbefore : Blank before)
    (h : Reads (items .keep Json.skip) (inner ++ ']' :: after) values (']' :: after)) :
    Reads (passItems (depth + 1)) (before ++ '[' :: (inner ++ ']' :: after)) values after := by
  have hlist : Reads (passItems (depth + 1)) ('[' :: (inner ++ ']' :: after)) values after :=
    fun p => h.inList p
  exact Reading.skipsBlank_byKind.reads hbefore hlist

/-- No items were passed over where there are none. -/
theorem passItems_eq_nil (h : passItems depth c = .ok ([], c')) :
    ∃ before inner, Blank before ∧ Blank inner ∧
      c.rest = before ++ '[' :: (inner ++ ']' :: c'.rest) := by
  obtain ⟨rest, hrest, hlist⟩ | ⟨rest, -, hobject⟩ | ⟨j, hj⟩ := Reading.byKind_eq_ok h
  · cases depth with
    | zero => cases hlist
    | succ depth =>
      obtain ⟨c₁, hitems, hend⟩ := Reading.inList_eq_ok hlist
      have hclose := Cursor.endList_eq_ok hend
      rw [Reading.items_eq_nil hitems, Cursor.skipBlank_skipBlank] at hclose
      exact Cursor.exists_blanks hrest hclose
  · cases hobject
  · cases hj

/-- A list is accepted if it is empty. -/
theorem parse_noItems_eq_ok_iff (t : String) : noItems.parse t = .ok () ↔ IsBare '[' ']' t := by
  have hcount : noItems.parse t = .ok () ↔ readAll (passItems Json.depthLimit) t = .ok [] :=
    Reading.readAll_ifNone_eq_ok_iff
  exact hcount.trans (Reading.readAll_eq_nil_iff
    (fun hbefore hinner => reads_passItems hbefore (Json.reads_noItems hinner _)) passItems_eq_nil)

/-- Blanks, a list of so many values, and anything behind it. -/
def StartsWithList (n : Nat) (t : String) : Prop :=
  ∃ (before inner after : List Char) (values : List Unit), Blank before ∧
    Separated (fun _ => WellFormed) values inner ∧ values.length = n ∧
    t.toList = before ++ '[' :: (inner ++ ']' :: after)

/-- A list of values is refused for their number, whatever follows it. -/
theorem parse_noItems_of_startsWithList {n : Nat} (h : StartsWithList n t) :
    noItems.parse t = .error ⟨.invalidLength n "no positional arguments", none⟩ := by
  obtain ⟨before, inner, after, values, hbefore, hvalues, rfl, ht⟩ := h
  have hitems : Reads (items .keep Json.skip) (inner ++ ']' :: after) values (']' :: after) :=
    Json.reads_items hvalues (fun _ h => h.isItem) after
  have hread : Reads (passItems Json.depthLimit) t.toList values after := by
    rw [ht]
    exact reads_passItems hbefore hitems
  exact Reading.readAll_ifNone_of_reads hread hvalues.ne_nil

/-! ### Objects -/

/-- Passes over a member and keeps its name. -/
def passMember (done : List (String × Unit)) (key : String) (c : Cursor) :
    Reading (List (String × Unit)) :=
  c.colon.andThen fun _ c => (Json.skip c).map fun _ => Members.insert key () done

/-- Passes over an object. -/
def passMembers (depth : Nat) : Cursor → Reading (List (String × Unit)) :=
  byKind (refuse .sequence noMembers.expected)
    (opening depth fun _ => inObject (entries .keep passMember []))
    fun j => j.mismatch noMembers.expected

/-- Members that can be skipped are passed over. -/
theorem reads_passMembers {members : List (String × Unit)} (hbefore : Blank before)
    (h : Reads (entries .keep passMember []) (inner ++ '}' :: after) members ('}' :: after)) :
    Reads (passMembers (depth + 1)) (before ++ '{' :: (inner ++ '}' :: after)) members after := by
  have hobject : Reads (passMembers (depth + 1)) ('{' :: (inner ++ '}' :: after)) members after :=
    fun p => h.inObject p
  exact Reading.skipsBlank_byKind.reads hbefore hobject

/-- Whoever has passed over a member has its key. -/
theorem passMember_ne_nil {done passed : List (String × Unit)} {key : String}
    (h : passMember done key c = .ok (passed, c')) : passed ≠ [] := by
  obtain ⟨_, c₁, -, hvalue⟩ := Reading.andThen_eq_ok h
  obtain ⟨_, -, rfl⟩ := Reading.map_eq_ok hvalue
  have hkey : key ∈ (Members.insert key () done).map Prod.fst :=
    Members.mem_keys_insert.mpr (.inl rfl)
  intro hnil
  rw [hnil] at hkey
  cases hkey

/-- No members were passed over where there are none. -/
theorem passMembers_eq_nil (h : passMembers depth c = .ok ([], c')) :
    ∃ before inner, Blank before ∧ Blank inner ∧
      c.rest = before ++ '{' :: (inner ++ '}' :: c'.rest) := by
  obtain ⟨rest, -, hlist⟩ | ⟨rest, hrest, hobject⟩ | ⟨j, hj⟩ := Reading.byKind_eq_ok h
  · cases hlist
  · cases depth with
    | zero => cases hobject
    | succ depth =>
      obtain ⟨c₁, hentries, hend⟩ := Reading.inObject_eq_ok hobject
      have hclose := Cursor.endObject_eq_ok hend
      rw [Reading.entries_eq_nil (fun _ _ _ _ _ => passMember_ne_nil) hentries,
        Cursor.skipBlank_skipBlank] at hclose
      exact Cursor.exists_blanks hrest hclose
  · cases hj

/-- An object is accepted if it is empty. -/
theorem parse_noMembers_eq_ok_iff (t : String) :
    noMembers.parse t = .ok () ↔ IsBare '{' '}' t := by
  have hcount : noMembers.parse t = .ok () ↔ readAll (passMembers Json.depthLimit) t = .ok [] :=
    Reading.readAll_ifNone_eq_ok_iff
  exact hcount.trans (Reading.readAll_eq_nil_iff
    (fun hbefore hinner => reads_passMembers hbefore (Json.reads_noEntries hinner [] _))
    passMembers_eq_nil)

/-- Blanks, an object with these keys in this order, and anything behind it. -/
def StartsWithObject (keys : List String) (t : String) : Prop :=
  ∃ before inner after, Blank before ∧ Separated (Named SpellsString WellFormed) keys inner ∧
    t.toList = before ++ '{' :: (inner ++ '}' :: after)

/-- A member is passed over, and the name that its key stands for is kept. -/
theorem isMember_passMember {key : String} {text : List Char} {done : List (String × Unit)}
    (h : Named SpellsString WellFormed key text) :
    Json.IsMember .keep passMember done (Members.insert key () done) text := by
  obtain ⟨hkey, hbefore, hafter, hvalue⟩ := h
  refine Json.isMember_of_name hkey.exists_eq_cons (Scalar.reads_of_spellsString hkey) ?_
  intro rest hrest
  exact Json.reads_colon hbefore
    ((Json.reads_skip hvalue hafter hrest).map (f := fun _ => Members.insert key () done))

/-- An object with members is refused for the number of their names, whatever follows it. -/
theorem parse_noMembers_of_startsWithObject {keys : List String} (h : StartsWithObject keys t) :
    noMembers.parse t =
      .error ⟨.invalidLength keys.toFinset.card "no keyword arguments", none⟩ := by
  obtain ⟨before, inner, after, hbefore, hkeys, ht⟩ := h
  have hentries := Json.reads_entries (fun done key => Members.insert key () done) hkeys
    (fun _ h => isMember_passMember h) [] after
  have hread : Reads (passMembers Json.depthLimit) t.toList
      (keys.foldl (fun done key => Members.insert key () done) []) after := by
    rw [ht]
    exact reads_passMembers hbefore hentries
  have hlength := Members.length_foldl_insert keys
  have hpos : 0 < keys.toFinset.card :=
    Finset.card_pos.mpr (List.toFinset_nonempty_iff keys |>.mpr hkeys.ne_nil)
  rw [← hlength] at hpos ⊢
  exact Reading.readAll_ifNone_of_reads hread (List.ne_nil_of_length_pos hpos)

end Shape

end

/-! ## Tasks without arguments -/

/-- There are so many where none were expected. -/
def tooMany (n : Nat) (what : String) : String :=
  "invalid length " ++ toString n ++ ", expected " ++ what

theorem DecodeError.message_invalidLength (n : Nat) (what : String) :
    (⟨.invalidLength n what, none⟩ : DecodeError).message = tooMany n what :=
  String.append_empty

namespace Dispatcher

open Registration (latest?)
open Shape (noItems noMembers StartsWithList StartsWithObject)

variable {α κ σ ε ω : Type} {told : List Registration} {definition args kwargs : String}

/-- The positional arguments of the task are decoded as an empty list. -/
def TakesNoArgs (t : Stages Unit κ σ ε ω) : Prop :=
  ∀ s, t.decodeArgs s = .ok ((noItems.parse s).mapError .decode)

/-- The named arguments of the task are decoded as an empty object. -/
def TakesNoKwargs (t : Stages α Unit σ ε ω) : Prop :=
  ∀ s, t.decodeKwargs s = .ok ((noMembers.parse s).mapError .decode)

/-- The answer to arguments that were refused. -/
def refusal (message : String) : Envelope :=
  .failure "serde_json::error::Error" message [message]

/-- A task without positional arguments is built for an empty list only. To a list of values the
answer says how many there are. -/
structure KeepsArgsEmpty (told : List Registration) (definition : String) : Prop where
  built : ∀ {args kwargs}, .build ∈ entered (latest? told definition) args kwargs →
    IsBare '[' ']' args
  refused : ∀ {n args}, StartsWithList n args → ∀ kwargs,
    .build ∉ entered (latest? told definition) args kwargs ∧
    execute ⟨Registration.registry told⟩ definition args kwargs =
      refusal (tooMany n "no positional arguments")

/-- A task without named arguments is built for an empty object only. To an object with members the
answer says how many names there are, unless the other arguments are refused before. -/
structure KeepsKwargsEmpty (t : Stages α Unit σ ε ω) (told : List Registration)
    (definition : String) : Prop where
  built : ∀ {args kwargs}, .build ∈ entered (latest? told definition) args kwargs →
    IsBare '{' '}' kwargs
  refused : ∀ {keys kwargs}, StartsWithObject keys kwargs → ∀ args,
    .build ∉ entered (latest? told definition) args kwargs ∧
    ∀ a, t.decodeArgs args = .ok (.ok a) →
      execute ⟨Registration.registry told⟩ definition args kwargs =
        refusal (tooMany keys.toFinset.card "no keyword arguments")

/-- How the latest task ends is what the dispatcher enters and answers. -/
theorem of_ends {t : Stages α κ σ ε ω} (hlatest : latest? told definition = some ⟨t⟩)
    {stages : List Stage} {e : Envelope} (hends : t.Ends args kwargs stages e) :
    entered (latest? told definition) args kwargs = stages ∧
      execute ⟨Registration.registry told⟩ definition args kwargs = e := by
  obtain ⟨hstages, he⟩ := hends.watched_eq
  rw [execute_of_known hlatest, hlatest]
  exact ⟨hstages.symm, he.symm⟩

/-- A task is built only when its arguments are there. -/
theorem ready_of_built {t : Stages α κ σ ε ω} (hlatest : latest? told definition = some ⟨t⟩)
    (hbuilt : .build ∈ entered (latest? told definition) args kwargs) :
    ∃ a k, t.Ready args kwargs a k := by
  obtain ⟨stages, e, hends⟩ := t.exists_ends args kwargs
  rw [(of_ends hlatest hends).1] at hbuilt
  exact hends.build_mem_iff.mp hbuilt

/-- A task without arguments accepts empty lists only, and counts the items of others. -/
theorem keepsArgsEmpty {t : Stages Unit κ σ ε ω} (ht : TakesNoArgs t)
    (hlatest : latest? told definition = some ⟨t⟩) : KeepsArgsEmpty told definition := by
  constructor
  · intro args kwargs hbuilt
    obtain ⟨a, k, hready⟩ := ready_of_built hlatest hbuilt
    have hdecoded : (noItems.parse args).mapError CodecError.decode = .ok a :=
      Except.ok.inj ((ht args).symm.trans hready.args)
    exact (Shape.parse_noItems_eq_ok_iff args).mp (mapError_eq_ok_iff.mp hdecoded)
  · intro n args hargs kwargs
    have hrefused : t.decodeArgs args =
        .ok (.error (.decode ⟨.invalidLength n "no positional arguments", none⟩)) := by
      rw [ht, Shape.parse_noItems_of_startsWithList hargs]
      rfl
    have hends : t.Ends args kwargs [.args] _ := .argsRefused hrefused
    obtain ⟨hentered, hanswer⟩ := of_ends hlatest hends
    rw [hentered, hanswer]
    exact ⟨by decide, congrArg refusal (DecodeError.message_invalidLength n _)⟩

/-- A task without named arguments accepts empty objects only, and counts the keys of others. -/
theorem keepsKwargsEmpty {t : Stages α Unit σ ε ω} (ht : TakesNoKwargs t)
    (hlatest : latest? told definition = some ⟨t⟩) : KeepsKwargsEmpty t told definition := by
  constructor
  · intro args kwargs hbuilt
    obtain ⟨a, k, hready⟩ := ready_of_built hlatest hbuilt
    have hdecoded : (noMembers.parse kwargs).mapError CodecError.decode = .ok k :=
      Except.ok.inj ((ht kwargs).symm.trans hready.kwargs)
    exact (Shape.parse_noMembers_eq_ok_iff kwargs).mp (mapError_eq_ok_iff.mp hdecoded)
  · intro keys kwargs hkwargs args
    have hrefused : t.decodeKwargs kwargs = .ok (.error (.decode
        ⟨.invalidLength keys.toFinset.card "no keyword arguments", none⟩)) := by
      rw [ht, Shape.parse_noMembers_of_startsWithObject hkwargs]
      rfl
    constructor
    · intro hbuilt
      obtain ⟨a, k, hready⟩ := ready_of_built hlatest hbuilt
      cases hrefused.symm.trans hready.kwargs
    · intro a hargs
      obtain ⟨-, hanswer⟩ := of_ends hlatest (.kwargsRefused hargs hrefused)
      rw [hanswer]
      exact congrArg refusal (DecodeError.message_invalidLength _ _)

/-- Of all texts the shapes of nothing take the empty list and the empty object, with blanks in them
and around them. A text that starts with a list of values or an object with members is refused with
how many values or different names there are, without a place and whatever follows; the values may
be anything and nested as one likes. No task is built for such arguments. -/
theorem only_emptiness_taken :
    (∀ t, noItems.parse t = .ok () ↔ IsBare '[' ']' t) ∧
    (∀ t, noMembers.parse t = .ok () ↔ IsBare '{' '}' t) ∧
    (∀ n t, StartsWithList n t → ∃ e, noItems.parse t = .error e ∧
      e.message = tooMany n "no positional arguments" ∧ e.position = none) ∧
    (∀ keys t, StartsWithObject keys t → ∃ e, noMembers.parse t = .error e ∧
      e.message = tooMany keys.toFinset.card "no keyword arguments" ∧ e.position = none) ∧
    (∀ {κ σ ε ω : Type} (t : Stages Unit κ σ ε ω) (told : List Registration) (definition : String),
      TakesNoArgs t → latest? told definition = some ⟨t⟩ → KeepsArgsEmpty told definition) ∧
    (∀ {α σ ε ω : Type} (t : Stages α Unit σ ε ω) (told : List Registration) (definition : String),
      TakesNoKwargs t → latest? told definition = some ⟨t⟩ →
      KeepsKwargsEmpty t told definition) := by
  refine ⟨Shape.parse_noItems_eq_ok_iff, Shape.parse_noMembers_eq_ok_iff, ?_, ?_,
    fun _ _ _ => keepsArgsEmpty, fun _ _ _ => keepsKwargsEmpty⟩
  · intro n t h
    exact ⟨_, Shape.parse_noItems_of_startsWithList h, DecodeError.message_invalidLength _ _, rfl⟩
  · intro keys t h
    exact ⟨_, Shape.parse_noMembers_of_startsWithObject h, DecodeError.message_invalidLength _ _,
      rfl⟩

/-- A task type that takes nothing, and whose instances cannot be built. -/
def idle : TaskType :=
  ⟨"Idle", .noItems, .noMembers, .unit, "core::convert::Infallible", .error (.text "built"),
    fun _ _ => .ok (.ok ())⟩

def idleStages : Stages Unit Unit Unit TaskError Unit := idle.stages

/-- Three values, and something behind them: a number out of range, half of a surrogate pair. -/
def threeValues : String := " [1e999, [\"\\ud800\"], null] x"

/-- Two members with one name, and something behind them. -/
def oneName : String := "\x7b\"a\": null, \"\\u0061\": \x7b\x7d\x7d]"

theorem startsWithList_threeValues : StartsWithList 3 threeValues := by
  have hblank : Json.Blank [' '] := by simp [Json.Blank]
  have hnumber : (⟨false, ['1'], none, some ('e', none, ['9', '9', '9'])⟩ : Json.Digits).Valid :=
    ⟨by simp, by simp [Scalar.isDigit], by simp, by simp, by simp [Scalar.isDigit]⟩
  have hhalf : Json.InString "\\ud800".toList := .code (n := 0xD800) rfl .nil
  have hinner : Json.Separated (fun _ => Json.WellFormed) [()] _ :=
    .one Json.blank_nil (.scalar (.string (.mk hhalf))) Json.blank_nil
  have hvalues : Json.Separated (fun _ => Json.WellFormed) [(), (), ()] _ :=
    .more Json.blank_nil (.scalar (.number hnumber)) Json.blank_nil <|
    .more hblank (.array hinner) Json.blank_nil <|
    .one hblank (.scalar .null) Json.blank_nil
  exact ⟨[' '], _, [' ', 'x'], _, hblank, hvalues, rfl, rfl⟩

theorem startsWithObject_oneName : StartsWithObject ["a", "a"] oneName := by
  have hblank : Json.Blank [' '] := by simp [Json.Blank]
  have hescaped : Json.SpellsString "a" "\"\\u0061\"".toList := by
    have hchars : Json.SpellsChars "a".toList "\\u0061".toList :=
      .cons (.code (n := 0x61) rfl (by decide)) .nil
    exact .mk hchars
  have hmembers : Json.Separated (Json.Named Json.SpellsString Json.WellFormed) ["a", "a"] _ :=
    .more Json.blank_nil (.mk (Json.spellsString_self (by decide)) Json.blank_nil hblank
      (.scalar .null)) Json.blank_nil <|
    .one hblank (.mk hescaped Json.blank_nil hblank (.emptyObject Json.blank_nil)) Json.blank_nil
  exact ⟨[], _, [']'], Json.blank_nil, hmembers, rfl⟩

theorem only_emptiness_taken_idle :
    noItems.parse " [ ]" = .ok () ∧
    execute ⟨Registration.registry [.task "Idle" ⟨idleStages⟩]⟩ "Idle" threeValues "\x7b\x7d" =
      refusal "invalid length 3, expected no positional arguments" ∧
    execute ⟨Registration.registry [.task "Idle" ⟨idleStages⟩]⟩ "Idle" " [ ]" oneName =
      refusal "invalid length 1, expected no keyword arguments" := by
  obtain ⟨hlist, -, -, -, hargs, hkwargs⟩ := only_emptiness_taken
  have hempty : noItems.parse " [ ]" = .ok () := by
    have hblank : Json.Blank [' '] := by simp [Json.Blank]
    exact (hlist " [ ]").mpr ⟨[' '], [' '], [], hblank, hblank, Json.blank_nil, rfl⟩
  have hrefusesArgs := hargs idleStages [.task "Idle" ⟨idleStages⟩] "Idle" (fun _ => rfl) rfl
  have hrefusesKwargs := hkwargs idleStages [.task "Idle" ⟨idleStages⟩] "Idle" (fun _ => rfl) rfl
  refine ⟨hempty, (hrefusesArgs.refused startsWithList_threeValues _).2, ?_⟩
  have hdecoded : idleStages.decodeArgs " [ ]" = .ok (.ok ()) := by
    show Except.ok ((noItems.parse " [ ]").mapError CodecError.decode) = _
    rw [hempty]
    rfl
  exact (hrefusesKwargs.refused startsWithObject_oneName _).2 () hdecoded

end Dispatcher

end TaskRelay
