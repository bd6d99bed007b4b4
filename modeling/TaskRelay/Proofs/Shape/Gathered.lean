import TaskRelay.Proofs.Json.Beside

/-!
# What a record and a tagged object take from a tree

A record is filled member by member, and a tag is looked for while the members are buffered. Put
together, each field looks at the members that it answers to and at no others:

> `Shape.toOption_ofJson_record`: of the members of an object an open record makes what each of its
> fields makes of the members under its names, whatever stands between them.

> `Tagged.toOption_readThen`: of a text that is an object, a tagged object makes what its tag makes
> of the other members, if exactly one member is the tag.

A member that is given once may stand anywhere, with members between that belong to nothing
(`Members.valuesOf_of_perm_append`).
-/

namespace TaskRelay

theorem toOption_eq_some_iff {ε α : Type} {r : Except ε α} {a : α} :
    r.toOption = some a ↔ r = .ok a := by
  cases r <;> simp [Except.toOption]

theorem map_eq_ok_iff {ε α β : Type} {r : Except ε α} {o : Option α} {f : α → β} {b : β}
    (h : r.toOption = o) : r.map f = .ok b ↔ ∃ a, o = some a ∧ f a = b := by
  subst h
  cases r <;> simp [Except.toOption, Except.map]

theorem mapError_eq_ok_iff {ε ε' α : Type} {r : Except ε α} {f : ε → ε'} {a : α} :
    r.mapError f = .ok a ↔ r = .ok a := by
  cases r <;> constructor <;> intro h <;> cases h <;> rfl

/-- Where nothing goes well an error is told. -/
theorem exists_mapError_eq_error {ε ε' α : Type} {r : Except ε α} {f : ε → ε'}
    (h : ∀ a, r.mapError f ≠ .ok a) : ∃ e, r.mapError f = .error (f e) := by
  cases r with
  | ok a => exact absurd rfl (h a)
  | error e => exact ⟨e, rfl⟩

/-! ## Members under one name -/

namespace Members

variable {α : Type} {key k : String} {value : α} {ms ns : List (String × α)}

/-- What the members under one name hold, in their order. -/
def valuesOf (key : String) (ms : List (String × α)) : List α :=
  (ms.filter fun m => m.1 = key).map Prod.snd

theorem valuesOf_cons_self : valuesOf key ((key, value) :: ms) = value :: valuesOf key ms := by
  simp [valuesOf]

theorem valuesOf_cons_of_ne (h : k ≠ key) : valuesOf key ((k, value) :: ms) = valuesOf key ms := by
  simp [valuesOf, h]

theorem mem_of_mem_valuesOf (h : value ∈ valuesOf key ms) : (key, value) ∈ ms := by
  obtain ⟨m, hm, rfl⟩ := List.mem_map.mp h
  obtain ⟨hmem, hkey⟩ := List.mem_filter.mp hm
  have hkey : m.1 = key := of_decide_eq_true hkey
  rw [← hkey]
  exact hmem

/-- The members under all other names. -/
def without (key : String) (ms : List (String × α)) : List (String × α) :=
  ms.filter fun m => m.1 ≠ key

/-- Leaving out a name leaves the values of the others. -/
theorem valuesOf_without (h : key ≠ k) : valuesOf key (without k ms) = valuesOf key ms := by
  unfold valuesOf without
  rw [List.filter_filter]
  congr 2
  funext m
  by_cases hm : m.1 = key
  · simp [hm, h]
  · simp [hm]

theorem valuesOf_eq_nil (h : ∀ m ∈ ms, m.1 ≠ key) : valuesOf key ms = [] := by
  simpa [valuesOf] using h

theorem valuesOf_append : valuesOf key (ms ++ ns) = valuesOf key ms ++ valuesOf key ns := by
  simp [valuesOf]

/-- The order of members changes no more than the order of values. -/
theorem perm_valuesOf (h : ms.Perm ns) : (valuesOf key ms).Perm (valuesOf key ns) :=
  (h.filter _).map _

/-- A name that is given at most once is given as often among the same members in another order,
with others between them. -/
theorem valuesOf_of_perm_append {extra : List (String × α)} {vs : List α}
    (hperm : ns.Perm (ms ++ extra)) (hextra : ∀ m ∈ extra, m.1 ≠ key) (h : valuesOf key ms = vs)
    (hone : vs.length ≤ 1) : valuesOf key ns = vs := by
  have hvalues : (valuesOf key ns).Perm (valuesOf key (ms ++ extra)) := perm_valuesOf hperm
  rw [valuesOf_append, valuesOf_eq_nil hextra, List.append_nil, h] at hvalues
  match vs, hone with
  | [], _ => exact List.perm_nil.mp hvalues
  | [v], _ => exact List.perm_singleton.mp hvalues

end Members

/-! ## Fields -/

namespace Field

variable {o : Origin} {f : Field} {s : Shape}

/-- What the members that a field answers to hold. -/
def given (f : Field) (ms : List (String × Json)) : List Json :=
  (ms.filter fun m => f.answersTo m.1).map Prod.snd

/-- The data of a field from what is given for it: one value, or none if the field may be left
out. -/
def pick (o : Origin) (f : Field) (s : Shape) : List Json → Option s.Carrier
  | [] => f.absent? s
  | [j] => (s.ofJson o j).toOption
  | _ :: _ :: _ => none

/-- A text that has to be there is there once. -/
theorem pick_text_eq_some_iff {name t : String} {js : List Json} :
    (required name).pick o .text js = some t ↔ js = [.string t] := by
  match js with
  | [] => exact ⟨fun h => (nomatch h), fun h => (nomatch h)⟩
  | [.string u] =>
    show some u = some t ↔ _
    simp
  | [.null] | [.bool _] | [.number _] | [.array _] | [.object _] =>
    exact ⟨fun h => (nomatch h), fun h => (nomatch h)⟩
  | _ :: _ :: _ => exact ⟨fun h => (nomatch h), fun h => (nomatch h)⟩

/-- Puts a value into the slot of a field, which has to be empty. -/
def put (o : Origin) (f : Field) (s : Shape) (slot : Option s.Carrier) (j : Json) :
    Except Cause (Option s.Carrier) :=
  match slot with
  | some _ => .error (.duplicateField f.name)
  | none => (s.ofJson o j).map some

/-- The value of a field is the last that was put there, or what stands for none. -/
theorem pick_eq (js : List Json) :
    f.pick o s js =
      (js.foldlM (fun slot j => (f.put o s slot j).toOption) none).bind fun slot =>
        slot.or (f.absent? s) := by
  match js with
  | [] => rfl
  | [j] =>
    simp only [pick, List.foldlM_cons, List.foldlM_nil, put]
    cases s.ofJson o j <;> rfl
  | j :: k :: js =>
    simp only [pick, List.foldlM_cons, put]
    cases s.ofJson o j <;> rfl

end Field

namespace OfJson

/-- One member after the other is taken, or passed over if nobody knows it. -/
theorem toOption_fill_cons {σ : Type} {take : σ → String → Json → Option (Except Cause σ)}
    {known : List String} {slots : σ} {key : String} {j : Json} {ms : List (String × Json)} :
    (fill take false known slots ((key, j) :: ms)).toOption =
      ((take slots key j).getD (.ok slots)).toOption.bind fun slots =>
        (fill take false known slots ms).toOption := by
  rw [fill]
  match take slots key j with
  | none => rfl
  | some (.error cause) => rfl
  | some (.ok filled) => rfl

/-- Two who take members, each those that are its own, do not get in each other's way. -/
theorem toOption_fill_pair {σ τ : Type} {own : String → Bool} {mine : σ → Json → Except Cause σ}
    {theirs : τ → String → Json → Option (Except Cause τ)}
    (take : σ × τ → String → Json → Option (Except Cause (σ × τ)))
    (htake : ∀ s t key j, take (s, t) key j =
      if own key then some ((mine s j).map fun s => (s, t))
      else (theirs t key j).map fun r => r.map fun t => (s, t))
    (known : List String) (s : σ) (t : τ) (ms : List (String × Json)) :
    (fill take false known (s, t) ms).toOption =
      (((ms.filter fun m => own m.1).map Prod.snd).foldlM (fun s j => (mine s j).toOption) s).bind
        fun s => (fill theirs false known t (ms.filter fun m => !own m.1)).toOption.map
          fun t => (s, t) := by
  induction ms generalizing s t with
  | nil => rfl
  | cons m ms ih =>
    obtain ⟨key, j⟩ := m
    rw [toOption_fill_cons, htake]
    -- a member goes to one of the two, and the other one never sees it
    cases hown : own key with
    | true =>
      simp only [if_true, List.filter_cons, hown, List.map_cons, List.foldlM_cons, Bool.not_true,
        Bool.false_eq_true, if_false]
      cases mine s j with
      | error cause => rfl
      | ok filled => exact ih filled t
    | false =>
      simp only [Bool.false_eq_true, if_false, List.filter_cons, hown, Bool.not_false, if_true]
      rw [toOption_fill_cons]
      match theirs t key j with
      | none => exact ih s t
      | some (.ok filled) => exact ih s filled
      | some (.error cause) => exact (Option.bind_fun_none _).symm

end OfJson

namespace Fields

/-- The data of an open record from the members of an object, field by field. -/
def collect (o : Origin) : (fs : Fields) → List (String × Json) → Option fs.Carrier
  | .nil, _ => some ()
  | .cons f s rest, ms =>
    (f.pick o s (f.given ms)).bind fun v =>
      (rest.collect o (ms.filter fun m => !f.answersTo m.1)).map fun vs => (v, vs)

variable {o : Origin} {known : List String}

/-- A member goes to the first field that answers to it. -/
theorem ofMember_cons {f : Field} {s : Shape} {rest : Fields} (slot : Option s.Carrier)
    (slots : rest.Slots) (key : String) (j : Json) :
    (Fields.cons f s rest).ofMember o (slot, slots) key j =
      if f.answersTo key then some ((f.put o s slot j).map fun slot => (slot, slots))
      else (rest.ofMember o slots key j).map fun r => r.map fun slots => (slot, slots) := by
  cases slot with
  | some v => rfl
  | none =>
    have hput : (f.put o s none j).map (fun slot => (slot, slots)) =
        (s.ofJson o j).map fun v => (some v, slots) := by
      simp only [Field.put]
      cases s.ofJson o j <;> rfl
    rw [hput]
    rfl

/-- Fields are there if the first one is and the others are. -/
theorem toOption_finish_cons {f : Field} {s : Shape} {rest : Fields} (slot : Option s.Carrier)
    (slots : rest.Slots) :
    ((Fields.cons f s rest).finish (slot, slots)).toOption =
      (slot.or (f.absent? s)).bind fun v => (rest.finish slots).toOption.map fun vs => (v, vs) := by
  rw [Fields.finish]
  cases slot.or (f.absent? s) with
  | none => rfl
  | some v => cases rest.finish slots <;> rfl

/-- The slots that members fill, when they are done. -/
theorem collect_eq (known : List String) : (fs : Fields) → (ms : List (String × Json)) →
    fs.collect o ms =
      (OfJson.fill (fs.ofMember o) false known fs.noSlots ms).toOption.bind fun slots =>
        (fs.finish slots).toOption
  | .nil, ms => by
    induction ms with
    | nil => rfl
    | cons m ms ih => exact ih
  | .cons f s rest, ms => by
    have hfill := OfJson.toOption_fill_pair ((Fields.cons f s rest).ofMember o) ofMember_cons known
      none rest.noSlots ms
    have hrest := collect_eq known rest (ms.filter fun m => !f.answersTo m.1)
    refine Eq.trans ?_ (congrArg (Option.bind · _) hfill.symm)
    rw [collect, Field.pick_eq, hrest]
    show _ = ((List.foldlM (fun slot j => (f.put o s slot j).toOption) none
      (f.given ms)).bind _).bind _
    cases List.foldlM (fun slot j => (f.put o s slot j).toOption) none (f.given ms) with
    | none => rfl
    | some slot =>
      cases (OfJson.fill (rest.ofMember o) false known rest.noSlots
          (ms.filter fun m => !f.answersTo m.1)).toOption with
      | none => exact Option.bind_fun_none _
      | some slots => exact (toOption_finish_cons slot slots).symm

/-- Whether a field of the record has that name. -/
def answersTo : Fields → String → Bool
  | .nil, _ => false
  | .cons f _ rest, key => f.answersTo key || rest.answersTo key

/-- Members that no field answers to do not matter. -/
theorem collect_filter : {fs : Fields} → {p : String × Json → Bool} → {ms : List (String × Json)} →
    (∀ m ∈ ms, p m = false → fs.answersTo m.1 = false) →
    fs.collect o (ms.filter p) = fs.collect o ms
  | .nil, _, _, _ => rfl
  | .cons f s rest, p, ms, h => by
    have hsplit : ∀ m ∈ ms, p m = false → f.answersTo m.1 = false ∧ rest.answersTo m.1 = false :=
      fun m hm hp => Bool.or_eq_false_iff.mp (h m hm hp)
    have hgiven : f.given (ms.filter p) = f.given ms := by
      unfold Field.given
      rw [List.filter_filter]
      refine congrArg _ (List.filter_congr fun m hm => ?_)
      cases hp : p m with
      | true => rw [Bool.and_true]
      | false => rw [(hsplit m hm hp).1, Bool.and_false]
    have hothers : rest.collect o ((ms.filter p).filter fun m => !f.answersTo m.1) =
        rest.collect o (ms.filter fun m => !f.answersTo m.1) := by
      rw [List.filter_filter, List.filter_congr fun m _ => Bool.and_comm _ _, ← List.filter_filter]
      exact collect_filter fun m hm hp => (hsplit m (List.mem_filter.mp hm).1 hp).2
    rw [collect, collect, hgiven, hothers]

/-- A name that no field answers to makes no difference. -/
theorem collect_without {fs : Fields} {key : String} {ms : List (String × Json)}
    (h : fs.answersTo key = false) : fs.collect o (Members.without key ms) = fs.collect o ms := by
  refine collect_filter fun m _ hm => ?_
  have hkey : m.1 = key := by simpa using hm
  rw [hkey]
  exact h

theorem pair_eq_some_iff {α β : Type} {x : Option α} {y : Option β} {a : α} {b : β} :
    (x.bind fun a => y.map fun b => (a, b)) = some (a, b) ↔ x = some a ∧ y = some b := by
  cases x <;> cases y <;> simp

/-- A field of one name that is no other field's looks at the members under it. -/
theorem collect_cons_eq_some_iff {f : Field} {s : Shape} {rest : Fields} (halone : f.aliases = [])
    (hrest : rest.answersTo f.name = false) {ms : List (String × Json)} {v : s.Carrier}
    {vs : rest.Carrier} :
    (Fields.cons f s rest).collect o ms = some (v, vs) ↔
      f.pick o s (Members.valuesOf f.name ms) = some v ∧ rest.collect o ms = some vs := by
  have hgiven : f.given ms = Members.valuesOf f.name ms := by
    simp [Field.given, Members.valuesOf, Field.answersTo, halone, eq_comm]
  have hothers : ms.filter (fun m => !f.answersTo m.1) = Members.without f.name ms := by
    simp [Members.without, Field.answersTo, halone, eq_comm]
  rw [collect, hgiven, hothers, collect_without hrest]
  exact pair_eq_some_iff

/-- A field that is a text is given once, and as a string. -/
theorem collect_text_cons_iff {name : String} {rest : Fields} {ms : List (String × Json)}
    (hrest : rest.answersTo name = false) {t : String} {vs : rest.Carrier} :
    (Fields.cons (.required name) .text rest).collect o ms = some (t, vs) ↔
      Members.valuesOf name ms = [.string t] ∧ rest.collect o ms = some vs :=
  (collect_cons_eq_some_iff rfl hrest).trans (and_congr_left' Field.pick_text_eq_some_iff)

end Fields

/-- An open record is taken from an object field by field. -/
theorem Shape.toOption_ofJson_record {o : Origin} {label : String} {fs : Fields}
    {ms : List (String × Json)} :
    ((Shape.record label false fs).ofJson o (.object ms)).toOption = fs.collect o ms := by
  rw [Fields.collect_eq fs.names]
  conv => lhs; arg 1; whnf
  cases OfJson.fill (fs.ofMember o) false fs.names fs.noSlots ms <;> rfl

/-- What is made of a record. -/
theorem Shape.map_ofJson_record_eq_ok_iff {α : Type} {o : Origin} {label : String} {fs : Fields}
    {ms : List (String × Json)} {f : fs.Carrier → α} {a : α} :
    ((Shape.record label false fs).ofJson o (.object ms)).map f = .ok a ↔
      ∃ vs, fs.collect o ms = some vs ∧ f vs = a :=
  map_eq_ok_iff Shape.toOption_ofJson_record

/-! ## Tags -/

/-- The tag that a tree is the name of. -/
def Tags.tagOf {τ : Type} (tags : Tags τ) : Json → Option τ
  | .string name => Members.get? name tags.choices
  | _ => none

namespace Tagged

open Reading (Ends)

variable {τ : Type} {tags : Tags τ} {limit : Nat} {c c' : Cursor}

/-- The tag of an object and its other members, if exactly one member is the tag. -/
def gather (tags : Tags τ) (ms : List (String × Json)) : Option (τ × List (String × Json)) :=
  match Members.valuesOf key ms with
  | [j] => (tags.tagOf j).map fun tag => (tag, Members.without key ms)
  | _ => none

/-- A tag is given once, and is one of the choices. -/
theorem gather_eq_some_iff {ms rest : List (String × Json)} {tag : τ} :
    gather tags ms = some (tag, rest) ↔
      (∃ name, Members.valuesOf key ms = [.string name] ∧
        Members.get? name tags.choices = some tag) ∧ Members.without key ms = rest := by
  unfold gather
  match Members.valuesOf key ms with
  | [.string name] =>
    constructor
    · intro h
      obtain ⟨t, ht, heq⟩ := Option.map_eq_some_iff.mp h
      cases heq
      exact ⟨⟨name, rfl, ht⟩, rfl⟩
    · rintro ⟨⟨other, hname, htag⟩, rfl⟩
      cases hname
      exact Option.map_eq_some_iff.mpr ⟨tag, htag, rfl⟩
  | [.null] | [.bool _] | [.number _] | [.array _] | [.object _] | [] | _ :: _ :: _ =>
    simp [Tags.tagOf]

/-- A member is the tag, if there is none yet, or it is kept. -/
def found (tags : Tags τ) (s : Option τ × List (String × Json)) (m : String × Json) :
    Option (Option τ × List (String × Json)) :=
  if m.1 = key then
    match s.1 with
    | some _ => none
    | none => (tags.tagOf m.2).map fun tag => (some tag, s.2)
  else some (s.1, m :: s.2)

/-- Behind the tag all members are kept, if none of them is a tag. -/
theorem foldlM_found_some (tag : τ) (done ms : List (String × Json)) :
    ms.foldlM (found tags) (some tag, done) =
      if Members.valuesOf key ms = [] then
        some (some tag, (Members.without key ms).reverse ++ done)
      else none := by
  induction ms generalizing done with
  | nil => rfl
  | cons m ms ih =>
    obtain ⟨k, j⟩ := m
    rw [List.foldlM_cons]
    by_cases hk : k = key
    · rw [hk, Members.valuesOf_cons_self]
      rfl
    · have hfound : found tags (some tag, done) (k, j) = some (some tag, (k, j) :: done) :=
        if_neg hk
      rw [hfound, Members.valuesOf_cons_of_ne hk]
      refine (ih _).trans ?_
      simp [Members.without, hk]

/-- Going through the members from the left finds the tag and leaves the rest. -/
theorem foldlM_found (tags : Tags τ) (done ms : List (String × Json)) :
    ((ms.foldlM (found tags) (none, done)).bind fun s => s.1.map fun tag => (tag, s.2.reverse)) =
      (gather tags ms).map fun s => (s.1, done.reverse ++ s.2) := by
  induction ms generalizing done with
  | nil => rfl
  | cons m ms ih =>
    obtain ⟨k, j⟩ := m
    rw [List.foldlM_cons]
    -- the tag stops the search for it, and anything else is kept for later
    by_cases hk : k = key
    · subst hk
      have hfound : found tags (none, done) (key, j) =
          (tags.tagOf j).map fun tag => (some tag, done) := if_pos rfl
      rw [hfound, gather, Members.valuesOf_cons_self]
      cases htag : tags.tagOf j with
      | none => cases Members.valuesOf key ms <;> simp [htag]
      | some tag =>
        show (ms.foldlM (found tags) (some tag, done)).bind _ = _
        rw [foldlM_found_some]
        cases Members.valuesOf key ms with
        | nil => simp [htag, Members.without]
        | cons v vs => rfl
    · have hfound : found tags (none, done) (k, j) = some (none, (k, j) :: done) := if_neg hk
      have hgather : gather tags ((k, j) :: ms) =
          (gather tags ms).map fun s => (s.1, (k, j) :: s.2) := by
        rw [gather, gather, Members.valuesOf_cons_of_ne hk]
        match Members.valuesOf key ms with
        | [] => rfl
        | [v] => simp [Members.without, hk, Function.comp_def]
        | _ :: _ :: _ => rfl
      rw [hfound, hgather, Option.map_map]
      refine (ih _).trans ?_
      simp [Function.comp_def]

/-- A tag is read beside its tree. -/
theorem ends_readTag {j : Json} (h : Json.read limit c = .ok (j, c')) :
    Ends c' (readTag tags c) (tags.tagOf j) := by
  unfold readTag Reading.byKind
  obtain ⟨_, js, _, rest, -, rfl, hrest, -⟩ | ⟨_, ms, _, rest, -, rfl, hrest, -⟩ |
    ⟨-, hrest, hread⟩ := Json.read_cases h
  · simp only [hrest]
    exact .refused _
  · simp only [hrest]
    exact .refused _
  · dsimp only
    split
    · next h => exact absurd h (hrest _).1
    · next h => exact absurd h (hrest _).2
    · refine .behind hread ?_
      cases j with
      | string name =>
        unfold Tags.tagOf
        dsimp only
        cases Members.get? name tags.choices with
        | none => exact .refused _
        | some tag => exact .taken tag
      | null | bool _ | number _ | array _ | object _ => exact .refused _

/-- A member of an object is the tag, or kept beside its tree. -/
theorem ends_readMember (tags : Tags τ) (s : Option τ × List (String × Json)) (name : String)
    (j : Json) (c c₁ c' : Cursor) (hcolon : c.colon = .ok ((), c₁))
    (hj : Json.read limit c₁ = .ok (j, c')) :
    Ends c' (readMember tags limit s name c) (found tags s (name, j)) := by
  obtain ⟨tag, done⟩ := s
  unfold readMember found
  dsimp only
  by_cases hname : name = key
  · rw [if_pos hname, if_pos hname]
    cases tag with
    | some tag => exact .refused _
    | none => exact .behind hcolon ((ends_readTag hj).map _)
  · rw [if_neg hname, if_neg hname]
    refine Ends.map (o := some ((name, j) :: done)) ?_ _
    refine .behind hcolon ?_
    rw [hj]
    exact .taken _

/-- The tag of an object and its other members are read beside the tree of the object. -/
theorem ends_read (tags : Tags τ) {ms : List (String × Json)}
    (h : Json.read limit c = .ok (.object ms, c')) :
    Ends c' (read tags limit c) ((gather tags ms).map fun s => (s.1, .object s.2)) := by
  obtain ⟨_, _, _, _, -, hj, -⟩ | ⟨inner, _, c₁, rest, rfl, hj, hrest, hentries, hend⟩ | ⟨hj, -⟩ :=
    Json.read_cases h
  · cases hj
  · cases hj
    unfold read Reading.byKind
    simp only [hrest]
    refine Ends.inObject ?_ hend
    obtain ⟨ms', hms', hmembers⟩ := Ends.entriesFrom (ends_readMember tags) hentries
    rw [List.append_nil, List.reverse_inj] at hms'
    subst hms'
    -- `found` collects the members from the back, so what was gathered is turned round
    have hgather : (gather tags ms).map (fun s => (s.1, Json.object s.2)) =
        (ms.foldlM (found tags) (none, [])).bind fun s =>
          s.1.map fun tag => (tag, .object s.2.reverse) := by
      have hfold := congrArg (Option.map fun s => (s.1, Json.object s.2))
        (foldlM_found tags [] ms)
      simpa [Option.map_bind, Function.comp_def] using hfold.symm
    rw [hgather]
    refine (hmembers _).andThen fun s _ => ?_
    cases s.1 with
    | none => exact .refused _
    | some tag => exact .taken _
  · exact hj.elim

/-- What the text of an object says, if it says anything: its tag says it of the other members. -/
theorem toOption_readThen {α : Type} {take : τ → Json → Except Cause α} {s : String}
    {ms : List (String × Json)} (h : Json.parse s = .ok (.object ms)) :
    (readAll (readThen tags take) s).toOption =
      (gather tags ms).bind fun found => (take found.1 (.object found.2)).toOption := by
  obtain ⟨c, hread, hend⟩ := readAll_eq_ok h
  refine Ends.readAll ?_ hend
  have hends : Ends c (readThen tags take (.ofText s)) _ :=
    (ends_read tags hread).andThen fun found _ => .ofExcept (take found.1 found.2)
  rwa [Option.bind_map] at hends

/-- An object with a tag is read if its tag is a choice and the rest is what that choice takes. -/
theorem readThen_eq_ok_iff {α : Type} {take : τ → Json → Except Cause α} {s : String}
    {ms : List (String × Json)} (h : Json.parse s = .ok (.object ms)) {a : α} :
    readAll (readThen tags take) s = .ok a ↔
      ∃ name tag, Members.valuesOf key ms = [.string name] ∧
        Members.get? name tags.choices = some tag ∧
        take tag (.object (Members.without key ms)) = .ok a := by
  rw [← toOption_eq_some_iff, toOption_readThen h, Option.bind_eq_some_iff]
  constructor
  · rintro ⟨⟨tag, rest⟩, hgather, htake⟩
    obtain ⟨⟨name, hname, htag⟩, rfl⟩ := gather_eq_some_iff.mp hgather
    exact ⟨name, tag, hname, htag, toOption_eq_some_iff.mp htake⟩
  · rintro ⟨name, tag, hname, htag, htake⟩
    exact ⟨(tag, _), gather_eq_some_iff.mpr ⟨⟨name, hname, htag⟩, rfl⟩,
      toOption_eq_some_iff.mpr htake⟩

end Tagged

end TaskRelay
