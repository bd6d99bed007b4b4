import TaskRelay.Proofs.Json.Scalars

/-!
# Trees are read as they were written

The printer writes trees of any depth; the reader opens only so many containers at once. So what
was written comes back if it is not nested too deeply, and otherwise the reader says just that:

> `Json.faithful_read`: of the text of a tree without doubles, a reader that may open `limit`
> containers makes the tree if its depth is within the limit, and complains about the nesting if
> it is not.

The proof is by induction on the limit, which is also how the reader recurses. What happens
between the brackets is said for any reader of items (`TakesItems`) and of members (`Takes`).
-/

namespace TaskRelay

open Reading (itemsFrom inList)

/-! ## What values start with and end at -/

section

variable {rest : List Char}

theorem follows_nil : Follows [] := fun _ hc => by cases hc

theorem follows_bracket : Follows (']' :: rest) := fun _ hc => by cases hc; exact .inr (.inl rfl)

theorem follows_brace : Follows ('}' :: rest) := fun _ hc => by cases hc; exact .inr (.inr rfl)

theorem follows_comma : Follows (',' :: rest) := fun _ hc => by cases hc; exact .inl rfl

/-- The items that are written behind one may follow it. -/
theorem follows_writeItems (js : List Json) (rest : List Char) :
    Follows (Json.writeItems js (']' :: rest)) := by
  cases js with
  | nil => exact follows_bracket
  | cons j js => exact follows_comma

/-- The members that are written behind one may follow it. -/
theorem follows_writeMembers (ms : List (String × Json)) (rest : List Char) :
    Follows (Json.writeMembers ms ('}' :: rest)) := by
  cases ms with
  | nil => exact follows_brace
  | cons m ms => exact follows_comma

/-- What the text of a value starts with. A bracket or a brace there is that of the value. -/
def Opens (j : Json) (x : Char) : Prop :=
  Cursor.isBlank x = false ∧ x ≠ ']' ∧ (Scalar.IsScalar j → x ≠ '[' ∧ x ≠ '{')

theorem Scalar.opens_number {j : Json} {x : Char} (hx : x = '-' ∨ isDigit x = true) :
    Opens j x := by
  have hne : ∀ y, ¬ (y = '-' ∨ isDigit y = true) → x ≠ y := fun y hy he => hy (he ▸ hx)
  refine ⟨?_, hne _ (by decide), fun _ => ⟨hne _ (by decide), hne _ (by decide)⟩⟩
  simp only [Cursor.isBlank, Bool.or_eq_false_iff, decide_eq_false_iff_not]
  exact ⟨⟨⟨hne _ (by decide), hne _ (by decide)⟩, hne _ (by decide)⟩, hne _ (by decide)⟩

/-- What is written has a first character, which tells what kind of value it opens. -/
theorem exists_write_eq_cons {j : Json} (hd : j.DoubleFree) (rest : List Char) :
    ∃ x more, j.write rest = x :: more ∧ Opens j x := by
  cases j with
  | null => exact ⟨'n', _, rfl, by decide, by decide, fun _ => by decide⟩
  | bool b =>
    cases b with
    | true => exact ⟨'t', _, rfl, by decide, by decide, fun _ => by decide⟩
    | false => exact ⟨'f', _, rfl, by decide, by decide, fun _ => by decide⟩
  | string s => exact ⟨'"', _, rfl, by decide, by decide, fun _ => by decide⟩
  | number n =>
    cases n with
    | double => exact hd.elim
    | whole w =>
      obtain ⟨x, more, htext, hx⟩ := Scalar.exists_numberText_eq_cons w
      exact ⟨x, more ++ rest, by rw [Json.write, htext]; rfl, Scalar.opens_number hx⟩
  | array js => cases js <;> exact ⟨'[', _, rfl, by decide, by decide, fun h => h.elim⟩
  | object ms => cases ms <;> exact ⟨'{', _, rfl, by decide, by decide, fun h => h.elim⟩

end

namespace Cursor

/-! ## Between entries -/

variable {x : Char} {rest more : List Char} {mode : Mode} {first : Bool}

/-- There is nothing to skip in front of a character that is not blank. -/
theorem skipBlank_cons (hx : isBlank x = false) (p : Position) :
    skipBlank ⟨x :: rest, p⟩ = ⟨x :: rest, p⟩ := by
  simp [skipBlank, skipBlankFrom, hx]

/-- A bracket ends a list. -/
theorem nextItem_end : Reads (nextItem mode first) (']' :: rest) false (']' :: rest) :=
  fun p => ⟨p, rfl⟩

/-- Anything else is its first item. -/
theorem nextItem_first (hblank : isBlank x = false) (hx : x ≠ ']') :
    Reads (nextItem mode true) (x :: rest) true (x :: rest) := by
  intro p
  refine ⟨p, ?_⟩
  unfold nextItem
  simp only [skipBlank_cons hblank, if_true]

/-- Behind a comma comes the next item. -/
theorem nextItem_comma (hblank : isBlank x = false) (hx : x ≠ ']') :
    Reads (nextItem mode false) (',' :: x :: rest) true (x :: rest) := by
  intro p
  refine ⟨p.after ',', ?_⟩
  have hcomma : skipBlank ⟨',' :: x :: rest, p⟩ = ⟨',' :: x :: rest, p⟩ := skipBlank_cons rfl p
  have hnext : (next ⟨',' :: x :: rest, p⟩).skipBlank = ⟨x :: rest, p.after ','⟩ :=
    skipBlank_cons hblank _
  unfold nextItem
  simp only [hcomma, hnext, Char.reduceEq, imp_self, Bool.false_eq_true, if_false, if_true]
  split
  · next h => cases h
  · next h => exact absurd (List.cons.inj h).1 hx
  · next h => exact absurd (List.cons.inj h).1 hx
  · rfl

/-- A brace ends an object. -/
theorem nextKey_end : Reads (nextKey mode first) ('}' :: rest) false ('}' :: rest) :=
  fun p => ⟨p, rfl⟩

theorem nextKey_first : Reads (nextKey mode true) ('"' :: rest) true ('"' :: rest) :=
  fun p => ⟨p, rfl⟩

/-- Behind a comma comes the next key. -/
theorem nextKey_comma : Reads (nextKey mode false) (',' :: '"' :: rest) true ('"' :: rest) :=
  fun p => ⟨p.after ',', rfl⟩

theorem colon_cons : Reads colon (':' :: rest) () rest := fun p => ⟨p.after ':', rfl⟩

end Cursor

/-! ## Brackets -/

section

variable {α : Type} {body : Cursor → Reading α} {text rest : List Char} {a : α} {m : Malformed}

/-- The brackets are read around the items. -/
theorem Reads.inList (h : Reads body text a (']' :: rest)) :
    Reads (inList body) ('[' :: text) a rest := by
  intro p
  obtain ⟨q, hq⟩ := h (p.after '[')
  refine ⟨q.after ']', ?_⟩
  unfold Reading.inList
  simp only [Cursor.next, hq]
  rfl

/-- What is refused between brackets is refused with them. -/
theorem Refuses.inList (h : Refuses body text m) : Refuses (inList body) ('[' :: text) m := by
  intro p
  obtain ⟨q, hq⟩ := h (p.after '[')
  refine ⟨q, ?_⟩
  unfold Reading.inList
  simp only [Cursor.next, hq]
  rfl

/-- The braces are read around the members. -/
theorem Reads.inObject (h : Reads body text a ('}' :: rest)) :
    Reads (Reading.inObject body) ('{' :: text) a rest := by
  intro p
  obtain ⟨q, hq⟩ := h (p.after '{')
  refine ⟨q.after '}', ?_⟩
  unfold Reading.inObject
  simp only [Cursor.next, hq]
  rfl

/-- What is refused between braces is refused with them. -/
theorem Refuses.inObject (h : Refuses body text m) :
    Refuses (Reading.inObject body) ('{' :: text) m := by
  intro p
  obtain ⟨q, hq⟩ := h (p.after '{')
  refine ⟨q, ?_⟩
  unfold Reading.inObject
  simp only [Cursor.next, hq]
  rfl

end

/-! ## Lengths

An entry takes a character at least, so the text is as long as the reader needs it to be. -/

/-- A string takes at least its quotes. -/
theorem Json.length_lt_writeString (s : String) (rest : List Char) :
    rest.length < (writeString s rest).length := by
  have hchars : ∀ cs : List Char, rest.length < (writeChars cs ('"' :: rest)).length := fun cs => by
    induction cs with
    | nil => exact Nat.lt_succ_self _
    | cons c cs ih =>
      show _ < (escapeChar c ++ writeChars cs ('"' :: rest)).length
      rw [List.length_append]
      omega
  exact Nat.lt_succ_of_lt (hchars s.toList)

mutual

/-- What is written adds to what follows. -/
theorem Json.length_le_write (rest : List Char) : (j : Json) → rest.length ≤ (j.write rest).length
  | .null | .bool true | .bool false => by simp only [write, List.length_cons]; omega
  | .number n => by simp only [write, List.length_append]; omega
  | .string s => Nat.le_of_lt (length_lt_writeString s rest)
  | .array [] | .object [] => by simp only [write, List.length_cons]; omega
  | .array (j :: js) => by
    have hitems := length_le_writeItems (']' :: rest) js
    have hitem := length_le_write (writeItems js (']' :: rest)) j
    simp only [write, List.length_cons] at *
    omega
  | .object ((key, j) :: ms) => by
    have hmembers := length_le_writeMembers ('}' :: rest) ms
    have hvalue := length_le_write (writeMembers ms ('}' :: rest)) j
    have hkey := length_lt_writeString key (':' :: j.write (writeMembers ms ('}' :: rest)))
    simp only [write, List.length_cons] at *
    omega

/-- Every item takes a character. -/
theorem Json.length_le_writeItems (rest : List Char) :
    (js : List Json) → rest.length + js.length ≤ (writeItems js rest).length
  | [] => Nat.le_refl _
  | j :: js => by
    have hitems := length_le_writeItems rest js
    have hitem := length_le_write (writeItems js rest) j
    simp only [writeItems, List.length_cons]
    omega

/-- Every member takes a character. -/
theorem Json.length_le_writeMembers (rest : List Char) :
    (ms : List (String × Json)) → rest.length + ms.length ≤ (writeMembers ms rest).length
  | [] => Nat.le_refl _
  | (key, j) :: ms => by
    have hmembers := length_le_writeMembers rest ms
    have hvalue := length_le_write (writeMembers ms rest) j
    have hkey := length_lt_writeString key (':' :: j.write (writeMembers ms rest))
    simp only [writeMembers, List.length_cons] at *
    omega

end

/-! ## Items -/

/-- A list is read with as much fuel as it has text. -/
theorem Reads.items {α : Type} {mode : Mode} {item : Cursor → Reading α} {text rest : List Char}
    {as : List α} (h : Reads (itemsFrom mode item (' ' :: text) true []) text as rest) :
    Reads (Reading.items mode item) text as rest := fun p => h p

/-- There is one more character of fuel than the text has. -/
theorem Refuses.items {α : Type} {item : Cursor → Reading α} {text : List Char} {m : Malformed}
    (h : Refuses (itemsFrom .keep item (' ' :: text) true []) text m) :
    Refuses (Reading.items .keep item) text m := fun p => h p

section

variable {α : Type} {item : Cursor → Reading α} {fuel rest : List Char} {j : Json}
  {js after : List Json} {as done : List α} {m : Malformed}

/-- Each tree is read as the item that stands at its place. -/
inductive TakesItems (item : Cursor → Reading α) : List Json → List α → Prop
  | nil : TakesItems item [] []
  | cons {j : Json} {a : α} {js : List Json} {as : List α} (hd : j.DoubleFree)
      (hitem : ∀ rest, Follows rest → Reads item (j.write rest) a rest)
      (hjs : TakesItems item js as) : TakesItems item (j :: js) (a :: as)

/-- What is written is the first item of a list. -/
theorem Cursor.nextItem_write {mode : Mode} (hd : j.DoubleFree) :
    Reads (nextItem mode true) (j.write rest) true (j.write rest) := by
  obtain ⟨x, more, htext, hblank, hx, -⟩ := exists_write_eq_cons hd rest
  rw [htext]
  exact nextItem_first hblank hx

theorem Cursor.nextItem_comma_write {mode : Mode} (hd : j.DoubleFree) :
    Reads (nextItem mode false) (',' :: j.write rest) true (j.write rest) := by
  obtain ⟨x, more, htext, hblank, hx, -⟩ := exists_write_eq_cons hd rest
  rw [htext]
  exact nextItem_comma hblank hx

/-- Items that are taken one by one are read where they are written one behind the other. -/
theorem TakesItems.itemsFrom (h : TakesItems item js as) (rest : List Char) (done : List α)
    (hfuel : js.length < fuel.length) :
    Reads (Reading.itemsFrom .keep item fuel false done) (Json.writeItems js (']' :: rest))
      (done.reverse ++ as) (']' :: rest) := by
  induction h generalizing fuel done with
  | nil =>
    cases fuel with
    | nil => cases hfuel
    | cons _ fuel =>
      refine Cursor.nextItem_end.andThen fun p => ⟨p, ?_⟩
      simp
  | @cons j a js as hd hitem _ ih =>
    cases fuel with
    | nil => cases hfuel
    | cons _ fuel =>
      have hread := hitem _ (follows_writeItems js rest)
      have hmore := ih (a :: done) (Nat.lt_of_succ_lt_succ hfuel)
      rw [List.reverse_cons, List.append_assoc, List.singleton_append] at hmore
      exact (Cursor.nextItem_comma_write hd).andThen (hread.andThen hmore)

/-- A list is refused for the first item that is. -/
theorem TakesItems.refuses_itemsFrom (h : TakesItems item js as) (hd : j.DoubleFree)
    (hbad : ∀ rest, Follows rest → Refuses item (j.write rest) m) (after : List Json)
    (rest : List Char) (done : List α) (hfuel : js.length < fuel.length) :
    Refuses (Reading.itemsFrom .keep item fuel false done)
      (Json.writeItems (js ++ j :: after) (']' :: rest)) m := by
  induction h generalizing fuel done with
  | nil =>
    cases fuel with
    | nil => cases hfuel
    | cons _ fuel =>
      have hitem := hbad _ (follows_writeItems after rest)
      rw [List.nil_append, Json.writeItems]
      exact (Cursor.nextItem_comma_write hd).refuses_andThen hitem.andThen
  | @cons i a js as hdi hitem _ ih =>
    cases fuel with
    | nil => cases hfuel
    | cons _ fuel =>
      have hread := hitem _ (follows_writeItems (js ++ j :: after) rest)
      rw [List.cons_append, Json.writeItems]
      exact (Cursor.nextItem_comma_write hdi).refuses_andThen
        (hread.refuses_andThen (ih (a :: done) (Nat.lt_of_succ_lt_succ hfuel)))

/-- Behind the first item of a list there are no more items than characters. -/
theorem length_lt_items (j : Json) (js : List Json) (rest : List Char) :
    js.length < (j.write (Json.writeItems js (']' :: rest))).length := by
  have hitems := Json.length_le_writeItems (']' :: rest) js
  have hitem := Json.length_le_write (Json.writeItems js (']' :: rest)) j
  simp only [List.length_cons] at hitems
  omega

/-- What the reader of items makes of a list in which all of them can be taken. -/
theorem TakesItems.exists_text (h : TakesItems item js as) (rest : List Char) :
    ∃ text, (Json.array js).write rest = '[' :: text ∧
      Reads (Reading.items .keep item) text as (']' :: rest) := by
  cases h with
  | nil => exact ⟨_, rfl, fun p => ⟨p, rfl⟩⟩
  | @cons j a js as hd hitem hjs =>
    have hread := hitem _ (follows_writeItems js rest)
    have hmore := hjs.itemsFrom rest [a] (length_lt_items j js rest)
    exact ⟨_, rfl, Reads.items ((Cursor.nextItem_write hd).andThen (hread.andThen hmore))⟩

/-- An item that cannot be taken stops the reader, if all items before it can. -/
theorem TakesItems.exists_text_refuses (h : TakesItems item js as) (hd : j.DoubleFree)
    (hbad : ∀ rest, Follows rest → Refuses item (j.write rest) m) (after : List Json)
    (rest : List Char) :
    ∃ text, (Json.array (js ++ j :: after)).write rest = '[' :: text ∧
      Refuses (Reading.items .keep item) text m := by
  cases h with
  | nil =>
    have hitem := hbad _ (follows_writeItems after rest)
    exact ⟨_, rfl, Refuses.items ((Cursor.nextItem_write hd).refuses_andThen hitem.andThen)⟩
  | @cons i a js as hdi hitem hjs =>
    have hread := hitem _ (follows_writeItems (js ++ j :: after) rest)
    have hmore := hjs.refuses_itemsFrom hd hbad after rest [a]
      (Nat.lt_of_le_of_lt (by simp) (length_lt_items i (js ++ j :: after) rest))
    exact ⟨_, rfl, Refuses.items ((Cursor.nextItem_write hdi).refuses_andThen
      (hread.refuses_andThen hmore))⟩

end

/-! ## Members -/

section

variable {σ : Type} {entry : σ → String → Cursor → Reading σ}

/-- From state to state, members are taken as they were written. -/
inductive Takes (entry : σ → String → Cursor → Reading σ) : σ → List (String × Json) → σ → Prop
  | nil {s : σ} : Takes entry s [] s
  | cons {s t u : σ} {key : String} {value : Json} {ms : List (String × Json)}
      (hentry : ∀ rest, Follows rest → Reads (entry s key) (':' :: value.write rest) t rest)
      (hms : Takes entry t ms u) : Takes entry s ((key, value) :: ms) u

variable {s t : σ} {fuel rest : List Char} {ms after : List (String × Json)} {key : String}
  {value : Json} {m : Malformed}

/-- An object is read with as much fuel as it has text. -/
theorem Reads.entries {mode : Mode} {text : List Char}
    (h : Reads (Reading.entriesFrom mode entry (' ' :: text) true s) text t rest) :
    Reads (Reading.entries mode entry s) text t rest := fun p => h p

theorem Refuses.entries {text : List Char}
    (h : Refuses (Reading.entriesFrom .keep entry (' ' :: text) true s) text m) :
    Refuses (Reading.entries .keep entry s) text m := fun p => h p

/-- Members that are taken in two parts are taken. -/
theorem Takes.append {u : σ} {ns : List (String × Json)} (h : Takes entry s ms t)
    (hns : Takes entry t ns u) : Takes entry s (ms ++ ns) u := by
  induction h with
  | nil => exact hns
  | cons hentry _ ih => exact .cons hentry (ih hns)

/-- Members that are taken one by one are read where they are written one behind the other. -/
theorem Takes.entriesFrom (h : Takes entry s ms t) (rest : List Char)
    (hfuel : ms.length < fuel.length) :
    Reads (Reading.entriesFrom .keep entry fuel false s) (Json.writeMembers ms ('}' :: rest)) t
      ('}' :: rest) := by
  induction h generalizing fuel with
  | nil =>
    cases fuel with
    | nil => cases hfuel
    | cons _ fuel => exact Cursor.nextKey_end.andThen fun p => ⟨p, rfl⟩
  | @cons s _ _ key value ms hentry _ ih =>
    cases fuel with
    | nil => cases hfuel
    | cons _ fuel =>
      have hmore := ih (Nat.lt_of_succ_lt_succ hfuel)
      have hvalue := hentry _ (follows_writeMembers ms rest)
      exact Cursor.nextKey_comma.andThen
        ((Scalar.string_writeString key _).andThen (hvalue.andThen hmore))

/-- An object is refused for the first member that is. -/
theorem Takes.refuses_entriesFrom (h : Takes entry s ms t)
    (hbad : ∀ rest, Follows rest → Refuses (entry t key) (':' :: value.write rest) m)
    (after : List (String × Json)) (rest : List Char) (hfuel : ms.length < fuel.length) :
    Refuses (Reading.entriesFrom .keep entry fuel false s)
      (Json.writeMembers (ms ++ (key, value) :: after) ('}' :: rest)) m := by
  induction h generalizing fuel with
  | nil =>
    cases fuel with
    | nil => cases hfuel
    | cons _ fuel =>
      have hvalue := hbad _ (follows_writeMembers after rest)
      rw [List.nil_append, Json.writeMembers]
      exact Cursor.nextKey_comma.refuses_andThen
        ((Scalar.string_writeString key _).refuses_andThen hvalue.andThen)
  | @cons s _ _ k v ms hentry _ ih =>
    cases fuel with
    | nil => cases hfuel
    | cons _ fuel =>
      have hmore := ih hbad (Nat.lt_of_succ_lt_succ hfuel)
      have hvalue := hentry _ (follows_writeMembers (ms ++ (key, value) :: after) rest)
      rw [List.cons_append, Json.writeMembers]
      exact Cursor.nextKey_comma.refuses_andThen
        ((Scalar.string_writeString k _).refuses_andThen (hvalue.refuses_andThen hmore))

/-- Behind the first member of an object there are no more members than characters. -/
theorem length_lt_members (key : String) (value : Json) (ms : List (String × Json))
    (rest : List Char) : ms.length <
      (Json.writeString key (':' :: value.write (Json.writeMembers ms ('}' :: rest)))).length := by
  have hmembers := Json.length_le_writeMembers ('}' :: rest) ms
  have hvalue := Json.length_le_write (Json.writeMembers ms ('}' :: rest)) value
  have hkey := Json.length_lt_writeString key
    (':' :: value.write (Json.writeMembers ms ('}' :: rest)))
  simp only [List.length_cons] at hmembers hkey
  omega

/-- What the reader of members makes of an object in which all of them can be taken. -/
theorem Takes.exists_text (h : Takes entry s ms t) (rest : List Char) :
    ∃ text, (Json.object ms).write rest = '{' :: text ∧
      Reads (Reading.entries .keep entry s) text t ('}' :: rest) := by
  cases h with
  | nil => exact ⟨_, rfl, fun p => ⟨p, rfl⟩⟩
  | @cons _ _ _ key value ms hentry hms =>
    have hfollows := follows_writeMembers ms rest
    have hmore := hms.entriesFrom rest (length_lt_members key value ms rest)
    exact ⟨_, rfl, Reads.entries (Cursor.nextKey_first.andThen
      ((Scalar.string_writeString key _).andThen ((hentry _ hfollows).andThen hmore)))⟩

/-- A member that cannot be taken stops the reader, if all members before it can. -/
theorem Takes.exists_text_refuses (h : Takes entry s ms t)
    (hbad : ∀ rest, Follows rest → Refuses (entry t key) (':' :: value.write rest) m)
    (after : List (String × Json)) (rest : List Char) :
    ∃ text, (Json.object (ms ++ (key, value) :: after)).write rest = '{' :: text ∧
      Refuses (Reading.entries .keep entry s) text m := by
  cases h with
  | nil =>
    have hfollows := follows_writeMembers after rest
    exact ⟨_, rfl, Refuses.entries (Cursor.nextKey_first.refuses_andThen
      ((Scalar.string_writeString key _).refuses_andThen (hbad _ hfollows).andThen))⟩
  | @cons _ _ _ k v ms hentry hms =>
    have hfollows := follows_writeMembers (ms ++ (key, value) :: after) rest
    have hmore := hms.refuses_entriesFrom hbad after rest
      (Nat.lt_of_le_of_lt (by simp) (length_lt_members k v (ms ++ (key, value) :: after) rest))
    have hvalue := (hentry _ hfollows).refuses_andThen hmore
    exact ⟨_, rfl, Refuses.entries (Cursor.nextKey_first.refuses_andThen
      ((Scalar.string_writeString k _).refuses_andThen hvalue))⟩

end

/-! ## Trees -/

/-- A reader of values that may open `limit` containers, by what it makes of written trees. -/
def Faithful (limit : Nat) (value : Cursor → Reading Json) : Prop :=
  ∀ (j : Json) (rest : List Char), j.DoubleFree → Follows rest →
    (j.depth ≤ limit → Reads value (j.write rest) j rest) ∧
    (limit < j.depth → Refuses value (j.write rest) .nestedTooDeeply)

section

variable {limit : Nat} {value : Cursor → Reading Json} {rest : List Char} {j : Json}
  {js : List Json} {ms done : List (String × Json)} {key : String} {m : Malformed}

/-- A faithful reader takes all items that are nested no deeper than it may read. -/
theorem Faithful.takesItems (h : Faithful limit value) (hd : Json.DoubleFreeItems js)
    (hdepth : Json.depthItems js ≤ limit) : TakesItems value js js := by
  induction js with
  | nil => exact .nil
  | cons j js ih =>
    obtain ⟨hj, hjs⟩ := hd
    simp only [Json.depthItems, Nat.max_le] at hdepth
    exact .cons hj (fun rest hrest => (h j rest hj hrest).1 hdepth.1) (ih hjs hdepth.2)

/-- The first item that is nested too deeply. -/
theorem Json.exists_deep_item (hdepth : limit < Json.depthItems js) :
    ∃ before j after, js = before ++ j :: after ∧ Json.depthItems before ≤ limit ∧
      limit < j.depth := by
  induction js with
  | nil => cases hdepth
  | cons j js ih =>
    by_cases hle : j.depth ≤ limit
    · have hmore : limit < Json.depthItems js := by
        simp only [Json.depthItems] at hdepth
        omega
      obtain ⟨before, i, after, rfl, hbefore, hi⟩ := ih hmore
      exact ⟨j :: before, i, after, rfl, by simp only [depthItems]; omega, hi⟩
    · exact ⟨[], j, js, rfl, by simp [depthItems], by omega⟩

/-- No item is a double if none is in either part. -/
theorem Json.doubleFreeItems_append {is : List Json} :
    Json.DoubleFreeItems (is ++ js) ↔ Json.DoubleFreeItems is ∧ Json.DoubleFreeItems js := by
  induction is with
  | nil => simp [DoubleFreeItems]
  | cons i is ih => simp [DoubleFreeItems, ih, and_assoc]

/-- What the reader of lists makes of a list. -/
theorem Faithful.inList_items (h : Faithful limit value) (rest : List Char)
    (hd : Json.DoubleFreeItems js) :
    (Json.depthItems js ≤ limit →
      Reads (inList (Reading.items .keep value)) ((Json.array js).write rest) js rest) ∧
    (limit < Json.depthItems js →
      Refuses (inList (Reading.items .keep value)) ((Json.array js).write rest)
        .nestedTooDeeply) := by
  constructor
  · intro hdepth
    obtain ⟨text, htext, hread⟩ := (h.takesItems hd hdepth).exists_text rest
    rw [htext]
    exact hread.inList
  · intro hdepth
    obtain ⟨before, j, after, rfl, hbefore, hj⟩ := Json.exists_deep_item hdepth
    obtain ⟨hdbefore, hdj, -⟩ := Json.doubleFreeItems_append.mp hd
    obtain ⟨text, htext, hread⟩ := (h.takesItems hdbefore hbefore).exists_text_refuses hdj
      (fun rest hrest => (h j rest hdj hrest).2 hj) after rest
    rw [htext]
    exact hread.inList

/-- A member is kept with its key. -/
theorem Reads.keepMember (h : Reads value (j.write rest) j rest) :
    Reads (Json.keepMember value done key) (':' :: j.write rest) ((key, j) :: done) rest :=
  Cursor.colon_cons.andThen h.map

/-- It is refused if its value is. -/
theorem Refuses.keepMember (h : Refuses value (j.write rest) m) :
    Refuses (Json.keepMember value done key) (':' :: j.write rest) m :=
  Cursor.colon_cons.refuses_andThen h.map

/-- A faithful reader keeps all members that are nested no deeper than it may read. -/
theorem Faithful.takes_keepMember (h : Faithful limit value) (done : List (String × Json))
    (hd : Json.DoubleFreeMembers ms)
    (hdepth : Json.depthMembers ms ≤ limit) :
    Takes (Json.keepMember value) done ms (ms.reverse ++ done) := by
  induction ms generalizing done with
  | nil => exact .nil
  | cons member ms ih =>
    obtain ⟨key, j⟩ := member
    obtain ⟨hj, hms⟩ := hd
    simp only [Json.depthMembers, Nat.max_le] at hdepth
    have hmore := ih ((key, j) :: done) hms hdepth.2
    rw [List.reverse_cons, List.append_assoc, List.singleton_append]
    exact .cons (fun rest hrest => ((h j rest hj hrest).1 hdepth.1).keepMember) hmore

/-- The first member that is nested too deeply. -/
theorem Json.exists_deep_member (hdepth : limit < Json.depthMembers ms) :
    ∃ before key j after, ms = before ++ (key, j) :: after ∧ Json.depthMembers before ≤ limit ∧
      limit < j.depth := by
  induction ms with
  | nil => cases hdepth
  | cons member ms ih =>
    obtain ⟨key, j⟩ := member
    by_cases hle : j.depth ≤ limit
    · have hmore : limit < Json.depthMembers ms := by
        simp only [Json.depthMembers] at hdepth
        omega
      obtain ⟨before, k, v, after, rfl, hbefore, hv⟩ := ih hmore
      exact ⟨(key, j) :: before, k, v, after, rfl, by simp only [depthMembers]; omega, hv⟩
    · exact ⟨[], key, j, ms, rfl, by simp [depthMembers], by omega⟩

/-- No member is a double if none is in either part. -/
theorem Json.doubleFreeMembers_append {ns : List (String × Json)} :
    Json.DoubleFreeMembers (ms ++ ns) ↔ Json.DoubleFreeMembers ms ∧ Json.DoubleFreeMembers ns := by
  induction ms with
  | nil => simp [DoubleFreeMembers]
  | cons member ms ih =>
    obtain ⟨key, j⟩ := member
    simp [DoubleFreeMembers, ih, and_assoc]

/-- Members in two parts are nested as deep as the deeper part. -/
theorem Json.depthMembers_append {ns : List (String × Json)} :
    Json.depthMembers (ms ++ ns) = max (Json.depthMembers ms) (Json.depthMembers ns) := by
  induction ms with
  | nil => simp [depthMembers]
  | cons member ms ih =>
    obtain ⟨key, j⟩ := member
    simp only [List.cons_append, depthMembers, ih, Nat.max_assoc]

/-- What the reader of objects makes of an object. -/
theorem Faithful.inObject_entries (h : Faithful limit value) (rest : List Char)
    (hd : Json.DoubleFreeMembers ms) :
    (Json.depthMembers ms ≤ limit →
      Reads (Reading.inObject (Reading.entries .keep (Json.keepMember value) []))
        ((Json.object ms).write rest) ms.reverse rest) ∧
    (limit < Json.depthMembers ms →
      Refuses (Reading.inObject (Reading.entries .keep (Json.keepMember value) []))
        ((Json.object ms).write rest) .nestedTooDeeply) := by
  constructor
  · intro hdepth
    obtain ⟨text, htext, hread⟩ := (h.takes_keepMember [] hd hdepth).exists_text rest
    rw [List.append_nil] at hread
    rw [htext]
    exact hread.inObject
  · intro hdepth
    obtain ⟨before, key, j, after, rfl, hbefore, hj⟩ := Json.exists_deep_member hdepth
    obtain ⟨hdbefore, hdj, -⟩ := Json.doubleFreeMembers_append.mp hd
    obtain ⟨text, htext, hread⟩ :=
      (h.takes_keepMember [] hdbefore hbefore).exists_text_refuses
        (fun rest hrest => ((h j rest hdj hrest).2 hj).keepMember) after rest
    rw [htext]
    exact hread.inObject

/-- A scalar is read whatever may be opened. -/
theorem Json.read_scalar (hj : Scalar.IsScalar j) (hd : j.DoubleFree) (hrest : Follows rest) :
    Reads (Json.read limit) (j.write rest) j rest := by
  obtain ⟨x, more, htext, hblank, -, hx⟩ := exists_write_eq_cons hd rest
  have hread := Scalar.read_write hj hd hrest
  rw [htext] at hread ⊢
  intro p
  obtain ⟨q, hq⟩ := hread p
  refine ⟨q, ?_⟩
  -- both ways of reading, with and without room for a container, pass a scalar on
  cases limit <;>
  · unfold Json.read
    rw [Cursor.skipBlank_cons hblank]
    dsimp only
    split
    · next h => exact absurd (List.cons.inj h).1 (hx hj).1
    · next h => exact absurd (List.cons.inj h).1 (hx hj).2
    · exact hq

theorem Json.write_array (js : List Json) (rest : List Char) :
    ∃ text, (Json.array js).write rest = '[' :: text := by
  cases js <;> exact ⟨_, rfl⟩

theorem Json.write_object (ms : List (String × Json)) (rest : List Char) :
    ∃ text, (Json.object ms).write rest = '{' :: text := by
  cases ms <;> exact ⟨_, rfl⟩

/-- Trees within the limit come back, and one that is nested deeper is refused for it. -/
theorem Json.faithful_read (limit : Nat) : Faithful limit (Json.read limit) := by
  -- on the room for containers: what stands in a container has one less
  induction limit with
  | zero =>
    intro j rest hd hrest
    cases j with
    | array js =>
      obtain ⟨text, htext⟩ := Json.write_array js rest
      rw [htext]
      exact ⟨fun h => absurd h (Nat.not_succ_le_zero _), fun _ p => ⟨_, rfl⟩⟩
    | object ms =>
      obtain ⟨text, htext⟩ := Json.write_object ms rest
      rw [htext]
      exact ⟨fun h => absurd h (Nat.not_succ_le_zero _), fun _ p => ⟨_, rfl⟩⟩
    | null | bool | number | string =>
      exact ⟨fun _ => Json.read_scalar trivial hd hrest, fun h => by cases h⟩
  | succ limit ih =>
    intro j rest hd hrest
    cases j with
    | array js =>
      have hitems := ih.inList_items rest hd
      obtain ⟨text, htext⟩ := Json.write_array js rest
      rw [htext] at hitems ⊢
      refine ⟨fun h => ?_, fun h => ?_⟩
      · have hread := (hitems.1 (Nat.le_of_succ_le_succ h)).map (f := Json.array)
        exact fun p => hread p
      · have hread := (hitems.2 (Nat.lt_of_succ_lt_succ h)).map (f := Json.array)
        exact fun p => hread p
    | object ms =>
      have hentries := ih.inObject_entries rest hd
      obtain ⟨text, htext⟩ := Json.write_object ms rest
      rw [htext] at hentries ⊢
      refine ⟨fun h => ?_, fun h => ?_⟩
      · have hread := (hentries.1 (Nat.le_of_succ_le_succ h)).map
          (f := fun done => Json.object done.reverse)
        rw [List.reverse_reverse] at hread
        exact fun p => hread p
      · have hread := (hentries.2 (Nat.lt_of_succ_lt_succ h)).map
          (f := fun done => Json.object done.reverse)
        exact fun p => hread p
    | null | bool | number | string =>
      exact ⟨fun _ => Json.read_scalar trivial hd hrest, fun h => by cases h⟩

end

/-! ## Whole texts -/

section

variable {α : Type} {r : Cursor → Reading α} {s : String} {a : α} {m : Malformed}

/-- A text that is read to its end is read. -/
theorem Reads.readAll (h : Reads r s.toList a []) : readAll r s = .ok a := by
  obtain ⟨q, hq⟩ := h ⟨1, 0⟩
  unfold TaskRelay.readAll Cursor.ofText
  rw [hq]
  rfl

/-- A text that is refused is refused somewhere in it. -/
theorem Refuses.readAll (h : Refuses r s.toList m) :
    ∃ p, readAll r s = .error ⟨.malformed m, some p⟩ := by
  obtain ⟨q, hq⟩ := h ⟨1, 0⟩
  refine ⟨q, ?_⟩
  unfold TaskRelay.readAll Cursor.ofText
  rw [hq]
  rfl

end

namespace Json

theorem toList_compact (j : Json) : j.compact.toList = j.write [] := String.toList_ofList

/-- A tree without doubles that is nested no deeper than a text may be comes back. -/
theorem parse_compact {j : Json} (hd : j.DoubleFree) (hdepth : j.depth ≤ depthLimit) :
    parse j.compact = .ok j := by
  refine Reads.readAll ?_
  rw [toList_compact]
  exact (faithful_read depthLimit j [] hd follows_nil).1 hdepth

end Json

end TaskRelay
