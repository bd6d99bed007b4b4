import TaskRelay.Proofs.Json.Grammar

/-!
# Values that are passed over

A value that nobody wants only has to be good grammar. `Json.WellFormed` holds of its text, and asks
for less than `Json.Spells` does: a string may have half of a surrogate pair in it and a number may
be out of any range, since neither is ever made. Containers may be nested as deeply as one likes.

> `Json.reads_skip`: a well-formed value is passed over, with the blanks in front of it.

A container takes a character, so there is always enough fuel for what is nested in it; the
induction is on that fuel.
-/

namespace TaskRelay

namespace Json

/-! ## The grammar -/

/-- What may stand between the quotes of a string. -/
inductive InString : List Char → Prop
  | nil : InString []
  | plain {c : Char} {text : List Char} (hcontrol : 0x20 ≤ c.toNat) (hquote : c ≠ '"')
    (hslash : c ≠ '\\') (htext : InString text) : InString (c :: text)
  | short {x c : Char} {text : List Char} (h : Scalar.shortEscape x = some c)
    (htext : InString text) : InString ('\\' :: x :: text)
  | code {d₁ d₂ d₃ d₄ : Char} {n : Nat} {text : List Char}
    (h : Scalar.hexFour d₁ d₂ d₃ d₄ = some n) (htext : InString text) :
    InString ('\\' :: 'u' :: d₁ :: d₂ :: d₃ :: d₄ :: text)

/-- A string, whether or not there is a text that it stands for. -/
inductive WellFormedString : List Char → Prop
  | mk {text : List Char} (h : InString text) : WellFormedString ('"' :: (text ++ ['"']))

/-- What is neither a list nor an object. -/
inductive WellFormedScalar : List Char → Prop
  | null : WellFormedScalar ['n', 'u', 'l', 'l']
  | true : WellFormedScalar ['t', 'r', 'u', 'e']
  | false : WellFormedScalar ['f', 'a', 'l', 's', 'e']
  | number {n : Digits} (h : n.Valid) : WellFormedScalar n.text
  | string {text : List Char} (h : WellFormedString text) : WellFormedScalar text

/-- A name, a colon and a value. -/
inductive Named {α : Type} (Name : α → List Char → Prop) (Value : List Char → Prop) :
    α → List Char → Prop
  | mk {name before after text : List Char} {a : α} (hname : Name a name) (hbefore : Blank before)
    (hafter : Blank after) (hvalue : Value text) :
    Named Name Value a (name ++ (before ++ ':' :: (after ++ text)))

/-- Any value. Nothing is known of the entries of a container but how many there are. -/
inductive WellFormed : List Char → Prop
  | scalar {text : List Char} (h : WellFormedScalar text) : WellFormed text
  | emptyArray {text : List Char} (h : Blank text) : WellFormed ('[' :: (text ++ [']']))
  | array {entries : List Unit} {text : List Char}
    (h : Separated (fun _ => WellFormed) entries text) : WellFormed ('[' :: (text ++ [']']))
  | emptyObject {text : List Char} (h : Blank text) : WellFormed ('{' :: (text ++ ['}']))
  | object {entries : List Unit} {text : List Char}
    (h : Separated (Named (fun _ => WellFormedString) WellFormed) entries text) :
    WellFormed ('{' :: (text ++ ['}']))

end Json

/-! ## Strings and numbers -/

namespace Scalar

/-- Which characters are kept of a string that is passed over does not depend on what follows. -/
theorem chars_of_inString {text : List Char} (h : Json.InString text) (done : List Char) :
    ∃ cs, ∀ rest p, ∃ q, chars .skip (text ++ '"' :: rest) p done = .ok (cs, ⟨rest, q⟩) := by
  induction h generalizing done with
  | nil => exact ⟨done.reverse, fun rest p => ⟨p.plus 1, by simp [chars]⟩⟩
  | @plain c text hcontrol hquote hslash _ ih =>
    obtain ⟨cs, hcs⟩ := ih (c :: done)
    refine ⟨cs, fun rest p => ?_⟩
    rw [List.cons_append, chars_plain hquote hslash (Nat.not_lt.mpr hcontrol)]
    exact hcs rest _
  | @short x c text h _ ih =>
    obtain ⟨cs, hcs⟩ := ih (c :: done)
    refine ⟨cs, fun rest p => ?_⟩
    rw [List.cons_append, List.cons_append, chars_short h]
    exact hcs rest _
  | @code d₁ d₂ d₃ d₄ n text h _ ih =>
    obtain ⟨cs, hcs⟩ := ih done
    refine ⟨cs, fun rest p => ?_⟩
    obtain ⟨q, hq⟩ := hcs rest (p.plus 6)
    refine ⟨q, ?_⟩
    simp only [List.cons_append]
    rw [chars]
    simp only [h, if_true]
    exact hq

/-- Whatever is between the quotes of a string can be passed over. -/
theorem exists_reads_string {text : List Char} (h : Json.WellFormedString text) :
    ∃ s, ∀ rest, Reads (string .skip) (text ++ rest) s rest := by
  obtain @⟨text, h⟩ := h
  obtain ⟨cs, hcs⟩ := chars_of_inString h []
  refine ⟨String.ofList cs, fun rest p => ?_⟩
  obtain ⟨q, hq⟩ := hcs rest (p.after '"')
  refine ⟨q, ?_⟩
  unfold string
  simp only [List.cons_append, List.append_assoc, List.nil_append, Cursor.next, hq, Reading.map,
    Reading.andThen]

/-- Where a number starts, it is passed over as a number. -/
theorem pass_number {x : Char} {cs rest : List Char} (hx : x = '-' ∨ isDigit x = true)
    (h : ∀ p, ∃ n q, numeral .skip ⟨x :: cs, p⟩ = .ok (n, ⟨rest, q⟩)) :
    Reads pass (x :: cs) () rest := by
  intro p
  obtain ⟨n, q, hq⟩ := h p
  refine ⟨q, ?_⟩
  unfold pass
  split
  · next hnil => cases hnil
  · next hcons => cases hcons; rcases hx with hx | hx <;> cases hx
  · next hcons => cases hcons; rcases hx with hx | hx <;> cases hx
  · next hcons => cases hcons; rcases hx with hx | hx <;> cases hx
  · next hcons => cases hcons; rcases hx with hx | hx <;> cases hx
  · next hcons =>
    cases hcons
    rw [if_pos hx, hq]
    rfl

end Scalar

/-! ## Values -/

namespace Json

variable {text rest : List Char}

/-- A scalar does not start with a bracket or a brace. -/
theorem WellFormedScalar.exists_eq_cons (h : WellFormedScalar text) :
    ∃ x more, text = x :: more ∧ Cursor.isBlank x = Bool.false ∧ x ≠ ']' ∧ x ≠ '[' ∧ x ≠ '{' := by
  cases h with
  | null | true | false => exact ⟨_, _, rfl, by decide, by decide, by decide, by decide⟩
  | number h =>
    obtain ⟨x, more, htext, hx⟩ := Scalar.exists_digitsText_eq_cons h
    obtain ⟨hblank, hend, hopens⟩ := Scalar.opens_number (j := .null) hx
    exact ⟨x, more, htext, hblank, hend, hopens trivial⟩
  | string h =>
    obtain ⟨h⟩ := h
    exact ⟨_, _, rfl, by decide, by decide, by decide, by decide⟩

/-- A scalar is passed over. -/
theorem WellFormedScalar.reads_pass (h : WellFormedScalar text) (hrest : Closes rest) :
    Reads Scalar.pass (text ++ rest) () rest := by
  cases h with
  | null => exact fun p => Scalar.word_append ['u', 'l', 'l'] rest (p.after 'n')
  | true => exact fun p => Scalar.word_append ['r', 'u', 'e'] rest (p.after 't')
  | false => exact fun p => Scalar.word_append ['a', 'l', 's', 'e'] rest (p.after 'f')
  | number h =>
    have hnumeral : ∀ p, ∃ n' q, Scalar.numeral .skip ⟨_, p⟩ = .ok (n', ⟨rest, q⟩) := fun p => by
      obtain ⟨p', q, hq⟩ := Scalar.numeral_text .skip h hrest.noNumeral p
      exact ⟨_, q, hq⟩
    obtain ⟨x, more, htext, hx⟩ := Scalar.exists_digitsText_eq_cons h
    rw [htext] at hnumeral ⊢
    exact Scalar.pass_number hx hnumeral
  | string h =>
    obtain ⟨s, hs⟩ := Scalar.exists_reads_string h
    have hstring := (hs rest).map (f := fun _ => ())
    obtain ⟨h⟩ := h
    exact hstring

/-- A value has a first character, which is neither blank nor the end of a list. -/
theorem WellFormed.exists_eq_cons (h : WellFormed text) :
    ∃ x more, text = x :: more ∧ Cursor.isBlank x = false ∧ x ≠ ']' := by
  cases h with
  | scalar h =>
    obtain ⟨x, more, htext, hblank, hx, -⟩ := h.exists_eq_cons
    exact ⟨x, more, htext, hblank, hx⟩
  | emptyArray | array | emptyObject | object => exact ⟨_, _, rfl, by decide, by decide⟩

/-- A string begins with a quote. -/
theorem WellFormedString.exists_eq_cons (h : WellFormedString text) :
    ∃ more, text = '"' :: more := by
  obtain ⟨h⟩ := h
  exact ⟨_, rfl⟩

/-! ## Passing over -/

theorem skipsBlank_skipWithin (x : Char) (fuel : List Char) :
    SkipsBlank (skipWithin (x :: fuel)) := by
  intro c c' h
  unfold skipWithin
  rw [h]

variable {fuel : List Char}

/-- Passes over the colon and the value behind a name. -/
def passEntry (skip : Cursor → Reading Unit) (_ : Unit) (_ : String) (c : Cursor) : Reading Unit :=
  c.colon.andThen fun _ c => skip c

/-- Whatever opens no container is passed over with any fuel. -/
theorem WellFormedScalar.reads_skipWithin (h : WellFormedScalar text) (x : Char)
    (fuel : List Char) (hrest : Closes rest) :
    Reads (skipWithin (x :: fuel)) (text ++ rest) () rest := by
  have hread := h.reads_pass hrest
  obtain ⟨y, more, rfl, hblank, -, hlist, hobject⟩ := h.exists_eq_cons
  intro p
  obtain ⟨q, hq⟩ := hread p
  refine ⟨q, ?_⟩
  unfold skipWithin
  rw [List.cons_append, Cursor.skipBlank_cons hblank]
  dsimp only
  split
  · next h => exact absurd (List.cons.inj h).1 hlist
  · next h => exact absurd (List.cons.inj h).1 hobject
  · exact hq

/-- A list is passed over, if what stands between its brackets is. -/
theorem reads_skipWithin_array {entries : List Unit} (x : Char)
    (h : Reads (Reading.items .skip (skipWithin fuel)) (text ++ ']' :: rest) entries
      (']' :: rest)) :
    Reads (skipWithin (x :: fuel)) ('[' :: (text ++ [']']) ++ rest) () rest := by
  have hlist := h.inList.map (f := fun _ => ())
  simp only [List.cons_append, List.append_assoc, List.nil_append]
  exact fun p => hlist p

/-- An object is passed over, if what stands between its braces is. -/
theorem reads_skipWithin_object (x : Char)
    (h : Reads (Reading.entries .skip (passEntry (skipWithin fuel)) ()) (text ++ '}' :: rest) ()
      ('}' :: rest)) :
    Reads (skipWithin (x :: fuel)) ('{' :: (text ++ ['}']) ++ rest) () rest := by
  have hobject := h.inObject
  simp only [List.cons_append, List.append_assoc, List.nil_append]
  exact fun p => hobject p

section

variable {α : Type} {Name Entry Entry' : α → List Char → Prop} {Value Value' : List Char → Prop}
  {as : List α} {a : α}

/-- Each entry is a part of the text. -/
theorem Separated.imp (h : Separated Entry as text) {n : Nat} (hlength : text.length ≤ n)
    (himp : ∀ {a text}, text.length ≤ n → Entry a text → Entry' a text) :
    Separated Entry' as text := by
  induction h with
  | one hbefore ha hafter =>
    simp only [List.length_append] at hlength
    exact .one hbefore (himp (by omega) ha) hafter
  | more hbefore ha hafter _ ih =>
    simp only [List.length_append, List.length_cons] at hlength
    exact .more hbefore (himp (by omega) ha) hafter (ih (by omega))

/-- The value is a part of the entry. -/
theorem Named.imp (h : Named Name Value a text)
    (himp : ∀ {value}, value.length ≤ text.length → Value value → Value' value) :
    Named Name Value' a text := by
  obtain ⟨hname, hbefore, hafter, hvalue⟩ := h
  refine .mk hname hbefore hafter (himp ?_ hvalue)
  simp only [List.length_append, List.length_cons]
  omega

/-- An entry of an object is passed over with its name, if its value is. -/
theorem Named.isMember {entry : Unit} {skip : Cursor → Reading Unit}
    (h : Named (fun _ => WellFormedString) Value entry text) (hskip : SkipsBlank skip)
    (hvalue : ∀ {text}, Value text → ∀ rest, Closes rest → Reads skip (text ++ rest) () rest) :
    IsMember .skip (passEntry skip) () () text := by
  obtain ⟨hname, hbefore, hafter, hj⟩ := h
  obtain ⟨key, hkey⟩ := Scalar.exists_reads_string hname
  refine isMember_of_name hname.exists_eq_cons hkey fun rest hrest => ?_
  exact reads_colon hbefore (hskip.reads hafter (hvalue hj rest hrest))

end

/-- A well-formed value is passed over, if there is as much fuel as text. -/
theorem reads_skipWithin (fuel : List Char) : ∀ {text}, WellFormed text →
    text.length ≤ fuel.length → ∀ rest, Closes rest →
    Reads (skipWithin fuel) (text ++ rest) () rest := by
  -- on the fuel, of which a container leaves enough for each of its entries
  induction fuel with
  | nil =>
    intro text h hfuel
    obtain ⟨x, more, rfl, -⟩ := h.exists_eq_cons
    cases hfuel
  | cons x fuel ih =>
    intro text h hfuel rest hrest
    have hpass : ∀ {text}, WellFormed text ∧ text.length ≤ fuel.length → ∀ rest, Closes rest →
        Reads (skipWithin fuel) (text ++ rest) () rest := fun h => ih h.1 h.2
    cases h with
    | scalar h => exact h.reads_skipWithin x fuel hrest
    | emptyArray h => exact reads_skipWithin_array x (reads_noItems h rest)
    | @array entries text h =>
      simp only [List.length_cons, List.length_append, List.length_nil] at hfuel
      have hentries := h.imp (n := fuel.length) (by omega) fun hlength h => And.intro h hlength
      exact reads_skipWithin_array x
        (reads_items hentries (fun _ h => ⟨h.1.exists_eq_cons, hpass h⟩) rest)
    | emptyObject h => exact reads_skipWithin_object x (reads_noEntries h () rest)
    | @object entries text h =>
      simp only [List.length_cons, List.length_append, List.length_nil] at hfuel
      have hentries := h.imp (n := fuel.length) (by omega) fun hlength h =>
        h.imp fun hvalue h => And.intro h (Nat.le_trans hvalue hlength)
      -- the brace alone takes a character
      obtain _ | ⟨y, fuel⟩ := fuel
      · simp only [List.length_nil] at hfuel
        omega
      exact reads_skipWithin_object x (reads_entries (fun _ _ => ()) hentries
        (fun _ h => h.isMember (skipsBlank_skipWithin y fuel) hpass) () rest)

/-- A well-formed value is passed over, with the blanks in front of it. -/
theorem reads_skip (h : WellFormed text) {before : List Char} (hbefore : Blank before)
    (hrest : Closes rest) : Reads skip (before ++ (text ++ rest)) () rest := by
  intro p
  have hread := reads_skipWithin (' ' :: (before ++ (text ++ rest))) h
    (by simp only [List.length_cons, List.length_append]; omega) rest hrest
  exact (skipsBlank_skipWithin _ _).reads hbefore hread p

/-- A well-formed value is an item of any list that is passed over. -/
theorem WellFormed.isItem (h : WellFormed text) : IsItem skip () text :=
  ⟨h.exists_eq_cons, fun _ => reads_skip h blank_nil⟩

end Json

end TaskRelay
