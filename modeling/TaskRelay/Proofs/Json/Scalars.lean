import TaskRelay.Json.Printer
import TaskRelay.Json.Reader

/-!
# Scalars are read as they were written

The readers know where they stand in the text, the printer does not. `Reads` and `Refuses` say
what a reader makes of a text wherever that text stands; readers that are put together from
smaller ones follow with `Reads.andThen` and `Reads.map`.

> `Scalar.string_writeString`: a quoted string is read as the string, whatever its characters.

> `Scalar.number_numberText`: the decimal text of a whole number is read as that number, if
> nothing follows that a numeral could go on with (`Follows`).

Both lead to `Scalar.read_write` for every tree that is no list and no object and no double.
-/

namespace TaskRelay

/-! ## What a reader makes of a text -/

section

variable {α β : Type} {r : Cursor → Reading α} {g : α → Cursor → Reading β}
  {text rest left : List Char} {a : α} {b : β} {m : Malformed}

/-- Wherever the text stands, the reader takes `a` from it and stops in front of `rest`. -/
def Reads (r : Cursor → Reading α) (text : List Char) (a : α) (rest : List Char) : Prop :=
  ∀ p, ∃ q, r ⟨text, p⟩ = .ok (a, ⟨rest, q⟩)

/-- Wherever the text stands, the reader stops with this complaint at some place. -/
def Refuses (r : Cursor → Reading α) (text : List Char) (m : Malformed) : Prop :=
  ∀ p, ∃ q, r ⟨text, p⟩ = .error (.malformed m q)

/-- What the first reader leaves is for the second one. -/
theorem Reads.andThen (h : Reads r text a left) (hg : Reads (g a) left b rest) :
    Reads (fun c => (r c).andThen g) text b rest := by
  intro p
  obtain ⟨q, hq⟩ := h p
  obtain ⟨q', hq'⟩ := hg q
  exact ⟨q', by simp only [hq, Reading.andThen, hq']⟩

/-- What is read may be changed. -/
theorem Reads.map {f : α → β} (h : Reads r text a rest) :
    Reads (fun c => (r c).map f) text (f a) rest := by
  intro p
  obtain ⟨q, hq⟩ := h p
  exact ⟨q, by simp only [Reading.map, hq, Reading.andThen]⟩

/-- Two readers refuse what the second one refuses. -/
theorem Reads.refuses_andThen (h : Reads r text a left) (hg : Refuses (g a) left m) :
    Refuses (fun c => (r c).andThen g) text m := by
  intro p
  obtain ⟨q, hq⟩ := h p
  obtain ⟨q', hq'⟩ := hg q
  exact ⟨q', by simp only [hq, Reading.andThen, hq']⟩

/-- Two readers refuse what the first one refuses. -/
theorem Refuses.andThen (h : Refuses r text m) :
    Refuses (fun c => (r c).andThen g) text m := by
  intro p
  obtain ⟨q, hq⟩ := h p
  exact ⟨q, by simp only [hq, Reading.andThen]⟩

theorem Refuses.map {f : α → β} (h : Refuses r text m) :
    Refuses (fun c => (r c).map f) text m := h.andThen

end

/-- Where a value ends: at the end of the text, or at what comes behind a value. -/
def Follows (rest : List Char) : Prop :=
  ∀ c ∈ rest.head?, c = ',' ∨ c = ']' ∨ c = '}'

namespace Scalar

/-! ## Words -/

/-- A word is read. -/
theorem word_append (expected rest : List Char) :
    Reads (word expected) (expected ++ rest) () rest := by
  induction expected with
  | nil => exact fun p => ⟨p, rfl⟩
  | cons e more ih =>
    intro p
    obtain ⟨q, hq⟩ := ih (p.after e)
    refine ⟨q, ?_⟩
    unfold word
    simpa [Cursor.next] using hq

/-! ## Strings -/

/-- The escape of a character below the space. -/
theorem hexFour_hexDigit :
    ∀ n < 0x20, hexFour '0' '0' (Json.hexDigit (n / 16)) (Json.hexDigit (n % 16)) = some n := by
  decide

/-- A control character comes back from its code. -/
theorem chars_control {c : Char} (hc : c.toNat < 0x20) (rest : List Char) (p : Position)
    (done : List Char) :
    chars .keep ('\\' :: 'u' :: '0' :: '0' :: Json.hexDigit (c.toNat / 16) ::
      Json.hexDigit (c.toNat % 16) :: rest) p done = chars .keep rest (p.plus 6) (c :: done) := by
  -- so small a number is neither half of a pair
  have htrailing : isTrailing c.toNat = false := by simp [isTrailing]; omega
  have hleading : isLeading c.toNat = false := by simp [isLeading]; omega
  rw [chars]
  simp [hexFour_hexDigit c.toNat hc, htrailing, hleading, Char.ofNat_toNat]

/-- A character with an escape of its own comes back from it. -/
theorem chars_short {mode : Mode} {x c : Char} (hx : shortEscape x = some c) (rest : List Char)
    (p : Position) (done : List Char) :
    chars mode ('\\' :: x :: rest) p done = chars mode rest (p.plus 2) (c :: done) := by
  have hu : x ≠ 'u' := by rintro rfl; cases hx
  rw [chars]
  · rw [hx]
  · exact fun _ _ _ _ _ h _ => hu h
  · exact hu

/-- Any other character stands for itself. -/
theorem chars_plain {mode : Mode} {c : Char} (hquote : c ≠ '"') (hslash : c ≠ '\\')
    (hc : ¬ c.toNat < 0x20) (rest : List Char) (p : Position) (done : List Char) :
    chars mode (c :: rest) p done = chars mode rest (p.after c) (c :: done) := by
  rw [chars]
  · rw [if_neg hc]
  · exact hquote
  · exact fun _ _ _ _ _ h _ => hslash h
  · exact fun _ h _ => hslash h
  · exact fun h _ => hslash h
  · exact fun _ _ h _ => hslash h

/-- Whatever stands for a character is read as that character. -/
theorem chars_escapeChar (c : Char) (rest : List Char) (p : Position) (done : List Char) :
    ∃ q, chars .keep (Json.escapeChar c ++ rest) p done = chars .keep rest q (c :: done) := by
  unfold Json.escapeChar
  -- the seven characters with an escape of their own, then all others
  split
  · exact ⟨_, chars_short rfl rest p done⟩
  · exact ⟨_, chars_short rfl rest p done⟩
  · exact ⟨_, chars_short rfl rest p done⟩
  · exact ⟨_, chars_short rfl rest p done⟩
  · exact ⟨_, chars_short rfl rest p done⟩
  · exact ⟨_, chars_short rfl rest p done⟩
  · exact ⟨_, chars_short rfl rest p done⟩
  · next hquote hslash _ _ _ _ _ =>
    split
    · next hc => exact ⟨_, chars_control hc rest p done⟩
    · next hc => exact ⟨_, chars_plain hquote hslash hc rest p done⟩

/-- What is written between quotes is what is read there. -/
theorem chars_writeChars (cs rest : List Char) (p : Position) (done : List Char) :
    ∃ q, chars .keep (Json.writeChars cs ('"' :: rest)) p done =
      .ok (done.reverse ++ cs, ⟨rest, q⟩) := by
  induction cs generalizing p done with
  | nil => exact ⟨p.plus 1, by simp [Json.writeChars, chars]⟩
  | cons c cs ih =>
    obtain ⟨q, hq⟩ := chars_escapeChar c (Json.writeChars cs ('"' :: rest)) p done
    obtain ⟨q', hq'⟩ := ih q (c :: done)
    refine ⟨q', ?_⟩
    show chars .keep (Json.escapeChar c ++ Json.writeChars cs ('"' :: rest)) p done = _
    rw [hq, hq', List.reverse_cons, List.append_assoc, List.singleton_append]

/-- A string comes back. -/
theorem string_writeString (s : String) (rest : List Char) :
    Reads (string .keep) (Json.writeString s rest) s rest := by
  intro p
  obtain ⟨q, hq⟩ := chars_writeChars s.toList rest (p.after '"') []
  refine ⟨q, ?_⟩
  unfold string Json.writeString
  simp only [Cursor.next, hq, Reading.map, Reading.andThen, List.reverse_nil, List.nil_append,
    String.ofList_toList]

/-! ## Numbers -/

/-- The digits of a number, as numbers. -/
def digitsOf (n : Nat) : List Nat := (Nat.toDigits 10 n).map fun c => c.toNat - 48

theorem digitsOf_of_lt {n : Nat} (h : n < 10) : digitsOf n = [n] := by
  simp [digitsOf, Nat.toDigits_of_lt_base h, Nat.toNat_digitChar_sub_48_of_lt_ten h]

theorem digitsOf_of_le {n : Nat} (h : 10 ≤ n) : digitsOf n = digitsOf (n / 10) ++ [n % 10] := by
  have hdigit := Nat.toNat_digitChar_sub_48_of_lt_ten (Nat.mod_lt n (by decide : 0 < 10))
  simp [digitsOf, Nat.toDigits_of_base_le (by decide : 1 < 10) h, hdigit]

/-- A number comes back from its digits. -/
theorem ofDigits_digitsOf (n : Nat) : Numeral.ofDigits (digitsOf n) = n := by
  induction n using Nat.strongRecOn with
  | ind n ih =>
    by_cases h : n < 10
    · simp [digitsOf_of_lt h, Numeral.ofDigits]
    · have hprev := ih (n / 10) (by omega)
      unfold Numeral.ofDigits at hprev ⊢
      rw [digitsOf_of_le (by omega), List.foldl_append, hprev]
      simp only [List.foldl_cons, List.foldl_nil]
      omega

/-- Of a number other than zero the first digit is not zero. -/
theorem digitsOf_eq_cons {n : Nat} (h : 0 < n) : ∃ d ds, digitsOf n = d :: ds ∧ d ≠ 0 := by
  induction n using Nat.strongRecOn with
  | ind n ih =>
    by_cases hn : n < 10
    · exact ⟨n, [], digitsOf_of_lt hn, by omega⟩
    · obtain ⟨d, ds, hds, hd⟩ := ih (n / 10) (by omega) (by omega)
      exact ⟨d, ds ++ [n % 10], by rw [digitsOf_of_le (by omega), hds, List.cons_append], hd⟩

/-- What cannot go on a run of digits. -/
def NoDigit (rest : List Char) : Prop := ∀ c ∈ rest.head?, isDigit c = false

/-- Digits are taken up to the first character that is none. -/
theorem spanDigits_append {ds rest : List Char} (hds : ∀ c ∈ ds, isDigit c = true)
    (hrest : NoDigit rest) :
    spanDigits (ds ++ rest) = (ds.map fun c => c.toNat - 48, rest) := by
  induction ds with
  | nil =>
    cases rest with
    | nil => rfl
    | cons c rest => simp [spanDigits, hrest c rfl]
  | cons c ds ih =>
    rw [List.cons_append, spanDigits, if_pos (hds c (by simp)), ih fun x hx => hds x (by simp [hx])]
    rfl

/-- The digits of a number are digits. -/
theorem isDigit_of_mem_toDigits {n : Nat} {c : Char} (h : c ∈ Nat.toDigits 10 n) :
    isDigit c = true := by
  have hdigit := Nat.isDigit_of_mem_toDigits (by decide) (by decide) h
  simp only [Char.isDigit, Bool.and_eq_true, decide_eq_true_eq] at hdigit
  simp only [isDigit, Bool.and_eq_true, decide_eq_true_eq]
  exact hdigit

/-- More digits make no smaller number. -/
theorem le_foldl (n : Nat) (ds : List Nat) : n ≤ ds.foldl (fun n d => n * 10 + d) n := by
  induction ds generalizing n with
  | nil => exact Nat.le_refl n
  | cons d ds ih => exact Nat.le_trans (by omega) (ih (n * 10 + d))

/-- Digits of a number that fits 64 bits are all taken. -/
theorem absorb_eq {n : Nat} {ds : List Nat} (h : ds.foldl (fun n d => n * 10 + d) n < 1 <<< 64) :
    absorb n ds = (ds.foldl (fun n d => n * 10 + d) n, []) := by
  induction ds generalizing n with
  | nil => rfl
  | cons d ds ih =>
    have hfit := Nat.lt_of_le_of_lt (le_foldl (n * 10 + d) ds) h
    rw [absorb, if_pos hfit, ih h]
    rfl

/-- The digits of a number of 64 bits are all taken in. -/
theorem absorb_digitsOf {n : Nat} (h : n < 1 <<< 64) : absorb 0 (digitsOf n) = (n, []) := by
  have hval : (digitsOf n).foldl (fun n d => n * 10 + d) 0 = n := ofDigits_digitsOf n
  rw [absorb_eq (by rw [hval]; exact h), hval]

/-- The digits of a number stand where its whole part is read. -/
theorem wholePart_toDigits (n : Nat) {rest : List Char} (hrest : NoDigit rest) :
    Reads (wholePart .keep) (Nat.toDigits 10 n ++ rest) (digitsOf n) rest := by
  intro p
  have hspan : spanDigits (Nat.toDigits 10 n ++ rest) = (digitsOf n, rest) :=
    spanDigits_append (fun _ hc => isDigit_of_mem_toDigits hc) hrest
  have hdigits : digits ⟨Nat.toDigits 10 n ++ rest, p⟩ =
      (digitsOf n, ⟨rest, p.plus (digitsOf n).length⟩) := by
    unfold digits
    rw [hspan]
  refine ⟨p.plus (digitsOf n).length, ?_⟩
  unfold wholePart someDigits
  rw [hdigits]
  -- zero is the one number whose first digit is a zero, and the reader lets it stand alone
  by_cases hn : n = 0
  · subst hn
    rfl
  · obtain ⟨d, ds, hds, hd⟩ := digitsOf_eq_cons (Nat.pos_of_ne_zero hn)
    rw [hds]
    cases d with
    | zero => exact absurd rfl hd
    | succ d => rfl

/-- A numeral without sign, fraction and exponent is a whole number. -/
theorem Numeral.integer?_plain {w : Whole} {n : Nat} (hw : w.val = n) :
    Numeral.integer? ⟨false, digitsOf n, none, none⟩ = some w := by
  obtain ⟨v, hge, hlt⟩ := w
  subst hw
  have hfit : n < 1 <<< 64 := by omega
  unfold Numeral.integer?
  rw [absorb_digitsOf hfit]
  simp only [Bool.false_eq_true, if_false, dif_pos hfit]

/-- With a sign it is a negative one. -/
theorem Numeral.integer?_minus {w : Whole} {n : Nat} (hw : w.val = -n) (hn : 0 < n) :
    Numeral.integer? ⟨true, digitsOf n, none, none⟩ = some w := by
  obtain ⟨v, hge, hlt⟩ := w
  subst hw
  have hfit : 0 < n ∧ n ≤ 1 <<< 63 := by omega
  unfold Numeral.integer?
  rw [absorb_digitsOf (by omega)]
  simp only [if_true, dif_pos hfit]

section

variable {rest : List Char} (h : Follows rest)

include h

/-- No digit, point or exponent follows a value. -/
theorem ne_of_follows {x : Char} (hx : x ≠ ',' ∧ x ≠ ']' ∧ x ≠ '}') : rest.head? ≠ some x := by
  intro hhead
  rcases h x hhead with rfl | rfl | rfl
  · exact hx.1 rfl
  · exact hx.2.1 rfl
  · exact hx.2.2 rfl

/-- What may follow a value does not go on with digits. -/
theorem noDigit_of_follows : NoDigit rest := by
  intro c hc
  rcases h c hc with rfl | rfl | rfl <;> rfl

theorem fractionPart_of_follows : Reads (fractionPart .keep) rest none rest := by
  intro p
  refine ⟨p, ?_⟩
  unfold fractionPart
  split
  · next hpoint =>
    have hne := ne_of_follows h (x := '.') (by decide)
    rw [show rest = _ from hpoint] at hne
    exact absurd rfl hne
  · rfl

theorem exponentPart_of_follows : Reads (exponentPart .keep) rest none rest := by
  intro p
  refine ⟨p, ?_⟩
  unfold exponentPart
  rw [if_neg]
  rintro (hmark | hmark)
  · exact ne_of_follows h (by decide) hmark
  · exact ne_of_follows h (by decide) hmark

/-- What is read behind the sign of a numeral. -/
theorem parts_toDigits (negative : Bool) (n : Nat) :
    Reads (fun c => (wholePart .keep c).andThen fun whole c =>
      (fractionPart .keep c).andThen fun fraction c =>
      (exponentPart .keep c).map fun exponent => (⟨negative, whole, fraction, exponent⟩ : Numeral))
      (Nat.toDigits 10 n ++ rest) ⟨negative, digitsOf n, none, none⟩ rest :=
  (wholePart_toDigits n (noDigit_of_follows h)).andThen
    ((fractionPart_of_follows h).andThen (exponentPart_of_follows h).map)

/-- The digits of a number are read as its numeral. -/
theorem numeral_plain (n : Nat) :
    Reads (numeral .keep) (Nat.toDigits 10 n ++ rest) ⟨false, digitsOf n, none, none⟩ rest := by
  have hsign : (Nat.toDigits 10 n ++ rest).head? ≠ some '-' := by
    cases hds : Nat.toDigits 10 n with
    | nil => exact absurd hds Nat.toDigits_ne_nil
    | cons c cs =>
      have hmem : c ∈ Nat.toDigits 10 n := hds ▸ List.mem_cons_self ..
      have hc := isDigit_of_mem_toDigits hmem
      rintro ⟨⟩
      cases hc
  intro p
  obtain ⟨q, hq⟩ := parts_toDigits h false n p
  refine ⟨q, ?_⟩
  unfold numeral
  simpa only [hsign, decide_false, if_false] using hq

theorem numeral_minus (n : Nat) :
    Reads (numeral .keep) ('-' :: (Nat.toDigits 10 n ++ rest)) ⟨true, digitsOf n, none, none⟩
      rest :=
  fun p => parts_toDigits h true n (p.after '-')

/-- A whole number comes back. -/
theorem number_numberText (w : Whole) :
    Reads number ((Json.numberText (.whole w)).toList ++ rest) (.whole w) rest := by
  show Reads number ((toString w.val).toList ++ rest) _ rest
  rw [Int.toString_eq_repr, Int.repr_eq_if]
  split
  · next hsign =>
    have hw : w.val = w.val.toNat := by omega
    rw [Nat.toList_repr]
    refine (numeral_plain h w.val.toNat).andThen fun p => ⟨p, ?_⟩
    simp only [Numeral.value, Numeral.integer?_plain hw]
  · next hsign =>
    have hw : w.val = -(-w.val).toNat := by omega
    rw [String.toList_append, Nat.toList_repr]
    refine (numeral_minus h (-w.val).toNat).andThen fun p => ⟨p, ?_⟩
    simp only [Numeral.value, Numeral.integer?_minus hw (by omega)]

end

/-- A numeral starts with its sign or a digit. -/
theorem exists_numberText_eq_cons (w : Whole) :
    ∃ x more, (Json.numberText (.whole w)).toList = x :: more ∧ (x = '-' ∨ isDigit x = true) := by
  show ∃ x more, (toString w.val).toList = x :: more ∧ _
  rw [Int.toString_eq_repr, Int.repr_eq_if]
  split
  · rw [Nat.toList_repr]
    cases hds : Nat.toDigits 10 w.val.toNat with
    | nil => exact absurd hds Nat.toDigits_ne_nil
    | cons c cs =>
      exact ⟨c, cs, rfl, .inr (isDigit_of_mem_toDigits (by rw [hds]; exact List.mem_cons_self ..))⟩
  · exact ⟨'-', _, String.toList_append, .inl rfl⟩

/-! ## Any scalar -/

/-- What is no list and no object. -/
def IsScalar : Json → Prop
  | .array _ => False
  | .object _ => False
  | _ => True

/-- At a sign or a digit a number is read. -/
theorem read_number {x : Char} {cs rest : List Char} {n : Number} (hx : x = '-' ∨ isDigit x = true)
    (h : Reads number (x :: cs) n rest) : Reads read (x :: cs) (.number n) rest := by
  intro p
  obtain ⟨q, hq⟩ := h p
  refine ⟨q, ?_⟩
  unfold read
  split
  · next hnil => cases hnil
  · next hcons => cases hcons; rcases hx with hx | hx <;> cases hx
  · next hcons => cases hcons; rcases hx with hx | hx <;> cases hx
  · next hcons => cases hcons; rcases hx with hx | hx <;> cases hx
  · next hcons => cases hcons; rcases hx with hx | hx <;> cases hx
  · next hcons =>
    cases hcons
    rw [if_pos hx, hq]
    rfl

/-- A value without parts comes back. -/
theorem read_write {j : Json} {rest : List Char} (hj : IsScalar j) (hd : j.DoubleFree)
    (h : Follows rest) : Reads read (j.write rest) j rest := by
  cases j with
  | array | object => cases hj
  | null => exact fun p => (word_append ['u', 'l', 'l'] rest).map (f := fun _ => Json.null) _
  | bool b =>
    cases b with
    | true => exact fun p => (word_append ['r', 'u', 'e'] rest).map (f := fun _ => Json.bool true) _
    | false =>
      exact fun p => (word_append ['a', 'l', 's', 'e'] rest).map (f := fun _ => Json.bool false) _
  | string s => exact (string_writeString s rest).map (f := Json.string)
  | number n =>
    cases n with
    | double => exact hd.elim
    | whole w =>
      obtain ⟨x, more, htext, hx⟩ := exists_numberText_eq_cons w
      have hread := number_numberText h w
      unfold Json.write
      rw [htext] at hread ⊢
      exact read_number hx hread

end Scalar

end TaskRelay
