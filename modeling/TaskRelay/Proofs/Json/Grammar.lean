import TaskRelay.Proofs.Json.Depth
import TaskRelay.Proofs.Json.RoundTrip

/-!
# The grammar of JSON texts

What a text says, apart from how it is read: `Json.Spells j text` holds if the characters are a way
to write the tree `j`. Blanks may stand around every entry, a character of a string may be written
as itself or escaped, members come in any order and as often as they like. There is no way to spell
half of a surrogate pair, nor a number that is too large for a double.

> `Json.parse_of_isText`: a text of the grammar, with blanks around it, is read as the tree that it
> spells, if it opens no more containers at once than a text may.

The proof is by induction on how many containers may be opened, as for written trees; between the
brackets it follows the entries of the grammar. That part does not depend on what is read of an
entry (`IsItem`, `IsMember`), so it serves readers that count or pass over as well.
-/

namespace TaskRelay

namespace Json

/-! ## The grammar -/

/-- Blanks may stand between all other signs. -/
def Blank (text : List Char) : Prop := ∀ c ∈ text, c = ' ' ∨ c = '\t' ∨ c = '\n' ∨ c = '\r'

theorem blank_nil : Blank [] := fun _ hc => (nomatch hc)

/-- The ways to write a character of a string. -/
inductive SpellsChar : Char → List Char → Prop
  | plain {c : Char} (hcontrol : 0x20 ≤ c.toNat) (hquote : c ≠ '"') (hslash : c ≠ '\\') :
    SpellsChar c [c]
  | short {x c : Char} (h : Scalar.shortEscape x = some c) : SpellsChar c ['\\', x]
  | code {d₁ d₂ d₃ d₄ : Char} {n : Nat} (h : Scalar.hexFour d₁ d₂ d₃ d₄ = some n)
    (hn : n < 0xD800 ∨ 0xDFFF < n) : SpellsChar (Char.ofNat n) ['\\', 'u', d₁, d₂, d₃, d₄]
  | pair {d₁ d₂ d₃ d₄ e₁ e₂ e₃ e₄ : Char} {n m : Nat} (hd : Scalar.hexFour d₁ d₂ d₃ d₄ = some n)
    (he : Scalar.hexFour e₁ e₂ e₃ e₄ = some m) (hn : 0xD800 ≤ n ∧ n ≤ 0xDBFF)
    (hm : 0xDC00 ≤ m ∧ m ≤ 0xDFFF) : SpellsChar (Scalar.pairChar n m)
      ['\\', 'u', d₁, d₂, d₃, d₄, '\\', 'u', e₁, e₂, e₃, e₄]

/-- One character after the other. -/
inductive SpellsChars : List Char → List Char → Prop
  | nil : SpellsChars [] []
  | cons {c : Char} {cs text more : List Char} (hc : SpellsChar c text)
    (hcs : SpellsChars cs more) : SpellsChars (c :: cs) (text ++ more)

/-- A string stands between quotes. -/
inductive SpellsString : String → List Char → Prop
  | mk {s : String} {text : List Char} (h : SpellsChars s.toList text) :
    SpellsString s ('"' :: (text ++ ['"']))

/-- A number as it is written: a sign, digits, digits behind a point, and an exponent with its mark
and its sign. -/
structure Digits where
  negative : Bool
  whole : List Char
  fraction : Option (List Char)
  exponent : Option (Char × Option Char × List Char)

namespace Digits

/-- Each part has digits, and of several digits in front of the point the first is no zero. -/
structure Valid (n : Digits) : Prop where
  whole_ne_nil : n.whole ≠ []
  whole_digits : ∀ c ∈ n.whole, Scalar.isDigit c = true
  no_leading_zero : n.whole.head? = some '0' → n.whole = ['0']
  fraction : ∀ ds ∈ n.fraction, ds ≠ [] ∧ ∀ c ∈ ds, Scalar.isDigit c = true
  exponent : ∀ e ∈ n.exponent, (e.1 = 'e' ∨ e.1 = 'E') ∧ (∀ c ∈ e.2.1, c = '+' ∨ c = '-') ∧
    e.2.2 ≠ [] ∧ ∀ c ∈ e.2.2, Scalar.isDigit c = true

def fractionText (n : Digits) : List Char :=
  match n.fraction with
  | none => []
  | some ds => '.' :: ds

def exponentText (n : Digits) : List Char :=
  match n.exponent with
  | none => []
  | some (mark, sign, ds) => mark :: (sign.toList ++ ds)

/-- Everything behind the sign. -/
def unsignedText (n : Digits) : List Char := n.whole ++ (n.fractionText ++ n.exponentText)

def text (n : Digits) : List Char :=
  if n.negative then '-' :: n.unsignedText else n.unsignedText

/-- The numeral that a reader makes of it; `p` is where the exponent stands. -/
def numeral (n : Digits) (p : Position) : Scalar.Numeral :=
  ⟨n.negative, n.whole.map fun c => c.toNat - 48,
    n.fraction.map fun ds => ds.map fun c => c.toNat - 48,
    n.exponent.map fun (_, sign, ds) => (sign = some '-', ds.map fun c => c.toNat - 48, p)⟩

end Digits

/-- A number in range: it has a value, wherever it stands. -/
inductive SpellsNumber : Number → List Char → Prop
  | mk {n : Digits} {x : Number} (hvalid : n.Valid)
    (hvalue : ∀ p c, (n.numeral p).value c = .ok (x, c)) : SpellsNumber x n.text

/-- One entry or more, with commas between them and blanks around them. -/
inductive Separated {α : Type} (Entry : α → List Char → Prop) : List α → List Char → Prop
  | one {a : α} {before text after : List Char} (hbefore : Blank before) (ha : Entry a text)
    (hafter : Blank after) : Separated Entry [a] (before ++ (text ++ after))
  | more {a : α} {as : List α} {before text after rest : List Char} (hbefore : Blank before)
    (ha : Entry a text) (hafter : Blank after) (has : Separated Entry as rest) :
    Separated Entry (a :: as) (before ++ (text ++ (after ++ ',' :: rest)))

/-- A key, a colon and a value. -/
inductive SpellsMember (Value : Json → List Char → Prop) : String × Json → List Char → Prop
  | mk {key : String} {j : Json} {name before after text : List Char} (hkey : SpellsString key name)
    (hbefore : Blank before) (hafter : Blank after) (hj : Value j text) :
    SpellsMember Value (key, j) (name ++ (before ++ ':' :: (after ++ text)))

/-- The ways to write a tree. -/
inductive Spells : Json → List Char → Prop
  | null : Spells .null ['n', 'u', 'l', 'l']
  | true : Spells (.bool true) ['t', 'r', 'u', 'e']
  | false : Spells (.bool false) ['f', 'a', 'l', 's', 'e']
  | number {n : Number} {text : List Char} (h : SpellsNumber n text) : Spells (.number n) text
  | string {s : String} {text : List Char} (h : SpellsString s text) : Spells (.string s) text
  | emptyArray {text : List Char} (h : Blank text) : Spells (.array []) ('[' :: (text ++ [']']))
  | array {js : List Json} {text : List Char} (h : Separated Spells js text) :
    Spells (.array js) ('[' :: (text ++ [']']))
  | emptyObject {text : List Char} (h : Blank text) : Spells (.object []) ('{' :: (text ++ ['}']))
  | object {ms : List (String × Json)} {text : List Char}
    (h : Separated (SpellsMember Spells) ms text) : Spells (.object ms) ('{' :: (text ++ ['}']))

/-- A text with blanks around the tree. -/
def IsText (s : String) (j : Json) : Prop :=
  ∃ before text after, Blank before ∧ Spells j text ∧ Blank after ∧
    s.toList = before ++ (text ++ after)

end Json

namespace Json

/-- A character that needs no escape. -/
def isPlain (c : Char) : Bool := 0x20 ≤ c.toNat && c != '"' && c != '\\'

/-- Characters that need no escape spell themselves. -/
theorem spellsChars_self {cs : List Char} (h : cs.all isPlain = true) : SpellsChars cs cs := by
  induction cs with
  | nil => exact .nil
  | cons c cs ih =>
    simp only [List.all_cons, isPlain, Bool.and_eq_true, decide_eq_true_eq, bne_iff_ne] at h
    obtain ⟨⟨⟨hcontrol, hquote⟩, hslash⟩, hcs⟩ := h
    exact .cons (.plain hcontrol hquote hslash) (ih hcs)

/-- A text without quotes, backslashes and controls is spelled by itself. -/
theorem spellsString_self {s : String} (h : s.toList.all isPlain = true) :
    SpellsString s ('"' :: (s.toList ++ ['"'])) :=
  .mk (spellsChars_self h)

end Json

/-! ## Blanks -/

/-- Three readings one after the other may be taken together as one likes. -/
theorem Reading.andThen_assoc {α β γ : Type} (r : Reading α) (f : α → Cursor → Reading β)
    (g : β → Cursor → Reading γ) :
    (r.andThen f).andThen g = r.andThen fun a c => (f a c).andThen g := by
  cases r <;> rfl

namespace Cursor

/-- A reader takes for blank what is blank. -/
theorem isBlank_of_blank {text : List Char} (h : Json.Blank text) :
    ∀ c ∈ text, isBlank c = true := by
  intro c hc
  rcases h c hc with rfl | rfl | rfl | rfl <;> rfl

/-- Blanks are skipped however many there are. -/
theorem skipBlank_blank {before : List Char} (h : Json.Blank before) (rest : List Char)
    (p : Position) : ∃ q, skipBlank ⟨before ++ rest, p⟩ = skipBlank ⟨rest, q⟩ := by
  induction before generalizing p with
  | nil => exact ⟨p, rfl⟩
  | cons c before ih =>
    obtain ⟨q, hq⟩ := ih (fun x hx => h x (List.mem_cons_of_mem _ hx)) (p.after c)
    refine ⟨q, ?_⟩
    rw [← hq]
    exact if_pos (isBlank_of_blank h c List.mem_cons_self)

end Cursor

/-- A reader that starts by going over blanks. -/
def SkipsBlank {α : Type} (r : Cursor → Reading α) : Prop :=
  ∀ c c' : Cursor, c.skipBlank = c'.skipBlank → r c = r c'

/-- A reader that skips blanks reads behind them what it reads without them. -/
theorem SkipsBlank.reads {α : Type} {r : Cursor → Reading α} (hr : SkipsBlank r)
    {before text rest : List Char} {a : α} (hbefore : Json.Blank before) (h : Reads r text a rest) :
    Reads r (before ++ text) a rest := by
  intro p
  obtain ⟨q, hq⟩ := Cursor.skipBlank_blank hbefore text p
  obtain ⟨q', hq'⟩ := h q
  exact ⟨q', by rw [hr _ _ hq, hq']⟩

/-- Behind what is read from a whole text there may be blanks. -/
theorem Reads.readAll_blank {α : Type} {r : Cursor → Reading α} {s : String} {a : α}
    {after : List Char} (hafter : Json.Blank after) (h : Reads r s.toList a after) :
    TaskRelay.readAll r s = .ok a := by
  obtain ⟨q, hq⟩ := h ⟨1, 0⟩
  obtain ⟨q', hq'⟩ := Cursor.skipBlank_blank hafter [] q
  rw [List.append_nil] at hq'
  unfold TaskRelay.readAll Cursor.ofText
  rw [hq]
  simp only [hq']
  rfl

namespace Cursor

theorem skipsBlank_nextItem (mode : Mode) (first : Bool) : SkipsBlank (nextItem mode first) :=
  fun c c' h => by unfold nextItem; rw [h]

theorem skipsBlank_nextKey (mode : Mode) (first : Bool) : SkipsBlank (nextKey mode first) :=
  fun c c' h => by unfold nextKey; rw [h]

/-- Skipping blanks ends in front of the first character that is none. -/
theorem skipBlank_blank_cons {before : List Char} (h : Json.Blank before) {x : Char}
    (hx : isBlank x = false) (more : List Char) (p : Position) :
    ∃ q, skipBlank ⟨before ++ x :: more, p⟩ = ⟨x :: more, q⟩ := by
  obtain ⟨q, hq⟩ := skipBlank_blank h (x :: more) p
  exact ⟨q, hq.trans (skipBlank_cons hx q)⟩

/-- In front of an item: behind the bracket if it is the first one, behind a comma if not. -/
theorem nextItem_entry {before : List Char} (hbefore : Json.Blank before) {x : Char}
    (hblank : isBlank x = false) (hx : x ≠ ']') (more : List Char) (mode : Mode) (first : Bool) :
    Reads (nextItem mode first)
      (if first then before ++ x :: more else ',' :: (before ++ x :: more)) true (x :: more) := by
  intro p
  cases first with
  | true => exact (skipsBlank_nextItem mode true).reads hbefore (nextItem_first hblank hx) p
  | false =>
    obtain ⟨q, hq⟩ := skipBlank_blank_cons hbefore hblank more (p.after ',')
    refine ⟨q, ?_⟩
    have hcomma : skipBlank ⟨',' :: (before ++ x :: more), p⟩ = ⟨',' :: (before ++ x :: more), p⟩ :=
      skipBlank_cons rfl p
    have hnext : (next ⟨',' :: (before ++ x :: more), p⟩).skipBlank = ⟨x :: more, q⟩ := hq
    unfold nextItem
    simp only [Bool.false_eq_true, if_false, hcomma, hnext, Char.reduceEq, imp_self, if_true]
    split
    · next h => cases h
    · next h => exact absurd (List.cons.inj h).1 hx
    · next h => exact absurd (List.cons.inj h).1 hx
    · rfl

/-- In front of a key: behind the brace if it is the first one, behind a comma if not. -/
theorem nextKey_entry {before : List Char} (hbefore : Json.Blank before) (more : List Char)
    (mode : Mode) (first : Bool) :
    Reads (nextKey mode first)
      (if first then before ++ '"' :: more else ',' :: (before ++ '"' :: more)) true
      ('"' :: more) := by
  intro p
  cases first with
  | true => exact (skipsBlank_nextKey mode true).reads hbefore nextKey_first p
  | false =>
    obtain ⟨q, hq⟩ := skipBlank_blank_cons hbefore (x := '"') rfl more (p.after ',')
    refine ⟨q, ?_⟩
    have hcomma : skipBlank ⟨',' :: (before ++ '"' :: more), p⟩ =
        ⟨',' :: (before ++ '"' :: more), p⟩ := skipBlank_cons rfl p
    have hnext : (next ⟨',' :: (before ++ '"' :: more), p⟩).skipBlank = ⟨'"' :: more, q⟩ := hq
    unfold nextKey
    simp only [Bool.false_eq_true, if_false, hcomma, hnext, Char.reduceEq, imp_self, if_true]

theorem skipsBlank_colon : SkipsBlank colon := fun c c' h => by unfold colon; rw [h]

end Cursor

/-- A value may stand behind blanks. -/
theorem Json.skipsBlank_read (limit : Nat) : SkipsBlank (Json.read limit) := by
  intro c c' h
  cases limit with
  | zero => unfold read; rw [h]
  | succ limit => unfold read; rw [h]

/-! ## Strings -/

namespace Scalar

/-- Whatever spells a character is read as that character. -/
theorem chars_of_spellsChar {c : Char} {text : List Char} (h : Json.SpellsChar c text)
    (rest : List Char) (p : Position) (done : List Char) :
    ∃ q, chars .keep (text ++ rest) p done = chars .keep rest q (c :: done) := by
  cases h with
  | plain hcontrol hquote hslash =>
    exact ⟨_, chars_plain hquote hslash (Nat.not_lt.mpr hcontrol) rest p done⟩
  | short h => exact ⟨_, chars_short h rest p done⟩
  | @code d₁ d₂ d₃ d₄ n h hn =>
    have htrailing : isTrailing n = false := by simp [isTrailing]; omega
    have hleading : isLeading n = false := by simp [isLeading]; omega
    refine ⟨p.plus 6, ?_⟩
    show chars .keep ('\\' :: 'u' :: d₁ :: d₂ :: d₃ :: d₄ :: rest) p done = _
    rw [chars]
    simp [h, htrailing, hleading]
  | @pair d₁ d₂ d₃ d₄ e₁ e₂ e₃ e₄ n m hd he hn hm =>
    have htrailing : isTrailing n = false := by simp [isTrailing]; omega
    have hleading : isLeading n = true := by simp [isLeading]; omega
    have hsecond : isTrailing m = true := by simp [isTrailing]; omega
    refine ⟨p.plus 12, ?_⟩
    show chars .keep ('\\' :: 'u' :: d₁ :: d₂ :: d₃ :: d₄ :: '\\' :: 'u' :: e₁ :: e₂ :: e₃ :: e₄ ::
      rest) p done = _
    rw [chars]
    simp [hd, he, htrailing, hleading, hsecond]

/-- The characters between quotes are read, whichever way they are spelled. -/
theorem chars_of_spellsChars {cs text : List Char} (h : Json.SpellsChars cs text)
    (rest : List Char) (p : Position) (done : List Char) :
    ∃ q, chars .keep (text ++ '"' :: rest) p done = .ok (done.reverse ++ cs, ⟨rest, q⟩) := by
  induction h generalizing p done with
  | nil => exact ⟨p.plus 1, by simp [chars]⟩
  | @cons c cs text more hc _ ih =>
    obtain ⟨q, hq⟩ := chars_of_spellsChar hc (more ++ '"' :: rest) p done
    obtain ⟨q', hq'⟩ := ih q (c :: done)
    refine ⟨q', ?_⟩
    rw [List.append_assoc, hq, hq', List.reverse_cons, List.append_assoc, List.singleton_append]

/-- So is the whole string. -/
theorem reads_of_spellsString {s : String} {text : List Char} (h : Json.SpellsString s text)
    (rest : List Char) : Reads (string .keep) (text ++ rest) s rest := by
  intro p
  obtain ⟨h⟩ := h
  obtain ⟨q, hq⟩ := chars_of_spellsChars h rest (p.after '"') []
  refine ⟨q, ?_⟩
  unfold string
  simp only [List.cons_append, List.append_assoc, List.nil_append, Cursor.next, hq, Reading.map,
    Reading.andThen, List.reverse_nil, String.ofList_toList]

/-! ## Numbers -/

variable (mode : Mode)

/-- What cannot go on a number. -/
def NoNumeral (rest : List Char) : Prop :=
  ∀ c ∈ rest.head?, isDigit c = false ∧ c ≠ '.' ∧ c ≠ 'e' ∧ c ≠ 'E'

/-- Digits are read up to the first character that is none. -/
theorem reads_someDigits {ds rest : List Char} (hne : ds ≠ [])
    (hds : ∀ c ∈ ds, isDigit c = true) (hrest : NoDigit rest) :
    Reads (someDigits mode) (ds ++ rest) (ds.map fun c => c.toNat - 48) rest := by
  intro p
  refine ⟨p.plus (ds.map fun c => c.toNat - 48).length, ?_⟩
  unfold someDigits digits
  rw [spanDigits_append hds hrest]
  cases ds with
  | nil => exact absurd rfl hne
  | cons c ds => rfl

/-- Zero is the only digit that counts nothing. -/
theorem eq_zero_of_digit {c : Char} (hc : isDigit c = true) (h : c.toNat - 48 = 0) : c = '0' := by
  simp only [isDigit, Bool.and_eq_true, decide_eq_true_eq] at hc
  have hle : 48 ≤ c.toNat := hc.1
  exact Char.toNat_inj.mp (Nat.le_antisymm (Nat.le_of_sub_eq_zero h) hle)

/-- No digit is the sign of an exponent. -/
theorem head?_digits_ne {ds : List Char} (hne : ds ≠ []) (hds : ∀ c ∈ ds, isDigit c = true)
    {x : Char} (hx : isDigit x = false) (rest : List Char) : (ds ++ rest).head? ≠ some x := by
  cases ds with
  | nil => exact absurd rfl hne
  | cons d ds =>
    intro h
    cases h
    rw [hds x List.mem_cons_self] at hx
    cases hx

/-- A number may have no exponent. -/
theorem exponentPart_none {rest : List Char} (hrest : NoNumeral rest) :
    Reads (exponentPart mode) rest none rest := by
  intro p
  refine ⟨p, ?_⟩
  unfold exponentPart
  rw [if_neg]
  rintro (h | h)
  · exact (hrest _ h).2.2.1 rfl
  · exact (hrest _ h).2.2.2 rfl

/-- An exponent is a mark, a sign or none, and digits. -/
theorem exponentPart_some {mark : Char} {sign : Option Char} {ds rest : List Char}
    (hmark : mark = 'e' ∨ mark = 'E') (hsign : ∀ c ∈ sign, c = '+' ∨ c = '-') (hne : ds ≠ [])
    (hds : ∀ c ∈ ds, isDigit c = true) (hrest : NoDigit rest) (p : Position) :
    ∃ p' q, exponentPart mode ⟨mark :: (sign.toList ++ (ds ++ rest)), p⟩ =
      .ok (some (decide (sign = some '-'), ds.map fun c => c.toNat - 48, p'), ⟨rest, q⟩) := by
  unfold exponentPart
  rw [if_pos (by simpa using hmark)]
  match sign, hsign with
  | none, _ =>
    have hplus := head?_digits_ne hne hds (x := '+') rfl rest
    have hminus := head?_digits_ne hne hds (x := '-') rfl rest
    obtain ⟨q, hq⟩ := reads_someDigits mode hne hds hrest (p.after mark)
    refine ⟨p.after mark, q, ?_⟩
    generalize ds ++ rest = more at hplus hminus hq
    simp [Cursor.next, hplus, hminus, hq, Reading.map, Reading.andThen]
  | some x, hsign =>
    obtain ⟨q, hq⟩ := reads_someDigits mode hne hds hrest ((p.after mark).after x)
    refine ⟨(p.after mark).after x, q, ?_⟩
    rcases hsign x rfl with rfl | rfl <;>
    simp [Cursor.next, hq, Reading.map, Reading.andThen]

/-- A number may have no fraction. -/
theorem fractionPart_none {rest : List Char} (hrest : ∀ c ∈ rest.head?, c ≠ '.') :
    Reads (fractionPart mode) rest none rest := by
  intro p
  refine ⟨p, ?_⟩
  unfold fractionPart
  split
  · next h => exact absurd rfl (hrest '.' (by rw [show rest = _ from h]; rfl))
  · rfl

section

variable {n : Json.Digits} (hn : n.Valid) {rest : List Char} (hrest : NoNumeral rest)

include hn hrest

/-- The exponent of a numeral is read from its spelling. -/
theorem exponentPart_text (p : Position) : ∃ p' q,
    exponentPart mode ⟨n.exponentText ++ rest, p⟩ = .ok ((n.numeral p').exponent, ⟨rest, q⟩) := by
  unfold Json.Digits.exponentText Json.Digits.numeral
  cases hexp : n.exponent with
  | none =>
    obtain ⟨q, hq⟩ := exponentPart_none mode hrest p
    exact ⟨p, q, hq⟩
  | some e =>
    obtain ⟨mark, sign, ds⟩ := e
    obtain ⟨hmark, hsign, hne, hds⟩ := hn.exponent _ hexp
    obtain ⟨p', q, hq⟩ :=
      exponentPart_some mode hmark hsign hne hds (fun c hc => (hrest c hc).1) p
    refine ⟨p', q, ?_⟩
    simp only [List.cons_append, List.append_assoc]
    exact hq

/-- What stands in front of an exponent goes on in no other way. -/
theorem exponentText_head (c : Char) (hc : c ∈ (n.exponentText ++ rest).head?) :
    isDigit c = false ∧ c ≠ '.' := by
  unfold Json.Digits.exponentText at hc
  cases hexp : n.exponent with
  | none =>
    rw [hexp] at hc
    exact ⟨(hrest c hc).1, (hrest c hc).2.1⟩
  | some e =>
    rw [hexp] at hc
    cases hc
    rcases (hn.exponent _ hexp).1 with h | h <;> rw [h] <;> decide

/-- So is its fraction. -/
theorem fractionPart_text :
    Reads (fractionPart mode) (n.fractionText ++ (n.exponentText ++ rest))
      (n.numeral default).fraction (n.exponentText ++ rest) := by
  have hhead := exponentText_head hn hrest
  unfold Json.Digits.fractionText Json.Digits.numeral
  cases hfraction : n.fraction with
  | none => exact fractionPart_none mode fun c hc => (hhead c hc).2
  | some ds =>
    obtain ⟨hne, hds⟩ := hn.fraction _ hfraction
    have hread := (reads_someDigits mode hne hds fun c hc => (hhead c hc).1).map (f := some)
    exact fun p => hread (p.after '.')

theorem fractionText_head (c : Char)
    (hc : c ∈ (n.fractionText ++ (n.exponentText ++ rest)).head?) : isDigit c = false := by
  unfold Json.Digits.fractionText at hc
  cases hfraction : n.fraction with
  | none =>
    rw [hfraction] at hc
    exact (exponentText_head hn hrest c hc).1
  | some ds =>
    rw [hfraction] at hc
    cases hc
    rfl

/-- So is its whole part. -/
theorem wholePart_text :
    Reads (wholePart mode) (n.unsignedText ++ rest) (n.numeral default).whole
      (n.fractionText ++ (n.exponentText ++ rest)) := by
  intro p
  obtain ⟨q, hq⟩ := reads_someDigits mode hn.whole_ne_nil hn.whole_digits
    (fractionText_head hn hrest) p
  refine ⟨q, ?_⟩
  unfold Json.Digits.unsignedText wholePart
  rw [List.append_assoc, List.append_assoc, hq]
  split
  · next d ds c heq =>
    -- a zero in front of another digit
    have hwhole := (Prod.ext_iff.mp (Except.ok.inj heq)).1
    obtain ⟨x, more, hmore, hx, htail⟩ := List.map_eq_cons_iff.mp hwhole
    have hdigit := hn.whole_digits x (by rw [hmore]; exact List.mem_cons_self)
    have hzero := hn.no_leading_zero (by rw [hmore, eq_zero_of_digit hdigit hx]; rfl)
    rw [hmore] at hzero
    obtain ⟨-, rfl⟩ := List.cons.inj hzero
    cases htail
  · rfl

/-- A number of the grammar is read as a numeral with its parts. -/
theorem numeral_text (p : Position) :
    ∃ p' q, numeral mode ⟨n.text ++ rest, p⟩ = .ok (n.numeral p', ⟨rest, q⟩) := by
  -- with or without a sign, the same three parts follow
  have hparts : ∀ p, ∃ p' q,
      ((wholePart mode ⟨n.unsignedText ++ rest, p⟩).andThen fun whole c =>
        (fractionPart mode c).andThen fun fraction c =>
        (exponentPart mode c).map fun exponent =>
          (⟨n.negative, whole, fraction, exponent⟩ : Numeral)) =
        .ok (n.numeral p', ⟨rest, q⟩) := by
    intro p
    obtain ⟨q, hq⟩ := wholePart_text mode hn hrest p
    obtain ⟨q', hq'⟩ := fractionPart_text mode hn hrest q
    obtain ⟨p', q'', hq''⟩ := exponentPart_text mode hn hrest q'
    refine ⟨p', q'', ?_⟩
    rw [hq]
    simp only [Reading.andThen, hq', Reading.map, hq'']
    rfl
  unfold Json.Digits.text numeral
  cases hnegative : n.negative with
  | true =>
    obtain ⟨p', q, hq⟩ := hparts (p.after '-')
    refine ⟨p', q, ?_⟩
    rw [hnegative] at hq
    exact hq
  | false =>
    obtain ⟨p', q, hq⟩ := hparts p
    refine ⟨p', q, ?_⟩
    rw [hnegative] at hq
    -- without a sign the text begins with a digit
    have hsign : (n.unsignedText ++ rest).head? ≠ some '-' := by
      unfold Json.Digits.unsignedText
      rw [List.append_assoc]
      exact head?_digits_ne hn.whole_ne_nil hn.whole_digits rfl _
    simp only [Bool.false_eq_true, if_false, hsign, decide_false]
    exact hq

end

/-- A number is read, whichever way it is spelled. -/
theorem reads_of_spellsNumber {x : Number} {text rest : List Char} (h : Json.SpellsNumber x text)
    (hrest : NoNumeral rest) : Reads number (text ++ rest) x rest := by
  intro p
  obtain ⟨hvalid, hvalue⟩ := h
  obtain ⟨p', q, hq⟩ := numeral_text .keep hvalid hrest p
  exact ⟨q, by simp only [number, hq, Reading.andThen, hvalue]⟩

/-- A number begins with a sign or a digit. -/
theorem exists_digitsText_eq_cons {n : Json.Digits} (hn : n.Valid) :
    ∃ x more, n.text = x :: more ∧ (x = '-' ∨ isDigit x = true) := by
  unfold Json.Digits.text Json.Digits.unsignedText
  split
  · exact ⟨_, _, rfl, .inl rfl⟩
  · cases hwhole : n.whole with
    | nil => exact absurd hwhole hn.whole_ne_nil
    | cons x more =>
      exact ⟨x, _, rfl, .inr (hn.whole_digits x (by rw [hwhole]; exact List.mem_cons_self))⟩

end Scalar

/-! ## Trees -/

namespace Json

variable {j : Json} {text rest : List Char} {limit : Nat}

/-- A string starts with its quote. -/
theorem SpellsString.exists_eq_cons {key : String} (h : SpellsString key text) :
    ∃ more, text = '"' :: more := by
  obtain ⟨h⟩ := h
  exact ⟨_, rfl⟩

/-- What the text of a value starts with. -/
theorem Spells.exists_eq_cons (h : Spells j text) : ∃ x more, text = x :: more ∧ Opens j x := by
  cases h with
  | null => exact ⟨'n', _, rfl, by decide, by decide, fun _ => by decide⟩
  | true => exact ⟨'t', _, rfl, by decide, by decide, fun _ => by decide⟩
  | false => exact ⟨'f', _, rfl, by decide, by decide, fun _ => by decide⟩
  | number h =>
    obtain ⟨hvalid, -⟩ := h
    obtain ⟨x, more, htext, hx⟩ := Scalar.exists_digitsText_eq_cons hvalid
    exact ⟨x, more, htext, Scalar.opens_number hx⟩
  | string h =>
    obtain ⟨h⟩ := h
    exact ⟨'"', _, rfl, by decide, by decide, fun _ => by decide⟩
  | emptyArray | array => exact ⟨'[', _, rfl, by decide, by decide, fun h => h.elim⟩
  | emptyObject | object => exact ⟨'{', _, rfl, by decide, by decide, fun h => h.elim⟩

/-- What stands behind a value: blanks, what comes behind an entry, or nothing. -/
def Closes (rest : List Char) : Prop :=
  ∀ c ∈ rest.head?, Cursor.isBlank c = true ∨ c = ',' ∨ c = ']' ∨ c = '}'

/-- What may follow a value does not go on with a number. -/
theorem Closes.noNumeral (h : Closes rest) : Scalar.NoNumeral rest := by
  intro c hc
  rcases h c hc with hblank | rfl | rfl | rfl
  · simp only [Cursor.isBlank, Bool.or_eq_true, decide_eq_true_eq] at hblank
    rcases hblank with ((rfl | rfl) | rfl) | rfl <;> decide
  · decide
  · decide
  · decide

/-- Blanks may follow a value, and what may follow it without them. -/
theorem closes_blank_append {after : List Char} (hafter : Blank after) (h : Closes rest) :
    Closes (after ++ rest) := by
  cases after with
  | nil => exact h
  | cons c after =>
    rintro x ⟨⟩
    exact .inl (Cursor.isBlank_of_blank hafter c List.mem_cons_self)

/-- A scalar is read whatever may be opened. -/
theorem read_of_scalar {x : Char} {more : List Char} (hx : Opens j x) (hj : Scalar.IsScalar j)
    (h : Reads Scalar.read (x :: more) j rest) : Reads (read limit) (x :: more) j rest := by
  intro p
  obtain ⟨q, hq⟩ := h p
  refine ⟨q, ?_⟩
  cases limit <;>
  · unfold read
    rw [Cursor.skipBlank_cons hx.1]
    dsimp only
    split
    · next h => exact absurd (List.cons.inj h).1 (hx.2.2 hj).1
    · next h => exact absurd (List.cons.inj h).1 (hx.2.2 hj).2
    · exact hq

/-- A value without parts is read, whichever way it is spelled. -/
theorem reads_scalar (h : Spells j text) (hj : Scalar.IsScalar j) (hrest : Closes rest) :
    Reads (read limit) (text ++ rest) j rest := by
  obtain ⟨x, more, htext, hx⟩ := h.exists_eq_cons
  -- the constructor of the spelling says which reader the first character leads to
  have hread : Reads Scalar.read (text ++ rest) j rest := by
    cases h with
    | null =>
      exact fun p => (Scalar.word_append ['u', 'l', 'l'] rest).map (f := fun _ => Json.null) _
    | true =>
      exact fun p => (Scalar.word_append ['r', 'u', 'e'] rest).map (f := fun _ => Json.bool true) _
    | false =>
      exact fun p =>
        (Scalar.word_append ['a', 'l', 's', 'e'] rest).map (f := fun _ => Json.bool false) _
    | number h =>
      have hnumber := Scalar.reads_of_spellsNumber h hrest.noNumeral
      obtain ⟨hvalid, -⟩ := h
      obtain ⟨y, tail, hdigits, hy⟩ := Scalar.exists_digitsText_eq_cons hvalid
      rw [hdigits] at hnumber ⊢
      exact Scalar.read_number hy hnumber
    | string h =>
      have hstring := (Scalar.reads_of_spellsString h rest).map (f := Json.string)
      obtain ⟨h⟩ := h
      exact hstring
    | emptyArray | array | emptyObject | object => exact hj.elim
  rw [htext] at hread ⊢
  exact read_of_scalar hx hj hread

/-! ## Entries -/

theorem closes_comma : Closes (',' :: rest) := by
  rintro c ⟨⟩
  exact .inr (.inl rfl)

theorem closes_bracket : Closes (']' :: rest) := by
  rintro c ⟨⟩
  exact .inr (.inr (.inl rfl))

theorem closes_brace : Closes ('}' :: rest) := by
  rintro c ⟨⟩
  exact .inr (.inr (.inr rfl))

/-- Entries with commas between them are at least one. -/
theorem Separated.ne_nil {α : Type} {Entry : α → List Char → Prop} {as : List α}
    (h : Separated Entry as text) : as ≠ [] := by
  cases h <;> exact List.cons_ne_nil _ _

/-- Every entry takes a character at least. -/
theorem Separated.length_le {α : Type} {Entry : α → List Char → Prop} {as : List α}
    (h : Separated Entry as text) (hentry : ∀ {a text}, a ∈ as → Entry a text → 0 < text.length) :
    as.length ≤ text.length := by
  induction h with
  | one _ ha _ =>
    have hpos := hentry List.mem_cons_self ha
    simp only [List.length_append, List.length_cons, List.length_nil]
    omega
  | more _ ha _ _ ih =>
    have hpos := hentry List.mem_cons_self ha
    have hmore := ih fun ha => hentry (List.mem_cons_of_mem _ ha)
    simp only [List.length_append, List.length_cons]
    omega

section

variable {α : Type} {Entry : α → List Char → Prop} {item : Cursor → Reading α} {a : α} {as : List α}
  {mode : Mode} {before after left : List Char}

/-! ### Items -/

/-- An entry of a list that is read as `a`, whatever closes it. It cannot be taken for a blank nor
for the end of the list. -/
structure IsItem (item : Cursor → Reading α) (a : α) (text : List Char) : Prop where
  opens : ∃ x more, text = x :: more ∧ Cursor.isBlank x = false ∧ x ≠ ']'
  reads : ∀ rest, Closes rest → Reads item (text ++ rest) a rest

/-- An item has a character. -/
theorem IsItem.length_pos (h : IsItem item a text) : 0 < text.length := by
  obtain ⟨x, more, rfl, -⟩ := h.opens
  exact Nat.succ_pos _

theorem skipsBlank_itemsFrom (mode : Mode) (item : Cursor → Reading α) (x : Char)
    (fuel : List Char) (first : Bool) (done : List α) :
    SkipsBlank (Reading.itemsFrom mode item (x :: fuel) first done) := by
  intro c c' h
  unfold Reading.itemsFrom
  rw [Cursor.skipsBlank_nextItem mode first c c' h]

/-- An item is read, and the reader goes on behind the blanks that follow it. -/
theorem IsItem.itemsFrom (h : IsItem item a text) (hbefore : Blank before) (hafter : Blank after)
    {f f' : Char} {fuel : List Char} (first : Bool) {done all : List α} (hrest : Closes rest)
    (hmore : Reads (Reading.itemsFrom mode item (f' :: fuel) false (a :: done)) rest all left) :
    Reads (Reading.itemsFrom mode item (f :: f' :: fuel) first done)
      (if first then before ++ (text ++ (after ++ rest))
        else ',' :: (before ++ (text ++ (after ++ rest)))) all left := by
  have hitem := h.reads (after ++ rest) (closes_blank_append hafter hrest)
  obtain ⟨x, more, rfl, hblank, hx⟩ := h.opens
  have hnext := Cursor.nextItem_entry hbefore hblank hx (more ++ (after ++ rest)) mode first
  exact hnext.andThen (hitem.andThen
    ((skipsBlank_itemsFrom mode item f' fuel false _).reads hafter hmore))

/-- Items are read one by one: the first one behind the bracket, the others behind a comma. -/
theorem Separated.itemsFrom (h : Separated Entry as text)
    (hitem : ∀ {a text}, a ∈ as → Entry a text → IsItem item a text) (rest : List Char)
    {fuel : List Char} (first : Bool) (done : List α) (hfuel : as.length < fuel.length) :
    Reads (Reading.itemsFrom mode item fuel first done)
      (if first then text ++ ']' :: rest else ',' :: (text ++ ']' :: rest)) (done.reverse ++ as)
      (']' :: rest) := by
  induction h generalizing fuel first done with
  | @one a before text after hbefore ha hafter =>
    -- one piece of fuel for the item, and one to see that the list ends
    obtain _ | ⟨f, _ | ⟨f', fuel⟩⟩ := fuel
    · cases hfuel
    · cases Nat.lt_of_succ_lt_succ hfuel
    have hend : Reads (Reading.itemsFrom mode item (f' :: fuel) false (a :: done)) (']' :: rest)
        (a :: done).reverse (']' :: rest) := Cursor.nextItem_end.andThen fun p => ⟨p, rfl⟩
    have hread := (hitem List.mem_cons_self ha).itemsFrom (f := f) hbefore hafter first
      closes_bracket hend
    simpa only [List.append_assoc, List.reverse_cons] using hread
  | @more a as before text after more hbefore ha hafter has ih =>
    obtain _ | ⟨f, _ | ⟨f', fuel⟩⟩ := fuel
    · cases hfuel
    · cases Nat.lt_of_succ_lt_succ hfuel
    have hmore := ih (fun ha => hitem (List.mem_cons_of_mem _ ha)) false
      (a :: done) (Nat.lt_of_succ_lt_succ hfuel)
    have hread := (hitem List.mem_cons_self ha).itemsFrom (f := f) hbefore hafter first
      closes_comma hmore
    simpa only [List.append_assoc, List.cons_append, List.nil_append, List.reverse_cons] using hread

/-- What stands between the brackets of a list, if every entry is read. -/
theorem reads_items (h : Separated Entry as text)
    (hitem : ∀ {a text}, a ∈ as → Entry a text → IsItem item a text) (rest : List Char) :
    Reads (Reading.items mode item) (text ++ ']' :: rest) as (']' :: rest) := by
  have hlength := h.length_le fun ha hentry => (hitem ha hentry).length_pos
  refine Reads.items (h.itemsFrom hitem rest true [] ?_)
  simp only [List.length_cons, List.length_append]
  omega

/-- Between brackets there may be blanks only. -/
theorem reads_noItems (h : Blank text) (rest : List Char) :
    Reads (Reading.items mode item) (text ++ ']' :: rest) [] (']' :: rest) :=
  Reads.items ((skipsBlank_itemsFrom _ _ _ _ _ _).reads h
    (Cursor.nextItem_end.andThen fun p => ⟨p, rfl⟩))

/-! ### Members -/

variable {σ : Type} {entry : σ → String → Cursor → Reading σ} {s t : σ}

/-- An entry of an object that leads from `s` to `t`, whatever closes it. -/
structure IsMember (mode : Mode) (entry : σ → String → Cursor → Reading σ) (s t : σ)
    (text : List Char) : Prop where
  opens : ∃ more, text = '"' :: more
  reads : ∀ rest, Closes rest →
    Reads (fun c => (Scalar.string mode c).andThen (entry s)) (text ++ rest) t rest

/-- A member has a character. -/
theorem IsMember.length_pos (h : IsMember mode entry s t text) : 0 < text.length := by
  obtain ⟨more, rfl⟩ := h.opens
  exact Nat.succ_pos _

theorem skipsBlank_entriesFrom (mode : Mode) (entry : σ → String → Cursor → Reading σ) (x : Char)
    (fuel : List Char) (first : Bool) (s : σ) :
    SkipsBlank (Reading.entriesFrom mode entry (x :: fuel) first s) := by
  intro c c' h
  unfold Reading.entriesFrom
  rw [Cursor.skipsBlank_nextKey mode first c c' h]

/-- A member is read, and the reader goes on behind the blanks that follow it. -/
theorem IsMember.entriesFrom (h : IsMember mode entry s t text) (hbefore : Blank before)
    (hafter : Blank after) {f f' : Char} {fuel : List Char} (first : Bool) {u : σ}
    (hrest : Closes rest)
    (hmore : Reads (Reading.entriesFrom mode entry (f' :: fuel) false t) rest u left) :
    Reads (Reading.entriesFrom mode entry (f :: f' :: fuel) first s)
      (if first then before ++ (text ++ (after ++ rest))
        else ',' :: (before ++ (text ++ (after ++ rest)))) u left := by
  have hmember := h.reads (after ++ rest) (closes_blank_append hafter hrest)
  obtain ⟨more, rfl⟩ := h.opens
  have hnext := Cursor.nextKey_entry hbefore (more ++ (after ++ rest)) mode first
  have hread := hmember.andThen
    ((skipsBlank_entriesFrom mode entry f' fuel false _).reads hafter hmore)
  simp only [Reading.andThen_assoc] at hread
  exact hnext.andThen hread

/-- Members are read one by one, in the order of the text. -/
theorem Separated.entriesFrom {step : σ → α → σ} (h : Separated Entry as text)
    (hmember : ∀ {s a text}, a ∈ as → Entry a text → IsMember mode entry s (step s a) text)
    (rest : List Char) {fuel : List Char} (first : Bool) (s : σ) (hfuel : as.length < fuel.length) :
    Reads (Reading.entriesFrom mode entry fuel first s)
      (if first then text ++ '}' :: rest else ',' :: (text ++ '}' :: rest)) (as.foldl step s)
      ('}' :: rest) := by
  induction h generalizing fuel first s with
  | @one a before text after hbefore ha hafter =>
    -- one piece of fuel for the member, and one to see that the object ends
    obtain _ | ⟨f, _ | ⟨f', fuel⟩⟩ := fuel
    · cases hfuel
    · cases Nat.lt_of_succ_lt_succ hfuel
    have hend : Reads (Reading.entriesFrom mode entry (f' :: fuel) false (step s a)) ('}' :: rest)
        (step s a) ('}' :: rest) := Cursor.nextKey_end.andThen fun p => ⟨p, rfl⟩
    have hread := (hmember List.mem_cons_self ha).entriesFrom (f := f) hbefore hafter first
      closes_brace hend
    simpa only [List.append_assoc, List.foldl_cons, List.foldl_nil] using hread
  | @more a as before text after more hbefore ha hafter has ih =>
    obtain _ | ⟨f, _ | ⟨f', fuel⟩⟩ := fuel
    · cases hfuel
    · cases Nat.lt_of_succ_lt_succ hfuel
    have hmore := ih (fun ha => hmember (List.mem_cons_of_mem _ ha)) false
      (step s a) (Nat.lt_of_succ_lt_succ hfuel)
    have hread := (hmember List.mem_cons_self ha).entriesFrom (f := f) hbefore hafter first
      closes_comma hmore
    simpa only [List.append_assoc, List.cons_append, List.foldl_cons] using hread

/-- What stands between the braces of an object, if every entry is read. -/
theorem reads_entries (step : σ → α → σ) (h : Separated Entry as text)
    (hmember : ∀ {s a text}, a ∈ as → Entry a text → IsMember mode entry s (step s a) text)
    (s : σ) (rest : List Char) :
    Reads (Reading.entries mode entry s) (text ++ '}' :: rest) (as.foldl step s) ('}' :: rest) := by
  have hlength := h.length_le fun ha hentry => (hmember (s := s) ha hentry).length_pos
  refine Reads.entries (h.entriesFrom hmember rest true s ?_)
  simp only [List.length_cons, List.length_append]
  omega

/-- Between braces there may be blanks only. -/
theorem reads_noEntries (h : Blank text) (s : σ) (rest : List Char) :
    Reads (Reading.entries mode entry s) (text ++ '}' :: rest) s ('}' :: rest) :=
  Reads.entries ((skipsBlank_entriesFrom _ _ _ _ _ _).reads h
    (Cursor.nextKey_end.andThen fun p => ⟨p, rfl⟩))

end

/-- Behind its key a member has a colon and a value. -/
theorem reads_colon {α : Type} {value : Cursor → Reading α} {before : List Char} {a : α}
    (hbefore : Blank before) (h : Reads value text a rest) :
    Reads (fun c => c.colon.andThen fun _ c => value c) (before ++ ':' :: text) a rest :=
  (Cursor.skipsBlank_colon.reads hbefore Cursor.colon_cons).andThen h

/-- An entry is a member by what its name is read as and by what is made of the rest of it. -/
theorem isMember_of_name {σ : Type} {mode : Mode} {entry : σ → String → Cursor → Reading σ}
    {s t : σ} {key : String} {name before after : List Char} (hopens : ∃ more, name = '"' :: more)
    (hname : ∀ rest, Reads (Scalar.string mode) (name ++ rest) key rest)
    (hentry : ∀ rest, Closes rest →
      Reads (entry s key) (before ++ ':' :: (after ++ (text ++ rest))) t rest) :
    IsMember mode entry s t (name ++ (before ++ ':' :: (after ++ text))) := by
  constructor
  · obtain ⟨more, rfl⟩ := hopens
    exact ⟨_, rfl⟩
  · intro rest hrest
    have hread := (hname _).andThen (hentry rest hrest)
    simpa only [List.append_assoc, List.cons_append] using hread

/-! ## Texts -/

/-- A value that is read is an item. -/
theorem Spells.isItem {value : Cursor → Reading Json} (h : Spells j text)
    (hvalue : ∀ rest, Closes rest → Reads value (text ++ rest) j rest) : IsItem value j text := by
  obtain ⟨x, more, htext, hblank, hx, -⟩ := h.exists_eq_cons
  exact ⟨⟨x, more, htext, hblank, hx⟩, hvalue⟩

/-- A member whose value is read is kept. -/
theorem SpellsMember.isMember {value : Cursor → Reading Json} {m : String × Json}
    (hm : SpellsMember Spells m text) (hskip : SkipsBlank value)
    (hvalue : ∀ {text}, Spells m.2 text → ∀ rest, Closes rest → Reads value (text ++ rest) m.2 rest)
    (done : List (String × Json)) :
    IsMember .keep (keepMember value) done (m :: done) text := by
  obtain @⟨key, j, name, before, after, text, hkey, hbefore, hafter, hj⟩ := hm
  refine isMember_of_name hkey.exists_eq_cons (Scalar.reads_of_spellsString hkey) ?_
  intro rest hrest
  exact reads_colon hbefore
    ((hskip.reads hafter (hvalue hj rest hrest)).map (f := fun v => (key, v) :: done))

/-- Whatever spells a tree is read as the tree, if that is not nested too deeply. -/
theorem reads_of_spells (limit : Nat) : ∀ {j : Json} {text : List Char}, Spells j text →
    j.depth ≤ limit → ∀ rest, Closes rest → Reads (read limit) (text ++ rest) j rest := by
  -- on the room for containers: what stands in a container has one less
  induction limit with
  | zero =>
    intro j text h hdepth rest hrest
    refine reads_scalar h ?_ hrest
    cases j with
    | array | object => cases hdepth
    | null | bool | number | string => trivial
  | succ limit ih =>
    intro j text h hdepth rest hrest
    cases j with
    | null | bool | number | string => exact reads_scalar h trivial hrest
    | array js =>
      have hitems : ∃ inner, text = '[' :: (inner ++ [']']) ∧
          Reads (Reading.items .keep (read limit)) (inner ++ ']' :: rest) js (']' :: rest) := by
        cases h with
        | emptyArray hblank => exact ⟨_, rfl, reads_noItems hblank rest⟩
        | array h =>
          refine ⟨_, rfl, reads_items h (fun hj hspells => hspells.isItem (ih hspells ?_)) rest⟩
          exact Nat.le_trans (depth_le_depthItems hj) (Nat.le_of_succ_le_succ hdepth)
      obtain ⟨inner, rfl, hread⟩ := hitems
      have hlist := hread.inList.map (f := Json.array)
      simp only [List.cons_append, List.append_assoc, List.nil_append]
      exact fun p => hlist p
    | object ms =>
      have hentries : ∃ inner, text = '{' :: (inner ++ ['}']) ∧
          Reads (Reading.entries .keep (keepMember (read limit)) []) (inner ++ '}' :: rest)
            ms.reverse ('}' :: rest) := by
        cases h with
        | emptyObject hblank => exact ⟨_, rfl, reads_noEntries hblank [] rest⟩
        | object h =>
          have hmember : ∀ {done m text}, m ∈ ms → SpellsMember Spells m text →
              IsMember .keep (keepMember (read limit)) done (m :: done) text := by
            intro done m text hm hspells
            have hroom : m.2.depth ≤ limit :=
              Nat.le_trans (depth_le_depthMembers hm) (Nat.le_of_succ_le_succ hdepth)
            exact hspells.isMember (skipsBlank_read limit) (fun hspells => ih hspells hroom) done
          have hread := reads_entries (fun done m => m :: done) h hmember [] rest
          rw [List.foldl_flip_cons_eq_append', List.append_nil] at hread
          exact ⟨_, rfl, hread⟩
      obtain ⟨inner, rfl, hread⟩ := hentries
      have hobject := hread.inObject.map (f := fun done => Json.object done.reverse)
      rw [List.reverse_reverse] at hobject
      simp only [List.cons_append, List.append_assoc, List.nil_append]
      exact fun p => hobject p

/-- A text of the grammar is read as the tree that it spells, if that is nested no more deeply than
a text may be. -/
theorem parse_of_isText {s : String} (h : IsText s j) (hdepth : j.depth ≤ depthLimit) :
    parse s = .ok j := by
  obtain ⟨before, text, after, hbefore, hspells, hafter, htext⟩ := h
  have hclosed : Closes after := by
    have hend : Closes [] := fun _ hc => by cases hc
    have hnil := closes_blank_append hafter hend
    rwa [List.append_nil] at hnil
  refine Reads.readAll_blank hafter ?_
  rw [htext]
  exact (skipsBlank_read depthLimit).reads hbefore
    (reads_of_spells depthLimit hspells hdepth after hclosed)

end Json

end TaskRelay
