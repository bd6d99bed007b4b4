/-!
# Texts for a terminal

A terminal takes control sequences out of a text and acts on them; that is how parts of a message
stand out (`Style.apply`). Where a message goes elsewhere, `plain` takes them out, and with them all
control characters that are no blanks. A message may quote what it was given, so that sequences of
any kind can turn up in it, also unfinished ones: those take in what follows.

> `plain_eq_self`: a text of shown characters stays as it is.
> `isShown_of_mem_plainFrom`: nothing but shown characters is left.
-/

namespace TaskRelay.Terminal

/-! ### Style -/

/-- How a part of a message stands out. -/
inductive Style where
  | alert
  /-- What the message is about. -/
  | marked
  /-- What can be typed as it stands. -/
  | literal
deriving DecidableEq, Repr

/-- The sequences that turn a style on. -/
def Style.codes : Style → String
  | .alert => "\x1b[1m\x1b[31m"
  | .marked => "\x1b[33m"
  | .literal => "\x1b[1m"

/-- A text in a style. -/
def Style.apply (s : Style) (t : String) : String := s.codes ++ t ++ "\x1b[0m"

/-! ### Sequences -/

/-- What the characters so far have begun. -/
inductive Place where
  /-- No sequence. -/
  | text
  /-- A sequence of which there is only the escape character. -/
  | escape
  /-- An escape sequence that waits for its last character. -/
  | escapeTail
  /-- A control sequence. -/
  | control
  /-- A device sequence, in front of its parameters. -/
  | device
  /-- The parameters of a device sequence. -/
  | deviceParameters
  /-- A device sequence that waits for its last character. -/
  | deviceTail
  /-- A command to the system, which a bell ends. -/
  | command
  /-- A string of data. -/
  | data
deriving DecidableEq, Repr

/-- Blanks are shown even inside of a sequence. -/
def isBlank (c : Char) : Bool := c = ' ' || c = '\t' || c = '\n' || c = '\x0c' || c = '\r'

/-- Whether a character outside of sequences is shown. -/
def isShown (c : Char) : Bool := isBlank c || (0x20 ≤ c.toNat && c.toNat ≠ 0x7f)

namespace Place

/-- What a character from the space to the tilde leads to. -/
def afterGraphic : Place → Nat → Place
  | .text, _ => .text
  | .escape, n =>
    if n < 0x30 then .escapeTail
    else if n = 0x50 then .device
    else if n = 0x5b then .control
    else if n = 0x5d then .command
    else if n = 0x58 ∨ n = 0x5e ∨ n = 0x5f then .data
    else .text
  | .escapeTail, n => if n < 0x30 then .escapeTail else .text
  | .control, n => if n < 0x40 then .control else .text
  | .device, n =>
    if n < 0x30 then .deviceTail else if n < 0x40 then .deviceParameters else .data
  | .deviceParameters, n =>
    if n < 0x30 then .deviceTail else if n < 0x3c then .deviceParameters else .data
  | .deviceTail, n => if n < 0x30 then .deviceTail else .data
  | .command, _ => .command
  | .data, _ => .data

/-- What a character beyond the first 128 leads to: one that has the byte `9c` ends data. -/
def afterWide (p : Place) (c : Char) : Place :=
  if p = .data ∧ (String.utf8EncodeChar c).contains 0x9c then .text else p

/-- What a character leads to. Two control characters break off any sequence, and the escape
character starts another one. -/
def after (p : Place) (c : Char) : Place :=
  let n := c.toNat
  if n = 0x18 ∨ n = 0x1a then .text
  else if n = 0x1b then .escape
  else if n < 0x20 then if p = .command ∧ n = 0x07 then .text else p
  else if n < 0x7f then p.afterGraphic n
  else if n = 0x7f then p
  else p.afterWide c

/-- Whether a character is shown there. The space belongs to a sequence, other blanks do not, except
in texts that are not for the screen at all. -/
def shows (p : Place) (c : Char) : Bool :=
  match p with
  | .text => isShown c
  | .escape | .escapeTail | .control => isBlank c && c ≠ ' '
  | .device | .deviceParameters | .deviceTail | .command | .data => false

end Place

/-! ### Plain text -/

/-- What is shown of a text. Behind a blank inside of a sequence, everything is shown up to the next
control character, and only then the sequence goes on; `showing` is for that. -/
def plainFrom : (p : Place) → (showing : Bool) → List Char → List Char
  | _, _, [] => []
  | p, showing, c :: rest =>
    if showing && isShown c then
      c :: plainFrom (if c.toNat < 0x80 then p else .text) true rest
    else if p.shows c then c :: plainFrom (p.after c) true rest
    else plainFrom (p.after c) false rest

/-- A text without control sequences. -/
def plain (s : String) : String := String.ofList (plainFrom .text false s.toList)

theorem Place.isShown_of_shows {p : Place} {c : Char} (h : p.shows c = true) :
    isShown c = true := by
  cases p <;> simp_all [shows, isShown]

theorem isShown_of_mem_plainFrom {p : Place} {showing : Bool} {cs : List Char} {c : Char}
    (h : c ∈ plainFrom p showing cs) : isShown c = true := by
  induction cs generalizing p showing with
  | nil => simp [plainFrom] at h
  | cons d rest ih =>
    rw [plainFrom] at h
    split at h
    · next hd =>
      rcases List.mem_cons.mp h with rfl | h
      · simp_all
      · exact ih h
    · split at h
      · next hd =>
        rcases List.mem_cons.mp h with rfl | h
        · exact Place.isShown_of_shows hd
        · exact ih h
      · exact ih h

theorem plainFrom_eq_self {cs : List Char} (h : ∀ c ∈ cs, isShown c = true) :
    plainFrom .text true cs = cs := by
  induction cs with
  | nil => rfl
  | cons c rest ih =>
    have hc := h c (List.mem_cons_self ..)
    simp only [plainFrom, hc, Bool.and_self, if_true, ite_self]
    rw [ih fun d hd => h d (List.mem_cons_of_mem _ hd)]

theorem Place.after_text {c : Char} (h : isShown c = true) : Place.after .text c = .text := by
  have hc : c.toNat ≠ 0x1b := by
    intro hc
    obtain rfl : c = '\x1b' := Char.toNat_inj.mp hc
    exact absurd h (by decide)
  simp [after, afterGraphic, afterWide, hc]

theorem plain_eq_self {s : String} (h : ∀ c ∈ s.toList, isShown c = true) : plain s = s := by
  suffices plainFrom .text false s.toList = s.toList by simp [plain, this]
  cases hs : s.toList with
  | nil => rfl
  | cons c rest =>
    rw [hs] at h
    have hc := h c (List.mem_cons_self ..)
    have hrest := plainFrom_eq_self fun d hd => h d (List.mem_cons_of_mem _ hd)
    simp [plainFrom, Place.shows, hc, Place.after_text hc, hrest]

end TaskRelay.Terminal
