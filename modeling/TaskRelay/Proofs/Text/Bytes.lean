import Mathlib.Data.List.Lex

/-!
# Texts in byte order

Texts are compared character by character. Who compares their bytes comes to the same result: the
bytes of a smaller character differ from those of a greater one before either is over, and the first
that differs is smaller (`codes_append_lt`).

> `bytes_lt`: the bytes of a smaller text are smaller.
-/

namespace TaskRelay

/-- The bytes of a text. -/
def bytes (s : String) : List UInt8 := s.toUTF8.data.toList

theorem bytes_eq (s : String) : bytes s = s.toList.flatMap String.utf8EncodeChar := by
  rw [bytes, String.toUTF8_eq_toByteArray, ← String.utf8Encode_toList, List.utf8Encode,
    List.data_toByteArray]

/-! ## Characters -/

/-- The bytes of a character, as numbers: a leading byte that tells how many there are, then six
bits in each of the others. -/
def codes (v : Nat) : List Nat :=
  if v ≤ 0x7f then [v]
  else if v ≤ 0x7ff then [v / 64 + 0xc0, v % 64 + 0x80]
  else if v ≤ 0xffff then [v / 4096 + 0xe0, v / 64 % 64 + 0x80, v % 64 + 0x80]
  else [v / 262144 + 0xf0, v / 4096 % 64 + 0x80, v / 64 % 64 + 0x80, v % 64 + 0x80]

/-- These are the bytes that a character is written with. -/
theorem map_toNat_utf8EncodeChar (c : Char) :
    (String.utf8EncodeChar c).map UInt8.toNat = codes c.val.toNat := by
  have hc : c.val.toNat < 0x110000 := by
    obtain hlow | ⟨-, hhigh⟩ := c.valid <;> omega
  unfold String.utf8EncodeChar codes
  generalize c.val.toNat = v at hc
  dsimp only
  -- four bytes are enough for every character, so no leading byte runs over
  split_ifs <;> simp <;> omega

theorem codes_ne_nil (v : Nat) : codes v ≠ [] := by
  unfold codes
  split_ifs <;> simp

/-- Whatever follows, the bytes of a smaller character are smaller. -/
theorem codes_append_lt {v w : Nat} (h : v < w) (xs ys : List Nat) :
    codes v ++ xs < codes w ++ ys := by
  unfold codes
  split_ifs <;> simp only [List.cons_append, List.nil_append, List.cons_lt_cons_iff] <;> omega

/-! ## Texts -/

/-- The bytes of characters, as numbers. -/
def codesOf (cs : List Char) : List Nat := cs.flatMap fun c => codes c.val.toNat

theorem map_toNat_bytes (s : String) : (bytes s).map UInt8.toNat = codesOf s.toList := by
  rw [bytes_eq, List.map_flatMap, codesOf]
  simp only [map_toNat_utf8EncodeChar]

/-- A smaller text has smaller bytes, with one case for where the texts part. -/
theorem codesOf_lt {cs ds : List Char} (h : cs < ds) : codesOf cs < codesOf ds := by
  induction cs generalizing ds with
  | nil =>
    cases ds with
    | nil => cases h
    | cons d ds =>
      obtain ⟨v, vs, hcodes⟩ := List.exists_cons_of_ne_nil (codes_ne_nil d.val.toNat)
      show [] < codes d.val.toNat ++ codesOf ds
      rw [hcodes]
      exact List.nil_lt_cons _ _
  | cons c cs ih =>
    cases ds with
    | nil => cases h
    | cons d ds =>
      show codes c.val.toNat ++ codesOf cs < codes d.val.toNat ++ codesOf ds
      obtain hlt | ⟨rfl, hrest⟩ := List.cons_lt_cons_iff.mp h
      · exact codes_append_lt hlt _ _
      · exact List.append_left_lt (ih hrest)

/-- Bytes are compared like the numbers that they are. -/
theorem map_toNat_lt_iff {xs ys : List UInt8} :
    xs.map UInt8.toNat < ys.map UInt8.toNat ↔ xs < ys := by
  induction xs generalizing ys with
  | nil => cases ys <;> simp
  | cons x xs ih =>
    cases ys with
    | nil => simp
    | cons y ys =>
      rw [List.map_cons, List.map_cons, List.cons_lt_cons_iff, List.cons_lt_cons_iff, ih,
        UInt8.lt_iff_toNat_lt, UInt8.toNat_inj]

/-- Texts are compared as their bytes are. -/
theorem bytes_lt {s t : String} (h : s < t) : bytes s < bytes t := by
  rw [← map_toNat_lt_iff, map_toNat_bytes, map_toNat_bytes]
  exact codesOf_lt h

end TaskRelay
