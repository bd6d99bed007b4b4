import TaskRelay.Shape.Basic

/-!
# Counts as text

Reads a count from decimal digits, with a plus sign in front or without one. What is wrong is found
from left to right, so a text that is too large is never complained about for what comes later.

> `Count.digits_bounds`: what is read from digits fits a machine word.
-/

namespace TaskRelay

/-- What is wrong with the text of a count. -/
inductive CountError where
  | empty
  | invalidDigit
  | tooLarge
deriving DecidableEq, Repr

def CountError.message : CountError → String
  | .empty => "cannot parse integer from empty string"
  | .invalidDigit => "invalid digit found in string"
  | .tooLarge => "number too large to fit in target type"

namespace Count

/-- The value of a decimal digit. -/
def digit? (c : Char) : Option Nat := if c.isDigit then some (c.toNat - '0'.toNat) else none

/-- Reads digits behind those that have the value `n`. -/
def digits (n : Nat) : List Char → Except CountError Nat
  | [] => .ok n
  | c :: rest =>
    match digit? c with
    | none => .error .invalidDigit
    | some d => if 10 * n + d < 1 <<< 64 then digits (10 * n + d) rest else .error .tooLarge

/-- A number that is not empty. -/
def unsigned : List Char → Except CountError Nat
  | [] => .error .invalidDigit
  | cs => digits 0 cs

/-- A number behind an optional plus sign. -/
def signed : List Char → Except CountError Nat
  | [] => .error .empty
  | '+' :: rest => unsigned rest
  | cs => unsigned cs

theorem digits_bounds {n m : Nat} {cs : List Char} (hn : n < 1 <<< 64) (h : digits n cs = .ok m) :
    n ≤ m ∧ m < 1 <<< 64 := by
  induction cs generalizing n with
  | nil =>
    simp only [digits, Except.ok.injEq] at h
    omega
  | cons c rest ih =>
    simp only [digits] at h
    split at h
    · contradiction
    · split at h
      · next hlt =>
        have := ih hlt h
        omega
      · contradiction

/-- The count in a text. -/
def parse (s : String) : Except CountError (Ranged .size) :=
  (signed s.toList).bind fun n =>
    match Ranged.ofInt? .size n with
    | some r => .ok r
    | none => .error .tooLarge

end Count

end TaskRelay
