import TaskRelay.Decimal.Layout

/-!
# JSON values

Two types hold JSON:

* `Json` is the tree of a text as it stands: members of an object in the order of the text, with
  repeated keys if the text repeats them;
* `Value` is what such a tree means: keys in increasing order, each once, at every level.

`Json.canonical` leads from the first to the second. Of repeated keys the last one counts:

> `Members.get?_insert`: after an insertion the key finds the new value, every other key what it
> found before.

> `Json.canonical_sorted`: what `canonical` returns is sorted at every level, so `Value.ofJson`
> is defined on every tree.
-/

namespace TaskRelay

/-- A whole number that is kept exactly: it fits 64 bits, signed or unsigned. -/
structure Whole where
  val : Int
  ge_min : -(1 <<< 63) ≤ val
  lt_max : val < 1 <<< 64
deriving DecidableEq, Repr

theorem Whole.min_le_zero : -(1 <<< 63) ≤ (0 : Int) := by decide

instance : Inhabited Whole := ⟨0, Whole.min_le_zero, by decide⟩

/-- Whole numbers are exact; all others are doubles. -/
inductive Number where
  | whole (n : Whole)
  | double (x : Double)
deriving DecidableEq, Repr, Inhabited

/-- The tree of a JSON text. -/
inductive Json where
  | null
  | bool (b : Bool)
  | number (n : Number)
  | string (s : String)
  | array (items : List Json)
  | object (members : List (String × Json))
deriving Repr, Inhabited

/-! ### Members of an object -/

namespace Members

variable {α : Type}

/-- Inserts into members with increasing keys; an equal key takes the new value. -/
def insert (key : String) (value : α) : List (String × α) → List (String × α)
  | [] => [(key, value)]
  | (k, v) :: rest =>
    if key < k then (key, value) :: (k, v) :: rest
    else if key = k then (key, value) :: rest
    else (k, v) :: insert key value rest

/-- Members by increasing key; of equal keys the last one counts. -/
def sort (members : List (String × α)) : List (String × α) :=
  members.foldl (fun sorted m => insert m.1 m.2 sorted) []

/-- The value of the first member with this key. -/
def get? (key : String) : List (String × α) → Option α
  | [] => none
  | (k, v) :: rest => if key = k then some v else get? key rest

/-- Every key is smaller than all keys behind it. -/
def Increasing (members : List (String × α)) : Prop :=
  (members.map Prod.fst).Pairwise (· < ·)

theorem mem_keys_insert {key k : String} {value : α} {ms : List (String × α)} :
    k ∈ (insert key value ms).map Prod.fst ↔ k = key ∨ k ∈ ms.map Prod.fst := by
  induction ms with
  | nil => simp [insert]
  | cons m rest ih => grind [insert]

theorem Increasing.insert {key : String} {value : α} {ms : List (String × α)}
    (h : Increasing ms) : Increasing (insert key value ms) := by
  induction ms with
  | nil => simp [Members.insert, Increasing]
  | cons m rest ih =>
    obtain ⟨k, v⟩ := m
    simp only [Increasing, List.map_cons, List.pairwise_cons] at h
    simp only [Members.insert]
    split
    · next hlt =>
      simp only [Increasing, List.map_cons, List.pairwise_cons]
      refine ⟨fun x hx => ?_, h.1, h.2⟩
      rcases List.mem_cons.1 hx with rfl | hx
      · exact hlt
      · exact String.lt_trans hlt (h.1 x hx)
    · split
      · next _ heq =>
        subst heq
        simpa only [Increasing, List.map_cons, List.pairwise_cons] using h
      · next hnlt hne =>
        simp only [Increasing, List.map_cons, List.pairwise_cons]
        refine ⟨fun x hx => ?_, ih h.2⟩
        rcases mem_keys_insert.1 hx with rfl | hx
        · exact Std.lt_of_le_of_ne (String.not_lt.1 hnlt) (fun e => hne e.symm)
        · exact h.1 x hx

/-- Sorting on top of members that are already sorted. -/
theorem Increasing.foldl_insert (ms : List (String × α)) {sorted : List (String × α)}
    (h : Increasing sorted) :
    Increasing (ms.foldl (fun acc m => Members.insert m.1 m.2 acc) sorted) := by
  induction ms generalizing sorted with
  | nil => exact h
  | cons m rest ih => exact ih h.insert

theorem increasing_sort (ms : List (String × α)) : Increasing (sort ms) :=
  Increasing.foldl_insert ms List.Pairwise.nil

theorem get?_insert {key k : String} {value : α} {ms : List (String × α)} :
    get? k (insert key value ms) = if k = key then some value else get? k ms := by
  induction ms with
  | nil => simp [insert, get?]
  | cons m rest ih => grind [insert, get?]

/-- What `insert` holds is the new member and some of the old ones. -/
theorem mem_insert {key : String} {value : α} {ms : List (String × α)} {m : String × α}
    (h : m ∈ insert key value ms) : m = (key, value) ∨ m ∈ ms := by
  induction ms with
  | nil => simpa [insert] using h
  | cons n rest ih => grind [insert]

theorem mem_foldl_insert {ms sorted : List (String × α)} {m : String × α}
    (h : m ∈ ms.foldl (fun acc m => insert m.1 m.2 acc) sorted) : m ∈ ms ∨ m ∈ sorted := by
  induction ms generalizing sorted with
  | nil => exact .inr h
  | cons n rest ih =>
    rcases ih h with h | h
    · exact .inl (List.mem_cons_of_mem _ h)
    · rcases mem_insert h with rfl | h
      · exact .inl (List.mem_cons_self ..)
      · exact .inr h

theorem mem_of_mem_sort {ms : List (String × α)} {m : String × α} (h : m ∈ sort ms) : m ∈ ms := by
  rcases mem_foldl_insert h with h | h
  · exact h
  · simp at h

end Members

/-! ### The canonical form -/

namespace Json

mutual

/-- The tree with members sorted at every level, each key once. -/
def canonical : Json → Json
  | .array items => .array (canonicalItems items)
  | .object members => .object (Members.sort (canonicalMembers members))
  | .null => .null
  | .bool b => .bool b
  | .number n => .number n
  | .string s => .string s

/-- `canonical` on each item. -/
def canonicalItems : List Json → List Json
  | [] => []
  | item :: rest => canonical item :: canonicalItems rest

/-- `canonical` on each value. -/
def canonicalMembers : List (String × Json) → List (String × Json)
  | [] => []
  | (key, value) :: rest => (key, canonical value) :: canonicalMembers rest

end

mutual

/-- Increasing keys in every object of the tree. -/
def Sorted : Json → Prop
  | .array items => SortedItems items
  | .object members => Members.Increasing members ∧ SortedMembers members
  | .null => True
  | .bool _ => True
  | .number _ => True
  | .string _ => True

/-- `Sorted` for each item. -/
def SortedItems : List Json → Prop
  | [] => True
  | item :: rest => Sorted item ∧ SortedItems rest

/-- `Sorted` for each value. -/
def SortedMembers : List (String × Json) → Prop
  | [] => True
  | (_, value) :: rest => Sorted value ∧ SortedMembers rest

end

theorem sortedItems_iff {items : List Json} : SortedItems items ↔ ∀ j ∈ items, j.Sorted := by
  induction items with
  | nil => simp [SortedItems]
  | cons j rest ih => simp [SortedItems, ih]

theorem sortedMembers_iff {members : List (String × Json)} :
    SortedMembers members ↔ ∀ m ∈ members, m.2.Sorted := by
  induction members with
  | nil => simp [SortedMembers]
  | cons m rest ih => obtain ⟨k, v⟩ := m; simp [SortedMembers, ih]

mutual

theorem canonical_sorted : (j : Json) → j.canonical.Sorted
  | .array items => by
    simpa only [canonical, Sorted] using canonicalItems_sorted items
  | .object members => by
    simp only [canonical, Sorted]
    refine ⟨Members.increasing_sort _, sortedMembers_iff.2 fun m hm => ?_⟩
    exact sortedMembers_iff.1 (canonicalMembers_sorted members) m (Members.mem_of_mem_sort hm)
  | .null => by simp only [canonical, Sorted]
  | .bool _ => by simp only [canonical, Sorted]
  | .number _ => by simp only [canonical, Sorted]
  | .string _ => by simp only [canonical, Sorted]

theorem canonicalItems_sorted : (items : List Json) → SortedItems (canonicalItems items)
  | [] => by simp only [canonicalItems, SortedItems]
  | item :: rest => by
    simp only [canonicalItems, SortedItems]
    exact ⟨canonical_sorted item, canonicalItems_sorted rest⟩

theorem canonicalMembers_sorted :
    (members : List (String × Json)) → SortedMembers (canonicalMembers members)
  | [] => by simp only [canonicalMembers, SortedMembers]
  | (_, value) :: rest => by
    simp only [canonicalMembers, SortedMembers]
    exact ⟨canonical_sorted value, canonicalMembers_sorted rest⟩

end

mutual

/-- How many arrays and objects stand around the innermost scalar. -/
def depth : Json → Nat
  | .array items => depthItems items + 1
  | .object members => depthMembers members + 1
  | .null => 0
  | .bool _ => 0
  | .number _ => 0
  | .string _ => 0

/-- The greatest `depth` of an item. -/
def depthItems : List Json → Nat
  | [] => 0
  | item :: rest => max (depth item) (depthItems rest)

/-- The greatest `depth` of a value. -/
def depthMembers : List (String × Json) → Nat
  | [] => 0
  | (_, value) :: rest => max (depth value) (depthMembers rest)

end

mutual

/-- No number of the tree is a double. -/
def DoubleFree : Json → Prop
  | .array items => DoubleFreeItems items
  | .object members => DoubleFreeMembers members
  | .number (.double _) => False
  | .number (.whole _) => True
  | .null => True
  | .bool _ => True
  | .string _ => True

/-- `DoubleFree` for each item. -/
def DoubleFreeItems : List Json → Prop
  | [] => True
  | item :: rest => DoubleFree item ∧ DoubleFreeItems rest

/-- `DoubleFree` for each value. -/
def DoubleFreeMembers : List (String × Json) → Prop
  | [] => True
  | (_, value) :: rest => DoubleFree value ∧ DoubleFreeMembers rest

end

end Json

/-! ### Values -/

/-- A JSON value: a tree whose objects have increasing keys. -/
@[ext] structure Value where
  tree : Json
  sorted : tree.Sorted

namespace Value

/-- The value that a tree stands for. -/
def ofJson (j : Json) : Value := ⟨j.canonical, j.canonical_sorted⟩

def null : Value := ⟨.null, by simp only [Json.Sorted]⟩

def ofString (s : String) : Value := ⟨.string s, by simp only [Json.Sorted]⟩

def ofBool (b : Bool) : Value := ⟨.bool b, by simp only [Json.Sorted]⟩

instance : Inhabited Value := ⟨null⟩

/-- The member of an object; nothing for any other value. -/
def get? (key : String) (v : Value) : Option Json :=
  match v.tree with
  | .object members => Members.get? key members
  | _ => none

end Value

end TaskRelay
