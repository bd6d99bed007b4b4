import TaskRelay.Dispatcher

/-!
# Sample tasks

A set of small tasks that between them behave in every way a task can: they take tuples, records,
optional and blank fields, nothing at all and things that are no arguments; they return, fail with
and without causes, return what cannot be written, break off while they run or before they are
built, and run other tasks.

`home` is the name of the place where the tasks are defined; their error types, and the one task
that names no definition of its own, are called after it.
-/

namespace TaskRelay.Sample

/-! ### Building task types -/

/-- The result of a call that always returns. -/
def returns {α : Type} (a : α) : Attempt (Except TaskError α) := .ok (.ok a)

/-- The result of a call that fails with a message and no causes. -/
def fails {α : Type} (message : String) : Attempt (Except TaskError α) := .ok (.error ⟨message, []⟩)

/-- A result that may be out of range. -/
def inRange {α : Type} (message : String) : Option α → Attempt (Except TaskError α)
  | some a => returns a
  | none => fails message

/-- One argument. -/
def single (s : Shape) : Shape := .tuple (.cons s .nil)

/-- Two arguments. -/
def pair (s t : Shape) : Shape := .tuple (.cons s (.cons t .nil))

/-- The number of elements of a list; no list is longer than a count can say. -/
def count {α : Type} (as : List α) : Ranged .size :=
  (Ranged.ofInt? .size as.length).getD Ranged.zero

/-- The sum of two integers as a word of 64 bits holds it. -/
def wrappingAdd (a b : Ranged .int64) : Ranged .int64 :=
  (Ranged.ofInt? .int64 ((a.val + b.val).bmod (1 <<< 64))).getD Ranged.zero

/-- What a task type is when its instances can always be built. -/
def task (definition errorKind : String) (args kwargs output : Shape)
    (call : args.Carrier → kwargs.Carrier → Attempt (Except TaskError output.Carrier)) : TaskType :=
  ⟨definition, args, kwargs, output, errorKind, .ok (), call⟩

variable (home : String)

/-- A name at home. -/
def named (name : String) : String := home ++ "::" ++ name

def failedKind : String := named home "TaskFailed"

def chainKind : String := named home "Chain"

/-- The kind of errors of tasks that never fail; no such error is ever reported. -/
def neverKind : String := "core::convert::Infallible"

/-! ### Tasks that compute -/

def sum : TaskType :=
  task "Sum" (failedKind home) (pair (.int .int64) (.int .int64))
    (.record "struct SumKwargs" false (.cons (.required "c") (.int .int64) .nil)) (.int .int64)
    fun (a, b, _) (c, _) =>
      if c.val < 0 then fails "Task failed"
      else inRange "sum overflow" do
        let ab ← Ranged.ofInt? .int64 (a.val + b.val)
        Ranged.ofInt? .int64 (ab.val + c.val)

def echo : TaskType :=
  task "Echo" neverKind (single (.int .size)) .noMembers (.int .size) fun (n, _) _ => returns n

def raw : TaskType :=
  task "Raw" neverKind (.list .value) (.dict .value) .value fun args kwargs =>
    returns (Value.ofJson (.object [("args", .array (args.map Value.tree)),
      ("kwargs", .object (kwargs.map fun m => (m.1, m.2.tree)))]))

def sayHello : TaskType :=
  task (named home "SayHello") neverKind (single .text)
    (.record "struct Message" false (.cons (.required "message") .text .nil)) .text
    fun ((name : String), _) ((message : String), _) =>
      returns ("Hello, " ++ name ++ "! " ++ message)

def unit : TaskType := task "Unit" neverKind .noItems .noMembers .unit fun _ _ => returns ()

def arithmetic : TaskType :=
  task "Calc" (failedKind home) (pair .double .double)
    (.record "struct CalcKwargs" false (.cons (.required "op") .text .nil)) .double
    fun (a, b, _) ((op : String), _) =>
      match op with
      | "add" => returns (Double.add a b)
      | "sub" => returns (Double.sub a b)
      | "mul" => returns (Double.mul a b)
      | "div" => returns (Double.div a b)
      | op => fails ("unknown op " ++ op)

def profileArgs : Shape := pair (.option .text) (.int .int8)

def profileKwargs : Shape :=
  .record "struct ProfileKwargs" true <|
    .cons (.blankable "nick") (.option .text) <|
    .cons (.blankable "flags") (.list .bool) <|
    .cons (.required "level") (.int .uint8) .nil

/-- What `profile` returns. -/
def profileOut : Shape :=
  .record "struct ProfileOut" false <|
    .cons (.required "name") .text <|
    .cons (.required "nick") (.option .text) <|
    .cons (.required "flags") (.int .size) <|
    .cons (.required "level") (.int .uint8) <|
    .cons (.required "initial") (.option .char) .nil

def profile : TaskType :=
  task "Profile" (failedKind home) profileArgs profileKwargs profileOut
    fun (name, delta, _) (nick, flags, level, _) =>
      match name with
      | none => fails "no name"
      | some name =>
        match Ranged.ofInt? .uint8 (level.val + delta.val) with
        | none => fails ("level " ++ toString level.val ++ " cannot change by " ++
            toString delta.val)
        | some level => returns (name, nick, count flags, level, name.toList.head?, ())

def renamed : TaskType :=
  task "Renamed" neverKind
    (.record "struct RenamedArgs" false <|
      .cons ⟨"firstName", ["first"], false⟩ .text <|
      .cons (.blankable "count") (.int .uint16) .nil)
    .noMembers .value
    fun (first, count, _) _ =>
      returns (Value.ofJson (.array [.string first, count.toJson]))

def pick : TaskType :=
  task "Pick" (failedKind home) (pair (.list .value) (.int .int64)) .noMembers .value
    fun ((items : List Value), index, _) _ =>
      let place := if index.val < 0 then index.val + items.length else index.val
      let found := if place < 0 then none else items[place.toNat]?
      match found with
      | some v => returns v
      | none => fails ("index " ++ toString index.val ++ " out of range for " ++
          toString items.length)

def pairKeys : TaskType :=
  task "PairKeys" neverKind .noItems (.keyed (.int .int64)) (.int .size)
    fun _ entries => returns (count entries)

/-- Adds to the number that each instance starts from. -/
def offset (start : Ranged .int64) : TaskType :=
  task "Offset" neverKind (single (.int .int64)) .noMembers (.int .int64)
    fun (n, _) _ => returns (wrappingAdd start n)

/-! ### Tasks that go wrong -/

def failing : TaskType :=
  task "Failing" (failedKind home) (single .text) .noMembers .unit fun (message, _) _ =>
    fails message

def chained : TaskType :=
  task "Chained" (chainKind home) (single (.list .text)) .noMembers (.int .size)
    fun (messages, _) _ =>
      match messages with
      | [] => returns Ranged.zero
      | message :: causes => .ok (.error ⟨message, causes⟩)

def panicMode : Cases :=
  .bare "static" <|
  .carrying "formatted" "newtype variant" .text <|
  .carrying "other" "struct variant"
    (.record "struct variant PanicMode::Other" false
      (.cons (.required "code") (.int .int32) .nil)) <|
  .bare "never" .nil

def panicking : TaskType :=
  task "Panicking" neverKind (single (.choice panicMode)) .noMembers .bool
    fun (mode, _) _ =>
      match mode with
      | .inl () => .error (.text "task blew up")
      | .inr (.inl (s : String)) => .error (.text ("formatted " ++ s))
      | .inr (.inr (.inl _)) => .error .wordless
      | .inr (.inr (.inr (.inl ()))) => returns true

def unbuildable : TaskType :=
  ⟨"Unbuildable", .noItems, .noMembers, .unit, neverKind, .error (.text "cannot build task"),
    fun _ _ => returns ()⟩

/-! ### Tasks whose data is no arguments or no output -/

def badArgs : TaskType := task "BadArgs" neverKind .text .noMembers .text fun s _ => returns s

def badKwargs : TaskType :=
  task "BadKwargs" neverKind (single (.int .int64)) (.list (.int .int64)) (.int .int64)
    fun (n, _) items =>
      returns (wrappingAdd n ((Ranged.ofInt? .int64 items.length).getD Ranged.zero))

def badOutput : TaskType :=
  task "BadOutput" neverKind (single (.int .size)) .noMembers (.keyed (.int .int64))
    fun (n, _) _ =>
      returns ((List.range n.val.toNat).map fun i => (toString i, Ranged.zero))

/-! ### Tasks that wait -/

/-- Waits for a gate and returns its name. -/
def gate : TaskType :=
  task "Gate" neverKind (single .text) .noMembers .text fun (name, _) _ => returns name

/-- Waits for one gate, if there is one, and opens another. -/
def link : TaskType :=
  task "Link" neverKind (pair (.option .text) .text) .noMembers .text
    fun (_, opens, _) _ => returns opens

/-! ### All of them -/

/-- The tasks that run no other task. -/
def plainTasks : List TaskType :=
  [sum home, echo, raw, sayHello home, failing home, chained home, panicking, unit, arithmetic home,
    profile home, badArgs, badKwargs, badOutput, pairKeys, renamed, pick home, gate, link,
    offset Ranged.zero, unbuildable]

/-- Runs another task through a dispatcher of its own and returns the envelope. -/
def redispatch (registry : Unit → Registry) : TaskType :=
  task "Redispatch" neverKind (.tuple (.cons .text (.cons .text (.cons .text .nil)))) .noMembers
    .value
    fun (definition, args, kwargs, _) _ =>
      returns (Dispatcher.execute ⟨registry ()⟩ definition args kwargs).toValue

def registerAll (tasks : List TaskType) (r : Registry) : Registry :=
  tasks.foldl (fun r t => r.registerTask t) r

/-- Every task, where tasks may run one another `depth` times over. The arguments of a task that
is run by another are shorter than the text that holds them, so the length of a text bounds how
often that can happen. -/
def registry : (depth : Nat) → Registry
  | 0 => registerAll (plainTasks home) .empty
  | depth + 1 =>
    (registerAll (plainTasks home) .empty).registerTask (redispatch fun () => registry depth)

/-- The task type of a name, which may leave out the home. -/
def taskType? (depth : Nat) (name : String) : Option TaskType :=
  (redispatch (fun () => registry home depth) :: plainTasks home).find? fun t =>
    t.definition = name ∨ t.definition = named home name

end TaskRelay.Sample
