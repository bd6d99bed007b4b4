import TaskRelay.Task

/-!
# The registry

A `Registry` knows tasks by definition and kinds of errors by name. Both are maps in which the
latest registration of a name counts, and neither touches the other.
-/

namespace TaskRelay

structure Registry where
  /-- Tasks by increasing definition. -/
  tasks : List (String × Runner)
  /-- For each kind of error, by increasing kind, the text of an error that is rebuilt from a
  message. -/
  errors : List (String × (String → String))

namespace Registry

/-- Knows nothing. -/
def empty : Registry := ⟨[], []⟩

/-! ### Registering -/

def register (definition : String) (run : Runner) (r : Registry) : Registry :=
  { r with tasks := Members.insert definition run r.tasks }

/-- Registers a task under its own definition. -/
def registerTask (t : TaskType) (r : Registry) : Registry := r.register t.definition t.runner

def registerError (kind : String) (rebuild : String → String) (r : Registry) : Registry :=
  { r with errors := Members.insert kind rebuild r.errors }

/-! ### Looking up -/

def runner? (r : Registry) (definition : String) : Option Runner := Members.get? definition r.tasks

def contains (r : Registry) (definition : String) : Bool := (r.runner? definition).isSome

/-- The definitions of all tasks, in increasing order. -/
def definitions (r : Registry) : List String := r.tasks.map Prod.fst

def rebuilder? (r : Registry) (kind : String) : Option (String → String) :=
  Members.get? kind r.errors

def resolvesError (r : Registry) (kind : String) : Bool := (r.rebuilder? kind).isSome

/-- The failure that a failed envelope stands for: one of the kinds that come back as they were,
else one that is registered here, else a remote failure with everything that was reported. -/
def reconstruct (r : Registry) (kind message : String) (trace : List String) : Failure :=
  match Failure.ofTaxonomy? kind message with
  | some f => f
  | none =>
    match r.rebuilder? kind with
    | some rebuild => .task kind message (rebuild message)
    | none => .remoteTask kind message trace

/-- What descriptions show of a registry. -/
def debugText (r : Registry) : String :=
  "Registry \x7b tasks: " ++ Quoted.list r.definitions ++ ", errors: " ++
    Quoted.list (r.errors.map Prod.fst) ++ " \x7d"

end Registry

end TaskRelay
