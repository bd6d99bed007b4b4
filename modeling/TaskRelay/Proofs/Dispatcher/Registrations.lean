import TaskRelay.Proofs.Dispatcher
import TaskRelay.Proofs.Members
import TaskRelay.Proofs.Registry
import TaskRelay.Proofs.Text.Bytes

/-!
# Of each name the latest registration counts

What a registry is told has a name: that of a task or that of a kind of errors. A registry is no
more than the entries under all names (`Registry.Sorted.ext`), and a registration makes the entry
under its own name and touches no other one (`known?_apply`). So what stands under a name is what
the last registration of that name has brought (`IsLatest`), or nothing if there is none.

> `last_one_counts`: after any registrations in any order, lookups, executions and rebuilt errors
> are those of the latest ones.
-/

namespace TaskRelay

/-! ## Names and entries -/

namespace Registry

/-- The definition of a task, or a kind of errors. -/
inductive Name where
  | task (definition : String)
  | error (kind : String)
deriving DecidableEq

/-- What a registry may know under a name. -/
inductive Entry where
  | task (run : Runner)
  | error (rebuild : String → String)

variable {r : Registry} {definition kind : String}

/-- What a registry knows under a name. -/
def known? (r : Registry) : Name → Option Entry
  | .task definition => (r.runner? definition).map .task
  | .error kind => (r.rebuilder? kind).map .error

theorem isSome_known?_task : (r.known? (.task definition)).isSome = r.contains definition :=
  Option.isSome_map

theorem isSome_known?_error : (r.known? (.error kind)).isSome = r.resolvesError kind :=
  Option.isSome_map

/-- The entry of a task is its runner. -/
theorem runner?_of_known? {run : Runner} (h : r.known? (.task definition) = some (.task run)) :
    r.runner? definition = some run := by
  obtain ⟨_, hrun, heq⟩ := Option.map_eq_some_iff.mp h
  cases heq
  exact hrun

/-- The entry of a kind of errors is how they are rebuilt. -/
theorem rebuilder?_of_known? {rebuild : String → String}
    (h : r.known? (.error kind) = some (.error rebuild)) : r.rebuilder? kind = some rebuild := by
  obtain ⟨_, hrebuild, heq⟩ := Option.map_eq_some_iff.mp h
  cases heq
  exact hrebuild

/-- Tasks and kinds of errors are sorted. -/
structure Sorted (r : Registry) : Prop where
  tasks : Members.Increasing r.tasks
  errors : Members.Increasing r.errors

/-- A registry is what it knows. -/
theorem Sorted.ext {r' : Registry} (h : r.Sorted) (h' : r'.Sorted)
    (hknown : ∀ x, r.known? x = r'.known? x) : r = r' := by
  have htasks : r.tasks = r'.tasks := h.tasks.ext h'.tasks fun definition =>
    Option.map_injective (fun _ _ => Registry.Entry.task.inj) (hknown (.task definition))
  have herrors : r.errors = r'.errors := h.errors.ext h'.errors fun kind =>
    Option.map_injective (fun _ _ => Registry.Entry.error.inj) (hknown (.error kind))
  cases r
  cases r'
  cases htasks
  cases herrors
  rfl

end Registry

/-! ## Registrations -/

namespace Registration

open Registry (known?)

variable {told before after : List Registration} {r s a b : Registration} {x : Registry.Name}
  {known known' : Registry}

/-- What is registered: a task or a kind of errors. -/
def name : Registration → Registry.Name
  | task definition _ => .task definition
  | error kind _ => .error kind

def isTask : Registration → Bool
  | task _ _ => true
  | error _ _ => false

/-- What a registration brings. -/
def brings : Registration → Registry.Entry
  | task _ t => .task t.stages.run
  | error _ rebuild => .error rebuild

/-- What is brought gets under its own name. -/
theorem known?_apply (known : Registry) (r : Registration) (x : Registry.Name) :
    known? (apply known r) x = if x = r.name then some r.brings else known? known x := by
  cases r with
  | task d t =>
    cases x with
    | error => rfl
    | task definition =>
      show (Members.get? definition (Members.insert d t.stages.run known.tasks)).map _ = _
      rw [Members.get?_insert, apply_ite (Option.map Registry.Entry.task)]
      simp only [name, Registry.Name.task.injEq]
      rfl
  | error k rebuild =>
    cases x with
    | task => rfl
    | error kind =>
      show (Members.get? kind (Members.insert k rebuild known.errors)).map _ = _
      rw [Members.get?_insert, apply_ite (Option.map Registry.Entry.error)]
      simp only [name, Registry.Name.error.injEq]
      rfl

/-- What is known under a name depends on the registrations of that name. -/
theorem known?_foldl_filter {keep : Registration → Bool}
    (hkeep : ∀ r ∈ told, keep r = false → r.name ≠ x) (h : known? known x = known? known' x) :
    known? ((told.filter keep).foldl apply known) x = known? (told.foldl apply known') x := by
  induction told generalizing known known' with
  | nil => exact h
  | cons first told ih =>
    obtain ⟨hfirst, hrest⟩ := List.forall_mem_cons.mp hkeep
    cases hkept : keep first with
    | true =>
      rw [List.filter_cons_of_pos hkept, List.foldl_cons, List.foldl_cons]
      exact ih hrest (by rw [known?_apply, known?_apply, h])
    | false =>
      rw [List.filter_cons_of_neg (by simp [hkept]), List.foldl_cons]
      exact ih hrest (by rw [known?_apply, if_neg (hfirst hkept).symm, h])

/-- Registrations of other names change nothing. -/
theorem known?_foldl_of_ne (h : ∀ r ∈ told, r.name ≠ x) :
    known? (told.foldl apply known) x = known? known x := by
  have hnone : known? ((told.filter fun _ => false).foldl apply known) x =
      known? (told.foldl apply known) x := known?_foldl_filter (fun r hr _ => h r hr) rfl
  rw [List.filter_false] at hnone
  exact hnone.symm

/-! ## The latest one -/

/-- The registration is among those that a registry is told, and none of the later ones has the same
name. -/
def IsLatest (told : List Registration) (r : Registration) : Prop :=
  ∃ before after, told = before ++ r :: after ∧ ∀ s ∈ after, s.name ≠ r.name

/-- Among registrations of a name there is a latest. -/
theorem exists_isLatest (hr : r ∈ told) : ∃ s, IsLatest told s ∧ s.name = r.name := by
  induction told generalizing r with
  | nil => cases hr
  | cons first told ih =>
    by_cases hmore : ∃ s ∈ told, s.name = r.name
    · obtain ⟨s, hs, hname⟩ := hmore
      obtain ⟨last, ⟨before, after, rfl, hafter⟩, hlast⟩ := ih hs
      exact ⟨last, ⟨first :: before, after, rfl, hafter⟩, hlast.trans hname⟩
    · -- the first one is the latest if none of its name comes later
      obtain rfl | hr := List.mem_cons.mp hr
      · exact ⟨r, ⟨[], told, rfl, fun s hs hname => hmore ⟨s, hs, hname⟩⟩, rfl⟩
      · exact absurd ⟨r, hr, rfl⟩ hmore

/-- Under a name stands what the last registration of that name has brought. -/
theorem known?_of_isLatest (h : IsLatest told r) :
    known? (registry told) r.name = some r.brings := by
  obtain ⟨before, after, rfl, hafter⟩ := h
  unfold registry
  rw [List.foldl_append, List.foldl_cons, known?_foldl_of_ne hafter, known?_apply, if_pos rfl]

/-- Nothing stands under a name that was not registered. -/
theorem known?_of_none (h : ∀ r ∈ told, r.name ≠ x) : known? (registry told) x = none := by
  unfold registry
  rw [known?_foldl_of_ne h]
  cases x <;> rfl

/-- Something is known under a name if anything was registered. -/
theorem isSome_known?_iff : (known? (registry told) x).isSome = true ↔ ∃ r ∈ told, r.name = x := by
  constructor
  · intro hknown
    refine Decidable.byContradiction fun hnone => ?_
    rw [known?_of_none fun r hr hname => hnone ⟨r, hr, hname⟩] at hknown
    cases hknown
  · rintro ⟨r, hr, rfl⟩
    obtain ⟨last, hlast, hname⟩ := exists_isLatest hr
    rw [← hname, known?_of_isLatest hlast]
    rfl

/-! ## Order -/

/-- A registration leaves both maps in their order. -/
theorem sorted_apply (h : known.Sorted) (r : Registration) : (apply known r).Sorted := by
  cases r with
  | task => exact ⟨h.tasks.insert, h.errors⟩
  | error => exact ⟨h.tasks, h.errors.insert⟩

theorem sorted_foldl (told : List Registration) (h : known.Sorted) :
    (told.foldl apply known).Sorted := by
  induction told generalizing known with
  | nil => exact h
  | cons first told ih => exact ih (sorted_apply h first)

/-- So do all of them. -/
theorem sorted_registry (told : List Registration) : (registry told).Sorted :=
  sorted_foldl told ⟨List.Pairwise.nil, List.Pairwise.nil⟩

/-- Registrations of different names may change places. -/
theorem registry_swap (h : a.name ≠ b.name) :
    registry (before ++ a :: b :: after) = registry (before ++ b :: a :: after) := by
  have hswap : apply (apply (registry before) a) b = apply (apply (registry before) b) a := by
    have hsorted := sorted_registry before
    -- each of them is found under its own name, whichever came first
    refine (sorted_apply (sorted_apply hsorted a) b).ext
      (sorted_apply (sorted_apply hsorted b) a) fun x => ?_
    simp only [known?_apply]
    by_cases hx : x = a.name
    · rw [if_pos hx, if_neg (hx ▸ h), if_pos hx]
    · rw [if_neg hx, if_neg hx]
  unfold registry at hswap ⊢
  simp only [List.foldl_append, List.foldl_cons, hswap]

/-- A registry contains what it was told. -/
theorem contains_registry {definition : String} :
    (registry told).contains definition = true ↔ ∃ r ∈ told, r.name = .task definition := by
  rw [← Registry.isSome_known?_task]
  exact isSome_known?_iff

theorem resolvesError_registry {kind : String} :
    (registry told).resolvesError kind = true ↔ ∃ r ∈ told, r.name = .error kind := by
  rw [← Registry.isSome_known?_error]
  exact isSome_known?_iff

/-- And lists that. -/
theorem mem_definitions_registry {definition : String} :
    definition ∈ (registry told).definitions ↔ ∃ r ∈ told, r.name = .task definition := by
  rw [← contains_registry]
  unfold Registry.contains Registry.runner? Registry.definitions
  rw [Members.isSome_get?_iff, List.mem_map]

/-! ## What runs -/

/-- The task returns an error that is reported with these texts. -/
def Reports (t : AnyTask) (args kwargs kind message : String) (trace : List String) : Prop :=
  t.stages.errorKind = kind ∧ ∃ e, t.stages.Returns args kwargs (.error e) ∧
    (t.stages.fault e).text = .ok message ∧ (t.stages.fault e).Tells trace

/-- The task that was registered last is the one that is run. -/
theorem execute_of_isLatest {definition : String} {t : AnyTask}
    (h : IsLatest told (.task definition t)) (args kwargs : String) :
    Dispatcher.execute ⟨registry told⟩ definition args kwargs =
      Dispatcher.settle (t.stages.run args kwargs) := by
  unfold Dispatcher.execute
  rw [Registry.runner?_of_known? (known?_of_isLatest h)]

/-- Without one the definition is unresolved. -/
theorem execute_of_none {definition : String} (h : ∀ r ∈ told, r.name ≠ .task definition)
    (args kwargs : String) :
    Dispatcher.execute ⟨registry told⟩ definition args kwargs =
      .ofFailure (.unresolvedDefinition definition) := by
  have hnone : (registry told).runner? definition = none :=
    Option.map_eq_none_iff.mp (known?_of_none h)
  unfold Dispatcher.execute
  rw [hnone]

/-- A panic is never taken for an unresolved definition. -/
theorem panicked_ne {p : Panic} {message : String} {trace : List String} :
    panicked p ≠ .failure Failure.unresolvedDefinitionKind message trace := by
  intro h
  have hkind : "tasklane::Panic" = Failure.unresolvedDefinitionKind := by
    cases p <;> exact (Envelope.failure.inj h).1
  exact absurd hkind (by decide)

/-- A run does not say that a definition is unresolved, except for an error whose type has the name
of that kind. -/
theorem settle_run_eq_unresolved_iff {t : AnyTask} {args kwargs message : String}
    {trace : List String} :
    Dispatcher.settle (t.stages.run args kwargs) =
        .failure Failure.unresolvedDefinitionKind message trace ↔
      Reports t args kwargs Failure.unresolvedDefinitionKind message trace := by
  rw [← Stages.outcome_watched]
  constructor
  · intro h
    obtain ⟨entered, e, hends⟩ := Stages.exists_ends t.stages args kwargs
    obtain rfl := hends.watched_eq.2.trans h
    -- of the ways in which a run ends only one names a kind that is up to the task
    generalize henvelope : Envelope.failure Failure.unresolvedDefinitionKind message trace = e
      at hends
    cases hends with
    | failed hreturns hmessage htrace =>
      obtain ⟨hkind, rfl, rfl⟩ := Envelope.failure.inj henvelope
      exact ⟨hkind.symm, _, hreturns, hmessage, htrace⟩
    | argsBroke | kwargsBroke | buildBroke | callBroke | textBroke | causesBroke | outputBroke =>
      exact absurd henvelope.symm panicked_ne
    | argsRefused | kwargsRefused | outputRefused =>
      have hkind := (Envelope.failure.inj henvelope).1
      exact absurd hkind (by decide)
    | succeeded => cases henvelope
  · rintro ⟨hkind, e, hreturns, hmessage, htrace⟩
    have hends := Stages.Ends.failed hreturns hmessage htrace
    rw [← hends.watched_eq.2, hkind]

/-- A definition is unresolved if no task is registered under it. -/
theorem execute_eq_unresolved_iff {definition args kwargs message : String} {trace : List String} :
    Dispatcher.execute ⟨registry told⟩ definition args kwargs =
        .failure Failure.unresolvedDefinitionKind message trace ↔
      ((¬∃ r ∈ told, r.name = .task definition) ∧ message = definition ∧ trace = []) ∨
        ∃ t, IsLatest told (.task definition t) ∧
          Reports t args kwargs Failure.unresolvedDefinitionKind message trace := by
  constructor
  · intro h
    by_cases hknown : ∃ r ∈ told, r.name = .task definition
    · obtain ⟨r, hr, hname⟩ := hknown
      obtain ⟨last, hlast, hsame⟩ := exists_isLatest hr
      cases last with
      | error => cases hsame.trans hname
      | task d t =>
        cases hsame.trans hname
        rw [execute_of_isLatest hlast] at h
        exact .inr ⟨t, hlast, settle_run_eq_unresolved_iff.mp h⟩
    · rw [execute_of_none fun r hr hname => hknown ⟨r, hr, hname⟩] at h
      obtain ⟨-, hmessage, htrace⟩ := Envelope.failure.inj h
      exact .inl ⟨hknown, hmessage.symm, htrace.symm⟩
  · rintro (⟨hnone, rfl, rfl⟩ | ⟨t, hlast, hreports⟩)
    · exact execute_of_none (fun r hr hname => hnone ⟨r, hr, hname⟩) _ _
    · rw [execute_of_isLatest hlast]
      exact settle_run_eq_unresolved_iff.mpr hreports

/-! ## What is rebuilt -/

/-- An error is rebuilt as the last registration of its kind has it. -/
theorem reconstruct_of_isLatest {kind : String} {rebuild : String → String}
    (h : IsLatest told (.error kind rebuild)) (hkind : kind ∉ Failure.taxonomy) (message : String)
    (trace : List String) :
    (registry told).reconstruct kind message trace = .task kind message (rebuild message) := by
  have hrebuild := Registry.rebuilder?_of_known? (known?_of_isLatest h)
  exact (Registry.Rebuilt.task hkind hrebuild).eq_reconstruct.symm

/-! ## Tasks and errors apart -/

/-- Only registrations of tasks matter for which task runs. -/
theorem runner?_registry_filter (told : List Registration) (definition : String) :
    (registry (told.filter isTask)).runner? definition = (registry told).runner? definition := by
  have hknown : known? (registry (told.filter isTask)) (.task definition) =
      known? (registry told) (.task definition) := by
    refine known?_foldl_filter (fun r _ hr => ?_) rfl
    cases r with
    | task => cases hr
    | error => simp [name]
  exact Option.map_injective (fun _ _ => Registry.Entry.task.inj) hknown

/-- Only registrations of errors matter for what is rebuilt. -/
theorem rebuilder?_registry_filter (told : List Registration) (kind : String) :
    (registry (told.filter fun r => !r.isTask)).rebuilder? kind =
      (registry told).rebuilder? kind := by
  have hknown : known? (registry (told.filter fun r => !r.isTask)) (.error kind) =
      known? (registry told) (.error kind) := by
    refine known?_foldl_filter (fun r _ hr => ?_) rfl
    cases r with
    | task => simp [name]
    | error => cases hr
  exact Option.map_injective (fun _ _ => Registry.Entry.error.inj) hknown

/-! ## All of it -/

/-- A registry goes by the last registration of each name. -/
structure LastCounts (told : List Registration) : Prop where
  contains_iff : ∀ definition,
    (registry told).contains definition = true ↔ ∃ r ∈ told, r.name = .task definition
  /-- The definitions are listed by increasing bytes, and these are all. -/
  increasing : (registry told).definitions.Pairwise fun d e => bytes d < bytes e
  listed_iff : ∀ definition,
    definition ∈ (registry told).definitions ↔ ∃ r ∈ told, r.name = .task definition
  runs : ∀ definition t args kwargs, IsLatest told (.task definition t) →
    Dispatcher.execute ⟨registry told⟩ definition args kwargs =
      Dispatcher.settle (t.stages.run args kwargs)
  /-- Besides, a task that reports an unresolved definition itself is answered that way. -/
  unresolved_iff : ∀ definition args kwargs message trace,
    Dispatcher.execute ⟨registry told⟩ definition args kwargs =
        .failure Failure.unresolvedDefinitionKind message trace ↔
      ((¬∃ r ∈ told, r.name = .task definition) ∧ message = definition ∧ trace = []) ∨
        ∃ t, IsLatest told (.task definition t) ∧
          Reports t args kwargs Failure.unresolvedDefinitionKind message trace
  resolves_iff : ∀ kind,
    (registry told).resolvesError kind = true ↔ ∃ r ∈ told, r.name = .error kind
  rebuilds : ∀ kind rebuild message trace, IsLatest told (.error kind rebuild) →
    kind ∉ Failure.taxonomy →
    (registry told).reconstruct kind message trace = .task kind message (rebuild message)
  /-- Registrations of errors make no difference to tasks. -/
  tasks_apart : ∀ other : List Registration, told.filter isTask = other.filter isTask →
    ∀ definition args kwargs, Dispatcher.execute ⟨registry told⟩ definition args kwargs =
      Dispatcher.execute ⟨registry other⟩ definition args kwargs
  /-- Registrations of tasks make no difference to errors. -/
  errors_apart : ∀ other : List Registration,
    (told.filter fun r => !r.isTask) = (other.filter fun r => !r.isTask) →
    ∀ kind message trace, (registry told).reconstruct kind message trace =
      (registry other).reconstruct kind message trace
  /-- Registrations of different names may change places. -/
  swap : ∀ before a b after, told = before ++ a :: b :: after → a.name ≠ b.name →
    registry told = registry (before ++ b :: a :: after)

/-- Whatever a registry is told, in whatever order: it knows what was registered, by increasing
bytes, runs the task and rebuilds by the error that were registered last, and answers that a
definition is unresolved if none was registered. Errors make no difference to tasks nor tasks to
errors, and registrations of different names may change places. -/
theorem last_one_counts (told : List Registration) : LastCounts told where
  contains_iff _ := contains_registry
  increasing := (sorted_registry told).tasks.imp bytes_lt
  listed_iff _ := mem_definitions_registry
  runs _ _ args kwargs h := execute_of_isLatest h args kwargs
  unresolved_iff _ _ _ _ _ := execute_eq_unresolved_iff
  resolves_iff _ := resolvesError_registry
  rebuilds _ _ message trace h hkind := reconstruct_of_isLatest h hkind message trace
  tasks_apart other hother definition args kwargs := by
    unfold Dispatcher.execute
    rw [← runner?_registry_filter told, hother, runner?_registry_filter]
  errors_apart other hother kind message trace := by
    unfold Registry.reconstruct
    rw [← rebuilder?_registry_filter told, hother, rebuilder?_registry_filter]
  swap before a b after htold hne := by
    rw [htold]
    exact registry_swap hne

/-- A task that returns a text, whatever its arguments. -/
def saying (text : String) : AnyTask where
  stages := {
    decodeArgs := fun _ => .ok (.ok ())
    decodeKwargs := fun _ => .ok (.ok ())
    build := .ok ()
    call := fun _ _ _ => .ok (.ok text)
    errorKind := "core::convert::Infallible"
    fault := fun (e : Empty) => nomatch e
    encode := fun text => .ok (.ok (.ofString text)) : Stages Unit Unit Unit Empty String }

/-- Registrations with a definition and a kind that are registered again. -/
def twice : List Registration :=
  [.task "Say" (saying "old"), .error "Boom" id, .task "Say" (saying "new"),
    .error "Boom" fun message => message ++ "!"]

theorem last_one_counts_twice :
    Dispatcher.execute ⟨registry twice⟩ "Say" "[]" "{}" = .success (.ofString "new") ∧
    Dispatcher.execute ⟨registry twice⟩ "Ask" "[]" "{}" =
      .failure Failure.unresolvedDefinitionKind "Ask" [] ∧
    (registry twice).reconstruct "Boom" "fell" [] = .task "Boom" "fell" "fell!" ∧
    registry twice = registry [.error "Boom" id, .task "Say" (saying "old"),
      .task "Say" (saying "new"), .error "Boom" fun message => message ++ "!"] := by
  have hcounts := last_one_counts twice
  have hsay : IsLatest twice (.task "Say" (saying "new")) :=
    ⟨twice.take 2, [_], rfl, by simp [name]⟩
  have hboom : IsLatest twice (.error "Boom" fun message => message ++ "!") :=
    ⟨twice.take 3, [], rfl, by simp⟩
  refine ⟨hcounts.runs _ _ _ _ hsay, (hcounts.unresolved_iff _ _ _ _ _).mpr (.inl ?_), ?_, ?_⟩
  · exact ⟨by simp [twice, name], rfl, rfl⟩
  · exact hcounts.rebuilds _ _ _ _ hboom (by decide)
  · exact hcounts.swap [] _ _ (twice.drop 2) rfl (by decide)

end Registration

end TaskRelay
