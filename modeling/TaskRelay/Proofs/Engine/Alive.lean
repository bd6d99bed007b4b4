import TaskRelay.Proofs.Engine.Options
import TaskRelay.Proofs.Engine.Quiescence
import TaskRelay.Proofs.Engine.Snapshots
import TaskRelay.Proofs.Engine.Undisturbed

/-!
# Which engines are alive

An engine that has been started is to accept requests. Its options guarantee the one thing that
starting needs, a thread. The loop needs another: as many permits as there are threads, and of those
there are fewer than a number of threads may be.

> `alive_iff`: whatever options are read or made, the engine starts, and it is alive if and only if
> there are permits for its threads.

Alive means that the loop runs and that whoever asks first is served: until there is an answer, the
request is at the front of the channel (`First`), and the next step of the loop answers it.
-/

namespace TaskRelay.Engine

variable {d : Dispatcher} {o : Options} {s t : State} {e : Event} {es : List Event} {r : Request}
  {response : Response}

/-! ## Options -/

/-- The options that can be had: those of a map, and those with a number of threads of their own. -/
inductive Options.Made : Options → Prop
  | read {ms : List (String × Json)} {o : Options} (h : Options.ofCanonical ms = .ok o) : Made o
  | withThreadCount (n : Ranged .size) (o : Options) : Made (o.withThreadCount n)

/-- No options that are made from a configuration say zero threads. -/
theorem Options.Made.one_le_threads (h : o.Made) : 1 ≤ o.threads := by
  cases h with
  | read h => exact Options.one_le_threads h
  | withThreadCount n o =>
    have hleast : 0 ≤ n.val := n.ge_least
    show 1 ≤ (Options.atLeastOne n).val.toNat
    unfold Options.atLeastOne
    split
    · decide
    · omega

/-- Whoever has options can start an engine. -/
theorem Options.Made.start_eq (h : o.Made) : State.start o = .ok (.new o) :=
  if_neg (Nat.ne_of_gt h.one_le_threads)

/-- What a configuration that asks for threads makes of the options. -/
def optionsOf (c : Config) : Options :=
  ⟨c.threadCount.getD Options.default.threadCount, c.readySignal.getD false⟩

/-- The number of threads is the one that is given, or two. -/
theorem threads_optionsOf (c : Config) :
    (optionsOf c).threads = (c.threadCount.map fun n => n.val.toNat).getD 2 := by
  unfold optionsOf Options.threads
  cases c.threadCount <;> rfl

/-- A configuration starts an engine unless it asks for no threads. -/
theorem ofConfig_eq_ok_iff {c : Config} :
    State.ofConfig c = .ok (.ok s) ↔ c.threadCount ≠ some .zero ∧ s = .new (optionsOf c) := by
  unfold State.ofConfig Options.ofConfig
  by_cases hzero : c.threadCount = some .zero
  · rw [Options.ofCanonical_of_zero c.read_canonical hzero]
    exact ⟨fun h => (nomatch h), fun h => absurd hzero h.1⟩
  · have hread : Options.ofCanonical c.canonical = .ok (optionsOf c) :=
      Options.ofCanonical_of_read c.read_canonical hzero
    rw [hread]
    show Except.ok (State.start (optionsOf c)) = _ ↔ _
    rw [(Options.Made.read hread).start_eq]
    constructor
    · rintro ⟨⟩
      exact ⟨hzero, rfl⟩
    · rintro ⟨-, rfl⟩
      rfl

/-! ## The first request -/

/-- What an engine without tasks answers. -/
inductive FirstAnswer : Request → Response → Prop
  | accepted (task : Submission) (id : TaskId) :
      FirstAnswer (.newTask task) (.ok id.toJson.compact)
  | unknown (id : TaskId) : FirstAnswer (.awaitTask id) (.error (Store.unknown id))
  | listed : FirstAnswer .getStoreState (.ok Store.empty.snapshot.encode)

/-- A table without tasks leaves only these answers. -/
theorem Reply.firstAnswer (h : Reply .empty r response) : FirstAnswer r response := by
  cases h with
  | unknown => exact .unknown _
  | known hrec =>
    simp [Store.empty] at hrec
  | listed => exact .listed

/-- The first request is the next thing that the loop gets to, or it is answered. -/
inductive First (r : Request) (s : State) : Prop
  | next {rest : List Command} (hrun : s.running = true) (hch : s.channel = .append 0 r :: rest)
      (hstore : s.store = .empty) (hdrivers : s.drivers = [])
  | answered {response : Response} (hmem : (0, response) ∈ s.answers)
      (hfirst : FirstAnswer r response)

/-- When the loop gets to the first request, it answers it. -/
theorem Step.firstAnswer {fresh : TaskId} {rest : List Command} (h : Step d s (.process fresh) t)
    (hch : s.channel = .append 0 r :: rest) (hstore : s.store = .empty) :
    ∃ response, (0, response) ∈ t.answers ∧ FirstAnswer r response := by
  cases h with
  | accept _ hfront =>
    cases hch.symm.trans hfront
    exact ⟨_, List.mem_cons_self .., .accepted _ _⟩
  | reply _ hfront hreply =>
    cases hch.symm.trans hfront
    exact ⟨_, List.mem_cons_self .., (hstore ▸ hreply).firstAnswer⟩
  | park _ _ hrec =>
    rw [hstore] at hrec
    simp [Store.empty] at hrec
  | started _ hfront | complete _ hfront | halt _ hfront => cases hch.symm.trans hfront
  | work _ hwork => cases hwork

/-- One step: others may queue up behind the first request, but nothing is done before it. -/
theorem Step.first (h : Step d s e t) (hs : First r s) : First r t := by
  cases hs with
  | answered hmem hfirst => exact .answered (h.answers_suffix.subset hmem) hfirst
  | next hrun hch hstore hdrivers =>
    have hnone : ∀ {id v}, Rows.get? id s.drivers ≠ some v := fun {id v} hget => by
      rw [hdrivers] at hget
      cases hget
    have hstep := h
    -- others may queue up behind it, and the loop gets to nothing else before
    cases h with
    | request => exact .next hrun (by rw [hch]; rfl) hstore hdrivers
    | stop =>
      have hchannel : (s.send .stop).channel = s.channel ++ [.stop] :=
        (State.send_channel _ s).trans (if_pos hrun)
      rw [hch] at hchannel
      refine .next ?_ hchannel ?_ ?_
      · rwa [State.send_running]
      · rwa [State.send_store]
      · rwa [State.send_drivers]
    | refuse hstopped =>
      rw [hrun] at hstopped
      cases hstopped
    | accept | reply | park | started | complete | halt =>
      obtain ⟨response, hmem, hfirst⟩ := hstep.firstAnswer hch hstore
      exact .answered hmem hfirst
    | acquire hget | announce hget | work hget | report hget | release hget =>
      exact absurd hget hnone

/-- However long the run, the first request is next in line, or it is answered. -/
theorem first_of_run (hpermits : o.threads ≤ State.maxPermits)
    (h : (State.new o).run d (.request r :: es) = some s) : First r s := by
  have hrun : (State.new o).running = true := decide_eq_true hpermits
  obtain ⟨m, hm, hrest⟩ := Option.bind_eq_some_iff.mp h
  have hfirst : First r m := by
    cases Step.of_step hm with
    | request => exact .next hrun rfl rfl rfl
    | refuse hstopped =>
      rw [hrun] at hstopped
      cases hstopped
    | work _ hwork => cases hwork
  exact run_keeps (P := First r) (fun hstep hs => hstep.first hs) hrest hfirst

/-! ## Alive or not -/

/-- The first request is answered, or the next step of the loop answers it, whatever id is at
hand. -/
def State.Serves (d : Dispatcher) (r : Request) (s : State) : Prop :=
  (∃ response, s.answer? 0 = some response ∧ FirstAnswer r response) ∨
  s.running = true ∧ ∀ fresh, ∃ t response, s.step d (.process fresh) = some t ∧
    t.answer? 0 = some response ∧ FirstAnswer r response

/-- The loop runs, and the first request is served in whatever else happens. -/
def State.Alive (d : Dispatcher) (s : State) : Prop :=
  s.running = true ∧
  ∀ {r : Request} {es : List Event} {t : State}, s.run d (.request r :: es) = some t → t.Serves d r

/-- Being next in line is as good as being served: the loop can always take the next step. -/
theorem First.serves (h : First r s) (hs : Reachable d o s) : s.Serves d r := by
  cases h with
  | answered hmem hfirst => exact .inl ⟨_, Rows.get?_of_mem hs.nodup_answers hmem, hfirst⟩
  | next hrun hch hstore =>
    refine .inr ⟨hrun, fun fresh => ?_⟩
    have hfresh : fresh ∉ s.store.records := by
      rw [hstore]
      simp [Store.empty]
    obtain ⟨t, ht⟩ := State.exists_step_process d hrun hch hfresh
    obtain ⟨response, hmem, hfirst⟩ := (Step.of_step ht).firstAnswer hch hstore
    have hnodup := (Reachable.step _ hs ht).nodup_answers
    exact ⟨t, response, ht, Rows.get?_of_mem hnodup hmem, hfirst⟩

/-- A loop with as many permits as there may be lives; with more it never comes to run. -/
theorem alive_new_iff : (State.new o).Alive d ↔ o.threads ≤ State.maxPermits := by
  constructor
  · rintro ⟨hrun, -⟩
    exact of_decide_eq_true hrun
  · intro hpermits
    exact ⟨decide_eq_true hpermits,
      fun h => (first_of_run hpermits h).serves (Reachable.of_run h)⟩

/-- An engine that never ran has told everyone that it has stopped. -/
theorem Reachable.answers_stopped (h : Reachable d o s) (hmany : State.maxPermits < o.threads) :
    ∀ answer ∈ s.answers, answer.2 = State.stopped := by
  induction h with
  | new => exact List.forall_mem_nil _
  | @step s t e hs hst ih =>
    have hrun := (hs.blank hmany).1
    cases Step.of_step hst with
    | refuse => exact List.forall_mem_cons.mpr ⟨rfl, ih⟩
    | acquire | work | release => exact ih
    | stop | announce | report =>
      simp only [State.setPhase, State.send_answers]
      exact ih
    | request h | accept h | reply h | park h | started h | complete h | halt h =>
      rw [hrun] at h
      cases h

/-- Whoever asks an engine without permits for its threads is told that it has stopped. -/
theorem stopped_of_run (hmany : State.maxPermits < o.threads)
    (h : (State.new o).run d es = some s) {ticket : Ticket} (hasked : ticket < s.asked.size) :
    s.answer? ticket = some State.stopped := by
  have hreach := Reachable.of_run h
  cases hans : s.answer? ticket with
  | none =>
    have hrun := (hreach.count_pending hasked hans).1
    rw [(hreach.blank hmany).1] at hrun
    cases hrun
  | some response =>
    exact congrArg some (hreach.answers_stopped hmany _ (Rows.mem_of_get? hans))

/-- Options that are read or made start an engine, and so does a configuration that asks for
threads. The engine is alive if there are permits for its threads; if not, everyone who ever asks is
told that it has stopped. -/
theorem alive_iff (d : Dispatcher) :
    (∀ o : Options, o.Made →
      State.start o = .ok (.new o) ∧ ((State.new o).Alive d ↔ o.threads ≤ State.maxPermits)) ∧
    ∀ (c : Config) (s : State), State.ofConfig c = .ok (.ok s) →
      (s.Alive d ↔ (c.threadCount.map fun n => n.val.toNat).getD 2 ≤ State.maxPermits) ∧
      (¬s.Alive d → ∀ {es : List Event} {t : State}, s.run d es = some t →
        t.running = false ∧
          ∀ {ticket : Ticket}, ticket < t.asked.size → t.answer? ticket = some State.stopped) := by
  refine ⟨fun o h => ⟨h.start_eq, alive_new_iff⟩, fun c s h => ?_⟩
  obtain ⟨-, rfl⟩ := ofConfig_eq_ok_iff.mp h
  rw [← threads_optionsOf, alive_new_iff]
  refine ⟨Iff.rfl, fun hmany es t hrun => ?_⟩
  have hmany : State.maxPermits < (optionsOf c).threads := Nat.lt_of_not_le hmany
  exact ⟨((Reachable.of_run hrun).blank hmany).1, fun hasked => stopped_of_run hmany hrun hasked⟩

/-- A configuration that asks for one thread more than there can be permits. -/
def manyThreads : Config :=
  { Config.empty with threadCount := some ⟨1 <<< 61, by decide, by decide⟩ }

theorem ofConfig_manyThreads :
    State.ofConfig manyThreads = .ok (.ok (.new (optionsOf manyThreads))) :=
  ofConfig_eq_ok_iff.mpr ⟨by decide, rfl⟩

/-- So many threads are more than there are permits. -/
theorem maxPermits_lt_manyThreads : State.maxPermits < (optionsOf manyThreads).threads := by
  decide

/-- It starts an engine whose loop does not run and that answers nobody. -/
theorem not_always_alive : ∃ s, State.ofConfig manyThreads = .ok (.ok s) ∧ ¬s.Alive echo ∧
    s.running = false ∧
    ∃ t, s.run echo [.request .getStoreState] = some t ∧ t.answer? 0 = some State.stopped := by
  have hmany := maxPermits_lt_manyThreads
  have hrun : (State.new (optionsOf manyThreads)).run echo [.request .getStoreState] = some _ :=
    run_single rfl
  exact ⟨_, ofConfig_manyThreads, mt alive_new_iff.mp (Nat.not_le_of_lt hmany),
    decide_eq_false (Nat.not_le_of_lt hmany), _, hrun, stopped_of_run hmany hrun Nat.zero_lt_one⟩

/-- With two threads it is alive, and the first request is served. -/
theorem alive_iff_empty :
    (∃ s, State.ofConfig .empty = .ok (.ok s) ∧ s.Alive echo ∧
      ∃ t, s.run echo [.request .getStoreState] = some t ∧ t.Serves echo .getStoreState) ∧
    State.start (Options.default.withThreadCount .zero) =
      .ok (.new (Options.default.withThreadCount .zero)) ∧
    ∃ s, State.ofConfig manyThreads = .ok (.ok s) ∧ ¬s.Alive echo := by
  have hempty : State.ofConfig .empty = .ok (.ok (.new (optionsOf .empty))) :=
    ofConfig_eq_ok_iff.mpr ⟨by decide, rfl⟩
  have halive := ((alive_iff echo).2 .empty _ hempty).1.mpr (by decide)
  have hrun : (State.new (optionsOf .empty)).run echo [.request .getStoreState] = some _ :=
    run_single rfl
  refine ⟨⟨_, hempty, halive, _, hrun, halive.2 hrun⟩,
    ((alive_iff echo).1 _ (.withThreadCount .zero .default)).1, _, ofConfig_manyThreads,
    mt ((alive_iff echo).2 manyThreads _ ofConfig_manyThreads).1.mp ?_⟩
  exact Nat.not_le_of_lt maxPermits_lt_manyThreads

end TaskRelay.Engine
