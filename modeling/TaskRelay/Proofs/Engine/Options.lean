import TaskRelay.Engine.Options
import TaskRelay.Proofs.Config

/-!
# Reading the options of an engine

Options are read from the same maps as configurations, by rules of their own. Two entries say
everything, and nulls say nothing (`Options.ofCanonical_congr`); the number of threads is judged
first.

> `Options.agrees_with_config`: a map that is also read as a configuration gives the options that
> the configuration gives, unless it asks for no threads at all. Whatever the map, options have a
> thread, a bad number of threads is what an error names, and nulls are as good as nothing.
-/

namespace TaskRelay.Engine

namespace Options

variable {ms : List (String × Json)} {c : Config} {j : Json} {n : Ranged .size}

/-! ## Entries -/

/-- A number of threads that is written into a map is read from it, but for zero. -/
theorem threadCount?_toJson (h : 0 < n.val) : threadCount? n.toJson = some n :=
  (if_pos h).trans n.ofInt?_val

theorem threadCount?_eq_some_iff : threadCount? j = some n ↔ j = n.toJson ∧ 0 < n.val := by
  constructor
  · intro h
    match j with
    | .number (.whole k) =>
      rw [threadCount?] at h
      split at h
      · next hpos =>
        have hk : n.whole = k := Ranged.whole_of_ofInt? h
        subst hk
        exact ⟨rfl, hpos⟩
      · cases h
    | .number (.double _) | .null | .bool _ | .string _ | .array _ | .object _ => cases h
  · rintro ⟨rfl, hpos⟩
    exact threadCount?_toJson hpos

/-- A number of threads is a whole number other than zero. -/
theorem threadCount?_eq_none (h : ¬j.IsWhole 1 ((1 <<< 64) - 1)) : threadCount? j = none := by
  refine Option.eq_none_iff_forall_ne_some.mpr fun n hn => h ?_
  obtain ⟨rfl, hpos⟩ := threadCount?_eq_some_iff.mp hn
  exact ⟨n.whole, rfl, hpos, n.le_greatest⟩

/-- The number of threads is judged by what is no null. -/
theorem readThreadCount_eq (ms : List (String × Json)) :
    readThreadCount ms =
      match Json.dropNull (Members.get? "thread_count" ms) with
      | none => .ok default.threadCount
      | some j =>
        match threadCount? j with
        | some n => .ok n
        | none => .error (.invalidOption "thread_count" j.compact) := by
  unfold readThreadCount
  match Members.get? "thread_count" ms with
  | none | some .null => rfl
  | some (.bool _) | some (.number _) | some (.string _) | some (.array _) | some (.object _) => rfl

/-- The ready signal is judged by what is no null. -/
theorem readReadySignal_eq (ms : List (String × Json)) :
    readReadySignal ms =
      match Json.dropNull (Members.get? "ready_signal" ms) with
      | none => .ok default.readySignal
      | some (.bool b) => .ok b
      | some j => .error (.invalidOption "ready_signal" j.compact) := by
  unfold readReadySignal
  match Members.get? "ready_signal" ms with
  | none | some .null => rfl
  | some (.bool _) | some (.number _) | some (.string _) | some (.array _) | some (.object _) => rfl

/-- Two entries, nulls aside, say everything. -/
theorem ofCanonical_congr {ns : List (String × Json)}
    (hthreads : Json.dropNull (Members.get? "thread_count" ms) =
      Json.dropNull (Members.get? "thread_count" ns))
    (hready : Json.dropNull (Members.get? "ready_signal" ms) =
      Json.dropNull (Members.get? "ready_signal" ns)) : ofCanonical ms = ofCanonical ns := by
  unfold ofCanonical
  rw [readThreadCount_eq, readThreadCount_eq, readReadySignal_eq, readReadySignal_eq, hthreads,
    hready]

/-! ## Any map -/

/-- No options are made with zero threads. -/
theorem pos_of_readThreadCount (h : readThreadCount ms = .ok n) : 0 < n.val := by
  rw [readThreadCount_eq] at h
  split at h
  · cases h
    decide
  · split at h
    · next hn =>
      cases h
      exact (threadCount?_eq_some_iff.mp hn).2
    · cases h

/-- Options have a thread. -/
theorem one_le_threads {o : Options} (h : ofCanonical ms = .ok o) : 1 ≤ o.threads := by
  unfold ofCanonical at h
  -- both entries have been judged where there are options
  cases hthreads : readThreadCount ms with
  | error e =>
    rw [hthreads] at h
    cases h
  | ok n =>
    cases hready : readReadySignal ms with
    | error e =>
      rw [hthreads, hready] at h
      cases h
    | ok b =>
      rw [hthreads, hready] at h
      cases h
      have hpos : 0 < n.val := pos_of_readThreadCount hthreads
      show 1 ≤ n.val.toNat
      omega

/-- A bad number of threads is what the error names, whatever else there is. -/
theorem ofCanonical_of_bad_threadCount (h : Members.Increasing ms) (hj : ("thread_count", j) ∈ ms)
    (hnull : j ≠ .null) (hbad : ¬j.IsWhole 1 ((1 <<< 64) - 1)) :
    ofCanonical ms = .error (.invalidOption "thread_count" j.compact) := by
  have hfound : Json.dropNull (Members.get? "thread_count" ms) = some j := by
    rw [(Members.get?_eq_some_iff h).mpr hj]
    exact Json.dropNull_some (Bool.eq_false_iff.mpr (mt Json.isNull_iff.mp hnull))
  -- the ready signal is not even looked at
  have hthreads : readThreadCount ms = .error (.invalidOption "thread_count" j.compact) := by
    rw [readThreadCount_eq, hfound]
    dsimp only
    rw [threadCount?_eq_none hbad]
  unfold ofCanonical
  rw [hthreads]
  rfl

/-- Nulls are as good as nothing. -/
theorem ofCanonical_filter (h : Members.Increasing ms) {keep : String × Json → Bool}
    (hkeep : ∀ m ∈ ms, keep m = false → m.2 = .null) :
    ofCanonical (ms.filter keep) = ofCanonical ms :=
  ofCanonical_congr (Members.dropNull_get?_filter h hkeep) (Members.dropNull_get?_filter h hkeep)

/-! ## Maps of configurations -/

/-- A map gives the options that its configuration gives. -/
theorem ofCanonical_canonical (hread : c.Read ms) : ofCanonical ms = ofCanonical c.canonical := by
  have hcanonical : c.Read c.canonical := c.read_canonical
  refine ofCanonical_congr ?_ ?_
  · rw [(means_iff fun _ => rfl).mp hread.threadCount,
      (means_iff fun _ => rfl).mp hcanonical.threadCount]
  · rw [(means_iff fun _ => rfl).mp hread.readySignal,
      (means_iff fun _ => rfl).mp hcanonical.readySignal]

/-- The signal is the one that is given, or off. -/
theorem readReadySignal_of_read (hread : c.Read ms) :
    readReadySignal ms = .ok (c.readySignal.getD false) := by
  rw [readReadySignal_eq, (means_iff fun _ => rfl).mp hread.readySignal]
  cases c.readySignal <;> rfl

/-- A configuration that asks for threads gives options. -/
theorem ofCanonical_of_read (hread : c.Read ms) (h : c.threadCount ≠ some .zero) :
    ofCanonical ms =
      .ok ⟨c.threadCount.getD default.threadCount, c.readySignal.getD false⟩ := by
  have hthreads : readThreadCount ms = .ok (c.threadCount.getD default.threadCount) := by
    rw [readThreadCount_eq, (means_iff fun _ => rfl).mp hread.threadCount]
    cases hcount : c.threadCount with
    | none => rfl
    | some n =>
      have hpos : 0 < n.val := by
        have hne : n.val ≠ 0 := fun hzero => h (hcount.trans (congrArg some (Ranged.ext hzero)))
        have hleast : 0 ≤ n.val := n.ge_least
        omega
      dsimp only [Option.map_some, Option.getD_some]
      rw [threadCount?_toJson hpos]
  unfold ofCanonical
  rw [hthreads, readReadySignal_of_read hread]
  rfl

/-- One that asks for none does not. -/
theorem ofCanonical_of_zero (hread : c.Read ms) (h : c.threadCount = some .zero) :
    ofCanonical ms = .error (.invalidOption "thread_count" "0") := by
  have hthreads : readThreadCount ms = .error (.invalidOption "thread_count" "0") := by
    rw [readThreadCount_eq, (means_iff fun _ => rfl).mp hread.threadCount, h]
    rfl
  unfold ofCanonical
  rw [hthreads]
  rfl

/-! ## Both -/

/-- The two readers of a map agree, but for a configuration that asks for no threads. Whatever the
map, options have a thread, a bad number of threads is what the error names, and nulls are as good
as nothing. -/
theorem agrees_with_config (ms : List (String × Json)) (h : Members.Increasing ms) :
    (∀ c, Config.ofCanonical ms = .ok c →
      ofCanonical ms = ofCanonical c.canonical ∧
      ((∃ text, ofCanonical ms = .error (.invalidOption "thread_count" text)) ↔
        c.threadCount = some .zero) ∧
      (c.threadCount ≠ some .zero →
        ∃ o, ofCanonical ms = .ok o ∧
          o.threadCount.val = (c.threadCount.map Ranged.val).getD 2 ∧
          o.readySignal = c.readySignal.getD false)) ∧
    (∀ o, ofCanonical ms = .ok o → 1 ≤ o.threads) ∧
    (∀ j, ("thread_count", j) ∈ ms → j ≠ .null → ¬j.IsWhole 1 ((1 <<< 64) - 1) →
      ofCanonical ms = .error (.invalidOption "thread_count" j.compact)) ∧
    ∀ keep : String × Json → Bool, (∀ m ∈ ms, keep m = false → m.2 = .null) →
      ofCanonical (ms.filter keep) = ofCanonical ms ∧
      ∀ c, Config.ofCanonical (ms.filter keep) = .ok c ↔ Config.ofCanonical ms = .ok c := by
  refine ⟨fun c hc => ?_, fun o => one_le_threads,
    fun j hj hnull hbad => ofCanonical_of_bad_threadCount h hj hnull hbad,
    fun keep hkeep => ⟨ofCanonical_filter h hkeep, fun c => Config.ofCanonical_filter_iff h hkeep⟩⟩
  have hread : c.Read ms := (Config.ofCanonical_eq_ok_iff h).mp hc
  refine ⟨ofCanonical_canonical hread, ⟨?_, fun hzero => ⟨_, ofCanonical_of_zero hread hzero⟩⟩, ?_⟩
  -- the configuration is good, so that only zero threads are left to complain about
  · rintro ⟨text, herror⟩
    refine Decidable.byContradiction fun hsome => ?_
    rw [ofCanonical_of_read hread hsome] at herror
    cases herror
  · intro hsome
    refine ⟨_, ofCanonical_of_read hread hsome, ?_, rfl⟩
    cases c.threadCount <;> rfl

/-- A map that asks for no threads. -/
def zeroMap : List (String × Json) :=
  [("port", .null), ("thread_count", (Ranged.zero (k := .size)).toJson)]

/-- A map that is bad in both entries. -/
def spoiledMap : List (String × Json) :=
  [("ready_signal", .string "yes"), ("thread_count", .bool true)]

theorem agrees_with_config_maps :
    (∃ c, Config.ofCanonical zeroMap = .ok c ∧
      ∃ text, ofCanonical zeroMap = .error (.invalidOption "thread_count" text)) ∧
    ofCanonical spoiledMap = .error (.invalidOption "thread_count" "true") ∧
    ∃ o, ofCanonical [("port", .null)] = .ok o ∧ o.threadCount.val = 2 ∧ 1 ≤ o.threads := by
  have hzero : Members.Increasing zeroMap := by unfold Members.Increasing; decide
  have hspoiled : Members.Increasing spoiledMap := by unfold Members.Increasing; decide
  have hblank : Members.Increasing [("port", Json.null)] := by unfold Members.Increasing; decide
  refine ⟨⟨⟨none, none, some .zero, none⟩, ?_⟩, ?_, ?_⟩
  · have hread : Config.ofCanonical zeroMap = .ok ⟨none, none, some .zero, none⟩ :=
      (Config.ofCanonical_eq_ok_iff hzero).mpr ⟨.absent, .null, .value _, .absent⟩
    exact ⟨hread, ((agrees_with_config zeroMap hzero).1 _ hread).2.1.mpr rfl⟩
  · refine (agrees_with_config spoiledMap hspoiled).2.2.1 (.bool true) ?_ ?_ ?_
    · simp [spoiledMap]
    · simp
    · simp [Json.IsWhole]
  · have hread : Config.ofCanonical [("port", .null)] = .ok .empty :=
      (Config.ofCanonical_eq_ok_iff hblank).mpr ⟨.absent, .null, .absent, .absent⟩
    obtain ⟨o, ho, hcount, -⟩ :=
      ((agrees_with_config _ hblank).1 _ hread).2.2 (by simp [Config.empty])
    exact ⟨o, ho, hcount, (agrees_with_config _ hblank).2.1 o ho⟩

end Options

end TaskRelay.Engine
