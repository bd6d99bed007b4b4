import Mathlib.Data.List.Nodup
import TaskRelay.Pool.Opening
import TaskRelay.Proofs.Pool.Staff

/-!
# The size of a pool

A worker holds a slot from its start to its end, and the counter of workers counts slots. Two
callers may both want to take the last slot, and two workers may both want to give one back, but
an exchange only succeeds if the counter is still what was read before. So every step takes one
slot, for a worker that there never was before, or gives back the slot of one worker, which is then
no more, or leaves the slots alone:

> `Step.slots`: what a step does to the slots.

The counter of idle workers is raised and lowered by each worker on its own, and a worker only
lowers it after it has raised it (`Counted.idle_eq`). What this comes to in a pool that has opened
is `sized_of_run`.
-/

namespace TaskRelay.Pool

/-- The numbers of the workers that hold a slot. -/
def State.numbers (s : State) : List Nat := s.workers.map Prod.fst

namespace Worker

/-- Whether a worker counts as idle. -/
def countsIdle : Worker → Bool
  | .counted => true
  | .listening => true
  | .received _ => true
  | .timedOut => true
  | .hungUp => true
  | _ => false

/-- Whether a worker has no job, and has not seen that the pool is gone. -/
def isFree : Worker → Bool
  | .received _ => false
  | .running _ => false
  | .hungUp => false
  | .leaving => false
  | _ => true

end Worker

/-- What a step does to the slots of the workers. -/
inductive Slots (s t : State) : Prop
  | kept (hnumbers : t.numbers = s.numbers) (hsize : t.size = s.size)
      (hspawned : t.spawned = s.spawned)
  /-- A worker that there never was before has taken a slot. -/
  | taken (hnumbers : t.numbers = s.numbers ++ [s.spawned]) (hsize : t.size = s.size + 1)
      (hspawned : t.spawned = s.spawned + 1)
  /-- A worker has given its slot back. -/
  | returned {n : Nat} (hn : n ∈ s.numbers) (hnumbers : t.numbers = s.numbers.erase n)
      (hsize : t.size + 1 = s.size) (hspawned : t.spawned = s.spawned)

/-- The counters are right: of the workers that hold a slot, and of those that count as idle. -/
structure Counted (s : State) : Prop where
  size_eq : s.size = s.numbers.length
  idle_eq : s.idle = s.workers.countP fun row => row.2.countsIdle
  le_max : s.size ≤ s.limits.maxThreads
  lt_spawned : ∀ n ∈ s.numbers, n < s.spawned
  nodup : s.numbers.Nodup

section

variable {limits : Limits} {left n : Nat} {s t : State} {e : Event} {es : List Event}

/-! ## Slots -/

theorem State.mem_numbers {p : Worker} (hget : Rows.get? n s.workers = some p) : n ∈ s.numbers :=
  List.mem_map_of_mem (Rows.mem_of_get? hget)

/-- Where there is a worker the size is not zero. -/
theorem Counted.size_pos (hs : Counted s) (hn : n ∈ s.numbers) : 0 < s.size :=
  hs.size_eq ▸ List.length_pos_of_mem hn

/-- One step takes a slot, gives one back or leaves them. -/
theorem Step.slots (h : Step s e t) (hs : Counted s) : Slots s t := by
  cases h with
  | call | approach | enqueue | runInline | finishInline | drop => exact .kept rfl rfl rfl
  | handOver | turn | receive | finish => exact .kept Rows.keys_set rfl rfl
  | grow => exact .taken List.map_append rfl rfl
  | retire hget | leave hget =>
    have hn := State.mem_numbers hget
    exact .returned hn Rows.keys_erase (Nat.sub_one_add_one_eq_of_pos (hs.size_pos hn)) rfl

/-- The size is the number of slots that are held. -/
theorem Slots.size_eq (h : Slots s t) (hs : Counted s) : t.size = t.numbers.length := by
  cases h with
  | kept hnumbers hsize => rw [hnumbers, hsize, hs.size_eq]
  | taken hnumbers hsize =>
    rw [hnumbers, hsize, hs.size_eq, List.length_append, List.length_singleton]
  | returned hn hnumbers hsize =>
    rw [hnumbers, List.length_erase_of_mem hn, ← hs.size_eq, ← hsize, Nat.add_sub_cancel]

/-- The numbers of workers are those that were given out. -/
theorem Slots.lt_spawned (h : Slots s t) (hs : Counted s) : ∀ n ∈ t.numbers, n < t.spawned := by
  intro n hn
  cases h with
  | kept hnumbers _ hspawned =>
    rw [hspawned]
    exact hs.lt_spawned n (hnumbers ▸ hn)
  | taken hnumbers _ hspawned =>
    rw [hnumbers] at hn
    rw [hspawned]
    rcases List.mem_append.mp hn with hn | hn
    · exact Nat.lt_succ_of_lt (hs.lt_spawned n hn)
    · exact List.mem_singleton.mp hn ▸ Nat.lt_succ_self _
  | returned _ hnumbers _ hspawned =>
    rw [hspawned]
    exact hs.lt_spawned n (List.mem_of_mem_erase (hnumbers ▸ hn))

/-- No two workers have the same number. -/
theorem Slots.nodup (h : Slots s t) (hs : Counted s) : t.numbers.Nodup := by
  cases h with
  | kept hnumbers => exact hnumbers ▸ hs.nodup
  | taken hnumbers =>
    rw [hnumbers]
    refine List.nodup_append.mpr ⟨hs.nodup, List.nodup_singleton _, fun n hn last hlast => ?_⟩
    rw [List.mem_singleton.mp hlast]
    exact Nat.ne_of_lt (hs.lt_spawned n hn)
  | returned _ hnumbers => exact hnumbers ▸ hs.nodup.erase _

/-- Who has given a slot back does not come back: later workers have numbers of their own. -/
theorem Slots.stays_gone (h : Slots s t) (hold : n < s.spawned) (hgone : n ∉ s.numbers) :
    n < t.spawned ∧ n ∉ t.numbers := by
  cases h with
  | kept hnumbers _ hspawned => exact ⟨hspawned ▸ hold, hnumbers ▸ hgone⟩
  | taken hnumbers _ hspawned =>
    refine ⟨hspawned ▸ Nat.lt_succ_of_lt hold, fun hn => ?_⟩
    rw [hnumbers] at hn
    rcases List.mem_append.mp hn with hn | hn
    · exact hgone hn
    · exact Nat.lt_irrefl _ (List.mem_singleton.mp hn ▸ hold)
  | returned _ hnumbers _ hspawned =>
    exact ⟨hspawned ▸ hold, fun hn => hgone (List.mem_of_mem_erase (hnumbers ▸ hn))⟩

/-! ## Idle workers -/

/-- The counter follows each worker. -/
theorem Turn.idle_add {p q : Worker} {idle : Nat} (h : Turn s n e p q idle)
    (hpos : p.countsIdle = true → 0 < s.idle) :
    idle + (if p.countsIdle then 1 else 0) = s.idle + (if q.countsIdle then 1 else 0) := by
  cases h with
  | countBusy hafter =>
    cases p <;> cases hafter <;> exact Nat.sub_one_add_one_eq_of_pos (hpos rfl)
  | check => cases s.queue.isEmpty <;> rfl
  | _ => rfl

/-- Where a worker counts as idle the counter is not zero. -/
theorem Counted.idle_pos {p : Worker} (hs : Counted s) (hget : Rows.get? n s.workers = some p)
    (hp : p.countsIdle = true) : 0 < s.idle := by
  rw [hs.idle_eq]
  exact List.countP_pos_iff.mpr ⟨_, Rows.mem_of_get? hget, hp⟩

/-- One step: a worker that counts itself idle or busy is the one that changes the counter. -/
theorem Step.idle_eq (h : Step s e t) (hs : Counted s) :
    t.idle = t.workers.countP fun row => row.2.countsIdle := by
  have hidle := hs.idle_eq
  cases h with
  | call | approach | enqueue | runInline | finishInline | drop => exact hidle
  | grow =>
    rw [List.countP_append]
    exact hidle
  | @turn n idle e p q hget hturn =>
    have hmoved := hturn.idle_add (hs.idle_pos hget)
    have hcount := Rows.countP_set (a := q) (f := fun row => row.2.countsIdle) hget
    simp only at hcount ⊢
    omega
  | handOver _ hget | receive hget | finish hget =>
    refine hidle.trans (Eq.symm ?_)
    exact Rows.countP_set_eq hget rfl
  | retire hget | leave hget =>
    refine hidle.trans (Eq.symm ?_)
    exact Rows.countP_erase_eq hget rfl

/-- One step: a slot is taken only where the exchange finds room for one. -/
theorem Step.le_max (h : Step s e t) (hs : Counted s) : t.size ≤ t.limits.maxThreads := by
  cases h with
  | grow _ hroom => exact hroom
  | retire | leave => exact Nat.le_trans (Nat.sub_le ..) hs.le_max
  | _ => exact hs.le_max

/-- One step keeps all of this. -/
theorem Step.counted (h : Step s e t) (hs : Counted s) : Counted t :=
  have hslots := h.slots hs
  ⟨hslots.size_eq hs, h.idle_eq hs, h.le_max hs, hslots.lt_spawned hs, hslots.nodup hs⟩

/-- No more workers are idle than there are. -/
theorem Counted.idle_le (hs : Counted s) : s.idle ≤ s.size := by
  rw [hs.idle_eq, hs.size_eq, State.numbers, List.length_map]
  exact List.countP_le_length

/-! ## While the pool opens -/

/-- A pool that opens has no jobs and has had none, and its workers are free. -/
structure Opens (limits : Limits) (left : Nat) (s : State) : Prop where
  limits_eq : s.limits = limits.normalized
  size_add : s.size + left = limits.normalized.minThreads
  queue_eq : s.queue = []
  callers_eq : s.callers = []
  finished_eq : s.finished = []
  inlineRuns_eq : s.inlineRuns = 0
  alive : s.dropped = false
  free : ∀ row ∈ s.workers, row.2.isFree = true
  counted : Counted s

/-- A turn of a worker makes it neither free nor busy. -/
theorem Turn.isFree_eq {p q : Worker} {idle : Nat} (h : Turn s n e p q idle)
    (halive : s.dropped = false) : q.isFree = p.isFree := by
  cases h with
  | hangUp hdropped =>
    rw [halive] at hdropped
    cases hdropped
  | countBusy hafter => cases p <;> cases hafter <;> rfl
  | check => split <;> rfl
  | _ => rfl

/-- While the pool opens, whatever its workers do leaves it opening. -/
theorem Step.opens (h : Step s e t) (hcall : ∀ job, e ≠ .call job) (hdrop : e ≠ .drop)
    (hs : Opens limits left s) : Opens limits left t := by
  -- nobody is in a call and no worker has a job, which leaves few steps
  have hnobody : ∀ job, Rows.get? job s.callers = none := by
    intro job
    rw [hs.callers_eq]
    rfl
  have hfree : ∀ {n p}, Rows.get? n s.workers = some p → p.isFree = true :=
    fun hget => hs.free _ (Rows.mem_of_get? hget)
  have hcounted := h.counted hs.counted
  cases h with
  | call => exact absurd rfl (hcall _)
  | drop => exact absurd rfl hdrop
  | approach hget | grow hget | enqueue hget | handOver hget | runInline hget | finishInline hget =>
    rw [hnobody] at hget
    cases hget
  | receive _ hqueue =>
    rw [hs.queue_eq] at hqueue
    cases hqueue
  | finish hget | leave hget => cases hfree hget
  -- there are no more workers than are to be kept
  | retire _ habove =>
    have hsize := hs.size_add
    rw [hs.limits_eq] at habove
    omega
  | turn hget hturn =>
    refine ⟨hs.limits_eq, hs.size_add, hs.queue_eq, hs.callers_eq, hs.finished_eq,
      hs.inlineRuns_eq, hs.alive, ?_, hcounted⟩
    intro row hrow
    rcases Rows.mem_set hget hrow with rfl | hrow
    · exact (hturn.isFree_eq hs.alive).trans (hfree hget)
    · exact hs.free row hrow

/-- One more worker is started. -/
theorem Opens.start (hs : Opens limits (left + 1) s) (hroom : s.size < s.limits.maxThreads) :
    Opens limits left s.startWorker := by
  have hslots : Slots s s.startWorker := .taken List.map_append rfl rfl
  have hidle : s.idle = (s.workers ++ [(s.spawned, Worker.starting)]).countP
      fun row => row.2.countsIdle := by
    rw [List.countP_append]
    exact hs.counted.idle_eq
  refine ⟨hs.limits_eq, ?_, hs.queue_eq, hs.callers_eq, hs.finished_eq, hs.inlineRuns_eq,
    hs.alive, ?_, ⟨hslots.size_eq hs.counted, hidle, hroom, hslots.lt_spawned hs.counted,
      hslots.nodup hs.counted⟩⟩
  · rw [← hs.size_add]
    show s.size + 1 + left = _
    omega
  · intro row hrow
    rcases List.mem_append.mp hrow with hrow | hrow
    · exact hs.free row hrow
    · cases List.mem_singleton.mp hrow
      rfl

/-- A pool that opens is in one of these states. -/
theorem Opening.opens (h : Opening limits left s) : Opens limits left s := by
  induction h with
  | bare =>
    exact ⟨rfl, Nat.zero_add _, rfl, rfl, rfl, rfl, rfl, (fun row hrow => nomatch hrow),
      ⟨rfl, rfl, Nat.zero_le _, (fun n hn => nomatch hn), List.nodup_nil⟩⟩
  | start _ hroom ih => exact ih.start hroom
  | full _ hfull ih =>
    -- the kept workers are no more than there may be, so there is room for each of them
    have hsize := ih.size_add
    have hbounds := limits.normalized_bounds
    rw [ih.limits_eq] at hfull
    omega
  | go _ hcall hdrop hst ih => exact (Step.of_step hst).opens hcall hdrop ih

/-! ## Once it has opened -/

/-- A pool that has opened has its workers. -/
theorem Opens.staffed (hs : Opens limits 0 s) : Staffed s := by
  refine ⟨?_, ?_, fun _ => hs.callers_eq, ?_, .inr ?_⟩
  · rw [hs.counted.size_eq, State.numbers, List.length_map]
  · rw [hs.queue_eq]
    exact Nat.zero_le _
  · intro row hrow hstop
    have hfree := hs.free row hrow
    rcases hstop with hstop | hstop <;> rw [hstop] at hfree <;> cases hfree
  · rw [hs.limits_eq, ← hs.size_add]
    exact Nat.le_refl _

/-- What holds of a pool that has opened and is kept by every step, holds ever after. -/
theorem run_of_opening {P : State → Prop} {start : State} (hopen : Opening limits 0 start)
    (hrun : start.run es = some s) (hstart : Opens limits 0 start → P start)
    (hstep : ∀ {s e t}, Step s e t → P s → P t) : P s :=
  run_keeps hstep hrun (hstart hopen.opens)

variable {start : State}

/-- In a run the counters are right, however the pool has opened. -/
theorem counted_of_opening (hopen : Opening limits 0 start) (hrun : start.run es = some s) :
    Counted s :=
  run_of_opening hopen hrun Opens.counted fun h hs => h.counted hs

/-- So are the workers. -/
theorem staffed_of_opening (hopen : Opening limits 0 start) (hrun : start.run es = some s) :
    Staffed s :=
  run_of_opening hopen hrun Opens.staffed fun h hs => h.staffed hs

/-- And the limits are those that the pool was given, put right. -/
theorem limits_of_opening (hopen : Opening limits 0 start) (hrun : start.run es = some s) :
    s.limits = limits.normalized :=
  run_of_opening (P := fun s => s.limits = limits.normalized) hopen hrun Opens.limits_eq
    fun h hs => h.limits_eq.trans hs

/-- A number that was given back is not given out again. -/
theorem gone_of_run (hs : Counted s) (hrun : s.run es = some t) (hold : n < s.spawned)
    (hgone : n ∉ s.numbers) : n ∉ t.numbers :=
  (run_keeps (P := fun t => Counted t ∧ n < t.spawned ∧ n ∉ t.numbers)
    (fun h ht => ⟨h.counted ht.1, (h.slots ht.1).stays_gone ht.2.1 ht.2.2⟩) hrun
    ⟨hs, hold, hgone⟩).2.2

/-- As long as the pool is there, it has the workers that are kept. -/
theorem min_le_size (hopen : Opening limits 0 start) (hrun : start.run es = some s)
    (halive : s.dropped = false) : limits.normalized.minThreads ≤ s.size := by
  have hs := staffed_of_opening hopen hrun
  rw [← limits_of_opening hopen hrun]
  refine hs.kept.resolve_left fun hdrained => ?_
  rw [hdrained.1] at halive
  cases halive

/-- Whatever limits a pool is made with and whatever happens to it once it has opened: it goes by
limits that keep at least one worker and no more than there may be; the counter of workers is
between the two as long as the pool is there, and never below the counter of idle workers; it is
the number of the workers that hold a slot, all different. Every step takes a slot for a new
worker, gives back the slot of a worker that is then no more, or leaves them alone, and who has
given a slot back never holds one again. -/
theorem sized_of_run (hopen : Opening limits 0 start) (hrun : start.run es = some s) :
    (s.limits = limits.normalized ∧ 1 ≤ s.limits.minThreads ∧
      s.limits.minThreads ≤ s.limits.maxThreads) ∧
    ((s.dropped = false → s.limits.minThreads ≤ s.size) ∧ s.size ≤ s.limits.maxThreads ∧
      s.idle ≤ s.size) ∧
    (s.size = s.numbers.length ∧ s.numbers.Nodup ∧ ∀ n ∈ s.numbers, n < s.spawned) ∧
    (∀ {e : Event} {t : State}, s.step e = some t → Slots s t) ∧
    (∀ {es : List Event} {t : State} {n : Nat}, s.run es = some t → n < s.spawned →
      n ∉ s.numbers → n ∉ t.numbers) := by
  have hlimits := limits_of_opening hopen hrun
  have hs := counted_of_opening hopen hrun
  refine ⟨⟨hlimits, ?_⟩, ⟨?_, hs.le_max, hs.idle_le⟩, ⟨hs.size_eq, hs.nodup, hs.lt_spawned⟩,
    fun hst => (Step.of_step hst).slots hs, fun hrun' => gone_of_run hs hrun'⟩
  · rw [hlimits]
    exact limits.normalized_bounds
  · rw [hlimits]
    exact min_le_size hopen hrun

/-- A pool that is to keep no worker keeps one. A caller that comes before it has counted itself
idle starts a second one. Then both wait in vain and read that there are two workers; one of them
stops, the exchange of the other one fails, and it stays. -/
def rivals : List Event :=
  [.call 7, .readIdle 7, .readSize 7, .grow 7 false, .offer 7,
    .countIdle 0, .wait 0, .receive 0, .countBusy 0, .finish 0 .returned,
    .countIdle 0, .wait 0, .countIdle 1, .wait 1, .timeOut 0, .timeOut 1,
    .countBusy 0, .countBusy 1, .check 0, .check 1, .measure 0, .measure 1,
    .retire 0 false, .retire 1 false, .retire 1 false, .countIdle 1]

theorem exists_run_rivals : ∃ s, (State.new ⟨0, 2, 1, 0⟩).run rivals = some s ∧
    s.numbers = [1] ∧ s.spawned = 2 ∧ s.dropped = false := ⟨_, rfl, rfl, rfl, rfl⟩

/-- One worker is left, and the one that has stopped holds no slot whatever happens next. -/
theorem sized_of_rivals : ∃ s, (State.new ⟨0, 2, 1, 0⟩).run rivals = some s ∧
    1 ≤ s.size ∧ s.size = s.numbers.length ∧
    ∀ {es : List Event} {t : State}, s.run es = some t → 0 ∉ t.numbers := by
  obtain ⟨s, hrun, hnumbers, hspawned, halive⟩ := exists_run_rivals
  obtain ⟨⟨-, hone, -⟩, ⟨hmin, -, -⟩, ⟨hsize, -, -⟩, -, hgone⟩ := sized_of_run .new hrun
  refine ⟨s, hrun, Nat.le_trans hone (hmin halive), hsize, fun hrun' => ?_⟩
  refine hgone hrun' ?_ ?_
  · rw [hspawned]
    exact Nat.zero_lt_two
  · rw [hnumbers]
    decide

end

end TaskRelay.Pool
