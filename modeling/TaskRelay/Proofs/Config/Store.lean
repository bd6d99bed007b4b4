import Mathlib.Data.List.Induction
import TaskRelay.Config
import TaskRelay.Panic

/-!
# What a store holds

What a store of configurations answers is up to what was called on it before. Of all that, two
things matter: the latest update that went through, and whether the store was reset since then
(`Stored`).

An update edits the configuration that it is given in place, and may break off half way, with some
edits made and others not (`Update.BreaksOff`). It is given an empty configuration, never the one
that is stored, and what it makes of that gets into the store when it is done. So nobody ever sees
half an update:

> `ConfigStore.answered_by_history`: whatever was called before, a call is answered as `Expected`
> says, and an update that breaks off makes no difference to any other call.

Between two calls the slot holds what is stored then (`slot_after`); one more call keeps that,
replaces it or takes it away (`stored_concat`).
-/

namespace TaskRelay

/-! ## Updates -/

/-- Edits a configuration in place, and may break off. The edits made by then are not undone. -/
abbrev Config.Update := ExceptT Panic (StateM Config) Unit

namespace Config.Update

variable {u : Update} {given edited : Config} {p : Panic}

/-- The update goes through and has made `edited` of the configuration it was given. -/
def Completes (u : Update) (given edited : Config) : Prop :=
  (u.run.run given).run = (.ok (), edited)

/-- The update breaks off and has made `edited` of the configuration by then. -/
def BreaksOff (u : Update) (given edited : Config) (p : Panic) : Prop :=
  (u.run.run given).run = (.error p, edited)

/-- What comes of an update for whoever asked for it. -/
def attempt (u : Update) (given : Config) : Attempt Config :=
  match (u.run.run given).run with
  | (.ok (), edited) => .ok edited
  | (.error p, _) => .error p

/-- An update that goes through leaves the configuration that it has edited. -/
theorem Completes.attempt_eq (h : u.Completes given edited) : u.attempt given = .ok edited := by
  unfold attempt
  rw [h]

/-- One that breaks off leaves why. -/
theorem BreaksOff.attempt_eq (h : u.BreaksOff given edited p) : u.attempt given = .error p := by
  unfold attempt
  rw [h]

/-- An update makes one configuration of another. -/
theorem Completes.unique {edited' : Config} (h : u.Completes given edited)
    (h' : u.Completes given edited') : edited = edited' :=
  (Prod.mk.inj (h.symm.trans h')).2

/-- It goes through or breaks off, and not both. -/
theorem Completes.not_breaksOff {edited' : Config} (h : u.Completes given edited) :
    ¬u.BreaksOff given edited' p := by
  intro h'
  cases (Prod.mk.inj (h.symm.trans h')).1

/-- One of both it does. -/
theorem completes_or_breaksOff (u : Update) (given : Config) :
    (∃ edited, u.Completes given edited) ∨ ∃ edited p, u.BreaksOff given edited p := by
  unfold Completes BreaksOff
  generalize (u.run.run given).run = result
  obtain ⟨_ | _, edited⟩ := result
  · exact .inr ⟨edited, _, rfl⟩
  · exact .inl ⟨edited, rfl⟩

end Config.Update

namespace ConfigStore

open Config (Update)

/-! ## Calls -/

/-- What may be called on a store. -/
inductive Call where
  | configure (u : Update)
  | reset
  | config
  | isConfigured

/-- What a call returns. -/
inductive Answer where
  | configured (result : Attempt Config)
  | reset
  | config (result : Except Failure Config)
  | isConfigured (b : Bool)

/-- What a call returns, and the store behind it. -/
def call (s : ConfigStore) : Call → Answer × ConfigStore
  | .configure u => ((s.configure u.attempt).map .configured id)
  | .reset => (.reset, s.reset)
  | .config => (.config s.config, s)
  | .isConfigured => (.isConfigured s.isConfigured, s)

/-- The store behind some calls. -/
def after (s : ConfigStore) (calls : List Call) : ConfigStore :=
  calls.foldl (fun s k => (s.call k).2) s

/-- What the calls return, one after the other. -/
def answers (s : ConfigStore) : List Call → List Answer
  | [] => []
  | k :: calls => (s.call k).1 :: (s.call k).2.answers calls

/-! ## What is stored -/

/-- The call leaves a store as it was. -/
inductive Call.Keeps : Call → Prop
  | brokeOff {u : Update} {edited : Config} {p : Panic} (h : u.BreaksOff .empty edited p) :
      Keeps (.configure u)
  | config : Keeps .config
  | isConfigured : Keeps .isConfigured

/-- The configuration is what the latest update to go through has made, and the store was not reset
since then. -/
def Stored (calls : List Call) (c : Config) : Prop :=
  ∃ before u later, calls = before ++ .configure u :: later ∧ u.Completes .empty c ∧
    ∀ k ∈ later, k.Keeps

/-- What a call returns behind others, in a store of this name. -/
inductive Expected (name : String) (before : List Call) : Call → Answer → Prop
  | configured {u : Update} {edited : Config} (h : u.Completes .empty edited) :
      Expected name before (.configure u) (.configured (.ok edited))
  | brokeOff {u : Update} {edited : Config} {p : Panic} (h : u.BreaksOff .empty edited p) :
      Expected name before (.configure u) (.configured (.error p))
  | reset : Expected name before .reset .reset
  | config {c : Config} (h : Stored before c) : Expected name before .config (.config (.ok c))
  | notConfigured (h : ¬∃ c, Stored before c) :
      Expected name before .config (.config (.error (.configuration name)))
  | isConfigured {b : Bool} (h : b = true ↔ ∃ c, Stored before c) :
      Expected name before .isConfigured (.isConfigured b)

section

variable {s : ConfigStore} {name : String} {calls before later : List Call} {u : Update}
  {edited c : Config} {p : Panic}

/-! ## One call -/

/-- An update that goes through is what the store holds from then on. -/
theorem call_of_completes (h : u.Completes .empty edited) :
    s.call (.configure u) = (.configured (.ok edited), ⟨s.name, some edited⟩) := by
  have hconfigure : s.configure u.attempt = (.ok edited, ⟨s.name, some edited⟩) := by
    unfold configure
    rw [h.attempt_eq]
  rw [call, hconfigure]
  rfl

/-- One that breaks off leaves the store as it was. -/
theorem call_of_breaksOff (h : u.BreaksOff .empty edited p) :
    s.call (.configure u) = (.configured (.error p), s) := by
  have hconfigure : s.configure u.attempt = (.error p, s) := by
    unfold configure
    rw [h.attempt_eq]
  rw [call, hconfigure]
  rfl

/-- A call that keeps the store does so. -/
theorem Call.Keeps.call_eq {k : Call} (h : k.Keeps) (s : ConfigStore) : (s.call k).2 = s := by
  cases h with
  | brokeOff h => rw [call_of_breaksOff h]
  | config | isConfigured => rfl

theorem name_call (s : ConfigStore) (k : Call) : (s.call k).2.name = s.name := by
  cases k with
  | reset | config | isConfigured => rfl
  | configure u =>
    obtain ⟨edited, h⟩ | ⟨edited, p, h⟩ := u.completes_or_breaksOff .empty
    · rw [call_of_completes h]
    · rw [call_of_breaksOff h]

/-- One call stores a configuration, or keeps the one that is there. -/
theorem slot_call {k : Call} : (s.call k).2.slot = some c ↔
    (∃ u, k = .configure u ∧ u.Completes .empty c) ∨ k.Keeps ∧ s.slot = some c := by
  cases k with
  | config =>
    refine ⟨fun h => .inr ⟨.config, h⟩, ?_⟩
    rintro (⟨u, ⟨⟩, -⟩ | ⟨-, h⟩)
    exact h
  | isConfigured =>
    refine ⟨fun h => .inr ⟨.isConfigured, h⟩, ?_⟩
    rintro (⟨u, ⟨⟩, -⟩ | ⟨-, h⟩)
    exact h
  | reset =>
    refine iff_of_false (by simp [call, reset]) ?_
    rintro (⟨u, ⟨⟩, -⟩ | ⟨⟨⟩, -⟩)
  | configure u =>
    -- an update stores something just if it goes through
    obtain ⟨edited, h⟩ | ⟨edited, p, h⟩ := u.completes_or_breaksOff .empty
    · rw [call_of_completes h]
      constructor
      · rintro ⟨⟩
        exact .inl ⟨u, rfl, h⟩
      · rintro (⟨_, ⟨⟩, h'⟩ | ⟨⟨h'⟩, -⟩)
        · exact congrArg some (h.unique h')
        · exact absurd h' h.not_breaksOff
    · rw [call_of_breaksOff h]
      refine ⟨fun hs => .inr ⟨.brokeOff h, hs⟩, ?_⟩
      rintro (⟨_, ⟨⟩, h'⟩ | ⟨-, hs⟩)
      · exact absurd h h'.not_breaksOff
      · exact hs

/-! ## Many calls -/

theorem after_concat (s : ConfigStore) (calls : List Call) (k : Call) :
    s.after (calls ++ [k]) = ((s.after calls).call k).2 := by
  unfold after
  rw [List.foldl_append]
  rfl

/-- The name of a store never changes. -/
theorem name_after (s : ConfigStore) (calls : List Call) : (s.after calls).name = s.name := by
  induction calls using List.reverseRecOn with
  | nil => rfl
  | append_singleton calls k ih => rw [after_concat, name_call, ih]

/-- Calls in two parts are answered like one after the other. -/
theorem answers_append (s : ConfigStore) (before later : List Call) :
    s.answers (before ++ later) = s.answers before ++ (s.after before).answers later := by
  induction before generalizing s with
  | nil => rfl
  | cons k before ih =>
    rw [List.cons_append, answers, ih]
    rfl

theorem length_answers (s : ConfigStore) (calls : List Call) :
    (s.answers calls).length = calls.length := by
  induction calls generalizing s with
  | nil => rfl
  | cons k calls ih => rw [answers, List.length_cons, ih, List.length_cons]

/-- A call is answered by the store that the calls before it have left. -/
theorem getElem?_answers (s : ConfigStore) (before later : List Call) (k : Call) :
    (s.answers (before ++ k :: later))[before.length]? = some ((s.after before).call k).1 := by
  rw [answers_append, List.getElem?_append_right (Nat.le_of_eq (length_answers s before)),
    length_answers, Nat.sub_self]
  rfl

/-! ## What one more call makes of what is stored -/

theorem not_stored_nil : ¬Stored [] c := by
  rintro ⟨before, u, later, hcalls, -⟩
  simp at hcalls

/-- The last call has stored the configuration, or it has kept it. -/
theorem stored_concat {k : Call} : Stored (calls ++ [k]) c ↔
    (∃ u, k = .configure u ∧ u.Completes .empty c) ∨ k.Keeps ∧ Stored calls c := by
  constructor
  · rintro ⟨before, u, later, hcalls, hcompletes, hlater⟩
    rcases List.eq_nil_or_concat later with rfl | ⟨later, last, rfl⟩
    · obtain ⟨-, hk⟩ := List.append_inj' hcalls rfl
      exact .inl ⟨u, List.singleton_inj.mp hk, hcompletes⟩
    · rw [List.concat_eq_append, ← List.cons_append, ← List.append_assoc] at hcalls
      obtain ⟨rfl, hk⟩ := List.append_inj' hcalls rfl
      obtain rfl := List.singleton_inj.mp hk
      refine .inr ⟨hlater k (by simp), before, u, later, rfl, hcompletes, fun k' hk' => ?_⟩
      exact hlater k' (by simp [hk'])
  · rintro (⟨u, rfl, hcompletes⟩ | ⟨hkeeps, before, u, later, rfl, hcompletes, hlater⟩)
    · exact ⟨calls, u, [], rfl, hcompletes, by simp⟩
    · refine ⟨before, u, later ++ [k], by simp, hcompletes, fun k' hk' => ?_⟩
      rcases List.mem_append.mp hk' with hk' | hk'
      · exact hlater k' hk'
      · rw [List.mem_singleton.mp hk']
        exact hkeeps

/-- A new store holds what the calls have stored. -/
theorem slot_after : ((new name).after calls).slot = some c ↔ Stored calls c := by
  induction calls using List.reverseRecOn with
  | nil => exact iff_of_false (by simp [after, new]) not_stored_nil
  | append_singleton calls k ih => rw [after_concat, slot_call, stored_concat, ih]

/-! ## What calls return -/

/-- What is read is what the store holds. -/
theorem config_eq_ok_iff : s.config = .ok c ↔ s.slot = some c := by
  unfold config
  cases s.slot <;> simp

/-- A store is configured if there is something to be read. -/
theorem isConfigured_iff : s.isConfigured = true ↔ ∃ c, s.config = .ok c := by
  simp only [config_eq_ok_iff]
  exact Option.isSome_iff_exists

/-- Nothing is read where no update has gone through since the last reset. -/
theorem config_of_not_stored (h : ¬∃ c, Stored calls c) :
    ((new name).after calls).config = .error (.configuration name) := by
  have hslot : ((new name).after calls).slot = none :=
    Option.eq_none_iff_forall_ne_some.mpr fun c hc => h ⟨c, slot_after.mp hc⟩
  unfold config
  rw [hslot, name_after]
  rfl

/-- Every call is answered as expected. -/
theorem expected_call (name : String) (before : List Call) (k : Call) :
    Expected name before k (((new name).after before).call k).1 := by
  cases k with
  | reset => exact .reset
  | isConfigured =>
    refine .isConfigured ?_
    rw [isConfigured_iff]
    simp only [config_eq_ok_iff, slot_after]
  | config =>
    rw [call]
    by_cases hstored : ∃ c, Stored before c
    · obtain ⟨c, hc⟩ := hstored
      rw [config_eq_ok_iff.mpr (slot_after.mpr hc)]
      exact .config hc
    · rw [config_of_not_stored hstored]
      exact .notConfigured hstored
  | configure u =>
    obtain ⟨edited, h⟩ | ⟨edited, p, h⟩ := u.completes_or_breaksOff .empty
    · rw [call_of_completes h]
      exact .configured h
    · rw [call_of_breaksOff h]
      exact .brokeOff h

/-- And there is one answer that is expected. -/
theorem Expected.eq_call {k : Call} {a : Answer} (h : Expected name before k a) :
    a = (((new name).after before).call k).1 := by
  cases h with
  | reset => rfl
  | configured h => rw [call_of_completes h]
  | brokeOff h => rw [call_of_breaksOff h]
  | config h => rw [call, config_eq_ok_iff.mpr (slot_after.mpr h)]
  | notConfigured h => rw [call, config_of_not_stored h]
  | isConfigured h =>
    have hread := isConfigured_iff (s := (new name).after before)
    simp only [config_eq_ok_iff, slot_after] at hread
    rw [call, Bool.eq_iff_iff.mpr (h.trans hread.symm)]

/-- A call that keeps the store is answered, and apart from that it might as well not be there. -/
theorem answers_of_keeps {k : Call} (h : k.Keeps) (s : ConfigStore) (before later : List Call) :
    s.answers (before ++ k :: later) =
      (s.answers (before ++ later)).insertIdx before.length ((s.after before).call k).1 := by
  induction before generalizing s with
  | nil =>
    show (s.call k).1 :: (s.call k).2.answers later = _
    rw [h.call_eq]
    rfl
  | cons b before ih =>
    show (s.call b).1 :: (s.call b).2.answers (before ++ k :: later) = _
    rw [ih]
    rfl

/-- Whatever was called on a store before, a call is answered as expected: an update is given an
empty configuration, and what is read is what the latest update to go through has made, unless the
store was reset since. An update that breaks off leaves the store as it was, and all other calls are
answered as they would be without it. -/
theorem answered_by_history (name : String) (before : List Call) :
    (∀ k later a, ((new name).answers (before ++ k :: later))[before.length]? = some a ↔
      Expected name before k a) ∧
    (((new name).after before).isConfigured = true ↔
      ∃ c, ((new name).after before).config = .ok c) ∧
    ∀ u edited p, u.BreaksOff .empty edited p →
      (new name).after (before ++ [.configure u]) = (new name).after before ∧
      ∀ later, (new name).answers (before ++ .configure u :: later) =
        ((new name).answers (before ++ later)).insertIdx before.length
          (.configured (.error p)) := by
  refine ⟨fun k later a => ?_, isConfigured_iff, fun u edited p hu => ⟨?_, fun later => ?_⟩⟩
  · rw [getElem?_answers, Option.some_inj]
    constructor
    · rintro rfl
      exact expected_call name before k
    · exact fun h => h.eq_call.symm
  · have hkeeps : Call.Keeps (.configure u) := .brokeOff hu
    rw [after_concat, hkeeps.call_eq]
  · rw [answers_of_keeps (.brokeOff hu), call_of_breaksOff hu]

end

/-- Sets a port and then breaks off. -/
def halfway : Update := do
  modify fun c => { c with port := some Ranged.zero }
  throw (.text "no host")

def withHost (host : String) : Update := modify fun c => { c with host := some host }

theorem answered_by_history_halfway :
    halfway.BreaksOff .empty ⟨none, some Ranged.zero, none, none⟩ (.text "no host") ∧
    (new "local").after [.configure (withHost "a"), .configure halfway] =
      (new "local").after [.configure (withHost "a")] ∧
    (new "local").answers
        [.configure (withHost "a"), .configure halfway, .config, .reset, .config] =
      [.configured (.ok ⟨some "a", none, none, none⟩), .configured (.error (.text "no host")),
        .config (.ok ⟨some "a", none, none, none⟩), .reset,
        .config (.error (.configuration "local"))] := by
  have hhalfway : halfway.BreaksOff .empty ⟨none, some Ranged.zero, none, none⟩ (.text "no host") :=
    rfl
  obtain ⟨-, -, hbreaksOff⟩ := answered_by_history "local" [.configure (withHost "a")]
  obtain ⟨hstore, hothers⟩ := hbreaksOff halfway _ _ hhalfway
  refine ⟨hhalfway, hstore, (hothers [.config, .reset, .config]).trans ?_⟩
  rfl

end ConfigStore

end TaskRelay
