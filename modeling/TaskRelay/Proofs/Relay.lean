import TaskRelay.Envelope
import TaskRelay.Proofs.Registry

/-!
# Failures that are passed on

Whoever is given a failed envelope takes it for a failure, and may in turn fail with that. The
failure then travels as an envelope again, to somebody with another registry. On such a way the kind
and the message stay, whoever the hops are (`pass_failure`). The causes do not: a failure that is
rebuilt from its kind and message has none.

> `relay_failure`: a failure of one of the three kinds that come back as what they were loses its
> causes at the first hop, any other at the first hop that knows its kind; and the three are the
> same failure at every hop.
-/

namespace TaskRelay

namespace Registry

variable {r : Registry} {kind message : String} {trace : List String} {f : Failure}

/-- A failure of a kind that comes back as what it was is the same wherever it is rebuilt. -/
theorem reconstruct_of_taxonomy (h : Failure.ofTaxonomy? kind message = some f) (r : Registry)
    (trace : List String) : r.reconstruct kind message trace = f := by
  unfold reconstruct
  rw [h]

/-- What is rebuilt from a message has no causes; what stays remote keeps those that were
reported. -/
theorem Rebuilt.trace_eq (h : r.Rebuilt kind message trace f) :
    f.trace = if kind ∈ Failure.taxonomy ∨ r.resolvesError kind = true then [] else trace := by
  cases h with
  | validation hkind | unresolvedDefinition hkind | protocol hkind =>
    subst hkind
    exact (if_pos (.inl (by decide))).symm
  | task _ hregistered =>
    have hknown : r.resolvesError kind = true := by
      rw [resolvesError, hregistered]
      rfl
    exact (if_pos (.inr hknown)).symm
  | remoteTask hkind hunknown =>
    refine (if_neg ?_).symm
    rintro (hown | hknown)
    · exact hkind hown
    · rw [hunknown] at hknown
      cases hknown

end Registry

namespace Envelope

/-! ## One hop -/

/-- What a registry takes an envelope for. A success stands for no failure. -/
def failure? (r : Registry) : Envelope → Option Failure
  | .success _ => none
  | .failure kind message trace => some (r.reconstruct kind message trace)

/-- The envelope that somebody with this registry passes on. -/
def pass (e : Envelope) (r : Registry) : Envelope :=
  match e.failure? r with
  | none => e
  | some f => ofFailure f

variable {kind message : String} {trace : List String}

/-- One hop keeps kind and message, and the causes unless the kind is known there. -/
theorem pass_failure (r : Registry) :
    (failure kind message trace).pass r = .failure kind message
      (if kind ∈ Failure.taxonomy ∨ r.resolvesError kind = true then [] else trace) := by
  have h := r.rebuilt_reconstruct kind message trace
  show ofFailure (r.reconstruct kind message trace) = _
  rw [ofFailure, h.kind_eq, h.message_eq, h.trace_eq]

/-! ## Any number of hops -/

/-- The envelope after some hops. -/
def relay (e : Envelope) (rs : List Registry) : Envelope := rs.foldl pass e

/-- What the envelope is taken for, hop by hop. -/
def takenFor (e : Envelope) : List Registry → List Failure
  | [] => []
  | r :: rs => (e.failure? r).toList ++ (e.pass r).takenFor rs

/-- What some hops leave of the causes of a failure. -/
inductive Left (kind : String) (trace : List String) : List Registry → List String → Prop
  | start : Left kind trace [] trace
  /-- The kind is one that comes back as what it was. -/
  | taxonomy {r : Registry} {rs : List Registry} (hkind : kind ∈ Failure.taxonomy) :
      Left kind trace (r :: rs) []
  /-- Nobody on the way knows the kind. -/
  | carried {rs : List Registry} (hkind : kind ∉ Failure.taxonomy)
      (hunknown : ∀ r ∈ rs, r.resolvesError kind = false) : Left kind trace rs trace
  /-- Somebody does; `before` are the hops in front of the first of them. -/
  | dropped {before after : List Registry} {r : Registry} (hkind : kind ∉ Failure.taxonomy)
      (hunknown : ∀ q ∈ before, q.resolvesError kind = false)
      (hknown : r.resolvesError kind = true) : Left kind trace (before ++ r :: after) []

/-- A failure without causes stays as it is. -/
theorem relay_nil (rs : List Registry) :
    (failure kind message []).relay rs = .failure kind message [] := by
  induction rs with
  | nil => rfl
  | cons r rs ih =>
    show ((failure kind message []).pass r).relay rs = _
    rw [pass_failure, ite_self]
    exact ih

/-- One more hop in front, at which the kind is not known, takes nothing away. -/
theorem Left.cons {r : Registry} {rs : List Registry} {left : List String}
    (hkind : kind ∉ Failure.taxonomy) (hr : r.resolvesError kind = false)
    (h : Left kind trace rs left) : Left kind trace (r :: rs) left := by
  cases h with
  | start =>
    refine .carried hkind fun q hq => ?_
    obtain rfl := List.mem_singleton.mp hq
    exact hr
  | taxonomy hown => exact absurd hown hkind
  | carried _ hunknown =>
    refine .carried hkind fun q hq => ?_
    rcases List.mem_cons.mp hq with rfl | hq
    · exact hr
    · exact hunknown q hq
  | @dropped before after s _ hunknown hknown =>
    show Left kind trace ((r :: before) ++ s :: after) []
    refine .dropped hkind (fun q hq => ?_) hknown
    rcases List.mem_cons.mp hq with rfl | hq
    · exact hr
    · exact hunknown q hq

/-- Any number of hops do so too, by induction on those that are left. -/
theorem exists_left (kind message : String) (trace : List String) (rs : List Registry) :
    ∃ left, Left kind trace rs left ∧
      (failure kind message trace).relay rs = .failure kind message left := by
  induction rs with
  | nil => exact ⟨trace, .start, rfl⟩
  | cons r rs ih =>
    have hfirst : (failure kind message trace).relay (r :: rs) =
        ((failure kind message trace).pass r).relay rs := rfl
    rw [hfirst, pass_failure]
    by_cases hkind : kind ∈ Failure.taxonomy
    · rw [if_pos (.inl hkind), relay_nil]
      exact ⟨[], .taxonomy hkind, rfl⟩
    · cases hr : r.resolvesError kind with
      | true =>
        rw [if_pos (.inr rfl), relay_nil]
        have hleft : Left kind trace ([] ++ r :: rs) [] :=
          .dropped hkind (fun _ hq => nomatch hq) hr
        exact ⟨[], hleft, rfl⟩
      | false =>
        rw [if_neg (by simp [hkind])]
        obtain ⟨left, hleft, heq⟩ := ih
        exact ⟨left, hleft.cons hkind hr, heq⟩

/-- A failure of one of the three kinds is the same at every hop. -/
theorem takenFor_of_taxonomy {f : Failure} (h : Failure.ofTaxonomy? kind message = some f)
    (trace : List String) (rs : List Registry) :
    (failure kind message trace).takenFor rs = List.replicate rs.length f := by
  induction rs generalizing trace with
  | nil => rfl
  | cons r rs ih =>
    rw [takenFor, pass_failure, ih]
    show [r.reconstruct kind message trace] ++ _ = _
    rw [Registry.reconstruct_of_taxonomy h]
    rfl

/-- Over any hops a failed envelope keeps its kind and message, and so does a failure that is sent
on such a way as an envelope; the causes are kept as `Left` says. What breaks the rules of a
context, has no definition or breaks the protocol is taken for that same failure at every hop. -/
theorem relay_failure (rs : List Registry) :
    (∀ kind message trace, ∃ left, Left kind trace rs left ∧
      (failure kind message trace).relay rs = .failure kind message left) ∧
    (∀ f : Failure, ∃ left, Left f.kind f.trace rs left ∧
      (ofFailure f).relay rs = .failure f.kind f.message left) ∧
    ∀ m,
      (ofFailure (.validation m)).takenFor rs = List.replicate rs.length (.validation m) ∧
      (ofFailure (.unresolvedDefinition m)).takenFor rs =
        List.replicate rs.length (.unresolvedDefinition m) ∧
      (ofFailure (.protocol m)).takenFor rs = List.replicate rs.length (.protocol m) := by
  refine ⟨fun kind message trace => exists_left kind message trace rs,
    fun f => exists_left f.kind f.message f.trace rs, fun m => ⟨?_, ?_, ?_⟩⟩
  · exact takenFor_of_taxonomy rfl [] rs
  · exact takenFor_of_taxonomy rfl [] rs
  · exact takenFor_of_taxonomy rfl [] rs

end Envelope

end TaskRelay
