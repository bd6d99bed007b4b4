import TaskRelay.Registry

/-!
# What a failed envelope is taken for

A failed envelope is taken for one of five failures (`Registry.Rebuilt`). Three kinds are those of
failures that come back as what they were, and a registration under one of these kinds makes no
difference. Of the other kinds, those that are registered are rebuilt from the message and the rest
stays remote, with everything that was reported.

> `rebuilt_reconstruct`, `Rebuilt.eq_reconstruct`: a registry goes by these rules, and by nothing
> else.

> `Rebuilt.kind_eq`, `Rebuilt.message_eq`: whatever the envelope is taken for, its kind and message
> are still those of the envelope.
-/

namespace TaskRelay

/-- The kinds that come back as what they were. -/
def Failure.taxonomy : List String := [validationKind, unresolvedDefinitionKind, protocolKind]

namespace Registry

variable {r : Registry} {kind message : String} {trace : List String} {f : Failure}

/-- What a registry may take a failed envelope for. -/
inductive Rebuilt (r : Registry) (kind message : String) (trace : List String) : Failure → Prop
  | validation (hkind : kind = Failure.validationKind) :
      Rebuilt r kind message trace (.validation message)
  | unresolvedDefinition (hkind : kind = Failure.unresolvedDefinitionKind) :
      Rebuilt r kind message trace (.unresolvedDefinition message)
  | protocol (hkind : kind = Failure.protocolKind) :
      Rebuilt r kind message trace (.protocol message)
  /-- The kind is registered, and none of the three. -/
  | task {rebuild : String → String} (hkind : kind ∉ Failure.taxonomy)
      (hregistered : r.rebuilder? kind = some rebuild) :
      Rebuilt r kind message trace (.task kind message (rebuild message))
  /-- The kind is not registered, and none of the three. -/
  | remoteTask (hkind : kind ∉ Failure.taxonomy) (hunknown : r.resolvesError kind = false) :
      Rebuilt r kind message trace (.remoteTask kind message trace)

theorem rebuilt_reconstruct (r : Registry) (kind message : String) (trace : List String) :
    r.Rebuilt kind message trace (r.reconstruct kind message trace) := by
  unfold reconstruct Failure.ofTaxonomy?
  by_cases hvalidation : kind = Failure.validationKind
  · rw [if_pos hvalidation]
    exact .validation hvalidation
  rw [if_neg hvalidation]
  by_cases hunresolved : kind = Failure.unresolvedDefinitionKind
  · rw [if_pos hunresolved]
    exact .unresolvedDefinition hunresolved
  rw [if_neg hunresolved]
  by_cases hprotocol : kind = Failure.protocolKind
  · rw [if_pos hprotocol]
    exact .protocol hprotocol
  rw [if_neg hprotocol]
  have hkind : kind ∉ Failure.taxonomy := by
    simp [Failure.taxonomy, hvalidation, hunresolved, hprotocol]
  -- only now the registrations count
  cases hregistered : r.rebuilder? kind with
  | none => exact .remoteTask hkind (by rw [resolvesError, hregistered]; rfl)
  | some rebuild => exact .task hkind hregistered

theorem ofTaxonomy?_eq_none (hkind : kind ∉ Failure.taxonomy) :
    Failure.ofTaxonomy? kind message = none := by
  simp only [Failure.taxonomy, List.mem_cons, List.not_mem_nil, or_false, not_or] at hkind
  obtain ⟨hvalidation, hunresolved, hprotocol⟩ := hkind
  rw [Failure.ofTaxonomy?, if_neg hvalidation, if_neg hunresolved, if_neg hprotocol]

/-- No two of the rules are for the same envelope: by whichever it is taken for something, that is
what the registry makes of it. -/
theorem Rebuilt.eq_reconstruct (h : r.Rebuilt kind message trace f) :
    f = r.reconstruct kind message trace := by
  unfold reconstruct
  cases h with
  | validation hkind | unresolvedDefinition hkind | protocol hkind =>
    subst hkind
    rfl
  | task hkind hregistered => rw [ofTaxonomy?_eq_none hkind, hregistered]
  | remoteTask hkind hunknown =>
    have hnone : r.rebuilder? kind = none :=
      Option.isNone_iff_eq_none.mp (Option.isSome_eq_false_iff.mp hunknown)
    rw [ofTaxonomy?_eq_none hkind, hnone]

/-- What an envelope is taken for has its kind. -/
theorem Rebuilt.kind_eq (h : r.Rebuilt kind message trace f) : f.kind = kind := by
  cases h with
  | validation hkind | unresolvedDefinition hkind | protocol hkind => exact hkind.symm
  | task | remoteTask => rfl

/-- And its message. -/
theorem Rebuilt.message_eq (h : r.Rebuilt kind message trace f) : f.message = message := by
  cases h <;> rfl

end Registry

end TaskRelay
