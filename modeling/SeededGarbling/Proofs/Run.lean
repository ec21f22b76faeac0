import SeededGarbling.Garbling.Workspace

/-!
# Runs on a state

A computation that may stop is followed one step at a time: what comes next starts where a success
left the state, and a failure skips it. The steps that touch a workspace are listed with what they
do to it.
-/

namespace SeededGarbling

section Sequence

variable {ε δ σ α β : Type} {x : ExceptT ε (StateM σ) α} {f : α → ExceptT ε (StateM σ) β} {s s' : σ}

/-- After a success the next step starts from the state that was left. -/
theorem run_bind_of_ok {a : α} (h : x.run s = (.ok a, s')) : (x >>= f).run s = (f a).run s' := by
  change ExceptT.bindCont f (x.run s).1 (x.run s).2 = _
  rw [h]
  rfl

/-- After a failure there is no next step. -/
theorem run_bind_of_error {e : ε} (h : x.run s = (.error e, s')) :
    (x >>= f).run s = (.error e, s') := by
  change ExceptT.bindCont f (x.run s).1 (x.run s).2 = _
  rw [h]
  rfl

/-- A sequence that succeeds passes through a state between its two parts. -/
theorem run_bind_eq_ok {b : β} {s'' : σ} (h : (x >>= f).run s = (.ok b, s'')) :
    ∃ a s', x.run s = (.ok a, s') ∧ (f a).run s' = (.ok b, s'') := by
  rcases hx : x.run s with ⟨_ | a, s'⟩
  · rw [run_bind_of_error hx] at h
    cases h
  · rw [run_bind_of_ok hx] at h
    exact ⟨a, s', rfl, h⟩

/-- A step that cannot stop succeeds with what it gives. -/
theorem run_liftM {step : StateM σ α} {a : α} (h : step.run s = (a, s')) :
    (liftM step : ExceptT ε (StateM σ) α).run s = (.ok a, s') := by
  change (Except.ok (step.run s).1, (step.run s).2) = _
  rw [h]

/-- A check leaves the state alone. -/
theorem run_ofExcept (check : Except ε α) (s : σ) :
    (MonadExcept.ofExcept check : ExceptT ε (StateM σ) α).run s = (check, s) := by
  cases check <;> rfl

/-- What is made of a success changes neither failures nor the state. -/
theorem run_map (f : α → β) (x : ExceptT ε (StateM σ) α) (s : σ) :
    (f <$> x).run s = (f <$> (x.run s).1, (x.run s).2) := by
  rcases h : x.run s with ⟨e | a, s'⟩
  · rw [map_eq_pure_bind, run_bind_of_error h]
    rfl
  · rw [map_eq_pure_bind, run_bind_of_ok h]
    rfl

/-- Renaming failures changes neither successes nor the state. -/
theorem run_adapt (rename : ε → δ) (x : ExceptT ε (StateM σ) α) (s : σ) :
    (ExceptT.adapt rename x).run s = ((x.run s).1.mapError rename, (x.run s).2) := rfl

end Sequence

namespace Run

variable {γ α : Type}

/-- A check of a circuit leaves the workspace alone. -/
theorem run_ofCircuit (result : Except CircuitError α) (workspace : Workspace γ) :
    (ofCircuit result : Run γ α).run workspace = (result.mapError .circuit, workspace) := by
  cases result <;> rfl

/-- A check that succeeds has left the workspace as it was. -/
theorem run_ofCircuit_eq_ok {result : Except CircuitError α} {workspace after : Workspace γ} {a : α}
    (h : (ofCircuit result : Run γ α).run workspace = (.ok a, after)) :
    result = .ok a ∧ after = workspace := by
  cases result <;> cases h
  exact ⟨rfl, rfl⟩

/-- So has a computation of primitives. -/
theorem run_ofPrimitive_eq_ok {result : Except PrimitiveError α} {workspace after : Workspace γ}
    {a : α} (h : (ofPrimitive result : Run γ α).run workspace = (.ok a, after)) :
    result = .ok a ∧ after = workspace := by
  cases result <;> cases h
  exact ⟨rfl, rfl⟩

/-- A step of the generator takes the place of the generator. -/
theorem run_onGenerator (step : ExceptT PrimitiveError (StateM γ) α) (workspace : Workspace γ) :
    (onGenerator step).run workspace =
      ((step.run workspace.generator).1.mapError .key,
        ⟨(step.run workspace.generator).2, workspace.hasher⟩) := rfl

/-- A step of the generator does not reach the hasher. -/
theorem hasher_run_onGenerator (step : ExceptT PrimitiveError (StateM γ) α)
    (workspace : Workspace γ) :
    ((onGenerator step).run workspace).2.hasher = workspace.hasher := rfl

/-- Absorbing does not reach the generator. -/
theorem run_absorb (pieces : List Bytes) (workspace : Workspace γ) :
    (absorb pieces : Run γ Unit).run workspace =
      (.ok (), { workspace with hasher := workspace.hasher.updateAll pieces }) := rfl

/-- Taking the digest empties the hasher. -/
theorem run_finalize (workspace : Workspace γ) :
    (finalize : Run γ Bytes).run workspace =
      (.ok workspace.hasher.peek, { workspace with hasher := workspace.hasher.reset }) := rfl

end Run

end SeededGarbling
