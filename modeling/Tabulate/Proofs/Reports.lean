import Tabulate.Journal

/-! What a reporting computation adds to the journal does not depend on what is there already.
Rules that follow the ways in which such computations are put together. -/
namespace Tabulate

namespace Journal

@[simp] theorem warnings_nil : warnings [] = [] := rfl

@[simp] theorem warnings_append (j k : Journal) : warnings (j ++ k) = warnings j ++ warnings k := by
  simp [warnings]

@[simp] theorem warnings_warn (source : Source) (text : String) (j : Journal) :
    warnings (⟨.warn, source, text⟩ :: j) = text :: warnings j := rfl

@[simp] theorem warnings_debug (source : Source) (text : String) (j : Journal) :
    warnings (⟨.debug, source, text⟩ :: j) = warnings j := rfl

def warned (texts : List String) : Journal := texts.map fun text => ⟨.warn, .data, text⟩

@[simp] theorem warnings_warned (texts : List String) : warnings (warned texts) = texts := by
  induction texts with
  | nil => rfl
  | cons text more ih => rw [warned, List.map_cons, warnings_warn, ← warned, ih]

end Journal

namespace Reporting
variable {ε δ α β : Type}

/-- Whatever was reported before, a computation ends in a result and adds the same reports. -/
def Yields (x : Reporting ε α) (result : Except ε α) (reports : Journal) : Prop :=
  ∀ before : Journal, x.run.run before = (result, before ++ reports)

theorem Yields.outcome {x : Reporting ε α} {r : Except ε α} {j : Journal} (h : x.Yields r j) :
    x.outcome = (r, j) := h []

theorem yields_pure (a : α) : (pure a : Reporting ε α).Yields (.ok a) [] := by
  intro before
  rw [List.append_nil]
  rfl

theorem yields_throw (e : ε) : (throw e : Reporting ε α).Yields (.error e) [] := by
  intro before
  rw [List.append_nil]
  rfl

theorem yields_warn (text : String) :
    (warn text : Reporting ε Unit).Yields (.ok ()) (.warned [text]) := fun _ => rfl

theorem yields_debug (source : Source) (text : String) :
    (debug source text : Reporting ε Unit).Yields (.ok ()) [⟨.debug, source, text⟩] := fun _ => rfl

private theorem run_bind (x : Reporting ε α) (f : α → Reporting ε β) (before : Journal) :
    (x >>= f).run.run before =
      match x.run.run before with
      | (.ok a, after) => (f a).run.run after
      | (.error e, after) => (.error e, after) := by
  have h : (x >>= f).run.run before =
      StateT.run (ExceptT.bindCont f (x.run.run before).1) (x.run.run before).2 := rfl
  rw [h]
  rcases x.run.run before with ⟨_ | _, _⟩ <;> rfl

theorem Yields.bind {x : Reporting ε α} {a : α} {j : Journal} (h : x.Yields (.ok a) j)
    {f : α → Reporting ε β} {r : Except ε β} {k : Journal} (hf : (f a).Yields r k) :
    (x >>= f).Yields r (j ++ k) := by
  intro before
  rw [run_bind, h before, ← List.append_assoc]
  exact hf (before ++ j)

theorem Yields.bind_error {x : Reporting ε α} {e : ε} {j : Journal} (h : x.Yields (.error e) j)
    (f : α → Reporting ε β) : (x >>= f).Yields (.error e) j := by
  intro before
  rw [run_bind, h before]

theorem Yields.mapError {x : Reporting ε α} {r : Except ε α} {j : Journal} (h : x.Yields r j)
    (f : ε → δ) : (x.mapError f).Yields (r.mapError f) j := by
  intro before
  change (x.run >>= fun result => pure (result.mapError f)).run before = _
  rw [StateT.run_bind, h before]
  rfl

/-- Each text becomes a warning, in order. -/
theorem yields_warnEach (texts : List String) :
    (forIn texts PUnit.unit fun text _ => do
      (warn text : Reporting ε Unit)
      pure (ForInStep.yield PUnit.unit)).Yields (.ok PUnit.unit) (.warned texts) := by
  induction texts with
  | nil => exact yields_pure _
  | cons text more ih =>
    rw [List.forIn_cons]
    have head : Yields (ε := ε) (do warn text; pure (ForInStep.yield PUnit.unit))
        (.ok (ForInStep.yield PUnit.unit)) (.warned [text]) :=
      (yields_warn text).bind (yields_pure _)
    exact head.bind ih

def Additive (x : Reporting ε α) : Prop := ∃ r j, x.Yields r j

namespace Additive

theorem pure (a : α) : (Pure.pure a : Reporting ε α).Additive := ⟨_, _, yields_pure a⟩

theorem throw (e : ε) : (MonadExcept.throw e : Reporting ε α).Additive := ⟨_, _, yields_throw e⟩

theorem warn (text : String) : (Reporting.warn text : Reporting ε Unit).Additive :=
  ⟨_, _, yields_warn text⟩

theorem debug (source : Source) (text : String) :
    (Reporting.debug source text : Reporting ε Unit).Additive := ⟨_, _, yields_debug source text⟩

theorem bind {x : Reporting ε α} {f : α → Reporting ε β} (hx : x.Additive)
    (hf : ∀ a, (f a).Additive) : (x >>= f).Additive := by
  obtain ⟨r, j, hy⟩ := hx
  cases r with
  | error e => exact ⟨_, _, hy.bind_error f⟩
  | ok a =>
    obtain ⟨s, k, hk⟩ := hf a
    exact ⟨s, j ++ k, hy.bind hk⟩

theorem mapError {x : Reporting ε α} (h : x.Additive) (f : ε → δ) : (x.mapError f).Additive := by
  obtain ⟨r, j, hy⟩ := h
  exact ⟨_, _, hy.mapError f⟩

/-- A computation for each of some items, in order. -/
theorem forEach {items : List α} {f : α → PUnit → Reporting ε (ForInStep PUnit)}
    (hf : ∀ a s, (f a s).Additive) (start : PUnit) : (forIn items start f).Additive := by
  induction items generalizing start with
  | nil =>
    rw [List.forIn_nil]
    exact pure start
  | cons a more ih =>
    rw [List.forIn_cons]
    refine (hf a start).bind fun step => ?_
    cases step with
    | done s => exact pure s
    | yield s => exact ih s

end Additive

/-- After what always ends in the same way, only how it goes on from there counts. -/
theorem Yields.bind_congr {x : Reporting ε α} {r : Except ε α} {j : Journal} (h : x.Yields r j)
    {f g : α → Reporting ε β} (hfg : ∀ a, r = .ok a → f a = g a) : x >>= f = x >>= g := by
  refine ExceptT.ext (StateT.ext fun before => ?_)
  rw [run_bind, run_bind, h before]
  cases r with
  | error e => rfl
  | ok a => exact congrArg (fun y => y.run.run (before ++ j)) (hfg a rfl)

private theorem outcome_bind_error {x : Reporting ε α} {e : ε} {j : Journal}
    (h : x.outcome = (.error e, j)) (f : α → Reporting ε β) : (x >>= f).outcome = (.error e, j) := by
  rw [outcome] at h ⊢
  rw [run_bind, h]

private theorem outcome_bind_ok {x : Reporting ε α} {a : α} {j : Journal} (h : x.outcome = (.ok a, j))
    {f : α → Reporting ε β} (hf : (f a).Additive) :
    (x >>= f).outcome = ((f a).outcome.1, j ++ (f a).outcome.2) := by
  obtain ⟨r, k, hr⟩ := hf
  rw [hr.outcome]
  rw [outcome] at h ⊢
  rw [run_bind, h]
  exact hr j

/-- What a result is turned into does not depend on the reports that were made for it. -/
theorem outcome_bind (x : Reporting ε α) {f : α → Reporting ε β} (hf : ∀ a, (f a).Additive) :
    (x >>= f).outcome.1 = x.outcome.1 >>= fun a => (f a).outcome.1 := by
  rcases hx : x.outcome with ⟨e | a, j⟩
  · rw [outcome_bind_error hx]
    rfl
  · rw [outcome_bind_ok hx (hf a)]
    rfl

/-- What a computation that does not fail ends in, and the warnings on the way. -/
def success? (x : Reporting ε α) : Option (α × List String) :=
  x.outcome.1.toOption.map (·, x.outcome.2.warnings)

section Success

theorem Yields.success? {x : Reporting ε α} {r : Except ε α} {j : Journal} (h : x.Yields r j) :
    x.success? = r.toOption.map (·, j.warnings) := by
  rw [Reporting.success?, h.outcome]

@[simp] theorem success?_pure (a : α) : (pure a : Reporting ε α).success? = some (a, []) :=
  (yields_pure a).success?

@[simp] theorem success?_mapError (x : Reporting ε α) (f : ε → δ) :
    (x.mapError f).success? = x.success? := by
  have h : (x.mapError f).outcome = (x.outcome.1.mapError f, x.outcome.2) := rfl
  rw [success?, success?, h]
  cases x.outcome.1 <;> rfl

/-- What goes on after warnings adds its own to them. -/
theorem success?_bind (x : Reporting ε α) {f : α → Reporting ε β} (hf : ∀ a, (f a).Additive) :
    (x >>= f).success? =
      x.success?.bind fun found => (f found.1).success?.map (Prod.map id (found.2 ++ ·)) := by
  rcases hx : x.outcome with ⟨e | a, j⟩
  · simp only [success?, outcome_bind_error hx f, hx]
    rfl
  · have hfound : x.success? = some (a, j.warnings) := by simp only [success?, hx]; rfl
    rw [hfound, Option.bind_some, success?, success?, outcome_bind_ok hx (hf a), Option.map_map,
      Journal.warnings_append]
    rfl

theorem success?_debug_bind (source : Source) (text : String) {f : Unit → Reporting ε β}
    (hf : (f ()).Additive) : (debug source text >>= f).success? = (f ()).success? := by
  rw [success?_bind _ fun _ => hf, (yields_debug source text).success?]
  exact Option.map_id'

end Success

def FailsIn (P : ε → Prop) (x : Reporting ε α) : Prop :=
  ∀ before e after, x.run.run before = (.error e, after) → P e

namespace FailsIn
variable {P : ε → Prop}

theorem pure (a : α) : (Pure.pure a : Reporting ε α).FailsIn P := fun _ _ _ h => nomatch h

theorem throw {e : ε} (h : P e) : (MonadExcept.throw e : Reporting ε α).FailsIn P := by
  intro before found after hrun
  cases hrun
  exact h

theorem of_yields {x : Reporting ε α} {r : Except ε α} {j : Journal} (h : x.Yields r j)
    (hr : ∀ e, r = .error e → P e) : x.FailsIn P := by
  intro before e after hrun
  rw [h before] at hrun
  exact hr e (congrArg Prod.fst hrun)

theorem bind {x : Reporting ε α} {f : α → Reporting ε β} (hx : x.FailsIn P)
    (hf : ∀ a, (f a).FailsIn P) : (x >>= f).FailsIn P := by
  intro before e after hrun
  rw [run_bind] at hrun
  rcases hfirst : x.run.run before with ⟨_ | a, between⟩
  · rw [hfirst] at hrun
    cases hrun
    exact hx before _ _ hfirst
  · rw [hfirst] at hrun
    exact hf a between e after hrun

theorem of_ok {x : Reporting ε α} {a : α} {j : Journal} (h : x.Yields (.ok a) j) : x.FailsIn P :=
  of_yields h fun _ hr => nomatch hr

/-- Errors that are turned into others meet what all those others meet. -/
theorem mapError {f : δ → ε} (h : ∀ e, P (f e)) (x : Reporting δ α) : (x.mapError f).FailsIn P := by
  intro before e after hrun
  change (x.run >>= fun result => Pure.pure (result.mapError f)).run before = _ at hrun
  rw [StateT.run_bind] at hrun
  rcases hfirst : x.run.run before with ⟨e' | a, between⟩
  · rw [hfirst] at hrun
    cases hrun
    exact h e'
  · rw [hfirst] at hrun
    cases hrun

end FailsIn
end Reporting
end Tabulate
