import Tabulate.Proofs.Jsonata.Faults
import Tabulate.Proofs.Pipeline.Composition

/-! What is refused when a text is read need not be looked for when it runs: calls with a wrong count of
arguments, aggregations without one, and unknown functions. -/
namespace Tabulate.Query
open Pipeline (Program)

/-- The stages of a pipeline that is read are checked: every call has a count of arguments between the bounds of
its function, every aggregation without one is a count, and every field has the steps of its path. An expression
that is read is never evaluated to the error of an unknown function, by its kind and by its message. -/
theorem checked_of_parse :
    (∀ defaults source p, (Program.parse defaults source).outcome.1 = .ok p →
      ∀ stage ∈ p.stages, stage.IsChecked) ∧
    (∀ source e, Jsonata.Expression.parse source = .ok e → ∀ input error, e.evaluate input = .error error →
      (∀ name, error.fault ≠ .unknownFunction name) ∧
        ¬ "unknown function".toList <+: error.fault.message.toList) := by
  constructor
  · exact fun _ _ _ => Program.isChecked_of_parse
  · intro source e hparse input error herror
    have values : error.fault.IsOfValues := Jsonata.evaluate_failsByValues hparse input error herror
    refine ⟨fun name hname => ?_, values.message⟩
    rw [hname] at values
    exact values

theorem checked_of_parse_samples :
    ∃ p e error,
      (Program.parse .standard "where round(a, b) | summarize count()").outcome.1 = .ok p ∧
      p.stages.map Pipeline.Stage.verb = ["where", "summarize"] ∧ (∀ stage ∈ p.stages, stage.IsChecked) ∧
      (Program.parse .standard "where strcat(round(a, b, c)) = 1").outcome.1 =
        .error (.malformed 13 (.argumentCount "round" 3)) ∧
      Jsonata.Expression.parse "$sum(a)" = .ok e ∧
      e.evaluate (.object [("a", .string "x")]) = .error error ∧
      (∀ name, error.fault ≠ .unknownFunction name) ∧
      ¬ "unknown function".toList <+: error.fault.message.toList := by
  obtain ⟨p, hp, hverbs⟩ := exists_of_map_eq_ok (f := fun p : Program => p.stages.map Pipeline.Stage.verb)
    (x := (Program.parse .standard "where round(a, b) | summarize count()").outcome.1)
    (b := ["where", "summarize"]) (by decide +kernel)
  have hrefused : errorOf? (Program.parse .standard "where strcat(round(a, b, c)) = 1").outcome.1 =
      some (.malformed 13 (.argumentCount "round" 3)) := by
    decide +kernel
  obtain ⟨e, he, herror⟩ := exists_of_map_eq_ok
    (f := fun e : Jsonata.Expression => errorOf? (e.evaluate (.object [("a", .string "x")])))
    (x := Jsonata.Expression.parse "$sum(a)")
    (b := some ⟨0, .notNumbers "sum" "string"⟩) (by decide +kernel)
  obtain ⟨hstages, hexpressions⟩ := checked_of_parse
  exact ⟨p, e, _, hp, hverbs, hstages _ _ p hp, eq_error_of_errorOf? hrefused, he, eq_error_of_errorOf? herror,
    hexpressions _ e he _ _ (eq_error_of_errorOf? herror)⟩

end Tabulate.Query
