/-
Rules about loose comparison.

JavaScript and PHP each have a rule that asks for the strict operator.  Both report what the scan of
the bytes finds, so they are as exact as the scan is: one finding for each loose operator, in the
order of their offsets and with the words for that operator, and no other.
-/
import SnippetLint.Proofs.Comparison
import SnippetLint.Rules.JavaScript
import SnippetLint.Rules.Php

namespace SnippetLint.LooseOperator

/-- A finding for each of several operators, at its offset. -/
def Reported (t : Text) (message : LooseOperator → String) :
    List (Nat × LooseOperator) → List Finding → Prop :=
  List.Forall₂ fun op => Finding.StandsAt t op.1 (message op.2)

theorem yields_reported {t : Text} {ops : List (Nat × LooseOperator)} (hok : findAll t = .ok ops)
    (hexact : ExactFrom (Text.bytes t) 0 ops) (message : LooseOperator → String) :
    Yields (do (← findAll t).mapM fun (offset, op) => Finding.atOffset t offset (message op))
      (Reported t message ops) := by
  rw [hok]
  exact Finding.yields_atOffsets (fun op hop => ((hexact.mem_iff ..).mp hop).2.isPlace)
    fun op => message op.2

/-- **Loose operators are found exactly.**  The scan ends on every text.  It lists each loose operator
once, from the first byte to the last, and nothing else, and the rules of JavaScript and PHP report
the listed operators one by one. -/
theorem findAll_exact (t : Text) :
    ∃ ops, findAll t = .ok ops ∧ ops.Pairwise (fun a b => a.1 < b.1) ∧
      (∀ offset op, (offset, op) ∈ ops ↔ OccursAt (Text.bytes t) offset op) ∧
      (∃ findings, JavaScript.strictEquality t = .ok findings ∧
        Reported t JavaScript.strictMessage ops findings) ∧
      ∃ findings, Php.strictComparison t = .ok findings ∧
        Reported t Php.strictMessage ops findings := by
  obtain ⟨ops, hok, hexact⟩ := findAll_yields t
  refine ⟨ops, hok, hexact.ascending, fun offset op => ?_, yields_reported hok hexact _,
    yields_reported hok hexact _⟩
  rw [hexact.mem_iff, and_iff_right (Nat.zero_le offset)]

example : findAll "a !== b == c; d != e".toList = .ok [(8, .equal), (16, .unequal)] := by cbv

end SnippetLint.LooseOperator
