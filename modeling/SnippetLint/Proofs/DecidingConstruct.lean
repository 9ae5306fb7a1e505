/-
Rules know the construct that decided the language.

A signature and a rule of the language it tells often look for the same construct, each with a pattern
of its own.  What is needed of such a pair is one direction: every match of the signature holds a match
of the rule's pattern, so that a text is never told to be of a language by a construct which the rules
of that language then miss.  The words in which a decision is reported name the signature that made it,
since no two signatures are reported alike.
-/
import Mathlib.Data.List.Nodup
import SnippetLint.Detection
import SnippetLint.Proofs.Pattern.Containment
import SnippetLint.Registry

namespace SnippetLint

open Pattern

/-! ### The signature that decided -/

namespace Signature

theorem nodup_reasons : (all.map (·.reason)).Nodup := by decide

theorem reason_none_notMem : Detection.none.reason ∉ all.map (·.reason) := by decide

/-- The signature whose reason is given occurs in the text. -/
theorem occursIn_of_reason {s : Signature} (hs : s ∈ all) {t : Text}
    (h : (Detection.ofText t).reason = s.reason) : s.occursIn t = true := by
  unfold Detection.ofText at h
  cases hfind : all.find? (·.occursIn t) with
  | none =>
      rw [hfind] at h
      exact absurd (h ▸ List.mem_map_of_mem hs) reason_none_notMem
  | some first =>
      rw [hfind] at h
      have hfirst : first ∈ all := List.mem_of_find?_eq_some hfind
      rw [← List.inj_on_of_nodup_map nodup_reasons hfirst hs h]
      simpa using List.find?_some hfind

/-! ### What rules look for in it -/

theorem systemInclude_encloses : Encloses systemInclude.pattern Cpp.includeDirective := by
  have hbracket : Narrows (text "<") (one (among "<\"")) := .one fun c hc => by
    rw [beq_iff_eq.mp hc]
    rfl
  exact (((Narrows.refl _).followed hbracket).encloses.front _).front _

theorem namespaceDeclaration_encloses :
    Encloses namespaceDeclaration.pattern CSharp.namespaceDeclaration :=
  ((Narrows.refl _).followed (.several fun _ hc => Bool.or_eq_true_iff.mpr (.inl hc))).encloses

theorem echoStatement_encloses : Encloses echoStatement.pattern Php.echoWord :=
  (((((encloses_wholeWord rfl).front _).front _).front _).front _).front _

/-- The word for a class stands behind a gap, and blanks stand between it and a name. -/
theorem publicClass_encloses : Encloses publicClass.pattern Java.typeDeclaration := by
  rintro a b new ⟨x, _, _, ⟨y, _, _, ⟨z, _, _, ⟨w, _, _, hpublic, hgap, -⟩, hclass, -⟩, hgap', -⟩,
    ⟨_, _, _, hletter, -, -⟩, -⟩
  -- what the rule looks for begins behind `public` and the first gap, and ends in the name
  obtain ⟨s, hs⟩ := hpublic.passes
  obtain ⟨u, hu⟩ := hgap.passes
  have hedge : Matches wordEdge z z [] := hclass.wordEdge_before (freeBefore_of_gap hgap) rfl
  have hone : Matches (oneOf ["class", "interface", "enum", "record"]) z y _ := .inl hclass
  exact ⟨s ++ u, z, _, _, hs.trans hu, ((hedge.followed hone).followed hgap').followed hletter⟩

end Signature

/-! ### Rules of the language that was told -/

/-- The built-in rule of a language with an id makes so many findings in a text. -/
def RuleFinds (language : Language) (id : String) (t : Text) (count : Nat) : Prop :=
  ∃ rules rule findings, Registry.builtin.resolve? language = some rules ∧
    rules.rule? id = some rule ∧ rule.check t = .ok findings ∧ findings.length = count

/-- A rule that asks for what stands in a signature is content with the texts that signature decided. -/
theorem ruleFinds_of_ifMissing {s : Signature} (hs : s ∈ Signature.all) {q : Pattern}
    (hq : Encloses s.pattern q) {language : Language} {id message : String} (rules : RuleSet)
    {rule : Rule} (hrules : Registry.builtin.resolve? language = some rules)
    (hrule : rules.rule? id = some rule)
    (hcheck : ∀ t, rule.check t = Finding.ifMissing (q.occursIn t) message) {t : Text}
    (h : (Detection.ofText t).reason = s.reason) : RuleFinds language id t 0 := by
  have hfound : q.occursIn t = true := hq.occursIn (Signature.occursIn_of_reason hs h)
  refine ⟨rules, rule, [], hrules, hrule, ?_, rfl⟩
  rw [hcheck, hfound]
  rfl

/-- **A construct that decided the language is found by the rules of that language.**  Rules that ask
for it have nothing to report, and the one rule that advises against it reports it once. -/
theorem deciding_construct_found (t : Text) :
    ((Detection.ofText t).reason = "C++ system include" → RuleFinds .cpp "missing-include" t 0) ∧
    ((Detection.ofText t).reason = "Java public class" → RuleFinds .java "require-class" t 0) ∧
    ((Detection.ofText t).reason = "C# namespace declaration" →
      RuleFinds .csharp "require-namespace" t 0) ∧
    ((Detection.ofText t).reason = "PHP echo statement" → RuleFinds .php "echo-output" t 0) ∧
    ((Detection.ofText t).reason = "Python print call" → RuleFinds .python "no-print" t 1) := by
  refine ⟨?cpp, ?java, ?csharp, ?php, fun h => ?python⟩
  case cpp =>
    exact ruleFinds_of_ifMissing (by simp [Signature.all]) Signature.systemInclude_encloses
      Cpp.ruleSet rfl rfl fun _ => rfl
  case java =>
    exact ruleFinds_of_ifMissing (by simp [Signature.all]) Signature.publicClass_encloses
      Java.ruleSet rfl rfl fun _ => rfl
  case csharp =>
    exact ruleFinds_of_ifMissing (by simp [Signature.all]) Signature.namespaceDeclaration_encloses
      CSharp.ruleSet rfl rfl fun _ => rfl
  case php =>
    exact ruleFinds_of_ifMissing (by simp [Signature.all]) Signature.echoStatement_encloses
      Php.ruleSet rfl rfl fun _ => rfl
  case python =>
    -- the signature and the rule look for the same pattern
    have hfound : Python.printCall.occursIn t = true :=
      Signature.occursIn_of_reason (s := Signature.printCall) (by simp [Signature.all]) h
    have hcheck : Python.noPrint t =
        .ok [.general "Avoid print statements. Use the logging module instead."] := by
      rw [Python.noPrint, hfound]
      rfl
    exact ⟨Python.ruleSet, _, _, rfl, rfl, hcheck, rfl⟩

theorem deciding_construct_found_each :
    RuleFinds .cpp "missing-include" "#include\t<map>".toList 0 ∧
    RuleFinds .java "require-class" "public  class É".toList 0 ∧
    RuleFinds .csharp "require-namespace" "namespace\n  _x;".toList 0 ∧
    RuleFinds .php "echo-output" "echo 'a', \"b\" ;".toList 0 ∧
    RuleFinds .python "no-print" "print(1); print(2)".toList 1 :=
  ⟨(deciding_construct_found _).1 (by decide +kernel),
    (deciding_construct_found _).2.1 (by decide +kernel),
    (deciding_construct_found _).2.2.1 (by decide +kernel),
    (deciding_construct_found _).2.2.2.1 (by decide +kernel),
    (deciding_construct_found _).2.2.2.2 (by decide +kernel)⟩

end SnippetLint
