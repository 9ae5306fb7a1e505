/-
The three things that a report can say.

There are no rules for the language, or the rules found nothing, or here is what they found.  Each
of the ways to look at a report tells which it is, the line that shows it too: that line is a fixed
text in the first two cases, and in the third it begins with a message of a rule, which is no
beginning of either text.  All this holds whichever of the rule sets of this library are registered.
-/
import SnippetLint.Proofs.Findings
import SnippetLint.Proofs.Wording

namespace SnippetLint

/-! ### Registries -/

namespace Registry

/-- The registry in which rule sets have been registered one after another. -/
def ofRuleSets (registered : List RuleSet) : Registry := registered.foldl register empty

theorem resolve?_register (r : Registry) (added : RuleSet) (language : Language) :
    (r.register added).resolve? language =
      if added.language = language ∧ language ≠ .unknown then some added
      else r.resolve? language := by
  unfold register
  by_cases hunknown : added.language = .unknown
  · rw [if_pos hunknown, if_neg fun h => h.2 (h.1 ▸ hunknown)]
  · rw [if_neg hunknown, resolve?, List.find?_cons]
    by_cases h : added.language = language
    · rw [if_pos ⟨h, h ▸ hunknown⟩]
      simp [h]
    · rw [if_neg fun hboth => h hboth.1, decide_eq_false h, List.find?_filter]
      refine congrArg (fun p => r.ruleSets.find? p) (funext fun rules => ?_)
      have hother : rules.language = language → rules.language ≠ added.language :=
        fun heq hadded => h (hadded.symm.trans heq)
      simpa using hother

theorem resolve?_foldl_register_eq_none {r : Registry} {registered : List RuleSet}
    {language : Language} : (registered.foldl register r).resolve? language = none ↔
      r.resolve? language = none ∧
        ∀ rules ∈ registered, rules.language = language → language = .unknown := by
  induction registered generalizing r with
  | nil => simp
  | cons added rest ih =>
      rw [List.foldl_cons, ih, resolve?_register, List.forall_mem_cons, ← and_assoc]
      refine and_congr_left fun _ => ?_
      by_cases h : added.language = language ∧ language ≠ .unknown
      · rw [if_pos h]
        exact ⟨fun hsome => by simp at hsome, fun hnone => absurd (hnone.2 h.1) h.2⟩
      · rw [if_neg h]
        exact ⟨fun hnone => ⟨hnone, fun heq => by_contra fun hne => h ⟨heq, hne⟩⟩, And.left⟩

theorem resolve?_ofRuleSets_eq_none {registered : List RuleSet} {language : Language} :
    (ofRuleSets registered).resolve? language = none ↔
      ∀ rules ∈ registered, rules.language = language → language = .unknown := by
  rw [ofRuleSets, resolve?_foldl_register_eq_none]
  exact and_iff_right rfl

theorem mem_of_resolve?_ofRuleSets {registered : List RuleSet} {language : Language}
    {rules : RuleSet} (h : (ofRuleSets registered).resolve? language = some rules) :
    rules ∈ registered ∧ rules.language = language := by
  refine ⟨?_, by simpa using List.find?_some h⟩
  rcases mem_of_mem_foldl_register (List.mem_of_find?_eq_some h) with h | h
  · exact h
  · simp [empty] at h

theorem builtinRuleSets_language : ∀ rules ∈ builtinRuleSets, rules.language ≠ .unknown := by
  decide

theorem builtinRuleSets_telling :
    ∀ rules ∈ builtinRuleSets, ∀ rule ∈ rules.rules, Check.Says Telling rule.check := by
  simp only [builtinRuleSets, List.forall_mem_cons]
  exact ⟨Cpp.ruleSet_telling, Java.ruleSet_telling, CSharp.ruleSet_telling, Go.ruleSet_telling,
    Php.ruleSet_telling, TypeScript.ruleSet_telling, JavaScript.ruleSet_telling,
    Python.ruleSet_telling, Html.ruleSet_telling, by simp⟩

end Registry

/-! ### Lines that show a report -/

theorem Telling.ne_unsupportedDisplay {s : String} (h : Telling s) :
    s ≠ Report.unsupportedDisplay := by
  rintro rfl
  obtain ⟨a, b, c, rest, hchars, hne, -⟩ := h
  have hfirst : Report.unsupportedDisplay.toList = 'U' :: 'n' :: 's' :: _ := String.toList_ofList
  rw [hfirst, List.cons.injEq, List.cons.injEq, List.cons.injEq] at hchars
  obtain ⟨rfl, rfl, rfl, -⟩ := hchars
  exact hne rfl

theorem Telling.ne_cleanDisplay {s : String} (h : Telling s) : s ≠ Report.cleanDisplay := by
  rintro rfl
  obtain ⟨a, b, c, rest, hchars, -, hne⟩ := h
  have hfirst : Report.cleanDisplay.toList = 'N' :: 'o' :: ' ' :: _ := String.toList_ofList
  rw [hfirst, List.cons.injEq, List.cons.injEq, List.cons.injEq] at hchars
  obtain ⟨rfl, rfl, rfl, -⟩ := hchars
  exact hne rfl

theorem displays_ne : Report.cleanDisplay ≠ Report.unsupportedDisplay := by decide

/-- What is joined begins with the first part. -/
theorem Telling.join {message : String} (h : Telling message) (separator : String)
    (more : List String) : Telling (Text.join separator (message :: more)) := by
  cases more with
  | nil =>
      rw [Text.join, String.intercalate_singleton]
      exact h
  | cons next rest =>
      rw [Text.join, String.intercalate_cons_cons]
      exact (h.append _).append _

namespace Report

theorem display_of_findings {r : Report} (h : ∀ d ∈ r.diagnostics, d.isFinding = true) :
    r.display = Text.join ", " (r.diagnostics.map (·.message)) := by
  unfold display
  dsimp only
  split
  · rename_i only honly
    obtain ⟨hclean, hunsupported⟩ :=
      Diagnostic.isFinding_iff.mp (h only (by rw [honly]; exact List.mem_singleton_self only))
    rw [if_neg (by simp [hunsupported]), if_neg (by simp [hclean])]
  · rfl

theorem telling_display {r : Report} (hne : r.diagnostics ≠ [])
    (hfindings : ∀ d ∈ r.diagnostics, d.isFinding = true)
    (htelling : ∀ d ∈ r.diagnostics, Telling d.message) : Telling r.display := by
  rw [display_of_findings hfindings]
  obtain ⟨first, rest, hcons⟩ := List.exists_cons_of_ne_nil hne
  rw [hcons] at htelling ⊢
  exact (htelling first List.mem_cons_self).join ..

end Report

/-! ### Messages in a report -/

/-- What was found says what the rules with its id say. -/
theorem RuleRun.says_of_mem_found {P : String → Prop} {language : Language} {filter : RuleFilter}
    {t : Text} {rules : List Rule} {d : Diagnostic} (hd : d ∈ found language filter t rules)
    (h : ∀ rule ∈ rules, rule.id = d.ruleId → Check.Says P rule.check) : P d.message := by
  obtain ⟨rule, hrule, -, hreported⟩ := mem_found.mp hd
  have hid := ruleId_of_mem_reported hreported
  obtain ⟨finding, hfinding, rfl⟩ := List.mem_map.mp hreported
  unfold Rule.findings at hfinding
  split at hfinding
  · rename_i found hok
    exact h rule hrule hid.symm t found hok finding hfinding
  · simp at hfinding

theorem RuleRun.telling_of_mem_found {language : Language} {filter : RuleFilter} {t : Text}
    {rules : List Rule} (h : ∀ rule ∈ rules, Check.Says Telling rule.check) {d : Diagnostic}
    (hd : d ∈ found language filter t rules) : Telling d.message :=
  says_of_mem_found hd fun rule hrule _ => h rule hrule

/-! ### Verdicts -/

/-- What a report says of a text. -/
inductive Verdict where
  /-- There are no rules for its language. -/
  | unsupported
  /-- The rules found nothing. -/
  | clean
  /-- The rules found something. -/
  | found
  deriving DecidableEq, Repr

/-- What a report holds that says so, where some rule sets are registered and rules are filtered. -/
def Verdict.Holds (registered : List RuleSet) (filter : RuleFilter) (r : Report) : Verdict → Prop
  | unsupported => (∀ rules ∈ registered, rules.language ≠ r.language) ∧ r.supported = false ∧
      r.diagnostics = [.unsupported] ∧ r.faultedRules = []
  | clean => ∃ rules ∈ registered, rules.language = r.language ∧ r.supported = true ∧
      r.diagnostics = [.clean rules.cleanMessage]
  | found => ∃ rules ∈ registered, rules.language = r.language ∧ r.supported = true ∧
      r.diagnostics ≠ [] ∧ ∀ d ∈ r.diagnostics, d.isFinding = true ∧
        ∃ rule ∈ rules.rules, rule.id = d.ruleId ∧ filter.isEnabled r.language rule.id = true

/-- A report says exactly one of the three, and each way to look at it tells which. -/
def Report.Settled (registered : List RuleSet) (filter : RuleFilter) (r : Report) : Prop :=
  ∃ verdict : Verdict, (∀ v : Verdict, v.Holds registered filter r ↔ v = verdict) ∧
    (r.isClean = true ↔ verdict = .clean) ∧
    (r.findings = [] ↔ verdict ≠ .found) ∧
    (r.display = unsupportedDisplay ↔ verdict = .unsupported) ∧
    (r.display = cleanDisplay ↔ verdict = .clean)

section

variable {registered : List RuleSet} {filter : RuleFilter} {r : Report}

/-- A report says no two of the three. -/
theorem Verdict.Holds.unique {v w : Verdict} (hv : v.Holds registered filter r)
    (hw : w.Holds registered filter r) : v = w := by
  have hfound : ∀ message, r.diagnostics = [.clean message] →
      ¬ Verdict.Holds registered filter r .found := by
    rintro message hclean ⟨rules, -, -, -, -, hall⟩
    rw [hclean] at hall
    have hfinding : (Diagnostic.clean message).isFinding = true :=
      (hall _ (List.mem_singleton_self _)).1
    simp [Diagnostic.isFinding, Diagnostic.isClean, Diagnostic.clean] at hfinding
  cases v with
  | unsupported =>
      obtain ⟨-, hsupported, -⟩ := hv
      cases w with
      | unsupported => rfl
      | clean | found =>
          obtain ⟨rules, -, -, hs, -⟩ := hw
          exact absurd (hs.symm.trans hsupported) (by decide)
  | clean =>
      obtain ⟨rules, -, -, hsupported, hclean⟩ := hv
      cases w with
      | unsupported => exact absurd (hsupported.symm.trans hw.2.1) (by decide)
      | clean => rfl
      | found => exact absurd hw (hfound _ hclean)
  | found =>
      cases w with
      | unsupported =>
          obtain ⟨rules, -, -, hs, -⟩ := hv
          exact absurd (hs.symm.trans hw.2.1) (by decide)
      | clean =>
          obtain ⟨rules, -, -, -, hclean⟩ := hw
          exact absurd hv (hfound _ hclean)
      | found => rfl

theorem Report.settled_of_holds (verdict : Verdict) (h : verdict.Holds registered filter r)
    (hclean : r.isClean = true ↔ verdict = .clean) (hfindings : r.findings = [] ↔ verdict ≠ .found)
    (hunsupportedDisplay : r.display = unsupportedDisplay ↔ verdict = .unsupported)
    (hcleanDisplay : r.display = cleanDisplay ↔ verdict = .clean) :
    r.Settled registered filter := by
  refine ⟨verdict, fun v => ⟨fun hv => hv.unique h, ?_⟩, hclean, hfindings, hunsupportedDisplay,
    hcleanDisplay⟩
  rintro rfl
  exact h

end

section

variable {registered : List RuleSet} {filter : RuleFilter}

theorem Report.settled_unsupported {language : Language}
    (h : ∀ rules ∈ registered, rules.language ≠ language) :
    (unsupported language).Settled registered filter := by
  have hclean : (unsupported language).isClean = false := rfl
  have hfindings : (unsupported language).findings = [] := rfl
  have hdisplay : (unsupported language).display = unsupportedDisplay := rfl
  refine settled_of_holds .unsupported ⟨h, rfl, rfl, rfl⟩ ?_ ?_ ?_ ?_
  · simp [hclean]
  · simp [hfindings]
  · simp [hdisplay]
  · simp [hdisplay, Ne.symm displays_ne]

theorem Report.settled_clean {rules : RuleSet} (h : rules ∈ registered) (faulted : List String) :
    Settled registered filter ⟨rules.language, [.clean rules.cleanMessage], true, faulted⟩ := by
  have hclean : isClean ⟨rules.language, [.clean rules.cleanMessage], true, faulted⟩ = true := rfl
  have hfindings : findings ⟨rules.language, [.clean rules.cleanMessage], true, faulted⟩ = [] := rfl
  have hdisplay : display ⟨rules.language, [.clean rules.cleanMessage], true, faulted⟩ =
    cleanDisplay := rfl
  refine settled_of_holds .clean ⟨rules, h, rfl, rfl, rfl⟩ ?_ ?_ ?_ ?_
  · simp [hclean]
  · simp [hfindings]
  · simp [hdisplay, displays_ne]
  · simp [hdisplay]

theorem Report.settled_found {rules : RuleSet} (h : rules ∈ registered)
    (hbuiltin : rules ∈ Registry.builtinRuleSets) {t : Text} (faulted : List String)
    (hne : RuleRun.found rules.language filter t rules.rules ≠ []) :
    Settled registered filter
      ⟨rules.language, RuleRun.found rules.language filter t rules.rules, true, faulted⟩ := by
  have hids := Registry.builtinRuleSets_properId rules hbuiltin
  have hfinding : ∀ d ∈ RuleRun.found rules.language filter t rules.rules, d.isFinding = true :=
    fun d hd => RuleRun.isFinding_of_mem_found hids hd
  have htelling : Telling (display
      ⟨rules.language, RuleRun.found rules.language filter t rules.rules, true, faulted⟩) :=
    telling_display hne hfinding fun d hd =>
      RuleRun.telling_of_mem_found (Registry.builtinRuleSets_telling rules hbuiltin) hd
  refine settled_of_holds .found ⟨rules, h, rfl, rfl, hne, fun d hd => ?_⟩ ?_ ?_ ?_ ?_
  · obtain ⟨rule, hrule, henabled, hreported⟩ := RuleRun.mem_found.mp hd
    exact ⟨hfinding d hd, rule, hrule, (RuleRun.ruleId_of_mem_reported hreported).symm, henabled⟩
  · obtain ⟨d, hd⟩ := List.exists_mem_of_ne_nil _ hne
    have hclean : d.isClean = false := (Diagnostic.isFinding_iff.mp (hfinding d hd)).1
    have hsome : ∃ d ∈ RuleRun.found rules.language filter t rules.rules, d.isClean = false :=
      ⟨d, hd, hclean⟩
    simpa [isClean] using hsome
  · rw [findings, List.filter_eq_self.mpr hfinding]
    simp [hne]
  · simp [htelling.ne_unsupportedDisplay]
  · simp [htelling.ne_cleanDisplay]

end

namespace Linter

section

variable {registered : List RuleSet} (h : ∀ rules ∈ registered, rules ∈ Registry.builtinRuleSets)
  (config : Config) (language : Language) (t : Text)

include h

theorem lintAs_settled :
    (lintAs ⟨.ofRuleSets registered, config⟩ language t).Settled registered
      (filter ⟨.ofRuleSets registered, config⟩) := by
  unfold lintAs
  cases hresolve : (Registry.ofRuleSets registered).resolve? language with
  | none =>
      refine Report.settled_unsupported fun rules hrules heq => ?_
      have hunknown : language = .unknown :=
        Registry.resolve?_ofRuleSets_eq_none.mp hresolve rules hrules heq
      exact Registry.builtinRuleSets_language rules (h rules hrules) (heq.trans hunknown)
  | some rules =>
      obtain ⟨hmem, rfl⟩ := Registry.mem_of_resolve?_ofRuleSets hresolve
      dsimp only
      rw [RuleRun.diagnostics_eq_found]
      split
      · exact Report.settled_clean hmem _
      · rename_i hne
        exact Report.settled_found hmem (h rules hmem) _ hne

end

/-- **A report says one thing, and shows it.**  Whichever rule sets of this library are registered
and however they are configured, a report on a text is that of a language without rules, or a clean
one, or one of findings, never two of these; and whether it is clean, whether it has findings and
the line that shows it all tell which. -/
theorem report_settled {registered : List RuleSet}
    (h : ∀ rules ∈ registered, rules ∈ Registry.builtinRuleSets) (config : Config) (t : Text) :
    let l : Linter := ⟨.ofRuleSets registered, config⟩
    (∀ language, (l.lintAs language t).language = language ∧
        (l.lintAs language t).Settled registered l.filter) ∧
      (l.lint t).Settled registered l.filter := by
  refine ⟨fun language => ⟨?_, lintAs_settled h config language t⟩, lintAs_settled h config _ t⟩
  unfold lintAs
  cases (Registry.ofRuleSets registered).resolve? language <;> rfl

theorem report_settled_php :
    let registered := [Php.ruleSet, Go.ruleSet]
    let l : Linter := ⟨.ofRuleSets registered, {}⟩
    let t := "<?php echo $x;".toList
    (∀ rules ∈ registered, rules ∈ Registry.builtinRuleSets) ∧
      (l.lintAs .php t).Settled registered l.filter ∧
      (l.lintAs .php t).display = Report.cleanDisplay ∧
      (l.lintAs .go t).findings.map (·.ruleId) = ["package-declaration", "func-main", "no-semicolons"] ∧
      (l.lintAs .python t).display = Report.unsupportedDisplay := by
  intro registered l t
  have hmem : ∀ rules ∈ registered, rules ∈ Registry.builtinRuleSets := by
    simp [registered, Registry.builtinRuleSets]
  exact ⟨hmem, ((report_settled hmem {} t).1 .php).2, by decide +kernel, by decide +kernel,
    by decide +kernel⟩

end Linter

end SnippetLint
