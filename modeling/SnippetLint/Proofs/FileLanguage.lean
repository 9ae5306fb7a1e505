/-
The language that a file is linted as.

It is the one asked for, or else the configured one, or else the one that the file tells; a file that
cannot be read tells none.  A report is to name this language, and to say whether there is a rule set
for it, and then it makes no difference whether a language is asked for or configured.

The report on a file that can be read is made like that on a text, so all of this holds.  The one on a
file that cannot be read is put together without the configuration and without the registry: it says
that there is no rule set, whatever its language is, and it does not know a configured language.
-/
import SnippetLint.Linter

namespace SnippetLint

/-- The report is for a language, and says rightly whether there is a rule set for it. -/
structure Report.KeepsTo (report : Report) (registry : Registry) (language : Language) : Prop where
  named : report.language = language
  supported : report.supported = (registry.resolve? language).isSome

namespace Linter

/-- The language that a file is to be linted as, where its content is known if it can be read. -/
def fileLanguage (l : Linter) (path : String) (forced : Option Language)
    (content : Except FileError String) : Language :=
  let told := match content with
    | .error _ => .unknown
    | .ok t => (Detection.ofFile path t.toList).language
  (forced <|> l.config.language).getD told

/-- With a language configured. -/
def withLanguage (l : Linter) (language : Language) : Linter :=
  { l with config := { l.config with language := some language } }

section

variable {l : Linter} {path : String}

/-! ### A file that can be read -/

theorem lintAs_keepsTo (l : Linter) (language : Language) (t : Text) :
    (l.lintAs language t).KeepsTo l.registry language := by
  unfold lintAs
  cases h : l.registry.resolve? language with
  | none => exact ⟨rfl, by rw [h]; rfl⟩
  | some rules => exact ⟨rfl, by rw [h]; rfl⟩

/-- Once its language is known, a text is linted without a look at the configured one. -/
theorem lintAs_withLanguage (l : Linter) (configured language : Language) (t : Text) :
    (l.withLanguage configured).lintAs language t = l.lintAs language t := rfl

theorem lintContent_ok (l : Linter) (path : String) (forced : Option Language) (t : String) :
    l.lintContent path forced (.ok t) =
      ⟨path, l.lintAs (l.fileLanguage path forced (.ok t)) t.toList⟩ := rfl

theorem lintContent_ok_withLanguage (l : Linter) (path : String) (language : Language)
    (t : String) :
    l.lintContent path (some language) (.ok t) =
      (l.withLanguage language).lintContent path none (.ok t) := by
  rw [lintContent_ok, lintContent_ok, lintAs_withLanguage]
  rfl

/-! ### A file that cannot be read -/

theorem unreadable_keepsTo_iff {e : FileError} {registry : Registry} {named language : Language} :
    (unreadable named e).KeepsTo registry language ↔
      language = named ∧ registry.resolve? language = none := by
  constructor
  · rintro ⟨hnamed, hsupported⟩
    exact ⟨hnamed.symm, Option.not_isSome_iff_eq_none.mp (ne_true_of_eq_false hsupported.symm)⟩
  · rintro ⟨hnamed, hnone⟩
    exact ⟨hnamed.symm, by rw [hnone]; rfl⟩

theorem lintContent_error_withLanguage_iff {e : FileError} {language : Language} :
    l.lintContent path (some language) (.error e) =
        (l.withLanguage language).lintContent path none (.error e) ↔ language = .unknown := by
  simp [lintContent, unreadable]

/-! ### Any file -/

theorem not_isOk_error {e : FileError} :
    ¬ (Except.error e : Except FileError String).isOk = true := Bool.false_ne_true

theorem lintContent_keepsTo_iff {forced : Option Language} {content : Except FileError String} :
    (l.lintContent path forced content).report.KeepsTo l.registry
        (l.fileLanguage path forced content) ↔
      content.isOk = true ∨ l.fileLanguage path forced content = forced.getD .unknown ∧
        l.registry.resolve? (l.fileLanguage path forced content) = none := by
  cases content with
  | ok t =>
      refine iff_of_true ?_ (.inl rfl)
      rw [lintContent_ok]
      exact l.lintAs_keepsTo _ _
  | error e =>
      rw [or_iff_right not_isOk_error]
      exact unreadable_keepsTo_iff

theorem lintContent_withLanguage_iff {language : Language} {content : Except FileError String} :
    l.lintContent path (some language) content =
        (l.withLanguage language).lintContent path none content ↔
      content.isOk = true ∨ language = .unknown := by
  cases content with
  | ok t => exact iff_of_true (l.lintContent_ok_withLanguage path language t) (.inl rfl)
  | error e =>
      rw [or_iff_right not_isOk_error]
      exact lintContent_error_withLanguage_iff

end

/-- **A file that can be read is linted as the language it is to be linted as.**  The report names this
language and says whether there is a rule set for it, and it is the same whether a language is asked
for or configured.  For a file that cannot be read the first holds only where the language is the one
asked for, or unknown, and has no rule set, and the second only where the language is unknown. -/
theorem lintFile_language (l : Linter) (files : FileSystem) (forced : Option Language)
    (path : String) :
    let content := files.readText path
    let language := l.fileLanguage path forced content
    ((l.lintFile files forced path).report.KeepsTo l.registry language ↔
        content.isOk = true ∨
          language = forced.getD .unknown ∧ l.registry.resolve? language = none) ∧
      ∀ asked : Language,
        l.lintFile files (some asked) path = (l.withLanguage asked).lintFile files none path ↔
          content.isOk = true ∨ asked = .unknown :=
  ⟨lintContent_keepsTo_iff, fun _ => lintContent_withLanguage_iff⟩

/-- A missing file is reported as one without rules though there are rules for the language asked for,
and as one of an unknown language though a language is configured. -/
theorem lintFile_language_missing :
    let files : FileSystem := ⟨.directory [], []⟩
    let asked := (default.lintFile files (some .python) "missing.py").report
    let configured := ((default.withLanguage .python).lintFile files none "missing.py").report
    (default.registry.resolve? .python).isSome = true ∧ asked.language = .python ∧
      asked.supported = false ∧ configured.language = .unknown ∧ asked ≠ configured := by
  decide +kernel

end Linter

end SnippetLint
