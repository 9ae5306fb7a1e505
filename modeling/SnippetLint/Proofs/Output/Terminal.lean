/-
Color is decoration.

A styled text stands between two sequences that switch styles.  A text that holds no escape character
begins no such sequence, whatever brackets and letters it holds, so removing all sequences gives back
what was styled.  Removing goes from left to right, and a part of what is shown is looked at with all
that follows it: `Shows` says that a styled part, with anything behind it, is stripped to the plain
part and the rest stripped.  In this form the parts of a report can be put together one by one.
-/
import Mathlib.Data.List.Forall2
import SnippetLint.Output.Terminal
import SnippetLint.Proofs.Text.Characters

namespace SnippetLint

/-! ### Texts without sequences that switch styles -/

namespace Style

/-- The character with which every sequence that switches styles begins. -/
def escape : Char := '\x1b'

/-- A character of the numbers in a sequence that switches styles. -/
def isParameter (c : Char) : Bool := c.isDigit || c == ';'

/-- What follows the sequence with which a text begins. -/
def afterSequence? : Text → Option Text
  | '\x1b' :: '[' :: rest =>
    match rest.dropWhile isParameter with
    | 'm' :: more => some more
    | _ => none
  | _ => none

theorem afterSequence?_of_ne {c : Char} (h : c ≠ escape) (t : Text) :
    afterSequence? (c :: t) = none := by
  unfold afterSequence?
  split
  · rename_i heq
    exact absurd (List.cons.inj heq).1 h
  · rfl

theorem length_lt_of_afterSequence? {t more : Text} (h : afterSequence? t = some more) :
    more.length < t.length := by
  unfold afterSequence? at h
  split at h
  · rename_i rest
    split at h
    · rename_i heq
      have hlength := (List.dropWhile_suffix isParameter (l := rest)).length_le
      rw [heq] at hlength
      cases h
      simp only [List.length_cons] at hlength ⊢
      omega
    · simp at h
  · simp at h

/-- A text without all sequences that switch styles. -/
def strip : Text → Text
  | [] => []
  | c :: rest =>
    match h : afterSequence? (c :: rest) with
    | some more =>
      have := length_lt_of_afterSequence? h
      strip more
    | none => c :: strip rest
termination_by t => t.length
decreasing_by
  · exact this
  · exact Nat.lt_succ_self rest.length

theorem strip_cons {c : Char} (h : c ≠ escape) (t : Text) : strip (c :: t) = c :: strip t := by
  rw [strip]
  split
  · rename_i heq
    rw [afterSequence?_of_ne h] at heq
    cases heq
  · rfl

theorem strip_of_afterSequence? {t more : Text} (h : afterSequence? t = some more) :
    strip t = strip more := by
  cases t with
  | nil => simp [afterSequence?] at h
  | cons c rest =>
      rw [strip]
      split
      · rename_i heq
        rw [h] at heq
        rw [Option.some.inj heq]
      · rename_i heq
        rw [h] at heq
        cases heq

/-- Text without an escape character is kept, whatever follows. -/
theorem strip_append {t : Text} (h : escape ∉ t) (rest : Text) :
    strip (t ++ rest) = t ++ strip rest := by
  induction t with
  | nil => rfl
  | cons c t ih =>
      rw [List.mem_cons, not_or] at h
      rw [List.cons_append, strip_cons (Ne.symm h.1), ih h.2, List.cons_append]

theorem strip_on (style : Style) (rest : Text) : strip (style.on.toList ++ rest) = strip rest := by
  cases style <;> exact strip_of_afterSequence? rfl

theorem strip_off (rest : Text) : strip (off.toList ++ rest) = strip rest :=
  strip_of_afterSequence? rfl

theorem renew_eq_self (style : Style) {t : Text} (h : escape ∉ t) : style.renew t = t := by
  fun_induction renew style t with
  | case1 rest ih => simp [escape] at h
  | case2 c rest _ ih =>
      rw [List.mem_cons, not_or] at h
      rw [ih h.2]
  | case3 => rfl

/-! ### Parts and what they show -/

/-- Without sequences that switch styles, the one string is the other, whatever follows. -/
def Shows (styled plain : String) : Prop :=
  ∀ rest, strip (styled.toList ++ rest) = plain.toList ++ strip rest

namespace Shows

theorem strip_eq {styled plain : String} (h : Shows styled plain) :
    strip styled.toList = plain.toList := by
  have hnil := h []
  rwa [List.append_nil, strip, List.append_nil] at hnil

theorem self {s : String} (h : escape ∉ s.toList) : Shows s s := strip_append h

theorem append {a b a' b' : String} (ha : Shows a a') (hb : Shows b b') :
    Shows (a ++ b) (a' ++ b') := by
  intro rest
  rw [String.toList_append, String.toList_append, List.append_assoc, ha, hb, List.append_assoc]

/-- A styled text shows the text. -/
theorem apply (style : Style) {t : String} (h : escape ∉ t.toList) : Shows (style.apply t) t := by
  intro rest
  rw [Style.apply, renew_eq_self style h, String.ofList_toList, String.toList_append,
    String.toList_append, List.append_assoc, List.append_assoc, strip_on, strip_append h, strip_off]

theorem join_map {α : Type} {l : List α} {f g : α → String} (h : ∀ x ∈ l, Shows (f x) (g x)) :
    Shows (String.join (l.map f)) (String.join (l.map g)) := by
  induction l with
  | nil => exact self (s := "") (by decide)
  | cons x rest ih =>
      rw [List.forall_mem_cons] at h
      rw [List.map_cons, List.map_cons, String.join_cons, String.join_cons]
      exact h.1.append (ih h.2)

theorem join {separator : String} (hs : escape ∉ separator.toList) {parts parts' : List String}
    (h : List.Forall₂ Shows parts parts') :
    Shows (Text.join separator parts) (Text.join separator parts') := by
  induction h with
  | nil => exact self (s := "") (by decide)
  | cons hfirst hrest ih =>
      cases hrest with
      | nil =>
          rw [Text.join, Text.join, String.intercalate_singleton, String.intercalate_singleton]
          exact hfirst
      | cons hnext hmore =>
          rw [Text.join, Text.join, String.intercalate_cons_cons, String.intercalate_cons_cons]
          exact (hfirst.append (self hs)).append ih

end Shows

end Style

/-! ### Results without escape characters -/

/-- Without the character that begins a sequence which switches styles. -/
def EscapeFree (s : String) : Prop := Style.escape ∉ s.toList

instance (s : String) : Decidable (EscapeFree s) :=
  inferInstanceAs (Decidable (Style.escape ∉ s.toList))

namespace EscapeFree

theorem append {a b : String} (ha : EscapeFree a) (hb : EscapeFree b) : EscapeFree (a ++ b) :=
  notMem_toList_append ha hb

theorem of_eq {s : String} {l : List Char} (h : s = String.ofList l) (hc : Style.escape ∉ l) :
    EscapeFree s := notMem_toList_of_eq l h hc

theorem toString (n : Nat) : EscapeFree (toString n) := notMem_toList_toString (by decide) n

end EscapeFree

theorem Severity.id_escapeFree (severity : Severity) : EscapeFree severity.id := by
  cases severity <;> exact .of_eq rfl (by decide)

theorem Language.display_escapeFree (language : Language) : EscapeFree language.display := by
  cases language <;> exact .of_eq rfl (by decide)

theorem Seconds.render_escapeFree (milliseconds : Nat) : EscapeFree (render milliseconds) :=
  (((EscapeFree.toString _).append (.of_eq rfl (by decide))).append (.toString _)).append
    (.toString _)

/-- A diagnostic whose parts hold no escape character. -/
structure Diagnostic.EscapeFree (d : Diagnostic) : Prop where
  id : SnippetLint.EscapeFree d.ruleId
  message : SnippetLint.EscapeFree d.message
  snippet : ∀ location ∈ d.location, SnippetLint.EscapeFree location.snippet

/-- A report in which no part that comes from outside holds an escape character. -/
structure FileReport.EscapeFree (f : FileReport) : Prop where
  path : SnippetLint.EscapeFree f.path
  diagnostics : ∀ d ∈ f.report.diagnostics, d.EscapeFree
  faultedRules : ∀ rule ∈ f.report.faultedRules, SnippetLint.EscapeFree rule

theorem Report.display_escapeFree {r : Report} (h : ∀ d ∈ r.diagnostics, EscapeFree d.message) :
    EscapeFree r.display := by
  have hmessages : EscapeFree (Text.join ", " (r.diagnostics.map (·.message))) := by
    refine notMem_toList_join (by decide) fun message hmessage => ?_
    obtain ⟨d, hd, rfl⟩ := List.mem_map.mp hmessage
    exact h d hd
  unfold Report.display
  dsimp only
  split
  · split
    · exact .of_eq rfl (by decide)
    · split
      · exact .of_eq rfl (by decide)
      · exact hmessages
  · exact hmessages

namespace Terminal

/-- The same way to show results, without styles. -/
def withoutColor (o : Terminal) : Terminal := { o with colored := false }

/-- The same way to show results, where the place that is written to shows no styles. -/
def withoutAnsi (o : Terminal) : Terminal := { o with ansi := false }

/-- The parts of a summary that count findings. -/
def countParts (o : Terminal) (b : Batch) : List (Option String) :=
  [o.countPart .red b.errorCount "error", o.countPart .yellow b.warningCount "warning",
    o.countPart .blue b.infoCount "info"]

/-! ### With and without styles -/

section

open Style

variable (o : Terminal)

theorem paint_withoutColor (style : Style) (t : String) : o.withoutColor.paint style t = t := rfl

theorem paint_withoutAnsi (style : Style) (t : String) : o.withoutAnsi.paint style t = t := by
  rw [paint, withoutAnsi, Bool.and_false]
  rfl

theorem shows_paint (style : Style) {t : String} (h : EscapeFree t) :
    Shows (o.paint style t) (o.withoutColor.paint style t) := by
  rw [paint_withoutColor]
  unfold paint
  split
  · exact .apply style h
  · exact .self h

theorem position_escapeFree (line : Nat) : EscapeFree (position line) := by
  refine .append ?_ (.toString line)
  rw [EscapeFree, String.toList_ofList, List.mem_replicate]
  exact fun h => absurd h.2 (by decide)

theorem shows_diagnosticLines {d : Diagnostic} (h : d.EscapeFree) :
    Shows (o.diagnosticLines d) (o.withoutColor.diagnosticLines d) := by
  have hseverity := o.shows_paint (severityStyle d.severity) d.severity.id_escapeFree
  have hrule := o.shows_paint .cyan h.id
  have hhead : ∀ {position}, EscapeFree position → Shows _ _ := fun hposition =>
    (((((((Shows.self hposition).append (.self (s := ": ") (by decide))).append hseverity).append
      (.self (s := "[") (by decide))).append hrule).append (.self (s := "]: ") (by decide))).append
      (.self h.message)).append (.self (s := "\n") (by decide))
  unfold diagnosticLines Diagnostic.line?
  cases hlocation : d.location with
  | none => exact hhead (.of_eq rfl (by decide))
  | some location =>
      have hhead := hhead (position_escapeFree location.line)
      have hbar := o.shows_paint .blue (.of_eq rfl (by decide) : EscapeFree "|")
      have hsource := ((((hhead.append (.self (s := "     ") (by decide))).append hbar).append
        (.self (s := " ") (by decide))).append (.self (h.snippet location hlocation))).append
        (.self (s := "\n") (by decide))
      change Shows (if o.showSource then _ else _) (if o.showSource then _ else _)
      split
      · exact hsource
      · exact hhead

theorem shows_faultLine {rule : String} (h : EscapeFree rule) :
    Shows (o.faultLine rule) (o.withoutColor.faultLine rule) := by
  have hnote := o.shows_paint .magenta (.of_eq rfl (by decide) : EscapeFree "note:")
  exact ((((Shows.self (s := "     ") (by decide)).append hnote).append
    (.self (s := " rule ") (by decide))).append (.self h)).append (.self (by decide))

theorem shows_fileLines {f : FileReport} (h : f.EscapeFree) :
    Shows (o.fileLines f) (o.withoutColor.fileLines f) := by
  have hheader : EscapeFree (f.path ++ " (" ++ f.report.language.display ++ ")") :=
    ((h.path.append (.of_eq rfl (by decide))).append f.report.language.display_escapeFree).append
      (.of_eq rfl (by decide))
  have hdisplay := Report.display_escapeFree fun d hd => (h.diagnostics d hd).message
  have hfindings : ∀ d ∈ f.report.findings, Shows (o.diagnosticLines d)
      (o.withoutColor.diagnosticLines d) :=
    fun d hd => o.shows_diagnosticLines (h.diagnostics d (List.mem_filter.mp hd).1)
  unfold fileLines
  refine ((((o.shows_paint .underline hheader).append (.self (by decide))).append ?_).append
    (.join_map fun rule hrule => o.shows_faultLine (h.faultedRules rule hrule)))
  split
  · exact ((Shows.self (by decide)).append (o.shows_paint .dimmed hdisplay)).append
      (.self (by decide))
  · exact .join_map hfindings

theorem shows_countPart (style : Style) (count : Nat) {word : String} (h : EscapeFree word) :
    Option.Rel Shows (o.countPart style count word) (o.withoutColor.countPart style count word) := by
  unfold countPart
  split
  · exact .none
  · refine .some (o.shows_paint style (((EscapeFree.toString count).append
      (.of_eq rfl (by decide))).append ?_))
    split
    · exact h
    · exact h.append (.of_eq rfl (by decide))

/-- What stands between the number of files and the end of the line is there with styles if it is
there without. -/
theorem shows_counts {counts counts' : List String} (h : List.Forall₂ Shows counts counts') :
    Shows (if counts.isEmpty then "" else ": " ++ Text.join ", " counts)
      (if counts'.isEmpty then "" else ": " ++ Text.join ", " counts') := by
  cases h with
  | nil => exact .self (by decide)
  | cons hfirst hrest =>
      exact (Shows.self (s := ": ") (by decide)).append (.join (by decide) (.cons hfirst hrest))

theorem shows_countParts (b : Batch) :
    List.Forall₂ (Option.Rel Shows) (o.countParts b) (o.withoutColor.countParts b) := by
  refine .cons ?_ (.cons ?_ (.cons ?_ .nil))
  all_goals exact o.shows_countPart _ _ (.of_eq rfl (by decide))

theorem shows_summaryLines (b : Batch) :
    Shows (o.summaryLines b) (o.withoutColor.summaryLines b) := by
  have hcounts := shows_counts (List.rel_filterMap (fun _ _ h => h) (o.shows_countParts b))
  have hword : EscapeFree (if b.fileCount = 1 then "file" else "files") := by
    split <;> exact .of_eq rfl (by decide)
  have hblank : EscapeFree " " := .of_eq rfl (by decide)
  have hprocessed : EscapeFree " processed" := .of_eq rfl (by decide)
  have hfiles := (((EscapeFree.toString b.fileCount).append hblank).append hword).append hprocessed
  exact (((((Shows.self hfiles).append hcounts).append (.self (s := "\n") (by decide))).append
    (.self (s := "Finished in ") (by decide))).append
    (.self (Seconds.render_escapeFree b.milliseconds))).append (.self (s := "s\n") (by decide))

theorem shows_batchLines {b : Batch} (h : ∀ f ∈ b.reports, f.EscapeFree) :
    Shows (o.batchLines b) (o.withoutColor.batchLines b) := by
  have hfiles := Shows.join_map fun f hf =>
    (o.shows_fileLines (h f hf)).append (.self (s := "\n") (by decide))
  refine hfiles.append ?_
  change Shows (if o.showStatistics then _ else _) (if o.showStatistics then _ else _)
  split
  · exact o.shows_summaryLines b
  · exact .self (by decide)

theorem withoutAnsi_diagnosticLines (d : Diagnostic) :
    o.withoutAnsi.diagnosticLines d = o.withoutColor.diagnosticLines d := by
  simp only [diagnosticLines, paint_withoutAnsi, paint_withoutColor]
  rfl

theorem withoutAnsi_faultLine (rule : String) :
    o.withoutAnsi.faultLine rule = o.withoutColor.faultLine rule := by
  simp only [faultLine, paint_withoutAnsi, paint_withoutColor]

theorem withoutAnsi_fileLines (f : FileReport) :
    o.withoutAnsi.fileLines f = o.withoutColor.fileLines f := by
  simp only [fileLines, paint_withoutAnsi, paint_withoutColor, funext o.withoutAnsi_diagnosticLines,
    funext o.withoutAnsi_faultLine]

theorem withoutAnsi_countPart (style : Style) (count : Nat) (word : String) :
    o.withoutAnsi.countPart style count word = o.withoutColor.countPart style count word := by
  simp only [countPart, paint_withoutAnsi, paint_withoutColor]

theorem withoutAnsi_summaryLines (b : Batch) :
    o.withoutAnsi.summaryLines b = o.withoutColor.summaryLines b := by
  simp only [summaryLines, withoutAnsi_countPart]

theorem withoutAnsi_batchLines (b : Batch) :
    o.withoutAnsi.batchLines b = o.withoutColor.batchLines b := by
  simp only [batchLines, withoutAnsi_fileLines, withoutAnsi_summaryLines]
  rfl

end

/-- **Color only decorates.**  Where no path, rule id, message, snippet or name of a faulted rule
holds an escape character, what is shown with styles is, once all sequences that switch styles are
removed, what is shown without: for a file and for a whole batch, with and without the lines of
findings and the summary.  On a place that shows no styles the two are the same to begin with, whatever
the reports hold. -/
theorem strip_lines (o : Terminal) :
    (∀ f : FileReport, f.EscapeFree →
      Style.strip (o.fileLines f).toList = (o.withoutColor.fileLines f).toList) ∧
    (∀ b : Batch, (∀ f ∈ b.reports, f.EscapeFree) →
      Style.strip (o.batchLines b).toList = (o.withoutColor.batchLines b).toList) ∧
    (∀ f : FileReport, o.withoutAnsi.fileLines f = o.withoutColor.fileLines f) ∧
    ∀ b : Batch, o.withoutAnsi.batchLines b = o.withoutColor.batchLines b :=
  ⟨fun _ hf => (o.shows_fileLines hf).strip_eq, fun _ hb => (o.shows_batchLines hb).strip_eq,
    o.withoutAnsi_fileLines, o.withoutAnsi_batchLines⟩

/-- Brackets and letters that would be a sequence behind an escape character are kept. -/
theorem strip_lines_brackets :
    let d : Diagnostic := ⟨"eqeqeq", .warning, "Expected [31m===[0m", some ⟨3, "x[0] == m;"⟩⟩
    let f : FileReport := ⟨"a.js", .javascript, [d], true, ["semicolon"]⟩
    let o : Terminal := {}
    f.EscapeFree ∧
      Style.strip (o.fileLines f).toList = (o.withoutColor.fileLines f).toList ∧
      Style.strip (o.batchLines ⟨[f], 7⟩).toList = (o.withoutColor.batchLines ⟨[f], 7⟩).toList ∧
      o.fileLines f ≠ o.withoutColor.fileLines f := by
  intro d f o
  have hd : d.EscapeFree := ⟨by decide, by decide, by decide⟩
  have hf : f.EscapeFree := ⟨by decide, List.forall_mem_singleton.mpr hd, by decide⟩
  obtain ⟨hfile, hbatch, -, -⟩ := strip_lines o
  exact ⟨hf, hfile f hf, hbatch ⟨[f], 7⟩ (List.forall_mem_singleton.mpr hf), by decide +kernel⟩

end Terminal

end SnippetLint
