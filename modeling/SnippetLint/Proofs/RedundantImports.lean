/-
Redundant imports.

The rule collects imports in two ways.  What a block holds is cut into lines, and an import is what
stands between the blanks of one; of a single import the keyword is taken off.  Both leave just the
name and the path as they are written (`ImportSpec.text`), from which both can be read back
(`ImportSpec.text_eq_iff`).  Sorting by the offsets puts the imports into the order in which they
occur, since each is reported at a place within itself (`found_lt`).  So an import is reported exactly
if one of the same name and path stands somewhere before it.
-/
import Mathlib.Data.List.Nodup
import SnippetLint.Proofs.ImportDeclarations

namespace SnippetLint.Go

open Pattern

/-! ### Occurrences -/

/-- An import where it occurs: what stands before it, and whether the keyword belongs to it alone. -/
structure Occurrence where
  before : Text
  alone : Bool
  spec : ImportSpec

namespace Occurrence

/-- What is written of an occurrence on its line. -/
def statement (o : Occurrence) : Text := (if o.alone then "import ".toList else []) ++ o.spec.text

/-- What is said about an occurrence, and on which line. -/
def finding (o : Occurrence) : Finding :=
  ⟨"Redundant import detected: " ++ String.ofList o.spec.text, some (o.before.count '\n' + 1),
    some (String.ofList o.statement)⟩

/-- The statement up to the place at which it is reported. -/
def opening (o : Occurrence) : Text := if o.alone then "import ".toList ++ o.spec.front else []

/-- What the rule knows of an occurrence. -/
def found (o : Occurrence) : Import := ⟨Text.size (o.before ++ o.opening), o.spec.text⟩

end Occurrence

/-- The imports of a declaration, given what stands before it. -/
def Declaration.occurrences (before : Text) (d : Declaration) : List Occurrence :=
  match d.imported with
  | .single spec => [⟨before ++ d.lead, true, spec⟩]
  | .block lines =>
    (Text.withBefore SpecLine.text (before ++ (d.lead ++ "import (\n".toList)) lines).map
      fun (before, line) => ⟨before ++ line.indent, false, line.spec⟩

namespace ImportFile

/-- All imports of a file, one after the other. -/
def occurrences (f : ImportFile) : List Occurrence :=
  (Text.withBefore Declaration.text f.clause f.declarations).flatMap fun (before, d) =>
    d.occurrences before

/-- The imports for which one of the same name and path occurs earlier in the file. -/
def redundant (f : ImportFile) : List Occurrence :=
  f.occurrences.filter fun o => f.occurrences.any fun o' =>
    decide (o'.before.length < o.before.length ∧
      o'.spec.name = o.spec.name ∧ o'.spec.path = o.spec.path)

end ImportFile

/-! ### Where they occur -/

namespace Occurrence

variable {o : Occurrence}

theorem exists_statement (o : Occurrence) : ∃ s, o.statement = o.opening ++ s ∧ s ≠ [] := by
  obtain ⟨c, rest, htext, -⟩ := o.spec.exists_text
  unfold statement opening
  split
  · exact ⟨o.spec.quoted, by simp [ImportSpec.text], List.cons_ne_nil _ _⟩
  · exact ⟨o.spec.text, rfl, htext ▸ List.cons_ne_nil c rest⟩

theorem newline_notMem_statement (o : Occurrence) : '\n' ∉ o.statement := by
  have hkeyword : '\n' ∉ if o.alone then "import ".toList else [] := by
    split <;> decide
  intro h
  rcases List.mem_append.mp h with h | h
  · exact hkeyword h
  · exact ImportSpec.notMem_text (by decide) h

/-- A statement has no blanks around it. -/
theorem trim_statement {lead : Text} (hlead : ∀ c ∈ lead, Unicode.isBlank c = true) :
    Text.trim (lead ++ o.statement) = o.statement := by
  have hfirst : o.statement.head?.any Unicode.isBlank = false := by
    unfold statement
    split
    · rfl
    · obtain ⟨c, rest, htext, hc, -⟩ := o.spec.exists_text
      rw [List.nil_append, htext]
      exact hc
  have hlast : o.statement.getLast?.any Unicode.isBlank = false := by
    rw [statement, List.getLast?_append, o.spec.getLast?_text]
    rfl
  have htrim := Text.trim_between hlead (List.forall_mem_nil _) hfirst hlast
  rwa [List.append_nil] at htrim

/-- An occurrence on a line of its own is reported on that line. -/
theorem atOffset_found {t after : Text} (ht : t = o.before ++ (o.statement ++ '\n' :: after))
    (hblank : ∀ c ∈ Text.lineTail o.before, Unicode.isBlank c = true) :
    Finding.atOffset t o.found.start ("Redundant import detected: " ++ o.found.string) =
      .ok o.finding := by
  obtain ⟨s, hs, -⟩ := o.exists_statement
  have hfeed := o.newline_notMem_statement
  rw [hs, List.mem_append, not_or] at hfeed
  have hsplit : t = (o.before ++ o.opening) ++ (s ++ '\n' :: after) := by simp [ht, hs]
  have hline : Text.lineTail (o.before ++ o.opening) ++ Text.lineHead (s ++ '\n' :: after) =
      Text.lineTail o.before ++ o.statement := by
    rw [Text.lineTail_append_of_notMem _ hfeed.1, Text.lineHead_append hfeed.2, hs, List.append_assoc]
  have hcount : (o.before ++ o.opening).count '\n' = o.before.count '\n' := by
    rw [List.count_append, List.count_eq_zero.mpr hfeed.1, Nat.add_zero]
  rw [Finding.atOffset, hsplit, found, Text.lineAt_append, hline, trim_statement hblank, hcount]
  rfl

end Occurrence

namespace Declaration

variable {d : Declaration} {before : Text} {o : Occurrence}

theorem occurrences_single {spec : ImportSpec} (h : d.imported = .single spec) :
    d.occurrences before = [⟨before ++ d.lead, true, spec⟩] := by
  rw [occurrences, h]

theorem occurrences_block {lines : List SpecLine} (h : d.imported = .block lines) :
    d.occurrences before = (Text.withBefore SpecLine.text (before ++ (d.lead ++ "import (\n".toList))
      lines).map fun x => ⟨x.1 ++ x.2.indent, false, x.2.spec⟩ := by
  rw [occurrences, h]

theorem alone_of_block {lines : List SpecLine} (h : d.imported = .block lines)
    (ho : o ∈ d.occurrences before) : o.alone = false := by
  rw [occurrences_block h] at ho
  obtain ⟨x, -, rfl⟩ := List.mem_map.mp ho
  rfl

/-- An occurrence in a declaration is what fills a line of it up. -/
theorem exists_append_of_mem_occurrences (h : o ∈ d.occurrences before) :
    before <+: o.before ∧ ∃ after, before ++ d.text = o.before ++ (o.statement ++ '\n' :: after) := by
  cases himported : d.imported with
  | single spec =>
      rw [occurrences_single himported] at h
      obtain rfl := List.mem_singleton.mp h
      refine ⟨List.prefix_append _ _, [], ?_⟩
      simp [text, himported, Imported.text_single, Occurrence.statement]
  | block lines =>
      rw [occurrences_block himported] at h
      obtain ⟨x, hx, rfl⟩ := List.mem_map.mp h
      obtain ⟨after, hafter⟩ := Text.exists_append_of_mem_withBefore hx
      have hprefix := Text.prefix_of_mem_withBefore hx
      refine ⟨((List.prefix_append _ _).trans hprefix).trans (List.prefix_append _ _),
        after ++ ")\n".toList, ?_⟩
      have htext : before ++ d.text = before ++ (d.lead ++ "import (\n".toList) ++
          lines.flatMap SpecLine.text ++ ")\n".toList := by
        simp [text, himported, Imported.text_block, Imported.inside]
      rw [htext, hafter]
      simp [SpecLine.text, Occurrence.statement]

theorem pairwise_occurrences (d : Declaration) (before : Text) :
    (d.occurrences before).Pairwise fun o o' => o.before ++ o.statement <+: o'.before := by
  cases himported : d.imported with
  | single spec =>
      rw [occurrences_single himported]
      exact List.pairwise_singleton _ _
  | block lines =>
      rw [occurrences_block himported]
      refine List.pairwise_map.mpr (Text.pairwise_withBefore.imp fun {x y} hxy => ?_)
      refine List.IsPrefix.trans ?_ (hxy.trans (List.prefix_append _ _))
      exact ⟨['\n'], by simp [SpecLine.text, Occurrence.statement]⟩

/-- Only blanks stand before an occurrence on its line. -/
theorem isBlank_of_mem_lineTail (hbefore : before.getLast? = some '\n')
    (h : o ∈ d.occurrences before) : ∀ c ∈ Text.lineTail o.before, Unicode.isBlank c = true := by
  cases himported : d.imported with
  | single spec =>
      rw [occurrences_single himported] at h
      obtain rfl := List.mem_singleton.mp h
      exact Text.isBlank_of_mem_lineTail hbefore (List.all_eq_true.mp d.all_lead)
  | block lines =>
      rw [occurrences_block himported] at h
      obtain ⟨x, hx, rfl⟩ := List.mem_map.mp h
      refine Text.isBlank_of_mem_lineTail (Text.getLast?_of_mem_withBefore ?_ ?_ hx)
        x.2.isBlank_of_mem_indent
      · exact fun line => List.getLast?_concat
      · rw [List.getLast?_append, List.getLast?_append]
        rfl

end Declaration

namespace ImportFile

theorem getLast?_before (f : ImportFile) {x : Text × Declaration}
    (h : x ∈ Text.withBefore Declaration.text f.clause f.declarations) : x.1.getLast? = some '\n' :=
  Text.getLast?_of_mem_withBefore Declaration.getLast?_text f.getLast?_clause h

/-- Where an import occurs, the rest of its line is blank. -/
theorem exists_append_of_mem_occurrences (f : ImportFile) {o : Occurrence} (h : o ∈ f.occurrences) :
    (∃ after, f.text = o.before ++ (o.statement ++ '\n' :: after)) ∧
      ∀ c ∈ Text.lineTail o.before, Unicode.isBlank c = true := by
  obtain ⟨x, hx, ho⟩ := List.mem_flatMap.mp h
  obtain ⟨after, hafter⟩ := Text.exists_append_of_mem_withBefore hx
  obtain ⟨-, after', hafter'⟩ := Declaration.exists_append_of_mem_occurrences ho
  refine ⟨⟨after' ++ after, ?_⟩, Declaration.isBlank_of_mem_lineTail (f.getLast?_before hx) ho⟩
  rw [text, hafter, ← List.append_assoc, hafter']
  simp

/-- Each import stands behind those before it. -/
theorem pairwise_occurrences (f : ImportFile) :
    f.occurrences.Pairwise fun o o' => o.before ++ o.statement <+: o'.before := by
  refine List.pairwise_flatMap.mpr ⟨fun x _ => x.2.pairwise_occurrences x.1, ?_⟩
  refine Text.pairwise_withBefore.imp fun {x y} hxy o ho o' ho' => ?_
  obtain ⟨-, after, hafter⟩ := Declaration.exists_append_of_mem_occurrences ho
  have hwithin : o.before ++ o.statement <+: x.1 ++ x.2.text :=
    ⟨'\n' :: after, by rw [hafter, List.append_assoc]⟩
  exact (hwithin.trans hxy).trans (Declaration.exists_append_of_mem_occurrences ho').1

end ImportFile

/-! ### What is collected -/

/-- A scan of a text sees something at a declaration, and goes on behind it. -/
def SeesAt {β : Type} (p : Pattern) (view : Found → List β) (t : Text)
    (seen : Text → Declaration → List β) : Prop :=
  ∀ {before : Text} {d : Declaration} {a b : Cursor} {last : Option Nat},
    (Cursor.start t).Passes before a → a.before = some '\n' → a.Passes d.text b → Unopened b.ahead →
    last.any (a.offset < ·) = false → ∃ last', last'.any (b.offset < ·) = false ∧
      (scan p a.before a.offset a.ahead last).flatMap view =
        seen before d ++ (scan p b.before b.offset b.ahead last').flatMap view

section

variable {t before : Text} {a b : Cursor} {last : Option Nat}

/-- The induction is on the declarations that are left; `before` is the text before them. -/
theorem flatMap_scan {β : Type} {p : Pattern} {view : Found → List β}
    {seen : Text → Declaration → List β} (hp : p.consumes = true) (hsees : SeesAt p view t seen)
    {l : List Declaration} (ha : (Cursor.start t).Passes before a) (hbefore : a.before = some '\n')
    (hahead : a.ahead = l.flatMap Declaration.text) (hlast : last.any (a.offset < ·) = false) :
    (scan p a.before a.offset a.ahead last).flatMap view =
      (Text.withBefore Declaration.text before l).flatMap fun x => seen x.1 x.2 := by
  induction l generalizing before a last with
  | nil =>
      rw [scan_nil hp hahead]
      rfl
  | cons d more ih =>
      obtain ⟨b, hb, hnext⟩ := Cursor.exists_passes hahead
      have hopen : Unopened b.ahead := hnext ▸ unopened_declarations more
      obtain ⟨last', hlast', hscan⟩ := hsees ha hbefore hb hopen hlast
      have hline : b.before = some '\n' := by rw [hb.before, d.getLast?_text, Option.some_or]
      rw [hscan, ih (ha.trans hb) hline hnext hlast']
      rfl

/-- What is collected from a block. -/
def collected (m : Found) : List Import :=
  (m.group? 1).toList.flatMap fun block => importsOnLines block.start (Text.linesWithEnds block.text)

theorem linesWithEnds_lines (lines : List SpecLine) :
    Text.linesWithEnds (lines.flatMap SpecLine.text) = lines.map SpecLine.text := by
  induction lines with
  | nil => rfl
  | cons line more ih =>
      have hfeed : '\n' ∉ line.indent ++ line.spec.text := fun h =>
        (List.mem_append.mp h).elim line.newline_notMem_indent (ImportSpec.notMem_text (by decide))
      have hsplit : (line :: more).flatMap SpecLine.text =
          line.indent ++ line.spec.text ++ '\n' :: more.flatMap SpecLine.text := by
        simp [SpecLine.text]
      rw [hsplit, Text.linesWithEnds_append hfeed, ih]
      rfl

/-- An import on a line of a block is what the line holds between its blanks. -/
theorem importsOnLines_cons (offset : Nat) (line : SpecLine) (more : List Text) :
    importsOnLines offset (line.text :: more) = ⟨offset + Text.size line.indent, line.spec.text⟩ ::
      importsOnLines (offset + Text.size line.text) more := by
  obtain ⟨c, rest, htext, hblank, hslash⟩ := line.spec.exists_text
  have htrim : Text.trim line.text = line.spec.text := by
    rw [SpecLine.text, List.append_assoc]
    exact line.spec.trim_text line.isBlank_of_mem_indent (List.forall_mem_singleton.mpr rfl)
  have hcomment : Text.startsWith line.spec.text "//" = false := by
    rw [htext]
    exact Bool.and_eq_false_iff.mpr (.inl (beq_false_of_ne hslash.symm))
  have hfront : c ∉ line.indent := fun hmem => by
    rw [line.isBlank_of_mem_indent c hmem] at hblank
    cases hblank
  have hfind : Text.find? line.spec.text line.text = some (Text.size line.indent) := by
    have hline : line.text = line.indent ++ c :: (rest ++ ['\n']) := by simp [SpecLine.text, htext]
    rw [hline, htext, Text.find?_append hfront]
  rw [importsOnLines, htrim, hcomment, hfind, htext]
  rfl

theorem importsOnLines_lines (before : Text) (lines : List SpecLine) :
    importsOnLines (Text.size before) (lines.map SpecLine.text) =
      (Text.withBefore SpecLine.text before lines).map fun x =>
        ⟨Text.size (x.1 ++ x.2.indent), x.2.spec.text⟩ := by
  induction lines generalizing before with
  | nil => rfl
  | cons line more ih =>
      rw [List.map_cons, importsOnLines_cons, ← Text.size_append, ← Text.size_append, ih]
      rfl

/-- What stands between the parentheses of a block begins with the end of a line. -/
theorem importsOnLines_inside {d : Declaration} {lines : List SpecLine} (before : Text)
    (h : d.imported = .block lines) :
    importsOnLines (Text.size (before ++ d.lead ++ "import (".toList))
        (Text.linesWithEnds (Imported.inside lines)) =
      ((d.occurrences before).filter (!·.alone)).map Occurrence.found := by
  have hopening : Text.size (before ++ d.lead ++ "import (".toList) + Text.size ['\n'] =
      Text.size (before ++ (d.lead ++ "import (\n".toList)) := by
    simp only [Text.size_append, Nat.add_assoc]
    rfl
  have hempty : ∀ offset rest, importsOnLines offset (['\n'] :: rest) =
      importsOnLines (offset + Text.size ['\n']) rest := fun _ _ => rfl
  have hall : (d.occurrences before).filter (!·.alone) = d.occurrences before :=
    List.filter_eq_self.mpr fun o ho => by rw [Declaration.alone_of_block h ho]; rfl
  rw [Imported.inside, Text.linesWithEnds, if_pos rfl, linesWithEnds_lines, hempty, hopening,
    importsOnLines_lines, hall, d.occurrences_block h, List.map_map]
  refine List.map_congr_left fun x _ => ?_
  simp [Occurrence.found, Occurrence.opening]

theorem seesAt_importBlock (t : Text) : SeesAt importBlock collected t fun before d =>
    ((d.occurrences before).filter (!·.alone)).map Occurrence.found := by
  intro before d a b last ha hbefore hpass hopen hlast
  have hlead := List.all_eq_true.mp d.all_lead
  rw [Declaration.text] at hpass
  cases himported : d.imported with
  | single spec =>
      refine ⟨last, hpass.any_lt hlast, ?_⟩
      have hline : a.Passes (d.lead ++ ("import ".toList ++ spec.text) ++ ['\n']) b := by
        rw [himported, Imported.text_single] at hpass
        simpa using hpass
      have hparen : '(' ∉ d.lead ++ ("import ".toList ++ spec.text) := by
        intro h
        rcases List.mem_append.mp h with h | h
        · exact absurd (hlead _ h) (by decide)
        · exact (List.mem_append.mp h).elim (by decide) (ImportSpec.notMem_text (by decide))
      rw [scan_importBlock_of_line hline hparen hopen]
      simp [Declaration.occurrences_single himported]
  | block lines =>
      have hsplit : a.Passes
          (d.lead ++ ("import (".toList ++ (Imported.inside lines ++ [')']) ++ ['\n'])) b := by
        rw [himported, Imported.text_block] at hpass
        simpa using hpass
      obtain ⟨c, hc, hnext⟩ := hsplit.exists_between
      obtain ⟨e, he, hend⟩ := hnext.exists_between
      obtain ⟨m, hm, hstop, hgroup⟩ := exists_matchAt_importBlock he
        (any_isWord_of_lead hc hlead hbefore) (Imported.close_notMem_inside lines)
      refine ⟨some e.offset, hend.any_lt (by simp), ?_⟩
      rw [scan_importBlock_of_blanks hc hlead, scan_of_some (by decide) he hm hstop (hc.any_lt hlast),
        scan_importBlock_of_blanks hend (List.forall_mem_singleton.mpr rfl), List.flatMap_cons]
      refine congrArg (· ++ _) ?_
      rw [collected, hgroup, (ha.trans hc).offset_start, ← Text.size_append, Option.toList_some,
        List.flatMap_singleton]
      exact importsOnLines_inside before himported

/-- What is left of a single import without its keyword is what is written of the import. -/
theorem trim_dropImportWords {lead : Text} (spec : ImportSpec)
    (hlead : ∀ c ∈ lead, Unicode.isBlank c = true) :
    Text.trim (dropImportWords (Text.trimStart (lead ++ ("import ".toList ++ spec.text)))) =
      spec.text := by
  have hstart : Text.trimStart (lead ++ ("import ".toList ++ spec.text)) =
      "import ".toList ++ spec.text := by
    rw [Text.trimStart, List.dropWhile_append_of_pos hlead]
    rfl
  have hdrop : dropImportWords ("import ".toList ++ spec.text) = [' '] ++ (spec.text ++ []) := by
    rw [List.append_nil]
    rfl
  rw [hstart, hdrop]
  exact spec.trim_text (List.forall_mem_singleton.mpr rfl) (List.forall_mem_nil _)

theorem singleImport?_eq {lead after : Text} {spec : ImportSpec} {m : Found}
    (ht : t = before ++ (lead ++ ("import ".toList ++ spec.text)) ++ after)
    (hlead : ∀ c ∈ lead, Unicode.isBlank c = true) (hwhole : m.whole.start = Text.size before)
    (hgroup : m.group? 2 =
      some ⟨Text.size (before ++ (lead ++ ("import ".toList ++ spec.front))), spec.quoted⟩) :
    singleImport? t m =
      .ok (some ⟨Text.size (before ++ (lead ++ ("import ".toList ++ spec.front))), spec.text⟩) := by
  have hsplit : t = before ++ (lead ++ ("import ".toList ++ spec.front)) ++ spec.quoted ++ after := by
    rw [ht, ImportSpec.text]
    simp
  have htext : lead ++ ("import ".toList ++ spec.front) ++ spec.quoted =
      lead ++ ("import ".toList ++ spec.text) := by
    rw [ImportSpec.text]
    simp
  rw [singleImport?, hgroup, hwhole]
  dsimp only [Span.stop]
  rw [slice_of_append hsplit, htext]
  show Except.ok (some (Span.mk _ _)) = _
  rw [trim_dropImportWords spec hlead]

/-- A line of a block holds no single import. -/
theorem scan_importLine_lines {lines : List SpecLine}
    (hpass : a.Passes (lines.flatMap SpecLine.text) b) :
    scan importLine a.before a.offset a.ahead last =
      scan importLine b.before b.offset b.ahead last := by
  induction lines generalizing a with
  | nil => rw [hpass.eq_of_nil]
  | cons line more ih =>
      rw [List.flatMap_cons] at hpass
      obtain ⟨c, hc, hmore⟩ := hpass.exists_between
      obtain ⟨x, rest, htext, hblank, -⟩ := line.spec.exists_text
      rw [← ih hmore]
      rw [SpecLine.text, List.append_assoc, htext] at hc
      refine scan_importLine_of_line hc line.isBlank_of_mem_indent hblank ?_ ?_
      · exact htext ▸ ImportSpec.notMem_text (by decide)
      · exact htext ▸ not_opens_spec line.spec _

theorem seesAt_importLine (t : Text) :
    SeesAt importLine (fun m => [singleImport? t m]) t fun before d =>
      ((d.occurrences before).filter (·.alone)).map fun o => .ok (some o.found) := by
  intro before d a b last ha hbefore hpass hopen hlast
  have hlead := List.all_eq_true.mp d.all_lead
  rw [Declaration.text] at hpass
  cases himported : d.imported with
  | single spec =>
      have hsplit : a.Passes (d.lead ++ ("import ".toList ++ spec.text) ++ ['\n']) b := by
        rw [himported, Imported.text_single] at hpass
        simpa using hpass
      obtain ⟨c, hc, hend⟩ := hsplit.exists_between
      obtain ⟨m, hm, hwhole, hgroup⟩ := exists_matchAt_importLine hc hlead hbefore
      have hstop : m.whole.stop = c.offset := by rw [hwhole, Span.stop, hc.offset]
      have hquote : c.before = some '"' := by
        rw [hc.before, List.getLast?_append, List.getLast?_append, spec.getLast?_text]
        rfl
      have hnone : scan importLine c.before c.offset c.ahead (some c.offset) =
          scan importLine b.before b.offset b.ahead (some c.offset) := by
        rw [scan_none hend.ahead (matchAt_importLine_of_before hquote (by decide)),
          ← (hend.step hend.ahead).eq_of_nil]
      refine ⟨some c.offset, hend.any_lt (by simp), ?_⟩
      rw [scan_of_some (by decide) hc hm hstop hlast, hnone, List.flatMap_cons]
      refine congrArg (· ++ _) ?_
      rw [ha.offset_start, ← Text.size_append] at hgroup
      rw [ha.offset_start] at hwhole
      have ht : t = before ++ (d.lead ++ ("import ".toList ++ spec.text)) ++ c.ahead := by
        rw [(ha.trans hc).eq_append]
      dsimp only
      rw [singleImport?_eq ht hlead (congrArg Span.start hwhole) hgroup, d.occurrences_single himported,
        ← List.append_assoc]
      rfl
  | block lines =>
      have hsplit : a.Passes (d.lead ++ ("import (".toList ++ ['\n']) ++
          lines.flatMap SpecLine.text ++ ([] ++ ([')'] ++ ['\n']))) b := by
        rw [himported, Imported.text_block, Imported.inside] at hpass
        simpa using hpass
      obtain ⟨e, he, hend⟩ := hsplit.exists_between
      obtain ⟨c, hc, hlines⟩ := he.exists_between
      refine ⟨last, hpass.any_lt hlast, ?_⟩
      rw [scan_importLine_of_line hc hlead rfl (by decide) (not_opens_block _),
        scan_importLine_lines hlines,
        scan_importLine_of_line hend (List.forall_mem_nil _) rfl (by decide)
          fun h => absurd h.head? (by simp)]
      dsimp only
      rw [List.filter_eq_nil_iff.mpr fun o ho => by simp [Declaration.alone_of_block himported ho]]
      rfl

end

/-! ### Collecting and sorting -/

section

variable (f : ImportFile)

/-- What the package clause holds is passed, and then one declaration after the other. -/
theorem flatMap_findAll {β : Type} {p : Pattern} {view : Found → List β}
    {seen : Text → Declaration → List β} (hp : p.consumes = true) (hsees : SeesAt p view f.text seen)
    (hclause : ∀ {b}, (Cursor.start f.text).Passes f.clause b → Unopened b.ahead →
      p.findAll f.text = scan p b.before b.offset b.ahead none) :
    (p.findAll f.text).flatMap view =
      (Text.withBefore Declaration.text f.clause f.declarations).flatMap fun x => seen x.1 x.2 := by
  have hsplit : (Cursor.start f.text).ahead =
      f.clause ++ f.declarations.flatMap Declaration.text := rfl
  obtain ⟨a, ha, hahead⟩ := Cursor.exists_passes hsplit
  have hbefore : a.before = some '\n' := by
    rw [ha.before, f.getLast?_clause, Option.some_or]
  rw [hclause ha (hahead ▸ unopened_declarations f.declarations)]
  exact flatMap_scan hp hsees ha hbefore hahead rfl

theorem collected_blocks : ((importBlock.findGroups 1 f.text).flatMap fun block =>
      importsOnLines block.start (Text.linesWithEnds block.text)) =
    (f.occurrences.filter (!·.alone)).map Occurrence.found := by
  have hscan := flatMap_findAll f (by decide) (seesAt_importBlock f.text) fun hpass hopen => ?_
  · have hview : ((importBlock.findGroups 1 f.text).flatMap fun block =>
        importsOnLines block.start (Text.linesWithEnds block.text)) =
        (importBlock.findAll f.text).flatMap collected := by
      rw [findGroups, List.filterMap_eq_flatMap_toList, List.flatMap_assoc]
      rfl
    rw [hview, hscan, ImportFile.occurrences, List.filter_flatMap, List.map_flatMap]
  · refine scan_importBlock_of_line hpass (fun hmem => ?_) hopen
    rcases List.mem_append.mp hmem with hmem | hmem
    · exact absurd hmem (by decide)
    · exact absurd (List.all_eq_true.mp f.all_package _ hmem) (by decide)

theorem collected_singles : (importLine.findAll f.text).filterMapM (singleImport? f.text) =
    .ok ((f.occurrences.filter (·.alone)).map Occurrence.found) := by
  have hscan := flatMap_findAll f (by decide) (seesAt_importLine f.text) fun hpass hopen => ?_
  · refine filterMapM_eq_ok_of_map ?_
    rw [List.map_eq_flatMap, hscan, ImportFile.occurrences, List.filter_flatMap, List.map_flatMap]
  · have hfeed : '\n' ∉ "package ".toList ++ f.package := by
      intro hmem
      rcases List.mem_append.mp hmem with hmem | hmem
      · exact absurd hmem (by decide)
      · exact absurd (List.all_eq_true.mp f.all_package _ hmem) (by decide)
    have hclause : f.clause = [] ++ ('p' :: ("ackage ".toList ++ f.package) ++ ['\n']) := rfl
    rw [hclause] at hpass
    exact scan_importLine_of_line hpass (List.forall_mem_nil _) rfl hfeed
      fun h => absurd h.head? (by simp)

/-- An import is reported at a place within its statement. -/
theorem found_lt {o o' : Occurrence} (h : o.before ++ o.statement <+: o'.before) :
    o.found.start < o'.found.start := by
  obtain ⟨s, hs, hne⟩ := o.exists_statement
  obtain ⟨rest, hrest⟩ := h
  have hpos := Text.size_pos_of_ne_nil hne
  have hstart : o'.found.start = Text.size (o.before ++ o.opening) + Text.size s +
      Text.size (rest ++ o'.opening) := by
    rw [Occurrence.found, ← hrest, hs, ← Text.size_append, ← Text.size_append]
    simp only [List.append_assoc]
  rw [hstart]
  show Text.size (o.before ++ o.opening) < _
  omega

/-- What is collected out of order is sorted by the places. -/
theorem mergeSort_eq_of_perm {l l' : List Import} (hperm : l.Perm l')
    (h : l'.Pairwise fun a b => a.start < b.start) :
    l.mergeSort (fun a b => a.start ≤ b.start) = l' := by
  have hsorted : (l.mergeSort fun a b => a.start ≤ b.start).Pairwise
      fun a b => a.start ≤ b.start := by
    refine (List.pairwise_mergeSort ?_ ?_ l).imp of_decide_eq_true
    · simp only [decide_eq_true_eq]
      exact fun a b c => Nat.le_trans
    · simp only [Bool.or_eq_true, decide_eq_true_eq]
      exact fun a b => Nat.le_total a.start b.start
  have hplaces : (l'.map Span.start).Nodup := List.pairwise_map.mpr (h.imp Nat.ne_of_lt)
  have hall : (l.mergeSort fun a b => a.start ≤ b.start).Perm l' :=
    (List.mergeSort_perm l _).trans hperm
  refine hall.eq_of_pairwise (fun a b ha hb hle hge => ?_) hsorted (h.imp Nat.le_of_lt)
  exact List.inj_on_of_nodup_map hplaces (hall.mem_iff.mp ha) hb (Nat.le_antisymm hle hge)

/-- **The imports of a file are collected in the order in which they occur.** -/
theorem imports_eq : imports f.text = .ok (f.occurrences.map Occurrence.found) := by
  have hperm : ((f.occurrences.filter (!·.alone)).map Occurrence.found ++
      (f.occurrences.filter (·.alone)).map Occurrence.found).Perm
        (f.occurrences.map Occurrence.found) := by
    have hparts := List.filter_append_perm (fun o : Occurrence => !o.alone) f.occurrences
    simp only [Bool.not_not] at hparts
    rw [← List.map_append]
    exact hparts.map Occurrence.found
  have hsort := mergeSort_eq_of_perm hperm
    (List.pairwise_map.mpr (f.pairwise_occurrences.imp found_lt))
  rw [imports, collected_blocks, collected_singles]
  exact congrArg Except.ok hsort

/-! ### Exactness -/

theorem repeats_imports :
    repeats Span.text (f.occurrences.map Occurrence.found) = f.redundant.map Occurrence.found := by
  have hearlier : f.occurrences.Pairwise fun o o' => o.before.length < o'.before.length := by
    refine f.pairwise_occurrences.imp fun {o o'} h => ?_
    obtain ⟨s, hs, hne⟩ := o.exists_statement
    have hle := h.length_le
    have hpos := List.length_pos_iff.mpr hne
    rw [hs] at hle
    simp only [List.length_append] at hle
    omega
  rw [repeats_map, repeats_eq_filter (fun h => Nat.lt_asymm h) hearlier]
  refine congrArg (List.map Occurrence.found) (List.filter_congr fun o _ => ?_)
  refine congrArg (f.occurrences.any ·) (funext fun o' => ?_)
  rw [Bool.eq_iff_iff, Bool.and_eq_true_iff, beq_iff_eq, decide_eq_true_iff, decide_eq_true_iff,
    and_comm]
  exact and_congr_right' ImportSpec.text_eq_iff

/-- **Reported are the imports for which one of the same name and path stands before,** each once, from
the first to the last, and on the lines on which they stand. -/
theorem redundantImport_exact :
    redundantImport f.text = .ok (f.redundant.map Occurrence.finding) := by
  rw [redundantImport, imports_eq]
  show Finding.atSpans f.text (repeats Span.text (f.occurrences.map Occurrence.found)) _ = _
  rw [repeats_imports, Finding.atSpans, List.mapM_map]
  refine mapM_eq_ok fun o ho => ?_
  obtain ⟨⟨after, htext⟩, hblank⟩ := f.exists_append_of_mem_occurrences (List.mem_filter.mp ho).1
  exact o.atOffset_found htext hblank

end

/-- A block and two single imports, of which the second repeats a line of the block. -/
def groupedImports : ImportFile where
  package := "main".toList
  declarations := [
    { lead := ['\n']
      imported := .block [
        { indent := ['\t'], spec := { name := none, path := "fmt".toList } },
        { indent := ['\t'], spec := { name := some ['m'], path := "math/rand".toList } }] },
    { lead := [], imported := .single { name := none, path := "math/rand".toList } },
    { lead := [], imported := .single { name := some ['m'], path := "math/rand".toList } }]

example : groupedImports.redundant.map Occurrence.finding =
    [⟨"Redundant import detected: m \"math/rand\"", some 8, some "import m \"math/rand\""⟩] := by
  decide +kernel

end SnippetLint.Go
