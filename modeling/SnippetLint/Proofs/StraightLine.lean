/-
Blocks without branches, and the code in them that never runs.

A straight-line block is a list of statements between braces, one to a line: plain ones, returns, and
returns that a condition on the same line guards.  Its text is rendered from the statements, so it is
known beforehand what the search for code behind a return ought to find: wherever a statement stands
directly behind an unguarded return, the offset of its first character, and nothing else.

The search looks at a return in three ways, and each is settled for a line wherever it stands.  The
pattern finds the returns of the lines, since no other part of the text holds the word
(`findSpans_text`).  Whether a return is guarded is told from what stands before it on its line, or
from the line before, which ends in a brace or a semicolon (`Closes`).  And what stands behind it, past
blanks, is the statement on the next line or the closing brace (`exists_blanks`).
-/
import SnippetLint.Proofs.Bodies
import SnippetLint.Proofs.Numerals
import SnippetLint.Proofs.Pattern.Search
import SnippetLint.Proofs.Returns
import SnippetLint.Proofs.Text.Joined

namespace SnippetLint

/-! ### Words of texts put together -/

namespace Words

open Unicode

theorem all_concat_append {c : Char} (hc : isWord c = false) (a b : Text) :
    all (a ++ c :: b) = all a ++ all b := by
  rw [← texts_spans, spans, spansFrom_append hc, List.map_append, texts_spansFrom, texts_spansFrom]
  rfl

/-- Where no word goes on from one text into the next, the words are those of both. -/
theorem all_append {a b : Text}
    (h : a.getLast?.any isWord = false ∨ b.head?.any isWord = false) :
    all (a ++ b) = all a ++ all b := by
  rcases h with h | h
  · rcases List.eq_nil_or_concat' a with rfl | ⟨front, c, rfl⟩
    · rfl
    · have hc : isWord c = false := by simpa using h
      rw [List.append_assoc, List.singleton_append, all_concat_append hc, all_concat_of_not_isWord hc]
  · cases b with
    | nil => simp [all, Text.pieces]
    | cons c rest =>
        have hc : isWord c = false := h
        rw [all_concat_append hc, all_cons_of_not_isWord hc]

theorem all_eq_nil {t : Text} (h : ∀ c ∈ t, isWord c = false) : all t = [] := by
  induction t with
  | nil => rfl
  | cons c rest ih =>
      rw [List.forall_mem_cons] at h
      rw [all_cons_of_not_isWord h.1, ih h.2]

theorem takeWhile_append_of_edge {a b : Text} (hne : a ≠ [])
    (h : a.getLast?.any isWord = false ∨ b.head?.any isWord = false) :
    (a ++ b).takeWhile isWord = a.takeWhile isWord := by
  rcases h with h | h
  · obtain ⟨front, c, rfl⟩ := (List.eq_nil_or_concat' a).resolve_left hne
    have hc : isWord c = false := by simpa using h
    rw [List.append_assoc, List.singleton_append, takeWhile_isWord_append hc,
      takeWhile_isWord_append hc]
  · cases b with
    | nil => rw [List.append_nil]
    | cons c rest => exact takeWhile_isWord_append h a rest

/-- A word that stands in a text is one of its words. -/
theorem mem_all {pre w post : Text} (hne : w ≠ []) (hw : ∀ c ∈ w, isWord c = true)
    (hpre : pre.getLast?.any isWord = false) (hpost : post.head?.any isWord = false) :
    w ∈ all (pre ++ w ++ post) := by
  have hspan : ⟨Text.size pre, w⟩ ∈ spans (pre ++ w ++ post) :=
    mem_spans_iff.mpr ⟨hne, hw, pre, post, rfl, rfl, hpre, hpost⟩
  rw [← texts_spans]
  exact List.mem_map_of_mem hspan

end Words

/-! ### How texts begin and end -/

namespace Text

/-- What begins like a word without a certain character does so before that character. -/
theorem startsWith_append_cons {word : String} {c : Char} (hc : c ∉ word.toList) (t more : Text) :
    startsWith (t ++ c :: more) word = startsWith t word := by
  rw [startsWith, startsWith, Bool.eq_iff_iff, List.isPrefixOf_iff_prefix,
    List.isPrefixOf_iff_prefix]
  refine ⟨fun h => ?_, fun h => h.trans (List.prefix_append t _)⟩
  rcases List.prefix_or_prefix_of_prefix h (List.prefix_append t (c :: more)) with hword | ⟨s, hs⟩
  · exact hword
  · cases s with
    | nil => exact ⟨[], by simpa using hs.symm⟩
    | cons d rest =>
        rw [← hs, List.prefix_append_right_inj, List.cons_prefix_cons] at h
        exact absurd (hs ▸ List.mem_append_right t (h.1 ▸ List.mem_cons_self)) hc

theorem trim_concat (t : Text) {c : Char} (hc : Unicode.isBlank c = false) :
    ∃ s, trim (t ++ [c]) = s ++ [c] := by
  have hself : trimStart [c] = [c] := List.dropWhile_cons_of_neg (by simp [hc])
  obtain ⟨s, hs⟩ := Returns.trimStart_suffix (List.suffix_append t [c])
  refine ⟨s, ?_⟩
  rw [hself] at hs
  rw [trim, ← hs, trimEnd, List.reverse_append, List.reverse_singleton,
    List.singleton_append, List.dropWhile_cons_of_neg (by simp [hc]), List.reverse_cons,
    List.reverse_reverse]

/-- A text ends with a word only if its last character is that of the word. -/
theorem endsWith_concat_eq_false (t : Text) {c : Char} {word : String} (hne : word.toList ≠ [])
    (hc : word.toList.getLast? ≠ some c) : endsWith (t ++ [c]) word = false := by
  rw [endsWith, Bool.eq_false_iff, Ne, List.isSuffixOf_iff_suffix]
  rintro ⟨front, hfront⟩
  have hlast := congrArg List.getLast? hfront
  rw [List.getLast?_append_of_ne_nil front hne, List.getLast?_concat] at hlast
  exact hc hlast

/-- The last line of a text that ends behind a character other than a blank. -/
theorem exists_last_line (front : Text) {c : Char} (hc : Unicode.isBlank c = false) :
    ∃ earlier last s, lines (front ++ [c, '\n']) = earlier ++ [last] ∧
      isBlank last = false ∧ trim last = s ++ [c] := by
  obtain ⟨head, hfront, hhead⟩ := exists_endsLine front
  have hfeed : c ≠ '\n' := by
    rintro rfl
    exact absurd hc (by decide)
  have hline : '\n' ∉ lineTail front ++ [c] := by
    simp [newline_notMem_lineTail, Ne.symm hfeed]
  let raw : Text := lineTail front ++ [c] ++ ['\n']
  have hlines : lines (front ++ [c, '\n']) = lines head ++ [dropLineEnd raw] := by
    have hsplit : front ++ [c, '\n'] = head ++ (lineTail front ++ [c] ++ '\n' :: []) := by
      conv_lhs => rw [hfront]
      simp
    rw [hsplit, lines_join hhead]
    congr 1
    rw [lines, linesWithEnds_append hline]
    rfl
  obtain ⟨s, hs⟩ := trim_concat (lineTail front) hc
  have htrim : trim (dropLineEnd raw) = s ++ [c] := by
    rw [trim_dropLineEnd, trim_append_blanks _ (List.all_eq_true.mp (by decide)), hs]
  refine ⟨lines head, dropLineEnd raw, s, hlines, Bool.eq_false_iff.mpr fun hall => ?_, htrim⟩
  have hnil := trim_append_blanks [] (List.all_eq_true.mp hall)
  rw [List.nil_append, htrim] at hnil
  exact absurd hnil (by simp [trim, trimStart, trimEnd])

end Text

namespace Returns

open Pattern Unicode Words

/-! ### Statements -/

/-- What can stand within a statement: no sign that ends one, and no return. -/
structure Part where
  text : Text
  plain : text.all (except ";\x7b\x7d") = true := by decide
  oneLine : '\n' ∉ text := by decide
  returnless : "return".toList ∉ all text := by decide

/-- A part that can be a statement of its own: it is shown as it is, and it does not begin like what
goes on behind a return without being part of the block. -/
structure PlainPart extends Part where
  trimmed : Text.trim text = text := by decide
  ne_nil : text ≠ [] := by decide
  begins : ["case ", "default", "//", "/*", "#"].all (fun word => !Text.startsWith text word) = true := by
    decide

/-- The value of a return, behind a blank. -/
def valueText (value : Option Part) : Text := (value.map fun e => ' ' :: e.text).getD []

/-- A return with a value or without. -/
def returning (value : Option Part) : Text := "return".toList ++ (valueText value ++ [';'])

theorem plain_of_mem_valueText {value : Option Part} :
    ∀ c ∈ valueText value, except ";\x7b\x7d" c = true := by
  cases value with
  | none => exact List.forall_mem_nil _
  | some e => exact List.forall_mem_cons.mpr ⟨by decide, List.all_eq_true.mp e.plain⟩

/-- The word of a return ends before its value. -/
theorem edge_valueText (value : Option Part) (more : Text) :
    (valueText value ++ ';' :: more).head?.any isWord = false := by
  cases value <;> rfl

/-- A statement of a block without branches. -/
inductive Statement where
  | plain (s : PlainPart)
  | unguarded (value : Option Part)
  | guarded (condition : Part) (value : Option Part)

namespace Statement

def text : Statement → Text
  | plain s => s.text ++ [';']
  | unguarded value => returning value
  | guarded condition value => "if (".toList ++ (condition.text ++ ") ".toList) ++ returning value

/-- What stands before the return of a statement, or all of it. -/
def lead : Statement → Text
  | plain s => s.text ++ [';']
  | unguarded _ => []
  | guarded condition _ => "if (".toList ++ (condition.text ++ ") ".toList)

/-- The return of a statement. -/
def return? : Statement → Option Text
  | plain _ => none
  | unguarded value | guarded _ value => some (returning value)

/-- Whether nothing behind the statement runs. -/
def stops : Statement → Bool
  | unguarded _ => true
  | _ => false

theorem text_eq (s : Statement) : s.text = s.lead ++ s.return?.getD [] := by
  cases s with
  | plain s => exact (List.append_nil _).symm
  | unguarded value => rfl
  | guarded condition value => rfl

end Statement

/-- A statement on a line of its own. -/
structure Line where
  indent : Text
  statement : Statement
  all_indent : indent.all (fun c => isBlank c && c != '\n') = true := by decide

/-- The line as it is written. -/
def Line.text (l : Line) : Text := l.indent ++ (l.statement.text ++ ['\n'])

/-- Statements between braces.  What stands before and behind them may be anything without a return. -/
structure Block where
  opening : Text
  lines : List Line
  closing : Text
  rest : Text
  opening_returnless : "return".toList ∉ all opening := by decide
  blank_closing : closing.all isBlank = true := by decide
  rest_returnless : "return".toList ∉ all rest := by decide

namespace Block

def front (b : Block) : Text := b.opening ++ ['\x7b', '\n']

def back (b : Block) : Text := b.closing ++ '\x7d' :: b.rest

def text (b : Block) : Text := b.front ++ (b.lines.flatMap Line.text ++ b.back)

end Block

/-! ### What stands on a line -/

namespace Statement

theorem returnless_lead (s : Statement) : "return".toList ∉ all s.lead := by
  cases s with
  | plain s =>
      rw [lead, all_concat_of_not_isWord (by decide)]
      exact s.returnless
  | unguarded _ => exact List.not_mem_nil
  | guarded condition value =>
      have hnot := condition.returnless
      have hedge : ("if (".toList).getLast?.any isWord = false := by decide
      have hfront : all "if (".toList = [['i', 'f']] := by decide
      have hback : all ") ".toList = [] := by decide
      rw [lead, all_append (.inl hedge), all_append (.inr (by rfl)), hfront, hback]
      simpa using hnot

theorem exists_value {s : Statement} {r : Text} (h : s.return? = some r) :
    ∃ value, r = returning value := by
  cases s with
  | plain s => cases h
  | unguarded value | guarded condition value => exact ⟨value, (Option.some.inj h).symm⟩

theorem oneLine_lead (s : Statement) : '\n' ∉ s.lead := by
  cases s with
  | plain s =>
      have hline := s.oneLine
      simp [lead, hline]
  | unguarded value => exact List.not_mem_nil
  | guarded condition value =>
      have hline := condition.oneLine
      simp [lead, hline]

end Statement

namespace Line

/-- What stands on a line before the return. -/
def lead (l : Line) : Text := l.indent ++ l.statement.lead

/-- Where the return of a line stands, if the line has one. -/
def span? (before : Text) (l : Line) : Option Span :=
  l.statement.return?.map fun text => ⟨Text.size (before ++ l.lead), text⟩

section

variable (l : Line)

theorem text_eq : l.text = l.lead ++ (l.statement.return?.getD [] ++ ['\n']) := by
  rw [text, lead, l.statement.text_eq]
  simp

theorem isBlank_of_mem_indent : ∀ c ∈ l.indent, isBlank c = true :=
  fun c hc => (Bool.and_eq_true_iff.mp (List.all_eq_true.mp l.all_indent c hc)).1

theorem oneLine_lead : '\n' ∉ l.lead := by
  intro hmem
  rcases List.mem_append.mp hmem with hmem | hmem
  · exact absurd (List.all_eq_true.mp l.all_indent _ hmem) (by decide)
  · exact l.statement.oneLine_lead hmem

theorem edge_indent : l.indent.getLast?.any isWord = false :=
  any_isWord_eq_false fun c hc =>
    isWord_eq_false_of_isBlank (l.isBlank_of_mem_indent c (List.mem_of_getLast? hc))

theorem returnless_lead : "return".toList ∉ all l.lead := by
  rw [lead, all_append (.inl l.edge_indent),
    all_eq_nil fun c hc => isWord_eq_false_of_isBlank (l.isBlank_of_mem_indent c hc)]
  exact l.statement.returnless_lead

/-- No word is left open where the return of a line begins. -/
theorem edge_lead : l.lead.getLast?.any isWord = false := by
  have hindent := l.edge_indent
  unfold lead
  cases l.statement with
  | plain s => rw [Statement.lead, ← List.append_assoc, List.getLast?_concat]; rfl
  | unguarded value => rwa [Statement.lead, List.append_nil]
  | guarded condition value =>
      rw [Statement.lead, List.getLast?_append, List.getLast?_append, List.getLast?_append]
      rfl

end

end Line

/-- Where the returns of several lines stand. -/
def returnSpans (before : Text) : List Line → List Span
  | [] => []
  | l :: more => (l.span? before).toList ++ returnSpans (before ++ l.text) more

/-! ### Where the pattern matches -/

section

variable {here a b : Cursor} {w : Text} {last : Option Nat}

/-- A return begins with the word for it. -/
theorem matchAt_statement_eq_none (h : ¬ (atStart here = true ∧ wordAt here = "return".toList)) :
    matchAt statement here = none := by
  refine matchAt_eq_none fun stop new hmatch => ?_
  obtain ⟨_, _, _, ⟨m, first, _, hword, -, -⟩, -, -⟩ := hmatch
  have hsome := isSome_matchAt_iff.mpr ⟨m, first, hword⟩
  rw [recognises_wholeWord (by decide) (List.all_eq_true.mp (by decide))] at hsome
  simp at hsome
  exact h hsome

/-- A scan passes a part of a text in which the word does not stand, if no word goes on behind it. -/
theorem scan_of_returnless (hpass : a.Passes w b) (hw : "return".toList ∉ all w)
    (hedge : b.before.any isWord = false ∨ b.FreeAhead) :
    scan statement a.before a.offset a.ahead last =
      scan statement b.before b.offset b.ahead last := by
  -- A word that begins within the part is one of the part's words: where a match can begin no word is
  -- open, and none goes on behind the part.
  refine scan_of_none hpass fun {u v here} hsplit hne hu hv => matchAt_statement_eq_none ?_
  rintro ⟨hstart, hword⟩
  obtain ⟨hbefore, -⟩ := Bool.and_eq_true_iff.mp hstart
  have hpre : u.getLast?.any isWord = false := by
    rw [hu.before] at hbefore
    cases hlast : u.getLast? with
    | none => rfl
    | some c => simpa [hlast] using hbefore
  have hends : v.getLast?.any isWord = false ∨ b.ahead.head?.any isWord = false := by
    refine hedge.imp_left fun hfree => ?_
    rw [hv.before, List.getLast?_eq_some_getLast hne] at hfree
    rw [List.getLast?_eq_some_getLast hne]
    exact hfree
  rw [wordAt, hv.ahead, takeWhile_append_of_edge hne hends] at hword
  have hmem := mem_all (by decide) (List.all_eq_true.mp (by decide)) hpre
    (head?_dropWhile_isWord v) (w := "return".toList)
  rw [← hword, List.append_assoc, List.takeWhile_append_dropWhile, ← hsplit, hword] at hmem
  exact hw hmem

/-- At a return all of it is found, up to the semicolon. -/
theorem exists_matchAt_statement {value : Option Part} (hpass : a.Passes (returning value) b)
    (hbefore : a.before.any isWord = false) :
    ∃ m, matchAt statement a = some m ∧ m.whole = ⟨a.offset, returning value⟩ := by
  have hwhole : (Found.between a b []).whole = ⟨a.offset, returning value⟩ := Span.between_eq hpass
  obtain ⟨c, hc, hrest⟩ := hpass.exists_between
  obtain ⟨d, hd, he⟩ := hrest.exists_between
  have hstart : a.atWordEdge = true := by
    rw [Cursor.atWordEdge, hbefore, hc.ahead]
    rfl
  have hedge : c.atWordEdge = true := by
    have hahead := hrest.ahead
    rw [List.append_assoc, List.singleton_append] at hahead
    rw [Cursor.atWordEdge, hc.before, hahead, edge_valueText]
    rfl
  refine ⟨Found.between a b [], ?_, hwhole⟩
  show (if a.atWordEdge then run (exactly "return".toList) a [] fun next groups =>
    if next.atWordEdge then run (many (except ";\x7b\x7d")) next groups fun next groups =>
      run (exactly [';']) next groups fun stop groups => some (Found.between a stop groups)
    else none else none) = _
  rw [if_pos hstart, run_exactly hc, if_pos hedge, run_many plain_of_mem_valueText hd, run_exactly he]
  · rw [he.ahead]
    rfl
  · rw [run_exactly he]
    rfl

theorem any_isWord_before (hpass : a.Passes w b) (ha : a.before.any isWord = false)
    (hw : w.getLast?.any isWord = false) : b.before.any isWord = false := by
  rw [hpass.before]
  cases hlast : w.getLast? with
  | none => exact ha
  | some c => rwa [hlast] at hw

/-- On a line a scan finds the return, if there is one. -/
theorem exists_scan_line {l : Line} {before : Text} (hpass : a.Passes l.text b)
    (hoffset : a.offset = Text.size before) (ha : a.before.any isWord = false)
    (hlast : last.any (a.offset < ·) = false) :
    b.before.any isWord = false ∧ ∃ last' : Option Nat, last'.any (b.offset < ·) = false ∧
      (scan statement a.before a.offset a.ahead last).map (·.whole) = (l.span? before).toList ++
        (scan statement b.before b.offset b.ahead last').map (·.whole) := by
  rw [l.text_eq] at hpass
  obtain ⟨c, hc, hrest⟩ := hpass.exists_between
  have hedge := any_isWord_before hc ha l.edge_lead
  have hb : b.before.any isWord = false := by
    rw [hrest.before, List.getLast?_concat]
    rfl
  refine ⟨hb, ?_⟩
  rw [scan_of_returnless hc l.returnless_lead (.inl hedge)]
  have hend : "return".toList ∉ all ['\n'] := by decide
  unfold Line.span?
  cases hreturn : l.statement.return? with
  | none =>
      rw [hreturn] at hrest
      exact ⟨last, hpass.any_lt hlast, by rw [scan_of_returnless hrest hend (.inl hb)]; rfl⟩
  | some r =>
      rw [hreturn] at hrest
      obtain ⟨value, rfl⟩ := Statement.exists_value hreturn
      obtain ⟨d, hd, hfeed⟩ := hrest.exists_between
      obtain ⟨m, hm, hwhole⟩ := exists_matchAt_statement hd hedge
      have hstop : m.whole.stop = d.offset := by rw [hwhole, Span.stop, hd.offset]; rfl
      refine ⟨some d.offset, hfeed.any_lt (by simp), ?_⟩
      rw [scan_of_some (by decide) hd hm hstop (hc.any_lt hlast),
        scan_of_returnless hfeed hend (.inl hb), List.map_cons, hwhole, hc.offset, hoffset,
        ← Text.size_append]
      rfl

theorem exists_scan_lines {lines : List Line} {before : Text}
    (hpass : a.Passes (lines.flatMap Line.text) b) (hoffset : a.offset = Text.size before)
    (ha : a.before.any isWord = false) (hlast : last.any (a.offset < ·) = false) :
    ∃ last', (scan statement a.before a.offset a.ahead last).map (·.whole) =
      returnSpans before lines ++ (scan statement b.before b.offset b.ahead last').map (·.whole) := by
  -- Each line hands on to the next that no word is open and that no return was found further on.
  induction lines generalizing a before last with
  | nil => exact ⟨last, by rw [hpass.eq_of_nil]; rfl⟩
  | cons l more ih =>
      rw [List.flatMap_cons] at hpass
      obtain ⟨c, hc, hrest⟩ := hpass.exists_between
      obtain ⟨hbefore, last', hlast', hline⟩ := exists_scan_line hc hoffset ha hlast
      have hoffset' : c.offset = Text.size (before ++ l.text) := by
        rw [hc.offset, hoffset, Text.size_append]
      obtain ⟨last'', hlines⟩ := ih hrest hoffset' hbefore hlast'
      exact ⟨last'', by rw [hline, hlines, returnSpans, List.append_assoc]⟩

end

/-- **The returns that are found in a block are those of its lines.** -/
theorem findSpans_text (b : Block) : statement.findSpans b.text = returnSpans b.front b.lines := by
  obtain ⟨c, hfront, hahead⟩ := @Cursor.exists_passes (Cursor.start b.text) b.front _ rfl
  obtain ⟨d, hlines, hahead⟩ := Cursor.exists_passes hahead
  obtain ⟨e, hback, hend⟩ := Cursor.exists_passes (hahead.trans (List.append_nil b.back).symm)
  have hfeed : c.before.any isWord = false := by
    rw [hfront.before, Block.front, List.getLast?_append]
    rfl
  have hreturnless : "return".toList ∉ all b.front := by
    have hend : all ['\n'] = [] := rfl
    rw [Block.front, all_concat_append (by decide), hend, List.append_nil]
    exact b.opening_returnless
  have hreturnless' : "return".toList ∉ all b.back := by
    have hblank : ∀ c ∈ b.closing, isWord c = false := fun c hc =>
      isWord_eq_false_of_isBlank (List.all_eq_true.mp b.blank_closing c hc)
    rw [Block.back, all_concat_append (by decide), all_eq_nil hblank]
    exact b.rest_returnless
  have hfresh : (none : Option Nat).any (c.offset < ·) = false := rfl
  obtain ⟨last, hscan⟩ := exists_scan_lines hlines hfront.offset_start hfeed hfresh
  have hnone : scan statement d.before d.offset d.ahead last = [] := by
    rw [scan_of_returnless hback hreturnless' (.inr (by rw [Cursor.FreeAhead, hend]; rfl)),
      scan_nil (by decide) hend]
  show (scan statement (Cursor.start b.text).before (Cursor.start b.text).offset
    (Cursor.start b.text).ahead none).map (·.whole) = _
  rw [scan_of_returnless hfront hreturnless (.inl hfeed), hscan, hnone]
  exact List.append_nil _

/-! ### Whether a return is guarded -/

/-- The last line is ended, behind an opening brace or a semicolon. -/
def Closes (before : Text) : Prop :=
  ∃ front c, before = front ++ [c, '\n'] ∧ (c = '\x7b' ∨ c = ';')

theorem guardedByLineBefore_eq_false {before : Text} (h : Closes before) :
    guardedByLineBefore before = false := by
  obtain ⟨front, c, rfl, hc⟩ := h
  have hblank : isBlank c = false := by rcases hc with rfl | rfl <;> rfl
  obtain ⟨earlier, last, s, hlines, hlast, htrim⟩ := Text.exists_last_line front hblank
  have hparen : Text.endsWith (s ++ [c]) ")" = false :=
    Text.endsWith_concat_eq_false s (by decide) (by rcases hc with rfl | rfl <;> decide)
  have helse : Text.endsWith (s ++ [c]) "else" = false :=
    Text.endsWith_concat_eq_false s (by decide) (by rcases hc with rfl | rfl <;> decide)
  rw [guardedByLineBefore, hlines, List.reverse_append, List.reverse_singleton,
    List.singleton_append, List.find?_cons_of_pos (by rw [hlast]; rfl)]
  dsimp only
  rw [htrim, hparen, helse]
  rfl

theorem Closes.eq_newline {before : Text} (h : Closes before) :
    ∀ c, before.getLast? = some c → c = '\n' := by
  obtain ⟨front, c, rfl, -⟩ := h
  intro d hd
  rw [List.getLast?_append] at hd
  exact (Option.some.inj hd).symm

theorem closes_front (b : Block) : Closes b.front := ⟨b.opening, '\x7b', rfl, .inl rfl⟩

theorem Line.closes (l : Line) (before : Text) : Closes (before ++ l.text) := by
  obtain ⟨front, hfront⟩ : ∃ front, l.statement.text = front ++ [';'] := by
    cases l.statement with
    | plain s => exact ⟨s.text, rfl⟩
    | unguarded value => exact ⟨"return".toList ++ valueText value, (List.append_assoc ..).symm⟩
    | guarded condition value =>
        refine ⟨"if (".toList ++ (condition.text ++ ") ".toList) ++
          ("return".toList ++ valueText value), ?_⟩
        rw [List.append_assoc, List.append_assoc "return".toList]
        rfl
  exact ⟨before ++ (l.indent ++ front), ';', by simp [Line.text, hfront], .inr rfl⟩

/-- A return on a line is guarded by what stands before it on the line, and by nothing else. -/
theorem isGuarded_line {l : Line} {before : Text} (hbefore : Closes before)
    (hreturn : l.statement.return?.isSome = true) (post : Text) :
    isGuarded (before ++ l.lead ++ post) (Text.size (before ++ l.lead)) =
      .ok !l.statement.stops := by
  obtain ⟨front, hfront, hguarded⟩ := isGuarded_append (before ++ l.lead) post
  have htail : Text.lineTail (before ++ l.lead) = l.lead :=
    Text.lineTail_of_start hbefore.eq_newline l.oneLine_lead
  rw [htail] at hfront hguarded
  obtain rfl := List.append_cancel_right hfront
  rw [hguarded]
  unfold Line.lead
  cases hstatement : l.statement with
  | plain s => simp [hstatement, Statement.return?] at hreturn
  | unguarded value =>
      have htrim : Text.trim (l.indent ++ []) = [] := by
        rw [List.append_nil]
        exact Text.trim_append_blanks [] l.isBlank_of_mem_indent
      rw [Statement.lead, htrim, guardedByLineBefore_eq_false hbefore]
      rfl
  | guarded condition value =>
      have htrim : Text.trim (l.indent ++ ("if (".toList ++ (condition.text ++ ") ".toList))) =
          "if (".toList ++ condition.text ++ [')'] := by
        have hsplit : "if (".toList ++ (condition.text ++ ") ".toList) =
            "if (".toList ++ condition.text ++ [')'] ++ [' '] := by simp
        rw [hsplit]
        exact Text.trim_between l.isBlank_of_mem_indent (List.all_eq_true.mp (by decide)) (by rfl)
          (by rw [List.getLast?_concat]; rfl)
      have hends : ∀ word ∈ ["\x7b", ";", "\x7d"],
          Text.endsWith ("if (".toList ++ condition.text ++ [')']) word = false := by
        intro word hword
        have hlast : ∀ word ∈ ["\x7b", ";", "\x7d"],
            word.toList ≠ [] ∧ word.toList.getLast? ≠ some ')' := by decide
        exact Text.endsWith_concat_eq_false _ (hlast word hword).1 (hlast word hword).2
      simp only [List.forall_mem_cons] at hends
      obtain ⟨hopen, hsemicolon, hclose, -⟩ := hends
      have hsame : guardedBySameLine ("if (".toList ++ condition.text ++ [')']) = true := by
        rw [guardedBySameLine, hopen, hsemicolon, hclose]
        rfl
      rw [Statement.lead, htrim, hsame]
      rfl

/-! ### What stands behind a return -/

namespace Statement

/-- A statement begins with a character that is no blank and no closing brace. -/
theorem exists_text (s : Statement) :
    ∃ c rest, s.text = c :: rest ∧ isBlank c = false ∧ c ≠ '\x7d' := by
  cases s with
  | plain s =>
      obtain ⟨c, rest, hc⟩ := List.exists_cons_of_ne_nil s.ne_nil
      obtain ⟨lead, d, more, trail, -, htrim, -, hd⟩ :=
        Text.exists_trim (by rw [s.trimmed]; exact s.ne_nil)
      rw [s.trimmed, hc] at htrim
      obtain ⟨rfl, -⟩ := List.cons.inj htrim
      refine ⟨c, rest ++ [';'], by rw [text, hc]; rfl, hd, ?_⟩
      rintro rfl
      exact absurd (List.all_eq_true.mp s.plain _ (hc ▸ List.mem_cons_self)) (by decide)
  | unguarded value => exact ⟨'r', _, rfl, rfl, by decide⟩
  | guarded condition value => exact ⟨'i', _, rfl, rfl, by decide⟩

/-- A statement is code of the block that it stands in. -/
theorem endsBlock_text (s : Statement) (more : Text) : endsBlock (s.text ++ more) = false := by
  cases s with
  | plain s =>
      have hbegins : ["case ", "default", "//", "/*", "#"].any
          (Text.startsWith (s.text ++ ';' :: more)) = false := by
        have hsemicolon : ∀ word ∈ ["case ", "default", "//", "/*", "#"], ';' ∉ word.toList := by
          decide
        refine List.any_eq_false.mpr fun word hword => ?_
        rw [Text.startsWith_append_cons (hsemicolon word hword)]
        simpa using List.all_eq_true.mp s.begins word hword
      have hclose : Text.startsWith (s.text ++ ';' :: more) "\x7d" = false := by
        obtain ⟨c, rest, htext, -, hc⟩ := (plain s).exists_text
        rw [text] at htext
        rw [← List.singleton_append, ← List.append_assoc, htext, Text.startsWith]
        simp [List.isPrefixOf, Ne.symm hc]
      rw [text, List.append_assoc, List.singleton_append, endsBlock, List.any_cons, hclose, hbegins]
      simp
  | unguarded value => rfl
  | guarded condition value => rfl

theorem trimStart_text {blanks : Text} (hblanks : ∀ c ∈ blanks, isBlank c = true)
    (s : Statement) (more : Text) :
    Text.trimStart (blanks ++ (s.text ++ more)) = s.text ++ more := by
  obtain ⟨c, rest, hc, hblank, -⟩ := s.exists_text
  rw [Text.trimStart, List.dropWhile_append_of_pos hblanks, hc, List.cons_append,
    List.dropWhile_cons_of_neg (by simp [hblank])]

end Statement

/-- The blanks behind a line go up to the next statement, or to the brace that closes the block. -/
theorem exists_blanks (more : List Line) (b : Block) :
    ∃ blanks next, '\n' :: (more.flatMap Line.text ++ b.back) = blanks ++ next ∧
      Text.trimStart (blanks ++ next) = next ∧ endsBlock next = more.isEmpty ∧
      ∀ l ∈ more.head?, blanks = '\n' :: l.indent := by
  cases more with
  | nil =>
      have hblank : ∀ c ∈ '\n' :: b.closing, isBlank c = true :=
        List.forall_mem_cons.mpr ⟨by decide, List.all_eq_true.mp b.blank_closing⟩
      refine ⟨'\n' :: b.closing, '\x7d' :: b.rest, rfl, ?_, rfl, fun l hl => nomatch hl⟩
      rw [Text.trimStart, List.dropWhile_append_of_pos hblank]
      rfl
  | cons l more =>
      have hblank : ∀ c ∈ '\n' :: l.indent, isBlank c = true :=
        List.forall_mem_cons.mpr ⟨by decide, l.isBlank_of_mem_indent⟩
      refine ⟨'\n' :: l.indent, l.statement.text ++ '\n' :: (more.flatMap Line.text ++ b.back), ?_,
        l.statement.trimStart_text hblank _, l.statement.endsBlock_text _, ?_⟩
      · simp [Line.text]
      · rintro l' hl'
        rw [Option.some.inj hl']

/-- Where the statement behind a line begins, if the line keeps it from running. -/
def behind? (before : Text) (l : Line) (more : List Line) : Option Nat :=
  if l.statement.stops then
    more.head?.map fun next => Text.size (before ++ (l.text ++ next.indent))
  else none

/-- Where the statements behind unguarded returns begin. -/
def unreached (before : Text) : List Line → List Nat
  | [] => []
  | l :: more => (behind? before l more).toList ++ unreached (before ++ l.text) more

theorem behind?_of_no_return {l : Line} (h : l.statement.return? = none) (before : Text)
    (more : List Line) : behind? before l more = none := by
  unfold behind?
  cases hstatement : l.statement with
  | plain s => rfl
  | unguarded value => simp [hstatement, Statement.return?] at h
  | guarded condition value => rfl

/-- **What the search yields for the return of a line** is where the next statement begins, if there is
one and nothing guards the return. -/
theorem unreachableAfter_line {l : Line} {before : Text} {s : Span} (hbefore : Closes before)
    (hs : l.span? before = some s) (more : List Line) (b : Block) :
    unreachableAfter (before ++ ((l :: more).flatMap Line.text ++ b.back)) s =
      .ok (behind? before l more) := by
  obtain ⟨r, hr, rfl⟩ := Option.map_eq_some_iff.mp hs
  obtain ⟨blanks, next, hblanks, htrim, hends, hhead⟩ := exists_blanks more b
  have hline : l.text = l.lead ++ (r ++ ['\n']) := by rw [l.text_eq, hr]; rfl
  have htext : before ++ ((l :: more).flatMap Line.text ++ b.back) =
      before ++ l.lead ++ r ++ (blanks ++ next) := by
    rw [List.flatMap_cons, hline, ← hblanks]
    simp
  have hguarded := isGuarded_line hbefore (by rw [hr]; rfl) (r ++ (blanks ++ next))
  rw [← List.append_assoc, ← htext] at hguarded
  rw [unreachableAfter_eq htext rfl (by rw [htrim]) hguarded, htrim, hends, behind?]
  cases l.statement.stops with
  | false => rfl
  | true =>
      cases more with
      | nil => rfl
      | cons l' more =>
          have hplace : before ++ l.lead ++ r ++ ('\n' :: l'.indent) =
              before ++ (l.text ++ l'.indent) := by
            rw [hline]
            simp
          rw [hhead l' rfl, hplace]
          rfl

/-- What the search yields for the returns of several lines. -/
theorem exists_mapM_returnSpans (b : Block) (lines : List Line) {before : Text}
    (hbefore : Closes before) :
    ∃ found, (returnSpans before lines).mapM
        (unreachableAfter (before ++ (lines.flatMap Line.text ++ b.back))) = .ok found ∧
      found.filterMap (fun offset => offset) = unreached before lines := by
  -- What carries the induction is that the text before ends a line that guards nothing.
  induction lines generalizing before with
  | nil => exact ⟨[], rfl, rfl⟩
  | cons l more ih =>
      have htext : before ++ ((l :: more).flatMap Line.text ++ b.back) =
          before ++ l.text ++ (more.flatMap Line.text ++ b.back) := by
        simp
      obtain ⟨found, hfound, hunreached⟩ := ih (l.closes before)
      rw [← htext] at hfound
      rw [returnSpans, unreached]
      cases hs : l.span? before with
      | none =>
          rw [behind?_of_no_return (Option.map_eq_none_iff.mp hs)]
          exact ⟨found, hfound, hunreached⟩
      | some s =>
          have hfirst := unreachableAfter_line hbefore hs more b
          refine ⟨behind? before l more :: found,
            mapM_cons_eq_ok_iff.mpr ⟨_, _, hfirst, hfound, rfl⟩, ?_⟩
          rw [← hunreached]
          cases behind? before l more <;> rfl

theorem unreachable_text (b : Block) : unreachable b.text = .ok (unreached b.front b.lines) := by
  obtain ⟨found, hfound, hunreached⟩ := exists_mapM_returnSpans b b.lines (closes_front b)
  rw [unreachable, findSpans_text]
  show ((returnSpans b.front b.lines).mapM (unreachableAfter b.text) >>= fun offsets =>
    Except.ok (offsets.filterMap fun offset => offset)) = _
  exact bind_eq_ok_iff.mpr ⟨found, hfound, by rw [hunreached]⟩

/-! ### The statements that never run -/

section

variable {before : Text} {l : Line} {lines more : List Line} {offset : Nat}

theorem mem_behind?_iff : behind? before l more = some offset ↔
    ∃ l' back, more = l' :: back ∧ l.statement.stops = true ∧
      offset = Text.size (before ++ (l.text ++ l'.indent)) := by
  rw [behind?, Option.ite_none_right_eq_some]
  constructor
  · rintro ⟨hstops, hhead⟩
    obtain ⟨l', hl', rfl⟩ := Option.map_eq_some_iff.mp hhead
    obtain ⟨back, rfl⟩ := List.head?_eq_some_iff.mp hl'
    exact ⟨l', back, rfl, hstops, rfl⟩
  · rintro ⟨l', back, rfl, hstops, rfl⟩
    exact ⟨hstops, rfl⟩

theorem mem_unreached_iff : offset ∈ unreached before lines ↔
    ∃ front l l' back, lines = front ++ l :: l' :: back ∧ l.statement.stops = true ∧
      offset = Text.size (before ++ (front.flatMap Line.text ++ (l.text ++ l'.indent))) := by
  induction lines generalizing before with
  | nil => exact iff_of_false List.not_mem_nil (by simp)
  | cons l more ih =>
      rw [unreached, List.mem_append, Option.mem_toList, mem_behind?_iff, ih]
      constructor
      · rintro (⟨l', back, rfl, hstops, hoffset⟩ | ⟨front, l₁, l', back, rfl, hstops, hoffset⟩)
        · exact ⟨[], l, l', back, rfl, hstops, hoffset⟩
        · exact ⟨l :: front, l₁, l', back, rfl, hstops, by simpa [Nat.add_assoc] using hoffset⟩
      · rintro ⟨_ | ⟨first, front⟩, l₁, l', back, hlines, hstops, hoffset⟩
        · obtain ⟨rfl, rfl⟩ := List.cons.inj hlines
          exact .inl ⟨l', back, rfl, hstops, hoffset⟩
        · obtain ⟨rfl, rfl⟩ := List.cons.inj hlines
          exact .inr ⟨front, l₁, l', back, rfl, hstops, by simpa [Nat.add_assoc] using hoffset⟩

/-- What never runs stands behind the first statement. -/
theorem lt_of_mem_unreached (h : offset ∈ unreached before (l :: more)) :
    Text.size (before ++ l.indent) < offset := by
  obtain ⟨front, l₁, l', back, hlines, -, rfl⟩ := mem_unreached_iff.mp h
  obtain ⟨rest, hrest⟩ : ∃ rest, front.flatMap Line.text ++ (l₁.text ++ l'.indent) = l.text ++ rest := by
    cases front with
    | nil =>
        obtain ⟨rfl, -⟩ := List.cons.inj hlines
        exact ⟨l'.indent, rfl⟩
    | cons first front =>
        obtain ⟨rfl, -⟩ := List.cons.inj hlines
        exact ⟨front.flatMap Line.text ++ (l₁.text ++ l'.indent), by simp⟩
  have hpos : 0 < Text.size ['\n'] := by decide
  rw [hrest, Line.text]
  simp only [Text.size_append]
  omega

theorem pairwise_unreached : (unreached before lines).Pairwise (· < ·) := by
  induction lines generalizing before with
  | nil => exact .nil
  | cons l more ih =>
      rw [unreached]
      cases hbehind : behind? before l more with
      | none => exact ih
      | some offset =>
          obtain ⟨l', back, rfl, -, rfl⟩ := mem_behind?_iff.mp hbehind
          refine .cons (fun offset hoffset => ?_) ih
          rw [← List.append_assoc]
          exact lt_of_mem_unreached hoffset

end

/-- **The search for code behind a return is exact on blocks without branches.**  It finishes, and what
it yields are, in increasing order, the offsets at which statements directly behind unguarded returns
begin. -/
theorem unreachable_straightLine (b : Block) :
    ∃ offsets, unreachable b.text = .ok offsets ∧ offsets.Pairwise (· < ·) ∧
      ∀ offset, offset ∈ offsets ↔
        ∃ front l l' back, b.lines = front ++ l :: l' :: back ∧ l.statement.stops = true ∧
          offset = Text.size (b.front ++ (front.flatMap Line.text ++ (l.text ++ l'.indent))) :=
  ⟨_, unreachable_text b, pairwise_unreached, fun _ => mem_unreached_iff⟩

example : unreachable (Block.text {
      opening := "void f() ".toList
      lines := [
        { indent := "  ".toList, statement := .guarded { text := "x".toList } none },
        { indent := "  ".toList, statement := .unguarded (some { text := "1".toList }) },
        { indent := "  ".toList, statement := .plain { text := "g()".toList } }]
      closing := []
      rest := [] }) = .ok [42] := by
  decide +kernel

end Returns

end SnippetLint
