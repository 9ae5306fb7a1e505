/-
Import declarations and what the patterns find in them.

A file with imports is a package clause with declarations behind it, each an import on a line of
its own or a block of imports between parentheses.  Two patterns look for imports.  The one for
blocks is held off by anything but a parenthesis behind its keyword, and the only parentheses are
those of the blocks.  The one for single imports asks for a keyword at the front of a line, with a
name or a path behind it.  A line of a block has a keyword there only if a package is imported under
the name `import`, which is no name.

So neither pattern finds anything but what it is there for: a scan for blocks passes single imports
(`scan_importBlock_of_line`), and a scan for single imports passes the lines of blocks
(`scan_importLine_of_line`).
-/
import SnippetLint.Proofs.Names
import SnippetLint.Proofs.Pattern.Avoids
import SnippetLint.Proofs.Pattern.Search
import SnippetLint.Proofs.Rules.Go
import SnippetLint.Proofs.Text.Pieces

namespace SnippetLint

/-! ### Parts of a text, one after the other -/

namespace Text

section

variable {α : Type} {written : α → Text} {l : List α} {before : Text} {x : Text × α}

/-- Several parts of a text, each with what stands before it. -/
def withBefore (written : α → Text) (before : Text) : List α → List (Text × α)
  | [] => []
  | a :: more => (before, a) :: withBefore written (before ++ written a) more

theorem exists_append_of_mem_withBefore (h : x ∈ withBefore written before l) :
    ∃ after, before ++ l.flatMap written = x.1 ++ (written x.2 ++ after) := by
  induction l generalizing before with
  | nil => exact absurd h List.not_mem_nil
  | cons a more ih =>
      rw [List.flatMap_cons]
      rcases List.mem_cons.mp h with rfl | h
      · exact ⟨more.flatMap written, rfl⟩
      · rw [← List.append_assoc]
        exact ih h

theorem prefix_of_mem_withBefore (h : x ∈ withBefore written before l) : before <+: x.1 := by
  induction l generalizing before with
  | nil => exact absurd h List.not_mem_nil
  | cons a more ih =>
      rcases List.mem_cons.mp h with rfl | h
      · exact List.prefix_refl _
      · exact (List.prefix_append _ _).trans (ih h)

/-- Each part stands behind those before it. -/
theorem pairwise_withBefore :
    (withBefore written before l).Pairwise fun x y => x.1 ++ written x.2 <+: y.1 := by
  induction l generalizing before with
  | nil => exact .nil
  | cons a more ih => exact .cons (fun y hy => prefix_of_mem_withBefore hy) ih

/-- Parts that are lines begin where lines begin. -/
theorem getLast?_of_mem_withBefore (hlines : ∀ a, (written a).getLast? = some '\n')
    (hbefore : before.getLast? = some '\n') (h : x ∈ withBefore written before l) :
    x.1.getLast? = some '\n' := by
  induction l generalizing before with
  | nil => exact absurd h List.not_mem_nil
  | cons a more ih =>
      rcases List.mem_cons.mp h with rfl | h
      · exact hbefore
      · exact ih (by rw [List.getLast?_append, hlines]; rfl) h

end

end Text

namespace Go

open Pattern

/-! ### Declarations -/

/-- What a package is imported by: perhaps a name, and a path. -/
structure ImportSpec where
  name : Option Text
  path : Text
  plain_name : ∀ n ∈ name, n ≠ [] ∧ n ≠ "import".toList ∧ n.all Unicode.isWord = true := by decide
  path_ne_nil : path ≠ [] := by decide
  all_path : path.all (union word (among "./-")) = true := by decide

namespace ImportSpec

/-- What stands before the path. -/
def front (s : ImportSpec) : Text := (s.name.map (· ++ [' '])).getD []

def quoted (s : ImportSpec) : Text := '"' :: (s.path ++ ['"'])

def text (s : ImportSpec) : Text := s.front ++ s.quoted

section

variable {s : ImportSpec} {c : Char}

theorem of_mem_front (h : c ∈ s.front) : union word (among " ") c = true := by
  unfold front at h
  cases hname : s.name with
  | none => simp [hname] at h
  | some n =>
      simp only [hname, Option.map_some, Option.getD_some] at h
      obtain ⟨-, -, hword⟩ := s.plain_name n hname
      rcases List.mem_append.mp h with h | h
      · exact Bool.or_eq_true_iff.mpr (.inl (List.all_eq_true.mp hword c h))
      · rw [List.mem_singleton.mp h]
        rfl

theorem of_mem_path (h : c ∈ s.path) : union word (among "./-") c = true :=
  List.all_eq_true.mp s.all_path c h

theorem quote_notMem_front : '"' ∉ s.front := fun h => absurd (of_mem_front h) (by decide)

theorem quote_notMem_path : '"' ∉ s.path := fun h => absurd (of_mem_path h) (by decide)

theorem of_mem_text (h : c ∈ s.text) : union word (among " \"./-") c = true := by
  have hwiden : ∀ {marks : String}, (marks.toList.all (among " \"./-")) = true →
      union word (among marks) c = true → union word (among " \"./-") c = true := by
    intro marks hmarks hc
    refine Bool.or_eq_true_iff.mpr ((Bool.or_eq_true_iff.mp hc).imp_right fun hc => ?_)
    exact List.all_eq_true.mp hmarks c (List.contains_iff_mem.mp hc)
  rcases List.mem_append.mp h with h | h
  · exact hwiden (by decide) (of_mem_front h)
  · rcases List.mem_cons.mp h with rfl | h
    · decide
    · rcases List.mem_append.mp h with h | h
      · exact hwiden (by decide) (of_mem_path h)
      · rw [List.mem_singleton.mp h]
        decide

theorem notMem_text (hc : union word (among " \"./-") c = false) : c ∉ s.text :=
  fun h => absurd (of_mem_text h) (Bool.eq_false_iff.mp hc)

/-- What is written of an import begins neither with a blank nor like a comment. -/
theorem exists_text (s : ImportSpec) :
    ∃ c rest, s.text = c :: rest ∧ Unicode.isBlank c = false ∧ c ≠ '/' := by
  unfold text front
  cases hname : s.name with
  | none => exact ⟨'"', _, rfl, rfl, by decide⟩
  | some n =>
      obtain ⟨hne, -, hword⟩ := s.plain_name n hname
      obtain ⟨c, rest, rfl⟩ := List.exists_cons_of_ne_nil hne
      have hc : Unicode.isWord c = true := List.all_eq_true.mp hword c List.mem_cons_self
      refine ⟨c, _, rfl, Bool.eq_false_iff.mpr fun hblank => ?_, ?_⟩
      · exact absurd hc (by simp [Unicode.isWord_eq_false_of_isBlank hblank])
      · rintro rfl
        exact absurd hc (by decide)

theorem getLast?_text (s : ImportSpec) : s.text.getLast? = some '"' := by
  have htext : s.text = s.front ++ ('"' :: s.path) ++ ['"'] := by simp [text, quoted]
  rw [htext, List.getLast?_concat]

theorem trim_text (s : ImportSpec) {lead trail : Text} (hlead : ∀ c ∈ lead, Unicode.isBlank c = true)
    (htrail : ∀ c ∈ trail, Unicode.isBlank c = true) :
    Text.trim (lead ++ (s.text ++ trail)) = s.text := by
  obtain ⟨c, rest, htext, hblank, -⟩ := s.exists_text
  have hfirst : s.text.head?.any Unicode.isBlank = false := by
    rw [htext]
    exact hblank
  have hlast : s.text.getLast?.any Unicode.isBlank = false := by
    rw [s.getLast?_text]
    rfl
  exact Text.trim_between hlead htrail hfirst hlast

/-- What is written of two imports is the same only if their names and their paths are. -/
theorem text_eq_iff {s s' : ImportSpec} : s.text = s'.text ↔ s.name = s'.name ∧ s.path = s'.path := by
  constructor
  · intro h
    obtain ⟨hfront, hback⟩ := Text.append_cons_inj s.quote_notMem_front s'.quote_notMem_front h
    refine ⟨?_, List.append_cancel_right hback⟩
    unfold front at hfront
    cases hname : s.name with
    | none =>
        cases hname' : s'.name with
        | none => rfl
        | some n => simp [hname, hname'] at hfront
    | some n =>
        cases hname' : s'.name with
        | none => simp [hname, hname'] at hfront
        | some n' => simpa [hname, hname'] using hfront
  · rintro ⟨hname, hpath⟩
    simp only [text, front, quoted, hname, hpath]

end

end ImportSpec

/-- A line of a block. -/
structure SpecLine where
  indent : Text
  spec : ImportSpec
  all_indent : indent.all (fun c => Unicode.isBlank c && c != '\n') = true := by decide

namespace SpecLine

def text (l : SpecLine) : Text := l.indent ++ l.spec.text ++ ['\n']

theorem isBlank_of_mem_indent (l : SpecLine) : ∀ c ∈ l.indent, Unicode.isBlank c = true :=
  fun c hc => (Bool.and_eq_true_iff.mp (List.all_eq_true.mp l.all_indent c hc)).1

theorem close_notMem_text (l : SpecLine) : ')' ∉ l.text := by
  intro h
  rcases List.mem_append.mp h with h | h
  · rcases List.mem_append.mp h with h | h
    · exact absurd (l.isBlank_of_mem_indent _ h) (by decide)
    · exact ImportSpec.notMem_text (by decide) h
  · exact absurd h (by decide)

theorem newline_notMem_indent (l : SpecLine) : '\n' ∉ l.indent :=
  fun h => absurd (List.all_eq_true.mp l.all_indent _ h) (by decide)

end SpecLine

/-- What is imported by one keyword. -/
inductive Imported where
  | single (spec : ImportSpec)
  | block (lines : List SpecLine)

namespace Imported

/-- What stands between the parentheses of a block. -/
def inside (lines : List SpecLine) : Text := '\n' :: lines.flatMap SpecLine.text

theorem close_notMem_inside (lines : List SpecLine) : ')' ∉ inside lines := by
  intro h
  rcases List.mem_cons.mp h with h | h
  · exact absurd h (by decide)
  · obtain ⟨line, -, h⟩ := List.mem_flatMap.mp h
    exact line.close_notMem_text h

def text : Imported → Text
  | single spec => "import ".toList ++ (spec.text ++ ['\n'])
  | block lines => "import (".toList ++ (inside lines ++ ")\n".toList)

theorem text_single (spec : ImportSpec) :
    (single spec).text = "import ".toList ++ (spec.text ++ ['\n']) := rfl

theorem text_block (lines : List SpecLine) :
    (block lines).text = "import (".toList ++ (inside lines ++ ")\n".toList) := rfl

end Imported

/-- An import declaration, perhaps with blanks and empty lines before it. -/
structure Declaration where
  lead : Text
  imported : Imported
  all_lead : lead.all Unicode.isBlank = true := by decide

namespace Declaration

def text (d : Declaration) : Text := d.lead ++ d.imported.text

theorem getLast?_text (d : Declaration) : d.text.getLast? = some '\n' := by
  have himported : d.imported.text.getLast? = some '\n' := by
    cases d.imported with
    | single spec => rw [Imported.text_single, ← List.append_assoc, List.getLast?_concat]
    | block lines =>
        rw [Imported.text_block, List.getLast?_append, List.getLast?_append]
        rfl
  rw [text, List.getLast?_append, himported, Option.some_or]

end Declaration

/-- A file of which nothing but its package and its imports have been written. -/
structure ImportFile where
  package : Text
  declarations : List Declaration
  package_ne_nil : package ≠ [] := by decide
  all_package : package.all Unicode.isWord = true := by decide

namespace ImportFile

def clause (f : ImportFile) : Text := "package ".toList ++ f.package ++ ['\n']

def text (f : ImportFile) : Text := f.clause ++ f.declarations.flatMap Declaration.text

theorem getLast?_clause (f : ImportFile) : f.clause.getLast? = some '\n' := List.getLast?_concat

end ImportFile

/-! ### Finding blocks -/

section

variable {a b : Cursor} {new : Groups} {w lead inside : Text} {last : Option Nat}

/-- A block is a keyword, blanks, and what stands up to the first closing parenthesis. -/
theorem passes_of_importBlock (h : Matches importBlock a b new) :
    ∃ gap inside, a.Passes ("import".toList ++ gap ++ '(' :: (inside ++ [')'])) b ∧
      (∀ c ∈ gap, Unicode.isBlank c = true) ∧ ')' ∉ inside ∧
      (Found.between a b new).group? 1 =
        some ⟨a.offset + Text.size ("import".toList ++ gap ++ ['(']), inside⟩ := by
  obtain ⟨y, _, _, ⟨x, _, _, ⟨d, _, _, ⟨c, _, _, ⟨_, _, _, ⟨-, rfl, rfl⟩, hkeyword, rfl⟩,
    ⟨gap, hgap, hblank, rfl⟩, rfl⟩, hopen, rfl⟩, ⟨_, ⟨inside, hinside, hplain, rfl⟩, rfl⟩, rfl⟩,
    hclose, rfl⟩ := h
  obtain ⟨hword, rfl⟩ := hkeyword.passes_exactly
  obtain ⟨hparen, rfl⟩ := hopen.passes_exactly
  obtain ⟨hparen', rfl⟩ := hclose.passes_exactly
  have hfront := (hword.trans hgap).trans hparen
  refine ⟨gap, inside, ?_, hblank, fun hmem => absurd (hplain _ hmem) (by decide), ?_⟩
  · rw [List.append_cons, ← List.append_assoc]
    exact (hfront.trans hinside).trans hparen'
  · show some (Span.between x y) = _
    rw [Span.between_eq hinside, hfront.offset]
    rfl

/-- No parenthesis opens behind blanks. -/
def Unopened (t : Text) : Prop := (Text.trimStart t).head? ≠ some '('

theorem Unopened.ne_append {t gap more : Text} (h : Unopened t)
    (hgap : ∀ c ∈ gap, Unicode.isBlank c = true) : t ≠ gap ++ '(' :: more := by
  rintro rfl
  rw [Unopened, Text.trimStart, List.dropWhile_append_of_pos hgap] at h
  exact h rfl

/-- No parenthesis opens in front of the keyword of a declaration. -/
theorem unopened_declarations (l : List Declaration) : Unopened (l.flatMap Declaration.text) := by
  cases l with
  | nil => exact fun h => by cases h
  | cons d more =>
      have hhead : ∃ rest, (d :: more).flatMap Declaration.text = d.lead ++ 'i' :: rest := by
        rw [List.flatMap_cons, Declaration.text]
        cases d.imported with
        | single spec => exact ⟨_, by rw [Imported.text_single, List.append_assoc]; rfl⟩
        | block lines => exact ⟨_, by rw [Imported.text_block, List.append_assoc]; rfl⟩
      obtain ⟨rest, hrest⟩ := hhead
      rw [Unopened, hrest, Text.trimStart,
        List.dropWhile_append_of_pos (List.all_eq_true.mp d.all_lead)]
      exact fun h => absurd (Option.some.inj h) (by decide)

/-- A blank that stands behind the front of a block stands behind its keyword. -/
theorem blanks_of_append {u gap rest : Text} (hgap : ∀ c ∈ gap, Unicode.isBlank c = true)
    (h : "import".toList ++ gap = u ++ '\n' :: rest) : ∀ c ∈ rest, Unicode.isBlank c = true := by
  rcases List.append_eq_append_iff.mp h with ⟨s, -, hs⟩ | ⟨s, hu, hs⟩
  · exact fun c hc => hgap c (hs ▸ List.mem_append_right s (List.mem_cons_of_mem _ hc))
  · cases s with
    | nil => exact fun c hc => hgap c ((List.nil_append gap ▸ hs) ▸ List.mem_cons_of_mem _ hc)
    | cons d more =>
        obtain ⟨rfl, -⟩ := List.cons.inj hs
        have hmem : '\n' ∈ "import".toList := hu ▸ List.mem_append_right u List.mem_cons_self
        exact absurd hmem (by decide)

/-- A block does not begin in front of the end of a line behind which no parenthesis opens. -/
theorem matchAt_importBlock_eq_none (hpass : a.Passes (w ++ ['\n']) b) (hw : '(' ∉ w)
    (hb : Unopened b.ahead) : matchAt importBlock a = none := by
  refine matchAt_eq_none fun stop new hmatch => ?_
  obtain ⟨gap, inside, hpass', hgap, -, -⟩ := passes_of_importBlock hmatch
  have hsplit : w ++ '\n' :: b.ahead =
      ("import".toList ++ gap) ++ '(' :: (inside ++ [')'] ++ stop.ahead) := by
    have hahead := hpass.ahead.symm.trans hpass'.ahead
    simpa using hahead
  rcases List.append_eq_append_iff.mp hsplit with ⟨s, hs, hrest⟩ | ⟨s, hs, hrest⟩
  · cases s with
    | nil => exact absurd (List.cons.inj hrest).1 (by decide)
    | cons c s =>
        obtain ⟨rfl, -⟩ := List.cons.inj hrest
        exact absurd (List.cons.inj hrest).2 (hb.ne_append (blanks_of_append hgap hs))
  · cases s with
    | nil => exact absurd (List.cons.inj hrest).1 (by decide)
    | cons c s =>
        obtain ⟨rfl, -⟩ := List.cons.inj hrest
        exact absurd (hs ▸ List.mem_append_right _ List.mem_cons_self) hw

/-- A block begins with the first letter of its keyword. -/
theorem matchAt_importBlock_of_head (h : a.ahead.head? ≠ some 'i') :
    matchAt importBlock a = none := by
  refine matchAt_eq_none fun stop new hmatch => ?_
  obtain ⟨gap, inside, hpass, -⟩ := passes_of_importBlock hmatch
  rw [hpass.ahead] at h
  exact absurd rfl h

theorem scan_importBlock_of_line (hpass : a.Passes (w ++ ['\n']) b) (hw : '(' ∉ w)
    (hb : Unopened b.ahead) : scan importBlock a.before a.offset a.ahead last =
      scan importBlock b.before b.offset b.ahead last := by
  refine scan_of_none hpass fun {u v here} hsplit hv _ hrest => ?_
  have hsuffix : v <:+ w ++ ['\n'] := ⟨u, hsplit.symm⟩
  rcases List.suffix_concat_iff.mp hsuffix with rfl | ⟨v', rfl, hv'⟩
  · exact absurd rfl hv
  · exact matchAt_importBlock_eq_none hrest (fun hmem => hw (hv'.subset hmem)) hb

theorem scan_importBlock_of_blanks (hpass : a.Passes w b) (hw : ∀ c ∈ w, Unicode.isBlank c = true) :
    scan importBlock a.before a.offset a.ahead last =
      scan importBlock b.before b.offset b.ahead last := by
  refine scan_of_none hpass fun {u v here} hsplit hv _ hrest => ?_
  refine matchAt_importBlock_of_head fun hhead => ?_
  obtain ⟨c, more, rfl⟩ := List.exists_cons_of_ne_nil hv
  rw [hrest.ahead] at hhead
  obtain rfl : c = 'i' := Option.some.inj hhead
  exact absurd (hw _ (hsplit ▸ List.mem_append_right u List.mem_cons_self)) (by decide)

/-- No word character stands before the keyword of a declaration. -/
theorem any_isWord_of_lead (hpass : a.Passes lead b) (hlead : ∀ c ∈ lead, Unicode.isBlank c = true)
    (hbefore : a.before = some '\n') : b.before.any Unicode.isWord = false := by
  rw [hpass.before, hbefore]
  cases hlast : lead.getLast? with
  | none => rfl
  | some c => exact Unicode.isWord_eq_false_of_isBlank (hlead c (List.mem_of_getLast? hlast))

/-- At a block the block is found, and its group is what stands between the parentheses. -/
theorem exists_matchAt_importBlock (hpass : a.Passes ("import (".toList ++ (inside ++ [')'])) b)
    (hbefore : a.before.any Unicode.isWord = false) (hinside : ')' ∉ inside) :
    ∃ m, matchAt importBlock a = some m ∧ m.whole.stop = b.offset ∧
      m.group? 1 = some ⟨a.offset + Text.size "import (".toList, inside⟩ := by
  have hsplit : a.ahead =
      "import".toList ++ ([' '] ++ (['('] ++ (inside ++ ([')'] ++ b.ahead)))) := by
    have hahead := hpass.ahead
    simpa using hahead
  obtain ⟨c, hc, hahead⟩ := Cursor.exists_passes hsplit
  obtain ⟨d, hd, hahead⟩ := Cursor.exists_passes hahead
  obtain ⟨e, he, hahead⟩ := Cursor.exists_passes hahead
  obtain ⟨f, hf, hahead⟩ := Cursor.exists_passes hahead
  obtain ⟨g, hg, -⟩ := Cursor.exists_passes hahead
  have hedge : Matches wordEdge a a [] := by
    refine ⟨?_, rfl, rfl⟩
    rw [Cursor.atWordEdge, hbefore, hsplit]
    rfl
  have hgap : Matches blanks c d [] := ⟨_, hd, List.forall_mem_singleton.mpr rfl, rfl⟩
  have hmany : Matches (many (except ")")) e f [] := by
    refine ⟨inside, hf, fun x hx => ?_, rfl⟩
    have hne : x ≠ ')' := fun heq => hinside (heq ▸ hx)
    simp [except, hne]
  have hmatch : Matches importBlock a g _ :=
    ((((hedge.followed (matches_exactly hc)).followed hgap).followed (matches_exactly he)).followed
      (hmany.grouped 1)).followed (matches_exactly hg)
  obtain ⟨m, hm⟩ := Option.isSome_iff_exists.mp (isSome_matchAt_iff.mpr ⟨g, _, hmatch⟩)
  obtain ⟨stop, new, hmatch', rfl⟩ := exists_matches_of_matchAt hm
  obtain ⟨gap, inside', hpass', hblank, hinside', hgroup⟩ := passes_of_importBlock hmatch'
  have hnotMem : ∀ {s : Text}, (∀ c ∈ s, Unicode.isBlank c = true) → '(' ∉ "import".toList ++ s := by
    intro s hs hmem
    rcases List.mem_append.mp hmem with hmem | hmem
    · exact absurd hmem (by decide)
    · exact absurd (hs _ hmem) (by decide)
  have hends : ("import".toList ++ [' ']) ++ '(' :: (inside ++ ')' :: b.ahead) =
      ("import".toList ++ gap) ++ '(' :: (inside' ++ ')' :: stop.ahead) := by
    have hahead := hpass.ahead.symm.trans hpass'.ahead
    simpa using hahead
  obtain ⟨hfront, hback⟩ := Text.append_cons_inj (hnotMem (List.forall_mem_singleton.mpr rfl))
    (hnotMem hblank) hends
  obtain ⟨rfl, -⟩ := Text.append_cons_inj hinside hinside' hback
  obtain rfl : [' '] = gap := List.append_cancel_left hfront
  obtain rfl := hpass.unique hpass'
  exact ⟨_, hm, Span.stop_between hpass, hgroup⟩

end

/-! ### Finding single imports -/

/-- A keyword, and behind blanks a name or a quotation mark. -/
def Opens (t : Text) : Prop :=
  ∃ gap c rest, t = "import".toList ++ (gap ++ c :: rest) ∧ gap ≠ [] ∧
    (∀ d ∈ gap, Unicode.isBlank d = true) ∧ (Unicode.isWord c = true ∨ c = '"')

theorem Opens.head? {t : Text} (h : Opens t) : t.head? = some 'i' := by
  obtain ⟨gap, c, rest, rfl, -⟩ := h
  rfl

theorem not_opens_block (rest : Text) : ¬ Opens ("import (".toList ++ rest) := by
  rintro ⟨gap, c, more, h, -, hgap, hc⟩
  have hblank : Unicode.isBlank c = false := by
    refine Bool.eq_false_iff.mpr fun hblank => ?_
    rcases hc with hc | rfl
    · exact absurd hc (by simp [Unicode.isWord_eq_false_of_isBlank hblank])
    · exact absurd hblank (by decide)
  have hsplit : "import".toList ++ ([' '] ++ '(' :: rest) = "import".toList ++ (gap ++ c :: more) := h
  obtain ⟨-, hhead⟩ := Text.append_inj_of_class (List.forall_mem_singleton.mpr rfl) hgap (by rfl)
    (by simp [hblank]) (List.append_cancel_left hsplit)
  obtain rfl : '(' = c := (List.cons.inj hhead).1
  exact absurd hc (by decide)

/-- What is written of an import does not open like one, since no package is imported under the name
of the keyword. -/
theorem not_opens_spec (spec : ImportSpec) (rest : Text) : ¬ Opens (spec.text ++ rest) := by
  intro h
  unfold ImportSpec.text ImportSpec.front at h
  cases hname : spec.name with
  | none =>
      rw [hname] at h
      exact absurd h.head? (by simp [ImportSpec.quoted])
  | some n =>
      obtain ⟨-, hkeyword, hword⟩ := spec.plain_name n hname
      obtain ⟨gap, c, more, hsplit, hne, hgap, -⟩ := h
      obtain ⟨d, gap, rfl⟩ := List.exists_cons_of_ne_nil hne
      have hd : Unicode.isWord d = false :=
        Unicode.isWord_eq_false_of_isBlank (hgap d List.mem_cons_self)
      have hfront : n ++ ' ' :: (spec.quoted ++ rest) =
          "import".toList ++ d :: (gap ++ c :: more) := by
        simpa [hname] using hsplit
      exact hkeyword (Text.append_inj_of_class (List.all_eq_true.mp hword)
        (List.all_eq_true.mp (by decide)) (by rfl) (by simp [hd]) hfront).1

/-- What stands before the path of a single import. -/
def importHead : Pattern :=
  lineStart ++ blanks ++ Pattern.text "import" ++ gap ++ perhaps (group 1 (wordRun ++ gap))

section

variable {a b : Cursor} {new : Groups} {lead body : Text} {spec : ImportSpec} {last : Option Nat}

/-- A single import begins a line, and opens like one. -/
theorem opens_of_importLine (h : Matches importLine a b new) :
    (∀ c, a.before = some c → c = '\n') ∧
      ∃ lead t, a.ahead = lead ++ t ∧ (∀ c ∈ lead, Unicode.isBlank c = true) ∧ Opens t := by
  obtain ⟨y, _, _, ⟨x, _, _, ⟨d, _, _, ⟨c, _, _, ⟨_, _, _, ⟨hstart, rfl, -⟩,
    ⟨lead, hlead, hblank, -⟩, -⟩, hkeyword, -⟩, hgap, -⟩, hname, -⟩,
    ⟨_, ⟨_, _, _, ⟨z, _, _, hquote, -, -⟩, -, -⟩, -⟩, -⟩ := h
  obtain ⟨hword, -⟩ := hkeyword.passes_exactly
  obtain ⟨gap, hgap, hne, hgapBlank, -⟩ := hgap.exists_several
  have hnext : ∃ c rest, x.ahead = c :: rest ∧ (Unicode.isWord c = true ∨ c = '"') := by
    rcases hname with ⟨_, ⟨_, _, _, hrun, -, -⟩, -⟩ | ⟨rfl, -⟩
    · obtain ⟨n, hn, hne, hall, -⟩ := hrun.exists_several
      obtain ⟨c, rest, rfl⟩ := List.exists_cons_of_ne_nil hne
      exact ⟨c, _, hn.ahead, .inl (hall c List.mem_cons_self)⟩
    · exact ⟨'"', _, hquote.passes_exactly.1.ahead, .inr rfl⟩
  obtain ⟨e, rest, hahead, he⟩ := hnext
  refine ⟨hstart, lead, _, hlead.ahead, hblank, gap, e, rest, ?_, hne, hgapBlank, he⟩
  rw [hword.ahead, hgap.ahead, hahead]

/-- The path of a single import is what stands in its quotation marks. -/
theorem passes_of_importLine (h : Matches importLine a b new) :
    ∃ front path, a.Passes (front ++ '"' :: (path ++ ['"'])) b ∧ '"' ∉ front ∧ '"' ∉ path ∧
      (Found.between a b new).group? 2 =
        some ⟨a.offset + Text.size front, '"' :: (path ++ ['"'])⟩ := by
  obtain ⟨c, _, _, hhead, ⟨inner, hquoted, rfl⟩, rfl⟩ := h
  obtain ⟨front, hfront, hnone⟩ := Matches.avoids (p := importHead) (c := '"') (by decide) hhead
  obtain ⟨e, _, _, ⟨d, _, _, hopen, hpath, rfl⟩, hclose, rfl⟩ := hquoted
  obtain ⟨hquote, rfl⟩ := hopen.passes_exactly
  obtain ⟨path, hinner, -, hplain, rfl⟩ := hpath.exists_several
  obtain ⟨hquote', rfl⟩ := hclose.passes_exactly
  have hinside : c.Passes ('"' :: (path ++ ['"'])) b := (hquote.trans hinner).trans hquote'
  refine ⟨front, path, hfront.trans hinside, hnone,
    fun hmem => absurd (hplain _ hmem) (by decide), ?_⟩
  show some (Span.between c b) = _
  rw [Span.between_eq hinside, hfront.offset]

theorem matchAt_importLine_of_before {c : Char} (h : a.before = some c) (hc : c ≠ '\n') :
    matchAt importLine a = none := by
  refine matchAt_eq_none fun stop new hmatch => ?_
  exact absurd ((opens_of_importLine hmatch).1 c h) hc

/-- Within a line, and before it but for blanks, a line begins only among the blanks. -/
theorem exists_suffix_of_lineStart {u v : Text} (hsplit : lead ++ (body ++ ['\n']) = u ++ v)
    (hbody : '\n' ∉ body) (hv : v ≠ []) (hu : ∀ c, u.getLast? = some c → c = '\n') :
    ∃ s, s <:+ lead ∧ v = s ++ (body ++ ['\n']) := by
  rcases List.append_eq_append_iff.mp hsplit with ⟨s, rfl, hs⟩ | ⟨s, rfl, rfl⟩
  · rcases List.eq_nil_or_concat s with rfl | ⟨s, c, rfl⟩
    · exact ⟨[], List.nil_suffix, hs.symm⟩
    · rw [List.concat_eq_append] at hu hs
      obtain rfl : c = '\n' := hu c (by rw [← List.append_assoc, List.getLast?_concat])
      rcases List.eq_nil_or_concat v with rfl | ⟨v, d, rfl⟩
      · exact absurd rfl hv
      · rw [List.concat_eq_append, ← List.append_assoc] at hs
        have hline : body = s ++ ['\n'] ++ v := (List.append_inj' hs rfl).1
        exact absurd (hline ▸ by simp) hbody
  · exact ⟨s, List.suffix_append u s, rfl⟩

/-- No import is found on a line that does not open like one. -/
theorem scan_importLine_of_line {c : Char} (hpass : a.Passes (lead ++ (c :: body ++ ['\n'])) b)
    (hlead : ∀ c ∈ lead, Unicode.isBlank c = true) (hc : Unicode.isBlank c = false)
    (hbody : '\n' ∉ c :: body) (hopens : ¬ Opens (c :: body ++ '\n' :: b.ahead)) :
    scan importLine a.before a.offset a.ahead last =
      scan importLine b.before b.offset b.ahead last := by
  refine scan_of_none hpass fun {u v here} hsplit hv hu hrest => ?_
  refine matchAt_eq_none fun stop new hmatch => ?_
  obtain ⟨hstart, lead', t, hahead, hblank, ht⟩ := opens_of_importLine hmatch
  obtain ⟨s, hs, rfl⟩ := exists_suffix_of_lineStart hsplit hbody hv fun c hc =>
    hstart c (by rw [hu.before, hc, Option.some_or])
  have hfirst : t.head?.any Unicode.isBlank = false := by
    obtain ⟨gap, d, rest, rfl, -⟩ := ht
    rfl
  have hsame : s ++ (c :: body ++ '\n' :: b.ahead) = lead' ++ t := by
    have hboth := hrest.ahead.symm.trans hahead
    simpa using hboth
  obtain ⟨-, rfl⟩ := Text.append_inj_of_class (fun c hc => hlead c (hs.subset hc)) hblank
    (by simp [hc]) hfirst hsame
  exact absurd ht hopens

theorem matches_front {rest : Text} (ha : a.ahead = spec.front ++ rest) :
    ∃ b new, Matches (perhaps (group 1 (wordRun ++ gap))) a b new ∧ b.ahead = rest := by
  unfold ImportSpec.front at ha
  cases hname : spec.name with
  | none => exact ⟨a, [], .inr ⟨rfl, rfl⟩, by simpa [hname] using ha⟩
  | some n =>
      obtain ⟨hne, -, hword⟩ := spec.plain_name n hname
      have hsplit : a.ahead = n ++ ([' '] ++ rest) := by simpa [hname] using ha
      obtain ⟨b, hb, hahead⟩ := Cursor.exists_passes hsplit
      obtain ⟨c, hc, hahead⟩ := Cursor.exists_passes hahead
      have hrun : Matches wordRun a b [] := matches_several hb hne (List.all_eq_true.mp hword)
      have hgap : Matches gap b c [] :=
        matches_several hc (by simp) (List.forall_mem_singleton.mpr rfl)
      exact ⟨c, _, .inl ((hrun.followed hgap).grouped 1), hahead⟩

/-- At a single import the import is found, and its group is the path with its quotation marks. -/
theorem exists_matchAt_importLine (hpass : a.Passes (lead ++ ("import ".toList ++ spec.text)) b)
    (hlead : ∀ c ∈ lead, Unicode.isBlank c = true) (hbefore : a.before = some '\n') :
    ∃ m, matchAt importLine a = some m ∧
      m.whole = ⟨a.offset, lead ++ ("import ".toList ++ spec.text)⟩ ∧
      m.group? 2 =
        some ⟨a.offset + Text.size (lead ++ ("import ".toList ++ spec.front)), spec.quoted⟩ := by
  have hsplit : a.ahead = lead ++ ("import".toList ++ ([' '] ++ (spec.front ++
      (['"'] ++ (spec.path ++ (['"'] ++ b.ahead)))))) := by
    have hahead := hpass.ahead
    simpa [ImportSpec.text, ImportSpec.quoted] using hahead
  obtain ⟨c, hc, hahead⟩ := Cursor.exists_passes hsplit
  obtain ⟨d, hd, hahead⟩ := Cursor.exists_passes hahead
  obtain ⟨e, he, hahead⟩ := Cursor.exists_passes hahead
  obtain ⟨f, _, hfront, hahead⟩ := matches_front hahead
  obtain ⟨g, hg, hahead⟩ := Cursor.exists_passes hahead
  obtain ⟨h, hh, hahead⟩ := Cursor.exists_passes hahead
  obtain ⟨k, hk, -⟩ := Cursor.exists_passes hahead
  have hstart : Matches lineStart a a [] := ⟨by simp [hbefore], rfl, rfl⟩
  have hblanks : Matches blanks a c [] := ⟨lead, hc, hlead, rfl⟩
  have hgap : Matches gap d e [] := matches_several he (by simp) (List.forall_mem_singleton.mpr rfl)
  have hpath : Matches (several (except "\"")) g h [] := by
    refine matches_several hh spec.path_ne_nil fun c hc => ?_
    have hne : c ≠ '"' := fun heq => spec.quote_notMem_path (heq ▸ hc)
    simp [except, hne]
  have hquoted := ((matches_exactly hg).followed hpath).followed (matches_exactly hk)
  have hmatch : Matches importLine a k _ :=
    ((((hstart.followed hblanks).followed (matches_exactly hd)).followed hgap).followed
      hfront).followed (hquoted.grouped 2)
  obtain ⟨m, hm⟩ := Option.isSome_iff_exists.mp (isSome_matchAt_iff.mpr ⟨k, _, hmatch⟩)
  obtain ⟨stop, new, hmatch', rfl⟩ := exists_matches_of_matchAt hm
  obtain ⟨front, path, hpass', hnone, hnone', hgroup⟩ := passes_of_importLine hmatch'
  have hhead : '"' ∉ lead ++ ("import ".toList ++ spec.front) := by
    intro hmem
    rcases List.mem_append.mp hmem with hmem | hmem
    · exact absurd (hlead _ hmem) (by decide)
    · rcases List.mem_append.mp hmem with hmem | hmem
      · exact absurd hmem (by decide)
      · exact spec.quote_notMem_front hmem
  have hends : lead ++ ("import ".toList ++ spec.front) ++ '"' :: (spec.path ++ '"' :: b.ahead) =
      front ++ '"' :: (path ++ '"' :: stop.ahead) := by
    have hboth := hpass.ahead.symm.trans hpass'.ahead
    simpa [ImportSpec.text, ImportSpec.quoted] using hboth
  obtain ⟨rfl, hback⟩ := Text.append_cons_inj hhead hnone hends
  obtain ⟨rfl, -⟩ := Text.append_cons_inj spec.quote_notMem_path hnone' hback
  refine ⟨_, hm, ?_, hgroup⟩
  show Span.between a stop = _
  rw [Span.between_eq hpass']
  simp [ImportSpec.text, ImportSpec.quoted]

end

end Go

end SnippetLint
