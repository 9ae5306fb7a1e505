/-
Every rule for Python finishes, points at the right line and begins its messages with words of its
own; the one about unused imports is exact, and all others point to the same lines whatever the line
endings and report from the first line to the last.

Three kinds of names are bound by imports, and each is shown to be a word of the text: an alias, the
first part of a module's path, and the last word of an entry in a list of names.  The last is the
one for which the offset is computed, from the sizes of the entries before it and from a search in
the entry; the search looks for the last occurrence, and that is where the last word stands.
-/
import SnippetLint.Proofs.Indentation
import SnippetLint.Proofs.LineEndings.Checks
import SnippetLint.Proofs.Names
import SnippetLint.Proofs.Order.Checks
import SnippetLint.Proofs.Text.Pieces
import SnippetLint.Proofs.Wording
import SnippetLint.Rules.Python

namespace SnippetLint.Python

open Finding Pattern

theorem undocumentedFrom_sound {t : Text} {number : Nat} {lines : List Text}
    (hlines : ∀ x ∈ lines.zipIdx number, x ∈ Text.numberedLines t) :
    Yields (undocumentedFrom number lines) (AllPlaced t) := by
  induction lines generalizing number with
  | nil => exact yields_pure (by simp [AllPlaced])
  | cons line rest ih =>
      rw [List.zipIdx_cons, List.forall_mem_cons] at hlines
      unfold undocumentedFrom
      refine (ih hlines.2).bind fun later hlater => ?_
      split
      · exact yields_pure hlater
      · rename_i m hm
        split
        · exact yields_pure hlater
        · obtain ⟨function, -, hfunction⟩ :=
            (finds_of_find? hm).exists_group (i := 0) (by decide)
          rw [hfunction]
          refine yields_pure fun f hf => ?_
          rcases List.mem_cons.mp hf with rfl | hf
          · exact placed_onLine hlines.1 _
          · exact hlater f hf

theorem argumentNaming_sound : Check.Sound argumentNaming := by
  intro t
  unfold argumentNaming
  refine Yields.bind (P := fun found => ∀ fs ∈ found, AllPlaced t fs) ?_
    fun found hfound => yields_pure ?_
  · refine yields_mapM fun ⟨line, number⟩ hline => ?_
    dsimp only
    split
    · exact yields_pure (by simp [AllPlaced])
    · rename_i m hm
      obtain ⟨list, -, hlist⟩ := (finds_of_find? hm).exists_group (i := 1) (by decide)
      rw [hlist]
      refine yields_pure fun f hf => ?_
      obtain ⟨name, -, rfl⟩ := List.mem_map.mp hf
      exact placed_onLine hline _
  · intro f hf
    obtain ⟨fs, hfs, hf⟩ := List.mem_flatten.mp hf
    exact hfound fs hfs f hf

theorem lineTooLong_sound : Check.Sound lineTooLong :=
  fun t => yields_pure (allPlaced_filter t fun _ _ => ⟨_, rfl⟩)

/-! ### Names in an import from a module -/

/-- The words that blanks separate. -/
def blankSeparated (t : Text) : List Text :=
  (Text.pieces Unicode.isBlank t).filter fun w => !w.isEmpty

theorem lastWord_eq_nil_iff (t : Text) : lastWord t = [] ↔ blankSeparated t = [] := by
  show (blankSeparated t).getLast?.getD [] = [] ↔ _
  constructor
  · intro h
    cases hlast : (blankSeparated t).getLast? with
    | none => exact List.getLast?_eq_none_iff.mp hlast
    | some w =>
        have hmem := (List.mem_filter.mp (List.mem_of_getLast? hlast)).2
        rw [hlast, Option.getD_some] at h
        simp [h] at hmem
  · intro h
    rw [h]
    rfl

/-- The last word is that of what stands behind the first blank, if there is one. -/
theorem lastWord_eq {t piece rest : Text}
    (h : Text.pieces Unicode.isBlank t = piece :: Text.pieces Unicode.isBlank rest) :
    lastWord t = if lastWord rest = [] then piece else lastWord rest := by
  have hwords : blankSeparated t = (if piece.isEmpty then [] else [piece]) ++ blankSeparated rest := by
    rw [blankSeparated, h, List.filter_cons, blankSeparated]
    cases piece <;> rfl
  have hlast : lastWord t = (blankSeparated t).getLast?.getD [] := rfl
  by_cases hrest : lastWord rest = []
  · rw [if_pos hrest, hlast, hwords, (lastWord_eq_nil_iff rest).mp hrest]
    cases piece <;> rfl
  · have hne : blankSeparated rest ≠ [] := fun hnil => hrest ((lastWord_eq_nil_iff rest).mpr hnil)
    rw [if_neg hrest, hlast, hwords, List.getLast?_append, List.getLast?_eq_some_getLast hne,
      Option.some_or, ← List.getLast?_eq_some_getLast hne]
    rfl

/-- Behind the last word there are blanks only, and before it a blank or nothing. -/
theorem exists_lastWord (t : Text) :
    ∃ lead trail, t = lead ++ lastWord t ++ trail ∧
      (∀ c ∈ lastWord t, Unicode.isBlank c = false) ∧ (∀ c ∈ trail, Unicode.isBlank c = true) ∧
      (∀ c, lead.getLast? = some c → Unicode.isBlank c = true) ∧ (lastWord t = [] → lead = []) := by
  induction hlength : t.length using Nat.strongRecOn generalizing t with
  | ind n ih =>
      obtain ⟨piece, hpiece, ⟨rfl, hpieces⟩ | ⟨c, rest, hc, rfl, hpieces⟩⟩ :=
        Text.pieces_cases Unicode.isBlank t
      · have hlast : lastWord t = t := by
          show ((Text.pieces Unicode.isBlank t).filter fun w => !w.isEmpty).getLast?.getD [] = t
          rw [hpieces]
          cases t <;> rfl
        rw [hlast]
        exact ⟨[], [], by simp, hpiece, by simp, by simp, fun _ => rfl⟩
      · have hlast := lastWord_eq hpieces
        obtain ⟨lead, trail, hrest, hword, htrail, hlead, hnone⟩ :=
          ih rest.length (by simp at hlength; omega) rest rfl
        by_cases hnil : lastWord rest = []
        · rw [if_pos hnil] at hlast
          rw [hnil, hnone hnil, List.append_nil, List.nil_append] at hrest
          rw [hlast]
          refine ⟨[], c :: rest, rfl, hpiece, ?_, by simp, fun _ => rfl⟩
          rw [hrest]
          simpa [hc] using htrail
        · rw [if_neg hnil] at hlast
          rw [hlast]
          refine ⟨piece ++ c :: lead, trail, ?_, hword, htrail, ?_, fun h => absurd h hnil⟩
          · conv => lhs; rw [hrest]
            simp
          · intro d hd
            rw [List.getLast?_append, List.getLast?_cons, Option.some_or] at hd
            cases hlast : lead.getLast? with
            | none =>
                rw [hlast] at hd
                exact Option.some.inj hd ▸ hc
            | some e =>
                rw [hlast] at hd
                exact Option.some.inj hd ▸ hlead e hlast

theorem not_infix_of_blank {c : Char} {more trail : Text}
    (hword : ∀ d ∈ c :: more, Unicode.isBlank d = false)
    (htrail : ∀ d ∈ trail, Unicode.isBlank d = true) : ¬ (c :: more) <:+: more ++ trail := by
  intro hoccurs
  -- There are too few characters other than blanks.
  have hle := hoccurs.countP_le (p := fun d => !Unicode.isBlank d)
  have hall : (c :: more).countP (fun d => !Unicode.isBlank d) = (c :: more).length :=
    List.countP_eq_length.mpr fun d hd => by simp [hword d hd]
  have hnone : trail.countP (fun d => !Unicode.isBlank d) = 0 :=
    List.countP_eq_zero.mpr fun d hd => by simp [htrail d hd]
  have hmore := List.countP_le_length (p := fun d => !Unicode.isBlank d) (l := more)
  rw [hall, List.countP_append, hnone, List.length_cons] at hle
  omega

/-- The last word of an entry is a word of the text, and stands where it is looked for. -/
theorem stands_of_entryBinding? {t entry : Text} {offset : Nat} {b : Binding}
    (hapart : Words.Apart t ⟨offset, entry⟩)
    (hchars : ∀ c ∈ entry, Unicode.isWord c = true ∨ Unicode.isBlank c = true)
    (h : entryBinding? offset entry = some b) : Words.Stands t b.name := by
  obtain ⟨hne, h⟩ := Option.ite_none_left_eq_some.mp h
  obtain rfl := Option.some.inj h
  obtain ⟨lead, trail, hentry, hword, htrail, hlead, -⟩ := exists_lastWord entry
  generalize lastWord entry = w at *
  have hne : w ≠ [] := by simpa using hne
  have hfind : Text.findLast? w entry = some (Text.size lead) := by
    obtain ⟨c, more, rfl⟩ := List.exists_cons_of_ne_nil hne
    have hparts : entry = lead ++ c :: (more ++ trail) := by rw [hentry]; simp
    rw [hparts]
    exact Text.findLast?_append lead (not_infix_of_blank hword htrail)
  rw [hfind, Option.getD_some]
  refine ⟨hne, fun c hc => ?_, hapart.shift hentry ?_ ?_⟩
  · have hmem : c ∈ entry := by
      rw [hentry]
      simp [show c ∈ w from hc]
    rcases hchars c hmem with h | h
    · exact h
    · rw [hword c hc] at h
      exact absurd h Bool.false_ne_true
  · exact Words.any_isWord_eq_false fun c hc =>
      Unicode.isWord_eq_false_of_isBlank (hlead c hc)
  · exact Words.any_isWord_eq_false fun c hc =>
      Unicode.isWord_eq_false_of_isBlank (htrail c (List.mem_of_head? hc))

/-- The induction is on the text of the entries that are left. -/
theorem stands_of_mem_bindingsFrom {t names : Text} {offset : Nat} {b : Binding}
    (hapart : Words.Apart t ⟨offset, names⟩)
    (hchars : ∀ c ∈ names, c ≠ ',' → Unicode.isWord c = true ∨ Unicode.isBlank c = true)
    (h : b ∈ bindingsFrom offset (Text.pieces (· == ',') names)) : Words.Stands t b.name := by
  induction hlength : names.length using Nat.strongRecOn generalizing names offset with
  | ind n ih =>
      obtain ⟨entry, hcomma, ⟨rfl, hpieces⟩ | ⟨c, rest, hc, rfl, hpieces⟩⟩ :=
        Text.pieces_cases (· == ',') names
      · rw [hpieces, bindingsFrom, bindingsFrom, List.append_nil] at h
        refine stands_of_entryBinding? hapart (fun c hc => ?_) (Option.mem_toList.mp h)
        exact hchars c hc fun heq => by simpa [heq] using hcomma c hc
      · rw [hpieces] at h
        have hcomma' : c = ',' := by simpa using hc
        rcases List.mem_append.mp h with h | h
        · have hparts : entry ++ c :: rest = [] ++ entry ++ c :: rest := rfl
          have hfront := hapart.shift hparts rfl (by rw [hcomma']; rfl)
          refine stands_of_entryBinding? hfront (fun c hc => ?_) (Option.mem_toList.mp h)
          exact hchars c (List.mem_append_left _ hc) fun heq => by simpa [heq] using hcomma c hc
        · have hparts : entry ++ c :: rest = entry ++ [c] ++ rest ++ [] := by simp
          have hback := hapart.shift hparts (by rw [List.getLast?_append, hcomma']; rfl) rfl
          have hsize : Text.size (entry ++ [c]) = Text.size entry + 1 := by
            rw [hcomma', Text.size_append]
            rfl
          rw [hsize, ← Nat.add_assoc] at hback
          refine ih rest.length (by simp at hlength; omega) hback ?_ h rfl
          exact fun d hd => hchars d (by simp [hd])

/-- The names stand between a blank and the end of their line. -/
theorem apart_of_mem_fromImport {t : Text} {names : Span} (h : names ∈ fromImport.findGroups 1 t) :
    Words.Apart t names ∧ ∀ c ∈ names.text, c ≠ ',' →
      Unicode.isWord c = true ∨ Unicode.isBlank c = true := by
  obtain ⟨pre, here, stop, _, hpre, ⟨b, _, _, ⟨a, _, _, ⟨y, _, _, hfront, hgap, rfl⟩,
    ⟨inner, hnames, rfl⟩, rfl⟩, hend, rfl⟩, hs⟩ := exists_matches_of_mem_findGroups h
  obtain ⟨w, hw, -, hall, rfl⟩ := hnames.exists_several
  have hahead := hend.freeAhead_of_lineEnd
  obtain ⟨-, rfl, rfl⟩ := hend
  obtain rfl : Span.between a stop = names := Option.some.inj hs
  obtain ⟨u₁, hu₁⟩ := hfront.passes
  obtain ⟨u₂, hu₂⟩ := hgap.passes
  have hbefore := hgap.freeBefore_of_several fun _ => isWord_eq_false_of_spaceOrTab
  refine ⟨((hpre.trans hu₁).trans hu₂).apart hw hbefore hahead, ?_⟩
  rw [Span.between_eq hw]
  intro c hc hcomma
  rcases Bool.or_eq_true_iff.mp (hall c hc) with hword | hamong
  · exact .inl hword
  · have hcases : c = ' ' ∨ c = '\t' ∨ c = ',' := by simpa [among] using hamong
    rcases hcases with rfl | rfl | rfl
    · exact .inr rfl
    · exact .inr rfl
    · exact absurd rfl hcomma

/-! ### Names in a plain import -/

/-- Between the keyword of an import and the blanks behind it there is a word edge. -/
theorem atWordEdge_of_import {x y a : Cursor} {first later : Groups}
    (himport : Matches (text "import") x y first) (hgap : Matches (several spaceOrTab) y a later) :
    y.atWordEdge = true := by
  have hbefore : y.before.any Unicode.isWord = true := by
    rw [himport.passes_exactly.1.before]
    rfl
  have hahead : y.ahead.head?.any Unicode.isWord = false :=
    hgap.freeAhead_of_several fun _ => isWord_eq_false_of_spaceOrTab
  rw [Cursor.atWordEdge, hbefore, hahead]
  rfl

/-- The first part of a module's path stands apart as the path does. -/
theorem apart_takeWhile_dot {t : Text} {s : Span} (h : Words.Apart t s) :
    Words.Apart t ⟨s.start, s.text.takeWhile (· != '.')⟩ := by
  have hparts : s.text = [] ++ s.text.takeWhile (· != '.') ++ s.text.dropWhile (· != '.') := by
    rw [List.nil_append, List.takeWhile_append_dropWhile]
  refine h.shift hparts rfl (Words.any_isWord_eq_false fun c hc => ?_)
  have hhead := List.head?_dropWhile_not (· != '.') s.text
  have hdot : c = '.' := by simpa [hc] using hhead
  rw [hdot]
  rfl

theorem isWord_of_mem_takeWhile_dot {w : Text}
    (hw : ∀ c ∈ w, union word (among ".") c = true) {c : Char} (hc : c ∈ w.takeWhile (· != '.')) :
    Unicode.isWord c = true := by
  have hdot := List.all_eq_true.mp List.all_takeWhile c hc
  have hcases : Unicode.isWord c = true ∨ c = '.' := by
    simpa [union, word, among] using hw c ((List.takeWhile_sublist _).subset hc)
  rcases hcases with hword | rfl
  · exact hword
  · simp at hdot

theorem takeWhile_dot_eq_self {w : Text} (hw : ∀ c ∈ w, Unicode.isWord c = true) :
    w.takeWhile (· != '.') = w := by
  have hdot : ∀ c ∈ w, (c != '.') = true := by
    intro c hc
    have hword := hw c hc
    simp only [bne_iff_ne, ne_eq]
    rintro rfl
    exact absurd hword (by decide)
  have htake : (w ++ []).takeWhile (· != '.') = w ++ [].takeWhile (· != '.') :=
    List.takeWhile_append_of_pos hdot
  simpa using htake

/-- What a plain import binds is a word of the text, or nothing. -/
theorem plainBinding?_cases {t : Text} {m : Found} {binding : Binding}
    (hm : m ∈ importLine.findAll t) (h : plainBinding? m = some binding) :
    Words.Stands t binding.name ∨
      binding.name.text = [] ∧
        ∃ pre here, (Cursor.start t).Passes pre here ∧ here.atWordEdge = true := by
  obtain ⟨pre, here, stop, _, hpre, ⟨f, _, _, ⟨e, _, _, ⟨b, _, _, ⟨a, _, _, ⟨y, _, _,
    ⟨x, _, _, hfront, himport, rfl⟩, hgap, rfl⟩, ⟨inner, hmodule, rfl⟩, rfl⟩, halias, rfl⟩, htrail, rfl⟩,
    hend, rfl⟩, rfl⟩ := (finds_of_mem_findAll hm).exists_matches
  obtain ⟨u₁, hu₁⟩ := hfront.passes
  obtain ⟨u₂, hu₂⟩ := himport.passes
  obtain ⟨u₃, hu₃⟩ := hgap.passes
  obtain ⟨w, hw, -, hall, rfl⟩ := hmodule.exists_several
  have hy := (hpre.trans hu₁).trans hu₂
  have hedge := atWordEdge_of_import himport hgap
  have hbefore := hgap.freeBefore_of_several fun _ => isWord_eq_false_of_spaceOrTab
  have hline := hend.freeAhead_of_lineEnd
  obtain ⟨-, rfl, rfl⟩ := hend
  obtain ⟨blanks, hblanks, htrail, rfl⟩ := htrail
  have hahead : e.FreeAhead :=
    hblanks.freeAhead (fun c hc => isWord_eq_false_of_spaceOrTab (htrail c hc)) hline
  simp only [plainBinding?, bind, Option.bind_eq_some_iff] at h
  obtain ⟨module_, hfirst, h⟩ := h
  obtain rfl := Option.some.inj h
  rcases halias with ⟨g, _, _, ⟨z, _, _, hfront', hgap', rfl⟩, ⟨inner', halias, rfl⟩, rfl⟩ | ⟨rfl, rfl⟩
  · obtain ⟨v, hv, hne, hword, rfl⟩ := halias.exists_several
    obtain ⟨u₄, hu₄⟩ := hfront'.passes
    obtain ⟨u₅, hu₅⟩ := hgap'.passes
    have hbefore' := hgap'.freeBefore_of_several fun _ => isWord_eq_false_of_spaceOrTab
    have hstands := ((((hy.trans hu₃).trans hw).trans hu₄).trans hu₅).stands hv hne hword hbefore'
      hahead
    have hwhole : (Span.between g e).text.takeWhile (· != '.') = (Span.between g e).text := by
      rw [Span.between_eq hv]
      exact takeWhile_dot_eq_self hword
    left
    show Words.Stands t ⟨(Span.between g e).start, (Span.between g e).text.takeWhile (· != '.')⟩
    rw [hwhole]
    exact hstands
  · obtain ⟨_, _, _, ⟨-, rfl, rfl⟩, ⟨_, _, _, rfl⟩, rfl⟩ := hfront
    obtain rfl := himport.passes_exactly.2
    obtain ⟨_, _, _, _, rfl⟩ := hgap.exists_several
    obtain rfl : Span.between a e = module_ := Option.some.inj hfirst
    have hapart := apart_takeWhile_dot ((hy.trans hu₃).apart hw hbefore hahead)
    by_cases hnil : (Span.between a e).text.takeWhile (· != '.') = []
    · exact .inr ⟨hnil, _, y, hy, hedge⟩
    · refine .inl ⟨hnil, fun c hc => ?_, hapart⟩
      have hmem : c ∈ (Span.between a e).text.takeWhile (· != '.') := hc
      rw [Span.between_eq hw] at hmem
      exact isWord_of_mem_takeWhile_dot hall hmem

/-! ### Imports -/

theorem isPlace_of_group {t : Text} {m : Found} (hm : m ∈ importLine.findAll t) {i : Nat} {s : Span}
    (hp : groupConsumes (i + 1) importLine = true) (hs : m.group? (i + 1) = some s) :
    t.IsPlace s.start := by
  obtain ⟨hpart, hne⟩ := (finds_of_mem_findAll hm).group?_partOf hs
  exact hpart.isPlace (hne hp)

theorem isPlace_of_plainBinding? {t : Text} {m : Found} {b : Binding}
    (hm : m ∈ importLine.findAll t) (h : plainBinding? m = some b) : t.IsPlace b.name.start := by
  simp only [plainBinding?, bind, Option.bind_eq_some_iff] at h
  obtain ⟨module_, hmodule, h⟩ := h
  obtain rfl := Option.some.inj h
  cases halias : m.group? 2 with
  | none =>
      have hplace := isPlace_of_group hm (by decide) hmodule
      exact hplace
  | some bound =>
      have hplace := isPlace_of_group hm (by decide) halias
      exact hplace

theorem stands_of_mem_fromImport {t : Text} {names : Span} {b : Binding}
    (hnames : names ∈ fromImport.findGroups 1 t)
    (h : b ∈ bindingsFrom names.start (Text.pieces (· == ',') names.text)) :
    Words.Stands t b.name := by
  obtain ⟨hapart, hchars⟩ := apart_of_mem_fromImport hnames
  exact stands_of_mem_bindingsFrom hapart hchars h

theorem isPlace_of_mem_bindings {t : Text} {b : Binding} (h : b ∈ bindings t) :
    t.IsPlace b.name.start := by
  rcases List.mem_append.mp h with h | h
  · obtain ⟨m, hm, h⟩ := List.mem_filterMap.mp h
    exact isPlace_of_plainBinding? hm h
  · obtain ⟨names, hnames, h⟩ := List.mem_flatMap.mp h
    exact (stands_of_mem_fromImport hnames h).isPlace

/-- A bound name is used elsewhere, or it is a word of the text only once. -/
theorem isUsed_of_mem_bindings {t : Text} {b : Binding} (h : b ∈ bindings t) :
    Words.isUsed t b.name = !Words.occursOnce t b.name.text := by
  rcases List.mem_append.mp h with h | h
  · obtain ⟨m, hm, h⟩ := List.mem_filterMap.mp h
    rcases plainBinding?_cases hm h with hstands | ⟨hnil, pre, here, hpass, hedge⟩
    · exact Words.isUsed_eq hstands
    · have hname : b.name = ⟨b.name.start, []⟩ := by rw [← hnil]
      rw [hname, Words.isUsed_nil hpass hedge, Words.occursOnce_nil]
      rfl
  · obtain ⟨names, hnames, h⟩ := List.mem_flatMap.mp h
    exact Words.isUsed_eq (stands_of_mem_fromImport hnames h)

theorem unusedImport_sound : Check.Sound unusedImport :=
  fun _ => yields_mapM fun _ hb =>
    atOffset_sound (isPlace_of_mem_bindings (List.mem_filter.mp hb).1) _

theorem names_bindingsFrom (offset : Nat) (entries : List Text) :
    (bindingsFrom offset entries).map (·.name.text) =
      (entries.map lastWord).filter fun w => !w.isEmpty := by
  induction entries generalizing offset with
  | nil => rfl
  | cons entry rest ih =>
      rw [bindingsFrom, List.map_append, ih, List.map_cons, List.filter_cons, entryBinding?]
      cases (lastWord entry).isEmpty <;> rfl

/-- The names that imports bind, told without offsets. -/
theorem names_bindings (t : Text) :
    (bindings t).map (·.name.text) =
      ((importLine.findAll t).filterMap fun m =>
        (m.group? 1).map fun module_ =>
          ((m.group? 2).getD module_).text.takeWhile (· != '.'))
      ++ (fromImport.findGroups 1 t).flatMap fun names =>
        ((Text.pieces (· == ',') names.text).map lastWord).filter fun w => !w.isEmpty := by
  rw [bindings, List.map_append, List.map_filterMap, List.map_flatMap]
  simp only [names_bindingsFrom]
  congr 2
  funext m
  rw [plainBinding?]
  cases m.group? 1 <;> rfl

/-- Unused imports are those whose bound name is a word of the text only once. -/
theorem unusedImport_exact :
    Check.ReportsUnused unusedImport bindings (·.name.text) fun t b =>
      Finding.atOffset t b.name.start
        ("Unused import detected: " ++ String.ofList b.imported ++ ".") := by
  refine reportsUnused_of_eq unusedImport_sound fun t => ?_
  have hfilter : (bindings t).filter (fun b => !Words.isUsed t b.name) =
      (bindings t).filter fun b => Words.occursOnce t b.name.text :=
    List.filter_congr fun b hb => by rw [isUsed_of_mem_bindings hb, Bool.not_not]
  show ((bindings t).filter fun b => !Words.isUsed t b.name).mapM _ = _
  rw [hfilter]

/-! ### Lines -/

theorem multipleImports_sound : Check.Sound multipleImports :=
  fun t => yields_pure (allPlaced_filter t fun _ _ => ⟨_, rfl⟩)

theorem indentationWidth_sound : Check.Sound indentationWidth :=
  fun t => yields_pure (allPlaced_filter t fun _ _ => ⟨_, rfl⟩)

theorem variableNaming_sound : Check.Sound variableNaming := by
  refine fun t => yields_pure (allPlaced_filterMap t fun line n f hf => ?_)
  simp only [misnamedGlobal?, bind, Option.bind_eq_some_iff] at hf
  obtain ⟨m, -, variable_, -, hf⟩ := hf
  split at hf
  · simp at hf
  · exact ⟨_, (Option.some.inj hf).symm⟩

theorem superfluousParens_sound : Check.Sound superfluousParens := by
  refine fun t => yields_pure (allPlaced_filterMap t fun line n f hf => ?_)
  obtain ⟨construct, -, rfl⟩ := Option.map_eq_some_iff.mp hf
  exact ⟨_, rfl⟩

theorem ruleSet_sound : ∀ rule ∈ ruleSet.rules, Check.Sound rule.check := by
  simp only [ruleSet, List.forall_mem_cons]
  exact ⟨fun t => ifPresent_sound t _ _, fun _ => undocumentedFrom_sound fun _ hx => hx,
    argumentNaming_sound, lineTooLong_sound, unusedImport_sound, multipleImports_sound,
    indentationWidth_sound, variableNaming_sound, superfluousParens_sound, by simp⟩

/-! ### Messages -/

theorem undocumentedFrom_wording {P : String → Prop}
    (h : ∀ function, OneLine function →
      P ("Function \"" ++ function ++ "\" should have a docstring.")) (number : Nat)
    (lines : List Text) : Gives (undocumentedFrom number lines) (AllSay P) := by
  induction lines generalizing number with
  | nil => exact gives_pure allSay_nil
  | cons line rest ih =>
      unfold undocumentedFrom
      refine (ih _).bind fun later hlater => ?_
      split
      · exact gives_pure hlater
      · rename_i m hm
        split
        · exact gives_pure hlater
        · refine ((finds_of_find? hm).gives_group (by decide)).bind fun function hname => ?_
          exact gives_pure (List.forall_mem_cons.mpr ⟨h _ (.ofList hname), hlater⟩)

/-- A parameter's name is a part of the list. -/
theorem mem_of_mem_misnamedParameters {list name : Text} {c : Char}
    (hname : name ∈ misnamedParameters list) (hc : c ∈ name) : c ∈ list := by
  obtain ⟨written, hwritten, rfl⟩ := List.mem_map.mp (List.mem_filter.mp hname).1
  have htrim := Text.mem_of_mem_trim ((List.dropWhile_sublist _).subset hc)
  exact Text.mem_of_mem_pieces hwritten ((List.takeWhile_sublist _).subset htrim)

theorem argumentNaming_wording {P : String → Prop}
    (h : ∀ name, OneLine name →
      P ("Function argument \"" ++ name ++ "\" should follow snake_case convention.")) :
    Check.Says P argumentNaming := by
  intro t
  refine Gives.bind (P := fun found => ∀ fs ∈ found, AllSay P fs) ?_ fun found hfound => ?_
  · refine gives_mapM fun x _ => ?_
    dsimp only
    split
    · exact gives_pure allSay_nil
    · rename_i m hm
      refine ((finds_of_find? hm).gives_group (by decide)).bind fun list hfeed => ?_
      refine gives_pure (map_wording fun name hname => h _ (.ofList fun hmem => ?_))
      exact hfeed (mem_of_mem_misnamedParameters hname hmem)
  · refine gives_pure fun f hf => ?_
    obtain ⟨fs, hfs, hf⟩ := List.mem_flatten.mp hf
    exact hfound fs hfs f hf

theorem variableNaming_wording {P : String → Prop}
    (h : ∀ variable_ number line, OneLine variable_ → OneLine number → OneLine line →
      P ("Global variable \"" ++ variable_ ++ "\" should follow snake_case convention at line "
        ++ number ++ ": \"" ++ line ++ "\"")) : Check.Says P variableNaming := by
  refine fun t => gives_pure (filterMap_wording fun ⟨line, number⟩ hmem f hf => ?_)
  simp only [misnamedGlobal?, bind, Option.bind_eq_some_iff] at hf
  obtain ⟨m, hm, variable_, hgroup, hf⟩ := hf
  split at hf
  · simp at hf
  · obtain rfl := Option.some.inj hf
    have hname : '\n' ∉ variable_.text := (finds_of_find? hm).notMem_group (by decide) hgroup
    have hline := Text.newline_notMem_of_mem_numberedLines hmem
    exact h _ _ _ (.ofList hname) (.toString number) (.trim hline)

theorem oneLine_of_parenthesised? {line : Text} {construct : String}
    (h : parenthesised? line = some construct) : OneLine construct := by
  unfold parenthesised? at h
  split at h
  · obtain rfl := Option.some.inj h
    exact .of_eq rfl (by decide)
  · obtain ⟨-, h⟩ := Option.ite_none_right_eq_some.mp h
    obtain rfl := Option.some.inj h
    exact .of_eq rfl (by decide)

theorem superfluousParens_wording {P : String → Prop}
    (h : ∀ construct number line, OneLine construct → OneLine number → OneLine line →
      P ("Avoid unnecessary parentheses in " ++ construct ++ " at line " ++ number ++ ": \"" ++ line
        ++ "\"")) : Check.Says P superfluousParens := by
  refine fun t => gives_pure (filterMap_wording fun ⟨line, number⟩ hmem f hf => ?_)
  obtain ⟨construct, hconstruct, rfl⟩ := Option.map_eq_some_iff.mp hf
  have hline := Text.newline_notMem_of_mem_numberedLines hmem
  exact h _ _ _ (oneLine_of_parenthesised? hconstruct) (.toString number) (.trim hline)

/-- What the rules say is told from what is shown where nothing was found. -/
theorem ruleSet_telling : ∀ rule ∈ ruleSet.rules, Check.Says Telling rule.check := by
  simp only [ruleSet, List.forall_mem_cons]
  refine ⟨fun _ => ifPresent_wording ?_,
    fun _ => undocumentedFrom_wording (fun _ _ => ?_) _ _,
    argumentNaming_wording fun _ _ => ?_,
    fun _ => gives_pure (onLines_wording fun _ _ _ _ => ⟨_, rfl, ?_⟩),
    fun _ => atOffsets_wording fun _ _ => ?_,
    fun _ => gives_pure (onLines_wording fun _ _ _ _ => ⟨_, rfl, ?_⟩),
    fun _ => gives_pure (onLines_wording fun _ _ _ _ => ⟨_, rfl, ?_⟩),
    variableNaming_wording fun _ _ _ _ _ _ => ?_,
    superfluousParens_wording fun _ _ _ _ _ _ => ?_,
    by simp⟩
  all_goals
    repeat with_reducible apply Telling.append
    exact .of_eq rfl (by decide)

theorem mem_of_mem_lastWord {t : Text} {c : Char} (h : c ∈ lastWord t) : c ∈ t := by
  obtain ⟨lead, trail, ht, -⟩ := exists_lastWord t
  rw [ht]
  simp [h]

theorem newline_notMem_bindingsFrom {offset : Nat} {entries : List Text} {b : Binding}
    (hentries : ∀ entry ∈ entries, '\n' ∉ entry) (h : b ∈ bindingsFrom offset entries) :
    '\n' ∉ b.imported := by
  induction entries generalizing offset with
  | nil => simp [bindingsFrom] at h
  | cons entry rest ih =>
      rw [List.forall_mem_cons] at hentries
      rcases List.mem_append.mp h with h | h
      · obtain ⟨-, h⟩ := Option.ite_none_left_eq_some.mp (Option.mem_toList.mp h)
        obtain rfl := Option.some.inj h
        exact fun hmem => hentries.1 (mem_of_mem_lastWord hmem)
      · exact ih hentries.2 h

theorem newline_notMem_imported {t : Text} {b : Binding} (h : b ∈ bindings t) :
    '\n' ∉ b.imported := by
  rcases List.mem_append.mp h with h | h
  · obtain ⟨m, hm, h⟩ := List.mem_filterMap.mp h
    simp only [plainBinding?, bind, Option.bind_eq_some_iff] at h
    obtain ⟨module_, hmodule, h⟩ := h
    obtain rfl := Option.some.inj h
    exact (finds_of_mem_findAll hm).notMem_group (by decide) hmodule
  · obtain ⟨names, hnames, h⟩ := List.mem_flatMap.mp h
    have hfeed : '\n' ∉ names.text := notMem_of_mem_findGroups (by decide) hnames
    refine newline_notMem_bindingsFrom (fun entry hentry hmem => ?_) h
    exact hfeed (Text.mem_of_mem_pieces hentry hmem)

theorem unusedImport_wording {P : String → Prop}
    (h : ∀ name, OneLine name → P ("Unused import detected: " ++ name ++ ".")) :
    Check.Says P unusedImport := by
  refine fun t => atOffsets_wording fun b hb => h _ (.ofList ?_)
  exact newline_notMem_imported (List.mem_filter.mp hb).1

/-- What the rules say stays on one line. -/
theorem ruleSet_oneLine : ∀ rule ∈ ruleSet.rules, Check.Says OneLine rule.check := by
  simp only [ruleSet, List.forall_mem_cons]
  refine ⟨fun _ => ifPresent_wording ?_,
    fun _ => undocumentedFrom_wording (fun _ _ => ?_) _ _,
    argumentNaming_wording fun _ _ => ?_,
    fun _ => gives_pure (onLines_wording fun _ _ _ _ => ⟨_, rfl, ?_⟩),
    unusedImport_wording fun _ _ => ?_,
    fun _ => gives_pure (onLines_wording fun _ _ _ _ => ⟨_, rfl, ?_⟩),
    fun _ => gives_pure (onLines_wording fun _ _ _ _ => ⟨_, rfl, ?_⟩),
    variableNaming_wording fun _ _ _ _ _ _ => ?_,
    superfluousParens_wording fun _ _ _ _ _ _ => ?_,
    by simp⟩
  all_goals
    repeat' with_reducible apply OneLine.append
    all_goals with_reducible first | assumption | exact OneLine.toString _ | exact .of_eq rfl (by decide)

/-! ### Line endings -/

/-- All rules but one point to the same lines whatever the line endings. -/
theorem ruleSet_steady : ∀ rule ∈ ruleSet.rules,
    rule.id ∈ Rule.endingIds .python ∨ Check.Steady rule.check := by
  simp only [ruleSet, List.forall_mem_cons]
  refine ⟨.inr (Check.steady_ifOccurs (by decide)), .inr (Check.steady_of_eq fun t ht => ?_),
    .inr (Check.steady_of_eq fun t ht => ?_), .inr (Check.steady_of_eq fun t ht => ?_),
    .inl (by decide), .inr (Check.steady_of_eq fun t ht => ?_),
    .inr (Check.steady_of_eq fun t ht => ?_), .inr (Check.steady_of_eq fun t ht => ?_),
    .inr (Check.steady_of_eq fun t ht => ?_), by simp⟩
  · rw [missingDocstring, Text.lines_crlf ht]
    rfl
  · rw [argumentNaming, Text.numberedLines_crlf ht]
    rfl
  · rw [lineTooLong, Text.numberedLines_crlf ht]
    rfl
  · rw [multipleImports, Text.numberedLines_crlf ht]
    rfl
  · rw [indentationWidth, Text.numberedLines_crlf ht]
    rfl
  · rw [variableNaming, Text.numberedLines_crlf ht]
    rfl
  · rw [superfluousParens, Text.numberedLines_crlf ht]
    rfl

/-! ### Order -/

theorem undocumentedFrom_sublist (number : Nat) (lines : List Text) :
    Gives (undocumentedFrom number lines) fun fs =>
      (fs.filterMap (·.line)).Sublist ((lines.zipIdx number).map Prod.snd) := by
  induction lines generalizing number with
  | nil => exact gives_pure .slnil
  | cons line rest ih =>
      unfold undocumentedFrom
      refine (ih _).bind fun later hlater => ?_
      split
      · exact gives_pure (hlater.cons number)
      · split
        · exact gives_pure (hlater.cons number)
        · exact gives_bind fun _ => gives_pure (hlater.cons_cons number)

theorem missingDocstring_ordered : Check.Ordered missingDocstring :=
  fun t fs hfs =>
    inOrder_of_sublist (Text.growing_numberedLines t) (undocumentedFrom_sublist 1 _ fs hfs)

theorem argumentNaming_ordered : Check.Ordered argumentNaming := by
  refine fun t => flatten_inOrder (Text.growing_numberedLines t) fun ⟨line, number⟩ => ?_
  dsimp only
  split
  · exact gives_pure (by simp)
  · refine gives_bind fun list => gives_pure fun f hf => ?_
    obtain ⟨name, -, rfl⟩ := List.mem_map.mp hf
    rfl

theorem variableNaming_ordered : Check.Ordered variableNaming := by
  refine fun t => gives_pure (filterMap_inOrder (Text.growing_numberedLines t) ?_)
  intro ⟨line, number⟩ f hf
  have hf : misnamedGlobal? line number = some f := hf
  simp only [misnamedGlobal?, bind, Option.bind_eq_some_iff] at hf
  obtain ⟨m, -, variable_, -, hf⟩ := hf
  obtain rfl := Option.some.inj (Option.ite_none_left_eq_some.mp hf).2
  rfl

theorem superfluousParens_ordered : Check.Ordered superfluousParens := by
  refine fun t => gives_pure (filterMap_inOrder (Text.growing_numberedLines t) ?_)
  intro x f hf
  obtain ⟨construct, -, rfl⟩ := Option.map_eq_some_iff.mp hf
  rfl

/-- All rules but one report from the first line to the last. -/
theorem ruleSet_ordered : ∀ rule ∈ ruleSet.rules,
    rule.id = "unused-import" ∨ Check.Ordered rule.check := by
  simp only [ruleSet, List.forall_mem_cons]
  exact ⟨.inr fun _ => ifPresent_inOrder _ _,
    .inr missingDocstring_ordered,
    .inr argumentNaming_ordered, .inr (filterLines_ordered fun _ => rfl), .inl trivial,
    .inr (filterLines_ordered fun _ => rfl), .inr (filterLines_ordered fun _ => rfl),
    .inr variableNaming_ordered, .inr superfluousParens_ordered, by simp⟩

end SnippetLint.Python
