/-
Unused imports of Python come in two rows.

The rule looks for plain imports first and for imports from a module after them, so its findings as
a whole are in no order.  Each row is: matches follow each other, and the names in one list stand in
the order of its entries.  To which row a finding belongs can be seen from it, because its snippet is
the line of the statement without the blanks before the keyword, and so begins with the keyword.
-/
import SnippetLint.Proofs.Rules.Python

namespace SnippetLint

/-! ### Keywords of lines -/

namespace Text

/-- What stands before the first blank of a text. -/
def firstWord (t : Text) : Text := t.takeWhile fun c => !Unicode.isBlank c

section

variable {word : Text} (hword : ∀ c ∈ word, Unicode.isBlank c = false)

include hword

theorem trimEnd_append (rest : Text) : trimEnd (word ++ rest) = word ++ trimEnd rest := by
  have hstay : word.reverse.dropWhile Unicode.isBlank = word.reverse := by
    rw [List.dropWhile_eq_self_iff]
    intro hpos
    exact Bool.eq_false_iff.mp (hword _ (List.mem_reverse.mp (List.getElem_mem hpos)))
  rw [trimEnd, trimEnd, List.reverse_append, List.dropWhile_append]
  split
  · rename_i hblank
    rw [hstay, List.reverse_reverse, List.isEmpty_iff.mp hblank]
    simp
  · rw [List.reverse_append, List.reverse_reverse]

theorem firstWord_append {rest : Text}
    (hrest : ∀ c, rest.head? = some c → Unicode.isBlank c = true) :
    firstWord (word ++ rest) = word := by
  have hstop : rest.takeWhile (fun c => !Unicode.isBlank c) = [] := by
    cases rest with
    | nil => rfl
    | cons c more => simp [hrest c rfl]
  rw [firstWord, List.takeWhile_append_of_pos fun c hc => by simp [hword c hc], hstop,
    List.append_nil]

/-- Trimming leaves a word in its place that only blanks stand before. -/
theorem firstWord_trim {lead : Text} (hlead : ∀ c ∈ lead, Unicode.isBlank c = true)
    (hne : word ≠ []) {rest : Text} (hrest : ∀ c, rest.head? = some c → Unicode.isBlank c = true) :
    firstWord (trim (lead ++ word ++ rest)) = word := by
  obtain ⟨trail, htrail⟩ := exists_trimEnd rest
  obtain ⟨c, more, rfl⟩ := List.exists_cons_of_ne_nil hne
  have hstart : trimStart (lead ++ (c :: more) ++ rest) = c :: more ++ rest := by
    have hc := hword c List.mem_cons_self
    rw [trimStart, List.append_assoc, List.dropWhile_append_of_pos hlead, List.cons_append,
      List.dropWhile_cons_of_neg (Bool.eq_false_iff.mp hc)]
  rw [trim, hstart, trimEnd_append hword]
  refine firstWord_append hword fun d hd => hrest d ?_
  rw [htrail, List.head?_append, hd, Option.some_or]

end

/-- Around any place of a line, what `lineAt` shows is that line. -/
theorem snippet_of_lineAt {pre line post snippet : Text} {offset n : Nat}
    (hpre : ∀ c, pre.getLast? = some c → c = '\n') (hline : '\n' ∉ line)
    (hstart : size pre ≤ offset) (hstop : offset ≤ size (pre ++ line))
    (h : lineAt (pre ++ line ++ post) offset = .ok (n, snippet)) :
    snippet = trim (line ++ lineHead post) := by
  obtain ⟨head, hhead, hsize, -⟩ := exists_of_lineAt h
  have hle : size (pre ++ line) ≤ size (pre ++ line ++ post) := by
    rw [size_append (pre ++ line)]
    exact Nat.le_add_right _ _
  have hoffset : size head = offset := by omega
  have hwhole : pre ++ line <+: pre ++ line ++ post := List.prefix_append _ _
  obtain ⟨front, rfl⟩ := prefix_of_size_le ((List.prefix_append pre line).trans hwhole) hhead
    (by omega)
  obtain ⟨back, hback⟩ := prefix_of_size_le hhead hwhole (by omega)
  rw [List.append_assoc] at hback
  obtain rfl := List.append_cancel_left hback
  rw [List.mem_append, not_or] at hline
  have hsplit : pre ++ (front ++ back) ++ post = pre ++ front ++ (back ++ post) := by simp
  rw [hsplit, ← hoffset, lineAt_append] at h
  obtain ⟨-, rfl⟩ := Prod.mk.inj (Except.ok.inj h)
  rw [lineTail_of_start hpre hline.1, lineHead_append_of_notMem hline.2, List.append_assoc]

end Text

/-! ### Statements -/

namespace Finding

/-- A finding whose line is a statement that begins with a keyword. -/
def OfStatement (keyword : String) (f : Finding) : Prop :=
  ∃ n line, f.line = some n ∧ f.snippet = some (String.ofList line) ∧
    Text.firstWord line = keyword.toList

end Finding

namespace Pattern

/-- How a line with a statement begins: a keyword, and blanks on either side. -/
def statement (keyword : String) : Pattern :=
  lineStart ++ many spaceOrTab ++ text keyword ++ several spaceOrTab

/-- A pattern that begins with another one. -/
inductive BeginsWith (q : Pattern) : Pattern → Prop
  | self : BeginsWith q q
  | both {p r : Pattern} (h : BeginsWith q p) : BeginsWith q (.both p r)

theorem BeginsWith.exists_matches {p q : Pattern} (hq : BeginsWith q p) {a b : Cursor} {new : Groups}
    (h : Matches p a b new) : ∃ m first s, Matches q a m first ∧ m.Passes s b := by
  induction hq generalizing b new with
  | self => exact ⟨b, new, [], h, .refl b⟩
  | both _ ih =>
      obtain ⟨m, first, later, hp, hr, -⟩ := h
      obtain ⟨m', first', s, hq, hs⟩ := ih hp
      obtain ⟨u, hu⟩ := hr.passes
      exact ⟨m', first', s ++ u, hq, hs.trans hu⟩

theorem isBlank_of_spaceOrTab {c : Char} (h : spaceOrTab c = true) : Unicode.isBlank c = true := by
  rcases Bool.or_eq_true_iff.mp h with h | h <;> rw [beq_iff_eq.mp h] <;> rfl

theorem Matches.exists_statement {keyword : String} {a b : Cursor} {new : Groups}
    (h : Matches (statement keyword) a b new) :
    (∀ c, a.before = some c → c = '\n') ∧ ∃ lead gap, a.Passes (lead ++ keyword.toList ++ gap) b ∧
      (∀ c ∈ lead, Unicode.isBlank c = true) ∧ gap ≠ [] ∧ ∀ c ∈ gap, Unicode.isBlank c = true := by
  obtain ⟨m, _, _, ⟨x, _, _, ⟨_, _, _, ⟨hstart, rfl, -⟩, ⟨lead, hpass, hlead, -⟩, -⟩, hkeyword, -⟩,
    hgap, -⟩ := h
  obtain ⟨gap, hpass', hne, hgap, -⟩ := hgap.exists_several
  exact ⟨hstart, lead, gap, (hpass.trans hkeyword.passes_exactly.1).trans hpass',
    fun c hc => isBlank_of_spaceOrTab (hlead c hc), hne,
    fun c hc => isBlank_of_spaceOrTab (hgap c hc)⟩

/-- A pattern for a statement that begins with a keyword and stays on its line. -/
structure ForStatement (keyword : String) (p : Pattern) : Prop where
  begins : BeginsWith (statement keyword) p
  avoids : p.avoids '\n' = true
  ne_nil : keyword.toList ≠ []
  notBlank : (keyword.toList.all fun c => !Unicode.isBlank c) = true

/-- What is found within a statement is reported on its line. -/
theorem ForStatement.ofStatement {keyword : String} {p : Pattern} (hp : ForStatement keyword p)
    {t : Text} {m : Found} (hm : Finds p t m) {offset : Nat} (hstart : m.whole.start ≤ offset)
    (hstop : offset ≤ m.whole.stop) {message : String} {f : Finding}
    (h : Finding.atOffset t offset message = .ok f) : f.OfStatement keyword := by
  obtain ⟨n, snippet, hline, rfl⟩ := Finding.exists_of_atOffset h
  refine ⟨n, snippet, rfl, rfl, ?_⟩
  obtain ⟨pre, here, stop, new, hpre, hmatch, rfl⟩ := hm.exists_matches
  obtain ⟨line, hpass, hnone⟩ := hmatch.avoids hp.avoids
  obtain ⟨x, _, rest, hfront, hrest⟩ := hp.begins.exists_matches hmatch
  obtain ⟨hbegin, lead, gap, hopening, hlead, hgap, hblank⟩ := hfront.exists_statement
  have hbegin : ∀ c, pre.getLast? = some c → c = '\n' := fun c hc =>
    hbegin c (by rw [hpre.before, hc, Option.some_or])
  have hopens : line = lead ++ keyword.toList ++ gap ++ rest :=
    List.append_cancel_right (hpass.ahead.symm.trans (hopening.trans hrest).ahead)
  have hwhole : (Found.between here stop new).whole = ⟨Text.size pre, line⟩ := by
    rw [← hpre.offset_start]
    exact Span.between_eq hpass
  have ht : t = pre ++ line ++ stop.ahead := by
    rw [hpre.eq_append, hpass.ahead, List.append_assoc]
  rw [hwhole] at hstart hstop
  rw [Span.stop, ← Text.size_append] at hstop
  rw [ht] at hline
  have hshown : line ++ Text.lineHead stop.ahead =
      lead ++ keyword.toList ++ (gap ++ (rest ++ Text.lineHead stop.ahead)) := by
    rw [hopens]
    simp
  have hword : ∀ c ∈ keyword.toList, Unicode.isBlank c = false := fun c hc => by
    simpa using List.all_eq_true.mp hp.notBlank c hc
  rw [Text.snippet_of_lineAt hbegin hnone hstart hstop hline, hshown]
  refine Text.firstWord_trim hword hlead hp.ne_nil fun c hc => ?_
  obtain ⟨d, more, rfl⟩ := List.exists_cons_of_ne_nil hgap
  obtain rfl : d = c := Option.some.inj hc
  exact hblank d List.mem_cons_self

end Pattern

namespace Python

open Finding Pattern

/-! ### Bindings -/

/-- The names of some bindings begin one after the other. -/
def Successive (bindings : List Binding) : Prop :=
  bindings.Pairwise fun b b' => b.name.start ≤ b'.name.start

theorem exists_group_of_plainBinding? {m : Found} {b : Binding} (h : plainBinding? m = some b) :
    ∃ i s, m.group? i = some s ∧ b.name.start = s.start := by
  simp only [plainBinding?, bind, Option.bind_eq_some_iff] at h
  obtain ⟨module_, hmodule, h⟩ := h
  obtain rfl := Option.some.inj h
  cases halias : m.group? 2 with
  | none => exact ⟨1, module_, hmodule, rfl⟩
  | some bound => exact ⟨2, bound, halias, rfl⟩

theorem successive_plain (t : Text) : Successive ((importLine.findAll t).filterMap plainBinding?) := by
  refine List.pairwise_filterMap.mpr ((pairwise_findAll importLine t).imp ?_)
  intro m m' hbefore b hb b' hb'
  obtain ⟨i, s, hs, hstart⟩ := exists_group_of_plainBinding? hb
  obtain ⟨j, s', hs', hstart'⟩ := exists_group_of_plainBinding? hb'
  rw [hstart, hstart']
  exact (hbefore hs hs').start_le

/-- The name of an entry begins within it. -/
theorem start_of_entryBinding? {offset : Nat} {entry : Text} {b : Binding}
    (h : entryBinding? offset entry = some b) :
    offset ≤ b.name.start ∧ b.name.start ≤ offset + Text.size entry := by
  obtain ⟨-, h⟩ := Option.ite_none_left_eq_some.mp h
  obtain rfl := Option.some.inj h
  refine ⟨Nat.le_add_right _ _, Nat.add_le_add_left ?_ offset⟩
  cases hfind : Text.findLast? (lastWord entry) entry with
  | none => exact Nat.zero_le _
  | some found => exact Text.findLast?_le hfind

/-- The induction is on the text of the entries that are left. -/
theorem bindingsFrom_within (offset : Nat) (names : Text) :
    let bindings := bindingsFrom offset (Text.pieces (· == ',') names)
    (∀ b ∈ bindings, offset ≤ b.name.start ∧ b.name.start ≤ offset + Text.size names) ∧
      Successive bindings := by
  induction hlength : names.length using Nat.strongRecOn generalizing names offset with
  | ind n ih =>
      have hfirst : ∀ {entry b}, b ∈ (entryBinding? offset entry).toList →
          offset ≤ b.name.start ∧ b.name.start ≤ offset + Text.size entry :=
        fun hb => start_of_entryBinding? (Option.mem_toList.mp hb)
      have hone : ∀ entry, Successive (entryBinding? offset entry).toList := by
        intro entry
        cases entryBinding? offset entry with
        | none => exact .nil
        | some b => exact List.pairwise_singleton _ _
      obtain ⟨entry, -, ⟨rfl, hpieces⟩ | ⟨c, rest, hc, rfl, hpieces⟩⟩ :=
        Text.pieces_cases (· == ',') names
      · rw [hpieces, bindingsFrom, bindingsFrom, List.append_nil]
        exact ⟨fun b hb => hfirst hb, hone _⟩
      · obtain ⟨hwithin, hrest⟩ := ih rest.length (by simp at hlength; omega)
          (offset + Text.size entry + 1) rest rfl
        have hsize : Text.size (entry ++ c :: rest) = Text.size entry + 1 + Text.size rest := by
          rw [beq_iff_eq.mp hc, Text.size_append, Text.size_cons, ← Nat.add_assoc]
          rfl
        rw [hpieces, bindingsFrom, hsize]
        refine ⟨fun b hb => ?_, List.pairwise_append.mpr ⟨hone _, hrest, fun b hb b' hb' => ?_⟩⟩
        · rcases List.mem_append.mp hb with hb | hb
          · have hb := hfirst hb
            omega
          · have hb := hwithin b hb
            omega
        · have hb := hfirst hb
          have hb' := hwithin b' hb'
          omega

theorem successive_named (t : Text) :
    Successive ((fromImport.findGroups 1 t).flatMap fun names =>
      bindingsFrom names.start (Text.pieces (· == ',') names.text)) := by
  refine List.pairwise_flatMap.mpr ⟨fun names _ => (bindingsFrom_within _ _).2, ?_⟩
  refine (pairwise_findGroups fromImport 1 t).imp fun {names names'} hbefore b hb b' hb' => ?_
  have hb := ((bindingsFrom_within _ _).1 b hb).2
  have hb' := ((bindingsFrom_within _ _).1 b' hb').1
  exact Nat.le_trans hb (Nat.le_trans hbefore hb')

/-! ### Rows -/

/-- The name that is reported stands in a statement. -/
def StandsIn (p : Pattern) (t : Text) (b : Binding) : Prop :=
  ∃ m, Finds p t m ∧ m.whole.start ≤ b.name.start ∧ b.name.start ≤ m.whole.stop

theorem standsIn_plain {t : Text} {b : Binding}
    (h : b ∈ (importLine.findAll t).filterMap plainBinding?) : StandsIn importLine t b := by
  obtain ⟨m, hm, hb⟩ := List.mem_filterMap.mp h
  obtain ⟨i, s, hs, hstart⟩ := exists_group_of_plainBinding? hb
  have hwithin := (finds_of_mem_findAll hm).group?_within hs
  refine ⟨m, finds_of_mem_findAll hm, ?_, ?_⟩
  · rw [hstart]
    exact hwithin.start
  · rw [hstart]
    exact Nat.le_trans s.start_le_stop hwithin.stop

theorem standsIn_named {t : Text} {b : Binding}
    (h : b ∈ (fromImport.findGroups 1 t).flatMap fun names =>
      bindingsFrom names.start (Text.pieces (· == ',') names.text)) : StandsIn fromImport t b := by
  obtain ⟨names, hnames, hb⟩ := List.mem_flatMap.mp h
  obtain ⟨m, hm, hgroup⟩ := List.mem_filterMap.mp hnames
  have hwithin := (finds_of_mem_findAll hm).group?_within hgroup
  obtain ⟨hstart, hstop⟩ := (bindingsFrom_within _ _).1 b hb
  exact ⟨m, finds_of_mem_findAll hm, Nat.le_trans hwithin.start hstart,
    Nat.le_trans hstop hwithin.stop⟩

/-- Findings in the order of lines, all about statements that begin with one keyword. -/
structure Row (keyword : String) (fs : List Finding) : Prop where
  inOrder : InOrder fs
  ofStatement : ∀ f ∈ fs, f.OfStatement keyword

theorem Row.nil (keyword : String) : Row keyword [] := ⟨.nil, by simp⟩

/-- Names in statements, reported one after the other. -/
theorem report_row {keyword : String} {p : Pattern} (hp : ForStatement keyword p) {t : Text}
    {bindings : List Binding} (hsuccessive : Successive bindings)
    (hstands : ∀ b ∈ bindings, StandsIn p t b) (message : Binding → String) :
    Gives (bindings.mapM fun b => atOffset t b.name.start (message b)) (Row keyword) := by
  have hinOrder : Gives (bindings.mapM fun b => atOffset t b.name.start (message b)) InOrder :=
    atOffsets_inOrder (fun b : Binding => b.name.start) message hsuccessive
  have hstatements : Gives (bindings.mapM fun b => atOffset t b.name.start (message b))
      fun fs => ∀ f ∈ fs, f.OfStatement keyword := by
    refine gives_mapM fun b hb f hf => ?_
    obtain ⟨m, hm, hstart, hstop⟩ := hstands b hb
    exact hp.ofStatement hm hstart hstop hf
  exact fun fs hfs => ⟨hinOrder fs hfs, hstatements fs hfs⟩

theorem importLine_forStatement : ForStatement "import" importLine where
  begins := .both (.both (.both (.both .self)))
  avoids := by decide
  ne_nil := by decide
  notBlank := by decide

theorem fromImport_forStatement : ForStatement "from" fromImport where
  begins := .both (.both (.both (.both (.both (.both .self)))))
  avoids := by decide
  ne_nil := by decide
  notBlank := by decide

/-- The rule reports on plain imports first, and on imports from a module then. -/
theorem unusedImport_rows (t : Text) : Gives (unusedImport t) fun fs =>
    ∃ plain named, fs = plain ++ named ∧ Row "import" plain ∧ Row "from" named := by
  unfold unusedImport
  dsimp only
  rw [bindings, List.filter_append, List.mapM_append]
  refine (report_row importLine_forStatement ((successive_plain t).filter _) (fun b hb => ?_)
    _).bind fun plain hplain => ?_
  · exact standsIn_plain (List.mem_filter.mp hb).1
  · refine (report_row fromImport_forStatement ((successive_named t).filter _) (fun b hb => ?_)
      _).bind fun named hnamed => gives_pure ⟨plain, named, rfl, hplain, hnamed⟩
    exact standsIn_named (List.mem_filter.mp hb).1

end Python

end SnippetLint
