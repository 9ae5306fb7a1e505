/-
Rules that look at each line alone.

Such a rule finds in a text behind whole lines what it finds in the lines and what it finds in the
text, with the numbers of the lines counted on (`Check.Local`).  A rule that goes through the numbered
lines and reports on each apart from the others does so by its form.  Some rules search the whole text
instead and ask for the line around each offset that they find.  For these it has to be shown that
nothing they look for reaches over the end of a line: no word does, and no operator.
-/
import Mathlib.Data.List.Sort
import SnippetLint.Proofs.Comparison
import SnippetLint.Proofs.Names
import SnippetLint.Proofs.Numerals
import SnippetLint.Proofs.Text.Joined
import SnippetLint.Registry

namespace SnippetLint

namespace Finding

/-- Where a finding points to. -/
def sight (f : Finding) : Option Nat × Option String := (f.line, f.snippet)

/-- Where a finding points to once some lines have been put before the text. -/
def sightBelow (n : Nat) (f : Finding) : Option Nat × Option String := (f.line.map (· + n), f.snippet)

end Finding

open Finding

/-- What a check finds in a text behind whole lines is what it finds in the lines and then what it
finds in the text, below them. -/
def Check.Local (check : Check) : Prop :=
  ∀ a b : Text, a.EndsLine → ∃ above below both,
    check a = .ok above ∧ check b = .ok below ∧ check (a ++ b) = .ok both ∧
      both.map sight = above.map sight ++ below.map (sightBelow (Text.lines a).length)

namespace Check

open Text (lineBelow)

/-! ### Line by line -/

/-- A check that goes through the numbered lines. -/
theorem local_of_lines (report : List (Text × Nat) → List Finding)
    (hreport : ∀ l l' n, (report (l ++ l'.map (lineBelow n))).map sight =
      (report l).map sight ++ (report l').map (sightBelow n)) :
    Check.Local fun t => return report (Text.numberedLines t) := by
  intro a b ha
  refine ⟨_, _, _, rfl, rfl, rfl, ?_⟩
  rw [Text.numberedLines_join ha]
  exact hreport _ _ _

/-- Findings on each line, the same whatever its number is. -/
theorem local_flatMap {report : Text × Nat → List Finding}
    (hreport : ∀ x n, (report (lineBelow n x)).map sight = (report x).map (sightBelow n)) :
    Check.Local fun t => return (Text.numberedLines t).flatMap report := by
  refine local_of_lines (fun l => l.flatMap report) fun l l' n => ?_
  rw [List.flatMap_append, List.map_append, List.flatMap_map, List.map_flatMap (l := l'),
    List.map_flatMap (l := l')]
  exact congrArg _ (congrArg (l'.flatMap ·) (funext fun x => hreport x n))

/-- A finding on some lines. -/
theorem local_filterMap {report : Text × Nat → Option Finding}
    (hreport : ∀ x n, (report (lineBelow n x)).map sight = (report x).map (sightBelow n)) :
    Check.Local fun t => return (Text.numberedLines t).filterMap report := by
  simp only [List.filterMap_eq_flatMap_toList]
  refine local_flatMap fun x n => ?_
  rw [← Option.toList_map, ← Option.toList_map, hreport]

/-- A finding on each line that passes a test. -/
theorem local_filter {test : Text × Nat → Bool} {report : Text × Nat → Finding}
    (htest : ∀ x n, test (lineBelow n x) = test x)
    (hreport : ∀ x n, sight (report (lineBelow n x)) = sightBelow n (report x)) :
    Check.Local fun t => return ((Text.numberedLines t).filter test).map report := by
  refine local_of_lines (fun l => (l.filter test).map report) fun l l' n => ?_
  have htests : test ∘ lineBelow n = test := funext fun x => htest x n
  rw [List.filter_append, List.map_append, List.map_append, List.filter_map, htests]
  simp only [List.map_map]
  exact congrArg _ (List.map_congr_left fun x _ => hreport x n)

end Check

/-! ### Offset by offset -/

namespace Finding

/-- What is seen at an offset. -/
def seenAt (t : Text) (offset : Nat) : Option Nat × Option String :=
  match Text.lineAt t offset with
  | .ok (number, line) => (some number, some (String.ofList line))
  | .error _ => (none, none)

section

variable {a b t : Text} {offset : Nat}

theorem atOffset_eq_ok (h : t.IsPlace offset) (message : String) :
    atOffset t offset message = .ok ⟨message, (seenAt t offset).1, (seenAt t offset).2⟩ := by
  obtain ⟨pre, c, post, rfl, rfl⟩ := h
  rw [atOffset, seenAt, Text.lineAt_append]
  rfl

theorem seenAt_left (ha : a.EndsLine) (h : a.IsPlace offset) (b : Text) :
    seenAt (a ++ b) offset = seenAt a offset := by
  rw [seenAt, Text.lineAt_of_place_left ha h, seenAt]

theorem seenAt_right (ha : a.EndsLine) (h : b.IsPlace offset) :
    seenAt (a ++ b) (Text.size a + offset) =
      Prod.map (·.map (· + (Text.lines a).length)) id (seenAt b offset) := by
  rw [seenAt, Text.lineAt_of_place_right ha h, seenAt]
  cases Text.lineAt b offset <;> rfl

end

end Finding

/-- What is looked for behind whole lines is found where it is found in the lines, and where it is
found in the text, and all these offsets are places. -/
structure Text.FoundLocally {α : Type} (found : Text → List α) (offset : α → Nat) : Prop where
  isPlace : ∀ t, ∀ x ∈ found t, t.IsPlace (offset x)
  join : ∀ a b, a.EndsLine → (found (a ++ b)).map offset =
    (found a).map offset ++ (found b).map fun x => Text.size a + offset x

/-- A check that reports at offsets. -/
theorem Check.local_atOffsets {α : Type} {check : Check} {found : Text → List α} {offset : α → Nat}
    (message : α → String)
    (hcheck : ∀ t, check t = (found t).mapM fun x => atOffset t (offset x) (message x))
    (h : Text.FoundLocally found offset) : check.Local := by
  let seen (t : Text) (x : α) : Finding :=
    ⟨message x, (seenAt t (offset x)).1, (seenAt t (offset x)).2⟩
  have hok : ∀ t, check t = .ok ((found t).map (seen t)) := fun t =>
    (hcheck t).trans (mapM_eq_ok fun x hx => atOffset_eq_ok (h.isPlace t x hx) (message x))
  have hsights : ∀ t, ((found t).map (seen t)).map sight = ((found t).map offset).map (seenAt t) := by
    intro t
    rw [List.map_map, List.map_map]
    rfl
  intro a b ha
  refine ⟨_, _, _, hok a, hok b, hok (a ++ b), ?_⟩
  rw [hsights, hsights, h.join a b ha, List.map_append, List.map_map, List.map_map, List.map_map,
    List.map_map]
  congr 1
  · exact List.map_congr_left fun x hx => seenAt_left ha (h.isPlace a x hx) b
  · exact List.map_congr_left fun x hx => seenAt_right ha (h.isPlace b x hx)

/-! ### Words -/

namespace Words

/-- No word reaches over the end of a line. -/
theorem spans_join {a : Text} (ha : a.EndsLine) (b : Text) :
    spans (a ++ b) = spans a ++ (spans b).map fun s => ⟨Text.size a + s.start, s.text⟩ := by
  by_cases hne : a = []
  · subst hne
    have hsame : (spans b).map (fun s => ⟨Text.size [] + s.start, s.text⟩) = spans b := by
      simp only [Text.size_nil, Nat.zero_add]
      exact List.map_id _
    rw [hsame]
    rfl
  · obtain ⟨front, rfl⟩ := ha.exists_concat hne
    rw [spans_concat Unicode.isWord_lineFeed, spans, List.append_assoc, List.singleton_append,
      spansFrom_append Unicode.isWord_lineFeed, Nat.zero_add, ← Nat.add_zero (Text.size _),
      spansFrom_shift]
    rfl

/-- Words of digits that are chosen by their text. -/
theorem foundLocally_numerals (test : Text → Bool) :
    Text.FoundLocally (fun t => (numerals t).filter fun s => test s.text) Span.start where
  isPlace t s hs := ((lists_numerals t).2 s |>.mp (List.mem_filter.mp hs).1).stands.isPlace
  join a b ha := by
    simp only [numerals_eq, spans_join ha, List.filter_append, List.map_append, List.filter_map,
      List.map_map]
    rfl

end Words

/-! ### Loose operators -/

theorem Text.bytes_append (a b : Text) : bytes (a ++ b) = bytes a ++ bytes b := by
  simp [bytes]

theorem Text.size_bytes (t : Text) : (bytes t).size = size t := by
  induction t with
  | nil => rfl
  | cons c rest ih =>
      simp only [bytes, List.size_toArray, List.flatMap_cons, List.length_append,
        String.length_utf8EncodeChar] at ih ⊢
      rw [ih, size_cons]

namespace LooseOperator

section

variable {front back : Array UInt8} {p q : Nat} {op : LooseOperator}

/-- Bytes that end with a line feed, or none. -/
def EndsLine (bytes : Array UInt8) : Prop := ∀ k, k + 1 = bytes.size → bytes[k]? = some '\n'.toUInt8

theorem endsLine_bytes {a : Text} (ha : a.EndsLine) : EndsLine (Text.bytes a) := by
  intro k hk
  have hne : a ≠ [] := by
    rintro rfl
    exact absurd hk (Nat.succ_ne_zero k)
  obtain ⟨lines, rfl⟩ := ha.exists_concat hne
  rw [Text.bytes_append] at hk ⊢
  have hsize : (Text.bytes ['\n']).size = 1 := rfl
  rw [Array.size_append, hsize] at hk
  rw [Array.getElem?_append_right (by omega), show k - (Text.bytes lines).size = 0 by omega]
  rfl

/-- An operator is told from its two bytes and from those beside them. -/
theorem OccursAt.congr {bytes bytes' : Array UInt8} (h : OccursAt bytes p op)
    (hsame : ∀ k, k ≤ p + 2 → bytes[k]? = bytes'[k]?) : OccursAt bytes' p op := by
  cases op with
  | equal =>
      obtain ⟨hfirst, hsecond, hthird, hbefore⟩ := occursAt_equal_iff.mp h
      rw [hsame _ (by omega)] at hfirst hsecond hthird
      refine occursAt_equal_iff.mpr ⟨hfirst, hsecond, hthird, fun k b hk hb => ?_⟩
      exact hbefore k b hk ((hsame k (by omega)).trans hb)
  | unequal =>
      have hiff := occursAt_unequal_iff.mp h
      rw [hsame p (by omega), hsame (p + 1) (by omega), hsame (p + 2) (by omega)] at hiff
      exact occursAt_unequal_iff.mpr hiff

/-- No operator holds a line feed. -/
theorem OccursAt.not_newline {bytes : Array UInt8} (h : OccursAt bytes p op) :
    bytes[p]? ≠ some '\n'.toUInt8 ∧ bytes[p + 1]? ≠ some '\n'.toUInt8 := by
  refine ⟨fun hfeed => ?_, fun hfeed => ?_⟩
  · rcases h.first_cases with ⟨hb, -⟩ | ⟨hb, -⟩
    · exact absurd (hfeed.symm.trans hb) (by decide)
    · exact absurd (hfeed.symm.trans hb) (by decide)
  · exact absurd (hfeed.symm.trans h.second) (by decide)

theorem OccursAt.lt_size {bytes : Array UInt8} (h : OccursAt bytes p op) : p + 1 < bytes.size :=
  (Array.getElem?_eq_some_iff.mp h.second).1

/-- An operator that begins in front of the end of a line stops there. -/
theorem OccursAt.stop_lt (hends : EndsLine front) {bytes : Array UInt8} (h : OccursAt bytes p op)
    (hlt : p < front.size) (hsame : ∀ k < front.size, bytes[k]? = front[k]?) :
    p + 2 < front.size := by
  obtain ⟨hfirst, hsecond⟩ := h.not_newline
  by_contra hle
  obtain heq | heq : p + 1 = front.size ∨ p + 1 + 1 = front.size := by omega
  · exact hfirst ((hsame p hlt).trans (hends p heq))
  · exact hsecond ((hsame (p + 1) (by omega)).trans (hends (p + 1) heq))

theorem occursAt_append_left (hends : EndsLine front) (hlt : p < front.size) :
    OccursAt (front ++ back) p op ↔ OccursAt front p op := by
  have hsame : ∀ k < front.size, (front ++ back)[k]? = front[k]? :=
    fun k hk => Array.getElem?_append_left hk
  constructor
  · intro h
    have hstop := h.stop_lt hends hlt hsame
    exact h.congr fun k hk => hsame k (by omega)
  · intro h
    have hstop := h.stop_lt hends hlt fun _ _ => rfl
    exact h.congr fun k hk => (hsame k (by omega)).symm

theorem occursAt_append_right (hends : EndsLine front) :
    OccursAt (front ++ back) (front.size + q) op ↔ OccursAt back q op := by
  have hshift : ∀ k, (front ++ back)[front.size + k]? = back[k]? := by
    intro k
    rw [Array.getElem?_append_right (Nat.le_add_right _ _), Nat.add_sub_cancel_left]
  cases op with
  | equal =>
      rw [occursAt_equal_iff, occursAt_equal_iff, Nat.add_assoc, Nat.add_assoc, hshift, hshift,
        hshift]
      refine and_congr_right fun _ => and_congr_right fun _ => and_congr_right fun _ => ?_
      constructor
      · intro h k b hk hb
        exact h (front.size + k) b (by omega) ((hshift k).trans hb)
      · intro h k b hk hb
        by_cases hlt : k < front.size
        · rw [Array.getElem?_append_left hlt, hends k (by omega)] at hb
          rw [← Option.some.inj hb]
          decide
        · rw [show k = front.size + (k - front.size) by omega, hshift] at hb
          exact h (k - front.size) b (by omega) hb
  | unequal =>
      rw [occursAt_unequal_iff, occursAt_unequal_iff, Nat.add_assoc, Nat.add_assoc, hshift, hshift,
        hshift]

end

/-- The loose operators of a text. -/
def operators (t : Text) : List (Nat × LooseOperator) := (findAll t).toOption.getD []

theorem operators_exact (t : Text) : findAll t = .ok (operators t) ∧
    ExactFrom (Text.bytes t) 0 (operators t) := by
  obtain ⟨ops, hok, hexact⟩ := findAll_yields t
  have hops : operators t = ops := by rw [operators, hok]; rfl
  rw [hops]
  exact ⟨hok, hexact⟩

theorem mem_operators_iff {t : Text} {op : Nat × LooseOperator} :
    op ∈ operators t ↔ OccursAt (Text.bytes t) op.1 op.2 := by
  rw [(operators_exact t).2.mem_iff, and_iff_right (Nat.zero_le _)]

/-- Operators are known in their order once it is known which there are. -/
theorem operators_eq {t : Text} {ops : List (Nat × LooseOperator)}
    (hops : ops.Pairwise fun x y => x.1 < y.1)
    (hmem : ∀ op, op ∈ ops ↔ OccursAt (Text.bytes t) op.1 op.2) : operators t = ops := by
  have hirrefl : Std.Irrefl fun x y : Nat × LooseOperator => x.1 < y.1 := ⟨fun _ => Nat.lt_irrefl _⟩
  have hantisymm : Std.Antisymm fun x y : Nat × LooseOperator => x.1 < y.1 :=
    ⟨fun _ _ h h' => absurd h (Nat.lt_asymm h')⟩
  refine (operators_exact t).2.ascending.eq_of_mem_iff hops fun op => ?_
  rw [mem_operators_iff, hmem]

/-- No operator reaches over the end of a line. -/
theorem operators_join {a : Text} (ha : a.EndsLine) (b : Text) :
    operators (a ++ b) = operators a ++ (operators b).map (Prod.map (Text.size a + ·) id) := by
  have hends := endsLine_bytes ha
  refine operators_eq ?_ fun ⟨p, op⟩ => ?_
  · refine List.pairwise_append.mpr ⟨(operators_exact a).2.ascending, ?_, ?_⟩
    · exact (operators_exact b).2.ascending.map _ fun x y hlt => Nat.add_lt_add_left hlt _
    · intro x hx y hy
      obtain ⟨y, -, rfl⟩ := List.mem_map.mp hy
      have hlt := (mem_operators_iff.mp hx).lt_size
      rw [Text.size_bytes] at hlt
      exact Nat.lt_of_lt_of_le (Nat.lt_of_succ_lt hlt) (Nat.le_add_right _ _)
  · rw [List.mem_append, mem_operators_iff, Text.bytes_append]
    by_cases hlt : p < (Text.bytes a).size
    · rw [occursAt_append_left hends hlt, or_iff_left]
      intro hmem
      obtain ⟨x, -, hx⟩ := List.mem_map.mp hmem
      have hp : Text.size a + x.1 = p := congrArg Prod.fst hx
      rw [Text.size_bytes] at hlt
      omega
    · obtain ⟨q, rfl⟩ := Nat.exists_eq_add_of_le (Nat.le_of_not_lt hlt)
      rw [occursAt_append_right hends, or_iff_right fun hop => hlt (by have := hop.lt_size; omega),
        Text.size_bytes]
      constructor
      · intro hmem
        obtain ⟨⟨q', op'⟩, hx, heq⟩ := List.mem_map.mp hmem
        obtain ⟨hq, rfl⟩ := Prod.mk.inj heq
        obtain rfl := Nat.add_left_cancel hq
        exact mem_operators_iff.mp hx
      · exact fun hop => List.mem_map.mpr ⟨(q, op), mem_operators_iff.mpr hop, rfl⟩

theorem foundLocally_operators : Text.FoundLocally operators Prod.fst where
  isPlace t op hop := (mem_operators_iff.mp hop).isPlace
  join a b ha := by
    rw [operators_join ha, List.map_append, List.map_map]
    rfl

/-- Reporting loose operators. -/
theorem local_reports (message : LooseOperator → String) :
    Check.Local (fun t => do
      (← findAll t).mapM fun (offset, op) => atOffset t offset (message op)) := by
  refine Check.local_atOffsets (fun op => message op.2) (fun t => ?_) foundLocally_operators
  rw [(operators_exact t).1]
  rfl

end LooseOperator

/-! ### The rules -/

namespace Python

theorem lineTooLong_local : Check.Local lineTooLong :=
  Check.local_filter (fun _ _ => rfl) fun _ _ => rfl

theorem multipleImports_local : Check.Local multipleImports :=
  Check.local_filter (fun _ _ => rfl) fun _ _ => rfl

theorem indentationWidth_local : Check.Local indentationWidth :=
  Check.local_filter (fun _ _ => rfl) fun _ _ => rfl

theorem variableNaming_local : Check.Local variableNaming := by
  refine Check.local_filterMap fun ⟨line, number⟩ n => ?_
  show (misnamedGlobal? line (number + n)).map sight = (misnamedGlobal? line number).map _
  unfold misnamedGlobal?
  cases globalAssignment.find? line with
  | none => rfl
  | some m =>
      simp only [bind, Option.bind_some]
      cases m.group? 1 with
      | none => rfl
      | some variable_ =>
          simp only [Option.bind_some]
          split <;> rfl

theorem superfluousParens_local : Check.Local superfluousParens := by
  refine Check.local_filterMap fun ⟨line, number⟩ n => ?_
  show ((parenthesised? line).map _).map sight = ((parenthesised? line).map _).map _
  cases parenthesised? line <;> rfl

/-- What is reported on a line. -/
def misnamedArguments (x : Text × Nat) : List Finding :=
  match defHeader.find? x.1 with
  | none => []
  | some m => (misnamedParameters (m.textOf 2)).map fun name =>
      .onLine x.2 x.1 ("Function argument \"" ++ String.ofList name
        ++ "\" should follow snake_case convention.")

theorem argumentNaming_eq : argumentNaming =
    fun t => return (Text.numberedLines t).flatMap misnamedArguments := by
  funext t
  unfold argumentNaming
  rw [mapM_eq_ok (g := misnamedArguments) fun x _ => ?_]
  · rfl
  · unfold misnamedArguments
    dsimp only
    cases hfind : defHeader.find? x.1 with
    | none => rfl
    | some m =>
        obtain ⟨list, hlist, hgroup⟩ :=
          (Pattern.finds_of_find? hfind).exists_group (i := 1) (by decide)
        simp only [Found.textOf, hlist, hgroup]
        rfl

theorem argumentNaming_local : Check.Local argumentNaming := by
  rw [argumentNaming_eq]
  refine Check.local_flatMap fun x n => ?_
  unfold misnamedArguments
  rw [Text.lineBelow]
  cases defHeader.find? x.1 with
  | none => rfl
  | some m => simp only [List.map_map]; rfl

end Python

theorem Go.noSemicolons_local : Check.Local noSemicolons :=
  Check.local_filter (fun _ _ => rfl) fun _ _ => rfl

theorem Cpp.missingSemicolon_local : Check.Local missingSemicolon :=
  Check.local_filter (fun _ _ => rfl) fun _ _ => rfl

theorem Java.magicNumber_local : Check.Local magicNumber :=
  Check.local_atOffsets _ (fun _ => rfl) (Words.foundLocally_numerals isMagic)

theorem JavaScript.strictEquality_local : Check.Local strictEquality :=
  LooseOperator.local_reports strictMessage

theorem Php.strictComparison_local : Check.Local strictComparison :=
  LooseOperator.local_reports strictMessage

/-! ### All of them -/

/-- The rules of a language that look at each line alone. -/
def Rule.lineIds : Language → List String
  | .python => ["argument-naming", "line-too-long", "multiple-imports", "indentation-width",
      "variable-naming", "superfluous-parens"]
  | .go => ["no-semicolons"]
  | .cpp => ["missing-semicolon"]
  | .java => ["magic-number"]
  | .javascript => ["eqeqeq"]
  | .php => ["strict-comparison"]
  | _ => []

/-- **Rules on lines are local.**  Behind whole lines, whatever their endings are, such a rule finds in
a text what it finds in the lines and then what it finds in the text alone, as many lines below as
there are lines. -/
theorem local_of_mem_lineIds (language : Language) (id : String) (h : id ∈ Rule.lineIds language) :
    ∃ rules rule, Registry.builtin.resolve? language = some rules ∧ rules.rule? id = some rule ∧
      rule.check.Local := by
  cases language <;> simp only [Rule.lineIds, List.mem_cons, List.not_mem_nil, or_false] at h
  case cpp => exact h ▸ ⟨Cpp.ruleSet, _, rfl, rfl, Cpp.missingSemicolon_local⟩
  case java => exact h ▸ ⟨Java.ruleSet, _, rfl, rfl, Java.magicNumber_local⟩
  case go => exact h ▸ ⟨Go.ruleSet, _, rfl, rfl, Go.noSemicolons_local⟩
  case php => exact h ▸ ⟨Php.ruleSet, _, rfl, rfl, Php.strictComparison_local⟩
  case javascript => exact h ▸ ⟨JavaScript.ruleSet, _, rfl, rfl, JavaScript.strictEquality_local⟩
  case python =>
    refine ⟨Python.ruleSet, ?_⟩
    rcases h with rfl | rfl | rfl | rfl | rfl | rfl
    · exact ⟨_, rfl, rfl, Python.argumentNaming_local⟩
    · exact ⟨_, rfl, rfl, Python.lineTooLong_local⟩
    · exact ⟨_, rfl, rfl, Python.multipleImports_local⟩
    · exact ⟨_, rfl, rfl, Python.indentationWidth_local⟩
    · exact ⟨_, rfl, rfl, Python.variableNaming_local⟩
    · exact ⟨_, rfl, rfl, Python.superfluousParens_local⟩

theorem local_of_mem_lineIds_numerals :
    let a := "int é = 7;\r\n\n".toList
    let b := "  return 12;".toList
    "magic-number" ∈ Rule.lineIds .java ∧ Text.EndsLine a ∧ (Text.lines a).length = 2 ∧
      ∃ above below both, Java.magicNumber a = .ok above ∧ Java.magicNumber b = .ok below ∧
        Java.magicNumber (a ++ b) = .ok both ∧
        both.map sight = above.map sight ++ below.map (sightBelow 2) ∧
        both.map sight = [(some 1, some "int é = 7;"), (some 3, some "return 12;")] := by
  intro a b
  have hid : "magic-number" ∈ Rule.lineIds .java := by decide
  have ha : Text.EndsLine a := by decide
  obtain ⟨rules, rule, hrules, hrule, hlocal⟩ := local_of_mem_lineIds .java "magic-number" hid
  obtain rfl : Java.ruleSet = rules := Option.some.inj hrules
  have hcheck : rule.check = Java.magicNumber := congrArg Rule.check (Option.some.inj hrule).symm
  rw [hcheck] at hlocal
  obtain ⟨above, below, both, habove, hbelow, hboth, heq⟩ := hlocal a b ha
  have hsights : (Java.magicNumber (a ++ b)).toOption.map (·.map sight) =
      some [(some 1, some "int é = 7;"), (some 3, some "return 12;")] := by decide +kernel
  rw [hboth] at hsights
  exact ⟨hid, ha, by decide, above, below, both, habove, hbelow, hboth, heq, Option.some.inj hsights⟩

end SnippetLint
