/-
Parameters of a function header.

The check takes what stands between the parentheses of a header, cuts it at every comma, and reads the
front of each piece as the name of a parameter.  It does not know brackets.  So the first piece of a
parameter gives its name, whatever else stands in it (`parameterName_first`), and a comma in its
annotation or default cuts off more pieces, which are read as if they were parameters (`Parameter.cut`).
A parameter without such a comma yields its name and nothing else.

The parentheses themselves are found: the opening one is the first of the line, since no name holds one,
and the closing one is the last, since a search for characters of any kind goes as far as it can
(`group_defHeader`).
-/
import SnippetLint.Proofs.Names
import SnippetLint.Proofs.Pattern.Search
import SnippetLint.Proofs.Rules.Python
import SnippetLint.Proofs.Text.Pieces

namespace SnippetLint.Python

open Pattern

/-! ### Headers -/

/-- A parameter: stars, a name, and perhaps an annotation and a default, with blanks around the name.
No blank and none of the signs that may follow a name stand in a name. -/
structure Parameter where
  lead : Text
  stars : Nat
  name : Text
  pad : Text
  annotation : Option Text
  default : Option Text
  stars_le : stars ≤ 2 := by decide
  name_ne_nil : name ≠ [] := by decide
  blank_lead : lead.isBlank = true := by decide
  blank_pad : pad.isBlank = true := by decide
  all_name : name.all (fun c => !(Unicode.isBlank c || among ",:=*" c)) = true := by decide

namespace Parameter

/-- The stars and the name. -/
def starred (p : Parameter) : Text := List.replicate p.stars '*' ++ p.name

/-- An annotation and a default with the signs before them. -/
def extras (p : Parameter) : Text :=
  (p.annotation.map (':' :: ·)).getD [] ++ (p.default.map ('=' :: ·)).getD []

def text (p : Parameter) : Text := p.lead ++ (p.starred ++ (p.pad ++ p.extras))

end Parameter

/-- The header of a function on a line of its own. -/
structure Header where
  indent : Text
  isAsync : Bool
  name : Text
  parameters : List Parameter
  returns : Option Text
  blank_indent : indent.isBlank = true := by decide
  name_ne_nil : name ≠ [] := by decide
  all_name : name.all Unicode.isWord = true := by decide
  plain_returns : ∀ r ∈ returns,
    r ≠ [] ∧ r.head?.any Unicode.isBlank = false ∧ r.all (except ":)") = true := by decide

/-- Parameters with commas between them. -/
def written : List Parameter → Text
  | [] => []
  | [p] => p.text
  | p :: q :: more => p.text ++ ',' :: written (q :: more)

namespace Header

/-- What stands before the parentheses. -/
def front (h : Header) : Text :=
  h.indent ++ ((if h.isAsync then "async ".toList else []) ++ ("def ".toList ++ h.name))

/-- What stands behind the parentheses. -/
def back (h : Header) : Text := (h.returns.map (" -> ".toList ++ ·)).getD [] ++ [':']

def text (h : Header) : Text := h.front ++ '(' :: (written h.parameters ++ ')' :: h.back)

end Header

/-- A name that is not in lower case. -/
def misnamed (name : Text) : Bool := decide (name ≠ [] ∧ name ≠ Unicode.lower name)

/-! ### Names in a list of parameters -/

namespace Parameter

variable {p : Parameter}

theorem ne_of_mem_name {c : Char} (h : c ∈ p.name) :
    Unicode.isBlank c = false ∧ c ≠ ',' ∧ c ≠ ':' ∧ c ≠ '=' ∧ c ≠ '*' := by
  have hall := List.all_eq_true.mp p.all_name c h
  simpa [among] using hall

/-- Nothing before the name's end is a comma or a sign of an annotation or a default. -/
theorem plain_of_mem_front {c : Char} (h : c ∈ p.lead ++ (p.starred ++ p.pad)) :
    c ≠ ',' ∧ c ≠ ':' ∧ c ≠ '=' := by
  have hblank : ∀ {s : Text}, s.isBlank = true → c ∈ s → c ≠ ',' ∧ c ≠ ':' ∧ c ≠ '=' := by
    intro s hs hc
    have hall := List.all_eq_true.mp hs c hc
    refine ⟨?_, ?_, ?_⟩ <;> rintro rfl <;> exact absurd hall (by decide)
  rcases List.mem_append.mp h with h | h
  · exact hblank p.blank_lead h
  · rcases List.mem_append.mp h with h | h
    · rcases List.mem_append.mp h with h | h
      · rw [(List.mem_replicate.mp h).2]
        decide
      · obtain ⟨-, hcomma, hcolon, hequals, -⟩ := ne_of_mem_name h
        exact ⟨hcomma, hcolon, hequals⟩
    · exact hblank p.blank_pad h

/-- The names that are read off the pieces which a comma cuts off. -/
def cut (p : Parameter) : List Text := ((Text.pieces (· == ',') p.extras).tail).map parameterName

/-- An annotation or a default begins with a sign. -/
theorem takeWhile_extras (p : Parameter) {f : Char → Bool} (hcolon : f ':' = false)
    (hequals : f '=' = false) : p.extras.takeWhile f = [] := by
  unfold extras
  cases p.annotation with
  | some annotation => simp [hcolon]
  | none =>
      cases p.default with
      | some default => simp [hequals]
      | none => rfl

theorem trim_front (p : Parameter) : Text.trim (p.lead ++ (p.starred ++ p.pad)) = p.starred := by
  have hsolid : ∀ d ∈ p.starred, Unicode.isBlank d = false := by
    intro d hd
    rcases List.mem_append.mp hd with hd | hd
    · rw [(List.mem_replicate.mp hd).2]
      rfl
    · exact (ne_of_mem_name hd).1
  have hends : ∀ {o : Option Char}, (∀ d, o = some d → d ∈ p.starred) →
      o.any Unicode.isBlank = false := by
    intro o ho
    cases o with
    | none => rfl
    | some d => exact hsolid d (ho d rfl)
  exact Text.trim_between (List.all_eq_true.mp p.blank_lead) (List.all_eq_true.mp p.blank_pad)
    (hends fun _ => List.mem_of_head?) (hends fun _ => List.mem_of_getLast?)

theorem dropWhile_starred (p : Parameter) : p.starred.dropWhile (· == '*') = p.name := by
  obtain ⟨c, more, hname⟩ := List.exists_cons_of_ne_nil p.name_ne_nil
  have hc : c ≠ '*' := (ne_of_mem_name (hname ▸ List.mem_cons_self)).2.2.2.2
  rw [starred, List.dropWhile_append_of_pos fun d hd => by simp [(List.mem_replicate.mp hd).2], hname,
    List.dropWhile_cons_of_neg (by simpa using hc)]

/-- The first piece gives the name of the parameter. -/
theorem parameterName_first (p : Parameter) :
    parameterName (p.lead ++ (p.starred ++ p.pad) ++ p.extras.takeWhile fun c => !(c == ',')) =
      p.name := by
  have hfront : (p.lead ++ (p.starred ++ p.pad) ++ p.extras.takeWhile fun c => !(c == ',')).takeWhile
      (fun c => !(c == ':' || c == '=')) = p.lead ++ (p.starred ++ p.pad) := by
    rw [List.takeWhile_append_of_pos fun c hc => by
        obtain ⟨-, hcolon, hequals⟩ := plain_of_mem_front hc
        simp [hcolon, hequals],
      List.takeWhile_takeWhile, p.takeWhile_extras (by decide) (by decide), List.append_nil]
  rw [parameterName, hfront, p.trim_front, p.dropWhile_starred]

theorem map_pieces (p : Parameter) :
    (Text.pieces (· == ',') p.text).map parameterName = p.name :: p.cut := by
  have htext : p.text = p.lead ++ (p.starred ++ p.pad) ++ p.extras := by simp [text]
  rw [htext, Text.pieces_append fun c hc => by simp [(plain_of_mem_front hc).1], List.map_cons,
    p.parameterName_first, cut]

/-- Without a comma in its annotation or its default a parameter is a single piece. -/
theorem cut_eq_nil (p : Parameter) (h : ',' ∉ p.extras) : p.cut = [] := by
  have hpieces : Text.pieces (· == ',') (p.extras ++ []) = _ :=
    Text.pieces_append (fun c hc => by simpa using fun heq : c = ',' => h (heq ▸ hc)) []
  rw [List.append_nil] at hpieces
  rw [cut, hpieces]
  rfl

end Parameter

theorem pieces_written {p : Parameter} {more : List Parameter} :
    Text.pieces (· == ',') (written (p :: more)) =
      (p :: more).flatMap fun p => Text.pieces (· == ',') p.text := by
  induction more generalizing p with
  | nil => simp [written]
  | cons q more ih =>
      rw [written, Text.pieces_append_cons rfl, ih, List.flatMap_cons (x := p)]

/-- Of each parameter its name is looked at, and then what its commas cut off. -/
theorem misnamedParameters_written (parameters : List Parameter) :
    misnamedParameters (written parameters) =
      parameters.flatMap fun p => (p.name :: p.cut).filter misnamed := by
  have htest : (fun name : Text => !name.isEmpty && !Naming.isSnakeCase name) = misnamed := by
    funext name
    rw [Bool.eq_iff_iff]
    simp [misnamed, Naming.isSnakeCase]
  cases parameters with
  | nil => rfl
  | cons p more =>
      rw [misnamedParameters, htest, pieces_written, List.map_flatMap, List.filter_flatMap]
      simp only [Parameter.map_pieces]

/-! ### Finding the parentheses -/

/-- The pattern of a header up to the name of the function. -/
def untilName : Pattern :=
  textStart ++ blanks ++ perhaps (text "async" ++ gap) ++ text "def" ++ gap ++ group 1 wordRun ++ blanks

/-- The pattern of a header from its closing parenthesis. -/
def fromClosing : Pattern :=
  both (text ")") (both blanks (both (perhaps (text "->" ++ blanks ++ several (except ":")))
    (both (text ":") (both blanks textEnd))))

theorem matchAt_defHeader (here : Cursor) : matchAt defHeader here =
    run (both untilName (text "(")) here [] fun a g => run (many inLine) a g fun b g' =>
      run fromClosing b ((2, a, b) :: g') fun stop g => some (Found.between here stop g) := rfl

namespace Header

variable {h : Header} {rest : Text}

theorem paren_notMem_front (h : Header) : '(' ∉ h.front := by
  have hasync : '(' ∉ if h.isAsync then "async ".toList else [] := by
    split <;> decide
  intro hmem
  rcases List.mem_append.mp hmem with hmem | hmem
  · exact absurd (List.all_eq_true.mp h.blank_indent _ hmem) (by decide)
  · rcases List.mem_append.mp hmem with hmem | hmem
    · exact hasync hmem
    · rcases List.mem_append.mp hmem with hmem | hmem
      · exact absurd hmem (by decide)
      · exact absurd (List.all_eq_true.mp h.all_name _ hmem) (by decide)

theorem paren_notMem_back (h : Header) : ')' ∉ h.back := by
  intro hmem
  rcases List.mem_append.mp hmem with hmem | hmem
  · cases hreturns : h.returns with
    | none => simp [hreturns] at hmem
    | some r =>
        have hplain := (h.plain_returns r hreturns).2.2
        simp only [hreturns, Option.map_some, Option.getD_some, List.mem_append] at hmem
        rcases hmem with hmem | hmem
        · exact absurd hmem (by decide)
        · exact absurd (List.all_eq_true.mp hplain _ hmem) (by decide)
  · exact absurd hmem (by decide)

theorem matches_async {a : Cursor} {isAsync : Bool}
    (ha : a.ahead = (if isAsync then "async ".toList else []) ++ rest) :
    ∃ b new, Matches (perhaps (Pattern.text "async" ++ gap)) a b new ∧ b.ahead = rest := by
  cases isAsync with
  | false => exact ⟨a, [], .inr ⟨rfl, rfl⟩, ha⟩
  | true =>
      have hsplit : a.ahead = "async".toList ++ ([' '] ++ rest) := ha
      obtain ⟨b, hb, hahead⟩ := Cursor.exists_passes hsplit
      obtain ⟨c, hc, hahead⟩ := Cursor.exists_passes hahead
      have hgap : Matches gap b c [] := matches_several hc (by simp) (by simp; decide)
      exact ⟨c, _, .inl ((matches_exactly hb).followed hgap), hahead⟩

/-- The pattern passes what stands before the parameters. -/
theorem exists_matches_front (h : Header) (rest : Text) :
    ∃ a new,
      Matches (both untilName (Pattern.text "(")) (Cursor.start (h.front ++ '(' :: rest)) a new := by
  have hsplit : (Cursor.start (h.front ++ '(' :: rest)).ahead =
      h.indent ++ ((if h.isAsync then "async ".toList else []) ++
        ("def".toList ++ ([' '] ++ (h.name ++ (['('] ++ rest))))) := by
    simp [Cursor.start, front]
  obtain ⟨a, ha, hahead⟩ := Cursor.exists_passes hsplit
  obtain ⟨b, new, hasync, hahead⟩ := matches_async hahead
  obtain ⟨c, hc, hahead⟩ := Cursor.exists_passes hahead
  obtain ⟨d, hd, hahead⟩ := Cursor.exists_passes hahead
  obtain ⟨e, he, hahead⟩ := Cursor.exists_passes hahead
  obtain ⟨g, hg, -⟩ := Cursor.exists_passes hahead
  have hstart : Matches textStart (Cursor.start (h.front ++ '(' :: rest)) _ [] := ⟨rfl, rfl, rfl⟩
  have hindent : Matches blanks _ a [] := ⟨h.indent, ha, List.all_eq_true.mp h.blank_indent, rfl⟩
  have hgap : Matches gap c d [] := matches_several hd (by simp) (by simp; decide)
  have hname : Matches wordRun d e [] :=
    matches_several he h.name_ne_nil (List.all_eq_true.mp h.all_name)
  have hblanks : Matches blanks e e [] := ⟨[], .refl e, List.forall_mem_nil _, rfl⟩
  exact ⟨g, _, (((((((hstart.followed hindent).followed hasync).followed (matches_exactly hc)).followed
    hgap).followed (hname.grouped 1)).followed hblanks).followed (matches_exactly hg))⟩

theorem matches_returns {a : Cursor}
    (ha : a.ahead = (h.returns.map (" -> ".toList ++ ·)).getD [] ++ rest) :
    ∃ b c new, Matches blanks a b [] ∧
      Matches (perhaps (Pattern.text "->" ++ blanks ++ several (except ":"))) b c new ∧
      c.ahead = rest := by
  cases hreturns : h.returns with
  | none =>
      rw [hreturns] at ha
      exact ⟨a, a, [], ⟨[], .refl a, List.forall_mem_nil _, rfl⟩, .inr ⟨rfl, rfl⟩, ha⟩
  | some r =>
      obtain ⟨hne, -, hplain⟩ := h.plain_returns r hreturns
      have hcolon : ∀ c ∈ r, except ":" c = true := fun c hc => by
        have hc := List.all_eq_true.mp hplain c hc
        simp_all [except]
      have hsplit : a.ahead = [' '] ++ ("->".toList ++ ([' '] ++ (r ++ rest))) := by
        rw [ha, hreturns]
        simp
      obtain ⟨b, hb, hahead⟩ := Cursor.exists_passes hsplit
      obtain ⟨c, hc, hahead⟩ := Cursor.exists_passes hahead
      obtain ⟨d, hd, hahead⟩ := Cursor.exists_passes hahead
      obtain ⟨e, he, hahead⟩ := Cursor.exists_passes hahead
      have hblank : ∀ c ∈ [' '], blank c = true := List.forall_mem_singleton.mpr rfl
      have harrow := ((matches_exactly hc).followed (q := blanks) ⟨_, hd, hblank, rfl⟩).followed
        (matches_several he hne hcolon)
      exact ⟨b, e, _, ⟨_, hb, hblank, rfl⟩, .inl harrow, hahead⟩

/-- The pattern passes what stands behind the parameters. -/
theorem exists_matches_back {a : Cursor} (ha : a.ahead = ')' :: h.back) :
    ∃ b new, Matches fromClosing a b new := by
  have hsplit : a.ahead = [')'] ++ ((h.returns.map (" -> ".toList ++ ·)).getD [] ++ ([':'] ++ [])) := ha
  obtain ⟨b, hb, hahead⟩ := Cursor.exists_passes hsplit
  obtain ⟨c, d, new, hblanks, hreturns, hahead⟩ := matches_returns hahead
  obtain ⟨e, he, hahead⟩ := Cursor.exists_passes hahead
  have hend : Matches (both blanks textEnd) e e [] :=
    ⟨e, [], [], ⟨[], .refl e, List.forall_mem_nil _, rfl⟩, ⟨hahead, rfl, rfl⟩, rfl⟩
  exact ⟨e, _, (matches_exactly hb).followed
    (hblanks.followed (hreturns.followed ((matches_exactly he).followed hend)))⟩

/-- Behind the last closing parenthesis there is no other. -/
theorem run_fromClosing_eq_none {α : Type} {a b : Cursor} {u : Text} {g : Groups}
    {k : Cursor → Groups → Option α} (ha : a.ahead = ')' :: h.back) (hu : u ≠ [])
    (hpass : a.Passes u b) : run fromClosing b g k = none := by
  obtain ⟨c, more, rfl⟩ := List.exists_cons_of_ne_nil hu
  obtain ⟨-, hback⟩ := List.cons.inj (ha.symm.trans hpass.ahead)
  refine run_exactly_eq_none fun hbegins => h.paren_notMem_back ?_
  rw [hback]
  exact List.mem_append_right more (hbegins.subset List.mem_cons_self)

/-- The first opening parenthesis is the one before the parameters. -/
theorem ahead_of_matches {a : Cursor} {new : Groups}
    (hmatch : Matches (both untilName (Pattern.text "(")) (Cursor.start h.text) a new) :
    a.ahead = written h.parameters ++ ')' :: h.back := by
  obtain ⟨b, _, _, hname, hparen, -⟩ := hmatch
  obtain ⟨s, hs, hnot⟩ := hname.avoids (c := '(') (by decide)
  obtain ⟨hparen, -⟩ := hparen.passes_exactly
  have hsplit : h.text = s ++ '(' :: a.ahead := by
    rw [(hs.trans hparen).eq_append]
    simp
  exact (Text.append_cons_inj hnot h.paren_notMem_front hsplit.symm).2

/-- From there the search for parameters goes on to the last closing parenthesis. -/
theorem run_parameters (start : Cursor) {a : Cursor} {g : Groups}
    (hparameters : ∀ c ∈ written h.parameters, inLine c = true)
    (ha : a.ahead = written h.parameters ++ ')' :: h.back) :
    ∃ b stop, a.Passes (written h.parameters) b ∧
      run (many inLine) a g (fun b g' => run fromClosing b ((2, a, b) :: g') fun stop g =>
        some (Found.between start stop g)) = some (Found.between start stop ((2, a, b) :: g)) := by
  obtain ⟨b, hb, hahead⟩ := Cursor.exists_passes ha
  obtain ⟨stop, new, hback⟩ := exists_matches_back hahead
  have hsome : (run fromClosing b ((2, a, b) :: g) fun stop g =>
      some (Found.between start stop g)).isSome = true := isSome_run_of_matches hback rfl
  obtain ⟨m, hm⟩ := Option.isSome_iff_exists.mp hsome
  obtain ⟨stop', new', hback', hfound⟩ := exists_matches_of_run hm
  obtain rfl := hback'.eq_nil_of_groupless (by decide)
  refine ⟨b, stop', hb, ?_⟩
  rw [run_many_last hparameters hb hsome fun hu hpass => run_fromClosing_eq_none hahead hu hpass, hm]
  exact hfound.symm

/-- The parentheses that are found in a header are those of its parameters. -/
theorem exists_find? (hline : '\n' ∉ h.text) : ∃ m s, defHeader.find? h.text = some m ∧
    m.group 2 = .ok s ∧ s.text = written h.parameters := by
  have hparameters : ∀ c ∈ written h.parameters, inLine c = true := by
    intro c hc
    have hmem : c ∈ h.text := by simp [text, hc]
    have hne : c ≠ '\n' := fun heq => hline (heq ▸ hmem)
    simpa [inLine] using hne
  obtain ⟨a, new, hfront⟩ := h.exists_matches_front (written h.parameters ++ ')' :: h.back)
  have hsome : (matchAt defHeader (Cursor.start h.text)).isSome = true := by
    obtain ⟨b, stop, -, hrun⟩ := run_parameters (Cursor.start h.text) (g := new ++ [])
      hparameters (ahead_of_matches hfront)
    rw [matchAt_defHeader]
    exact isSome_run_of_matches hfront (by rw [hrun]; rfl)
  obtain ⟨m, hm⟩ := Option.isSome_iff_exists.mp hsome
  obtain ⟨a', new', hfront', hrest⟩ := exists_matches_of_run ((matchAt_defHeader _).symm.trans hm)
  obtain ⟨b, stop, hb, hrun⟩ := run_parameters (Cursor.start h.text) (g := new' ++ [])
    hparameters (ahead_of_matches hfront')
  obtain rfl := Option.some.inj (hrun.symm.trans hrest)
  exact ⟨_, _, find?_eq_some hm, rfl, congrArg Span.text (Span.between_eq hb)⟩

end Header

/-! ### The check -/

/-- What is said about a name of a line. -/
def sayArgument (x : Text × Nat) (name : Text) : Finding :=
  .onLine x.2 x.1 ("Function argument \"" ++ String.ofList name
    ++ "\" should follow snake_case convention.")

/-- What is reported of a line that is a header. -/
def ReportsParameters (x : Text × Nat) (report : List Finding) : Prop :=
  ∀ h : Header, x.1 = h.text →
    report = (h.parameters.flatMap fun p => (p.name :: p.cut).filter misnamed).map (sayArgument x) ∧
    ((∀ p ∈ h.parameters, ',' ∉ p.extras) →
      report = ((h.parameters.map Parameter.name).filter misnamed).map (sayArgument x))

theorem reportsParameters_of_list {x : Text × Nat} {list : Text}
    (hlist : ∀ h : Header, x.1 = h.text → list = written h.parameters) :
    ReportsParameters x ((misnamedParameters list).map (sayArgument x)) := by
  intro h hx
  rw [hlist h hx, misnamedParameters_written]
  refine ⟨rfl, fun hplain => ?_⟩
  have hsingle : (h.parameters.flatMap fun p => (p.name :: p.cut).filter misnamed) =
      h.parameters.flatMap fun p => [p.name].filter misnamed :=
    List.flatMap_congr fun p hp => by rw [p.cut_eq_nil (hplain p hp)]
  rw [hsingle, ← List.filter_flatMap, ← List.map_eq_flatMap]

/-- A header whose annotations and defaults hold no comma. -/
def plainHeader : Header where
  indent := []
  isAsync := true
  name := ['f']
  parameters := [
    { lead := [], stars := 0, name := "self".toList, pad := [], annotation := none, default := none },
    { lead := [' '], stars := 0, name := "userName".toList, pad := [], annotation := some " str".toList,
      default := some "a(')')".toList },
    { lead := [' '], stars := 2, name := "Args".toList, pad := [' '], annotation := none,
      default := none }]
  returns := some "int".toList

/-- A header of one parameter, whose annotation holds a comma in brackets. -/
def genericHeader : Header where
  indent := []
  isAsync := false
  name := ['f']
  parameters := [
    { lead := [], stars := 0, name := ['a'], pad := [], annotation := some " Dict[str, Int]".toList,
      default := none }]
  returns := none

end SnippetLint.Python
