/-
The language of a snippet with the other line endings.

All signatures but one ignore carriage returns, so they occur in both texts or in neither.  The
exception is the import of names from a module: between `import` and `from` it asks for a blank, for
something that may itself consist of blanks, and for another blank, and a line ending of two
characters can stand for two of these.  What has that signature keeps it, but it may be gained.  It
comes behind all signatures of other languages, hence a text can only turn from one whose language is
not known to TypeScript.
-/
import Mathlib.Data.List.Find
import SnippetLint.Detection
import SnippetLint.Proofs.LineEndings.Search
import SnippetLint.Proofs.Names

namespace SnippetLint

/-- A place is told by its counterpart. -/
theorem Cursor.PlaceOf.crlf_injective {t : Text} {a b : Cursor} (ha : a.PlaceOf t)
    (hb : b.PlaceOf t) (h : a.crlf t = b.crlf t) : a = b := by
  have hbefore : (a.crlf t).before = (b.crlf t).before := congrArg Cursor.before h
  have hoffset : (a.crlf t).offset = (b.crlf t).offset := congrArg Cursor.offset h
  have hahead : Text.crlf a.ahead = Text.crlf b.ahead := congrArg Cursor.ahead h
  have hlt := ha.offset_lt_iff hb
  have hlt' := hb.offset_lt_iff ha
  have heq : a.offset = b.offset := by omega
  cases a
  cases b
  cases hbefore
  cases heq
  cases Text.crlf_injective hahead
  rfl

namespace Pattern

/-! ### Matches that survive -/

section

variable {p q : Pattern} {t : Text}

/-- Each match of a pattern in a text has its counterpart in the text with the other line endings. -/
def Lifts (p : Pattern) (t : Text) : Prop :=
  ∀ a b new, a.PlaceOf t → Matches p a b new → ∃ new', Matches p (a.crlf t) (b.crlf t) new'

theorem Lifts.append (hp : Lifts p t) (hq : Lifts q t) : Lifts (p ++ q) t := by
  rintro a b new ha ⟨m, first, later, hfirst, hlater, rfl⟩
  obtain ⟨s, hs⟩ := hfirst.passes
  obtain ⟨first', hfirst'⟩ := hp a m first ha hfirst
  obtain ⟨later', hlater'⟩ := hq m b later (ha.passes hs) hlater
  exact ⟨_, _, _, _, hfirst', hlater', rfl⟩

/-- A class with the line feed but not the carriage return would break off at a line ending. -/
theorem lifts_several {f : Char → Bool} (hf : f '\n' = true → f '\r' = true) :
    Lifts (several f) t := by
  intro a b new ha h
  obtain ⟨s, hs, hne, hall, -⟩ := h.exists_several
  have hall' : ∀ c ∈ Text.crlf s, f c = true := by
    intro c hc
    by_cases hreturn : c = '\r'
    · rw [hreturn]
      by_cases hfeed : '\n' ∈ s
      · exact hf (hall _ hfeed)
      · rw [Text.crlf_eq_self hfeed] at hc
        exact hreturn ▸ hall c hc
    · exact hall c ((Text.mem_crlf hreturn).mp hc)
  exact ⟨[], matches_several (ha.passes_crlf hs) (mt Text.crlf_eq_nil_iff.mp hne) hall'⟩

/-- A pattern takes the same course on both texts, whichever place it is to lead to. -/
theorem lifts_of_steady (hp : p.steady .failing = true) : Lifts p t := by
  intro a b new ha h
  obtain ⟨s, hs⟩ := h.passes
  have hb : b.PlaceOf t := ha.passes hs
  classical
  let reaches (stop here : Cursor) (_ : Groups) : Option Unit :=
    if here = stop then some () else none
  have hfollows : Follows t id (reaches b) (reaches (b.crlf t)) := by
    intro c g hc _
    by_cases heq : c = b
    · rw [heq]
      simp [reaches]
    · have hne : c.crlf t ≠ b.crlf t := fun h => heq (hc.crlf_injective hb h)
      simp [reaches, heq, hne]
  have hlevel : Level.failing.Holds (reaches (b.crlf t)) := by
    intro mid next g hsplits
    refine if_neg fun heq => ?_
    have hahead := hsplits.ahead
    rw [heq] at hahead
    exact Text.crlf_ne_newline_cons _ _ hahead
  have hrun := hfollows.run hp (fun _ _ _ h => h) hlevel a [] ha (List.forall_mem_nil _)
  have hsome : (run p a [] (reaches b)).isSome = true :=
    isSome_run_of_matches h (by simp [reaches])
  rw [Option.map_id_apply] at hrun
  have hsome' : (run p (a.crlf t) [] (reaches (b.crlf t))).isSome = true := by
    rw [← hsome]
    exact congrArg Option.isSome hrun
  obtain ⟨r, hr⟩ := Option.isSome_iff_exists.mp hsome'
  obtain ⟨stop, new', hmatch, hstop⟩ := exists_matches_of_run hr
  have heq : stop = b.crlf t := by
    by_contra hne
    simp [reaches, hne] at hstop
  exact ⟨new', heq ▸ hmatch⟩

theorem Lifts.occursIn_crlf (hp : Lifts p t) (h : p.occursIn t = true) :
    p.occursIn (Text.crlf t) = true := by
  obtain ⟨pre, here, next, new, hpre, hmatch⟩ := occursIn_iff.mp h
  obtain ⟨new', hmatch'⟩ := hp here next new ⟨pre, hpre⟩ hmatch
  exact occursIn_iff.mpr ⟨_, _, _, _, hpre.crlf, hmatch'⟩

end

/-! ### Patterns with the same matches -/

/-- Two patterns have the same matches, though they may prefer different ones. -/
def Agree (p q : Pattern) : Prop := ∀ a b new, Matches p a b new ↔ Matches q a b new

section

variable {p p' q q' : Pattern}

theorem Agree.refl (p : Pattern) : Agree p p := fun _ _ _ => Iff.rfl

theorem Agree.append (hp : Agree p p') (hq : Agree q q') : Agree (p ++ q) (p' ++ q') := by
  intro a b new
  constructor
  · rintro ⟨m, first, later, hfirst, hlater, rfl⟩
    exact ⟨m, first, later, (hp ..).mp hfirst, (hq ..).mp hlater, rfl⟩
  · rintro ⟨m, first, later, hfirst, hlater, rfl⟩
    exact ⟨m, first, later, (hp ..).mpr hfirst, (hq ..).mpr hlater, rfl⟩

theorem Agree.perhaps (hp : Agree p p') : Agree (perhaps p) (perhaps p') :=
  fun a b new => or_congr_left (hp a b new)

theorem agree_assoc (p q r : Pattern) : Agree (p ++ q ++ r) (p ++ (q ++ r)) := by
  intro a b new
  constructor
  · rintro ⟨m, _, last, ⟨l, first, mid, hp, hq, rfl⟩, hr, rfl⟩
    exact ⟨l, first, _, hp, ⟨m, mid, last, hq, hr, rfl⟩, (List.append_assoc ..).symm⟩
  · rintro ⟨l, first, _, hp, ⟨m, mid, last, hq, hr, rfl⟩, rfl⟩
    exact ⟨m, _, last, ⟨l, first, mid, hp, hq, rfl⟩, hr, List.append_assoc ..⟩

/-- Characters of a smaller class may be passed before those of a class, but need not be. -/
theorem agree_many_several {f g : Char → Bool} (hfg : ∀ c, f c = true → g c = true) :
    Agree (many f ++ several g) (several g) := by
  intro a b new
  constructor
  · rintro ⟨m, _, _, ⟨s, hs, hall, rfl⟩, h, rfl⟩
    obtain ⟨u, hu, hne, hrest, rfl⟩ := h.exists_several
    have hg : ∀ d ∈ s ++ u, g d = true := by
      intro d hd
      rcases List.mem_append.mp hd with hd | hd
      · exact hfg d (hall d hd)
      · exact hrest d hd
    exact matches_several (hs.trans hu) (fun hnil => hne (List.append_eq_nil_iff.mp hnil).2) hg
  · intro h
    exact ⟨a, [], new, ⟨[], .refl a, by simp, rfl⟩, h, (List.append_nil new).symm⟩

theorem Agree.occursIn_eq (h : Agree p q) (t : Text) : p.occursIn t = q.occursIn t := by
  rw [Bool.eq_iff_iff, occursIn_iff, occursIn_iff]
  have hsame : ∀ a b new, Matches p a b new ↔ Matches q a b new := h
  simp only [hsame]

end

end Pattern

namespace Signature

open Pattern

/-! ### Signatures in both texts -/

/-- The signatures of languages other than TypeScript. -/
def early : List Signature :=
  [functionDeclaration, variableDeclaration, defHeader, printCall, systemInclude, intMain,
    publicClass, consolePrint, usingSystem, namespaceDeclaration, packageMain, printlnCall, openTag,
    echoStatement]

/-- The signatures of TypeScript, which are tried last. -/
def late : List Signature := [moduleImport, exportedDeclaration]

theorem all_eq_append : all = early ++ late := rfl

/-- The header of a function as a pattern that does not ask for blanks where it goes on with any
characters. -/
def plainDefHeader : Pattern :=
  keyword "def" ++ gap ++ wordRun ++ blanks ++ text "(" ++ many inLine ++ text ")" ++ blanks
    ++ perhaps (text "->" ++ several (except ":")) ++ text ":"

theorem agree_defHeader : Agree defHeader.pattern plainDefHeader := by
  have hresult : Agree (blanks ++ several (except ":")) (several (except ":")) := by
    refine agree_many_several fun c hc => ?_
    have hcolon : blank ':' = false := by decide
    have hne : c ≠ ':' := by
      rintro rfl
      rw [hc] at hcolon
      simp at hcolon
    simpa [except] using hne
  have hperhaps : Agree (text "->" ++ blanks ++ several (except ":"))
      (text "->" ++ several (except ":")) := by
    intro a b new
    rw [agree_assoc (text "->") blanks (several (except ":")) a b new]
    exact (Agree.refl _).append hresult a b new
  exact ((Agree.refl _).append hperhaps.perhaps).append (Agree.refl _)

theorem ignoresReturns_plainDefHeader : plainDefHeader.ignoresReturns = true := by decide

theorem ignoresReturns_early {s : Signature} (hs : s ∈ early) :
    s.pattern.ignoresReturns = true ∨ s = defHeader := by
  simp only [early, List.mem_cons, List.not_mem_nil, or_false] at hs
  rcases hs with rfl | rfl | rfl | rfl | rfl | rfl | rfl | rfl | rfl | rfl | rfl | rfl | rfl | rfl
  case inr.inr.inl => exact .inr rfl
  all_goals exact .inl (by decide)

theorem ignoresReturns_exportedDeclaration :
    exportedDeclaration.pattern.ignoresReturns = true := by decide

theorem lifts_moduleImport (t : Text) : moduleImport.pattern.Lifts t := by
  have hgap : gap.Lifts t := lifts_several fun _ => rfl
  have hword : (keyword "import").Lifts t := lifts_of_steady (by decide)
  have hnames : (several (union word (union blank (among "\x7b\x7d,*")))).Lifts t :=
    lifts_several fun _ => by decide
  have hfrom : (text "from").Lifts t := lifts_of_steady (by decide)
  have hquote : (one (among "'\"")).Lifts t := lifts_of_steady (by decide)
  have hpath : (several inLine).Lifts t := lifts_of_steady (by decide)
  exact (((((((hword.append hgap).append hnames).append hgap).append hfrom).append hgap).append
    hquote).append hpath).append hquote

-- It is no more than not lost: after `import` a line ending of one character does what the blank
-- behind it is to do, and not what both blanks are to do.
example : moduleImport.pattern.ignoresReturns = false := by decide

theorem occursIn_crlf {s : Signature} (hs : s ∈ early) (t : Text) :
    s.occursIn (Text.crlf t) = s.occursIn t := by
  rcases ignoresReturns_early hs with hp | rfl
  · exact Pattern.occursIn_crlf hp t
  · rw [occursIn, occursIn, agree_defHeader.occursIn_eq, agree_defHeader.occursIn_eq]
    exact Pattern.occursIn_crlf ignoresReturns_plainDefHeader t

/-- A signature of TypeScript is not lost. -/
theorem occursIn_crlf_of_late {s : Signature} (hs : s ∈ late) {t : Text}
    (h : s.occursIn t = true) : s.occursIn (Text.crlf t) = true := by
  have hcases : s = moduleImport ∨ s = exportedDeclaration := by simpa [late] using hs
  rcases hcases with rfl | rfl
  · exact (lifts_moduleImport t).occursIn_crlf h
  · exact (Pattern.occursIn_crlf ignoresReturns_exportedDeclaration t).trans h

end Signature

namespace Detection

/-! ### Languages of both texts -/

/-- The languages that are told before TypeScript. -/
def earlyLanguages : List Language := [.javascript, .python, .cpp, .java, .csharp, .go, .php]

theorem language_late : ∀ s ∈ Signature.late, s.language = .typescript := by decide

theorem find?_early_crlf (t : Text) : Signature.early.find? (·.occursIn (Text.crlf t)) =
    Signature.early.find? (·.occursIn t) :=
  List.find?_congr fun _ hs => Signature.occursIn_crlf hs t

/-- Without a signature of another language a text is of TypeScript if it has one of that. -/
theorem language_of_late {t : Text} (h : Signature.early.find? (·.occursIn t) = .none) :
    (ofText t).language =
      if Signature.late.any (·.occursIn t) then .typescript else .unknown := by
  rw [ofText, Signature.all_eq_append, List.find?_append, h, Option.none_or]
  cases hfind : Signature.late.find? (·.occursIn t) with
  | none =>
      have hnone : Signature.late.any (·.occursIn t) = false := by
        rw [List.any_eq_false]
        exact List.find?_eq_none.mp hfind
      rw [hnone]
      rfl
  | some s =>
      have hmem := List.mem_of_find?_eq_some hfind
      have hany : Signature.late.any (·.occursIn t) = true :=
        List.any_eq_true.mpr ⟨s, hmem, by simpa using List.find?_some hfind⟩
      rw [hany]
      exact language_late s hmem

/-- **Line endings do not change what language a snippet is told to be of.**  If one of two texts
that differ in their line endings only is told to be of a language before TypeScript, so is the other
one, and for the same reason; and what is TypeScript with line feeds alone stays it. -/
theorem ofText_crlf (t : Text) :
    (∀ language ∈ earlyLanguages,
        (ofText t).language = language ∨ (ofText (Text.crlf t)).language = language →
          ofText (Text.crlf t) = ofText t) ∧
      ((ofText t).language = .typescript → (ofText (Text.crlf t)).language = .typescript) := by
  have hfind := find?_early_crlf t
  cases hearly : Signature.early.find? (·.occursIn t) with
  | some s =>
      have heq : ofText (Text.crlf t) = ofText t := by
        rw [ofText, ofText, Signature.all_eq_append, List.find?_append, List.find?_append, hfind,
          hearly]
        rfl
      exact ⟨fun _ _ _ => heq, fun h => heq ▸ h⟩
  | none =>
      rw [hearly] at hfind
      have hlate := language_of_late hearly
      have hlate' := language_of_late hfind
      refine ⟨fun language hmem h => ?_, fun h => ?_⟩
      · exfalso
        have hnot : ∀ b : Bool,
            (if b then Language.typescript else Language.unknown) ∉ earlyLanguages := by decide
        rcases h with rfl | rfl
        · exact hnot _ (hlate ▸ hmem)
        · exact hnot _ (hlate' ▸ hmem)
      · have hany : Signature.late.any (·.occursIn t) = true := by
          by_contra hnone
          rw [hlate, if_neg hnone] at h
          simp at h
        obtain ⟨s, hs, hoccurs⟩ := List.any_eq_true.mp hany
        have hany' : Signature.late.any (·.occursIn (Text.crlf t)) = true :=
          List.any_eq_true.mpr ⟨s, hs, Signature.occursIn_crlf_of_late hs hoccurs⟩
        rw [hlate', if_pos hany']

/-- Two snippets in whose signatures line endings take part, one of Go and one of TypeScript. -/
theorem ofText_crlf_two_snippets :
    ofText (Text.crlf "package\nmain".toList) = ofText "package\nmain".toList ∧
      (ofText (Text.crlf "export\nconst ;".toList)).language = .typescript :=
  ⟨(ofText_crlf _).1 .go (by decide) (.inl (by decide)), (ofText_crlf _).2 (by decide)⟩

/-- An empty line is enough between `import` and `from` if its ending has two characters. -/
example : (ofText "import\n\nfrom 'x'".toList).language = .unknown ∧
    (ofText (Text.crlf "import\n\nfrom 'x'".toList)).language = .typescript := by decide

end Detection

end SnippetLint
