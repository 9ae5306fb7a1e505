/-
Quoted attributes, and what their values are taken for.

The check looks for unquoted attributes in the bare text of a tag and does not know where a quoted
value begins and ends.  An attribute as it should be written is not reported itself: its name holds no
blank, and behind its sign of equality stands a quote.  What may be reported is a part of its value
that reads like an attribute, an `Assignment`.  No assignment goes over a quote, so each one in the
text of a tag lies in one of the values (`exists_attribute_of_assignment`), and a tag none of whose
values holds one is left alone.
-/
import SnippetLint.Proofs.ClosingTags
import SnippetLint.Proofs.Names
import SnippetLint.Proofs.Pattern.Search
import SnippetLint.Proofs.Text.Pieces

namespace SnippetLint.Html

open Pattern

/-- Word characters and marks that are no blanks are no blanks. -/
theorem isBlank_eq_false_of_union {marks : String} {c : Char}
    (hmarks : marks.toList.all (fun d => !Unicode.isBlank d) = true)
    (h : union word (among marks) c = true) : Unicode.isBlank c = false := by
  rcases Bool.or_eq_true_iff.mp h with hword | hamong
  · refine Bool.eq_false_iff.mpr fun hblank => ?_
    have hnot := Unicode.isWord_eq_false_of_isBlank hblank
    rw [show Unicode.isWord c = true from hword] at hnot
    exact absurd hnot (by decide)
  · have hmem : c ∈ marks.toList := List.contains_iff_mem.mp hamong
    simpa using List.all_eq_true.mp hmarks c hmem

/-! ### Attributes -/

/-- An attribute as it should be written: white space, a name, and a value in double quotes. -/
structure QuotedAttribute where
  gap : Text
  name : Text
  value : Text
  gap_ne_nil : gap ≠ []
  name_ne_nil : name ≠ []
  all_gap : gap.all Unicode.isBlank = true
  all_name : name.all (fun c => !(Unicode.isBlank c || among "\"=<>" c)) = true
  all_value : value.all (except "\"<>") = true

namespace QuotedAttribute

/-- What stands before the value. -/
def opening (a : QuotedAttribute) : Text := a.gap ++ (a.name ++ ['=', '"'])

def text (a : QuotedAttribute) : Text := a.opening ++ (a.value ++ ['"'])

theorem plain_of_mem_name {a : QuotedAttribute} {c : Char} (h : c ∈ a.name) :
    Unicode.isBlank c = false ∧ '=' ≠ c ∧ '>' ≠ c := by
  have hall := List.all_eq_true.mp a.all_name c h
  simp only [Bool.not_eq_true', Bool.or_eq_false_iff] at hall
  exact ⟨hall.1, fun heq => absurd hall.2 (heq ▸ by decide), fun heq => absurd hall.2 (heq ▸ by decide)⟩

/-- No angle in an attribute ends the tag. -/
theorem angle_notMem (a : QuotedAttribute) : '>' ∉ a.text := by
  intro h
  simp only [text, opening, List.mem_append, List.mem_cons, List.not_mem_nil, or_false] at h
  rcases h with (h | h | h | h) | h | h
  · exact absurd (List.all_eq_true.mp a.all_gap _ h) (by decide)
  · exact (plain_of_mem_name h).2.2 rfl
  · exact absurd h (by decide)
  · exact absurd h (by decide)
  · exact absurd (List.all_eq_true.mp a.all_value _ h) (by decide)
  · exact absurd h (by decide)

end QuotedAttribute

/-- An opening tag with quoted attributes only. -/
structure QuotedTag where
  name : TagName
  attributes : List QuotedAttribute
  ending : Ending

namespace QuotedTag

/-- What stands behind the name. -/
def inside (tag : QuotedTag) : Text :=
  tag.attributes.flatMap QuotedAttribute.text ++ tag.ending.text

def text (tag : QuotedTag) : Text := '<' :: (tag.name.text ++ (tag.inside ++ ['>']))

theorem angle_notMem (tag : QuotedTag) : '>' ∉ tag.inside := by
  intro h
  rcases List.mem_append.mp h with h | h
  · obtain ⟨a, -, ha⟩ := List.mem_flatMap.mp h
    exact a.angle_notMem ha
  · cases hending : tag.ending <;> simp [hending, Ending.text] at h

end QuotedTag

/-! ### Assignments -/

/-- What reads like an attribute without quotes, up to the first character of its value. -/
structure Assignment where
  front : Char
  name : Text
  gap : Text
  gap' : Text
  first : Char
  blank_front : Unicode.isBlank front = true
  name_ne_nil : name ≠ []
  all_name : name.all (union word (among ":-")) = true
  all_gap : gap.all Unicode.isBlank = true
  all_gap' : gap'.all Unicode.isBlank = true
  good_first : (!(among "\"'>/" first || Unicode.isBlank first)) = true

namespace Assignment

/-- What stands behind the name. -/
def behind (x : Assignment) : Text := x.gap ++ '=' :: (x.gap' ++ [x.first])

def text (x : Assignment) : Text := x.front :: (x.name ++ x.behind)

theorem joins_of_mem_name {x : Assignment} {c : Char} (h : c ∈ x.name) :
    union word (among ":-") c = true := List.all_eq_true.mp x.all_name c h

theorem notMem_value (x : Assignment) {d : Char} (hblank : Unicode.isBlank d = false)
    (hfirst : among "\"'>/" d = true) : d ∉ x.gap' ++ [x.first] := by
  intro h
  rcases List.mem_append.mp h with h | h
  · have hgap := List.all_eq_true.mp x.all_gap' d h
    rw [hblank] at hgap
    exact Bool.false_ne_true hgap
  · have hgood := x.good_first
    rw [← List.mem_singleton.mp h, hfirst, Bool.true_or] at hgood
    exact Bool.false_ne_true hgood

/-- Neither a quote nor an angle that ends a tag stands in an assignment. -/
theorem notMem_text (x : Assignment) {d : Char} (hd : d = '"' ∨ d = '>') : d ∉ x.text := by
  have hcases : Unicode.isBlank d = false ∧ union word (among ":-") d = false ∧ d ≠ '=' ∧
      among "\"'>/" d = true := by
    rcases hd with rfl | rfl <;> decide
  obtain ⟨hblank, hjoins, hequals, hfirst⟩ := hcases
  intro h
  simp only [text, behind, List.mem_cons, List.mem_append (s := x.name),
    List.mem_append (s := x.gap)] at h
  rcases h with rfl | h | h | h | h
  · exact Bool.false_ne_true (hblank.symm.trans x.blank_front)
  · exact Bool.false_ne_true (hjoins.symm.trans (joins_of_mem_name h))
  · exact Bool.false_ne_true (hblank.symm.trans (List.all_eq_true.mp x.all_gap d h))
  · exact hequals h
  · exact x.notMem_value hblank hfirst h

/-- Its sign of equality is the first one. -/
theorem equals_notMem_name (x : Assignment) : '=' ∉ x.name ++ x.gap := by
  intro h
  rcases List.mem_append.mp h with h | h
  · exact absurd (joins_of_mem_name h) (by decide)
  · exact absurd (List.all_eq_true.mp x.all_gap _ h) (by decide)

/-- The name begins with a character that is no blank. -/
theorem exists_name (x : Assignment) : ∃ c more, x.name = c :: more ∧ Unicode.isBlank c = false := by
  obtain ⟨c, more, hname⟩ := List.exists_cons_of_ne_nil x.name_ne_nil
  exact ⟨c, more, hname,
    isBlank_eq_false_of_union (by decide) (joins_of_mem_name (hname ▸ List.mem_cons_self))⟩

end Assignment

/-- Somewhere in the text stands what reads like an attribute without quotes. -/
def HoldsAssignment (t : Text) : Prop :=
  ∃ (lead : Text) (x : Assignment) (trail : Text), t = lead ++ (x.text ++ trail)

/-! ### Assignments lie in values -/

section

variable {x : Assignment} {lead trail w rest : Text}

/-- Where an assignment does not begin in a part of a text, it lies behind that part. -/
theorem exists_of_skip (h : w ++ rest = lead ++ (x.text ++ trail))
    (hw : ∀ v, w = lead ++ x.front :: v → x.name ++ (x.behind ++ trail) ≠ v ++ rest) :
    ∃ lead', lead = w ++ lead' ∧ rest = lead' ++ (x.text ++ trail) := by
  rcases List.append_eq_append_iff.mp h with ⟨lead', hlead, hrest⟩ | ⟨v, hv, hbehind⟩
  · exact ⟨lead', hlead, hrest⟩
  · cases v with
    | nil => exact ⟨[], by simpa using hv.symm, hbehind.symm⟩
    | cons c v =>
        obtain ⟨rfl, hname⟩ : x.front = c ∧ x.name ++ (x.behind ++ trail) = v ++ rest := by
          simpa [Assignment.text] using hbehind
        exact absurd hname (hw v hv)

theorem skip_solid (hw : ∀ c ∈ w, Unicode.isBlank c = false)
    (h : w ++ rest = lead ++ (x.text ++ trail)) :
    ∃ lead', lead = w ++ lead' ∧ rest = lead' ++ (x.text ++ trail) := by
  refine exists_of_skip h fun v hsplit => ?_
  have hfront := hw x.front (by simp [hsplit])
  rw [x.blank_front] at hfront
  exact absurd hfront (by decide)

/-- The blanks before an attribute belong to no assignment: what follows its sign of equality is a
quote. -/
theorem skip_gap {name : Text} (hw : ∀ c ∈ w, Unicode.isBlank c = true) (hname : '=' ∉ name)
    (h : w ++ (name ++ '=' :: '"' :: rest) = lead ++ (x.text ++ trail)) :
    ∃ lead', lead = w ++ lead' ∧ name ++ '=' :: '"' :: rest = lead' ++ (x.text ++ trail) := by
  refine exists_of_skip h fun v hsplit hbegins => ?_
  obtain ⟨first, more, hfirst, hblank⟩ := x.exists_name
  have hv : v = [] := by
    cases v with
    | nil => rfl
    | cons d v =>
        have hd : first = d := by
          rw [hfirst] at hbegins
          exact (List.cons.inj hbegins).1
        rw [hd, hw d (by simp [hsplit])] at hblank
        exact absurd hblank (by decide)
  have hequals : x.name ++ x.gap ++ '=' :: (x.gap' ++ [x.first] ++ trail) =
      name ++ '=' :: ('"' :: rest) := by
    simpa [hv, Assignment.behind] using hbegins
  obtain ⟨-, hquote⟩ := Text.append_cons_inj x.equals_notMem_name hname hequals
  have hmem : '"' ∈ x.gap' ++ [x.first] := by
    obtain ⟨c, more', hc⟩ := List.exists_cons_of_ne_nil
      (List.append_ne_nil_of_right_ne_nil x.gap' (List.cons_ne_nil x.first []))
    rw [hc] at hquote ⊢
    rw [(List.cons.inj hquote).1]
    exact List.mem_cons_self
  exact x.notMem_value (by decide) (by decide) hmem

/-- An attribute with a quoted value is no assignment itself. -/
theorem skip_opening {a : QuotedAttribute}
    (h : a.opening ++ rest = lead ++ (x.text ++ trail)) :
    ∃ lead', lead = a.opening ++ lead' ∧ rest = lead' ++ (x.text ++ trail) := by
  have hgap : ∀ c ∈ a.gap, Unicode.isBlank c = true := List.all_eq_true.mp a.all_gap
  have hequals : '=' ∉ a.name := fun hmem => (QuotedAttribute.plain_of_mem_name hmem).2.1 rfl
  have hsplit : a.gap ++ (a.name ++ '=' :: '"' :: rest) = lead ++ (x.text ++ trail) := by
    rw [← h]
    simp [QuotedAttribute.opening]
  obtain ⟨lead₁, rfl, hname⟩ := skip_gap hgap hequals hsplit
  have hsolid : ∀ c ∈ a.name ++ ['=', '"'], Unicode.isBlank c = false := by
    intro c hc
    rcases List.mem_append.mp hc with hc | hc
    · exact (QuotedAttribute.plain_of_mem_name hc).1
    · have hcases : c = '=' ∨ c = '"' := by simpa using hc
      rcases hcases with rfl | rfl <;> rfl
  have hrest : a.name ++ ['=', '"'] ++ rest = lead₁ ++ (x.text ++ trail) := by
    rw [← hname, List.append_assoc]
    rfl
  obtain ⟨lead₂, rfl, hvalue⟩ := skip_solid hsolid hrest
  exact ⟨lead₂, by simp [QuotedAttribute.opening], hvalue⟩

/-- An assignment ends before the next quote or closing angle, or it begins behind that. -/
theorem assignment_before {s : Text} {d : Char} (hd : d = '"' ∨ d = '>')
    (h : s ++ d :: rest = lead ++ (x.text ++ trail)) :
    (∃ trail', s = lead ++ (x.text ++ trail')) ∨
      ∃ lead', lead = s ++ d :: lead' ∧ rest = lead' ++ (x.text ++ trail) := by
  have hmem := x.notMem_text hd
  rcases List.append_eq_append_iff.mp h with ⟨u, rfl, hrest⟩ | ⟨u, rfl, hbegins⟩
  · -- It begins behind `s`, and not with the character there.
    cases u with
    | nil =>
        have hfront : d = x.front := (List.cons.inj hrest).1
        exact absurd (hfront ▸ List.mem_cons_self) hmem
    | cons c u =>
        obtain ⟨rfl, hlater⟩ := List.cons.inj hrest
        exact .inr ⟨u, rfl, hlater⟩
  · rcases List.append_eq_append_iff.mp hbegins with ⟨u', rfl, -⟩ | ⟨u', hsplit, hover⟩
    · exact .inl ⟨u', rfl⟩
    · cases u' with
      | nil => exact .inl ⟨[], by simp [hsplit]⟩
      | cons c u' =>
          obtain ⟨rfl, -⟩ := List.cons.inj hover
          exact absurd (by simp [hsplit]) hmem

theorem equals_notMem_ending (ending : Ending) : '=' ∉ ending.text := by
  cases ending <;> decide

/-- **Whatever reads like an attribute without quotes lies in one of the values.** -/
theorem exists_attribute_of_assignment {attributes : List QuotedAttribute} {ending : Ending}
    (h : attributes.flatMap QuotedAttribute.text ++ ending.text = lead ++ (x.text ++ trail)) :
    ∃ front a back inner trail', attributes = front ++ a :: back ∧
      a.value = inner ++ (x.text ++ trail') ∧
      lead = front.flatMap QuotedAttribute.text ++ (a.opening ++ inner) := by
  induction attributes generalizing lead with
  | nil =>
      have hequals : '=' ∈ lead ++ (x.text ++ trail) := by
        simp [Assignment.text, Assignment.behind]
      rw [← h] at hequals
      exact absurd hequals (equals_notMem_ending ending)
  | cons a more ih =>
      have hopening : a.opening ++ (a.value ++ '"' ::
          (more.flatMap QuotedAttribute.text ++ ending.text)) = lead ++ (x.text ++ trail) := by
        rw [← h]
        simp [QuotedAttribute.text]
      obtain ⟨lead₁, rfl, hvalue⟩ := skip_opening hopening
      rcases assignment_before (.inl rfl) hvalue with ⟨trail', hinside⟩ | ⟨lead₂, rfl, hmore⟩
      · exact ⟨[], a, more, lead₁, trail', rfl, hinside, rfl⟩
      · obtain ⟨front, b, back, inner, trail', rfl, hinside, rfl⟩ := ih hmore
        exact ⟨a :: front, b, back, inner, trail', rfl, hinside, by simp [QuotedAttribute.text]⟩

end

theorem holdsAssignment_inside_iff {tag : QuotedTag} :
    HoldsAssignment tag.inside ↔ ∃ a ∈ tag.attributes, HoldsAssignment a.value := by
  constructor
  · rintro ⟨lead, x, trail, h⟩
    obtain ⟨front, a, back, inner, trail', hsplit, hvalue, -⟩ := exists_attribute_of_assignment h
    exact ⟨a, by simp [hsplit], inner, x, trail', hvalue⟩
  · rintro ⟨a, ha, lead, x, trail, hvalue⟩
    obtain ⟨front, back, hsplit⟩ := List.append_of_mem ha
    refine ⟨front.flatMap QuotedAttribute.text ++ (a.opening ++ lead), x, trail ++ '"' ::
      (back.flatMap QuotedAttribute.text ++ tag.ending.text), ?_⟩
    simp [QuotedTag.inside, hsplit, QuotedAttribute.text, hvalue]

/-! ### What the pattern for unquoted attributes matches -/

section

variable {here next : Cursor} {new : Groups}

/-- The pattern matches where an assignment stands, and its first group is the name. -/
theorem exists_assignment_of_matches (h : Matches unquotedAttribute here next new) :
    ∃ (x : Assignment) (trail : Text), here.ahead = x.text ++ trail ∧
      (Found.between here next new).group? 1 = some ⟨here.offset + x.front.utf8Size, x.name⟩ := by
  obtain ⟨e, _, _, ⟨d, _, _, ⟨c, _, _, ⟨b, _, _, ⟨a, _, _, ⟨front, _, hahead, hfront, rfl, rfl⟩,
    ⟨inner, hname, rfl⟩, rfl⟩, ⟨gap, hgap, hblank, rfl⟩, rfl⟩, hequals, rfl⟩,
    ⟨gap', hgap', hblank', rfl⟩, rfl⟩, ⟨_, ⟨_, _, _, ⟨first, trail, htrail, hfirst, rfl, rfl⟩,
    ⟨more, hmore, _, rfl⟩, rfl⟩, rfl⟩, rfl⟩ := h
  obtain ⟨name, hpass, hne, hjoins, rfl⟩ := hname.exists_several
  obtain ⟨hsign, rfl⟩ := hequals.passes_exactly
  refine ⟨⟨front, name, gap, gap', first, hfront, hne, List.all_eq_true.mpr hjoins,
    List.all_eq_true.mpr hblank, List.all_eq_true.mpr hblank', hfirst⟩, trail, ?_, ?_⟩
  · have hwhole := (Cursor.passes_step hahead).trans (hpass.trans (hgap.trans (hsign.trans hgap')))
    rw [hwhole.ahead, htrail]
    simp [Assignment.text, Assignment.behind]
  · show some (Span.between (here.step front _) b) = _
    rw [Span.between_eq hpass]
    rfl

theorem exists_matches_of_assignment {x : Assignment} {trail : Text}
    (h : here.ahead = x.text ++ trail) : ∃ next new, Matches unquotedAttribute here next new := by
  have hahead : here.ahead =
      x.front :: (x.name ++ (x.gap ++ (['='] ++ (x.gap' ++ x.first :: trail)))) := by
    rw [h]
    simp [Assignment.text, Assignment.behind]
  obtain ⟨a, ha, hahead⟩ := Cursor.exists_passes (s := [x.front]) hahead
  obtain ⟨b, hb, hahead⟩ := Cursor.exists_passes hahead
  obtain ⟨c, hc, hahead⟩ := Cursor.exists_passes hahead
  obtain ⟨d, hd, hahead⟩ := Cursor.exists_passes hahead
  obtain ⟨e, he, hahead⟩ := Cursor.exists_passes hahead
  obtain ⟨g, hg, -⟩ := Cursor.exists_passes (s := [x.first]) hahead
  have hfront := matches_one ha x.blank_front
  have hname := matches_several hb x.name_ne_nil fun _ => Assignment.joins_of_mem_name
  have hgap : Matches blanks b c [] := ⟨x.gap, hc, List.all_eq_true.mp x.all_gap, rfl⟩
  have hgap' : Matches blanks d e [] := ⟨x.gap', he, List.all_eq_true.mp x.all_gap', rfl⟩
  have hfirst : Matches (one fun c => !(among "\"'>/" c || blank c)) e g [] :=
    matches_one hg x.good_first
  have hmore : Matches (many fun c => !(c == '>' || blank c)) g g [] := ⟨[], .refl g, by simp, rfl⟩
  have hvalue := (hfirst.followed hmore).grouped 2
  exact ⟨g, _, ((((hfront.followed (hname.grouped 1)).followed hgap).followed
    (matches_exactly hd)).followed hgap').followed hvalue⟩

end

theorem holdsAssignment_iff {t : Text} :
    HoldsAssignment t ↔ unquotedAttribute.occursIn t = true := by
  rw [occursIn_iff]
  constructor
  · rintro ⟨lead, x, trail, h⟩
    obtain ⟨here, hpass, hahead⟩ := Cursor.exists_passes (a := Cursor.start t) h
    obtain ⟨next, new, hmatch⟩ := exists_matches_of_assignment hahead
    exact ⟨lead, here, next, new, hpass, hmatch⟩
  · rintro ⟨lead, here, next, new, hpass, hmatch⟩
    obtain ⟨x, trail, hahead, -⟩ := exists_assignment_of_matches hmatch
    exact ⟨lead, x, trail, hahead ▸ hpass.eq_append⟩

instance (t : Text) : Decidable (HoldsAssignment t) := decidable_of_iff _ holdsAssignment_iff.symm

/-! ### Tags in a text -/

/-- The places that the check reports. -/
def unquotedPlaces (t : Text) : List Span := (openingTag.findAll t).flatMap unquotedIn

theorem exists_assignment_of_mem {t : Text} {s : Span} (h : s ∈ unquotedPlaces t) :
    ∃ (lead : Text) (x : Assignment) (trail : Text), t = lead ++ (x.text ++ trail) ∧
      s = ⟨Text.size (lead ++ [x.front]), x.name⟩ := by
  obtain ⟨m, hm, hs⟩ := List.mem_flatMap.mp h
  unfold unquotedIn at hs
  split at hs
  · exact absurd hs List.not_mem_nil
  · rename_i outer houter
    obtain ⟨name, hname, rfl⟩ := List.mem_map.mp hs
    obtain ⟨⟨pre, post, ht, hstart⟩, -⟩ := (finds_of_mem_findAll hm).group?_partOf houter
    obtain ⟨lead, here, next, new, hpass, hmatch, hgroup⟩ := exists_matches_of_mem_findGroups hname
    obtain ⟨x, trail, hahead, hfirst⟩ := exists_assignment_of_matches hmatch
    obtain rfl := Option.some.inj (hgroup.symm.trans hfirst)
    refine ⟨pre ++ lead, x, trail ++ post, ?_, ?_⟩
    · rw [ht, hpass.eq_append, hahead]
      simp
    · rw [hstart, hpass.offset_start]
      simp

theorem isPlace_of_mem {t : Text} {s : Span} (h : s ∈ unquotedPlaces t) : t.IsPlace s.start := by
  obtain ⟨lead, x, trail, rfl, rfl⟩ := exists_assignment_of_mem h
  refine Span.PartOf.isPlace ⟨lead ++ [x.front], x.behind ++ trail, ?_, rfl⟩ x.name_ne_nil
  simp [Assignment.text]

/-- No angle that opens a tag is left open. -/
def Shut (t : Text) : Prop := ∀ u v, t = u ++ '<' :: v → '>' ∈ v

/-- A match of the pattern for opening tags ends with the first closing angle. -/
theorem exists_body_of_matches {here next : Cursor} {new : Groups}
    (h : Matches openingTag here next new) :
    ∃ body, here.Passes ('<' :: (body ++ ['>'])) next ∧ '>' ∉ body := by
  obtain ⟨d, _, _, ⟨c, _, _, ⟨b, _, _, hangle, ⟨_, hname, rfl⟩, rfl⟩,
    ⟨_, ⟨rest, hrest, hplain, _⟩, rfl⟩, rfl⟩, hend, rfl⟩ := h
  obtain ⟨hangle, -⟩ := hangle.passes_exactly
  obtain ⟨hend, -⟩ := hend.passes_exactly
  obtain ⟨name, hname, -, hjoins, -⟩ := hname.exists_one_many
    (h := fun c => latin c || union word (among "-") c) (by simp_all) (by simp_all)
  refine ⟨name ++ rest, ?_, ?_⟩
  · simpa using hangle.trans (hname.trans (hrest.trans hend))
  · intro hmem
    rcases List.mem_append.mp hmem with hmem | hmem
    · exact absurd (hjoins _ hmem) (by decide)
    · exact absurd (hplain _ hmem) (by decide)

/-- So it does not reach beyond a text that leaves no angle open. -/
theorem stop_le_of_shut {t v : Text} {here next : Cursor} {m : Found} (hshut : Shut t)
    (hv : v <:+ t) (hne : v ≠ []) (hpass : here.Passes v next)
    (hm : matchAt openingTag here = some m) : m.whole.stop ≤ next.offset := by
  obtain ⟨u, rfl⟩ := hv
  obtain ⟨stop, new, hmatch, rfl⟩ := exists_matches_of_matchAt hm
  obtain ⟨body, hbody, hplain⟩ := exists_body_of_matches hmatch
  obtain ⟨c, v, rfl⟩ := List.exists_cons_of_ne_nil hne
  obtain ⟨rfl, hahead⟩ := List.cons.inj (hbody.ahead.symm.trans hpass.ahead)
  obtain ⟨inside, more, rfl, hinside⟩ := List.eq_append_cons_of_mem (hshut u v rfl)
  have hsplit : body ++ '>' :: stop.ahead = inside ++ '>' :: (more ++ next.ahead) := by
    simpa using hahead
  obtain ⟨rfl, -⟩ := Text.append_cons_inj hplain hinside hsplit
  have hwhole : (Found.between here stop new).whole = ⟨here.offset, '<' :: (body ++ ['>'])⟩ :=
    Span.between_eq hbody
  have hsize : Text.size ('<' :: (body ++ ['>'])) ≤ Text.size ('<' :: (body ++ '>' :: more)) := by
    simp
  rw [hwhole, hpass.offset]
  exact Nat.add_le_add_left hsize _

namespace QuotedTag

variable {tag : QuotedTag} {pre post : Text}

theorem head?_inside (tag : QuotedTag) (rest : Text) :
    (tag.inside ++ '>' :: rest).head?.any (union word (among "-")) = false := by
  cases hattributes : tag.attributes with
  | nil => cases hending : tag.ending <;> simp [inside, hattributes, hending, Ending.text] <;> decide
  | cons a more =>
      obtain ⟨c, gap, hgap⟩ := List.exists_cons_of_ne_nil a.gap_ne_nil
      have hblank : Unicode.isBlank c = true :=
        List.all_eq_true.mp a.all_gap c (hgap ▸ List.mem_cons_self)
      have hhead : (tag.inside ++ '>' :: rest).head? = some c := by
        simp [inside, hattributes, QuotedAttribute.text, QuotedAttribute.opening, hgap]
      rw [hhead, Option.any_some, Bool.eq_false_iff]
      intro hjoins
      rw [isBlank_eq_false_of_union (by decide) hjoins] at hblank
      exact Bool.false_ne_true hblank

/-- A tag is found where no tag before it is left open. -/
theorem exists_found (hshut : Shut pre) : ∃ m ∈ openingTag.findAll (pre ++ (tag.text ++ post)),
    m.group? 2 = some ⟨Text.size (pre ++ '<' :: tag.name.text), tag.inside⟩ := by
  obtain ⟨here, hpass, hahead⟩ := Cursor.exists_passes
    (a := Cursor.start (pre ++ (tag.text ++ post))) rfl
  have hsplit : here.ahead = '<' :: (tag.name.text ++ (tag.inside ++ '>' :: post)) := by
    rw [hahead]
    simp [text]
  obtain ⟨m, hm, -, -, hgroup⟩ :=
    matchAt_openingTag_of_inside hsplit tag.angle_notMem (tag.head?_inside post)
  refine ⟨m, mem_scan_of_matchAt (by decide) hpass rfl (stop_le_of_shut hshut) hm, ?_⟩
  rw [hgroup, hpass.offset_start, Text.size_append]

/-- A place begins in a tag that stands at an offset. -/
def Covers (tag : QuotedTag) (start : Nat) (s : Span) : Prop :=
  start ≤ s.start ∧ s.start < start + Text.size tag.text

/-- A place in a tag is the name in an assignment that one of the values holds. -/
def Explains (tag : QuotedTag) (start : Nat) (s : Span) : Prop :=
  ∃ front a back inner x trail, tag.attributes = front ++ a :: back ∧
    a.value = inner ++ (Assignment.text x ++ trail) ∧
    s = ⟨start + Text.size ('<' :: (tag.name.text ++ (front.flatMap QuotedAttribute.text ++
      (a.opening ++ (inner ++ [x.front]))))), x.name⟩

theorem solid_of_mem_name {c : Char} (h : c ∈ '<' :: tag.name.text) :
    Unicode.isBlank c = false := by
  rcases List.mem_cons.mp h with rfl | h
  · decide
  · have hjoins : union word (among "-") c = true := by
      rcases List.mem_cons.mp h with rfl | h
      · exact Bool.or_eq_true_iff.mpr (.inl (Unicode.isWord_of_latin tag.name.latin_first))
      · exact joins_of_mem_more h
    exact isBlank_eq_false_of_union (by decide) hjoins

/-- An assignment whose name begins in a tag stands in the tag behind the tag's name. -/
theorem explains_of_covers {lead trail : Text} {x : Assignment}
    (h : pre ++ (tag.text ++ post) = lead ++ (x.text ++ trail))
    (hcovers : tag.Covers (Text.size pre) ⟨Text.size (lead ++ [x.front]), x.name⟩) :
    tag.Explains (Text.size pre) ⟨Text.size (lead ++ [x.front]), x.name⟩ := by
  obtain ⟨hfrom, hto⟩ := hcovers
  have hskip : ∃ lead', lead = pre ++ lead' ∧ tag.text ++ post = lead' ++ (x.text ++ trail) := by
    refine exists_of_skip h fun v hsplit hname => ?_
    -- Behind the first character of the assignment there is the tag, which begins with an angle.
    have hv : v = [] := by
      by_contra hne
      have hpos := Text.size_pos_of_ne_nil hne
      rw [hsplit] at hfrom
      simp only [Text.size_append, Text.size_cons, Text.size_nil] at hfrom
      omega
    obtain ⟨c, more, hfirst⟩ := List.exists_cons_of_ne_nil x.name_ne_nil
    rw [hv, hfirst] at hname
    have hangle : c = '<' := (List.cons.inj hname).1
    have hjoins : union word (among ":-") c = true :=
      Assignment.joins_of_mem_name (hfirst ▸ List.mem_cons_self)
    exact absurd (hangle ▸ hjoins) (by decide)
  obtain ⟨lead₁, rfl, htag⟩ := hskip
  have hname : '<' :: tag.name.text ++ (tag.inside ++ '>' :: post) = lead₁ ++ (x.text ++ trail) := by
    rw [← htag]
    simp [text]
  obtain ⟨lead₂, rfl, hinside⟩ := skip_solid (fun c => solid_of_mem_name) hname
  rcases assignment_before (.inr rfl) hinside with ⟨trail', htrail⟩ | ⟨lead₃, rfl, -⟩
  · obtain ⟨front, a, back, inner, trail'', hsplit, hvalue, rfl⟩ := exists_attribute_of_assignment htrail
    refine ⟨front, a, back, inner, x, trail'', hsplit, hvalue, ?_⟩
    simp
  · simp only [text, Text.size_append, Text.size_cons] at hto
    omega

/-- Where a value holds an assignment, some place in the tag is reported. -/
theorem exists_mem_covers (hshut : Shut pre) (h : HoldsAssignment tag.inside) :
    ∃ s ∈ unquotedPlaces (pre ++ (tag.text ++ post)), tag.Covers (Text.size pre) s := by
  obtain ⟨m, hm, hgroup⟩ : ∃ m ∈ openingTag.findAll (pre ++ (tag.text ++ post)), m.group? 2 = some _ :=
    tag.exists_found hshut
  obtain ⟨name, hname⟩ := exists_mem_findGroups (p := unquotedAttribute) (i := 0) (by decide)
    (holdsAssignment_iff.mp h)
  have hs : ⟨Text.size (pre ++ '<' :: tag.name.text) + name.start, name.text⟩ ∈ unquotedIn m := by
    rw [unquotedIn, hgroup]
    exact List.mem_map_of_mem hname
  refine ⟨_, List.mem_flatMap.mpr ⟨m, hm, hs⟩, ?_⟩
  obtain ⟨lead, trail, hinside, hstart⟩ := partOf_of_mem_findGroups hname
  have hpos := Text.size_pos_of_ne_nil (ne_nil_of_mem_findGroups (by decide) hname)
  simp only [Covers, text, hinside, hstart, Text.size_append, Text.size_cons]
  omega

end QuotedTag

/-! ### The check -/

/-- What is said about an unquoted attribute. -/
def sayUnquoted (s : Span) : String :=
  "Unquoted value for attribute \"" ++ s.string ++ "\". Always quote attribute values."

/-- The check finishes, and what it reports are certain places, in order. -/
def ReportsPlaces (t : Text) (places : List Span) : Prop :=
  Yields (quotedAttributes t)
    (List.Forall₂ (fun s => Finding.StandsAt t s.start (sayUnquoted s)) places)

/-- A link with a title. -/
def titled (title : Text) (plain : title.all (except "\"<>") = true) : QuotedTag where
  name := ⟨'a', [], by decide, by decide⟩
  attributes := [⟨[' '], "title".toList, title, by decide, by decide, by decide, by decide, plain⟩]
  ending := .plain

end SnippetLint.Html
