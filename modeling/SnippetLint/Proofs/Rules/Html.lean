/-
Every rule for HTML finishes, points at the right line, whatever the line endings, and begins its
messages with words of its own.  Each reports from the first line to the last: the attributes of one
tag stand before those of the next.
-/
import SnippetLint.Proofs.LineEndings.Inside
import SnippetLint.Proofs.Order.Checks
import SnippetLint.Proofs.Placement
import SnippetLint.Proofs.Repeats
import SnippetLint.Proofs.Wording
import SnippetLint.Rules.Html

namespace SnippetLint.Html

open Finding Pattern

/-! ### Tags -/

theorem yields_nameOf {p : Pattern} (hp : binds 1 p = true) {t : Text} {tag : Found}
    (h : tag ∈ p.findAll t) : Yields (nameOf tag) fun _ => True := by
  obtain ⟨name, -, hname⟩ := (finds_of_mem_findAll h).exists_group (i := 0) hp
  rw [nameOf, hname]
  exact yields_pure trivial

section

variable {t : Text} {tag : Found}

theorem yields_isNamed (h : tag ∈ openingTag.findAll t) (name : String) :
    Yields (isNamed tag name) fun _ => True :=
  (yields_nameOf (by decide) h).bind fun _ _ => yields_pure trivial

theorem yields_holds (h : tag ∈ openingTag.findAll t) (p : Pattern) :
    Yields (holds tag p) fun _ => True := by
  obtain ⟨rest, -, hrest⟩ := (finds_of_mem_findAll h).exists_group (i := 1) (by decide)
  rw [holds, hrest]
  exact yields_pure trivial

theorem yields_needsClosing (h : tag ∈ openingTag.findAll t) :
    Yields (needsClosing tag) fun _ => True := by
  obtain ⟨rest, -, hrest⟩ := (finds_of_mem_findAll h).exists_group (i := 1) (by decide)
  rw [needsClosing, hrest]
  exact (yields_nameOf (by decide) h).bind fun _ _ => yields_pure trivial

end

/-! ### Checks -/

theorem atTags_sound {isBad : Found → Checked Bool} (message : String)
    (h : ∀ t, ∀ tag ∈ openingTag.findAll t, Yields (isBad tag) fun _ => True) :
    Check.Sound fun t => atTags t isBad message := by
  intro t
  unfold atTags
  refine (yields_filterM (h t)).bind fun tags htags => ?_
  refine spans_sound (p := openingTag) (by decide) t fun s hs => ?_
  obtain ⟨tag, htag, rfl⟩ := List.mem_map.mp hs
  exact List.mem_map_of_mem (htags tag htag)

theorem noInlineStyle_sound : Check.Sound noInlineStyle :=
  atTags_sound _ fun _ _ h => yields_holds h _

theorem imgAlt_sound : Check.Sound imgAlt := by
  refine atTags_sound _ fun t tag h => (yields_isNamed h _).bind fun named _ => ?_
  split
  · exact (yields_holds h _).bind fun _ _ => yields_pure trivial
  · exact yields_pure trivial

theorem scriptLoading_sound : Check.Sound scriptLoading := by
  refine atTags_sound _ fun t tag h => (yields_isNamed h _).bind fun named _ => ?_
  split
  · exact yields_pure trivial
  · refine (yields_holds h _).bind fun hasSource _ => ?_
    split
    · exact yields_pure trivial
    · exact (yields_holds h _).bind fun _ _ => yields_pure trivial

theorem quotedAttributes_sound : Check.Sound quotedAttributes := by
  refine fun t => atSpans_sound (fun s hs => ?_) _
  obtain ⟨tag, htag, hs⟩ := List.mem_flatMap.mp hs
  unfold unquotedIn at hs
  split at hs
  · simp at hs
  · rename_i attributes hattributes
    obtain ⟨name, hname, rfl⟩ := List.mem_map.mp hs
    have houter := ((finds_of_mem_findAll htag).group?_partOf hattributes).1
    have hne := ne_nil_of_mem_findGroups (by decide) hname
    exact (houter.shift (partOf_of_mem_findGroups hname)).isPlace hne

theorem closingTags_sound : Check.Sound closingTags := by
  intro t
  unfold closingTags
  refine (yields_filterM fun tag h => yields_needsClosing h).bind fun tags htags => ?_
  refine (yields_mapM fun tag h => yields_nameOf (by decide) (htags tag h)).bind fun opened _ => ?_
  refine (yields_mapM fun tag h => yields_nameOf (by decide) h).bind fun closed _ => ?_
  exact ifPresent_sound t _ _

theorem ruleSet_sound : ∀ rule ∈ ruleSet.rules, Check.Sound rule.check := by
  simp only [ruleSet, List.forall_mem_cons]
  exact ⟨fun t => ifMissing_sound t _ _, fun t => ifMissing_sound t _ _,
    fun t => ifMissing_sound t _ _, noInlineStyle_sound, imgAlt_sound, quotedAttributes_sound,
    closingTags_sound, fun t => ifPresent_sound t _ _, scriptLoading_sound, by simp⟩

/-! ### Messages -/

/-- What the rules say is told from what is shown where nothing was found. -/
theorem ruleSet_telling : ∀ rule ∈ ruleSet.rules, Check.Says Telling rule.check := by
  simp only [ruleSet, List.forall_mem_cons]
  refine ⟨fun _ => ifMissing_wording ?_,
    fun _ => ifMissing_wording ?_,
    fun _ => ifMissing_wording ?_,
    fun _ => gives_bind fun _ => atSpans_wording fun _ _ => ?_,
    fun _ => gives_bind fun _ => atSpans_wording fun _ _ => ?_,
    fun _ => atSpans_wording fun _ _ => ?_,
    fun _ => gives_bind fun _ => gives_bind fun _ => gives_bind fun _ => ifPresent_wording ?_,
    fun _ => ifPresent_wording ?_,
    fun _ => gives_bind fun _ => atSpans_wording fun _ _ => ?_,
    by simp⟩
  all_goals
    repeat with_reducible apply Telling.append
    exact .of_eq rfl (by decide)

theorem quotedAttributes_wording {P : String → Prop}
    (h : ∀ s : Span, OneLine s.string →
      P ("Unquoted value for attribute \"" ++ s.string ++ "\". Always quote attribute values.")) :
    Check.Says P quotedAttributes := by
  refine fun t => atSpans_wording fun s hs => h s ?_
  obtain ⟨tag, htag, hs⟩ := List.mem_flatMap.mp hs
  unfold unquotedIn at hs
  split at hs
  · simp at hs
  · obtain ⟨name, hname, rfl⟩ := List.mem_map.mp hs
    have hfeed : '\n' ∉ name.text := notMem_of_mem_findGroups (by decide) hname
    exact .ofList hfeed

theorem newline_notMem_lowered {t : Text} (h : '\n' ∉ t) : '\n' ∉ lowered t := by
  intro hmem
  obtain ⟨c, hc, hlower⟩ := List.mem_map.mp hmem
  have hsame : c = '\n' := by
    unfold Char.toLower at hlower
    split at hlower
    · rename_i hupper
      have hlow : 65 ≤ c.val.toNat := UInt32.le_iff_toNat_le.mp hupper.1
      have hhigh : c.val.toNat ≤ 90 := UInt32.le_iff_toNat_le.mp hupper.2
      have hval : (c.val + 32).toNat = 10 := congrArg (fun d => d.val.toNat) hlower
      rw [UInt32.toNat_add] at hval
      have hsmall : (c.val.toNat + 32) % 2 ^ 32 = c.val.toNat + 32 := Nat.mod_eq_of_lt (by omega)
      have hsum : c.val.toNat + 32 = 10 := hsmall.symm.trans hval
      omega
    · exact hlower
  exact h (hsame ▸ hc)

theorem gives_nameOf {p : Pattern} (hp : p.groupAvoids '\n' 1 = true) {t : Text} {tag : Found}
    (h : tag ∈ p.findAll t) : Gives (nameOf tag) fun name => '\n' ∉ name :=
  ((finds_of_mem_findAll h).gives_group hp).bind fun _ hname =>
    gives_pure (newline_notMem_lowered hname)

theorem mem_of_mem_unclosed {name : Text} {opened closed : List Text}
    (h : name ∈ unclosed opened closed) : name ∈ opened :=
  mem_of_mem_firsts (List.mem_filter.mp (List.mem_mergeSort.mp h)).1

theorem closingTags_wording {P : String → Prop}
    (h : ∀ names, OneLine names →
      P ("Missing closing tags for the following elements: " ++ names)) :
    Check.Says P closingTags := by
  intro t
  refine gives_filterM.bind fun tags htags => ?_
  refine (gives_mapM fun tag hm => gives_nameOf (by decide) (htags tag hm)).bind
    fun opened hopened => ?_
  refine gives_bind fun closed => ifPresent_wording (h _ ?_)
  refine .join (.of_eq rfl (by decide)) fun part hpart => ?_
  obtain ⟨name, hname, rfl⟩ := List.mem_map.mp hpart
  have hfeed := hopened name (mem_of_mem_unclosed hname)
  exact .append (.append (.of_eq rfl (by decide)) (.ofList hfeed)) (.of_eq rfl (by decide))

/-- What the rules say stays on one line. -/
theorem ruleSet_oneLine : ∀ rule ∈ ruleSet.rules, Check.Says OneLine rule.check := by
  simp only [ruleSet, List.forall_mem_cons]
  refine ⟨fun _ => ifMissing_wording ?_,
    fun _ => ifMissing_wording ?_,
    fun _ => ifMissing_wording ?_,
    fun _ => gives_bind fun _ => atSpans_wording fun _ _ => ?_,
    fun _ => gives_bind fun _ => atSpans_wording fun _ _ => ?_,
    quotedAttributes_wording fun _ _ => ?_,
    closingTags_wording fun _ _ => ?_,
    fun _ => ifPresent_wording ?_,
    fun _ => gives_bind fun _ => atSpans_wording fun _ _ => ?_,
    by simp⟩
  all_goals
    repeat' with_reducible apply OneLine.append
    all_goals with_reducible first | assumption | exact OneLine.toString _ | exact .of_eq rfl (by decide)

/-! ### Line endings -/

theorem occursIn_attributeNamed {name : String}
    (h : (textCaseless name ++ blanks ++ text "=").ignoresReturns = true) (t : Text) :
    (attributeNamed name).occursIn (Text.crlf t) = (attributeNamed name).occursIn t :=
  occursIn_crlf_of_one (p := attributeNamed name) (f := blank) (fun _ => rfl) rfl rfl h t

theorem occursIn_asyncOrDefer (t : Text) :
    asyncOrDefer.occursIn (Text.crlf t) = asyncOrDefer.occursIn t := by
  have h : ((textCaseless "async" ||| textCaseless "defer") ++ wordEdge).ignoresReturns = true := by
    decide
  exact occursIn_crlf_of_one (p := asyncOrDefer) (f := blank) (fun _ => rfl) rfl rfl h t

/-- An attribute behind the blank that begins it. -/
def afterBlank : Pattern :=
  group 1 (several (union word (among ":-"))) ++ blanks ++ text "=" ++ blanks
    ++ group 2 (one (fun c => !(among "\"'>/" c || blank c)) ++ many fun c => !(c == '>' || blank c))

theorem findGroups_unquotedAttribute (t : Text) : unquotedAttribute.findGroups 1 (Text.crlf t) =
    (unquotedAttribute.findGroups 1 t).map (Span.crlf t) :=
  findGroups_crlf_of_one (p := unquotedAttribute) (f := blank) (q := afterBlank) (fun _ => rfl) rfl
    rfl (by decide) t (by decide) 0

section

variable {t : Text} {tag : Found}

theorem nameOf_crlf {p : Pattern} (hp : p.groupAvoids '\n' 1 = true) (h : tag ∈ p.findAll t) :
    nameOf (tag.crlf t) = nameOf tag := by
  rw [nameOf, Found.group_crlf, nameOf, Found.group]
  cases hname : tag.group? 1 with
  | none => rfl
  | some name =>
      have hfeed : '\n' ∉ name.text := (finds_of_mem_findAll h).notMem_group (i := 0) hp hname
      show Except.ok (lowered (Text.crlf name.text)) = Except.ok (lowered name.text)
      rw [Text.crlf_eq_self hfeed]

theorem isNamed_crlf (h : tag ∈ openingTag.findAll t) (name : String) :
    isNamed (tag.crlf t) name = isNamed tag name := by
  rw [isNamed, nameOf_crlf (by decide) h, isNamed]

theorem holds_crlf {p : Pattern} (hp : ∀ t, p.occursIn (Text.crlf t) = p.occursIn t) :
    holds (tag.crlf t) p = holds tag p := by
  rw [holds, Found.group_crlf, holds, Found.group]
  cases tag.group? 2 with
  | none => rfl
  | some rest => exact congrArg Except.ok (hp rest.text)

theorem needsClosing_crlf (h : tag ∈ openingTag.findAll t) :
    needsClosing (tag.crlf t) = needsClosing tag := by
  have hrest : ∀ rest : Text, Text.endsWith (Text.trimEnd (Text.crlf rest)) "/" =
      Text.endsWith (Text.trimEnd rest) "/" := by
    intro rest
    rw [Text.trimEnd_crlf, Text.endsWith_crlf _ (by decide) (by decide)]
  rw [needsClosing, nameOf_crlf (by decide) h, Found.group_crlf, needsClosing, Found.group]
  cases tag.group? 2 with
  | none => rfl
  | some rest =>
      refine congrArg (nameOf tag >>= ·) (funext fun name => ?_)
      exact congrArg (fun b => Except.ok !(b || voidElements.contains (String.ofList name)))
        (hrest rest.text)

end

theorem atTags_steady {isBad : Found → Checked Bool} (message : String)
    (h : ∀ t, ∀ tag ∈ openingTag.findAll t, isBad (tag.crlf t) = isBad tag) :
    Check.Steady fun t => atTags t isBad message := by
  intro t _
  have htags : Alike (List.Forall₂ (Becomes (openingTag.findAll t) (Found.crlf t)))
      ((openingTag.findAll t).filterM isBad) ((openingTag.findAll (Text.crlf t)).filterM isBad) := by
    refine alike_filterM (becomes_findAll (by decide) (by decide) t) ?_
    rintro tag tag' ⟨htag, rfl⟩
    exact alike_of_eq (h t tag htag)
  refine htags.bind fun tags tags' h => atSpans_alike ?_ _ _
  exact List.rel_map (fun _ _ htag => htag.samePlace_whole) h

theorem noInlineStyle_steady : Check.Steady noInlineStyle :=
  atTags_steady _ fun _ _ _ => holds_crlf (occursIn_attributeNamed (by decide))

theorem imgAlt_steady : Check.Steady imgAlt := by
  refine atTags_steady _ fun t tag h => ?_
  rw [isNamed_crlf h, holds_crlf (occursIn_attributeNamed (by decide))]

theorem scriptLoading_steady : Check.Steady scriptLoading := by
  refine atTags_steady _ fun t tag h => ?_
  rw [isNamed_crlf h, holds_crlf (occursIn_attributeNamed (by decide)),
    holds_crlf occursIn_asyncOrDefer]

theorem quotedAttributes_steady : Check.Steady quotedAttributes := by
  refine Check.steady_atSpans fun t _ => ?_
  refine List.rel_flatMap (becomes_findAll (by decide) (by decide) t) ?_
  rintro tag tag' ⟨htag, rfl⟩
  unfold unquotedIn
  rw [Found.group?_crlf]
  cases hattributes : tag.group? 2 with
  | none => exact .nil
  | some attributes =>
      obtain ⟨pre, post, ht, hstart⟩ :=
        ((finds_of_mem_findAll htag).group?_partOf (i := 1) hattributes).1
      have hstart' : (attributes.crlf t).start = Text.size (Text.crlf pre) := by
        rw [Span.crlf, hstart, ht, List.append_assoc, Text.crlfOffset_size]
      refine List.rel_map ?_ (forall₂_becomes (findGroups_unquotedAttribute attributes.text))
      rintro s s' ⟨hs, rfl⟩
      dsimp only
      rw [hstart, hstart']
      exact (partOf_of_mem_findGroups hs).samePlace.shift ht

theorem closingTags_steady : Check.Steady closingTags := by
  intro t _
  have hopening := becomes_findAll (p := openingTag) (by decide) (by decide) t
  have hclosing := becomes_findAll (p := closingTag) (by decide) (by decide) t
  have hneeding : Alike (List.Forall₂ (Becomes (openingTag.findAll t) (Found.crlf t)))
      ((openingTag.findAll t).filterM needsClosing)
      ((openingTag.findAll (Text.crlf t)).filterM needsClosing) := by
    refine alike_filterM hopening ?_
    rintro tag tag' ⟨htag, rfl⟩
    exact alike_of_eq (needsClosing_crlf htag)
  have hnames : ∀ {p : Pattern} {tags tags' : List Found}, p.groupAvoids '\n' 1 = true →
      List.Forall₂ (Becomes (p.findAll t) (Found.crlf t)) tags tags' →
      Alike (List.Forall₂ Eq) (tags.mapM nameOf) (tags'.mapM nameOf) := by
    intro p tags tags' hp htags
    refine alike_mapM htags ?_
    rintro tag tag' ⟨htag, rfl⟩
    exact alike_of_eq (nameOf_crlf hp htag)
  refine hneeding.bind fun tags tags' htags => ?_
  refine (hnames (by decide) htags).bind fun opened opened' hopened => ?_
  refine (hnames (by decide) hclosing).bind fun closed closed' hclosed => ?_
  rw [List.forall₂_eq_eq_eq] at hopened hclosed
  rw [hopened, hclosed]
  exact ifPresent_alike _ _ _

/-- The rules point to the same lines whatever the line endings. -/
theorem ruleSet_steady : ∀ rule ∈ ruleSet.rules, Check.Steady rule.check := by
  simp only [ruleSet, List.forall_mem_cons]
  refine ⟨Check.steady_unlessOccurs (by decide), Check.steady_unlessOccurs (by decide),
    Check.steady_unlessOccurs (by decide), noInlineStyle_steady, imgAlt_steady,
    quotedAttributes_steady, closingTags_steady, Check.steady_ifPresent fun t _ => ?_,
    scriptLoading_steady, by simp⟩
  rw [findAll_crlf (by decide) (by decide), List.length_map]

/-! ### Order -/

theorem atTags_ordered (isBad : Found → Checked Bool) (message : String) :
    Check.Ordered fun t => atTags t isBad message :=
  fun _ => gives_filterM_sublist.bind fun _ htags => atSpans_successive (pairwise_wholes htags)

/-- The attributes of a tag lie within what stands behind its name. -/
theorem exists_of_mem_unquotedIn {tag : Found} {s : Span} (h : s ∈ unquotedIn tag) :
    ∃ attributes, tag.group? 2 = some attributes ∧ s.Within attributes := by
  unfold unquotedIn at h
  split at h
  · simp at h
  · rename_i attributes hattributes
    refine ⟨attributes, hattributes, Span.within_of_mem_shift attributes (fun _ hs => ?_) h⟩
    exact partOf_of_mem_findGroups hs

theorem quotedAttributes_ordered : Check.Ordered quotedAttributes := by
  refine fun t => atSpans_successive (List.pairwise_flatMap.mpr ⟨fun tag _ => ?_, ?_⟩)
  · unfold unquotedIn
    split
    · exact .nil
    · exact Span.pairwise_shift (pairwise_findGroups _ _ _) _
  · refine (pairwise_findAll openingTag t).imp fun {tag tag'} hbefore s hs s' hs' => ?_
    obtain ⟨attributes, hattributes, hwithin⟩ := exists_of_mem_unquotedIn hs
    obtain ⟨attributes', hattributes', hwithin'⟩ := exists_of_mem_unquotedIn hs'
    exact (hbefore hattributes hattributes').within hwithin hwithin'

/-- The rules report from the first line to the last. -/
theorem ruleSet_ordered : ∀ rule ∈ ruleSet.rules, Check.Ordered rule.check := by
  simp only [ruleSet, List.forall_mem_cons]
  exact ⟨fun _ => ifMissing_inOrder _ _, fun _ => ifMissing_inOrder _ _,
    fun _ => ifMissing_inOrder _ _, atTags_ordered _ _, atTags_ordered _ _,
    quotedAttributes_ordered,
    fun _ => gives_bind fun _ => gives_bind fun _ => gives_bind fun _ => ifPresent_inOrder _ _,
    fun _ => ifPresent_inOrder _ _, atTags_ordered _ _, by simp⟩

end SnippetLint.Html
