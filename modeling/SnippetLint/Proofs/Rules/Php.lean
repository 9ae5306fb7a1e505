/-
Every rule for PHP finishes, points at the right line, whatever the line endings, and begins its
messages with words of its own.  Each reports from the first line to the last.
-/
import SnippetLint.Proofs.LineEndings.Comparison
import SnippetLint.Proofs.LineEndings.Inside
import SnippetLint.Proofs.Order.Checks
import SnippetLint.Proofs.Repeats
import SnippetLint.Proofs.Wording
import SnippetLint.Rules.Php

namespace SnippetLint.Php

open Finding Pattern

theorem variableNaming_sound : Check.Sound variableNaming :=
  fun t => groups_sound (by decide) t fun _ hs => (List.mem_filter.mp (mem_of_mem_firsts hs)).1

theorem shortOpenTag_sound : Check.Sound shortOpenTag := by
  intro t
  unfold shortOpenTag
  refine (yields_filterM fun s hs => ?_).bind fun tags htags => spans_sound (by decide) t htags
  obtain ⟨rest, hrest⟩ := (partOf_of_mem_findSpans hs).after_stop
  rw [hrest]
  exact yields_pure trivial

/-- The two signs of the closing tag are the last of the text but for blanks. -/
theorem closingTag_sound : Check.Sound closingTag := by
  intro t
  unfold closingTag
  dsimp only
  split
  · rename_i hends
    obtain ⟨blanks, hblanks⟩ := Text.exists_trimEnd t
    obtain ⟨front, hfront⟩ := List.isSuffixOf_iff_suffix.mp hends
    have hwritten : Text.trimEnd t = front ++ ['?', '>'] := hfront.symm
    have hsize : Text.size (Text.trimEnd t) = Text.size front + 2 := by
      rw [hwritten, Text.size_append]
      rfl
    have hplace : t.IsPlace (Text.size front) :=
      ⟨front, '?', '>' :: blanks, by rw [hblanks, hwritten]; simp, rfl⟩
    rw [difference, if_pos (by omega), hsize, Nat.add_sub_cancel]
    refine (atOffset_sound hplace _).bind fun f hf => yields_pure fun g hg => ?_
    rw [List.mem_singleton.mp hg]
    exact hf
  · exact yields_pure (by simp [AllPlaced])

theorem todoComment_sound : Check.Sound todoComment :=
  fun t => spans_sound (by decide) t fun _ hs => (List.mem_filter.mp hs).1

theorem ruleSet_sound : ∀ rule ∈ ruleSet.rules, Check.Sound rule.check := by
  simp only [ruleSet, List.forall_mem_cons]
  exact ⟨fun t => ifMissing_sound t _ _, fun t => ifMissing_sound t _ _,
    fun t => ifMissing_sound t _ _, filterGroups_sound (by decide) _, variableNaming_sound,
    LooseOperator.findAll_sound _, shortOpenTag_sound, closingTag_sound, todoComment_sound,
    findSpans_sound (by decide), by simp⟩

/-! ### Messages -/

theorem strictMessage_telling (op : LooseOperator) : Telling (strictMessage op) := by
  cases op <;> exact .of_eq rfl (by decide)

theorem closingTag_wording {P : String → Prop} (h : P "PHP files should omit the closing tag (?>).") :
    Check.Says P closingTag := by
  intro t
  unfold closingTag
  dsimp only
  split
  · exact gives_bind fun _ => (atOffset_wording h).bind fun _ hf => gives_pure (allSay_singleton hf)
  · exact gives_pure allSay_nil

/-- What the rules say is told from what is shown where nothing was found. -/
theorem ruleSet_telling : ∀ rule ∈ ruleSet.rules, Check.Says Telling rule.check := by
  simp only [ruleSet, List.forall_mem_cons]
  refine ⟨fun _ => ifMissing_wording ?_,
    fun _ => ifMissing_wording ?_,
    fun _ => ifMissing_wording ?_,
    fun _ => atSpans_wording fun _ _ => ?_,
    fun _ => atSpans_wording fun _ _ => ?_,
    fun _ => gives_bind fun _ => gives_mapM fun _ _ => atOffset_wording (strictMessage_telling _),
    fun _ => gives_bind fun _ => atSpans_wording fun _ _ => ?_,
    closingTag_wording ?_,
    fun _ => atSpans_wording fun _ _ => ?_,
    fun _ => atSpans_wording fun _ _ => ?_,
    by simp⟩
  all_goals
    repeat with_reducible apply Telling.append
    exact .of_eq rfl (by decide)

theorem strictMessage_oneLine (op : LooseOperator) : OneLine (strictMessage op) := by
  cases op <;> exact .of_eq rfl (by decide)

/-- What the rules say stays on one line. -/
theorem ruleSet_oneLine : ∀ rule ∈ ruleSet.rules, Check.Says OneLine rule.check := by
  simp only [ruleSet, List.forall_mem_cons]
  refine ⟨fun _ => ifMissing_wording ?_,
    fun _ => ifMissing_wording ?_,
    fun _ => ifMissing_wording ?_,
    fun _ => groups_wording (by decide) (fun _ hs => (List.mem_filter.mp hs).1) fun _ _ => ?_,
    fun _ => groups_wording (by decide) (fun _ hs => (List.mem_filter.mp (mem_of_mem_firsts hs)).1)
      fun _ _ => ?_,
    fun _ => gives_bind fun _ => gives_mapM fun _ _ => atOffset_wording (strictMessage_oneLine _),
    fun _ => gives_bind fun _ => atSpans_wording fun _ _ => ?_,
    closingTag_wording ?_,
    fun _ => atSpans_wording fun _ _ => ?_,
    fun _ => atSpans_wording fun _ _ => ?_,
    by simp⟩
  all_goals
    repeat' with_reducible apply OneLine.append
    all_goals with_reducible first | assumption | exact OneLine.toString _ | exact .of_eq rfl (by decide)

/-! ### Line endings -/

theorem variableNaming_steady : Check.Steady variableNaming := by
  refine Check.steady_atSpans fun t _ => ?_
  have havoids : variable_.groupAvoids '\n' 1 = true := by decide
  have hnames := becomes_findGroups (p := variable_) (by decide) (by decide) 1 t
  have hmisnamed := forall₂_filter (p := isMisnamed) (q := isMisnamed) hnames fun s s' h => by
    rw [isMisnamed, Span.string, h.text_of_group havoids, isMisnamed, Span.string]
  have hfirsts := forall₂_firsts (fun _ _ h => congrArg Span.text h.2) hmisnamed
  exact hfirsts.imp fun _ _ h => h.samePlace_of_group

theorem completesTag_crlf (rest : Text) : completesTag (Text.crlf rest) = completesTag rest := by
  simp only [completesTag, List.any_cons, List.any_nil]
  rw [Text.startsWith_crlf _ (by decide) (by decide), Text.startsWith_crlf _ (by decide) (by decide),
    Text.startsWith_crlf _ (by decide) (by decide)]

theorem shortOpenTag_steady : Check.Steady shortOpenTag := by
  intro t _
  have htags : Alike (List.Forall₂ (Becomes (anyOpenTag.findSpans t) (Span.crlf t)))
      ((anyOpenTag.findSpans t).filterM fun s => return !completesTag (← Text.after t s.stop))
      ((anyOpenTag.findSpans (Text.crlf t)).filterM fun s =>
        return !completesTag (← Text.after (Text.crlf t) s.stop)) := by
    refine alike_filterM (becomes_findSpans (by decide) (by decide) t) ?_
    rintro s s' ⟨hs, rfl⟩
    obtain ⟨pre, post, ht, hstop, hstop'⟩ := (partOf_of_mem_findSpans hs).samePlace_stop
    have hafter : Text.after t s.stop = .ok post := by rw [hstop, ht, Text.after_size]
    have hafter' : Text.after (Text.crlf t) (s.crlf t).stop = .ok (Text.crlf post) := by
      rw [hstop', ht, Text.crlf_append, Text.after_size]
    rw [hafter, hafter']
    exact alike_pure (congrArg not (completesTag_crlf post).symm)
  exact htags.bind fun tags tags' h =>
    atSpans_alike (h.imp fun _ _ hspan => hspan.samePlace_of_span) _ _

theorem closingTag_steady : Check.Steady closingTag := by
  intro t _
  obtain ⟨blanks, hblanks⟩ := Text.exists_trimEnd t
  have hends : Text.endsWith (Text.trimEnd (Text.crlf t)) "?>" = Text.endsWith (Text.trimEnd t) "?>" := by
    rw [Text.trimEnd_crlf, Text.endsWith_crlf _ (by decide) (by decide)]
  unfold closingTag
  dsimp only
  rw [hends]
  split
  · rename_i hsuffix
    obtain ⟨front, hfront⟩ := List.isSuffixOf_iff_suffix.mp hsuffix
    have hwritten : Text.trimEnd t = front ++ ['?', '>'] := hfront.symm
    have hdifference : ∀ u : Text, difference (Text.size (u ++ ['?', '>'])) 2 = .ok (Text.size u) := by
      intro u
      have hsize : Text.size (u ++ ['?', '>']) = Text.size u + 2 := Text.size_append ..
      rw [difference, hsize, if_pos (Nat.le_add_left ..), Nat.add_sub_cancel]
    have hplace : SamePlace t (Text.size front) (Text.size (Text.crlf front)) := by
      refine ⟨front, ['?', '>'] ++ blanks, ?_, rfl, rfl⟩
      rw [hblanks, hwritten, List.append_assoc]
    rw [Text.trimEnd_crlf, hwritten, Text.crlf_append, hdifference]
    have hsigns : Text.crlf ['?', '>'] = ['?', '>'] := rfl
    rw [hsigns, hdifference]
    exact (atOffset_alike hplace _ _).bind fun f f' h => alike_pure (.cons h .nil)
  · exact alike_pure .nil

/-! A comment up to the end of its line has the carriage return of the line ending in it, so the two
texts' comments differ; the words in them do not. -/

def lineComment : Pattern := text "//" ++ many (except "\n")

def blockComment : Pattern := text "/*" ++ few anything ++ text "*/"

/-- The words that mark a comment. -/
def isMarker (w : Text) : Bool := w == "TODO".toList || w == "FIXME".toList

theorem recognises_todoMarker : Words.Recognises todoMarker isMarker := by
  have htodo : Words.Recognises (Words.standing "TODO".toList) (· == "TODO".toList) :=
    Words.recognises_standing (by decide) (List.all_eq_true.mp (by decide))
  have hfixme : Words.Recognises (Words.standing "FIXME".toList) (· == "FIXME".toList) :=
    Words.recognises_standing (by decide) (List.all_eq_true.mp (by decide))
  refine htodo.either hfixme fun here => ?_
  let k : Cursor → Groups → Option Found := fun next groups =>
    if next.atWordEdge then some (Found.between here next groups) else none
  show (if here.atWordEdge then run (either (text "TODO") (text "FIXME")) here [] k else none) =
    (if here.atWordEdge then run (text "TODO") here [] k else none).or
      (if here.atWordEdge then run (text "FIXME") here [] k else none)
  split
  · rw [run]
    cases run (text "TODO") here [] k <;> rfl
  · rfl

theorem occursIn_todoMarker_concat (u : Text) :
    todoMarker.occursIn (u ++ ['\r']) = todoMarker.occursIn u := by
  rw [Words.occursIn_eq recognises_todoMarker,
    Words.all_concat_of_not_isWord Unicode.isWord_carriageReturn,
    Words.occursIn_eq recognises_todoMarker]

/-- Comments at the same place that have the same words in them, and leave out the same. -/
structure SameComment (t : Text) (m m' : Found) : Prop where
  place : SamePlace t m.whole.start m'.whole.start
  marked : todoMarker.occursIn m'.whole.text = todoMarker.occursIn m.whole.text
  meets : Meets comment t m.whole.stop m'.whole.stop

theorem matchAt_comment (a : Cursor) :
    matchAt comment a = (matchAt lineComment a).or (matchAt blockComment a) := matchAt_either

theorem matchAt_lineComment_none {a : Cursor} (h : ¬ "//".toList <+: a.ahead) :
    matchAt lineComment a = none := run_exactly_eq_none h

/-- A comment up to the end of its line. -/
theorem matchAt_lineComment {a : Cursor} {rest : Text} (h : a.ahead = '/' :: '/' :: rest) :
    ∃ b, a.Passes ('/' :: '/' :: Text.lineHead rest) b ∧
      matchAt lineComment a = some ⟨⟨a.offset, '/' :: '/' :: Text.lineHead rest⟩, []⟩ := by
  have hslashes : a.Passes "//".toList ⟨some '/', a.offset + 2, rest⟩ := ⟨h, rfl, rfl⟩
  have hhead : rest.takeWhile (except "\n") = Text.lineHead rest := by
    refine congrArg (fun f => rest.takeWhile f) (funext fun c => ?_)
    by_cases hc : c = '\n' <;> simp [except, hc]
  obtain ⟨b, hb, hrun⟩ := passMany_of_total (f := except "\n")
    (k := fun b => some (Found.between a b [])) (fun _ => rfl) (some '/') (a.offset + 2) rest
  rw [hhead] at hb
  have hpass := hslashes.trans hb
  refine ⟨b, hpass, ?_⟩
  have hmatch : matchAt lineComment a = some (Found.between a b []) :=
    (run_exactly hslashes).trans hrun
  rw [hmatch, Found.between, Span.between_eq hpass]
  rfl

theorem slash_of_isSome_matchAt {a : Cursor} (h : (matchAt comment a).isSome = true) :
    ∃ rest, a.ahead = '/' :: rest := by
  rw [matchAt_comment] at h
  have hbegins : "//".toList <+: a.ahead ∨ "/*".toList <+: a.ahead := by
    by_contra hnone
    rw [not_or] at hnone
    have hblock : matchAt blockComment a = none := run_exactly_eq_none hnone.2
    rw [matchAt_lineComment_none hnone.1, hblock] at h
    simp at h
  rcases hbegins with ⟨rest, hrest⟩ | ⟨rest, hrest⟩
  · exact ⟨'/' :: rest, hrest.symm⟩
  · exact ⟨'*' :: rest, hrest.symm⟩

/-- Where a comment up to the end of its line stops. -/
theorem meets_lineComment {t rest : Text} {a b : Cursor} (ha : a.PlaceOf t)
    (h : a.ahead = '/' :: '/' :: rest) (hb : a.Passes ('/' :: '/' :: Text.lineHead rest) b) :
    Meets comment t (a.offset + Text.size ('/' :: '/' :: Text.lineHead rest))
      ((a.crlf t).offset + Text.size ('/' :: '/' :: Text.lineHead (Text.crlf rest))) := by
  have hplace : b.PlaceOf t := ha.passes hb
  have hsame : Text.crlf ('/' :: '/' :: Text.lineHead rest) = '/' :: '/' :: Text.lineHead rest :=
    Text.crlf_eq_self (by simp [Text.newline_notMem_lineHead])
  have hoffset' : (b.crlf t).offset =
      (a.crlf t).offset + Text.size ('/' :: '/' :: Text.lineHead rest) := by
    rw [(ha.passes_crlf hb).offset, hsame]
  rw [← hb.offset, Text.lineHead_crlf]
  by_cases hfeed : '\n' ∈ rest
  · obtain ⟨front, post, rfl, hfront⟩ := List.eq_append_cons_of_mem hfeed
    rw [Text.lineHead_append hfront] at hb hoffset' ⊢
    have hahead : b.ahead = '\n' :: post := by
      have hcons : ('/' :: '/' :: front) ++ '\n' :: post = ('/' :: '/' :: front) ++ b.ahead :=
        h.symm.trans hb.ahead
      exact (List.append_cancel_left hcons).symm
    have hmid := Meets.of_mid (p := comment) hplace hahead fun x hx rest hrest => by
      obtain ⟨more, hmore⟩ := slash_of_isSome_matchAt hx
      rw [hmore] at hrest
      exact absurd (List.cons.inj hrest).1 (by decide)
    rw [hoffset', Nat.add_assoc] at hmid
    rw [if_pos hfeed]
    have hreturn : Text.size (('/' :: '/' :: front) ++ ['\r']) = Text.size ('/' :: '/' :: front) + 1 :=
      Text.size_append ..
    rw [← hreturn] at hmid
    exact hmid
  · rw [if_neg hfeed, List.append_nil, ← hoffset']
    exact Meets.of_place hplace

theorem matchNear_comment {t : Text} {a : Cursor} (h : ¬ "//".toList <+: a.ahead) :
    comment.matchNear t a = blockComment.matchNear t a := by
  refine matchNear_congr fun b hb => ?_
  have hnone : ¬ "//".toList <+: b.ahead := by
    rcases hb with rfl | ⟨rest, hrest⟩
    · rw [← List.isPrefixOf_iff_prefix, ← Text.isPrefixOf_crlf (by decide) (by decide),
        List.isPrefixOf_iff_prefix] at h
      exact h
    · rw [hrest]
      rintro ⟨more, hmore⟩
      exact absurd (List.cons.inj hmore).1 (by decide)
  rw [matchAt_comment, matchAt_lineComment_none hnone, Option.none_or]

section

variable {t : Text} {a : Cursor} (ha : a.PlaceOf t)

include ha

theorem sameComment_lineComment {rest : Text} (hahead : a.ahead = '/' :: '/' :: rest) :
    Option.Rel (SameComment t) (matchAt comment a) (comment.matchNear t a) := by
  have hahead' : (a.crlf t).ahead = '/' :: '/' :: Text.crlf rest := congrArg Text.crlf hahead
  obtain ⟨b, hb, hmatch⟩ := matchAt_lineComment hahead
  obtain ⟨b', -, hmatch'⟩ := matchAt_lineComment hahead'
  obtain ⟨pre, hpre⟩ := id ha
  rw [matchNear_cons hahead (by decide), matchAt_comment, matchAt_comment, hmatch, hmatch']
  refine .some ⟨⟨pre, a.ahead, hpre.eq_append, hpre.offset_start, hpre.offset_crlf⟩, ?_,
    meets_lineComment ha hahead hb⟩
  dsimp only
  rw [Text.lineHead_crlf]
  split
  · exact occursIn_todoMarker_concat ('/' :: '/' :: Text.lineHead rest)
  · rw [List.append_nil]

/-- The pattern of the other comments does not tell line endings apart. -/
theorem sameComment_blockComment :
    Option.Rel (SameComment t) (matchAt blockComment a) (blockComment.matchNear t a) := by
  have hblock := counterparts_matchNear (p := blockComment) (by decide) ha
  generalize matchAt blockComment a = first at hblock
  generalize blockComment.matchNear t a = first' at hblock
  cases hblock with
  | none => exact .none
  | some h =>
      obtain ⟨hfinds, rfl⟩ := h
      obtain ⟨b, hb, hoffset, hoffset'⟩ := exists_placeOf_stop hfinds.whole_partOf
      have hmeets := Meets.of_place (p := comment) hb
      rw [hoffset, hoffset'] at hmeets
      exact .some ⟨hfinds.whole_partOf.samePlace, occursIn_crlf (by decide) _, hmeets⟩

theorem sameComment_matchNear :
    Option.Rel (SameComment t) (matchAt comment a) (comment.matchNear t a) := by
  by_cases hslashes : "//".toList <+: a.ahead
  · obtain ⟨rest, hrest⟩ := hslashes
    exact sameComment_lineComment ha hrest.symm
  · have hhere : matchAt comment a = matchAt blockComment a := by
      rw [matchAt_comment, matchAt_lineComment_none hslashes, Option.none_or]
    rw [hhere, matchNear_comment hslashes]
    exact sameComment_blockComment ha

end

theorem todoComment_steady : Check.Steady todoComment := by
  refine Check.steady_atSpans fun t _ => ?_
  have hcomments := findAll_related (p := comment) (by decide)
    (fun a ha => sameComment_matchNear (t := t) ha) fun _ _ h => h.meets
  have hspans : List.Forall₂ (fun s s' : Span => SamePlace t s.start s'.start ∧
      todoMarker.occursIn s'.text = todoMarker.occursIn s.text)
      (comment.findSpans t) (comment.findSpans (Text.crlf t)) :=
    List.rel_map (fun _ _ h => ⟨h.place, h.marked⟩) hcomments
  exact (forall₂_filter hspans fun _ _ h => h.2).imp fun _ _ h => h.1

/-- The rules point to the same lines whatever the line endings. -/
theorem ruleSet_steady : ∀ rule ∈ ruleSet.rules, Check.Steady rule.check := by
  simp only [ruleSet, List.forall_mem_cons]
  refine ⟨Check.steady_unlessOccurs (by decide), Check.steady_unlessHas _ (by decide) (by decide),
    Check.steady_unlessOccurs (by decide),
    Check.steady_filterGroups_text (by decide) (by decide) (by decide) ?_, variableNaming_steady,
    LooseOperator.report_steady _, shortOpenTag_steady, closingTag_steady, todoComment_steady,
    Check.steady_spans (by decide) (by decide), by simp⟩
  intro s s' htext
  rw [htext]

/-! ### Order -/

theorem variableNaming_ordered : Check.Ordered variableNaming :=
  fun t => atSpans_successive
    (((pairwise_findGroups variable_ 1 t).filter _).sublist (firsts_sublist _))

theorem shortOpenTag_ordered : Check.Ordered shortOpenTag :=
  fun t => gives_filterM_sublist.bind fun _ htags =>
    atSpans_successive ((pairwise_findSpans anyOpenTag t).sublist htags)

theorem closingTag_ordered : Check.Ordered closingTag := by
  intro t
  unfold closingTag
  dsimp only
  split
  · refine gives_bind fun offset => gives_bind fun f => gives_pure ?_
    exact inOrder_iff.mpr (List.pairwise_singleton _ _)
  · exact gives_pure .nil

/-- The rules report from the first line to the last. -/
theorem ruleSet_ordered : ∀ rule ∈ ruleSet.rules, Check.Ordered rule.check := by
  simp only [ruleSet, List.forall_mem_cons]
  exact ⟨fun _ => ifMissing_inOrder _ _, fun _ => ifMissing_inOrder _ _,
    fun _ => ifMissing_inOrder _ _, filterGroups_ordered _, variableNaming_ordered,
    LooseOperator.findAll_ordered _, shortOpenTag_ordered, closingTag_ordered,
    filterSpans_ordered _, findSpans_ordered, by simp⟩

end SnippetLint.Php
