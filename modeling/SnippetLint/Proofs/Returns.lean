/-
The search for code behind a return finishes, and what it yields are places.

Whether a return is guarded is decided on the part of its line before it and on the lines before
that; `isGuarded_append` says that both cuts succeed where the return stands.  What follows a return
is looked at without its leading blanks, and its offset is counted from the end of the text
(`unreachableAfter_sound`).
-/
import SnippetLint.Proofs.LineEndings.Checks
import SnippetLint.Proofs.Order.Checks
import SnippetLint.Proofs.Placement
import SnippetLint.Returns

namespace SnippetLint.Returns

open Pattern

/-- At a place of a text the guard of a return is decided without fault. -/
theorem isGuarded_append (pre post : Text) :
    ∃ front, pre = front ++ Text.lineTail pre
      ∧ isGuarded (pre ++ post) (Text.size pre)
        = .ok (if (Text.trim (Text.lineTail pre)).isEmpty then guardedByLineBefore front
            else guardedBySameLine (Text.trim (Text.lineTail pre))) := by
  obtain ⟨front, hfront, hstart⟩ := Text.exists_lineTail pre
  refine ⟨front, hfront, ?_⟩
  have hsplit : pre ++ post = front ++ Text.lineTail pre ++ post := by rw [← hfront]
  have hsize : Text.size pre = Text.size front + Text.size (Text.lineTail pre) :=
    calc Text.size pre
        = Text.size (front ++ Text.lineTail pre) := by rw [← hfront]
      _ = Text.size front + Text.size (Text.lineTail pre) := Text.size_append _ _
  have hlead : Text.slice (pre ++ post) (Text.size front) (Text.size pre)
      = .ok (Text.lineTail pre) := by
    rw [hsplit, hsize]
    exact Text.slice_size front _ post
  have hearlier : Text.before (pre ++ post) (Text.size front) = .ok front := by
    rw [hsplit, List.append_assoc]
    exact Text.before_size front _
  simp only [isGuarded, Text.before_size, hstart, hlead, hearlier, bind, Except.bind]
  split <;> rfl

/-- What the search for code behind one return yields, given what stands around the return. -/
theorem unreachableAfter_eq {t pre post blanks : Text} {s : Span} {guarded : Bool}
    (ht : t = pre ++ s.text ++ post) (hstart : s.start = Text.size pre)
    (hblanks : post = blanks ++ Text.trimStart post) (hguarded : isGuarded t s.start = .ok guarded) :
    unreachableAfter t s = .ok (if guarded || endsBlock (Text.trimStart post) then none
      else some (Text.size (pre ++ s.text ++ blanks))) := by
  have hafter : Text.after t s.stop = .ok post := by
    rw [Span.stop, hstart, ht, ← Text.size_append]
    exact Text.after_size _ post
  have hsize : Text.size t
      = Text.size (pre ++ s.text ++ blanks) + Text.size (Text.trimStart post) := by
    rw [← Text.size_append, List.append_assoc _ blanks, ← hblanks, ht]
  have hdiff : difference (Text.size t) (Text.size (Text.trimStart post))
      = .ok (Text.size (pre ++ s.text ++ blanks)) := by
    rw [difference, if_pos (by omega), hsize, Nat.add_sub_cancel]
  rw [unreachableAfter, hguarded]
  cases guarded with
  | true => rfl
  | false =>
      simp only [hafter, hdiff, bind, Except.bind, Bool.false_or]
      by_cases hends : endsBlock (Text.trimStart post) = true
      · rw [if_pos hends, if_pos hends]
        rfl
      · rw [if_neg hends, if_neg hends]
        rfl

theorem unreachableAfter_sound {t : Text} {s : Span} (hs : s.PartOf t) :
    Yields (unreachableAfter t s) fun found => ∀ offset, found = some offset → t.IsPlace offset := by
  obtain ⟨pre, post, ht, hstart⟩ := hs
  obtain ⟨blanks, hblanks⟩ := Text.exists_trimStart post
  obtain ⟨front, -, hguarded⟩ := isGuarded_append pre (s.text ++ post)
  rw [← List.append_assoc, ← ht, ← hstart] at hguarded
  refine ⟨_, unreachableAfter_eq ht hstart hblanks hguarded, fun offset hoffset => ?_⟩
  obtain ⟨hends, hoffset⟩ := Option.ite_none_left_eq_some.mp hoffset
  obtain ⟨c, more, hnext⟩ : ∃ c more, Text.trimStart post = c :: more := by
    refine List.exists_cons_of_ne_nil fun hnil => hends ?_
    simp [hnil, endsBlock]
  refine ⟨pre ++ s.text ++ blanks, c, more, ?_, (Option.some.inj hoffset).symm⟩
  rw [← hnext, List.append_assoc _ blanks, ← hblanks, ht]

theorem unreachable_sound (t : Text) :
    Yields (unreachable t) fun offsets => ∀ offset ∈ offsets, t.IsPlace offset := by
  refine (yields_mapM fun s hs => unreachableAfter_sound (partOf_of_mem_findSpans hs)).bind
    fun found hfound => ?_
  refine yields_pure fun offset hoffset => ?_
  obtain ⟨o, ho, rfl⟩ := List.mem_filterMap.mp hoffset
  exact hfound _ ho offset rfl

/-- Reporting code behind a return. -/
theorem reportUnreachable_sound (message : String) :
    Check.Sound (fun t => do
      (← unreachable t).mapM fun offset => Finding.atOffset t offset message) :=
  fun t => (unreachable_sound t).bind fun _ hoffsets =>
    yields_mapM fun offset h => Finding.atOffset_sound (hoffsets offset h) message

/-! ### Line endings -/

theorem guardedByLineBefore_crlf {earlier : Text} (h : '\r' ∉ earlier) :
    guardedByLineBefore (Text.crlf earlier) = guardedByLineBefore earlier := by
  rw [guardedByLineBefore, Text.lines_crlf h]
  rfl

theorem isGuarded_crlf {pre post : Text} (h : '\r' ∉ pre) :
    isGuarded (Text.crlf (pre ++ post)) (Text.size (Text.crlf pre)) =
      isGuarded (pre ++ post) (Text.size pre) := by
  obtain ⟨front, hfront, hok⟩ := isGuarded_append pre post
  obtain ⟨front', hfront', hok'⟩ := isGuarded_append (Text.crlf pre) (Text.crlf post)
  have hcrlf : front' = Text.crlf front := by
    rw [Text.lineTail_crlf] at hfront'
    have hsplit : Text.crlf pre = Text.crlf front ++ Text.lineTail pre := by
      rw [← Text.crlf_eq_self (Text.newline_notMem_lineTail pre), ← Text.crlf_append, ← hfront]
    exact List.append_cancel_right (hfront'.symm.trans hsplit)
  have hreturn : '\r' ∉ front := fun hmem => h (hfront ▸ List.mem_append_left _ hmem)
  rw [Text.crlf_append, hok', hok, Text.lineTail_crlf, hcrlf, guardedByLineBefore_crlf hreturn]

theorem endsBlock_crlf (next : Text) : endsBlock (Text.crlf next) = endsBlock next := by
  have hwords : ∀ word ∈ ["\x7d", "case ", "default", "//", "/*", "#"],
      Text.startsWith (Text.crlf next) word = Text.startsWith next word := by
    intro word hword
    have hfeed : ∀ word ∈ ["\x7d", "case ", "default", "//", "/*", "#"],
        '\n' ∉ word.toList ∧ '\r' ∉ word.toList := by decide
    exact Text.startsWith_crlf word (hfeed word hword).1 (hfeed word hword).2 next
  have hany : ["\x7d", "case ", "default", "//", "/*", "#"].any (Text.startsWith (Text.crlf next)) =
      ["\x7d", "case ", "default", "//", "/*", "#"].any (Text.startsWith next) :=
    any_eq_of_mem hwords
  rw [endsBlock, Text.isEmpty_crlf, hany, endsBlock]

theorem unreachableAfter_alike {t : Text} (h : '\r' ∉ t) {s : Span} (hs : s.PartOf t) :
    Alike (Option.Rel (SamePlace t)) (unreachableAfter t s)
      (unreachableAfter (Text.crlf t) (s.crlf t)) := by
  obtain ⟨pre, post, rfl, hstart⟩ := hs
  obtain ⟨blanks, hblanks⟩ := Text.exists_trimStart post
  obtain ⟨guarded, hguarded⟩ : ∃ guarded, isGuarded (pre ++ (s.text ++ post)) (Text.size pre) =
      .ok guarded := by
    obtain ⟨front, -, hguarded⟩ := isGuarded_append pre (s.text ++ post)
    exact ⟨_, hguarded⟩
  have hreturn : '\r' ∉ pre := fun hmem => h (by simp [hmem])
  have hstart' : (s.crlf (pre ++ s.text ++ post)).start = Text.size (Text.crlf pre) := by
    rw [Span.crlf, hstart, List.append_assoc, Text.crlfOffset_size]
  have ht' : Text.crlf (pre ++ s.text ++ post) =
      Text.crlf pre ++ Text.crlf s.text ++ Text.crlf post := by
    rw [Text.crlf_append, Text.crlf_append]
  have hblanks' : Text.crlf post = Text.crlf blanks ++ Text.trimStart (Text.crlf post) := by
    rw [Text.trimStart_crlf, ← Text.crlf_append, ← hblanks]
  have hguarded' := @isGuarded_crlf pre (s.text ++ post) hreturn
  rw [hguarded, ← List.append_assoc, ← hstart'] at hguarded'
  rw [← List.append_assoc, ← hstart] at hguarded
  rw [unreachableAfter_eq rfl hstart hblanks hguarded,
    unreachableAfter_eq ht' hstart' hblanks' hguarded', Text.trimStart_crlf, endsBlock_crlf]
  refine alike_pure ?_
  split
  · exact .none
  · exact .some ⟨pre ++ s.text ++ blanks, Text.trimStart post,
      by rw [List.append_assoc _ blanks, ← hblanks], rfl, by simp [Span.crlf]⟩

theorem unreachable_alike {t : Text} (h : '\r' ∉ t) :
    Alike (List.Forall₂ (SamePlace t)) (unreachable t) (unreachable (Text.crlf t)) := by
  have hstatements := becomes_findSpans (p := statement) (by decide) (by decide) t
  have hfound : Alike (List.Forall₂ (Option.Rel (SamePlace t)))
      ((statement.findSpans t).mapM (unreachableAfter t))
      ((statement.findSpans (Text.crlf t)).mapM (unreachableAfter (Text.crlf t))) := by
    refine alike_mapM hstatements ?_
    rintro s s' ⟨hs, rfl⟩
    exact unreachableAfter_alike h (partOf_of_mem_findSpans hs)
  exact hfound.bind fun found found' h => alike_pure (List.rel_filterMap (fun _ _ h => h) h)

/-- Code behind a return is reported in the same places. -/
theorem reportUnreachable_steady (message : String) :
    Check.Steady (fun t => do
      (← unreachable t).mapM fun offset => Finding.atOffset t offset message) :=
  fun _ ht => (unreachable_alike ht).bind fun _ _ hoffsets =>
    alike_mapM hoffsets fun _ _ hplace => Finding.atOffset_alike hplace message message

/-! ### Order -/

theorem trimStart_suffix {t s : Text} (h : s <:+ t) : Text.trimStart s <:+ Text.trimStart t := by
  obtain ⟨front, rfl⟩ := h
  induction front with
  | nil => exact List.suffix_refl _
  | cons c more ih =>
      by_cases hc : Unicode.isBlank c = true
      · rw [List.cons_append, Text.trimStart, Text.trimStart, List.dropWhile_cons_of_pos hc]
        exact ih
      · have hkept : Text.trimStart (c :: more ++ s) = c :: more ++ s :=
          List.dropWhile_cons_of_neg hc
        rw [hkept]
        exact (List.dropWhile_suffix _).trans (List.suffix_append _ s)

/-- The code behind a return begins where the blanks behind it end. -/
theorem exists_of_unreachableAfter {t : Text} {s : Span} {offset : Nat}
    (h : unreachableAfter t s = .ok (some offset)) :
    ∃ rest, Text.after t s.stop = .ok rest ∧
      offset = Text.size t - Text.size (Text.trimStart rest) := by
  unfold unreachableAfter at h
  obtain ⟨guarded, -, h⟩ := bind_eq_ok_iff.mp h
  split at h
  · cases h
  · obtain ⟨rest, hrest, h⟩ := bind_eq_ok_iff.mp h
    dsimp only at h
    split at h
    · cases h
    · obtain ⟨offset', hoffset, h⟩ := bind_eq_ok_iff.mp h
      cases h
      unfold difference at hoffset
      split at hoffset
      · exact ⟨rest, hrest, (Except.ok.inj hoffset).symm⟩
      · cases hoffset

/-- The code behind a later return stands no earlier. -/
theorem unreachableAfter_mono {t : Text} {s s' : Span} {offset offset' : Nat}
    (hle : s.stop ≤ s'.stop) (h : unreachableAfter t s = .ok (some offset))
    (h' : unreachableAfter t s' = .ok (some offset')) : offset ≤ offset' := by
  obtain ⟨rest, hrest, rfl⟩ := exists_of_unreachableAfter h
  obtain ⟨rest', hrest', rfl⟩ := exists_of_unreachableAfter h'
  obtain ⟨front, ht, hfront⟩ := Text.exists_of_after hrest
  obtain ⟨front', ht', hfront'⟩ := Text.exists_of_after hrest'
  obtain ⟨more, rfl⟩ := Text.prefix_of_size_le ⟨rest, ht.symm⟩ ⟨rest', ht'.symm⟩ (by omega)
  rw [ht', List.append_assoc] at ht
  obtain rfl := List.append_cancel_left ht
  obtain ⟨blanks, hblanks⟩ := trimStart_suffix (List.suffix_append more rest')
  rw [← hblanks, Text.size_append]
  omega

theorem unreachable_inOrder (t : Text) : Gives (unreachable t) (List.Pairwise (· ≤ ·)) := by
  have hfound : Gives ((statement.findSpans t).mapM (unreachableAfter t)) (List.Pairwise
      fun found found' => ∀ offset ∈ found, ∀ offset' ∈ found', offset ≤ offset') := by
    refine gives_mapM_pairwise (fun s => gives_self _) (fun {s s' found found'} hbefore hs hs' => ?_)
      (pairwise_findSpans statement t)
    rintro offset rfl offset' rfl
    exact unreachableAfter_mono (Nat.le_trans hbefore s'.start_le_stop) hs hs'
  exact hfound.bind fun _ h => gives_pure (List.pairwise_filterMap.mpr h)

theorem reportUnreachable_ordered (message : String) :
    Check.Ordered (fun t => do
      (← unreachable t).mapM fun offset => Finding.atOffset t offset message) :=
  fun t => (unreachable_inOrder t).bind fun _ h => Finding.atOffsets_inOrder id (fun _ => message) h

end SnippetLint.Returns
