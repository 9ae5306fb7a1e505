/-
The line around any offset.

An offset is anything that a rule may hold: the place of a character, which may be the line feed that
ends a line or half of the ending of one, or the end of the text, or a number behind it.  Wherever a
character begins, `lineAt` names the line that the numbered lines have under that number, so the two
ways to name a line agree at all offsets inside of a text.  At its end they need not: behind a final
line feed there is no line, and `lineAt` goes on counting.  There it shows what is left behind the last
line feed, and an offset behind the end is treated like the end.
-/
import SnippetLint.Proofs.Text.Lines

namespace SnippetLint.Text

/-- The line of the character at a place is the one that the line feeds before the place count. -/
theorem exists_getElem?_lines (pre : Text) {post : Text} (hne : post ≠ []) :
    ∃ line, (lines (pre ++ post))[pre.count '\n']? = some line ∧
      trim line = trim (lineTail pre ++ lineHead post) := by
  obtain ⟨c, rest, rfl⟩ := List.exists_cons_of_ne_nil hne
  obtain ⟨line, hmem, htrim⟩ := exists_mem_numberedLines pre c rest
  rw [numberedLines, Nat.add_comm, List.mk_add_mem_zipIdx_iff_getElem?] at hmem
  exact ⟨line, hmem, htrim⟩

/-- An offset behind the end counts as the end. -/
theorem lineAt_of_size_le {t : Text} {offset : Nat} (h : size t ≤ offset) :
    lineAt t offset = lineAt t (size t) := by
  rw [lineAt, lineAt, Nat.min_eq_right h, Nat.min_self]

/-- At the end of a text stands what its last line feed is followed by. -/
theorem lineAt_size (t : Text) :
    lineAt t (size t) = .ok (t.count '\n' + 1, trim (lineTail t)) := by
  have hend := lineAt_append t []
  rwa [lineHead, List.takeWhile_nil, List.append_nil, List.append_nil] at hend

theorem exists_of_lineAt {t snippet : Text} {offset n : Nat}
    (h : lineAt t offset = .ok (n, snippet)) :
    ∃ head, head <+: t ∧ size head = min offset (size t) ∧ n = head.count '\n' + 1 := by
  obtain ⟨head, hhead, h⟩ := bind_eq_ok_iff.mp h
  obtain ⟨tail, -, h⟩ := bind_eq_ok_iff.mp h
  obtain ⟨line, -, h⟩ := bind_eq_ok_iff.mp h
  obtain ⟨⟨front, back⟩, hsplit, hfront⟩ := bind_eq_ok_iff.mp hhead
  obtain rfl := Except.ok.inj hfront
  obtain ⟨ht, hsize⟩ := eq_append_of_splitAt hsplit
  exact ⟨front, ⟨back, ht.symm⟩, hsize.symm, (Prod.mk.inj (Except.ok.inj h)).1.symm⟩

/-- The line around a later offset is no earlier line. -/
theorem lineAt_mono {t snippet snippet' : Text} {offset offset' n n' : Nat} (hle : offset ≤ offset')
    (h : lineAt t offset = .ok (n, snippet)) (h' : lineAt t offset' = .ok (n', snippet')) :
    n ≤ n' := by
  obtain ⟨head, hhead, hsize, rfl⟩ := exists_of_lineAt h
  obtain ⟨head', hhead', hsize', rfl⟩ := exists_of_lineAt h'
  have hbegins := prefix_of_size_le hhead hhead' (by omega)
  exact Nat.succ_le_succ (hbegins.sublist.count_le _)

/-- **The two ways to name a line agree at every offset.**  At an offset inside of a text, the number
is one more than the line feeds before it, the text has a line of that number, and what is shown is
that line without its outer blanks.  At the end and behind it, all line feeds are counted, and what is
shown is what stands behind the last.  Of two offsets the later is on no earlier line. -/
theorem lineAt_exact (t : Text) :
    (∀ pre post, t = pre ++ post → size pre < size t →
      pre.count '\n' + 1 ≤ (lines t).length ∧
      ∃ line, (lines t)[pre.count '\n']? = some line ∧
        lineAt t (size pre) = .ok (pre.count '\n' + 1, trim line)) ∧
    (∀ offset, size t ≤ offset →
      lineAt t offset = .ok (t.count '\n' + 1, trim (lineTail t))) ∧
    ∀ offset offset' n n' snippet snippet', offset ≤ offset' →
      lineAt t offset = .ok (n, snippet) → lineAt t offset' = .ok (n', snippet') → n ≤ n' := by
  refine ⟨?_, fun offset h => (lineAt_of_size_le h).trans (lineAt_size t),
    fun _ _ _ _ _ _ hle h h' => lineAt_mono hle h h'⟩
  rintro pre post rfl hlt
  have hne : post ≠ [] := by
    rintro rfl
    rw [List.append_nil] at hlt
    exact Nat.lt_irrefl _ hlt
  obtain ⟨line, hline, htrim⟩ := exists_getElem?_lines pre hne
  obtain ⟨hcount, -⟩ := List.getElem?_eq_some_iff.mp hline
  exact ⟨hcount, line, hline, by rw [lineAt_append, htrim]⟩

theorem lineAt_exact_crlf :
    let t := " é\r\n\nz\r".toList
    let pre := " é\r".toList
    size pre < size t ∧ size t ≤ 20 ∧
      (∃ line, (lines t)[0]? = some line ∧ lineAt t (size pre) = .ok (1, trim line) ∧
        trim line = ['é']) ∧
      lineAt t 20 = .ok (3, ['z']) ∧ 1 ≤ 3 := by
  intro t pre
  have hinside : size pre < size t := by decide
  have hbehind : size t ≤ 20 := by decide
  obtain ⟨hlines, hend, hmono⟩ := lineAt_exact t
  obtain ⟨-, line, hline, hfirst⟩ := hlines pre ['\n', '\n', 'z', '\r'] rfl hinside
  have hlast := hend 20 hbehind
  have hshown : some (trim line) = some ['é'] := by
    rw [← Option.map_some, ← hline]
    decide
  exact ⟨hinside, hbehind, ⟨line, hline, hfirst, Option.some.inj hshown⟩, hlast,
    hmono (size pre) 20 1 3 _ _ (by decide) hfirst hlast⟩

end SnippetLint.Text
