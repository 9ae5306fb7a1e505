/-
The two ways to name a line agree.

A rule either numbers the lines of a text and looks at each, or it holds an offset and asks for the
line around it.  `lineAt_append` says what the second way yields at any place: one more than the
number of line feeds before it, and what stands between the line feeds on either side.
`exists_mem_numberedLines` says that this is a numbered line whenever a character follows, and the
two texts are the same up to white space: the carriage return that only the first way drops is a
blank, and so is never seen once a line is trimmed.
-/
import Mathlib.Data.List.TakeWhile
import SnippetLint.Proofs.Text.Offset

namespace SnippetLint.Text

/-! ### The line around a place -/

/-- The part of a text before its first line feed. -/
def lineHead (t : Text) : Text := t.takeWhile (· ≠ '\n')

/-- The part of a text behind its last line feed. -/
def lineTail (t : Text) : Text := (t.reverse.takeWhile (· ≠ '\n')).reverse

theorem lineHead_cons (c : Char) (t : Text) :
    lineHead (c :: t) = if c = '\n' then [] else c :: lineHead t := by
  by_cases h : c = '\n' <;> simp [lineHead, h]

theorem newline_notMem_lineTail (t : Text) : '\n' ∉ lineTail t := by
  intro h
  have hne := List.mem_takeWhile_imp (List.mem_reverse.mp h)
  simp at hne

theorem lineTail_eq_self {t : Text} (h : '\n' ∉ t) : lineTail t = t := by
  have hall : t.reverse.takeWhile (· ≠ '\n') = t.reverse := by
    rw [List.takeWhile_eq_self_iff]
    intro c hc
    have : c ≠ '\n' := fun e => h (e ▸ List.mem_reverse.mp hc)
    simpa using this
  rw [lineTail, hall, List.reverse_reverse]

theorem lineTail_append (front : Text) {tail : Text} (h : '\n' ∉ tail) :
    lineTail (front ++ '\n' :: tail) = tail := by
  have hall : ∀ c ∈ tail.reverse, decide (c ≠ '\n') = true := by
    intro c hc
    have : c ≠ '\n' := fun e => h (e ▸ List.mem_reverse.mp hc)
    simpa using this
  rw [lineTail, List.reverse_append, List.reverse_cons, List.append_assoc,
    List.takeWhile_append_of_pos hall]
  simp

theorem lineTail_append_of_notMem (front : Text) {line : Text} (h : '\n' ∉ line) :
    lineTail (front ++ line) = lineTail front ++ line := by
  rw [lineTail, List.reverse_append, List.takeWhile_append_of_pos, List.reverse_append,
    List.reverse_reverse, lineTail]
  intro c hc
  exact decide_eq_true fun heq : c = '\n' => h (heq ▸ List.mem_reverse.mp hc)

/-- A text with a line feed has a last one. -/
theorem exists_last_newline {t : Text} (h : '\n' ∈ t) :
    ∃ front tail, t = front ++ '\n' :: tail ∧ '\n' ∉ tail := by
  obtain ⟨tail, front, hrev, htail⟩ := List.eq_append_cons_of_mem (List.mem_reverse.mpr h)
  refine ⟨front.reverse, tail.reverse, ?_, by simpa using htail⟩
  have := congrArg List.reverse hrev
  simpa using this

theorem lineTail_of_start {pre line : Text} (hpre : ∀ c, pre.getLast? = some c → c = '\n')
    (hline : '\n' ∉ line) : lineTail (pre ++ line) = line := by
  rcases List.eq_nil_or_concat pre with rfl | ⟨front, c, rfl⟩
  · exact lineTail_eq_self hline
  · rw [List.concat_eq_append] at hpre ⊢
    obtain rfl : c = '\n' := hpre c List.getLast?_concat
    rw [List.append_assoc]
    exact lineTail_append front hline

theorem exists_lineTail (t : Text) :
    ∃ front, t = front ++ lineTail t ∧ lastLineStart t = size front := by
  by_cases h : '\n' ∈ t
  · obtain ⟨front, tail, rfl, htail⟩ := exists_last_newline h
    refine ⟨front ++ ['\n'], by simp [lineTail_append front htail], ?_⟩
    rw [lastLineStart, findLast?_newline_of_notMem front htail]
    simp
    rfl
  · refine ⟨[], by simp [lineTail_eq_self h], ?_⟩
    rw [lastLineStart, findLast?_newline_eq_none h]
    rfl

theorem lineHead_eq_self {t : Text} (h : '\n' ∉ t) : lineHead t = t := by
  rw [lineHead, List.takeWhile_eq_self_iff]
  intro c hc
  have : c ≠ '\n' := fun e => h (e ▸ hc)
  simpa using this

theorem lineHead_append {head : Text} (h : '\n' ∉ head) (rest : Text) :
    lineHead (head ++ '\n' :: rest) = head := by
  have hall : ∀ c ∈ head, decide (c ≠ '\n') = true := by
    intro c hc
    have : c ≠ '\n' := fun e => h (e ▸ hc)
    simpa using this
  rw [lineHead, List.takeWhile_append_of_pos hall]
  simp

theorem lineHead_append_of_notMem {line : Text} (hline : '\n' ∉ line) (post : Text) :
    lineHead (line ++ post) = line ++ lineHead post := by
  refine List.takeWhile_append_of_pos fun c hc => ?_
  exact decide_eq_true fun heq => hline (heq ▸ hc)

theorem newline_notMem_lineHead (t : Text) : '\n' ∉ lineHead t := by
  intro hmem
  have htrue := List.all_eq_true.mp List.all_takeWhile _ hmem
  simp at htrue

theorem exists_lineHead (t : Text) :
    ∃ rest, t = lineHead t ++ rest ∧ firstLineStop t = size (lineHead t) := by
  by_cases h : '\n' ∈ t
  · obtain ⟨head, rest, rfl, hhead⟩ := List.eq_append_cons_of_mem h
    have hline := lineHead_append hhead rest
    refine ⟨'\n' :: rest, by rw [hline], ?_⟩
    rw [firstLineStop, find?_newline_of_notMem rest hhead, hline]
    rfl
  · have hline := lineHead_eq_self h
    refine ⟨[], by simp [hline], ?_⟩
    rw [firstLineStop, find?_newline_eq_none h, hline]
    rfl

/-- **At a place of a text `lineAt` succeeds,** and yields the line around that place. -/
theorem lineAt_append (pre post : Text) :
    lineAt (pre ++ post) (size pre)
      = .ok (pre.count '\n' + 1, trim (lineTail pre ++ lineHead post)) := by
  obtain ⟨front, hfront, hstart⟩ := exists_lineTail pre
  obtain ⟨rest, hrest, hstop⟩ := exists_lineHead post
  have hmin : min (size pre) (size (pre ++ post)) = size pre := by simp
  have hsplit : pre ++ post = front ++ (lineTail pre ++ lineHead post) ++ rest :=
    calc pre ++ post
        = (front ++ lineTail pre) ++ (lineHead post ++ rest) := by rw [← hfront, ← hrest]
      _ = front ++ (lineTail pre ++ lineHead post) ++ rest := by simp
  have hend : size pre + size (lineHead post)
      = size front + size (lineTail pre ++ lineHead post) :=
    calc size pre + size (lineHead post)
        = size (front ++ lineTail pre) + size (lineHead post) := by rw [← hfront]
      _ = size front + size (lineTail pre ++ lineHead post) := by simp [Nat.add_assoc]
  have hslice : slice (pre ++ post) (size front) (size pre + size (lineHead post))
      = .ok (lineTail pre ++ lineHead post) := by
    rw [hsplit, hend]
    exact slice_size front _ rest
  simp only [lineAt, hmin, before_size, after_size, hstart, hstop, hslice, bind, Except.bind]
  rfl

/-! ### White space at the end of a line -/

theorem exists_trimStart (t : Text) : ∃ blanks, t = blanks ++ trimStart t :=
  ⟨t.takeWhile Unicode.isBlank, (List.takeWhile_append_dropWhile).symm⟩

theorem exists_trimEnd (t : Text) : ∃ blanks, t = trimEnd t ++ blanks := by
  refine ⟨(t.reverse.takeWhile Unicode.isBlank).reverse, ?_⟩
  rw [trimEnd, ← List.reverse_append, List.takeWhile_append_dropWhile, List.reverse_reverse]

/-- What stands between the white space of a text begins with its first character that is no blank. -/
theorem exists_trim {t : Text} (h : trim t ≠ []) :
    ∃ lead c more trail, t = lead ++ c :: (more ++ trail) ∧ trim t = c :: more ∧
      (∀ d ∈ lead, Unicode.isBlank d = true) ∧ Unicode.isBlank c = false := by
  obtain ⟨trail, htrail⟩ := exists_trimEnd (trimStart t)
  obtain ⟨c, more, hc⟩ := List.exists_cons_of_ne_nil h
  rw [← trim, hc, List.cons_append] at htrail
  have hhead := List.head?_dropWhile_not Unicode.isBlank t
  rw [← trimStart, htrail] at hhead
  have hblank : Unicode.isBlank c = false := by simpa using hhead
  refine ⟨t.takeWhile Unicode.isBlank, c, more, trail, ?_, hc,
    List.all_eq_true.mp List.all_takeWhile, hblank⟩
  rw [← htrail]
  exact List.takeWhile_append_dropWhile.symm

theorem trimEnd_append_blanks (t : Text) {s : Text} (h : ∀ c ∈ s, Unicode.isBlank c = true) :
    trimEnd (t ++ s) = trimEnd t := by
  have hrev : ∀ c ∈ s.reverse, Unicode.isBlank c = true :=
    fun c hc => h c (List.mem_reverse.mp hc)
  rw [trimEnd, trimEnd, List.reverse_append, List.dropWhile_append_of_pos hrev]

theorem mem_of_mem_trim {t : Text} {c : Char} (h : c ∈ trim t) : c ∈ t := by
  have hend := (List.dropWhile_sublist _).subset (List.mem_reverse.mp h)
  exact (List.dropWhile_sublist _).subset (List.mem_reverse.mp hend)

theorem trim_append_blanks (t : Text) {s : Text} (h : ∀ c ∈ s, Unicode.isBlank c = true) :
    trim (t ++ s) = trim t := by
  induction t with
  | nil =>
      have : trimStart s = [] := List.dropWhile_eq_nil_iff.mpr h
      simp only [List.nil_append, trim, this]
      rfl
  | cons c rest ih =>
      by_cases hc : Unicode.isBlank c = true
      · simpa [trim, trimStart, hc] using ih
      · have hdrop : ∀ u : Text, trimStart (c :: u) = c :: u := by
          intro u
          simp [trimStart, hc]
        rw [trim, trim, List.cons_append, hdrop, hdrop, ← List.cons_append,
          trimEnd_append_blanks _ h]

/-- Trimming takes away blanks on either side of what neither begins nor ends with a blank. -/
theorem trim_between {lead t trail : Text} (hlead : ∀ c ∈ lead, Unicode.isBlank c = true)
    (htrail : ∀ c ∈ trail, Unicode.isBlank c = true)
    (hfirst : t.head?.any Unicode.isBlank = false)
    (hlast : t.getLast?.any Unicode.isBlank = false) : trim (lead ++ (t ++ trail)) = t := by
  have hstay : ∀ {u : Text}, u.head?.any Unicode.isBlank = false → u.dropWhile Unicode.isBlank = u := by
    intro u hu
    cases u with
    | nil => rfl
    | cons c rest => exact List.dropWhile_cons_of_neg (Bool.eq_false_iff.mp hu)
  have hend : t.reverse.dropWhile Unicode.isBlank = t.reverse :=
    hstay (by rwa [List.head?_reverse])
  rw [← List.append_assoc, trim_append_blanks _ htrail, trim, trimStart,
    List.dropWhile_append_of_pos hlead, hstay hfirst, trimEnd, hend, List.reverse_reverse]

/-- Behind the end of a line, blanks leave only blanks on the last line. -/
theorem isBlank_of_mem_lineTail {pre lead : Text} (hpre : pre.getLast? = some '\n')
    (hlead : ∀ c ∈ lead, Unicode.isBlank c = true) :
    ∀ c ∈ lineTail (pre ++ lead), Unicode.isBlank c = true := by
  by_cases h : '\n' ∈ lead
  · obtain ⟨front, tail, rfl, htail⟩ := exists_last_newline h
    rw [← List.append_assoc, lineTail_append _ htail]
    exact fun c hc => hlead c (List.mem_append_right _ (List.mem_cons_of_mem _ hc))
  · rw [lineTail_of_start (fun c hc => (Option.some.inj (hpre.symm.trans hc)).symm) h]
    exact hlead

theorem isBlank_lineFeed : Unicode.isBlank '\n' = true := rfl

theorem isBlank_carriageReturn : Unicode.isBlank '\r' = true := rfl

/-- Dropping the ending of a line drops white space only. -/
theorem exists_dropLineEnd (line : Text) :
    ∃ s, line = dropLineEnd line ++ s ∧ ∀ c ∈ s, Unicode.isBlank c = true := by
  fun_induction dropLineEnd line with
  | case1 => exact ⟨[], rfl, by simp⟩
  | case2 => exact ⟨['\n'], rfl, by simp [isBlank_lineFeed]⟩
  | case3 => exact ⟨['\r', '\n'], rfl, by simp [isBlank_lineFeed, isBlank_carriageReturn]⟩
  | case4 c rest _ _ ih =>
      obtain ⟨s, hs, hblank⟩ := ih
      exact ⟨s, by rw [List.cons_append, ← hs], hblank⟩

theorem trim_dropLineEnd (line : Text) : trim (dropLineEnd line) = trim line := by
  obtain ⟨s, hs, hblank⟩ := exists_dropLineEnd line
  calc trim (dropLineEnd line)
      = trim (dropLineEnd line ++ s) := (trim_append_blanks _ hblank).symm
    _ = trim line := by rw [← hs]

/-! ### Numbered lines -/

/-- The lines with their endings make up the text. -/
theorem flatten_linesWithEnds (t : Text) : (linesWithEnds t).flatten = t := by
  fun_induction linesWithEnds t with
  | case1 => rfl
  | case2 rest ih => simp [ih]
  | case3 c rest hc h ih => simpa [h] using ih
  | case4 c rest hc line more h ih => simpa [h] using ih

/-- What stands before the first line feed is the first line. -/
theorem linesWithEnds_append {line : Text} (h : '\n' ∉ line) (rest : Text) :
    linesWithEnds (line ++ '\n' :: rest) = (line ++ ['\n']) :: linesWithEnds rest := by
  induction line with
  | nil => simp [linesWithEnds]
  | cons c more ih =>
      rw [List.mem_cons, not_or] at h
      rw [List.cons_append, linesWithEnds, if_neg (Ne.symm h.1), ih h.2]
      rfl

/-- A text is one line, or a line with its ending and the text of the lines behind it. -/
theorem induction_lines {P : Text → Prop} (last : ∀ line, '\n' ∉ line → P line)
    (more : ∀ line rest, '\n' ∉ line → P rest → P (line ++ '\n' :: rest)) (t : Text) : P t := by
  suffices h : ∀ t line, '\n' ∉ line → P (line ++ t) from h t [] List.not_mem_nil
  intro t
  induction t with
  | nil =>
      intro line hline
      rw [List.append_nil]
      exact last line hline
  | cons c rest ih =>
      intro line hline
      by_cases hc : c = '\n'
      · rw [hc]
        exact more line rest hline (ih [] List.not_mem_nil)
      · rw [List.append_cons]
        exact ih (line ++ [c]) (by simp [hline, Ne.symm hc])

theorem linesWithEnds_eq_singleton {line : Text} (h : '\n' ∉ line) (hne : line ≠ []) :
    linesWithEnds line = [line] := by
  induction line with
  | nil => exact absurd rfl hne
  | cons c rest ih =>
      rw [List.mem_cons, not_or] at h
      rw [linesWithEnds, if_neg (Ne.symm h.1)]
      rcases rest with _ | ⟨d, more⟩
      · rfl
      · rw [ih h.2 (List.cons_ne_nil _ _)]

/-- A line holds no line feed but the one that ends it. -/
theorem exists_of_mem_linesWithEnds {t line : Text} (h : line ∈ linesWithEnds t) :
    ∃ body, '\n' ∉ body ∧ (line = body ∨ line = body ++ ['\n']) := by
  fun_induction linesWithEnds t generalizing line with
  | case1 => simp at h
  | case2 rest ih =>
      rcases List.mem_cons.mp h with rfl | h
      · exact ⟨[], List.not_mem_nil, .inr rfl⟩
      · exact ih h
  | case3 c rest hc hrest ih =>
      rw [List.mem_singleton.mp h]
      exact ⟨[c], by simp [Ne.symm hc], .inl rfl⟩
  | case4 c rest hc first more hrest ih =>
      rcases List.mem_cons.mp h with rfl | h
      · obtain ⟨body, hbody, hfirst⟩ := ih (by rw [hrest]; exact List.mem_cons_self)
        refine ⟨c :: body, by simp [Ne.symm hc, hbody], ?_⟩
        rcases hfirst with rfl | rfl
        · exact .inl rfl
        · exact .inr rfl
      · exact ih (by rw [hrest]; exact List.mem_cons_of_mem _ h)

theorem newline_notMem_dropLineEnd {body line : Text} (h : '\n' ∉ body)
    (hline : line = body ∨ line = body ++ ['\n']) : '\n' ∉ dropLineEnd line := by
  fun_induction dropLineEnd line generalizing body with
  | case1 => exact List.not_mem_nil
  | case2 => exact List.not_mem_nil
  | case3 => exact List.not_mem_nil
  | case4 c rest hfeed _ ih =>
      cases body with
      | nil => rcases hline with hline | hline <;> simp_all
      | cons d more =>
          rw [List.mem_cons, not_or] at h
          have hhead : c = d ∧ (rest = more ∨ rest = more ++ ['\n']) := by
            simpa [and_or_left] using hline
          rw [hhead.1, List.mem_cons, not_or]
          exact ⟨h.1, ih h.2 hhead.2⟩

theorem newline_notMem_of_mem_lines {t line : Text} (h : line ∈ lines t) : '\n' ∉ line := by
  obtain ⟨raw, hraw, rfl⟩ := List.mem_map.mp h
  obtain ⟨body, hbody, hline⟩ := exists_of_mem_linesWithEnds hraw
  exact newline_notMem_dropLineEnd hbody hline

theorem newline_notMem_of_mem_numberedLines {t line : Text} {number : Nat}
    (h : (line, number) ∈ numberedLines t) : '\n' ∉ line :=
  newline_notMem_of_mem_lines (List.fst_mem_of_mem_zipIdx h)

/-- The ending of the first line of a text. -/
def firstLineEnd (t : Text) : Text := if '\n' ∈ t then ['\n'] else []

theorem linesWithEnds_cons (c : Char) (t : Text) :
    ∃ more, linesWithEnds (c :: t) = (lineHead (c :: t) ++ firstLineEnd (c :: t)) :: more := by
  induction t generalizing c with
  | nil => by_cases h : c = '\n' <;> simp [linesWithEnds, firstLineEnd, h, Ne.symm, lineHead, eq_comm]
  | cons d rest ih =>
      obtain ⟨more, hmore⟩ := ih d
      by_cases h : c = '\n'
      · exact ⟨linesWithEnds (d :: rest), by simp [linesWithEnds, lineHead_cons, firstLineEnd, h]⟩
      · refine ⟨more, ?_⟩
        have hend : firstLineEnd (c :: d :: rest) = firstLineEnd (d :: rest) := by
          simp [firstLineEnd, Ne.symm h]
        rw [linesWithEnds, if_neg h, hmore, hend, lineHead_cons c, if_neg h]
        rfl

/-- The line of the character at a place stands where the line feeds before the place say. -/
theorem getElem?_linesWithEnds (pre : Text) (c : Char) (post : Text) :
    (linesWithEnds (pre ++ c :: post))[pre.count '\n']?
      = some (lineTail pre ++ lineHead (c :: post) ++ firstLineEnd (c :: post)) := by
  induction pre with
  | nil =>
      obtain ⟨more, hmore⟩ := linesWithEnds_cons c post
      rw [List.nil_append, hmore]
      rfl
  | cons d rest ih =>
      by_cases hd : d = '\n'
      · have htail : lineTail (d :: rest) = lineTail rest := by
          by_cases h : '\n' ∈ rest
          · obtain ⟨front, tail, rfl, hnot⟩ := exists_last_newline h
            rw [← List.cons_append, lineTail_append _ hnot, lineTail_append _ hnot]
          · rw [hd, lineTail_eq_self h]
            exact lineTail_append [] h
        rw [htail, ← ih]
        simp [linesWithEnds, hd]
      · obtain ⟨line, more, hlines⟩ : ∃ line more,
            linesWithEnds (rest ++ c :: post) = line :: more := by
          cases rest with
          | nil =>
              obtain ⟨more, hmore⟩ := linesWithEnds_cons c post
              exact ⟨_, more, hmore⟩
          | cons e rest =>
              obtain ⟨more, hmore⟩ := linesWithEnds_cons e (rest ++ c :: post)
              exact ⟨_, more, hmore⟩
        have hcount : (d :: rest).count '\n' = rest.count '\n' := by simp [hd]
        have hcons : linesWithEnds (d :: rest ++ c :: post) = (d :: line) :: more := by
          rw [List.cons_append, linesWithEnds, if_neg hd, hlines]
        rw [hlines] at ih
        rw [hcount, hcons]
        by_cases h : '\n' ∈ rest
        · obtain ⟨front, tail, rfl, hnot⟩ := exists_last_newline h
          obtain ⟨n, hn⟩ : ∃ n, (front ++ '\n' :: tail).count '\n' = n + 1 :=
            ⟨front.count '\n' + tail.count '\n', by simp [Nat.add_assoc]⟩
          rw [hn] at ih ⊢
          rw [← List.cons_append, lineTail_append _ hnot, ← lineTail_append front hnot]
          simpa using ih
        · have hzero : rest.count '\n' = 0 := List.count_eq_zero.mpr h
          have hmem : '\n' ∉ d :: rest := by simp [h, Ne.symm hd]
          rw [hzero] at ih ⊢
          rw [lineTail_eq_self h] at ih
          rw [lineTail_eq_self hmem]
          simpa using ih

/--
**What stands around a place is a numbered line.**  A character has to follow: behind the last line
feed of a text there is a place, but no line.
-/
theorem exists_mem_numberedLines (pre : Text) (c : Char) (post : Text) :
    ∃ line, (line, pre.count '\n' + 1) ∈ numberedLines (pre ++ c :: post)
      ∧ trim line = trim (lineTail pre ++ lineHead (c :: post)) := by
  have hraw := getElem?_linesWithEnds pre c post
  refine ⟨dropLineEnd (lineTail pre ++ lineHead (c :: post) ++ firstLineEnd (c :: post)), ?_, ?_⟩
  · rw [numberedLines, Nat.add_comm, List.mk_add_mem_zipIdx_iff_getElem?, lines, List.getElem?_map, hraw]
    rfl
  · rw [trim_dropLineEnd]
    refine trim_append_blanks _ ?_
    intro c hc
    unfold firstLineEnd at hc
    split at hc
    · rw [List.mem_singleton.mp hc]
      decide
    · simp at hc

end SnippetLint.Text
