/-
Missing closing tags are found, and found missing only then.

The check goes over a text twice, once for opening and once for closing tags, and never builds a
tree.  On a text that is written from pieces each of the two scans finds just the tags of its kind
(`Sees`, `map_scan_written`): a tag begins with an angle, no other piece holds one, and what follows
the angle tells the two kinds apart.  So what the check counts are the pieces, and of a forest these
are balanced.
-/
import SnippetLint.Proofs.Checked
import SnippetLint.Proofs.Markup
import SnippetLint.Proofs.Pattern.Run
import SnippetLint.Proofs.Repeats
import SnippetLint.Proofs.Rules.Html

namespace SnippetLint.Html

open Pattern

/-! ### Counting -/

theorem mem_unclosed_iff {opened closed : List Text} {key : Text} :
    key ∈ unclosed opened closed ↔ closed.count key < opened.count key := by
  rw [unclosed, List.mem_mergeSort, List.mem_filter, decide_eq_true_eq, and_iff_right_iff_imp]
  intro hlt
  have hmem : key ∈ (firsts (fun name => name) opened).map fun name => name :=
    mem_map_firsts.mpr (by simpa using List.count_pos_iff.mp (Nat.zero_lt_of_lt hlt))
  simpa using hmem

theorem nodup_unclosed (opened closed : List Text) : (unclosed opened closed).Nodup :=
  (List.mergeSort_perm _ _).nodup_iff.mpr ((pairwise_firstsAfter opened []).filter _)

theorem unclosed_eq_nil {opened closed : List Text}
    (h : ∀ key, opened.count key = closed.count key) : unclosed opened closed = [] :=
  List.eq_nil_iff_forall_not_mem.mpr fun key hkey =>
    Nat.lt_irrefl _ (h key ▸ mem_unclosed_iff.mp hkey)

theorem unclosed_eq_singleton {opened closed : List Text} {name : Text}
    (h : ∀ key, opened.count key = closed.count key + [name].count key) :
    unclosed opened closed = [name] := by
  refine List.perm_singleton.mp ((List.perm_ext_iff_of_nodup (nodup_unclosed _ _)
    (List.pairwise_singleton _ _)).mpr fun key => ?_)
  rw [mem_unclosed_iff, h key, Nat.lt_add_right_iff_pos, List.count_pos_iff]

/-! ### Tags in a text -/

/-- The patterns know the characters of names as such. -/
theorem joins_of_mem_more {name : TagName} {c : Char} (h : c ∈ name.more) :
    union word (among "-") c = true := by
  rcases TagName.cases_of_mem_more h with hlatin | hdigit | rfl
  · exact Bool.or_eq_true_iff.mpr (.inl (Unicode.isWord_of_latin hlatin))
  · exact Bool.or_eq_true_iff.mpr (.inl (Unicode.isWord_of_isDigit c (Unicode.isDigit_of_ascii hdigit)))
  · decide

section

variable {α : Type} {a b : Cursor} {g : Groups} {k : Cursor → Groups → Option α}

theorem run_tagName {name : TagName} (hpass : a.Passes name.text b)
    (hstop : b.ahead.head?.any (union word (among "-")) = false) (hk : (k b g).isSome = true) :
    run tagName a g k = k b g := by
  have hahead : a.ahead = name.first :: (name.more ++ b.ahead) := hpass.ahead
  have hfirst := Cursor.passes_step hahead
  have hrun : run tagName a g k =
      run (one latin) a g fun next g => run (many (union word (among "-"))) next g k := rfl
  rw [hrun, run_one name.latin_first hfirst]
  exact run_many (fun _ => joins_of_mem_more) (hpass.step hahead) hstop hk

end

/-- What a tag's name may be followed by. -/
theorem stops_name {ahead : Text} {c : Char} (hc : c ∈ [' ', '/', '>']) (h : ahead.head? = some c) :
    ahead.head?.any (union word (among "-")) = false := by
  have hall : [' ', '/', '>'].all (fun c => !union word (among "-") c) = true := by decide
  rw [h]
  simpa using List.all_eq_true.mp hall c hc

section

variable {here : Cursor} {name : TagName} {attributes : List Attribute} {ending : Ending}
  {rest : Text}

/-- An opening tag is matched as a whole, if what stands in it behind its name does not go on with
the name. -/
theorem matchAt_openingTag_of_inside {inside : Text}
    (h : here.ahead = '<' :: (name.text ++ (inside ++ '>' :: rest))) (hinside : '>' ∉ inside)
    (hstop : (inside ++ '>' :: rest).head?.any (union word (among "-")) = false) :
    ∃ m, matchAt openingTag here = some m ∧
      m.whole = ⟨here.offset, '<' :: (name.text ++ (inside ++ ['>']))⟩ ∧
      m.group? 1 = some ⟨here.offset + '<'.utf8Size, name.text⟩ ∧
      m.group? 2 = some ⟨here.offset + Text.size ('<' :: name.text), inside⟩ := by
  have hsplit : here.ahead = ['<'] ++ (name.text ++ (inside ++ (['>'] ++ rest))) := h
  obtain ⟨a, hangle, ha⟩ := Cursor.exists_passes hsplit
  obtain ⟨b, hname, hb⟩ := Cursor.exists_passes ha
  obtain ⟨c, hrest, hc⟩ := Cursor.exists_passes hb
  obtain ⟨d, hend, -⟩ := Cursor.exists_passes hc
  -- each step of the match is given what follows it, so the last one comes first
  have hlast : run (exactly ['>']) c [(2, b, c), (1, a, b)]
      (fun d g => some (Found.between here d g)) =
        some (Found.between here d [(2, b, c), (1, a, b)]) := run_exactly hend
  have hmany : run (many (except ">")) b [(1, a, b)] (fun c g => run (exactly ['>']) c
      ((2, b, c) :: g) fun d g => some (Found.between here d g)) =
        some (Found.between here d [(2, b, c), (1, a, b)]) := by
    refine (run_many (fun e he => ?_) hrest ?_ ?_).trans hlast
    · have hne : e ≠ '>' := fun heq => hinside (heq ▸ he)
      simpa [except] using hne
    · rw [hc]
      rfl
    · rw [hlast]
      rfl
  have hrun : matchAt openingTag here =
      run (exactly ['<']) here [] fun a g => run tagName a g fun b g =>
        run (many (except ">")) b ((1, a, b) :: g) fun c g' =>
          run (exactly ['>']) c ((2, b, c) :: g') fun d g => some (Found.between here d g) := rfl
  have hmatch : matchAt openingTag here =
      some (Found.between here d [(2, b, c), (1, a, b)]) := by
    rw [hrun, run_exactly hangle]
    refine (run_tagName hname (hb ▸ hstop) ?_).trans hmany
    exact Option.isSome_iff_exists.mpr ⟨_, hmany⟩
  have hwhole : here.Passes ('<' :: (name.text ++ (inside ++ ['>']))) d :=
    hangle.trans (hname.trans (hrest.trans hend))
  refine ⟨_, hmatch, Span.between_eq hwhole, ?_, ?_⟩
  · show some (Span.between a b) = _
    rw [Span.between_eq hname, hangle.offset]
    rfl
  · show some (Span.between b c) = _
    rw [Span.between_eq hrest, (hangle.trans hname).offset]
    rfl

theorem matchAt_openingTag (h : here.ahead = (Tag.opening name attributes ending).text ++ rest) :
    ∃ m, matchAt openingTag here = some m ∧
      m.whole = ⟨here.offset, (Tag.opening name attributes ending).text⟩ ∧
      m.textOf 1 = name.text ∧ m.textOf 2 = tagRest attributes ending := by
  have hsplit : here.ahead =
      '<' :: (name.text ++ (tagRest attributes ending ++ '>' :: rest)) := by
    rw [h]
    simp [Tag.text]
  obtain ⟨e, he, hhead⟩ := head?_tagRest attributes ending rest
  obtain ⟨m, hmatch, hwhole, hname, hrest⟩ := matchAt_openingTag_of_inside hsplit
    (fun hmem => (ne_of_mem_tagRest hmem).2 rfl) (stops_name he hhead)
  refine ⟨m, hmatch, hwhole, ?_, ?_⟩
  · rw [Found.textOf, hname]
    rfl
  · rw [Found.textOf, hrest]
    rfl

theorem matchAt_closingTag (h : here.ahead = (Tag.closing name).text ++ rest) :
    ∃ m, matchAt closingTag here = some m ∧
      m.whole = ⟨here.offset, (Tag.closing name).text⟩ ∧ m.textOf 1 = name.text := by
  have hsplit : here.ahead = ['<', '/'] ++ (name.text ++ ([] ++ (['>'] ++ rest))) := by
    rw [h]
    simp [Tag.text]
  obtain ⟨a, hangle, ha⟩ := Cursor.exists_passes hsplit
  obtain ⟨b, hname, hb⟩ := Cursor.exists_passes ha
  obtain ⟨c, hblanks, hc⟩ := Cursor.exists_passes hb
  obtain ⟨d, hend, -⟩ := Cursor.exists_passes hc
  have hlast : run (exactly ['>']) c [(1, a, b)] (fun d g => some (Found.between here d g)) =
      some (Found.between here d [(1, a, b)]) := run_exactly hend
  have hmany : run (many blank) b [(1, a, b)] (fun c g => run (exactly ['>']) c g
      fun d g => some (Found.between here d g)) = some (Found.between here d [(1, a, b)]) := by
    refine (run_many (fun e he => absurd he List.not_mem_nil) hblanks ?_ ?_).trans hlast
    · rw [hc]
      rfl
    · rw [hlast]
      rfl
  have hrun : matchAt closingTag here =
      run (exactly ['<', '/']) here [] fun a g => run tagName a g fun b g =>
        run (many blank) b ((1, a, b) :: g) fun c g =>
          run (exactly ['>']) c g fun d g => some (Found.between here d g) := rfl
  have hmatch : matchAt closingTag here = some (Found.between here d [(1, a, b)]) := by
    rw [hrun, run_exactly hangle]
    have hhead : b.ahead.head? = some '>' := by
      rw [hb]
      rfl
    refine (run_tagName hname (stops_name (by decide) hhead) ?_).trans hmany
    exact Option.isSome_iff_exists.mpr ⟨_, hmany⟩
  have hwhole : here.Passes (Tag.closing name).text d :=
    hangle.trans (hname.trans (hblanks.trans hend))
  refine ⟨_, hmatch, Span.between_eq hwhole, ?_⟩
  exact congrArg Span.text (Span.between_eq hname)

theorem matchAt_openingTag_eq_none (h : ∀ rest, here.ahead = '<' :: rest → rest.head?.any latin = false) :
    matchAt openingTag here = none := by
  have hrun : matchAt openingTag here =
      run (exactly ['<']) here [] fun a g => run (one latin) a g fun b g =>
        run (many (union word (among "-"))) b g fun b g =>
          run (many (except ">")) b ((1, a, b) :: g) fun c g' =>
            run (exactly ['>']) c ((2, b, c) :: g') fun d g => some (Found.between here d g) := rfl
  rw [hrun]
  by_cases hbegins : ['<'] <+: here.ahead
  · obtain ⟨rest, hrest⟩ := hbegins
    obtain ⟨a, hangle, ha⟩ := Cursor.exists_passes hrest.symm
    rw [run_exactly hangle, run_one_eq_none (ha ▸ h rest hrest.symm)]
  · exact run_exactly_eq_none hbegins

theorem matchAt_closingTag_eq_none (h : ¬ ['<', '/'] <+: here.ahead) :
    matchAt closingTag here = none := run_exactly_eq_none h

end

/-! ### Scans of written texts -/

/-- Of a written text a pattern finds the tags that are seen, and they are read as they are seen. -/
structure Sees {α : Type} (p : Pattern) (reading : Found → α) (see : Tag → Option α) : Prop where
  consumes : p.consumes = true
  angle : ∀ here : Cursor, here.ahead.head? ≠ some '<' → matchAt p here = none
  unseen : ∀ {tag rest} {here : Cursor}, see tag = none → here.ahead = tag.text ++ rest →
    matchAt p here = none
  seen : ∀ {tag a rest} {here : Cursor}, see tag = some a → here.ahead = tag.text ++ rest →
    ∃ m, matchAt p here = some m ∧ m.whole = ⟨here.offset, tag.text⟩ ∧ reading m = a

theorem sees_openingTag :
    Sees openingTag (fun m => awaitedName? (m.textOf 1) (m.textOf 2)) Tag.opens? where
  consumes := by decide
  angle here hhead := matchAt_openingTag_eq_none fun rest hrest => absurd (hrest ▸ rfl) hhead
  unseen {tag rest here} hnone h := by
    cases tag with
    | opening name attributes ending => cases hnone
    | closing name =>
        refine matchAt_openingTag_eq_none fun rest' hrest => ?_
        rw [h] at hrest
        rw [← (List.cons.inj hrest).2]
        rfl
  seen {tag a rest here} hsome h := by
    cases tag with
    | opening name attributes ending =>
        obtain ⟨m, hm, hwhole, hname, hrest⟩ := matchAt_openingTag h
        refine ⟨m, hm, hwhole, ?_⟩
        rw [hname, hrest]
        exact Option.some.inj hsome
    | closing name => cases hsome

theorem sees_closingTag : Sees closingTag (fun m => lowered (m.textOf 1)) Tag.closes? where
  consumes := by decide
  angle here hhead := matchAt_closingTag_eq_none fun hbegins => by
    obtain ⟨rest, hrest⟩ := hbegins
    exact hhead (hrest ▸ rfl)
  unseen {tag rest here} hnone h := by
    cases tag with
    | opening name attributes ending =>
        refine matchAt_closingTag_eq_none fun hbegins => ?_
        rw [h] at hbegins
        have hfirst : '/' = name.first :=
          (List.cons_prefix_cons.mp (List.cons_prefix_cons.mp hbegins).2).1
        exact absurd name.latin_first (hfirst ▸ by decide)
    | closing name => cases hnone
  seen {tag a rest here} hsome h := by
    cases tag with
    | opening name attributes ending => cases hsome
    | closing name =>
        obtain ⟨m, hm, hwhole, hname⟩ := matchAt_closingTag h
        refine ⟨m, hm, hwhole, ?_⟩
        rw [hname]
        exact Option.some.inj hsome

section

variable {α : Type} {p : Pattern} {reading : Found → α} {see : Tag → Option α}
  {before : Option Char} {offset : Nat} {last : Option Nat} {rest : Text}

theorem Sees.none_of_suffix (h : Sees p reading see) {w v : Text} (hw : '<' ∉ w)
    (hv : v <:+ w) (hne : v ≠ []) {here : Cursor} (hahead : here.ahead = v ++ rest) :
    matchAt p here = none := by
  refine h.angle here fun hhead => hw ?_
  obtain ⟨c, more, rfl⟩ := List.exists_cons_of_ne_nil hne
  rw [hahead, List.cons_append, List.head?_cons] at hhead
  exact hv.subset (Option.some.inj hhead ▸ List.mem_cons_self)

theorem Sees.scan_plain (h : Sees p reading see) {w : Text} (hw : '<' ∉ w) :
    scan p before offset (w ++ rest) last =
      scan p (w.getLast?.or before) (offset + Text.size w) rest last :=
  scan_append_of_none (fun _ hv hne _ => h.none_of_suffix hw hv hne) last

theorem Sees.scan_unseen (h : Sees p reading see) {tag : Tag} (hsee : see tag = none) :
    scan p before offset (tag.text ++ rest) last =
      scan p (tag.text.getLast?.or before) (offset + Text.size tag.text) rest last := by
  obtain ⟨body, hbody, hangle⟩ := tag.exists_body
  refine scan_append_of_none (fun v hv hne here hahead => ?_) last
  rw [hbody, List.suffix_cons_iff, ← hbody] at hv
  rcases hv with rfl | hv
  · exact h.unseen hsee hahead
  · exact h.none_of_suffix hangle hv hne hahead

theorem Sees.scan_seen (h : Sees p reading see) {tag : Tag} {a : α} (hsee : see tag = some a)
    (hlast : last.any (offset < ·) = false) :
    ∃ m next, reading m = a ∧ scan p before offset (tag.text ++ rest) last =
      m :: scan p next (offset + Text.size tag.text) rest (some (offset + Text.size tag.text)) := by
  obtain ⟨body, hbody, hangle⟩ := tag.exists_body
  let here : Cursor := ⟨before, offset, tag.text ++ rest⟩
  have htag : here.ahead = tag.text ++ rest := rfl
  have hahead : here.ahead = '<' :: (body ++ rest) := congrArg (· ++ rest) hbody
  obtain ⟨m, hm, hwhole, hread⟩ := h.seen hsee htag
  have hstop : m.whole.stop = offset + Text.size tag.text := by
    rw [hwhole]
    rfl
  have hsize : offset + '<'.utf8Size + Text.size body = offset + Text.size tag.text := by
    rw [hbody, Text.size_cons, Nat.add_assoc]
  have hbehind : scan p (some '<') (offset + '<'.utf8Size) (body ++ rest) (some m.whole.stop) =
      scan p (body.getLast?.or (some '<')) (offset + Text.size tag.text) rest
        (some (offset + Text.size tag.text)) := by
    rw [h.scan_plain hangle, hsize, hstop]
  have hlast : ¬ last.any (here.offset < ·) = true := by
    rw [hlast]
    exact Bool.false_ne_true
  exact ⟨m, _, hread, (scan_some h.consumes hahead hlast hm).trans (congrArg (m :: ·) hbehind)⟩

/-- The induction is on the pieces; at the front of each the last match has stopped. -/
theorem map_scan_written (h : Sees p reading see) (pieces : List Piece)
    (hlast : last.any (offset < ·) = false) :
    (scan p before offset (written pieces) last).map reading = pieces.filterMap (Piece.read? see) := by
  induction pieces generalizing before offset last with
  | nil =>
      have hnil := scan_nil (a := ⟨before, offset, []⟩) h.consumes rfl last
      exact congrArg (List.map reading) hnil
  | cons piece rest ih =>
      have hlater : ∀ n, last.any (offset + n < ·) = false := by
        intro n
        cases last with
        | none => rfl
        | some stop =>
            have hle : stop ≤ offset := by simpa using hlast
            simpa using Nat.le_add_right_of_le hle
      have hwritten : written (piece :: rest) = piece.text ++ written rest := rfl
      rw [hwritten]
      rcases piece with ⟨text, noAngle⟩ | tag
      · exact (congrArg (List.map reading) (h.scan_plain noAngle)).trans (ih (hlater _))
      · cases hsee : see tag with
        | none =>
            have hread : Piece.read? see (.tag tag) = none := hsee
            rw [List.filterMap_cons_none hread]
            exact (congrArg (List.map reading) (h.scan_unseen hsee)).trans (ih (hlater _))
        | some a =>
            have hread : Piece.read? see (.tag tag) = some a := hsee
            obtain ⟨m, next, hm, hscan⟩ := h.scan_seen hsee hlast
            have hstopped : (some (offset + Text.size tag.text)).any
                (offset + Text.size tag.text < ·) = false := by simp
            rw [List.filterMap_cons_some hread, ← hm, ← ih hstopped]
            exact congrArg (List.map reading) hscan

/-- All of a written text is read off its tags. -/
theorem map_findAll_written (h : Sees p reading see) (pieces : List Piece) :
    (p.findAll (written pieces)).map reading = pieces.filterMap (Piece.read? see) :=
  map_scan_written h pieces rfl

end

/-! ### The check -/

/-- What the check says about the elements that are not closed. -/
def reportUnclosed (names : List Text) : List Finding :=
  if names = [] then [] else
    [.general ("Missing closing tags for the following elements: "
      ++ Text.join ", " (names.map fun name => "<" ++ String.ofList name ++ ">"))]

theorem ifPresent_unclosed (names : List Text) :
    Finding.ifPresent (!(names.map fun name => "<" ++ String.ofList name ++ ">").isEmpty)
      ("Missing closing tags for the following elements: "
        ++ Text.join ", " (names.map fun name => "<" ++ String.ofList name ++ ">")) =
      .ok (reportUnclosed names) := by
  cases names <;> rfl

theorem nameOf_eq {p : Pattern} (hp : binds 1 p = true) {t : Text} {m : Found}
    (h : m ∈ p.findAll t) : nameOf m = .ok (lowered (m.textOf 1)) := by
  obtain ⟨name, hname, hok⟩ := (finds_of_mem_findAll h).exists_group (i := 0) hp
  rw [nameOf, hok, Found.textOf, hname]
  rfl

theorem needsClosing_eq {t : Text} {m : Found} (h : m ∈ openingTag.findAll t) :
    needsClosing m = .ok (awaitedName? (m.textOf 1) (m.textOf 2)).isSome := by
  obtain ⟨rest, hrest, hok⟩ := (finds_of_mem_findAll h).exists_group (i := 1) (by decide)
  have htext : m.textOf 2 = rest.text := by
    rw [Found.textOf, hrest]
    rfl
  rw [needsClosing, nameOf_eq (by decide) h, hok, htext, awaitedName?]
  refine congrArg Except.ok ?_
  split
  · rename_i hnone
    rw [hnone]
    rfl
  · rename_i hsome
    rw [Bool.not_eq_true] at hsome
    rw [hsome]
    rfl

theorem awaitedName?_eq_some {name rest key : Text} (h : awaitedName? name rest = some key) :
    lowered name = key := by
  unfold awaitedName? at h
  split at h
  · simp at h
  · exact Option.some.inj h

theorem filterMap_filter_isSome {α β : Type} (f : α → Option β) (l : List α) :
    (l.filter fun a => (f a).isSome).filterMap f = l.filterMap f := by
  rw [List.filterMap_filter]
  refine List.filterMap_congr fun a _ => ?_
  cases f a <;> rfl

/-- What the check says depends on the names that its two scans read. -/
theorem closingTags_eq (t : Text) :
    closingTags t = .ok (reportUnclosed (unclosed
      ((openingTag.findAll t).filterMap fun m => awaitedName? (m.textOf 1) (m.textOf 2))
      ((closingTag.findAll t).map fun m => lowered (m.textOf 1)))) := by
  let asks (m : Found) : Bool := (awaitedName? (m.textOf 1) (m.textOf 2)).isSome
  have hasks : (openingTag.findAll t).filterM needsClosing =
      .ok ((openingTag.findAll t).filter asks) := filterM_eq_ok fun _ hm => needsClosing_eq hm
  have hopened : ((openingTag.findAll t).filter asks).mapM nameOf =
      .ok (((openingTag.findAll t).filter asks).map fun m => lowered (m.textOf 1)) :=
    mapM_eq_ok fun _ hm => nameOf_eq (by decide) (List.mem_filter.mp hm).1
  have hclosed : (closingTag.findAll t).mapM nameOf =
      .ok ((closingTag.findAll t).map fun m => lowered (m.textOf 1)) :=
    mapM_eq_ok fun _ hm => nameOf_eq (by decide) hm
  have hnames : ((openingTag.findAll t).filter asks).map (fun m => lowered (m.textOf 1)) =
      (openingTag.findAll t).filterMap fun m => awaitedName? (m.textOf 1) (m.textOf 2) := by
    rw [← filterMap_filter_isSome]
    refine (List.filterMap_eq_map_iff_forall_eq_some.mpr fun m hm => ?_).symm
    obtain ⟨key, hkey⟩ := Option.isSome_iff_exists.mp (List.mem_filter.mp hm).2
    rw [hkey, awaitedName?_eq_some hkey]
  have hsteps : closingTags t = .ok (reportUnclosed (unclosed
      (((openingTag.findAll t).filter asks).map fun m => lowered (m.textOf 1))
      ((closingTag.findAll t).map fun m => lowered (m.textOf 1)))) := by
    rw [closingTags, hasks]
    simp only [bind, Except.bind, hopened, hclosed]
    exact ifPresent_unclosed _
  rw [hsteps, hnames]

theorem closingTags_written (pieces : List Piece) :
    closingTags (written pieces) = .ok (reportUnclosed (unclosed
      (pieces.filterMap Piece.awaited?) (pieces.filterMap Piece.closed?))) := by
  have hopened := congrArg (List.filterMap id) (map_findAll_written sees_openingTag pieces)
  rw [List.filterMap_map, List.filterMap_filterMap] at hopened
  have hawaited : (fun piece => (Piece.read? Tag.opens? piece).bind id) = Piece.awaited? := rfl
  rw [closingTags_eq, map_findAll_written sees_closingTag, ← hawaited, ← hopened]
  rfl

/--
**A forest is reported if a closing tag is missing, and only then.**  Written in full it is accepted,
and without any one of its closing tags just the element of that tag is named.
-/
theorem closingTags_exact (f : Forest) :
    closingTags f.text = .ok [] ∧
      ∀ before name after, f.pieces = before ++ .tag (.closing name) :: after →
        closingTags (written (before ++ after)) =
          .ok [.general ("Missing closing tags for the following elements: <"
            ++ String.ofList (lowered name.text) ++ ">")] := by
  constructor
  · rw [Forest.text, closingTags_written, unclosed_eq_nil (count_awaited_pieces f)]
    rfl
  · intro before name after h
    rw [closingTags_written, unclosed_eq_singleton (count_awaited_without h), reportUnclosed,
      if_neg (List.cons_ne_nil _ _), List.map_singleton, Text.join, String.intercalate_singleton,
      ← String.append_assoc, ← String.append_assoc]
    rfl

def itemCloser : TagName := ⟨'L', ['i'], rfl, rfl⟩

/-- A list with one item, whose tags do not agree in letter case. -/
def listForest : Forest :=
  .element ⟨'U', ['L'], rfl, rfl⟩ (by decide) [⟨"id".toList, "a/".toList, rfl, rfl⟩]
    ⟨'u', ['l'], rfl, rfl⟩ rfl
    (.element ⟨'l', ['i'], rfl, rfl⟩ (by decide) [] itemCloser rfl
      (.plain "x > y".toList (by decide)
        (.void ⟨'b', ['r'], rfl, rfl⟩ (by decide) [] .slash .empty))
      .empty)
    .empty

theorem closingTags_exact_list_item :
    listForest.text = "<UL id=\"a/\"><li>x > y<br/></Li></ul>".toList ∧
      listForest.pieces =
        listForest.pieces.take 4 ++ .tag (.closing itemCloser) :: listForest.pieces.drop 5 ∧
      closingTags "<UL id=\"a/\"><li>x > y<br/></ul>".toList =
        .ok [.general "Missing closing tags for the following elements: <li>"] :=
  ⟨by decide, rfl, (closingTags_exact listForest).2 (listForest.pieces.take 4) itemCloser
    (listForest.pieces.drop 5) rfl⟩

end SnippetLint.Html
