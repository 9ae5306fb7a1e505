/-
A search finds a match wherever there is one.

`exists_matches_of_run` says that whatever a run accepts, a match led there.  This is the other
direction: a run tries every way to match, so if there is a match that the continuation accepts, the
run accepts some match, although not necessarily that one.  Only `repeated` needs an argument.  The
number of its rounds is limited by the length of what lies ahead, and since a round counts only if it
takes up text, what lies ahead gets shorter by at least as much as the limit.

Together the two directions say what `occursIn` decides.  What a pattern sees of a text beyond its
own match is the character before and the one behind, so a pattern that does not ask for the edges
of the text still matches after lines have been added: it sees a line feed where it saw an edge, and
a line feed is no word character and ends a line like an edge does.
-/
import SnippetLint.Proofs.Pattern.Extent
import SnippetLint.Proofs.Pattern.Run
import SnippetLint.Proofs.Unicode.Word

namespace SnippetLint

namespace Cursor

/-- A place that lies behind another has less ahead of it. -/
theorem Passes.length_lt {s : Text} {a b : Cursor} (h : a.Passes s b)
    (hlt : a.offset < b.offset) : b.ahead.length < a.ahead.length := by
  have hne : s ≠ [] := by
    rintro rfl
    rw [h.eq_of_nil] at hlt
    exact Nat.lt_irrefl _ hlt
  have hpos : 0 < s.length := List.length_pos_iff.mpr hne
  rw [h.ahead, List.length_append]
  omega

/-! ### Lines around a text -/

/-- The same place of a text after some lines have been put before and behind it. -/
def within (pre post : Text) (here : Cursor) : Cursor :=
  ⟨here.before.or pre.getLast?, Text.size pre + here.offset, here.ahead ++ post⟩

theorem within_step (pre post : Text) (here : Cursor) (c : Char) (rest : Text) :
    (here.step c rest).within pre post = (here.within pre post).step c (rest ++ post) := by
  simp [within, step, Nat.add_assoc]

theorem Passes.within {s : Text} {a b : Cursor} (h : a.Passes s b) (pre post : Text) :
    (a.within pre post).Passes s (b.within pre post) where
  ahead := by rw [Cursor.within, Cursor.within, h.ahead, List.append_assoc]
  offset := by rw [Cursor.within, Cursor.within, h.offset, Nat.add_assoc]
  before := by rw [Cursor.within, Cursor.within, h.before, Option.or_assoc]

theorem passes_within_start (pre t post : Text) :
    (start (pre ++ t ++ post)).Passes pre ((start t).within pre post) where
  ahead := by simp [start, within]
  offset := by simp [start, within]
  before := by simp [start, within]

end Cursor

namespace Pattern

/-! ### Runs try every match -/

section

variable {α : Type}

theorem isSome_passMany {f : Char → Bool} {k : Cursor → Option α} {s : Text} {a b : Cursor}
    (h : a.Passes s b) (hs : ∀ c ∈ s, f c = true) (hk : (k b).isSome = true) :
    (passMany f k a.before a.offset a.ahead).isSome = true := by
  induction s generalizing a with
  | nil =>
      obtain rfl := h.eq_of_nil
      obtain ⟨before, offset, ahead⟩ := b
      cases ahead with
      | nil => exact hk
      | cons c rest =>
          unfold passMany
          split
          · split
            · rfl
            · exact hk
          · exact hk
  | cons c rest ih =>
      have hahead : a.ahead = c :: (rest ++ b.ahead) := h.ahead
      have hlater := ih (h.step hahead) fun d hd => hs d (List.mem_cons_of_mem c hd)
      obtain ⟨found, hfound⟩ := Option.isSome_iff_exists.mp hlater
      rw [hahead, passMany, if_pos (hs c List.mem_cons_self)]
      simp only [Cursor.step] at hfound
      rw [hfound]
      rfl

theorem isSome_passFew {f : Char → Bool} {k : Cursor → Option α} {s : Text} {a b : Cursor}
    (h : a.Passes s b) (hs : ∀ c ∈ s, f c = true) (hk : (k b).isSome = true) :
    (passFew f k a.before a.offset a.ahead).isSome = true := by
  induction s generalizing a with
  | nil =>
      obtain rfl := h.eq_of_nil
      obtain ⟨before, offset, ahead⟩ := b
      obtain ⟨found, hfound⟩ := Option.isSome_iff_exists.mp hk
      cases ahead with
      | nil => exact hk
      | cons c rest =>
          unfold passFew
          rw [hfound]
          rfl
  | cons c rest ih =>
      have hahead : a.ahead = c :: (rest ++ b.ahead) := h.ahead
      have hlater := ih (h.step hahead) fun d hd => hs d (List.mem_cons_of_mem c hd)
      rw [hahead, passFew, if_pos (hs c List.mem_cons_self)]
      split
      · rfl
      · exact hlater

theorem isSome_rounds {step : Cursor → Groups → (Cursor → Groups → Option α) → Option α}
    {round : Cursor → Cursor → Groups → Prop}
    (hpass : ∀ {a b new}, round a b new → ∃ s, a.Passes s b)
    (hstep : ∀ {here next new groups k}, round here next new →
      (k next (new ++ groups)).isSome = true → (step here groups k).isSome = true)
    {k : Cursor → Groups → Option α} {limit : Nat} {here next : Cursor} {new groups : Groups}
    (h : Rounds round here next new) (hlimit : here.ahead.length ≤ limit)
    (hk : (k next (new ++ groups)).isSome = true) :
    (rounds step k limit here groups).isSome = true := by
  induction h generalizing limit groups with
  | done a =>
      cases limit with
      | zero => exact hk
      | succ limit =>
          unfold rounds
          split
          · rfl
          · exact hk
  | @more a m b first later hround hlt hmore ih =>
      obtain ⟨s, hs⟩ := hpass hround
      have hshorter := hs.length_lt hlt
      cases limit with
      | zero => omega
      | succ limit =>
          rw [List.append_assoc] at hk
          have hrest : (rounds step k limit m (first ++ groups)).isSome = true :=
            ih (by omega) hk
          have hnext : (step a groups fun next groups' =>
              if a.offset < next.offset then rounds step k limit next groups' else none).isSome =
                true := by
            refine hstep hround ?_
            rwa [if_pos hlt]
          obtain ⟨found, hfound⟩ := Option.isSome_iff_exists.mp hnext
          rw [rounds, hfound]
          rfl

/-- **Where a match leads to a place that is accepted, a run accepts.** -/
theorem isSome_run_of_matches {p : Pattern} {here next : Cursor} {new groups : Groups}
    {k : Cursor → Groups → Option α} (h : Matches p here next new)
    (hk : (k next (new ++ groups)).isSome = true) : (run p here groups k).isSome = true := by
  induction p generalizing here next new groups k with
  | nothing =>
      obtain ⟨rfl, rfl⟩ := h
      exact hk
  | one f =>
      obtain ⟨c, rest, hahead, hc, rfl, rfl⟩ := h
      rw [run, hahead]
      simp only [hc, if_true]
      exact hk
  | many f =>
      obtain ⟨s, hpass, hs, rfl⟩ := h
      exact isSome_passMany hpass hs hk
  | few f =>
      obtain ⟨s, hpass, hs, rfl⟩ := h
      exact isSome_passFew hpass hs hk
  | wordEdge =>
      obtain ⟨hedge, rfl, rfl⟩ := h
      rw [run, if_pos hedge]
      exact hk
  | textStart =>
      obtain ⟨hnone, rfl, rfl⟩ := h
      rw [run, if_pos (by simp [hnone])]
      exact hk
  | textEnd =>
      obtain ⟨hempty, rfl, rfl⟩ := h
      rw [run, if_pos (by simp [hempty])]
      exact hk
  | lineStart =>
      obtain ⟨hstart, rfl, rfl⟩ := h
      rw [run, if_pos (by simpa [Option.all_eq_true] using hstart)]
      exact hk
  | lineEnd =>
      obtain ⟨hend, rfl, rfl⟩ := h
      rw [run, if_pos (by simpa [Option.all_eq_true] using hend)]
      exact hk
  | both p q ihp ihq =>
      obtain ⟨m, first, later, hp, hq, rfl⟩ := h
      rw [List.append_assoc] at hk
      exact ihp hp (ihq hq hk)
  | either p q ihp ihq =>
      unfold run
      split
      · rfl
      · rename_i hnone
        rcases h with hp | hq
        · have hsome := ihp hp hk
          rw [hnone] at hsome
          simp at hsome
        · exact ihq hq hk
  | repeated p ih => exact isSome_rounds Matches.passes ih h (Nat.le_refl _) hk
  | group index p ih =>
      obtain ⟨inner, hp, rfl⟩ := h
      exact ih hp hk

/-- Characters of a class are passed up to the last place that is accepted. -/
theorem run_many_last {f : Char → Bool} {s : Text} {a b : Cursor} {g : Groups}
    {k : Cursor → Groups → Option α} (hs : ∀ c ∈ s, f c = true) (hpass : a.Passes s b)
    (hk : (k b g).isSome = true)
    (hlater : ∀ {u next}, u ≠ [] → b.Passes u next → k next g = none) :
    run (many f) a g k = k b g := by
  induction s generalizing a with
  | nil =>
      obtain rfl := hpass.eq_of_nil
      have hsome : (run (many f) b g k).isSome = true :=
        isSome_passMany (k := (k · g)) (.refl b) (List.forall_mem_nil _) hk
      obtain ⟨r, hr⟩ := Option.isSome_iff_exists.mp hsome
      obtain ⟨u, next, hu, -, hnext⟩ := exists_passes_of_passMany hr
      cases u with
      | nil => rw [hr, ← hnext, hu.eq_of_nil]
      | cons c more =>
          rw [hlater (List.cons_ne_nil c more) hu] at hnext
          cases hnext
  | cons c rest ih =>
      rw [List.forall_mem_cons] at hs
      have hrest := ih hs.2 (hpass.step hpass.ahead)
      obtain ⟨r, hr⟩ := Option.isSome_iff_exists.mp hk
      rw [hr] at hrest ⊢
      rw [run_many_cons hpass.ahead, if_pos hs.1, hrest]

end

/-! ### What a search decides -/

theorem isSome_matchAt_iff {p : Pattern} {here : Cursor} :
    (matchAt p here).isSome = true ↔ ∃ next new, Matches p here next new := by
  constructor
  · intro h
    obtain ⟨found, hfound⟩ := Option.isSome_iff_exists.mp h
    obtain ⟨next, new, hmatch, -⟩ := exists_matches_of_matchAt hfound
    exact ⟨next, new, hmatch⟩
  · rintro ⟨next, new, hmatch⟩
    exact isSome_run_of_matches hmatch rfl

theorem isSome_search {p : Pattern} {s ahead : Text} {before : Option Char} {offset : Nat}
    {here : Cursor} (hpass : Cursor.Passes ⟨before, offset, ahead⟩ s here)
    (h : (matchAt p here).isSome = true) : (search p before offset ahead).isSome = true := by
  induction s generalizing before offset ahead with
  | nil =>
      rw [hpass.eq_of_nil] at h
      cases ahead with
      | nil => exact h
      | cons c rest =>
          obtain ⟨found, hfound⟩ := Option.isSome_iff_exists.mp h
          rw [search, hfound]
          rfl
  | cons c rest ih =>
      obtain ⟨more, rfl⟩ : ∃ more, ahead = c :: more := ⟨_, hpass.ahead⟩
      unfold search
      split
      · rfl
      · exact ih (hpass.step rfl)

/-- A match at the front of a text comes first. -/
theorem find?_eq_some {p : Pattern} {t : Text} {m : Found} (h : matchAt p (Cursor.start t) = some m) :
    p.find? t = some m := by
  cases t with
  | nil => exact h
  | cons c rest =>
      have hhere : matchAt p ⟨none, 0, c :: rest⟩ = some m := h
      rw [find?, search, hhere]

/-- **A pattern occurs in a text if it matches at one of its places.** -/
theorem occursIn_iff {p : Pattern} {t : Text} :
    p.occursIn t = true ↔
      ∃ pre here next new, (Cursor.start t).Passes pre here ∧ Matches p here next new := by
  constructor
  · intro h
    obtain ⟨found, hfound⟩ := Option.isSome_iff_exists.mp h
    obtain ⟨pre, here, hpass, hmatch⟩ := finds_of_find? hfound
    obtain ⟨next, new, hmatches⟩ := isSome_matchAt_iff.mp (Option.isSome_of_mem hmatch)
    exact ⟨pre, here, next, new, hpass, hmatches⟩
  · rintro ⟨pre, here, next, new, hpass, hmatch⟩
    exact isSome_search hpass (isSome_matchAt_iff.mpr ⟨next, new, hmatch⟩)

/-- Where a pattern occurs, each group that it binds is found. -/
theorem exists_mem_findGroups {p : Pattern} {t : Text} {i : Nat} (hp : binds (i + 1) p = true)
    (h : p.occursIn t = true) : ∃ s, s ∈ p.findGroups (i + 1) t := by
  obtain ⟨pre, here, next, new, hpass, hmatch⟩ := occursIn_iff.mp h
  obtain ⟨m, hm⟩ := List.exists_mem_of_ne_nil _
    (scan_ne_nil hpass (isSome_matchAt_iff.mpr ⟨next, new, hmatch⟩))
  obtain ⟨s, hs, -⟩ := (finds_of_mem_findAll hm).exists_group hp
  exact ⟨s, List.mem_filterMap.mpr ⟨m, hm, hs⟩⟩

/-! ### What a pattern sees around its match -/

/-- A pattern that asks for no edge of the text. -/
def ignoresTextEdges : Pattern → Bool
  | textStart | textEnd => false
  | both p q | either p q => ignoresTextEdges p && ignoresTextEdges q
  | repeated p | group _ p => ignoresTextEdges p
  | _ => true

/-- The groups of a match, seen from a text with lines put before and behind. -/
def groupsWithin (pre post : Text) (groups : Groups) : Groups :=
  groups.map fun (index, a, b) => (index, a.within pre post, b.within pre post)

section

variable {pre post : Text}

theorem Rounds.within {round : Cursor → Cursor → Groups → Prop}
    (hround : ∀ {a b new}, round a b new →
      round (a.within pre post) (b.within pre post) (groupsWithin pre post new))
    {a b : Cursor} {new : Groups} (h : Rounds round a b new) :
    Rounds round (a.within pre post) (b.within pre post) (groupsWithin pre post new) := by
  induction h with
  | done a => exact .done _
  | more hfirst hlt _ ih =>
      rw [groupsWithin, List.map_append]
      exact .more (hround hfirst) (Nat.add_lt_add_left hlt _) ih

theorem lineStart_within (hpre : ∀ c, pre.getLast? = some c → c = '\n') {here : Cursor}
    (h : ∀ c, here.before = some c → c = '\n') :
    ∀ c, (here.within pre post).before = some c → c = '\n' := by
  intro c hc
  rcases Option.or_eq_some_iff.mp hc with hc | ⟨-, hc⟩
  · exact h c hc
  · exact hpre c hc

theorem lineEnd_within (hpost : ∀ c, post.head? = some c → c = '\n') {here : Cursor}
    (h : ∀ c, here.ahead.head? = some c → c = '\n') :
    ∀ c, (here.within pre post).ahead.head? = some c → c = '\n' := by
  intro c hc
  rw [Cursor.within, List.head?_append] at hc
  rcases Option.or_eq_some_iff.mp hc with hc | ⟨-, hc⟩
  · exact h c hc
  · exact hpost c hc

variable (hpre : ∀ c, pre.getLast? = some c → c = '\n')
  (hpost : ∀ c, post.head? = some c → c = '\n')

include hpre hpost

theorem atWordEdge_within (here : Cursor) :
    (here.within pre post).atWordEdge = here.atWordEdge := by
  have hbefore : (here.before.or pre.getLast?).any Unicode.isWord =
      here.before.any Unicode.isWord := by
    cases here.before with
    | some c => rfl
    | none =>
        cases hlast : pre.getLast? with
        | none => rfl
        | some c =>
            rw [hpre c hlast]
            exact Unicode.isWord_lineFeed
  have hahead : (here.ahead ++ post).head?.any Unicode.isWord =
      here.ahead.head?.any Unicode.isWord := by
    cases here.ahead with
    | cons c rest => rfl
    | nil =>
        cases hhead : post.head? with
        | none => rw [List.nil_append, hhead]; rfl
        | some c =>
            rw [List.nil_append, hhead, hpost c hhead]
            exact Unicode.isWord_lineFeed
  show (_ != _) = (_ != _)
  rw [← hbefore, ← hahead]
  rfl

/-- A match stays one when whole lines are put before and behind the text. -/
theorem Matches.within {p : Pattern} (hp : p.ignoresTextEdges = true) {a b : Cursor}
    {new : Groups} (h : Matches p a b new) :
    Matches p (a.within pre post) (b.within pre post) (groupsWithin pre post new) := by
  induction p generalizing a b new with
  | nothing =>
      obtain ⟨rfl, rfl⟩ := h
      exact ⟨rfl, rfl⟩
  | one f =>
      obtain ⟨c, rest, hahead, hc, rfl, rfl⟩ := h
      refine ⟨c, rest ++ post, ?_, hc, Cursor.within_step .., rfl⟩
      rw [Cursor.within, hahead, List.cons_append]
  | many f | few f =>
      obtain ⟨s, hpass, hs, rfl⟩ := h
      exact ⟨s, hpass.within pre post, hs, rfl⟩
  | wordEdge =>
      obtain ⟨hedge, rfl, rfl⟩ := h
      exact ⟨(atWordEdge_within hpre hpost _).trans hedge, rfl, rfl⟩
  | textStart | textEnd => simp [ignoresTextEdges] at hp
  | lineStart =>
      obtain ⟨hstart, rfl, rfl⟩ := h
      exact ⟨lineStart_within hpre hstart, rfl, rfl⟩
  | lineEnd =>
      obtain ⟨hend, rfl, rfl⟩ := h
      exact ⟨lineEnd_within hpost hend, rfl, rfl⟩
  | both p q ihp ihq =>
      obtain ⟨hp, hq⟩ := Bool.and_eq_true_iff.mp hp
      obtain ⟨m, first, later, hfirst, hlater, rfl⟩ := h
      exact ⟨_, _, _, ihp hp hfirst, ihq hq hlater, List.map_append⟩
  | either p q ihp ihq =>
      obtain ⟨hp, hq⟩ := Bool.and_eq_true_iff.mp hp
      exact h.imp (ihp hp) (ihq hq)
  | repeated p ih => exact Rounds.within (ih hp) h
  | group index p ih =>
      obtain ⟨inner, hinner, rfl⟩ := h
      exact ⟨_, ih hp hinner, rfl⟩

variable (pre post) in
/-- **What occurs in a text still occurs after lines have been put before and behind it.** -/
theorem occursIn_within {p : Pattern} (hp : p.ignoresTextEdges = true) {t : Text}
    (h : p.occursIn t = true) : p.occursIn (pre ++ t ++ post) = true := by
  obtain ⟨lead, here, next, new, hpass, hmatch⟩ := occursIn_iff.mp h
  exact occursIn_iff.mpr ⟨_, _, _, _,
    (Cursor.passes_within_start pre t post).trans (hpass.within pre post),
    hmatch.within hpre hpost hp⟩

end

end Pattern

end SnippetLint
