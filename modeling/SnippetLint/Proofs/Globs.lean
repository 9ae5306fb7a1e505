/-
Sets of globs.

Whether a path is matched by several globs is asked of the set that they make, and a set is there only
if all globs in it can be compiled.  What is needed of it are the globs in it (`mem_readable_iff`), and
that nothing else than these, compiled together, matches a path (`anyMatches_iff`).

Braces are the only parts that hold others, and reading sets them no limit: `nestedGlob` is read for any
number of braces, and it is compiled for less than `maxDepth`.
-/
import SnippetLint.Glob.Match

namespace SnippetLint.Glob

/-! ### What is in a set -/

section

variable {globs : List String}

theorem mem_readable_iff {parts : List Part} :
    parts ∈ readable globs ↔ ∃ glob ∈ globs, parse glob = .ok parts := by
  rw [readable, List.mem_filterMap]
  refine exists_congr fun glob => and_congr_right fun _ => ?_
  cases parse glob with
  | ok read => simp [Except.toOption]
  | error e => simp [Except.toOption]

/-- A path is matched if there is a set to match it. -/
theorem anyMatches_iff {path : String} : anyMatches globs path = true ↔
    builds globs = true ∧ ∃ parts ∈ readable globs, matchesPath parts path = true := by
  rw [anyMatches, List.any_eq_true, set]
  by_cases h : builds globs = true
  · rw [if_pos h, and_iff_right h]
  · simp [h]

end

/-! ### Reading braces -/

theorem readFrom_openGroup (s : Progress) (prior : Option Char) (rest : List Char) :
    readFrom none s prior false ('\x7b' :: rest) =
      readFrom none s.openGroup (some '\x7b') false rest := by
  simp [readFrom.eq_def none s prior false ('\x7b' :: rest)]

theorem readFrom_closeGroup {s closed : Progress} (h : s.closeGroup = .ok closed)
    (prior : Option Char) (rest : List Char) :
    readFrom none s prior false ('\x7d' :: rest) =
      readFrom none closed (some '\x7d') false rest := by
  simp [readFrom.eq_def none s prior false ('\x7d' :: rest), h, bind, Except.bind]

theorem readFrom_literal {c : Char} (hc : c ∉ ['?', '*', '[', '\x7b', '\x7d', ',', '\\'])
    (s : Progress) (prior : Option Char) (rest : List Char) :
    readFrom none s prior false (c :: rest) =
      readFrom none (s.push (.literal c)) (some c) false rest := by
  simp only [List.mem_cons, List.not_mem_nil, or_false, not_or] at hc
  simp [readFrom.eq_def none s prior false (c :: rest), hc]

/-- A letter in so many braces. -/
def nestedGlob (n : Nat) : String :=
  String.ofList (List.replicate n '\x7b' ++ 'y' :: List.replicate n '\x7d')

/-- What it is read as. -/
def nestedPart : Nat → Part
  | 0 => .literal 'y'
  | n + 1 => .alternatives [[nestedPart n]]

/-- Groups in which nothing has been read yet. -/
def freshGroups (n : Nat) : List Group := List.replicate n ⟨[], []⟩

theorem readFrom_opening (n k : Nat) (prior : Option Char) (rest : List Char) :
    ∃ prior', readFrom none ⟨[], freshGroups k⟩ prior false (List.replicate n '\x7b' ++ rest) =
      readFrom none ⟨[], freshGroups (k + n)⟩ prior' false rest := by
  induction n generalizing k prior with
  | zero => exact ⟨prior, rfl⟩
  | succ n ih =>
      obtain ⟨prior', h⟩ := ih (k + 1) (some '\x7b')
      refine ⟨prior', ?_⟩
      rw [List.replicate_succ, List.cons_append, readFrom_openGroup, Nat.add_comm n, ← Nat.add_assoc]
      exact h

theorem readFrom_closing (n k : Nat) (prior : Option Char) :
    readFrom none ⟨[nestedPart k], freshGroups n⟩ prior false (List.replicate n '\x7d') =
      .ok ⟨[nestedPart (k + n)], []⟩ := by
  induction n generalizing k prior with
  | zero => rfl
  | succ n ih =>
      have hclosed : Progress.closeGroup ⟨[nestedPart k], freshGroups (n + 1)⟩ =
          .ok ⟨[nestedPart (k + 1)], freshGroups n⟩ := rfl
      rw [List.replicate_succ, readFrom_closeGroup hclosed, ih, Nat.add_assoc, Nat.add_comm 1]

/-- Braces are read to any depth. -/
theorem parse_nestedGlob (n : Nat) : parse (nestedGlob n) = .ok [nestedPart n] := by
  obtain ⟨prior, hopening⟩ := readFrom_opening n 0 none ('y' :: List.replicate n '\x7d')
  have hclosing := readFrom_closing n 0 (some 'y')
  rw [Nat.zero_add] at hopening hclosing
  have hread : readFrom none .start none false (nestedGlob n).toList = .ok ⟨[nestedPart n], []⟩ := by
    rw [nestedGlob, String.toList_ofList]
    exact (hopening.trans (readFrom_literal (by decide) _ _ _)).trans hclosing
  rw [parse, hread]
  rfl

/-! ### Levels of braces -/

section

variable {p : Part}

theorem isVacuous_braces (p : Part) : (Part.alternatives [[p]]).isVacuous = p.isVacuous := by
  rw [Part.isVacuous, allVacuous, partsVacuous, partsVacuous, allVacuous, Bool.and_true, Bool.and_true]

theorem items_braces (hp : p.isVacuous = false) : (Part.alternatives [[p]]).items = 1 := by
  simp [Part.items, allVacuous, partsVacuous, hp]

/-- Braces around a part that is one item are one level more. -/
theorem depth_braces (hp : p.isVacuous = false) (hitems : p.items = 1) :
    (Part.alternatives [[p]]).depth = p.depth + 1 := by
  have hbranch : branchesDepth [[p]] = p.depth := by
    simp [branchesDepth, partsDepth, partsItems, levelOf, hitems]
  simp [Part.depth, allVacuous, partsVacuous, levelOf, hp, hbranch, Nat.add_comm]

end

theorem isVacuous_nestedPart (n : Nat) : (nestedPart n).isVacuous = false := by
  induction n with
  | zero => rfl
  | succ n ih => rw [nestedPart, isVacuous_braces, ih]

theorem items_nestedPart (n : Nat) : (nestedPart n).items = 1 := by
  cases n with
  | zero => decide +kernel
  | succ n => exact items_braces (isVacuous_nestedPart n)

theorem depth_nestedPart (n : Nat) : (nestedPart n).depth = n := by
  induction n with
  | zero => rfl
  | succ n ih => rw [nestedPart, depth_braces (isVacuous_nestedPart n) (items_nestedPart n), ih]

/-- A glob in too many braces is not compiled. -/
theorem builds_nestedGlob_iff (n : Nat) : builds [nestedGlob n] = true ↔ n < maxDepth := by
  have hread : readable [nestedGlob n] = [[nestedPart n]] := by
    rw [readable, List.filterMap_cons, parse_nestedGlob]
    rfl
  have hlevels : 1 + partsDepth [nestedPart n] = n + 1 := by
    rw [partsDepth, partsDepth, depth_nestedPart, Nat.max_zero, Nat.add_comm]
  rw [builds, hread, List.all_cons, List.all_nil, Bool.and_true, compiles, hlevels, decide_eq_true_iff]
  exact Nat.succ_le_iff

end SnippetLint.Glob
