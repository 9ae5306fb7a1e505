/-
What merged settings do.

`Proofs/Config/Merge.lean` tells how the fields of two configurations are put together; here it is
told what that means to those who consult them.  Each of them asks one question of a list or a table:
whether an id is in it, which severity it has under an id, whether its patterns match a path.  So it is
enough to know what is in a merged list (`mem_foldl_addMissing_iff`) and what is found in a merged table
(`SeverityTable.get?_insertAll`); order and repeats do not matter to any of them.
-/
import SnippetLint.Proofs.Config.Merge
import SnippetLint.Proofs.Globs
import SnippetLint.Proofs.Settings

namespace SnippetLint

/-! ### What is in a list that has grown -/

theorem mem_foldl_addMissing_iff {base layer : List String} {s : String} :
    s ∈ layer.foldl addMissing base ↔ s ∈ base ∨ s ∈ layer := by
  refine ⟨fun h => ?_, fun h => ?_⟩
  · rw [foldl_addMissing, List.mem_append, List.mem_eraseDups, List.mem_filter] at h
    exact h.imp_right And.left
  · rcases h with h | h
    · rw [foldl_addMissing]
      exact List.mem_append_left _ h
    · exact mem_foldl_addMissing h

theorem nodup_addMissing_iff {l : List String} {s : String} :
    (addMissing l s).Nodup ↔ l.Nodup := by
  by_cases h : s ∈ l
  · rw [addMissing_of_mem h]
  · rw [addMissing_of_notMem h, List.nodup_append]
    refine ⟨And.left, fun hnodup => ⟨hnodup, List.pairwise_singleton .., fun p hp q hq heq => h ?_⟩⟩
    rwa [← List.mem_singleton.mp hq, ← heq]

/-- Adding what is missing repeats nothing, so only the list below can have repeats. -/
theorem nodup_foldl_addMissing_iff {base layer : List String} :
    (layer.foldl addMissing base).Nodup ↔ base.Nodup := by
  induction layer generalizing base with
  | nil => rfl
  | cons s rest ih => rw [List.foldl_cons, ih, nodup_addMissing_iff]

/-! ### What is found in a merged table -/

section

variable {entries : List (String × Severity)}

theorem lookup_entry_cons (id : String) (entry : String × Severity) :
    (entry :: entries).lookup id = if id = entry.1 then some entry.2 else entries.lookup id := by
  rw [List.lookup_cons]
  by_cases h : id = entry.1
  · rw [if_pos h, beq_iff_eq.mpr h]
  · rw [if_neg h, beq_eq_false_iff_ne.mpr h]

theorem lookup_replaceEntry (id other : String) (severity : Severity) :
    (replaceEntry id severity entries).lookup other =
      if other = id then some severity else entries.lookup other := by
  induction entries with
  | nil => rw [replaceEntry, lookup_entry_cons]
  | cons entry rest ih =>
      by_cases hentry : entry.1 = id
      · rw [replaceEntry, if_pos hentry, lookup_entry_cons, lookup_entry_cons, hentry]
        split <;> rfl
      · rw [replaceEntry, if_neg hentry, lookup_entry_cons, lookup_entry_cons, ih]
        by_cases h : other = entry.1
        · have hid : other ≠ id := fun heq => hentry (h.symm.trans heq)
          rw [if_pos h, if_neg hid, if_pos h]
        · rw [if_neg h, if_neg h]

theorem lookup_eq_none_of_notMem {id : String} (h : id ∉ entryIds entries) :
    entries.lookup id = none := by
  rw [List.lookup_eq_none_iff]
  intro entry hentry
  exact bne_iff_ne.mpr fun heq => h (heq ▸ List.mem_map_of_mem hentry)

end

theorem lookup_foldl_putEntry {base layer : List (String × Severity)}
    (hlayer : (entryIds layer).Nodup) (id : String) :
    (layer.foldl putEntry base).lookup id = (layer.lookup id).or (base.lookup id) := by
  induction layer generalizing base with
  | nil => rfl
  | cons entry rest ih =>
      rw [entryIds, List.map_cons, List.nodup_cons] at hlayer
      rw [List.foldl_cons, ih hlayer.2, putEntry, lookup_replaceEntry, lookup_entry_cons]
      by_cases h : id = entry.1
      · have hrest : rest.lookup id = none := lookup_eq_none_of_notMem (h ▸ hlayer.1)
        rw [if_pos h, if_pos h, hrest, Option.none_or, Option.some_or]
      · rw [if_neg h, if_neg h]

theorem SeverityTable.get?_insertAll (below layer : SeverityTable) (id : String) :
    (below.insertAll layer.entries).get? id = (layer.get? id).or (below.get? id) := by
  rw [get?, entries_insertAll]
  exact lookup_foldl_putEntry layer.nodup id

/-! ### Merged configurations -/

namespace Config

theorem isEnabled_merge (a b : Config) (registry : Registry) (language : Language) (id : String) :
    (Linter.filter ⟨registry, a.merge b⟩).isEnabled language id = true ↔
      (Linter.filter ⟨registry, a⟩).isEnabled language id = true ∧
        (Linter.filter ⟨registry, b⟩).isEnabled language id = true := by
  simp only [RuleFilter.isEnabled_iff, Linter.filter, merge, List.mem_append, not_or]
  exact and_and_and_comm

theorem mem_readable_merge (a b : Config) (parts : List Glob.Part) :
    parts ∈ Glob.readable (a.merge b).files.exclude ↔
      parts ∈ Glob.readable a.files.exclude ∨ parts ∈ Glob.readable b.files.exclude := by
  simp only [Glob.mem_readable_iff, merge, mem_foldl_addMissing_iff, or_and_right, exists_or]

/-- One glob that cannot be compiled is enough, in either layer. -/
theorem builds_merge (a b : Config) : Glob.builds (a.merge b).files.exclude = true ↔
    Glob.builds a.files.exclude = true ∧ Glob.builds b.files.exclude = true := by
  simp only [Glob.builds, List.all_eq_true, mem_readable_merge, or_imp, forall_and]

theorem anyMatches_merge (a b : Config) (path : String) :
    Glob.anyMatches (a.merge b).files.exclude path = true ↔
      (Glob.builds a.files.exclude = true ∧ Glob.builds b.files.exclude = true) ∧
        (Glob.anyMatches a.files.exclude path = true ∨
          Glob.anyMatches b.files.exclude path = true) := by
  rw [Glob.anyMatches_iff, builds_merge]
  refine and_congr_right fun ⟨ha, hb⟩ => ?_
  simp only [Glob.anyMatches_iff, ha, hb, true_and, mem_readable_merge, or_and_right, exists_or]

/-- **Merging is a union to those who consult it.**  A rule runs under merged settings if it runs under
both of them, and the severity entered for an id is that of the upper layer, or else that of the lower
one.  If the patterns of both can be compiled, a path is passed over if it is under one of them; if
those of one of them cannot, nothing is passed over, whatever the other says.  No pattern is listed
twice unless it was so in the lower layer. -/
theorem merge_union (a b : Config) :
    (∀ registry language id,
        (Linter.filter ⟨registry, a.merge b⟩).isEnabled language id = true ↔
          (Linter.filter ⟨registry, a⟩).isEnabled language id = true ∧
            (Linter.filter ⟨registry, b⟩).isEnabled language id = true) ∧
      (∀ id, (a.merge b).rules.severity.get? id =
        (b.rules.severity.get? id).or (a.rules.severity.get? id)) ∧
      (∀ path, Glob.anyMatches (a.merge b).files.exclude path = true ↔
        (Glob.builds a.files.exclude = true ∧ Glob.builds b.files.exclude = true) ∧
          (Glob.anyMatches a.files.exclude path = true ∨
            Glob.anyMatches b.files.exclude path = true)) ∧
      ((a.merge b).files.exclude.Nodup ↔ a.files.exclude.Nodup) :=
  ⟨isEnabled_merge a b, SeverityTable.get?_insertAll _ _, anyMatches_merge a b,
    nodup_foldl_addMissing_iff⟩

/-- A pattern that is nested too deeply takes those of the other layer with it. -/
theorem merge_union_nested :
    let a : Config := { files := { exclude := ["x"] } }
    let b : Config := { files := { exclude := [Glob.nestedGlob 300] } }
    Glob.anyMatches a.files.exclude "x" = true ∧
      Glob.anyMatches (a.merge b).files.exclude "x" = false ∧
      ∀ glob ∈ b.files.exclude, (Glob.parse glob).isOk = true := by
  intro a b
  have hdeep : Glob.builds b.files.exclude ≠ true :=
    fun h => absurd ((Glob.builds_nestedGlob_iff 300).mp h) (by decide)
  refine ⟨by decide +kernel, Bool.eq_false_iff.mpr fun h => ?_, fun glob hglob => ?_⟩
  · exact hdeep ((anyMatches_merge a b "x").mp h).1.2
  · rw [List.mem_singleton.mp hglob, Glob.parse_nestedGlob]
    rfl

end Config

end SnippetLint
