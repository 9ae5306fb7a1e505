/-
Layers of settings.

A setting in a layer is laid over the one below in a way of its own: the last that differs from the
default counts, or a switch stays off, or a list grows.  Two of the ways are loops, over patterns of
files and over severities, and both put a layer's entries one by one into what lies below.  Such a
loop can be cut anywhere (`foldl_foldl`) if it does not matter whether an entry is put into the upper
layer first or into the result afterwards.  That makes layering associative, and what happens when
the same layer is laid twice follows from what happens when it is laid over itself.
-/
import SnippetLint.Config.Merge

namespace SnippetLint

/-- Putting the entries of one list after those of another is putting in the entries of a list that
has both, where a single entry may be put in early or late. -/
theorem foldl_foldl {α : Type} {put : List α → α → List α} {P : List α → Prop}
    (hP : ∀ {layer e}, P layer → P (put layer e))
    (hput : ∀ {base layer e}, P layer →
      (put layer e).foldl put base = put (layer.foldl put base) e)
    (base : List α) {layer : List α} (hlayer : P layer) (upper : List α) :
    upper.foldl put (layer.foldl put base) = (upper.foldl put layer).foldl put base := by
  induction upper generalizing layer with
  | nil => rfl
  | cons e rest ih => rw [List.foldl_cons, List.foldl_cons, ← hput hlayer, ih (hP hlayer)]

/-! ### Lists that grow -/

theorem addMissing_of_mem {l : List String} {s : String} (h : s ∈ l) : addMissing l s = l := by
  rw [addMissing, if_pos (List.contains_iff_mem.mpr h)]

theorem addMissing_of_notMem {l : List String} {s : String} (h : s ∉ l) :
    addMissing l s = l ++ [s] := by
  rw [addMissing, if_neg (fun hmem => h (List.contains_iff_mem.mp hmem))]

/-- What is added to a list: the members that it lacks, each where it comes first. -/
theorem foldl_addMissing (base layer : List String) :
    layer.foldl addMissing base = base ++ (layer.filter (· ∉ base)).eraseDups := by
  induction layer generalizing base with
  | nil => simp
  | cons s rest ih =>
      rw [List.foldl_cons, ih]
      by_cases h : s ∈ base
      · rw [addMissing_of_mem h, List.filter_cons_of_neg (by simpa using h)]
      · have hlater : rest.filter (· ∉ base ++ [s]) =
            (rest.filter (· ∉ base)).filter fun p => !(p == s) := by
          rw [List.filter_filter]
          refine List.filter_congr fun p _ => ?_
          by_cases hp : p = s <;> simp [hp]
        rw [addMissing_of_notMem h, List.filter_cons_of_pos (by simpa using h), List.eraseDups_cons,
          hlater, List.append_assoc]
        rfl

theorem mem_foldl_addMissing {base layer : List String} {s : String} (h : s ∈ layer) :
    s ∈ layer.foldl addMissing base := by
  rw [foldl_addMissing, List.mem_append, List.mem_eraseDups, List.mem_filter]
  by_cases hbase : s ∈ base
  · exact .inl hbase
  · exact .inr ⟨h, decide_eq_true hbase⟩

theorem foldl_addMissing_addMissing (base layer : List String) (s : String) :
    (addMissing layer s).foldl addMissing base = addMissing (layer.foldl addMissing base) s := by
  by_cases h : s ∈ layer
  · rw [addMissing_of_mem h, addMissing_of_mem (mem_foldl_addMissing h)]
  · rw [addMissing_of_notMem h, List.foldl_append]
    rfl

theorem foldl_addMissing_foldl (base layer upper : List String) :
    upper.foldl addMissing (layer.foldl addMissing base) =
      (upper.foldl addMissing layer).foldl addMissing base :=
  foldl_foldl (P := fun _ => True) (fun _ => trivial)
    (fun _ => foldl_addMissing_addMissing ..) base trivial upper

theorem foldl_addMissing_self (l : List String) : l.foldl addMissing l = l := by
  rw [foldl_addMissing, List.filter_eq_nil_iff.mpr fun s hs => by simpa using hs]
  simp

/-! ### Tables of severities -/

/-- Entries of a table after one more is put in. -/
def putEntry (entries : List (String × Severity)) (entry : String × Severity) :
    List (String × Severity) := replaceEntry entry.1 entry.2 entries

/-- The ids of the entries of a table. -/
def entryIds (entries : List (String × Severity)) : List String := entries.map Prod.fst

section

variable {id other : String} {severity severity' : Severity} {entries : List (String × Severity)}

theorem replaceEntry_of_notMem (h : id ∉ entryIds entries) :
    replaceEntry id severity entries = entries ++ [(id, severity)] := by
  induction entries with
  | nil => rfl
  | cons entry rest ih =>
      rw [entryIds, List.map_cons, List.mem_cons, not_or] at h
      rw [replaceEntry, if_neg (Ne.symm h.1), ih h.2, List.cons_append]

theorem replaceEntry_of_mem (hnodup : (entryIds entries).Nodup) (h : (id, severity) ∈ entries) :
    replaceEntry id severity entries = entries := by
  induction entries with
  | nil => simp at h
  | cons entry rest ih =>
      rw [entryIds, List.map_cons, List.nodup_cons] at hnodup
      unfold replaceEntry
      split
      · rename_i hid
        rcases List.mem_cons.mp h with rfl | h
        · rfl
        · exact absurd (List.mem_map.mpr ⟨_, h, hid.symm⟩) hnodup.1
      · rename_i hid
        rcases List.mem_cons.mp h with rfl | h
        · exact absurd rfl hid
        · rw [ih hnodup.2 h]

theorem replaceEntry_replaceEntry :
    replaceEntry id severity (replaceEntry id severity' entries) =
      replaceEntry id severity entries := by
  induction entries with
  | nil => simp [replaceEntry]
  | cons entry rest ih =>
      by_cases h : entry.1 = id
      · simp [replaceEntry, h]
      · simp [replaceEntry, h, ih]

/-- Entries for two ids may be put in in either order, unless that decides where the first goes. -/
theorem replaceEntry_comm (hne : other ≠ id) (h : id ∈ entryIds entries) :
    replaceEntry id severity (replaceEntry other severity' entries) =
      replaceEntry other severity' (replaceEntry id severity entries) := by
  induction entries with
  | nil => simp [entryIds] at h
  | cons entry rest ih =>
      by_cases hid : entry.1 = id
      · have hother : entry.1 ≠ other := fun heq => hne (heq.symm.trans hid)
        simp [replaceEntry, hid, Ne.symm hne]
      · have hrest : id ∈ entryIds rest := by
          rw [entryIds, List.map_cons, List.mem_cons] at h
          exact h.resolve_left fun heq => hid heq.symm
        by_cases hother : entry.1 = other
        · simp [replaceEntry, hother, hne]
        · simp [replaceEntry, hid, hother, ih hrest]

theorem mem_entryIds_replaceEntry : id ∈ entryIds (replaceEntry id severity entries) := by
  induction entries with
  | nil => simp [entryIds, replaceEntry]
  | cons entry rest ih =>
      unfold replaceEntry
      split
      · exact List.mem_cons_self
      · exact List.mem_cons_of_mem _ ih

theorem mem_entryIds_of_mem (h : id ∈ entryIds entries) :
    id ∈ entryIds (replaceEntry other severity entries) := by
  by_cases hid : other = id
  · rw [hid]
    exact mem_entryIds_replaceEntry
  · induction entries with
    | nil => simp [entryIds] at h
    | cons entry rest ih =>
        rw [entryIds, List.map_cons, List.mem_cons] at h
        unfold replaceEntry
        split
        · rename_i heq
          rcases h with rfl | h
          · exact absurd heq.symm hid
          · exact List.mem_cons_of_mem _ h
        · rcases h with rfl | h
          · exact List.mem_cons_self
          · exact List.mem_cons_of_mem _ (ih h)

/-- An entry for an id that is there may be put in before those for other ids. -/
theorem replaceEntry_foldl {base layer : List (String × Severity)} (hbase : id ∈ entryIds base)
    (hlayer : id ∉ entryIds layer) :
    replaceEntry id severity (layer.foldl putEntry base) =
      layer.foldl putEntry (replaceEntry id severity base) := by
  induction layer generalizing base with
  | nil => rfl
  | cons entry rest ih =>
      rw [entryIds, List.map_cons, List.mem_cons, not_or] at hlayer
      have hcomm : replaceEntry id severity (putEntry base entry) =
          putEntry (replaceEntry id severity base) entry :=
        replaceEntry_comm (Ne.symm hlayer.1) hbase
      rw [List.foldl_cons, List.foldl_cons, ← hcomm]
      exact ih (mem_entryIds_of_mem hbase) hlayer.2

/-- An entry that is put into a layer ends up where it goes when it is put in afterwards. -/
theorem foldl_putEntry_putEntry {base layer : List (String × Severity)}
    {entry : String × Severity} (hlayer : (entryIds layer).Nodup) :
    (putEntry layer entry).foldl putEntry base = putEntry (layer.foldl putEntry base) entry := by
  induction layer generalizing base with
  | nil => rfl
  | cons first rest ih =>
      rw [entryIds, List.map_cons, List.nodup_cons] at hlayer
      obtain ⟨id, severity⟩ := entry
      by_cases hid : first.1 = id
      · have hput : putEntry (first :: rest) (id, severity) = (id, severity) :: rest := if_pos hid
        have hrest : id ∉ entryIds rest := hid ▸ hlayer.1
        have hmem : id ∈ entryIds (putEntry base first) := by
          rw [← hid]
          exact mem_entryIds_replaceEntry
        have hagain : replaceEntry id severity (putEntry base first) =
            putEntry base (id, severity) := by
          rw [putEntry, hid, replaceEntry_replaceEntry]
          rfl
        rw [hput, List.foldl_cons, List.foldl_cons, ← hagain]
        exact (replaceEntry_foldl hmem hrest).symm
      · have hput : putEntry (first :: rest) (id, severity) =
            first :: putEntry rest (id, severity) := if_neg hid
        rw [hput, List.foldl_cons, List.foldl_cons]
        exact ih hlayer.2

theorem foldl_putEntry_of_subset {layer : List (String × Severity)}
    (hnodup : (entryIds entries).Nodup) (h : ∀ entry ∈ layer, entry ∈ entries) :
    layer.foldl putEntry entries = entries := by
  induction layer with
  | nil => rfl
  | cons entry rest ih =>
      rw [List.forall_mem_cons] at h
      rw [List.foldl_cons, putEntry, replaceEntry_of_mem hnodup h.1, ih h.2]

theorem foldl_putEntry_of_nodup {layer : List (String × Severity)}
    (hnodup : (entryIds (entries ++ layer)).Nodup) :
    layer.foldl putEntry entries = entries ++ layer := by
  induction layer generalizing entries with
  | nil => simp
  | cons entry rest ih =>
      have hnew : entry.1 ∉ entryIds entries := by
        rw [entryIds, List.map_append, List.map_cons, List.nodup_append] at hnodup
        exact fun hmem => hnodup.2.2 _ hmem _ List.mem_cons_self rfl
      have hsplit : entries ++ entry :: rest = entries ++ [entry] ++ rest := by simp
      rw [List.foldl_cons, putEntry, replaceEntry_of_notMem hnew, hsplit]
      exact ih (hsplit ▸ hnodup)

end

namespace SeverityTable

theorem eq_of_entries {a b : SeverityTable} (h : a.entries = b.entries) : a = b := by
  cases a
  cases b
  simpa using h

theorem entries_insertAll (table : SeverityTable) (layer : List (String × Severity)) :
    (table.insertAll layer).entries = layer.foldl putEntry table.entries := by
  induction layer generalizing table with
  | nil => rfl
  | cons entry rest ih => exact ih (table.insert entry.1 entry.2)

theorem insertAll_insertAll (a b c : SeverityTable) :
    (a.insertAll b.entries).insertAll c.entries = a.insertAll (b.insertAll c.entries).entries := by
  refine eq_of_entries ?_
  simp only [entries_insertAll]
  exact foldl_foldl (P := fun entries => (entryIds entries).Nodup)
    (fun hnodup => nodup_replaceEntry _ _ _ hnodup) foldl_putEntry_putEntry _ b.nodup _

theorem insertAll_self (a : SeverityTable) : a.insertAll a.entries = a := by
  refine eq_of_entries ?_
  rw [entries_insertAll]
  exact foldl_putEntry_of_subset a.nodup fun _ h => h

theorem empty_insertAll (a : SeverityTable) : empty.insertAll a.entries = a := by
  refine eq_of_entries ?_
  rw [entries_insertAll]
  exact foldl_putEntry_of_nodup a.nodup

end SeverityTable

/-! ### Configurations -/

/-- A setting of which the last layer that differs from the default counts. -/
theorem lastOther_assoc {α : Type} [DecidableEq α] (default a b c : α) :
    (if c ≠ default then c else if b ≠ default then b else a) =
      if (if c ≠ default then c else b) ≠ default then if c ≠ default then c else b else a := by
  by_cases h : c = default
  · simp [h]
  · simp [h]

theorem lastOther_default {α : Type} [DecidableEq α] (default a : α) :
    (if a ≠ default then a else default) = a := by
  by_cases h : a = default
  · simp [h]
  · simp [h]

namespace Config

theorem merge_assoc (a b c : Config) : (a.merge b).merge c = a.merge (b.merge c) := by
  simp only [merge, lastOther_assoc, Bool.and_assoc, List.append_assoc, foldl_addMissing_foldl,
    SeverityTable.insertAll_insertAll, Option.orElse_eq_orElse, Option.orElse_eq_or, Option.or_assoc]

/-- A configuration laid over itself disables its rules twice, and nothing else happens. -/
theorem merge_self (a : Config) :
    a.merge a =
      { a with rules := { a.rules with disabled := a.rules.disabled ++ a.rules.disabled } } := by
  simp only [merge, ite_self, Bool.and_self, foldl_addMissing_self, SeverityTable.insertAll_self,
    Option.orElse_eq_orElse, Option.orElse_eq_or, Option.or_self]

/-- A configuration laid over the defaults is that configuration, which excludes the default patterns
too. -/
theorem default_merge (a : Config) :
    merge {} a =
      { a with
        files :=
          { exclude := ({} : FilesConfig).exclude
              ++ (a.files.exclude.filter (· ∉ ({} : FilesConfig).exclude)).eraseDups } } := by
  simp only [merge, lastOther_default, Bool.true_and, foldl_addMissing, List.nil_append,
    SeverityTable.empty_insertAll, Option.orElse_eq_orElse, Option.orElse_eq_or, Option.or_none]

/-- **Layers of settings compose.**  It does not matter which of three layers are put together first.
A layer that is laid a second time only has its disabled rules listed again at the end.  A layer over
the defaults is that layer, with the patterns that it adds listed behind the default ones. -/
theorem merge_layers (a b c : Config) :
    (a.merge b).merge c = a.merge (b.merge c) ∧
      (a.merge b).merge b =
        { a.merge b with
          rules :=
            { (a.merge b).rules with
              disabled := (a.merge b).rules.disabled ++ b.rules.disabled } } ∧
      merge {} c =
        { c with
          files :=
            { exclude := ({} : FilesConfig).exclude
                ++ (c.files.exclude.filter (· ∉ ({} : FilesConfig).exclude)).eraseDups } } := by
  refine ⟨merge_assoc a b c, ?_, default_merge c⟩
  rw [merge_assoc, merge_self]
  simp only [merge, List.append_assoc]

end Config

end SnippetLint
