/-
Severity overrides: a table from rule ids to severities.

A rule id is entered at most once, which the table carries as a proof, so two tables with the same
entries in the same order are equal and a look-up does not depend on where it starts.
-/
import SnippetLint.Diagnostic

namespace SnippetLint

/-- Entries of which the one for `id` is replaced, or added at the end if there is none. -/
def replaceEntry (id : String) (severity : Severity) :
    List (String × Severity) → List (String × Severity)
  | [] => [(id, severity)]
  | entry :: rest =>
    if entry.1 = id then (id, severity) :: rest else entry :: replaceEntry id severity rest

theorem fst_mem_replaceEntry {id id' : String} {severity : Severity} :
    ∀ {entries : List (String × Severity)},
      id' ∈ (replaceEntry id severity entries).map Prod.fst →
        id' = id ∨ id' ∈ entries.map Prod.fst := by
  intro entries
  induction entries with
  | nil => intro h; simpa [replaceEntry] using h
  | cons entry rest ih =>
      intro h
      unfold replaceEntry at h
      split at h
      · simp only [List.map_cons, List.mem_cons] at h
        rcases h with h | h
        · exact .inl h
        · exact .inr (by simp [h])
      · simp only [List.map_cons, List.mem_cons] at h
        rcases h with h | h
        · exact .inr (by simp [h])
        · rcases ih h with h | h
          · exact .inl h
          · exact .inr (List.mem_cons_of_mem _ h)

theorem nodup_replaceEntry (id : String) (severity : Severity) :
    ∀ entries : List (String × Severity), (entries.map Prod.fst).Nodup →
      ((replaceEntry id severity entries).map Prod.fst).Nodup := by
  intro entries
  induction entries with
  | nil => intro _; simp [replaceEntry]
  | cons entry rest ih =>
      intro h
      rw [List.map_cons, List.nodup_cons] at h
      unfold replaceEntry
      split
      · rename_i heq
        rw [List.map_cons, List.nodup_cons]
        exact ⟨by simpa [← heq] using h.1, h.2⟩
      · rename_i hne
        rw [List.map_cons, List.nodup_cons]
        refine ⟨fun hmem => ?_, ih h.2⟩
        rcases fst_mem_replaceEntry hmem with h' | h'
        · exact hne h'
        · exact h.1 h'

structure SeverityTable where
  entries : List (String × Severity)
  nodup : (entries.map Prod.fst).Nodup

namespace SeverityTable

/-- The table without entries. -/
def empty : SeverityTable := ⟨[], by simp⟩

/-- With an entry, which replaces the one that its rule id had. -/
def insert (table : SeverityTable) (id : String) (severity : Severity) : SeverityTable :=
  ⟨replaceEntry id severity table.entries, nodup_replaceEntry id severity _ table.nodup⟩

/-- With several entries, one after another. -/
def insertAll (table : SeverityTable) (entries : List (String × Severity)) : SeverityTable :=
  entries.foldl (fun table (id, severity) => table.insert id severity) table

/-- The table of some entries; of two for one rule id the later counts. -/
def ofList (entries : List (String × Severity)) : SeverityTable := empty.insertAll entries

/-- The severity entered for a rule id. -/
def get? (table : SeverityTable) (id : String) : Option Severity := table.entries.lookup id

end SeverityTable

end SnippetLint
