/-
What can be seen of files without opening them.

The outline of a tree is the tree with all its files emptied.  Whatever asks only where a path leads
to, what kind of thing is there and which names a directory has, gets the same answer from the outline:
`walk` passes through directories and never looks into a file (`walk_outline`), and everything else
asks `walk`.  So the files that a wildcard stands for and the configuration file that a directory has
do not depend on what is in any file.
-/
import SnippetLint.Config.Files
import SnippetLint.Proofs.Except
import SnippetLint.Wildcard.Expand

namespace SnippetLint

/-! ### Trees -/

namespace FileTree

mutual

/-- A tree with its files emptied. -/
def outline : FileTree → FileTree
  | file _ => file .empty
  | directory entries => directory (entriesOutline entries)

def entriesOutline : List (String × FileTree) → List (String × FileTree)
  | [] => []
  | (name, t) :: rest => (name, t.outline) :: entriesOutline rest

end

theorem isFile_outline (t : FileTree) : t.outline.isFile = t.isFile := by
  cases t <;> rfl

theorem isDirectory_outline (t : FileTree) : t.outline.isDirectory = t.isDirectory := by
  cases t <;> rfl

section

variable (entries : List (String × FileTree))

theorem map_fst_entriesOutline :
    (entriesOutline entries).map Prod.fst = entries.map Prod.fst := by
  induction entries with
  | nil => rfl
  | cons entry rest ih => rw [entriesOutline, List.map_cons, List.map_cons, ih]

theorem lookup_entriesOutline (name : String) :
    (entriesOutline entries).lookup name = (entries.lookup name).map outline := by
  induction entries with
  | nil => rfl
  | cons entry rest ih =>
      rw [entriesOutline, List.lookup_cons, List.lookup_cons, ih]
      cases name == entry.1 <;> rfl

end

mutual

theorem depth_outline : ∀ t : FileTree, t.outline.depth = t.depth
  | file _ => rfl
  | directory entries => by rw [outline, depth, depth, entriesDepth_entriesOutline entries]

theorem entriesDepth_entriesOutline :
    ∀ entries, entriesDepth (entriesOutline entries) = entriesDepth entries
  | [] => rfl
  | (_, t) :: rest => by
      rw [entriesOutline, entriesDepth, entriesDepth, depth_outline t,
        entriesDepth_entriesOutline rest]

end

/-- A walk through the outline ends in the outline of what is there. -/
theorem walk_outline (above : List FileTree) (here : FileTree) (names : List String) :
    walk (above.map outline) here.outline names = (walk above here names).map outline := by
  induction names generalizing above here with
  | nil => rfl
  | cons name rest ih =>
      cases here with
      | file content => rfl
      | directory entries =>
          have hhere := ih above (directory entries)
          rw [outline] at hhere
          rw [outline, walk.eq_def, walk.eq_def]
          dsimp only
          split
          · exact hhere
          · split
            · cases above with
              | nil => exact hhere
              | cons outer further => exact ih further outer
            · split
              · rfl
              · rw [lookup_entriesOutline]
                cases entries.lookup name with
                | none => rfl
                | some inner => exact ih (directory entries :: above) inner

end FileTree

/-! ### Disks -/

namespace FileSystem

/-- A disk with its files emptied. -/
def outline (s : FileSystem) : FileSystem := { s with root := s.root.outline }

variable (s : FileSystem)

theorem locate_outline (path : String) :
    s.outline.locate path = (s.locate path).map FileTree.outline := by
  unfold locate
  split
  · rfl
  · split
    · rfl
    · split
      · rfl
      · split
        · exact FileTree.walk_outline [] s.root (names path)
        · exact FileTree.walk_outline [] s.root (s.working ++ names path)

theorem isFile_outline (path : String) : s.outline.isFile path = s.isFile path := by
  rw [isFile, isFile, locate_outline]
  cases s.locate path with
  | error e => rfl
  | ok found => exact found.isFile_outline

theorem isDirectory_outline (path : String) : s.outline.isDirectory path = s.isDirectory path := by
  rw [isDirectory, isDirectory, locate_outline]
  cases s.locate path with
  | error e => rfl
  | ok found => exact found.isDirectory_outline

theorem isThere_outline (path : String) : s.outline.isThere path = s.isThere path := by
  rw [isThere, isThere, locate_outline]
  cases s.locate path <;> rfl

theorem listing_outline (path : String) : s.outline.listing path = s.listing path := by
  rw [listing, listing, locate_outline]
  cases s.locate path with
  | error e => rfl
  | ok found =>
      cases found with
      | file content => rfl
      | directory entries =>
          exact congrArg (·.mergeSort fun a b => !decide (b < a))
            (FileTree.map_fst_entriesOutline entries)

end FileSystem

/-! ### Wildcards -/

namespace Wildcard

variable (s : FileSystem)

theorem reach_outline (path : String) (pending : List (List Part)) :
    reach s.outline path pending = reach s path pending := by
  induction pending generalizing path with
  | nil => rfl
  | cons parts rest ih =>
      simp only [reach, s.isDirectory_outline, s.isThere_outline, s.listing_outline, ih]

theorem follow_outline (directoriesOnly : Bool) (steps : Nat) :
    follow s.outline directoriesOnly steps = follow s directoriesOnly steps := by
  induction steps with
  | zero => rfl
  | succ steps ih =>
      funext candidate
      simp only [follow, s.isDirectory_outline, reach_outline, ih]

theorem expand_outline (wildcard : String) : expand s.outline wildcard = expand s wildcard := by
  have hdepth : s.outline.root.depth = s.root.depth := s.root.depth_outline
  simp only [expand, hdepth, reach_outline, follow_outline]

/-- What a wildcard begins with says where it starts; this is what is behind that. -/
def relative : List Char → List Char
  | '/' :: rest => rest
  | text => text

theorem relative_of_ne {text : List Char} (h : ∀ rest, text ≠ '/' :: rest) : relative text = text := by
  unfold relative
  split
  · exact absurd rfl (h _)
  · rfl

/-- A wildcard can be read, as a whole and name by name. -/
def IsValid (wildcard : String) : Prop :=
  (parse wildcard.toList).isOk = true ∧
    ∀ name ∈ names (relative wildcard.toList), (parse name).isOk = true

/-- Whether a wildcard stands for files, be it for none, is told by its text. -/
theorem exists_expand_iff (wildcard : String) :
    (∃ paths, expand s wildcard = .ok paths) ↔ IsValid wildcard := by
  unfold expand IsValid
  generalize wildcard.toList = text
  -- The two ways in which a wildcard may start differ in what they hand on, not in what is read.
  have hread : ∀ start inner, (∃ paths,
      (do
        let _ ← parse text
        let pending ← (names inner).mapM parse
        return (reach s start pending).flatMap (follow s (text.getLast? == some '/')
          ((pending.length + 1) * (s.root.depth + 2))) : Except Error (List String)) = .ok paths) ↔
        (parse text).isOk = true ∧ ∀ name ∈ names inner, (parse name).isOk = true := by
    intro start inner
    simp only [isOk_iff, ← exists_mapM_iff, bind_eq_ok_iff]
    constructor
    · rintro ⟨-, parts, hparts, pending, hpending, -⟩
      exact ⟨⟨parts, hparts⟩, pending, hpending⟩
    · rintro ⟨⟨parts, hparts⟩, pending, hpending⟩
      exact ⟨_, parts, hparts, pending, hpending, rfl⟩
  dsimp only
  split
  · exact hread "/" _
  · rename_i hother
    rw [relative_of_ne hother]
    exact hread "." text

end Wildcard

/-! ### Configuration files -/

theorem Config.findIn_outline (s : FileSystem) (directory : String) :
    findIn s.outline directory = findIn s directory := by
  unfold findIn
  simp only [funext s.isFile_outline]

end SnippetLint
