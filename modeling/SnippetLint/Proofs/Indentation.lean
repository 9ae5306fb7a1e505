/-
The lines reported for their indentation are lines of the text, in its order, and all are reported
alike.
-/
import SnippetLint.Indentation
import SnippetLint.Proofs.LineEndings.Checks
import SnippetLint.Proofs.Order.Checks
import SnippetLint.Proofs.Placement
import SnippetLint.Proofs.Wording

namespace SnippetLint.Indentation

theorem inconsistent_sound : Check.Sound inconsistent := by
  intro t
  unfold inconsistent
  split
  · exact yields_pure (by simp [Finding.AllPlaced])
  · rename_i first n rest hlines
    refine yields_pure fun f hf => ?_
    obtain ⟨⟨line, number⟩, hmem, rfl⟩ := List.mem_map.mp hf
    have hline : (line, number) ∈ (first, n) :: rest :=
      List.mem_cons_of_mem _ (List.mem_filter.mp hmem).1
    rw [← hlines] at hline
    exact Finding.placed_onLine (List.mem_filter.mp hline).1 _

theorem inconsistent_wording {P : String → Prop}
    (h : ∀ number line, OneLine number → OneLine line →
      P ("Inconsistent indentation at line " ++ number ++ ": \"" ++ line ++ "\"")) :
    Check.Says P inconsistent := by
  intro t
  unfold inconsistent
  split
  · exact gives_pure Finding.allSay_nil
  · rename_i first n rest hlines
    refine gives_pure (Finding.map_wording fun ⟨line, number⟩ hmem => ?_)
    have hline : (line, number) ∈ (first, n) :: rest :=
      List.mem_cons_of_mem _ (List.mem_filter.mp hmem).1
    rw [← hlines] at hline
    have hfeed := Text.newline_notMem_of_mem_numberedLines (List.mem_filter.mp hline).1
    exact h _ _ (.toString number) (.trim hfeed)

theorem inconsistent_steady : Check.Steady inconsistent := by
  refine Check.steady_of_eq fun t ht => ?_
  rw [inconsistent, Text.numberedLines_crlf ht]
  rfl

theorem inconsistent_ordered : Check.Ordered inconsistent := by
  intro t
  unfold inconsistent
  split
  · exact gives_pure .nil
  · rename_i first n rest hlines
    have hall : Text.Growing ((first, n) :: rest) := by
      rw [← hlines]
      exact (Text.growing_numberedLines t).filter _
    exact gives_pure (Finding.map_inOrder (List.Pairwise.filter _ hall.of_cons) fun _ => rfl)

end SnippetLint.Indentation
