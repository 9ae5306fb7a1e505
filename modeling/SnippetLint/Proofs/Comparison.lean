/-
The scan for loose operators finishes and finds exactly the loose operators.

What a loose operator is can be said of the bytes at one offset: two equals signs that are a maximal
run, or an exclamation mark with a run of a single one behind it (`OccursAt`).  The scan moves on by
one byte, by two, by three or past a whole run, and what it leaves behind never holds an operator.
That is so from every index, inside of a run too, so the loop needs no invariant about where it can
stand (`scanFrom_exact`).

The scan walks over bytes, and nothing in it says where characters begin.  What makes its offsets
places is that both signs it records are ASCII: such a byte is the first of a character, since no
later byte of a longer character is one (`isPlace_of_byte`).
-/
import SnippetLint.Comparison
import SnippetLint.Proofs.Order.Checks
import SnippetLint.Proofs.Placement

namespace SnippetLint

/-- A byte that can only stand at the front of a character stands at a place. -/
theorem Text.isPlace_of_byte {t : Text} {offset : Nat} {b : UInt8}
    (h : (Text.bytes t)[offset]? = some b) (hb : b.IsUTF8FirstByte) : t.IsPlace offset := by
  rw [Text.bytes, List.getElem?_toArray] at h
  induction t generalizing offset with
  | nil => simp at h
  | cons c rest ih =>
      have hlength := String.length_utf8EncodeChar c
      rw [List.flatMap_cons] at h
      by_cases hlt : offset < (String.utf8EncodeChar c).length
      · rw [List.getElem?_append_left hlt, List.getElem?_eq_getElem hlt] at h
        have hfirst : (String.utf8EncodeChar c)[offset].IsUTF8FirstByte := by
          rw [Option.some.inj h]
          exact hb
        rw [UInt8.isUTF8FirstByte_getElem_utf8EncodeChar] at hfirst
        exact ⟨[], c, rest, rfl, hfirst⟩
      · rw [List.getElem?_append_right (Nat.le_of_not_lt hlt)] at h
        obtain ⟨pre, d, post, hrest, hoffset⟩ := ih h
        refine ⟨c :: pre, d, post, by rw [hrest]; rfl, ?_⟩
        rw [Text.size_cons]
        omega

namespace LooseOperator

/-! ### Operators in the bytes of a text -/

/-- Equals signs from an offset on, with none before them and none behind. -/
structure EqualsRun (bytes : Array UInt8) (offset length : Nat) : Prop where
  isEquals : ∀ k < length, bytes[offset + k]? = some equalsSign
  ends : bytes[offset + length]? ≠ some equalsSign
  begins : ∀ k, k + 1 = offset → bytes[k]? ≠ some equalsSign

/-- Where a loose operator stands: two equals signs alone, behind none of the signs that make
another operator of them, or an exclamation mark and a single equals sign. -/
def OccursAt (bytes : Array UInt8) (offset : Nat) : LooseOperator → Prop
  | equal => EqualsRun bytes offset 2 ∧
      ∀ k, k + 1 = offset → bytes[k]? ∉ [some exclamationMark, some '<'.toUInt8, some '>'.toUInt8]
  | unequal => bytes[offset]? = some exclamationMark ∧ EqualsRun bytes (offset + 1) 1

section

variable {bytes : Array UInt8} {p : Nat} {op op' : LooseOperator}

theorem joinsEquals_iff {b : UInt8} :
    joinsEquals b = true ↔
      b = equalsSign ∨ b = exclamationMark ∨ b = '<'.toUInt8 ∨ b = '>'.toUInt8 := by
  simp [joinsEquals, or_assoc]

theorem occursAt_equal_iff :
    OccursAt bytes p equal ↔ bytes[p]? = some equalsSign ∧ bytes[p + 1]? = some equalsSign ∧
      bytes[p + 2]? ≠ some equalsSign ∧
        ∀ k b, k + 1 = p → bytes[k]? = some b → joinsEquals b = false := by
  constructor
  · rintro ⟨hrun, hbefore⟩
    refine ⟨hrun.isEquals 0 (by decide), hrun.isEquals 1 (by decide), hrun.ends, ?_⟩
    intro k b hk hb
    have hnot := hbefore k hk
    have hrunBegins := hrun.begins k hk
    rw [hb] at hnot hrunBegins
    simp only [List.mem_cons, Option.some.injEq, List.not_mem_nil, or_false] at hnot
    simp only [ne_eq, Option.some.injEq] at hrunBegins
    rw [← Bool.not_eq_true, joinsEquals_iff]
    exact not_or.mpr ⟨hrunBegins, hnot⟩
  · rintro ⟨hfirst, hsecond, hthird, hbefore⟩
    have hrun : ∀ k < 2, bytes[p + k]? = some equalsSign
      | 0, _ => hfirst
      | 1, _ => hsecond
    have hnot : ∀ k b, k + 1 = p → joinsEquals b = true → bytes[k]? ≠ some b := by
      intro k b hk hjoins hb
      rw [hbefore k b hk hb] at hjoins
      exact Bool.false_ne_true hjoins
    refine ⟨⟨hrun, hthird, fun k hk => hnot k _ hk (by decide)⟩, fun k hk hmem => ?_⟩
    simp only [List.mem_cons, List.not_mem_nil, or_false] at hmem
    rcases hmem with hb | hb | hb
    · exact hnot k _ hk (by decide) hb
    · exact hnot k _ hk (by decide) hb
    · exact hnot k _ hk (by decide) hb

theorem occursAt_unequal_iff :
    OccursAt bytes p unequal ↔ bytes[p]? = some exclamationMark ∧
      bytes[p + 1]? = some equalsSign ∧ bytes[p + 2]? ≠ some equalsSign := by
  constructor
  · rintro ⟨hmark, hrun⟩
    exact ⟨hmark, hrun.isEquals 0 (by decide), hrun.ends⟩
  · rintro ⟨hmark, hsign, hnext⟩
    refine ⟨hmark, fun k hk => ?_, hnext, fun k hk => ?_⟩
    · rw [Nat.lt_one_iff.mp hk]
      exact hsign
    · rw [Nat.succ.inj hk, hmark]
      decide

/-- Both operators end in an equals sign. -/
theorem OccursAt.second (h : OccursAt bytes p op) : bytes[p + 1]? = some equalsSign := by
  cases op with
  | equal => exact (occursAt_equal_iff.mp h).2.1
  | unequal => exact (occursAt_unequal_iff.mp h).2.1

theorem OccursAt.not_longer (h : OccursAt bytes p op) : bytes[p + 2]? ≠ some equalsSign := by
  cases op with
  | equal => exact (occursAt_equal_iff.mp h).2.2.1
  | unequal => exact (occursAt_unequal_iff.mp h).2.2

theorem OccursAt.first_cases (h : OccursAt bytes p op) :
    bytes[p]? = some equalsSign ∧ op = equal ∨ bytes[p]? = some exclamationMark ∧ op = unequal := by
  cases op with
  | equal => exact .inl ⟨(occursAt_equal_iff.mp h).1, rfl⟩
  | unequal => exact .inr ⟨(occursAt_unequal_iff.mp h).1, rfl⟩

theorem OccursAt.unique (h : OccursAt bytes p op) (h' : OccursAt bytes p op') : op = op' := by
  have hsigns : (some equalsSign : Option UInt8) ≠ some exclamationMark := by decide
  rcases h.first_cases with ⟨hb, rfl⟩ | ⟨hb, rfl⟩ <;>
    rcases h'.first_cases with ⟨hb', rfl⟩ | ⟨hb', rfl⟩
  · rfl
  · exact absurd (hb.symm.trans hb') hsigns
  · exact absurd (hb'.symm.trans hb) hsigns
  · rfl

/-- An equals sign behind a sign that joins it begins no operator. -/
theorem not_occursAt_of_joins {b : UInt8} (hbefore : bytes[p]? = some b)
    (hjoins : joinsEquals b = true) (hsign : bytes[p + 1]? = some equalsSign)
    (op : LooseOperator) : ¬ OccursAt bytes (p + 1) op := by
  intro h
  rcases h.first_cases with ⟨-, rfl⟩ | ⟨hmark, -⟩
  · have hnot := (occursAt_equal_iff.mp h).2.2.2 p b rfl hbefore
    rw [hjoins] at hnot
    exact Bool.false_ne_true hnot.symm
  · exact absurd (hsign.symm.trans hmark) (by decide)

/-- The sign at the front of an operator is ASCII. -/
theorem OccursAt.isPlace {t : Text} (h : OccursAt (Text.bytes t) p op) : t.IsPlace p := by
  rcases h.first_cases with ⟨hb, -⟩ | ⟨hb, -⟩
  · exact Text.isPlace_of_byte hb (by decide)
  · exact Text.isPlace_of_byte hb (by decide)

end

/-! ### What one step reads -/

section

variable {bytes : Array UInt8} {i : Nat}

theorem byteAt_eq_ok (h : i < bytes.size) : byteAt bytes i = .ok bytes[i] := by
  simp [byteAt, h]

theorem yields_byteAt (h : i < bytes.size) : Yields (byteAt bytes i) fun b => bytes[i]? = some b :=
  ⟨_, byteAt_eq_ok h, by simp [h]⟩

/-- The byte before an index joins the signs there if there is such a byte and it does. -/
theorem yields_byteBefore (h : i < bytes.size) :
    Yields (byteBefore bytes i) fun b =>
      joinsEquals b = true ↔ ∃ k b', k + 1 = i ∧ bytes[k]? = some b' ∧ joinsEquals b' = true := by
  unfold byteBefore
  cases i with
  | zero => exact yields_pure (by simp [joinsEquals]; decide)
  | succ k =>
      rw [if_pos (Nat.succ_pos k), difference, if_pos (Nat.le_add_left 1 k)]
      have hlt : k < bytes.size := Nat.lt_of_succ_lt h
      obtain ⟨b, hok, hb⟩ := yields_byteAt hlt
      refine ⟨b, hok, ⟨fun hjoins => ⟨k, b, rfl, hb, hjoins⟩, ?_⟩⟩
      rintro ⟨k', b', hk, hb', hjoins⟩
      rw [Nat.succ.inj hk, hb] at hb'
      rwa [Option.some.inj hb']

/-- What is skipped are equals signs. -/
theorem getElem?_of_lt_skipEquals {k : Nat} (hle : i ≤ k) (hlt : k < skipEquals bytes i) :
    bytes[k]? = some equalsSign := by
  fun_induction skipEquals bytes i with
  | case1 i hsign _ ih =>
      rcases Nat.eq_or_lt_of_le hle with rfl | hless
      · exact hsign
      · exact ih hless hlt
  | case2 i _ => exact absurd hlt (Nat.not_lt_of_le hle)

end

/-! ### The scan -/

/-- The recorded operators are those that stand at an index or behind it, from left to right. -/
structure ExactFrom (bytes : Array UInt8) (i : Nat) (ops : List (Nat × LooseOperator)) : Prop where
  ascending : ops.Pairwise fun a b => a.1 < b.1
  mem_iff : ∀ p op, (p, op) ∈ ops ↔ i ≤ p ∧ OccursAt bytes p op

namespace ExactFrom

variable {bytes : Array UInt8} {i j : Nat} {ops : List (Nat × LooseOperator)}

/-- Moving on, where no operator is left behind. -/
theorem skip (h : ExactFrom bytes j ops) (hle : i ≤ j)
    (hnone : ∀ p op, i ≤ p → p < j → ¬ OccursAt bytes p op) : ExactFrom bytes i ops := by
  refine ⟨h.ascending, fun p op => ?_⟩
  rw [h.mem_iff]
  refine ⟨fun ⟨hj, hop⟩ => ⟨Nat.le_trans hle hj, hop⟩, fun ⟨hi, hop⟩ => ⟨?_, hop⟩⟩
  exact Nat.le_of_not_lt fun hlt => hnone p op hi hlt hop

/-- Recording the operator at an index, where no other is left behind. -/
theorem record {op : LooseOperator} (h : ExactFrom bytes j ops) (hlt : i < j)
    (hop : OccursAt bytes i op) (hnone : ∀ p op, i < p → p < j → ¬ OccursAt bytes p op) :
    ExactFrom bytes i ((i, op) :: ops) := by
  have hrest : ExactFrom bytes (i + 1) ops := h.skip hlt hnone
  refine ⟨.cons (fun later hlater => (hrest.mem_iff later.1 later.2).mp hlater |>.1) h.ascending, ?_⟩
  intro p op'
  rw [List.mem_cons, hrest.mem_iff, Prod.mk.injEq]
  constructor
  · rintro (⟨rfl, rfl⟩ | ⟨hp, hop'⟩)
    · exact ⟨Nat.le_refl _, hop⟩
    · exact ⟨Nat.le_of_succ_le hp, hop'⟩
  · rintro ⟨hp, hop'⟩
    rcases Nat.eq_or_lt_of_le hp with rfl | hless
    · exact .inl ⟨rfl, hop'.unique hop⟩
    · exact .inr ⟨hless, hop'⟩

/-! ### The steps of the scan -/

theorem not_occursAt_inside (hfirst : bytes[i]? = some equalsSign)
    (hsecond : bytes[i + 1]? = some equalsSign) {p : Nat} (hip : i < p)
    (hp : p < skipEquals bytes (i + 2)) (op : LooseOperator) : ¬ OccursAt bytes p op := by
  have hrun : ∀ k, i ≤ k → k < skipEquals bytes (i + 2) → bytes[k]? = some equalsSign := by
    intro k hik hk
    by_cases hlt : k < i + 2
    · obtain rfl | rfl : k = i ∨ k = i + 1 := by omega
      · exact hfirst
      · exact hsecond
    · exact getElem?_of_lt_skipEquals (Nat.le_of_not_lt hlt) hk
  obtain ⟨k, rfl⟩ : ∃ k, p = k + 1 := ⟨p - 1, by omega⟩
  exact not_occursAt_of_joins (hrun k (by omega) (by omega)) (by decide)
    (hrun (k + 1) (by omega) hp) op

/-- A run that is too long, or joined from before, is left behind as a whole. -/
theorem skipRun (hfirst : bytes[i]? = some equalsSign) (hsecond : bytes[i + 1]? = some equalsSign)
    (hpart : bytes[i + 2]? = some equalsSign ∨
      ∃ k b, k + 1 = i ∧ bytes[k]? = some b ∧ joinsEquals b = true)
    (h : ExactFrom bytes (skipEquals bytes (i + 2)) ops) : ExactFrom bytes i ops := by
  have hskip := le_skipEquals bytes (i + 2)
  refine h.skip (by omega) fun p op hip hp hop => ?_
  rcases Nat.eq_or_lt_of_le hip with rfl | hless
  · rcases hpart with hnext | ⟨k, b, rfl, hb, hjoins⟩
    · exact hop.not_longer hnext
    · exact not_occursAt_of_joins hb hjoins hfirst op hop
  · exact not_occursAt_inside hfirst hsecond hless hp op hop

theorem recordEqual (hfirst : bytes[i]? = some equalsSign)
    (hsecond : bytes[i + 1]? = some equalsSign)
    (halone : ¬ (bytes[i + 2]? = some equalsSign ∨
      ∃ k b, k + 1 = i ∧ bytes[k]? = some b ∧ joinsEquals b = true))
    (h : ExactFrom bytes (i + 2) ops) : ExactFrom bytes i ((i, equal) :: ops) := by
  obtain ⟨hnext, hjoins⟩ := not_or.mp halone
  have hop : OccursAt bytes i equal := by
    refine occursAt_equal_iff.mpr ⟨hfirst, hsecond, hnext, fun k b hk hb => ?_⟩
    exact Bool.eq_false_iff.mpr fun hjoinsIt => hjoins ⟨k, b, hk, hb, hjoinsIt⟩
  refine h.record (by omega) hop fun p op hip hp => ?_
  have hskip := le_skipEquals bytes (i + 2)
  exact not_occursAt_inside hfirst hsecond hip (by omega) op

theorem skipUnequal (hfirst : bytes[i]? = some exclamationMark)
    (hsecond : bytes[i + 1]? = some equalsSign) (hnext : bytes[i + 2]? = some equalsSign)
    (h : ExactFrom bytes (i + 3) ops) : ExactFrom bytes i ops := by
  refine h.skip (by omega) fun p op hip hp hop => ?_
  obtain rfl | rfl | rfl : p = i ∨ p = i + 1 ∨ p = i + 2 := by omega
  · exact hop.not_longer hnext
  · exact not_occursAt_of_joins hfirst (by decide) hsecond op hop
  · exact not_occursAt_of_joins hsecond (by decide) hnext op hop

theorem recordUnequal (hfirst : bytes[i]? = some exclamationMark)
    (hsecond : bytes[i + 1]? = some equalsSign) (hnext : bytes[i + 2]? ≠ some equalsSign)
    (h : ExactFrom bytes (i + 2) ops) : ExactFrom bytes i ((i, unequal) :: ops) := by
  refine h.record (by omega) (occursAt_unequal_iff.mpr ⟨hfirst, hsecond, hnext⟩) ?_
  intro p op hip hp
  obtain rfl : p = i + 1 := by omega
  exact not_occursAt_of_joins hfirst (by decide) hsecond op

/-- Two bytes that are neither of the operators. -/
theorem pass {first second : UInt8} (hfirst : bytes[i]? = some first)
    (hsecond : bytes[i + 1]? = some second)
    (hequal : ¬ (first = equalsSign ∧ second = equalsSign))
    (hunequal : ¬ (first = exclamationMark ∧ second = equalsSign))
    (h : ExactFrom bytes (i + 1) ops) : ExactFrom bytes i ops := by
  refine h.skip (Nat.le_succ i) fun p op hip hp hop => ?_
  obtain rfl : p = i := by omega
  have hsign : second = equalsSign := Option.some.inj (hsecond.symm.trans hop.second)
  rcases hop.first_cases with ⟨hb, -⟩ | ⟨hb, -⟩
  · exact hequal ⟨Option.some.inj (hfirst.symm.trans hb), hsign⟩
  · exact hunequal ⟨Option.some.inj (hfirst.symm.trans hb), hsign⟩

/-- Both operators are two bytes long. -/
theorem stop (hshort : ¬ i + 1 < bytes.size) : ExactFrom bytes i [] := by
  refine ⟨.nil, fun p op => iff_of_false List.not_mem_nil fun ⟨hip, hop⟩ => ?_⟩
  obtain ⟨hlt, -⟩ := Array.getElem?_eq_some_iff.mp hop.second
  omega

end ExactFrom

/-- **The scan finds exactly the operators that are left.**  The induction is on the bytes left: each
step moves on by one byte, by two, by three, or past a whole run. -/
theorem scanFrom_exact (bytes : Array UInt8) (i : Nat) :
    Yields (scanFrom bytes i) (ExactFrom bytes i) := by
  induction hleft : bytes.size - i using Nat.strongRecOn generalizing i with
  | ind left ih =>
      have hlater : ∀ j, i < j → i < bytes.size → Yields (scanFrom bytes j) (ExactFrom bytes j) :=
        fun j hij hi => ih (bytes.size - j) (by omega) j rfl
      unfold scanFrom
      split
      · rename_i h
        have hi : i < bytes.size := by omega
        refine (yields_byteAt hi).bind fun first hfirst => ?_
        refine (yields_byteAt h).bind fun second hsecond => ?_
        simp only [Bool.and_eq_true, beq_iff_eq, Bool.or_eq_true]
        split
        · rename_i hequals
          obtain ⟨rfl, rfl⟩ := hequals
          refine (yields_byteBefore hi).bind fun prior hprior => ?_
          split
          · rename_i hpart
            rw [hprior] at hpart
            have hskip := le_skipEquals bytes (i + 2)
            exact (hlater _ (by omega) hi).imp fun ops h => h.skipRun hfirst hsecond hpart
          · rename_i halone
            rw [hprior] at halone
            refine (hlater (i + 2) (by omega) hi).bind fun ops h => yields_pure ?_
            exact h.recordEqual hfirst hsecond halone
        · rename_i hequal
          split
          · rename_i hunequal
            obtain ⟨rfl, rfl⟩ := hunequal
            split
            · rename_i hnext
              exact (hlater (i + 3) (by omega) hi).imp fun ops h =>
                h.skipUnequal hfirst hsecond hnext
            · rename_i hnext
              refine (hlater (i + 2) (by omega) hi).bind fun ops h => yields_pure ?_
              exact h.recordUnequal hfirst hsecond hnext
          · rename_i hunequal
            exact (hlater (i + 1) (by omega) hi).imp fun ops h =>
              h.pass hfirst hsecond hequal hunequal
      · rename_i hshort
        exact yields_pure (.stop hshort)

theorem findAll_yields (t : Text) : Yields (findAll t) (ExactFrom (Text.bytes t) 0) :=
  scanFrom_exact _ 0

/-! ### Reports -/

/-- Reporting the loose operators of a text. -/
theorem findAll_sound (message : LooseOperator → String) :
    Check.Sound (fun t => do
      (← findAll t).mapM fun (offset, op) => Finding.atOffset t offset (message op)) := by
  refine fun t => (findAll_yields t).bind fun ops hops => yields_mapM fun op hop => ?_
  exact Finding.atOffset_sound ((hops.mem_iff ..).mp hop).2.isPlace (message op.2)

theorem findAll_ordered (message : LooseOperator → String) :
    Check.Ordered (fun t => do
      (← findAll t).mapM fun (offset, op) => Finding.atOffset t offset (message op)) := by
  refine fun t => (findAll_yields t).gives.bind fun ops hops => ?_
  exact Finding.atOffsets_inOrder Prod.fst (fun op => message op.2)
    (hops.ascending.imp Nat.le_of_lt)

end LooseOperator

end SnippetLint
