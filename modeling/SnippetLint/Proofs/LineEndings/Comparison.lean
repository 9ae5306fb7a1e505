/-
The scan for loose operators in both texts.

The scan is followed over the bytes of both texts, from places that correspond.  The signs it asks for
are not in a line ending, and no byte of a longer character is that of a line feed, so it moves on by
one byte over a line feed and by two over the line ending, and does the same elsewhere
(`scanFrom_signs_alike`).  It never stops inside a line ending: an operator is two bytes long, and the
second is an equals sign.
-/
import SnippetLint.Proofs.Comparison
import SnippetLint.Proofs.LineEndings.Checks

namespace SnippetLint

/-! ### Bytes -/

namespace Text

theorem toList_bytes_append (s t : Text) :
    (bytes (s ++ t)).toList = (bytes s).toList ++ (bytes t).toList := by simp [bytes]

theorem toList_bytes_cons (c : Char) (t : Text) :
    (bytes (c :: t)).toList = String.utf8EncodeChar c ++ (bytes t).toList := by simp [bytes]

theorem length_toList_bytes (t : Text) : (bytes t).toList.length = size t := by
  induction t with
  | nil => rfl
  | cons c rest ih =>
      rw [toList_bytes_cons, List.length_append, ih, String.length_utf8EncodeChar, size_cons]

end Text

namespace LooseOperator

/-- A byte for the carriage return before every byte for a line feed. -/
def crlfBytes : List UInt8 → List UInt8
  | [] => []
  | b :: rest =>
    if b = '\n'.toUInt8 then '\r'.toUInt8 :: '\n'.toUInt8 :: crlfBytes rest
    else b :: crlfBytes rest

theorem crlfBytes_newline (rest : List UInt8) :
    crlfBytes ('\n'.toUInt8 :: rest) = '\r'.toUInt8 :: '\n'.toUInt8 :: crlfBytes rest := rfl

theorem crlfBytes_cons {b : UInt8} (hb : b ≠ '\n'.toUInt8) (rest : List UInt8) :
    crlfBytes (b :: rest) = b :: crlfBytes rest := if_neg hb

theorem crlfBytes_append (l m : List UInt8) : crlfBytes (l ++ m) = crlfBytes l ++ crlfBytes m := by
  induction l with
  | nil => rfl
  | cons b rest ih =>
      by_cases hb : b = '\n'.toUInt8
      · rw [hb, List.cons_append, crlfBytes_newline, crlfBytes_newline, ih]
        rfl
      · rw [List.cons_append, crlfBytes_cons hb, crlfBytes_cons hb, ih]
        rfl

theorem crlfBytes_eq_self {l : List UInt8} (h : '\n'.toUInt8 ∉ l) : crlfBytes l = l := by
  induction l with
  | nil => rfl
  | cons b rest ih =>
      rw [List.mem_cons, not_or] at h
      rw [crlfBytes_cons (Ne.symm h.1), ih h.2]

/-- The byte of a line feed is part of no other character. -/
theorem newline_notMem_utf8EncodeChar {c : Char} (hc : c ≠ '\n') :
    '\n'.toUInt8 ∉ String.utf8EncodeChar c := by
  have hval : c.val.toNat ≠ 10 := fun h => hc (Char.ext (UInt32.toNat_inj.mp h))
  have hbyte : ∀ n : Nat, n % 256 ≠ 10 → '\n'.toUInt8 ≠ UInt8.ofNat n := by
    intro n hn h
    have htoNat := congrArg UInt8.toNat h
    rw [UInt8.toNat_ofNat'] at htoNat
    exact hn htoNat.symm
  unfold String.utf8EncodeChar
  dsimp only
  split
  · simp only [List.mem_cons, List.not_mem_nil, or_false]
    exact hbyte _ (by omega)
  · split
    · simp only [List.mem_cons, List.not_mem_nil, or_false, not_or]
      exact ⟨hbyte _ (by omega), hbyte _ (by omega)⟩
    · split
      · simp only [List.mem_cons, List.not_mem_nil, or_false, not_or]
        exact ⟨hbyte _ (by omega), hbyte _ (by omega), hbyte _ (by omega)⟩
      · simp only [List.mem_cons, List.not_mem_nil, or_false, not_or]
        exact ⟨hbyte _ (by omega), hbyte _ (by omega), hbyte _ (by omega), hbyte _ (by omega)⟩

theorem bytes_crlf (t : Text) :
    (Text.bytes (Text.crlf t)).toList = crlfBytes (Text.bytes t).toList := by
  induction t with
  | nil => rfl
  | cons c rest ih =>
      by_cases hc : c = '\n'
      · rw [hc, Text.crlf_newline, Text.toList_bytes_cons, Text.toList_bytes_cons,
          Text.toList_bytes_cons, crlfBytes_append, ih]
        rfl
      · rw [Text.crlf_cons hc, Text.toList_bytes_cons, Text.toList_bytes_cons, crlfBytes_append,
          crlfBytes_eq_self (newline_notMem_utf8EncodeChar hc), ih]

/-! ### One step of the scan, in terms of the bytes on either side of its place -/

section

variable {bytes : Array UInt8} {front rest : List UInt8} {b c : UInt8}

theorem getElem?_of_toList (h : bytes.toList = front ++ rest) (k : Nat) :
    bytes[front.length + k]? = rest[k]? := by
  rw [← Array.getElem?_toList, h, List.getElem?_append_right (Nat.le_add_right _ _),
    Nat.add_sub_cancel_left]

theorem size_of_toList (h : bytes.toList = front ++ rest) :
    bytes.size = front.length + rest.length := by
  rw [← Array.length_toList, h, List.length_append]

theorem byteAt_of_toList (h : bytes.toList = front ++ rest) {k : Nat} (hk : rest[k]? = some b) :
    byteAt bytes (front.length + k) = .ok b := by
  rw [byteAt, getElem?_of_toList h, hk]

theorem byteBefore_of_toList (h : bytes.toList = front ++ rest) :
    byteBefore bytes front.length = .ok (front.getLast?.getD ' '.toUInt8) := by
  cases front using List.reverseRecOn with
  | nil => rfl
  | append_singleton more b =>
      have hlast : byteAt bytes more.length = .ok b := by
        rw [List.append_assoc] at h
        exact byteAt_of_toList h (k := 0) rfl
      have hlength : (more ++ [b]).length = more.length + 1 := by simp
      rw [byteBefore, hlength, if_pos (Nat.succ_pos _), difference, if_pos (by omega)]
      simpa [bind, Except.bind] using hlast

theorem skipEquals_of_toList (h : bytes.toList = front ++ rest) :
    skipEquals bytes front.length = (front ++ rest.takeWhile (· == equalsSign)).length := by
  induction rest generalizing front with
  | nil =>
      have hend : bytes[front.length]? = none := getElem?_of_toList h 0
      rw [skipEquals, dif_neg (by simp [hend])]
      simp
  | cons b more ih =>
      have hhere : bytes[front.length]? = some b := getElem?_of_toList h 0
      by_cases hb : b = equalsSign
      · have hnext := @ih (front ++ [b]) (by rw [h, List.append_assoc]; rfl)
        rw [List.length_append, List.length_singleton] at hnext
        rw [skipEquals, dif_pos (by rw [hhere, hb]), hnext, hb]
        simp
      · rw [skipEquals, dif_neg (by simp [hhere, hb])]
        simp [hb]

theorem scanFrom_short (h : bytes.toList = front ++ rest) (hshort : rest.length < 2) :
    scanFrom bytes front.length = .ok [] := by
  have hsize := size_of_toList h
  rw [scanFrom, dif_neg (by omega)]
  rfl

/-- An operator at a place, put before those behind it. -/
def record (offset : Nat) (op : LooseOperator) (later : Checked (List (Nat × LooseOperator))) :
    Checked (List (Nat × LooseOperator)) := do return (offset, op) :: (← later)

/-- The scan as it goes on behind two signs, or behind the first of them. -/
theorem scanFrom_cons (h : bytes.toList = front ++ b :: c :: rest) :
    scanFrom bytes front.length =
      if b == equalsSign && c == equalsSign then
        if rest.head? == some equalsSign || joinsEquals (front.getLast?.getD ' '.toUInt8) then
          scanFrom bytes (front ++ b :: c :: rest.takeWhile (· == equalsSign)).length
        else record front.length equal (scanFrom bytes (front ++ [b, c]).length)
      else if b == exclamationMark && c == equalsSign then
        if rest.head? == some equalsSign then scanFrom bytes (front ++ [b, c, equalsSign]).length
        else record front.length unequal (scanFrom bytes (front ++ [b, c]).length)
      else scanFrom bytes (front ++ [b]).length := by
  have hsize := size_of_toList h
  have hfirst : byteAt bytes front.length = .ok b := byteAt_of_toList h (k := 0) rfl
  have hsecond : byteAt bytes (front.length + 1) = .ok c := byteAt_of_toList h rfl
  have hthird : bytes[front.length + 2]? = rest.head? := by
    rw [getElem?_of_toList h, List.head?_eq_getElem?]
    rfl
  have hskip : skipEquals bytes (front.length + 2) =
      (front ++ b :: c :: rest.takeWhile (· == equalsSign)).length := by
    have hbytes : bytes.toList = (front ++ [b, c]) ++ rest := by
      rw [h, List.append_assoc]
      rfl
    have hrun := skipEquals_of_toList hbytes
    rw [List.length_append] at hrun
    rw [List.append_assoc] at hrun
    exact hrun
  rw [scanFrom, dif_pos (by rw [hsize]; simp)]
  simp only [hfirst, hsecond, hthird, hskip, byteBefore_of_toList h, bind, Except.bind]
  have hone : (front ++ [b]).length = front.length + 1 := by simp
  have htwo : (front ++ [b, c]).length = front.length + 2 := by simp
  have hthree : (front ++ [b, c, equalsSign]).length = front.length + 3 := by simp
  rw [hone, htwo, hthree]
  rfl

/-- Where no operator can begin the scan moves on by one byte. -/
theorem scanFrom_pass (h : bytes.toList = front ++ b :: c :: rest)
    (hbc : c ≠ equalsSign ∨ (b ≠ equalsSign ∧ b ≠ exclamationMark)) :
    scanFrom bytes front.length = scanFrom bytes (front ++ [b]).length := by
  have hequal : (b == equalsSign && c == equalsSign) = false := by
    rcases hbc with hc | ⟨hb, -⟩ <;> simp [*]
  have hunequal : (b == exclamationMark && c == equalsSign) = false := by
    rcases hbc with hc | ⟨-, hb⟩ <;> simp [*]
  rw [scanFrom_cons h, hequal, hunequal]
  rfl

end

/-! ### The scan over both texts -/

section

/-- Operators at the same place of the bytes of both texts. -/
def SameSign (bytes : List UInt8) (op op' : Nat × LooseOperator) : Prop :=
  op'.2 = op.2 ∧ ∃ front rest, bytes = front ++ rest ∧ op.1 = front.length ∧
    op'.1 = (crlfBytes front).length

theorem head?_crlfBytes_beq (rest : List UInt8) :
    ((crlfBytes rest).head? == some equalsSign) = (rest.head? == some equalsSign) := by
  cases rest with
  | nil => rfl
  | cons b more =>
      by_cases hb : b = '\n'.toUInt8
      · rw [hb]
        rfl
      · rw [crlfBytes_cons hb]
        rfl

theorem getLast?_crlfBytes (front : List UInt8) : (crlfBytes front).getLast? = front.getLast? := by
  cases front using List.reverseRecOn with
  | nil => rfl
  | append_singleton more b =>
      rw [crlfBytes_append]
      by_cases hb : b = '\n'.toUInt8
      · rw [hb, crlfBytes_newline]
        simp [crlfBytes]
      · rw [crlfBytes_cons hb]
        simp [crlfBytes]

theorem takeWhile_crlfBytes (rest : List UInt8) :
    (crlfBytes rest).takeWhile (· == equalsSign) = rest.takeWhile (· == equalsSign) := by
  induction rest with
  | nil => rfl
  | cons b more ih =>
      by_cases hb : b = '\n'.toUInt8
      · rw [hb]
        rfl
      · rw [crlfBytes_cons hb, List.takeWhile_cons, List.takeWhile_cons, ih]

variable {bytes bytes' : Array UInt8}

theorem record_alike {l : List UInt8} {x x' : Nat} {op : LooseOperator}
    {later later' : Checked (List (Nat × LooseOperator))} (hop : SameSign l (x, op) (x', op))
    (h : Alike (List.Forall₂ (SameSign l)) later later') :
    Alike (List.Forall₂ (SameSign l)) (record x op later) (record x' op later') :=
  h.bind fun _ _ hops => alike_pure (.cons hop hops)

/-- Inside a line ending the scan of the second text moves on. -/
theorem scanFrom_crlf_newline {front rest : List UInt8}
    (h' : bytes'.toList = front ++ '\r'.toUInt8 :: '\n'.toUInt8 :: rest) (hrest : rest ≠ []) :
    scanFrom bytes' front.length =
      scanFrom bytes' (front ++ ['\r'.toUInt8, '\n'.toUInt8]).length := by
  obtain ⟨b, more, rfl⟩ := List.exists_cons_of_ne_nil hrest
  have hmid : bytes'.toList = (front ++ ['\r'.toUInt8]) ++ '\n'.toUInt8 :: b :: more := by
    rw [h', List.append_assoc]
    rfl
  rw [scanFrom_pass h' (.inl (by decide)), scanFrom_pass hmid (.inr (by decide)),
    List.append_assoc]
  rfl

theorem crlfBytes_ne_nil {l : List UInt8} (h : l ≠ []) : crlfBytes l ≠ [] := by
  obtain ⟨b, more, rfl⟩ := List.exists_cons_of_ne_nil h
  unfold crlfBytes
  split <;> simp

/-- Where no line ending begins with either of the next two bytes, the scan does the same in both. -/
theorem scanFrom_signs_alike {front rest : List UInt8} {b c : UInt8} (hb : b ≠ '\n'.toUInt8)
    (hc : c ≠ '\n'.toUInt8) (h : bytes.toList = front ++ b :: c :: rest)
    (h' : bytes'.toList = crlfBytes front ++ b :: c :: crlfBytes rest)
    (hlater : ∀ d mid later, b :: c :: rest = d :: mid ++ later →
      Alike (List.Forall₂ (SameSign bytes.toList)) (scanFrom bytes (front ++ d :: mid).length)
        (scanFrom bytes' (crlfBytes (front ++ d :: mid)).length)) :
    Alike (List.Forall₂ (SameSign bytes.toList)) (scanFrom bytes front.length)
      (scanFrom bytes' (crlfBytes front).length) := by
  have hlater : ∀ mid later, b :: c :: rest = b :: mid ++ later → '\n'.toUInt8 ∉ b :: mid →
      Alike (List.Forall₂ (SameSign bytes.toList)) (scanFrom bytes (front ++ b :: mid).length)
        (scanFrom bytes' (crlfBytes front ++ b :: mid).length) := by
    intro mid later heq hfeed
    have hmid := hlater b mid later heq
    rw [crlfBytes_append, crlfBytes_eq_self hfeed] at hmid
    exact hmid
  have hsame : ∀ op, SameSign bytes.toList (front.length, op) ((crlfBytes front).length, op) :=
    fun _ => ⟨rfl, front, _, h, rfl, rfl⟩
  have hfeed : ∀ mid : List UInt8, (∀ d ∈ mid, d = equalsSign) → '\n'.toUInt8 ∉ b :: c :: mid := by
    intro mid hmid hmem
    rcases List.mem_cons.mp hmem with rfl | hmem
    · exact hb rfl
    · rcases List.mem_cons.mp hmem with rfl | hmem
      · exact hc rfl
      · exact absurd (hmid _ hmem) (by decide)
  have hboth := hlater [c] rest rfl (hfeed [] (by simp))
  rw [scanFrom_cons h, scanFrom_cons h', head?_crlfBytes_beq, getLast?_crlfBytes,
    takeWhile_crlfBytes]
  split
  · split
    · refine hlater (c :: rest.takeWhile (· == equalsSign)) (rest.dropWhile (· == equalsSign)) ?_
        (hfeed _ fun d hd => ?_)
      · simp [List.takeWhile_append_dropWhile]
      · simpa using List.mem_takeWhile_imp hd
    · exact record_alike (hsame equal) hboth
  · split
    · split
      · rename_i hhead
        obtain ⟨tail, rfl⟩ : ∃ tail, rest = equalsSign :: tail :=
          List.head?_eq_some_iff.mp (beq_iff_eq.mp hhead)
        exact hlater [c, equalsSign] tail rfl (hfeed [equalsSign] (by simp))
      · exact record_alike (hsame unequal) hboth
    · exact hlater [] _ rfl (by simpa [eq_comm] using hb)

/-- No operator begins where there are fewer than two bytes left, nor does one in a line ending. -/
theorem scanFrom_short_alike {front rest : List UInt8} (h : bytes.toList = front ++ rest)
    (h' : bytes'.toList = crlfBytes front ++ crlfBytes rest) (hshort : rest.length < 2) :
    Alike (List.Forall₂ (SameSign bytes.toList)) (scanFrom bytes front.length)
      (scanFrom bytes' (crlfBytes front).length) := by
  have hnone : scanFrom bytes' (crlfBytes front).length = .ok [] := by
    cases rest with
    | nil => exact scanFrom_short h' (by decide)
    | cons b more =>
        have hmore : more.length = 0 := Nat.lt_one_iff.mp (Nat.succ_lt_succ_iff.mp hshort)
        obtain rfl := List.length_eq_zero_iff.mp hmore
        by_cases hb : b = '\n'.toUInt8
        · rw [hb, crlfBytes_newline] at h'
          have hmid : bytes'.toList = (crlfBytes front ++ ['\r'.toUInt8]) ++ ['\n'.toUInt8] := by
            rw [h', List.append_assoc]
            rfl
          rw [scanFrom_pass h' (.inl (by decide)), scanFrom_short hmid (by decide)]
        · rw [crlfBytes_cons hb] at h'
          exact scanFrom_short h' (Nat.lt_succ_self 1)
  rw [scanFrom_short h hshort, hnone]
  exact alike_pure .nil

/-- The induction is on the bytes that are left. -/
theorem scanFrom_alike {front rest : List UInt8} (h : bytes.toList = front ++ rest)
    (h' : bytes'.toList = crlfBytes front ++ crlfBytes rest) :
    Alike (List.Forall₂ (SameSign bytes.toList)) (scanFrom bytes front.length)
      (scanFrom bytes' (crlfBytes front).length) := by
  induction hlen : rest.length using Nat.strongRecOn generalizing front rest with
  | ind length ih =>
      have hlater : ∀ b mid later, rest = b :: mid ++ later →
          Alike (List.Forall₂ (SameSign bytes.toList)) (scanFrom bytes (front ++ b :: mid).length)
            (scanFrom bytes' (crlfBytes (front ++ b :: mid)).length) := by
        rintro b mid later rfl
        refine ih later.length ?_ ?_ ?_ rfl
        · rw [← hlen, List.length_append, List.length_cons]
          omega
        · rw [h, List.append_assoc]
        · rw [h', crlfBytes_append, crlfBytes_append, List.append_assoc]
      cases rest with
      | nil => exact scanFrom_short_alike h h' (by decide)
      | cons b more =>
          cases more with
          | nil => exact scanFrom_short_alike h h' (Nat.lt_succ_self 1)
          | cons c later =>
              by_cases hb : b = '\n'.toUInt8
              · subst hb
                have hnext := hlater '\n'.toUInt8 [] (c :: later) rfl
                rw [crlfBytes_append] at hnext
                rw [scanFrom_pass h (.inr (by decide)),
                  scanFrom_crlf_newline h' (crlfBytes_ne_nil (List.cons_ne_nil c later))]
                exact hnext
              · rw [crlfBytes_cons hb] at h'
                by_cases hc : c = '\n'.toUInt8
                · subst hc
                  have hnext := hlater b [] ('\n'.toUInt8 :: later) rfl
                  rw [crlfBytes_append, crlfBytes_cons hb] at hnext
                  rw [scanFrom_pass h (.inl (by decide)), scanFrom_pass h' (.inl (by decide))]
                  exact hnext
                · rw [crlfBytes_cons hc] at h'
                  exact scanFrom_signs_alike hb hc h h' hlater

end

/-- The operators of a text are, one by one, those of the text with the other line endings. -/
theorem findAll_alike (t : Text) :
    Alike (List.Forall₂ fun op op' => op'.2 = op.2 ∧ SamePlace t op.1 op'.1) (findAll t)
      (findAll (Text.crlf t)) := by
  have hbytes : (Text.bytes t).toList = [] ++ (Text.bytes t).toList := rfl
  have hscan := scanFrom_alike hbytes (bytes_crlf t)
  intro ops hops
  obtain ⟨ops', hops', hsigns⟩ := hscan ops hops
  have hexact := (findAll_yields t).gives ops hops
  refine ⟨ops', hops', List.forall₂_iff_zip.mpr ⟨hsigns.length_eq, fun {op op'} hmem => ?_⟩⟩
  obtain ⟨hsame, front, rest, hbytes, hop, hop'⟩ := List.forall₂_zip hsigns hmem
  obtain ⟨pre, c, post, ht, hplace⟩ :=
    ((hexact.mem_iff ..).mp (List.of_mem_zip hmem).1).2.isPlace
  have hfront : front = (Text.bytes pre).toList := by
    have hsplit : (Text.bytes t).toList =
        (Text.bytes pre).toList ++ (Text.bytes (c :: post)).toList := by
      rw [ht, Text.toList_bytes_append]
    refine (List.append_inj (hbytes.symm.trans hsplit) ?_).1
    rw [← hop, hplace, Text.length_toList_bytes]
  refine ⟨hsame, pre, c :: post, ht, hplace, ?_⟩
  rw [hop', hfront, ← bytes_crlf, Text.length_toList_bytes]

/-- Loose operators are reported in the same places. -/
theorem report_steady (message : LooseOperator → String) :
    Check.Steady (fun t => do
      (← findAll t).mapM fun (offset, op) => Finding.atOffset t offset (message op)) :=
  fun t _ => (findAll_alike t).bind fun _ _ hops =>
    alike_mapM hops fun _ _ hop => Finding.atOffset_alike hop.2 _ _

end LooseOperator

end SnippetLint
