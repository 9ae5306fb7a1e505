/-
The tokens of a value, in either layout.

What a value is written as can be cut into tokens again, and they depend on the value alone: line
breaks and the blank behind a colon are passed over.  A bare word has no end of its own.  It ends
where something follows that cannot belong to it, so what is said of a written value is said for
every text behind it that begins so, and within arrays and objects such a text always follows.
-/
import SnippetLint.Proofs.Json.Leaves

namespace SnippetLint.Json

open Token

/-- The members of an object. -/
def members : Json → List (String × Json)
  | .object members => members
  | _ => []

/-- The names of the members of an object. -/
def names (v : Json) : List String := v.members.map Prod.fst

/-- A value of which no part is known by its spelling alone. -/
inductive Plain : Json → Prop
  | null : Plain .null
  | flag (b : Bool) : Plain (.flag b)
  | count (n : Nat) : Plain (.count n)
  | text (s : String) : Plain (.text s)
  | array {items : List Json} (h : ∀ item ∈ items, Plain item) : Plain (.array items)
  | object {members : List (String × Json)} (h : ∀ member ∈ members, Plain member.2) :
    Plain (.object members)

theorem Plain.array_map {α : Type} {write : α → Json} (h : ∀ a, (write a).Plain) (l : List α) :
    (Json.array (l.map write)).Plain := by
  refine .array fun item hitem => ?_
  obtain ⟨a, -, rfl⟩ := List.mem_map.mp hitem
  exact h a

mutual

/-- The tokens of a value. -/
def tokens : Json → List Token
  | .text s => [.text s]
  | .array [] => [.openArray, .closeArray]
  | .array (item :: items) => .openArray :: (tokens item ++ (itemTokens items ++ [.closeArray]))
  | .object [] => [.openObject, .closeObject]
  | .object ((name, value) :: members) =>
    .openObject :: .text name :: .colon ::
      (tokens value ++ (memberTokens members ++ [.closeObject]))
  | value => [.scalar value]

/-- The tokens of the items of an array behind the first. -/
def itemTokens : List Json → List Token
  | [] => []
  | item :: items => .comma :: (tokens item ++ itemTokens items)

/-- The tokens of the members of an object behind the first. -/
def memberTokens : List (String × Json) → List Token
  | [] => []
  | (name, value) :: members =>
    .comma :: .text name :: .colon :: (tokens value ++ memberTokens members)

end

/-! ### Texts that are cut into tokens -/

/-- A text behind which a bare word is complete. -/
def EndsWord (rest : List Char) : Prop := ∀ c, rest.head? = some c → endsWord c = true

/-- A text that is cut into some tokens, whatever follows that ends a word. -/
def CutInto (text : List Char) (found : List Token) : Prop :=
  ∀ rest, EndsWord rest →
    scanFrom .between (text ++ rest) = (scanFrom .between rest).map (found ++ ·)

theorem EndsWord.nil : EndsWord [] := by simp [EndsWord]

theorem EndsWord.cons {c : Char} (h : endsWord c = true) (rest : List Char) :
    EndsWord (c :: rest) := by
  intro d hd
  rwa [← Option.some.inj hd]

theorem EndsWord.append {text rest : List Char} (h : EndsWord text) (hrest : EndsWord rest) :
    EndsWord (text ++ rest) := by
  cases text with
  | nil => exact hrest
  | cons c more => exact .cons (h c rfl) _

theorem endsWord_lineBreak (layout : Layout) (depth : Nat) {rest : List Char}
    (hrest : EndsWord rest) : EndsWord (layout.lineBreak depth ++ rest) := by
  cases layout with
  | compact => exact hrest
  | pretty => exact .cons (by decide) _

theorem scanFrom_punctuation {c : Char} {token : Token} (hspace : isSpace c = false)
    (h : punctuation? c = some token) (rest : List Char) :
    scanFrom .between (c :: rest) = (scanFrom .between rest).map (token :: ·) := by
  rw [scanFrom, begin, hspace, if_neg Bool.false_ne_true, h]
  rfl

theorem scanFrom_space {c : Char} (h : isSpace c = true) (rest : List Char) :
    scanFrom .between (c :: rest) = scanFrom .between rest := by
  rw [scanFrom, begin, if_pos h]
  exact Option.map_id'

theorem scanFrom_lineBreak (layout : Layout) (depth : Nat) (rest : List Char) :
    scanFrom .between (layout.lineBreak depth ++ rest) = scanFrom .between rest := by
  cases layout with
  | compact => rfl
  | pretty =>
      have hblanks : ∀ n, scanFrom .between (List.replicate n ' ' ++ rest) =
          scanFrom .between rest := by
        intro n
        induction n with
        | zero => rfl
        | succ n ih =>
            rw [List.replicate_succ, List.cons_append, scanFrom_space (by decide), ih]
      exact (scanFrom_space (by decide) _).trans (hblanks _)

theorem scanFrom_colon (layout : Layout) (rest : List Char) :
    scanFrom .between (layout.colon ++ rest) = (scanFrom .between rest).map (.colon :: ·) := by
  cases layout with
  | compact => exact scanFrom_punctuation rfl rfl rest
  | pretty =>
      refine (scanFrom_punctuation rfl rfl (' ' :: rest)).trans ?_
      rw [scanFrom_space (by decide)]

theorem begin_word {c : Char} (h : endsWord c = false) : begin c = ([], .word [c]) := by
  simp only [endsWord, Bool.or_eq_false_iff, Option.isSome_eq_false_iff,
    Option.isNone_iff_eq_none] at h
  obtain ⟨⟨hspace, hpunctuation⟩, hquote⟩ := h
  rw [begin, hspace, if_neg Bool.false_ne_true, hpunctuation]
  simp only [hquote]
  rfl

theorem scanFrom_word {w : List Char} (h : ∀ d ∈ w, endsWord d = false) (seen rest : List Char) :
    scanFrom (.word seen) (w ++ rest) = scanFrom (.word (w.reverse ++ seen)) rest := by
  induction w generalizing seen with
  | nil => rfl
  | cons c more ih =>
      obtain ⟨hc, hmore⟩ := List.forall_mem_cons.mp h
      rw [List.cons_append, scanFrom, if_neg (by simp [hc]), ih hmore, List.reverse_cons,
        List.append_assoc]
      rfl

theorem scanFrom_word_end {seen : List Char} {token : Token}
    (h : ofWord? seen.reverse = some token) {rest : List Char} (hrest : EndsWord rest) :
    scanFrom (.word seen) rest = (scanFrom .between rest).map (token :: ·) := by
  cases rest with
  | nil => rw [scanFrom.eq_2, h]; rfl
  | cons c more =>
      rw [scanFrom.eq_5, if_pos (hrest c rfl), h, scanFrom]
      simp only [Option.map_map]
      rfl

theorem endsWord_of_isDigit {c : Char} (h : c.isDigit = true) : endsWord c = false := by
  have hall : ∀ n < 58, 48 ≤ n → endsWord (Char.ofNat n) = false := by decide
  have hcodes : 48 ≤ c.toNat ∧ c.toNat ≤ 57 := by
    obtain ⟨hle, hge⟩ := Bool.and_eq_true_iff.mp h
    exact ⟨of_decide_eq_true hle, of_decide_eq_true hge⟩
  have hc := hall c.toNat (by omega) hcodes.1
  rwa [Char.ofNat_toNat] at hc

namespace CutInto

variable {text more : List Char} {found later : List Token}

theorem nil : CutInto [] [] := fun _ _ => Option.map_id'.symm

theorem append (h : CutInto text found) (hmore : CutInto more later) (hends : EndsWord more) :
    CutInto (text ++ more) (found ++ later) := by
  intro rest hrest
  rw [List.append_assoc, h _ (hends.append hrest), hmore rest hrest, Option.map_map]
  exact congrArg (Option.map · _) (funext fun _ => (List.append_assoc ..).symm)

theorem punctuation {c : Char} {token : Token} (hspace : isSpace c = false)
    (h : punctuation? c = some token) (hmore : CutInto more later) :
    CutInto (c :: more) (token :: later) := by
  intro rest hrest
  rw [List.cons_append, scanFrom_punctuation hspace h, hmore rest hrest, Option.map_map]
  rfl

theorem lineBreak (layout : Layout) (depth : Nat) (hmore : CutInto more later) :
    CutInto (layout.lineBreak depth ++ more) later := by
  intro rest hrest
  rw [List.append_assoc, scanFrom_lineBreak, hmore rest hrest]

theorem quote (s : String) (hmore : CutInto more later) :
    CutInto (Json.quote s ++ more) (.text s :: later) := by
  intro rest hrest
  rw [List.append_assoc, scanFrom_quote, hmore rest hrest, Option.map_map]
  rfl

theorem colon (layout : Layout) (hmore : CutInto more later) :
    CutInto (layout.colon ++ more) (.colon :: later) := by
  intro rest hrest
  rw [List.append_assoc, scanFrom_colon, hmore rest hrest, Option.map_map]
  rfl

/-- A bare word is cut off whole. -/
theorem word {c : Char} {w : List Char} {token : Token} (h : ofWord? (c :: w) = some token)
    (hinside : (c :: w).any endsWord = false) : CutInto (c :: w) [token] := by
  intro rest hrest
  obtain ⟨hc, hw⟩ : endsWord c = false ∧ ∀ d ∈ w, endsWord d = false := by simpa using hinside
  have hopen : scanFrom .between (c :: w ++ rest) = scanFrom (.word [c]) (w ++ rest) := by
    rw [List.cons_append, scanFrom, begin_word hc]
    exact Option.map_id'
  rw [hopen, scanFrom_word hw, scanFrom_word_end _ hrest]
  · rfl
  · rw [List.reverse_append, List.reverse_reverse]
    exact h

end CutInto

/-! ### Written values -/

section

variable (layout : Layout) (depth : Nat)

theorem endsWord_renderItems (items : List Json) : EndsWord (renderItems layout depth items) := by
  cases items with
  | nil => exact .nil
  | cons item items => exact .cons (by decide) _

theorem endsWord_renderMembers (members : List (String × Json)) :
    EndsWord (renderMembers layout depth members) := by
  cases members with
  | nil => exact .nil
  | cons member members => exact .cons (by decide) _

variable {layout depth}

theorem cutInto_renderItems {items : List Json}
    (h : ∀ item ∈ items, CutInto (renderAt layout depth item) (tokens item)) :
    CutInto (renderItems layout depth items) (itemTokens items) := by
  induction items with
  | nil => exact .nil
  | cons item items ih =>
      obtain ⟨hitem, hitems⟩ := List.forall_mem_cons.mp h
      simp only [renderItems, itemTokens, List.cons_append, List.append_assoc]
      exact .punctuation rfl rfl <| .lineBreak layout depth <|
        hitem.append (ih hitems) (endsWord_renderItems layout depth items)

theorem cutInto_renderMembers {members : List (String × Json)}
    (h : ∀ member ∈ members, CutInto (renderAt layout depth member.2) (tokens member.2)) :
    CutInto (renderMembers layout depth members) (memberTokens members) := by
  induction members with
  | nil => exact .nil
  | cons member members ih =>
      obtain ⟨hmember, hmembers⟩ := List.forall_mem_cons.mp h
      obtain ⟨name, value⟩ := member
      simp only [renderMembers, memberTokens, List.cons_append, List.append_assoc]
      exact .punctuation rfl rfl <| .lineBreak layout depth <| .quote name <| .colon layout <|
        hmember.append (ih hmembers) (endsWord_renderMembers layout depth members)

theorem cutInto_array {items : List Json}
    (h : ∀ item ∈ items, ∀ depth, CutInto (renderAt layout depth item) (tokens item)) :
    CutInto (renderAt layout depth (.array items)) (tokens (.array items)) := by
  cases items with
  | nil => exact .punctuation rfl rfl <| .punctuation rfl rfl .nil
  | cons item items =>
      obtain ⟨hitem, hitems⟩ := List.forall_mem_cons.mp h
      have hrest := cutInto_renderItems fun item hmem => hitems item hmem (depth + 1)
      have hclose : CutInto (layout.lineBreak depth ++ [']']) [.closeArray] :=
        .lineBreak layout depth <| .punctuation rfl rfl .nil
      have hcloseEnds : EndsWord (layout.lineBreak depth ++ [']']) :=
        endsWord_lineBreak layout depth (.cons (by decide) _)
      simp only [renderAt, tokens, List.cons_append, List.append_assoc]
      exact .punctuation rfl rfl <| .lineBreak layout _ <|
        (hitem _).append (hrest.append hclose hcloseEnds)
          ((endsWord_renderItems layout _ items).append hcloseEnds)

theorem cutInto_object {members : List (String × Json)}
    (h : ∀ member ∈ members, ∀ depth,
      CutInto (renderAt layout depth member.2) (tokens member.2)) :
    CutInto (renderAt layout depth (.object members)) (tokens (.object members)) := by
  cases members with
  | nil => exact .punctuation rfl rfl <| .punctuation rfl rfl .nil
  | cons member members =>
      obtain ⟨name, value⟩ := member
      obtain ⟨hvalue, hmembers⟩ := List.forall_mem_cons.mp h
      have hrest := cutInto_renderMembers fun member hmem => hmembers member hmem (depth + 1)
      have hclose : CutInto (layout.lineBreak depth ++ ['\x7d']) [.closeObject] :=
        .lineBreak layout depth <| .punctuation rfl rfl .nil
      have hcloseEnds : EndsWord (layout.lineBreak depth ++ ['\x7d']) :=
        endsWord_lineBreak layout depth (.cons (by decide) _)
      simp only [renderAt, tokens, List.cons_append, List.append_assoc]
      exact .punctuation rfl rfl <| .lineBreak layout _ <| .quote name <| .colon layout <|
        (hvalue _).append (hrest.append hclose hcloseEnds)
          ((endsWord_renderMembers layout _ members).append hcloseEnds)

end

theorem cutInto_toString (n : Nat) : CutInto (toString n).toList [.scalar (.count n)] := by
  have hdigits : (toString n).toList = Nat.toDigits 10 n := Nat.toList_repr
  obtain ⟨c, w, hcons⟩ := List.exists_cons_of_ne_nil (Nat.toDigits_ne_nil (n := n) (b := 10))
  have hword := ofWord?_toDigits n
  rw [hdigits, hcons]
  rw [hcons] at hword
  refine .word hword (List.any_eq_false.mpr fun d hd => ?_)
  rw [endsWord_of_isDigit (isDigit_of_mem_toDigits (hcons ▸ hd))]
  exact Bool.false_ne_true

/-- **What a value is written as is cut into the tokens of the value, in either layout.** -/
theorem cutInto_renderAt (layout : Layout) {v : Json} (h : Plain v) (depth : Nat) :
    CutInto (renderAt layout depth v) (tokens v) := by
  induction h generalizing depth with
  | null => exact .word rfl (by decide)
  | flag b =>
      cases b with
      | true => exact .word rfl (by decide)
      | false => exact .word rfl (by decide)
  | count n => exact cutInto_toString n
  | text s =>
      rw [renderAt, tokens, ← List.append_nil (quote s)]
      exact .quote s .nil
  | array _ ih => exact cutInto_array ih
  | object _ ih => exact cutInto_object ih

theorem scan?_render (layout : Layout) {v : Json} (h : Plain v) :
    scan? (render layout v).toList = some (tokens v) := by
  have hcut := cutInto_renderAt layout h 0 [] .nil
  rw [List.append_nil] at hcut
  rw [scan?, render, String.toList_ofList, hcut, scanFrom, Option.map_some, List.append_nil]

end SnippetLint.Json
