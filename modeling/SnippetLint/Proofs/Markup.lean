/-
Documents made of elements.

A forest is a sequence of texts and elements, where an element is void or holds a forest of its own.
The types carry what makes the written form readable: a name has no other characters than names have,
an attribute's value no quote that would end it, and a text no angle that would begin a tag.  A forest
is written as the pieces it is made of, so leaving out a tag is leaving out a piece.

Each element that is not void puts one tag that asks for a closing tag and one that closes it among
the pieces, so for every name there are as many of the ones as of the others
(`count_awaited_pieces`).
-/
import SnippetLint.Proofs.Text.Lines
import SnippetLint.Proofs.Unicode.Word
import SnippetLint.Rules.Html

namespace SnippetLint.Html

open Pattern

/-! ### Tags -/

/-- The name of an element: an English letter, then English letters, digits and hyphens. -/
structure TagName where
  first : Char
  more : Text
  latin_first : latin first = true
  all_more : more.all (fun c => latin c || c.isDigit || c == '-') = true

namespace TagName

theorem cases_of_mem_more {name : TagName} {c : Char} (h : c ∈ name.more) :
    latin c = true ∨ c.isDigit = true ∨ c = '-' := by
  simpa [or_assoc] using List.all_eq_true.mp name.all_more c h

def text (name : TagName) : Text := name.first :: name.more

/-- The name in lower case, by which elements are known. -/
def key (name : TagName) : Text := lowered name.text

/-- Whether elements with the name have no closing tag. -/
def isVoid (name : TagName) : Bool := voidElements.contains (String.ofList name.key)

end TagName

/-- An attribute with a quoted value.  Its name has letters and hyphens. -/
structure Attribute where
  name : Text
  value : Text
  all_name : name.all (fun c => Unicode.isLetter c || c == '-') = true
  all_value : value.all (except "\"<>") = true

def Attribute.text (a : Attribute) : Text := ' ' :: (a.name ++ '=' :: '"' :: (a.value ++ ['"']))

/-- How an opening tag ends before its angle: a void element may have a slash there. -/
inductive Ending where
  | plain
  | slash
  | spacedSlash

def Ending.text : Ending → Text
  | plain => []
  | slash => ['/']
  | spacedSlash => [' ', '/']

inductive Tag where
  | opening (name : TagName) (attributes : List Attribute) (ending : Ending)
  | closing (name : TagName)

/-- What stands in an opening tag behind its name. -/
def tagRest (attributes : List Attribute) (ending : Ending) : Text :=
  attributes.flatMap Attribute.text ++ ending.text

def Tag.text : Tag → Text
  | opening name attributes ending => '<' :: (name.text ++ (tagRest attributes ending ++ ['>']))
  | closing name => '<' :: '/' :: (name.text ++ ['>'])

theorem ne_of_mem_attribute {a : Attribute} {c : Char} (h : c ∈ a.text) : c ≠ '<' ∧ c ≠ '>' := by
  simp only [Attribute.text, List.mem_cons, List.mem_append, List.not_mem_nil, or_false] at h
  rcases h with rfl | hname | rfl | rfl | hvalue | rfl
  · decide
  · have hletter := List.all_eq_true.mp a.all_name c hname
    exact ⟨fun h => absurd (h ▸ hletter) (by decide), fun h => absurd (h ▸ hletter) (by decide)⟩
  · decide
  · decide
  · have hplain := List.all_eq_true.mp a.all_value c hvalue
    exact ⟨fun h => absurd (h ▸ hplain) (by decide), fun h => absurd (h ▸ hplain) (by decide)⟩
  · decide

theorem ne_of_mem_tagRest {attributes : List Attribute} {ending : Ending} {c : Char}
    (h : c ∈ tagRest attributes ending) : c ≠ '<' ∧ c ≠ '>' := by
  rcases List.mem_append.mp h with h | h
  · obtain ⟨a, -, hc⟩ := List.mem_flatMap.mp h
    exact ne_of_mem_attribute hc
  · have hends : c = ' ' ∨ c = '/' := by cases ending <;> simp_all [Ending.text]
    rcases hends with rfl | rfl <;> decide

/-- What stands behind the name of a tag does not go on with the name. -/
theorem head?_tagRest (attributes : List Attribute) (ending : Ending) (rest : Text) :
    ∃ c ∈ [' ', '/', '>'], (tagRest attributes ending ++ '>' :: rest).head? = some c := by
  cases attributes with
  | nil => cases ending <;> simp [tagRest, Ending.text]
  | cons a more => simp [tagRest, Attribute.text]

theorem ne_of_mem_name {name : TagName} {c : Char} (h : c ∈ name.text) : c ≠ '<' := by
  have hcases : latin c = true ∨ c.isDigit = true ∨ c = '-' := by
    rcases List.mem_cons.mp h with rfl | h
    · exact .inl name.latin_first
    · exact TagName.cases_of_mem_more h
  rintro rfl
  exact absurd hcases (by decide)

/-- A tag begins with an angle and has no other that opens a tag. -/
theorem Tag.exists_body (tag : Tag) : ∃ body, tag.text = '<' :: body ∧ '<' ∉ body := by
  cases tag with
  | opening name attributes ending =>
      refine ⟨_, rfl, ?_⟩
      simp only [List.mem_append, List.mem_singleton, not_or]
      exact ⟨fun h => ne_of_mem_name h rfl, fun h => (ne_of_mem_tagRest h).1 rfl, by decide⟩
  | closing name =>
      refine ⟨_, rfl, ?_⟩
      simp only [List.mem_cons, List.mem_append, List.not_mem_nil, or_false, not_or]
      exact ⟨by decide, fun h => ne_of_mem_name h rfl, by decide⟩

/-! ### Forests -/

/-- A tag, or what stands between tags. -/
inductive Piece where
  | plain (text : Text) (noAngle : '<' ∉ text)
  | tag (mark : Tag)

def Piece.text : Piece → Text
  | plain text _ => text
  | tag mark => mark.text

/-- What is read off a piece that is a tag. -/
def Piece.read? {α : Type} (read : Tag → Option α) : Piece → Option α
  | plain _ _ => none
  | tag mark => read mark

/-- The text that is made of several pieces. -/
def written (pieces : List Piece) : Text := pieces.flatMap Piece.text

/-- Texts and elements, one behind the other.  An element's two tags need not agree in letter case. -/
inductive Forest where
  | empty
  | plain (text : Text) (noAngle : '<' ∉ text) (rest : Forest)
  | void (name : TagName) (isVoid : name.isVoid = true) (attributes : List Attribute)
      (ending : Ending) (rest : Forest)
  | element (name : TagName) (notVoid : name.isVoid = false) (attributes : List Attribute)
      (closer : TagName) (sameKey : closer.key = name.key) (inside rest : Forest)

namespace Forest

def pieces : Forest → List Piece
  | empty => []
  | plain text noAngle rest => .plain text noAngle :: rest.pieces
  | void name _ attributes ending rest => .tag (.opening name attributes ending) :: rest.pieces
  | element name _ attributes closer _ inside rest =>
    .tag (.opening name attributes .plain) :: (inside.pieces ++ .tag (.closing closer) :: rest.pieces)

/-- The text of a forest. -/
def text (f : Forest) : Text := written f.pieces

end Forest

/-! ### Balance -/

/-- The name in lower case of what an opening tag opens, if a closing tag has to follow. -/
def awaitedName? (name rest : Text) : Option Text :=
  if Text.endsWith (Text.trimEnd rest) "/" || voidElements.contains (String.ofList (lowered name))
  then none else some (lowered name)

/-- What an opening tag opens, which may be nothing that has to be closed. -/
def Tag.opens? : Tag → Option (Option Text)
  | opening name attributes ending => some (awaitedName? name.text (tagRest attributes ending))
  | closing _ => none

/-- What a closing tag closes. -/
def Tag.closes? : Tag → Option Text
  | opening .. => none
  | closing name => some name.key

def Piece.awaited? (piece : Piece) : Option Text := (piece.read? Tag.opens?).join

def Piece.closed? (piece : Piece) : Option Text := piece.read? Tag.closes?

/-- A text that ends with a character that is no blank and no slash does not end with a slash. -/
theorem endsWith_slash_concat (t : Text) {c : Char} (hblank : Unicode.isBlank c = false)
    (hc : c ≠ '/') : Text.endsWith (Text.trimEnd (t ++ [c])) "/" = false := by
  have htrim : Text.trimEnd (t ++ [c]) = t ++ [c] := by
    simp [Text.trimEnd, hblank]
  rw [htrim, Text.endsWith, Bool.eq_false_iff, Ne, List.isSuffixOf_iff_suffix]
  rintro ⟨front, hfront⟩
  exact hc (List.singleton_inj.mp (List.append_inj' hfront rfl).2).symm

theorem endsWith_slash_attributes (attributes : List Attribute) :
    Text.endsWith (Text.trimEnd (tagRest attributes .plain)) "/" = false := by
  rcases List.eq_nil_or_concat attributes with rfl | ⟨front, last, rfl⟩
  · rfl
  · have hlast : tagRest (front.concat last) .plain =
        (front.flatMap Attribute.text ++ ' ' :: (last.name ++ '=' :: '"' :: last.value)) ++ ['"'] := by
      simp [tagRest, Attribute.text, Ending.text]
    rw [hlast]
    exact endsWith_slash_concat _ rfl (by decide)

/-- For every name a forest has as many closing tags as there are tags that ask for one. -/
theorem count_awaited_pieces (f : Forest) (key : Text) :
    (f.pieces.filterMap Piece.awaited?).count key = (f.pieces.filterMap Piece.closed?).count key := by
  induction f with
  | empty => rfl
  | plain text noAngle rest ih => exact ih
  | void name isVoid attributes ending rest ih =>
      have hnone : Piece.awaited? (.tag (.opening name attributes ending)) = none :=
        if_pos (Bool.or_eq_true_iff.mpr (.inr isVoid))
      rw [Forest.pieces, List.filterMap_cons_none hnone, ih]
      rfl
  | element name notVoid attributes closer sameKey inside rest ihInside ihRest =>
      have hopens : Piece.awaited? (.tag (.opening name attributes .plain)) = some name.key := by
        refine if_neg ?_
        rw [endsWith_slash_attributes, Bool.false_or]
        exact Bool.eq_false_iff.mp notVoid
      have hawaited : (Forest.pieces (.element name notVoid attributes closer sameKey inside rest)).filterMap
          Piece.awaited? = name.key :: (inside.pieces.filterMap Piece.awaited? ++
            rest.pieces.filterMap Piece.awaited?) := by
        rw [Forest.pieces, List.filterMap_cons_some hopens, List.filterMap_append]
        rfl
      have hclosed : (Forest.pieces (.element name notVoid attributes closer sameKey inside rest)).filterMap
          Piece.closed? = inside.pieces.filterMap Piece.closed? ++
            name.key :: rest.pieces.filterMap Piece.closed? := by
        have hcloses : Piece.closed? (.tag (.closing closer)) = some name.key :=
          congrArg some sameKey
        rw [Forest.pieces, List.filterMap_cons_none rfl, List.filterMap_append,
          List.filterMap_cons_some hcloses]
      rw [hawaited, hclosed]
      simp only [List.count_cons, List.count_append, ihInside, ihRest]
      omega

/-- Where one closing tag is left out, its name is asked for once more than it is closed. -/
theorem count_awaited_without {f : Forest} {before after : List Piece} {name : TagName}
    (h : f.pieces = before ++ .tag (.closing name) :: after) (key : Text) :
    ((before ++ after).filterMap Piece.awaited?).count key =
      ((before ++ after).filterMap Piece.closed?).count key + [name.key].count key := by
  have hbalance := count_awaited_pieces f key
  have hawaited : f.pieces.filterMap Piece.awaited? = (before ++ after).filterMap Piece.awaited? := by
    rw [h, List.filterMap_append, List.filterMap_append]
    rfl
  have hclosed : f.pieces.filterMap Piece.closed? =
      before.filterMap Piece.closed? ++ name.key :: after.filterMap Piece.closed? := by
    rw [h, List.filterMap_append]
    rfl
  rw [← hawaited, hbalance, hclosed, List.filterMap_append]
  simp only [List.count_append, List.count_cons, List.count_nil]
  omega

end SnippetLint.Html
