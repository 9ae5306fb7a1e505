/-
First occurrences and repeats.

Several rules report a thing once however often it occurs, and several report exactly the second and
later occurrences. The two split a list between them.
-/
namespace SnippetLint

section

variable {α κ : Type} [BEq κ]

/-- The members whose key is neither among `seen` nor that of an earlier member. -/
def firstsAfter (key : α → κ) (seen : List κ) : List α → List α
  | [] => []
  | a :: rest =>
    if seen.contains (key a) then firstsAfter key seen rest
    else a :: firstsAfter key (key a :: seen) rest

/-- The members whose key is among `seen` or that of an earlier member. -/
def repeatsAfter (key : α → κ) (seen : List κ) : List α → List α
  | [] => []
  | a :: rest =>
    if seen.contains (key a) then a :: repeatsAfter key seen rest
    else repeatsAfter key (key a :: seen) rest

/-- The members whose key no earlier member has. -/
def firsts (key : α → κ) (l : List α) : List α := firstsAfter key [] l

/-- The members whose key an earlier member has. -/
def repeats (key : α → κ) (l : List α) : List α := repeatsAfter key [] l

end

end SnippetLint
