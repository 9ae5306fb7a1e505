/-
JSON values.

An object keeps its members in the order in which they are written, with repeated names. Numbers that
are not plain counts are never computed with, so only their spelling is kept.
-/
namespace SnippetLint

inductive Json where
  | null
  | flag (b : Bool)
  /-- A number written with digits alone. -/
  | count (n : Nat)
  | text (s : String)
  /--
  A value known by its spelling alone: any other number, or a string that holds half a surrogate
  pair and so is no text.
  -/
  | other (written : String)
  | array (items : List Json)
  | object (members : List (String × Json))

end SnippetLint
