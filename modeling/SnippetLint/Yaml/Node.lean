/-
What a YAML text stands for.

A document is a tree of nodes in which a reference may stand for another node. A reference is kept as
the number of the node it stands for: a node may refer to itself, so not every reference can be
replaced.
-/
import SnippetLint.Yaml.Scalar

namespace SnippetLint.Yaml

inductive Node where
  | scalar (tag : Option String) (style : ScalarStyle) (text : String)
  | sequence (items : List Node)
  | mapping (entries : List (Node × Node))
  /-- A reference to the anchored node with a number. -/
  | reference (number : Nat)
  /-- What a text without a document stands for. -/
  | missing

/-- What stands where something was left out. -/
def Node.empty : Node := .scalar none .plain ""

/-- A node, with the anchored nodes of its document. -/
structure Value where
  anchored : List (Nat × Node)
  node : Node

namespace Value

/-- The node itself, or the one it refers to. -/
def target (v : Value) : Node :=
  match v.node with
  | .reference number => (v.anchored.lookup number).getD .missing
  | node => node

/-- Another node of the same document. -/
def withNode (v : Value) (node : Node) : Value := { v with node }

end Value

end SnippetLint.Yaml
