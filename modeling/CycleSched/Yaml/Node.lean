import CycleSched.Yaml.Scalar
import CycleSched.Yaml.Token

/-!
# YAML nodes

A YAML document is read into a tree of nodes: scalars with the style they were written in,
sequences, mappings of key and value nodes in document order, and aliases. Every node has a tag
(its explicit tag in short form, or the one its kind and text give it) and remembers the line,
counted from 1, where it starts; reports about the document cite it.

An alias stands for the node its anchor was last given to before it. That node may contain the
alias itself, so an alias holds the number of the anchored node in the document's table instead
of the node; each alias also has a number of its own, which tells two occurrences apart.
-/

namespace CycleSched.Yaml

/-- A node of a YAML document. -/
inductive Node where
  | scalar (text : String) (style : Style) (tag : String) (line : Nat)
  | sequence (items : List Node) (tag : String) (line : Nat)
  | mapping (entries : List (Node × Node)) (tag : String) (line : Nat)
  | alias (name : String) (target : Nat) (ident : Nat) (line : Nat)
  deriving Repr, Inhabited

/-- A document: its root node and the anchored nodes, by anchor number. -/
structure Document where
  root : Node
  anchored : Array Node
  /-- A bound on how deep reading the document can go, its aliases expanded. -/
  bound : Nat
  deriving Inhabited

namespace Node

/-- The line where the node starts. -/
def line : Node → Nat
  | .scalar _ _ _ l => l
  | .sequence _ _ l => l
  | .mapping _ _ l => l
  | .alias _ _ _ l => l

/-- The node's own tag; an alias has none. -/
def tag : Node → String
  | .scalar _ _ t _ => t
  | .sequence _ t _ => t
  | .mapping _ t _ => t
  | .alias .. => ""

/-- The text of a scalar, the name of an alias, and the empty text for collections. -/
def text : Node → String
  | .scalar v .. => v
  | .alias name .. => name
  | _ => ""

/-- A merge key: the plain scalar `<<`, or one tagged as a merge. -/
def isMerge : Node → Bool
  | .scalar text _ tag _ => text == "<<" && tag == "!!merge"
  | _ => false

/-- The kinds of node, numbered; two keys of one kind and text are the same key. -/
def kindIndex : Node → Nat
  | .sequence .. => 2
  | .mapping .. => 3
  | .scalar .. => 4
  | .alias .. => 5

/-- A scalar that is a string by how it is written: tagged `!!str`, or quoted or written as a
block without a tag of its own. -/
def isIndicatedString : Node → Bool
  | .scalar _ style tag _ => tag == "!!str" || (tag == "" && style != .plain)
  | _ => false

end Node

/-- The node an alias stands for, or the node itself when it is no alias. -/
def Document.deref (d : Document) (n : Node) : Node :=
  match n with
  | .alias _ target _ _ => d.anchored[target]?.getD n
  | n => n

/-- The short tag that says what a node is: `!!str` for an indicated string, the tag of a
tagged node, the kind's tag for an untagged collection, the resolved tag of an untagged scalar,
and the tag of an alias's node. -/
def Document.shortTagOf (d : Document) (n : Node) : String :=
  let n := d.deref n
  if n.isIndicatedString then "!!str"
  else
    match n with
    | .scalar text _ tag _ => if tag == "" || tag == "!" then plainTag text else shortTag tag
    | .sequence _ tag _ => if tag == "" || tag == "!" then "!!seq" else shortTag tag
    | .mapping _ tag _ => if tag == "" || tag == "!" then "!!map" else shortTag tag
    | .alias .. => ""

end CycleSched.Yaml
