import RamlTypes.Yaml.Tag

/-!
# Nodes of a YAML document

The tree that a text stands for, with references replaced by what they refer to.
-/

namespace RamlTypes.Yaml

inductive Node where
  | scalar (tag : Tag) (text : String)
  | sequence (tag : Tag) (items : List Node)
  | mapping (tag : Tag) (pairs : List (Node × Node))
deriving Repr

namespace Node

/-- The node for what is left out. -/
def empty : Node := .scalar .null ""

def tag : Node → Tag
  | scalar tag _ => tag
  | sequence tag _ => tag
  | mapping tag _ => tag

end Node

end RamlTypes.Yaml
