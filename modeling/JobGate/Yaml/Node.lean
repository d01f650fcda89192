/-
The nodes of a YAML document.

A node keeps how it was written as far as a reader of settings can tell: the
style of a scalar, since only a plain one can be a number, and the tag.  An alias
has been replaced by the node it stands for.
-/

namespace JobGate
namespace Yaml

/-- How a scalar is written. -/
inductive Style
  | plain
  | singleQuoted
  | doubleQuoted
  | literal
  | folded
deriving DecidableEq, Repr

inductive Node
  | scalar (style : Style) (tag : Option String) (text : String)
  | list (elements : List Node)
  | mapping (entries : List (Node × Node))
  /-- An alias of a node that the alias itself is part of. -/
  | loop
deriving Repr

/-- What stands where nothing is written. -/
def Node.empty : Node := .scalar .plain none ""

end Yaml
end JobGate
