/-
  ServiceRegistry.Yaml.Block

  Documents in block style: a list has its items after dashes, a mapping its members on
  lines of their own. Lists inside mappings are not indented, everything else by two.
-/
import ServiceRegistry.Yaml.Scalar

namespace ServiceRegistry

/-- A YAML value. Keys are plain words. -/
inductive Yaml
  | text (value : String)
  | flag (value : Bool)
  | list (items : List Yaml)
  | map (members : List (String × Yaml))
  deriving Repr

namespace Yaml

mutual

/-- The lines of a value. -/
def block : Yaml → List Char
  | text s => scalar s
  | flag true => "true\n".toList
  | flag false => "false\n".toList
  | list [] => "[]\n".toList
  | list (x :: xs) => '-' :: ' ' :: indented false (block x) ++ itemsBlock xs
  | map [] => "\x7b\x7d\n".toList
  | map (m :: ms) => memberBlock m ++ membersBlock ms

/-- The lines of the items of a list. -/
def itemsBlock : List Yaml → List Char
  | [] => []
  | x :: xs => '-' :: ' ' :: indented false (block x) ++ itemsBlock xs

/-- The lines of a member of a mapping. -/
def memberBlock : String × Yaml → List Char
  | (key, list (x :: xs)) => key.toList ++ ':' :: '\n' :: block (list (x :: xs))
  | (key, map (m :: ms)) => key.toList ++ ':' :: '\n' :: indented true (block (map (m :: ms)))
  | (key, value) => key.toList ++ ':' :: ' ' :: indented false (block value)

/-- The lines of the members of a mapping. -/
def membersBlock : List (String × Yaml) → List Char
  | [] => []
  | m :: ms => memberBlock m ++ membersBlock ms

end

/-- The text of a document. -/
def render (y : Yaml) : String := String.ofList y.block

end Yaml

end ServiceRegistry
