import CanonTree.Config.Toml
import CanonTree.Config.Yaml
import CanonTree.Files.Tree

namespace CanonTree.Config

def isYaml (path : String) : Bool :=
  match Path.extension? path with
  | some ext =>
    let ext := ext.toList.map Char.toLower
    ext = "yaml".toList || ext = "yml".toList
  | none => false

def parse (path text : String) : Except Error Config := do
  let c ← if isYaml path then (ofYaml? text).elim (.error .badYaml) .ok
    else (ofToml? text).elim (.error .badToml) .ok
  c.validate

def load (fs : Files) (path : String) : Except Error Config := do
  let text ← (fs.read path).mapError fun _ => .unreadable
  parse path text

end CanonTree.Config
