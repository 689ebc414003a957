import CanonTree.Entity.Basic
import CanonTree.Json.Reader
import CanonTree.Syntax.Kind

namespace CanonTree

open Json (Reader)

def Entity.read : Reader Entity :=
  Reader.variant (Entity.all.map (·.name)) fun s => Entity.all.find? (·.name == s)

def Syntax.Kind.read : Reader Syntax.Kind :=
  Reader.variant (Syntax.Kind.all.map (·.name)) Syntax.Kind.ofName?

end CanonTree
