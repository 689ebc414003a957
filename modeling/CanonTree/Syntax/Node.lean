import CanonTree.Source.Span
import CanonTree.Syntax.Kind

namespace CanonTree.Syntax

inductive Role where
  | expression | thenStatement | elseStatement | typeArguments | name | arguments | modifiers
  | superclassType | superInterfaceTypes | bodyDeclarations | initializers | updaters | body | other
deriving DecidableEq, Repr

namespace Role

instance : Inhabited Role := ⟨other⟩

def spelling : Role → String
  | .expression => "expression"
  | .thenStatement => "then_statement"
  | .elseStatement => "else_statement"
  | .typeArguments => "type_arguments"
  | .name => "name"
  | .arguments => "arguments"
  | .modifiers => "modifiers"
  | .superclassType => "superclass_type"
  | .superInterfaceTypes => "super_interface_types"
  | .bodyDeclarations => "body_declarations"
  | .initializers => "initializers"
  | .updaters => "updaters"
  | .body => "body"
  | .other => "other"

def all : List Role := [
  .expression, .thenStatement, .elseStatement, .typeArguments, .name, .arguments, .modifiers,
  .superclassType, .superInterfaceTypes, .bodyDeclarations, .initializers, .updaters, .body, .other]

def ofSpelling? (s : String) : Option Role := all.find? (·.spelling == s)

end Role

/-- The word of a node (an identifier, a literal as written, an operator, a modifier, the text or
the tag of documentation, the bound of a wildcard) and its flags. -/
structure Attrs where
  token : Option String := none
  isStatic : Bool := false
  isOnDemand : Bool := false
  isInterface : Bool := false
  isDefault : Bool := false
deriving DecidableEq, Repr, Inhabited

def Attrs.ofToken (token : String) : Attrs := { token := some token }

structure Node where
  kind : Kind
  role : Role := .other
  span : Span := .unknown
  attrs : Attrs := {}
deriving DecidableEq, Inhabited

end CanonTree.Syntax
