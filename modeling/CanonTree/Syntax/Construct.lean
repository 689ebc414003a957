import CanonTree.Error
import CanonTree.Syntax.Tree

namespace CanonTree.Syntax

def inRole (r : Role) (cs : List Branch) : List Branch := cs.filter (·.value.role = r)

def first? (r : Role) (cs : List Branch) : Option Branch := cs.find? (·.value.role = r)

def required (r : Role) (b : Branch) : Except Error Branch :=
  match first? r b.children with
  | some c => .ok c
  | none => .error (.missingChild b.value.kind r b.value.span.start)

structure Choice where
  condition : Branch
  thenBranch : Branch
  elseBranch : Option Branch

def Choice.of (b : Branch) : Except Error Choice := do
  return {
    condition := ← required .expression b
    thenBranch := ← required .thenStatement b
    elseBranch := first? .elseStatement b.children }

structure Call where
  receiver : Option Branch
  typeArguments : List Branch
  name : Branch
  arguments : List Branch

/-- A call through `super` has no receiver, not even a qualified one. -/
def Call.of (b : Branch) : Except Error Call := do
  return {
    receiver :=
      if b.value.kind = .superMethodInvocation then none else first? .expression b.children
    typeArguments := inRole .typeArguments b.children
    name := ← required .name b
    arguments := inRole .arguments b.children }

structure TypeDeclaration where
  modifiers : List Branch
  name : Branch
  superclass : Option Branch
  superInterfaces : List Branch
  body : List Branch

/-- Only the name must be there; documentation and type parameters are no parts. -/
def TypeDeclaration.of (b : Branch) : Except Error TypeDeclaration := do
  return {
    modifiers := inRole .modifiers b.children
    name := ← required .name b
    superclass := first? .superclassType b.children
    superInterfaces := inRole .superInterfaceTypes b.children
    body := inRole .bodyDeclarations b.children }

structure Loop where
  initializers : List Branch
  condition : Option Branch
  updaters : List Branch
  body : Branch

def Loop.of (b : Branch) : Except Error Loop := do
  return {
    initializers := inRole .initializers b.children
    condition := first? .expression b.children
    updaters := inRole .updaters b.children
    body := ← required .body b }

structure Import where
  name : Branch
  isStatic : Bool
  isOnDemand : Bool

def Import.of (b : Branch) : Except Error Import := do
  return {
    name := ← required .name b
    isStatic := b.value.attrs.isStatic
    isOnDemand := b.value.attrs.isOnDemand }

end CanonTree.Syntax
