import CanonTree.Conversion
import CanonTree.Proofs.Rose

namespace CanonTree.Conversion

open Syntax (Branch Item Kind Role)

/-- A node that the conversion comes to, with the kind of its parent if it has one. -/
structure Visit where
  above : Option Kind
  node : Branch

/-- The roles that must be filled below a node, in the order in which they are asked for. -/
def demanded : Kind → List Role
  | .ifStatement => [.expression, .thenStatement]
  | .methodInvocation | .superMethodInvocation | .typeDeclaration | .importDeclaration => [.name]
  | .forStatement => [.body]
  | _ => []

def absent? (n : Branch) (r : Role) : Option Error :=
  if (Syntax.first? r n.children).isNone then
    some (.missingChild n.value.kind r n.value.span.start)
  else none

def missing? (n : Branch) : Option Error := (demanded n.value.kind).findSome? (absent? n)

/-- The children that the conversion goes on to, in the order in which it does. -/
def onward (n : Branch) : List Branch :=
  let all (r : Role) := Syntax.inRole r n.children
  let first (r : Role) := (Syntax.first? r n.children).toList
  match n.value.kind with
  | .ifStatement => first .expression ++ first .thenStatement ++ first .elseStatement
  | .methodInvocation | .superMethodInvocation | .qualifiedName => []
  | .typeDeclaration =>
    all .modifiers ++ first .superclassType ++ all .superInterfaceTypes ++ all .bodyDeclarations
  | .forStatement => all .initializers ++ first .expression ++ all .updaters ++ first .body
  | _ => n.children

namespace Visit

/-- A child that stands in a modifier list of a type declaration and must not. -/
def isIntruder (w : Visit) : Bool :=
  w.above = some .typeDeclaration && w.node.value.role = .modifiers &&
    !(w.node.value.kind = .modifier || w.node.value.kind.isAnnotating)

def malformation? (w : Visit) : Option Error :=
  if w.isIntruder then some (.unexpectedModifier w.node.value.kind w.node.value.span.start)
  else missing? w.node

def next (w : Visit) : List Visit := (onward w.node).map fun c => ⟨some w.node.value.kind, c⟩

end Visit

theorem mem_of_mem_onward {n c : Branch} (h : c ∈ onward n) : c ∈ n.children := by
  have hall : ∀ r, c ∈ Syntax.inRole r n.children → c ∈ n.children :=
    fun r h => (List.mem_filter.1 h).1
  have hfirst : ∀ r, c ∈ (Syntax.first? r n.children).toList → c ∈ n.children :=
    fun r h => List.mem_of_find?_eq_some (Option.mem_toList.1 h)
  unfold onward at h
  split at h <;> simp only [List.mem_append, List.not_mem_nil] at h
  · rcases h with (h | h) | h <;> exact hfirst _ h
  · rcases h with ((h | h) | h) | h
    · exact hall _ h
    · exact hfirst _ h
    · exact hall _ h
    · exact hall _ h
  · rcases h with ((h | h) | h) | h
    · exact hall _ h
    · exact hfirst _ h
    · exact hall _ h
    · exact hfirst _ h
  · exact h

namespace Visit

theorem size_of_mem_next {w u : Visit} (h : u ∈ w.next) : u.node.size < w.node.size := by
  obtain ⟨c, hc, rfl⟩ := List.mem_map.1 h
  exact Rose.size_lt_of_mem_children (mem_of_mem_onward hc)

/-- The visits of a conversion that meets no fault, in pre-order. -/
def traversal (w : Visit) : List Visit := w :: w.next.attach.flatMap fun u => traversal u.1
termination_by w.node.size
decreasing_by exact size_of_mem_next u.2

inductive Reached (w : Visit) : Visit → Prop where
  | self : Reached w w
  | step {u x : Visit} : Reached w u → x ∈ u.next → Reached w x

def fault? (w : Visit) : Option Error := w.traversal.findSome? malformation?

theorem traversal_eq (w : Visit) : w.traversal = w :: w.next.flatMap traversal := by
  rw [traversal]
  simp

theorem fault?_eq (w : Visit) : w.fault? = w.malformation?.or (w.next.findSome? fault?) := by
  have hforest : ∀ us : List Visit,
      (us.flatMap traversal).findSome? malformation? = us.findSome? fault? := by
    intro us
    induction us with
    | nil => rfl
    | cons u us ih =>
      rw [List.flatMap_cons, List.findSome?_append, ih, List.findSome?_cons, fault?]
      cases u.traversal.findSome? malformation? <;> rfl
  rw [fault?, traversal_eq, List.findSome?_cons, hforest]
  cases w.malformation? <;> rfl

theorem Reached.of_next {w u x : Visit} (hu : u ∈ w.next) (h : Reached u x) : Reached w x := by
  induction h with
  | self => exact .step .self hu
  | step _ hx ih => exact .step ih hx

theorem mem_traversal_of_mem_next {w u x : Visit} (hu : u ∈ w.traversal) (hx : x ∈ u.next) :
    x ∈ w.traversal := by
  rw [traversal_eq, List.mem_cons, List.mem_flatMap] at hu ⊢
  rcases hu with rfl | ⟨y, hy, hu⟩
  · exact Or.inr ⟨x, hx, by rw [traversal_eq]; exact List.mem_cons_self⟩
  · exact Or.inr ⟨y, hy, mem_traversal_of_mem_next hu hx⟩
termination_by w.node.size
decreasing_by exact size_of_mem_next hy

theorem reached_of_mem_traversal {w u : Visit} (h : u ∈ w.traversal) : Reached w u := by
  rw [traversal_eq, List.mem_cons, List.mem_flatMap] at h
  rcases h with rfl | ⟨y, hy, h⟩
  · exact .self
  · exact (reached_of_mem_traversal h).of_next hy
termination_by w.node.size
decreasing_by exact size_of_mem_next hy

theorem mem_traversal {w u : Visit} : u ∈ w.traversal ↔ Reached w u := by
  refine ⟨reached_of_mem_traversal, fun h => ?_⟩
  induction h with
  | self => rw [traversal_eq]; exact List.mem_cons_self
  | step _ hx ih => exact mem_traversal_of_mem_next ih hx

end Visit
end CanonTree.Conversion
