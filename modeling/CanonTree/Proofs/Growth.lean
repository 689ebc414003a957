import CanonTree.Proofs.Layout

namespace CanonTree.Entry

open Rose (layout)

variable {α : Type}

/-- The entries of a tree some of whose nodes are open; their numbers, the innermost first. -/
inductive Unfinished : List Nat → List (Entry α) → Prop where
  | nothing : Unfinished [] []
  | node {stack : List Nat} {es : List (Entry α)} (v : α) (cs : List (Rose α)) :
    Unfinished stack es → Unfinished (es.length :: stack) (graft stack.head? es [.node v cs])

/-- What is added below the innermost open node only gives it more children. -/
theorem Unfinished.hang {i : Nat} {stack : List Nat} {es : List (Entry α)}
    (h : Unfinished (i :: stack) es) (cs : List (Rose α)) :
    Unfinished (i :: stack) (graft (some i) es cs) := by
  cases h with
  | node v ds h' =>
    rw [graft_node]
    exact .node v (ds ++ cs) h'

/-- How far the making of a tree has come: the open nodes, the root and the entries. -/
inductive Stage : List Nat → Option Nat → List (Entry α) → Prop where
  | fresh : Stage [] none []
  | growing {i : Nat} {stack : List Nat} {es : List (Entry α)} (h : Unfinished (i :: stack) es) :
    Stage (i :: stack) (some 0) es
  | grown (r : Rose α) : Stage [] (some 0) (r.layout none 0)

/-- A node can be added: either one is open or there is no root yet. -/
def Free (stack : List Nat) (root : Option Nat) : Prop := stack = [] ↔ root = none

namespace Stage

variable {stack : List Nat} {root : Option Nat} {es : List (Entry α)}

theorem free (h : Stage stack root es) (hr : stack = [] → root = none) : Free stack root := by
  refine ⟨hr, fun hn => ?_⟩
  cases h with
  | fresh => rfl
  | growing h' => cases hn
  | grown r => rfl

theorem start (h : Stage stack root es) (hf : Free stack root) (v : α) :
    Stage (es.length :: stack) (root.or (some es.length)) (graft stack.head? es [.node v []]) := by
  cases h with
  | fresh => exact .growing (.node v [] .nothing)
  | growing h' => exact .growing (.node v [] h')
  | grown r => simp [Free] at hf

theorem leaf (h : Stage stack root es) (hf : Free stack root) (v : α) :
    Stage stack (root.or (some es.length)) (graft stack.head? es [.node v []]) := by
  cases h with
  | fresh =>
    rw [List.head?_nil, graft_none_nil]
    exact .grown (.node v [])
  | growing h' => exact .growing (h'.hang [.node v []])
  | grown r => simp [Free] at hf

theorem finish (h : Stage stack root es) : Stage stack.tail root es := by
  cases h with
  | fresh => exact .fresh
  | grown r => exact .grown r
  | growing h' =>
    cases h' with
    | node v cs h'' =>
      cases h'' with
      | nothing =>
        rw [List.head?_nil, graft_none_nil]
        exact .grown (.node v cs)
      | node w ds h₃ => exact .growing ((Unfinished.node w ds h₃).hang [.node v cs])

theorem root_eq_none (h : Stage stack root es) : root = none ↔ es = [] := by
  cases h with
  | fresh => simp
  | growing h' =>
    cases h' with
    | node v cs _ => simp [← List.length_eq_zero_iff, Rose.sizes, Rose.size]
  | grown r => simp [← List.length_eq_zero_iff, Nat.ne_of_gt r.size_pos]

theorem rose_of_closed {i : Nat} (h : Stage [] (some i) es) :
    i = 0 ∧ ∃ r : Rose α, es = r.layout none 0 := by
  cases h with
  | grown r => exact ⟨rfl, r, rfl⟩

end Stage

end CanonTree.Entry
