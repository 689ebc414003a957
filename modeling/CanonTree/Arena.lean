import CanonTree.Rose

namespace CanonTree

structure Entry (α : Type) where
  value : α
  parent : Option Nat := none
  children : Array Nat := #[]

/-- A list of entries in which children come after their parents, and parents before their
children. -/
structure Arena (α : Type) where
  entries : Array (Entry α) := #[]
  children_gt : ∀ i (h : i < entries.size),
      ∀ c ∈ entries[i].children, i < c ∧ c < entries.size := by
    simp
  parent_lt : ∀ i (h : i < entries.size), ∀ p ∈ entries[i].parent, p < i := by simp

namespace Arena

variable {α β : Type}

def size (a : Arena α) : Nat := a.entries.size

instance : GetElem (Arena α) Nat (Entry α) (fun a i => i < a.size) where
  getElem a i h := a.entries[i]

def addRoot (a : Arena α) (v : α) : Arena α where
  entries := a.entries.push { value := v }
  children_gt i h c hc := by
    rw [Array.getElem_push] at hc
    split at hc
    · have := a.children_gt i ‹_› c hc
      simp only [Array.size_push]
      omega
    · simp at hc
  parent_lt i h p hp := by
    rw [Array.getElem_push] at hp
    split at hp
    · exact a.parent_lt i ‹_› p hp
    · simp at hp

def adopt (child : Nat) (e : Entry α) : Entry α :=
  { e with children := e.children.push child }

def addChild (a : Arena α) (p : Nat) (hp : p < a.size) (v : α) : Arena α where
  entries := (a.entries.modify p (adopt a.size)).push { value := v, parent := some p }
  children_gt i h c hc := by
    simp only [Array.size_push, Array.size_modify] at h ⊢
    rw [Array.getElem_push] at hc
    split at hc
    · rename_i hi
      rw [Array.getElem_modify] at hc
      simp only [Array.size_modify] at hi
      split at hc
      · subst_vars
        simp only [adopt, Array.mem_push] at hc
        rcases hc with hc | rfl
        · have := a.children_gt _ hp c hc
          omega
        · simp only [size] at hp ⊢
          omega
      · have := a.children_gt i hi c hc
        omega
    · simp at hc
  parent_lt i h q hq := by
    simp only [Array.size_push, Array.size_modify] at h
    rw [Array.getElem_push] at hq
    split at hq
    · rename_i hi
      rw [Array.getElem_modify] at hq
      simp only [Array.size_modify] at hi
      split at hq
      · subst_vars
        exact a.parent_lt _ hp q hq
      · exact a.parent_lt i hi q hq
    · simp only [Array.size_modify] at *
      simp only [Option.mem_def, Option.some.injEq] at hq
      simp only [size] at hp
      omega

def add (a : Arena α) (p : Option Nat) (hp : ∀ i ∈ p, i < a.size) (v : α) : Arena α :=
  match p with
  | none => a.addRoot v
  | some i => a.addChild i (hp i rfl) v

@[simp] theorem size_addRoot (a : Arena α) (v : α) : (a.addRoot v).size = a.size + 1 := by
  simp [size, addRoot]

@[simp] theorem size_addChild (a : Arena α) (p : Nat) (hp : p < a.size) (v : α) :
    (a.addChild p hp v).size = a.size + 1 := by
  simp [size, addChild]

@[simp] theorem size_add (a : Arena α) (p : Option Nat) (hp : ∀ i ∈ p, i < a.size) (v : α) :
    (a.add p hp v).size = a.size + 1 := by
  cases p <;> simp [add]

/-- The tree below node `i`, in which `f` makes a value of a number and what is stored there. -/
def subtree (f : Nat → α → β) (a : Arena α) (i : Nat) (h : i < a.size) : Rose β :=
  .node (f i a.entries[i].value)
    (a.entries[i].children.toList.attach.map fun c =>
      have hc := a.children_gt i h c.1 (by simpa using c.2)
      subtree f a c.1 hc.2)
termination_by a.size - i
decreasing_by
  simp only [size] at *
  omega

def depth (a : Arena α) (i : Nat) (h : i < a.size) : Nat :=
  match hp : a.entries[i].parent with
  | none => 0
  | some p =>
    have : p < i := a.parent_lt i h p hp
    a.depth p (Nat.lt_trans this h) + 1
termination_by i

end Arena
end CanonTree
