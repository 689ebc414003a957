import Mathlib.Data.List.Induction
import CanonTree.Proofs.Syntax.Building

namespace CanonTree.Syntax.Builder

namespace Call

def isStart : Call → Bool
  | start _ => true
  | _ => false

def isFinish : Call → Bool
  | finish => true
  | _ => false

def node? : Call → Option Node
  | start n | leaf n => some n
  | finish => none

end Call

def additions (calls : List Call) : Nat := calls.countP (·.node?.isSome)

theorem additions_cons (c : Call) (calls : List Call) :
    additions (c :: calls) = additions calls + if c.node?.isSome then 1 else 0 :=
  List.countP_cons

/-- The calls close nothing that was open before them: nowhere among them have there been more
finishes than starts. -/
def Keeps (calls : List Call) : Prop :=
  ∀ p, p <+: calls → p.countP Call.isFinish ≤ p.countP Call.isStart

/-- How many of the nodes that were open before them the calls close. -/
def surplus : List Call → Nat
  | [] => 0
  | .start _ :: calls => surplus calls - 1
  | .leaf _ :: calls => surplus calls
  | .finish :: calls => surplus calls + 1

theorem surplus_le_iff {calls : List Call} {k : Nat} : surplus calls ≤ k ↔
    ∀ p, p <+: calls → p.countP Call.isFinish ≤ p.countP Call.isStart + k := by
  induction calls generalizing k with
  | nil => simp [surplus]
  | cons c calls ih =>
    have hcons : (∀ p, p <+: c :: calls → p.countP Call.isFinish ≤ p.countP Call.isStart + k) ↔
        ∀ p, p <+: calls →
          (c :: p).countP Call.isFinish ≤ (c :: p).countP Call.isStart + k := by
      constructor
      · exact fun h p hp => h (c :: p) ((List.prefix_cons_inj c).2 hp)
      · intro h p hp
        rcases List.prefix_cons_iff.1 hp with rfl | ⟨q, rfl, hq⟩
        · simp
        · exact h q hq
    rw [hcons]
    cases c with
    | start n =>
      rw [surplus, Nat.sub_le_iff_le_add, ih]
      simp [List.countP_cons, Call.isFinish, Call.isStart, Nat.add_right_comm, Nat.add_assoc]
    | leaf n =>
      rw [surplus, ih]
      simp [Call.isFinish, Call.isStart]
    | finish =>
      cases k with
      | zero =>
        simp only [surplus, Nat.le_zero_eq, Nat.succ_ne_zero, false_iff]
        exact fun h => absurd (h [] List.nil_prefix) (by simp [Call.isFinish, Call.isStart])
      | succ k =>
        rw [surplus, Nat.add_le_add_iff_right, ih]
        simp [List.countP_cons, Call.isFinish, Call.isStart, ← Nat.add_assoc]

theorem surplus_eq_zero {calls : List Call} : surplus calls = 0 ↔ Keeps calls := by
  rw [← Nat.le_zero_eq, surplus_le_iff]
  rfl

instance (calls : List Call) : Decidable (Keeps calls) := decidable_of_iff _ surplus_eq_zero

/-- The nodes that the calls leave open, the outermost first: those whose start is followed by calls
that close only what was opened later. Nodes are numbered from `i` on. -/
def openNodes (i : Nat) : List Call → List Nat
  | [] => []
  | .start _ :: calls => (if Keeps calls then [i] else []) ++ openNodes (i + 1) calls
  | .leaf _ :: calls => openNodes (i + 1) calls
  | .finish :: calls => openNodes i calls

/-- How many of the calls add a node while all that was opened before is closed again; `past` are
the calls that went before. -/
def outermost (past : List Call) : List Call → Nat
  | [] => 0
  | c :: calls =>
    (if c.node?.isSome ∧ openNodes 0 past = [] then 1 else 0) + outermost (past ++ [c]) calls

def made (source : String) (calls : List Call) : Builder := (ofSource source).run calls

theorem size_leaf_eq (b : Builder) (n : Node) : (b.leaf n).2.size = b.size + 1 := b.size_leaf n

theorem size_start (b : Builder) (n : Node) : (b.start n).2.size = b.size + 1 := b.size_leaf n

theorem size_run (b : Builder) (calls : List Call) :
    (b.run calls).size = b.size + additions calls := by
  induction calls generalizing b with
  | nil => rfl
  | cons c calls ih =>
    change ((b.call c).run calls).size = _
    rw [ih, additions_cons]
    cases c with
    | start n =>
      rw [call, size_start]
      simp only [Call.node?, Option.isSome_some, if_true]
      omega
    | leaf n =>
      rw [call, size_leaf_eq]
      simp only [Call.node?, Option.isSome_some, if_true]
      omega
    | finish => rfl

/-- Below the nodes that the calls leave open stands what they left of those open before. -/
theorem stack_run (b : Builder) (calls : List Call) :
    (b.run calls).stack = (openNodes b.size calls).reverse ++ b.stack.drop (surplus calls) := by
  induction calls generalizing b with
  | nil => simp [run, openNodes, surplus]
  | cons c calls ih =>
    change ((b.call c).run calls).stack = _
    rw [ih]
    cases c with
    | start n =>
      have hstack : (b.call (.start n)).stack = b.size :: b.stack := rfl
      rw [hstack, call, size_start, openNodes, surplus]
      by_cases hk : surplus calls = 0
      · rw [if_pos (surplus_eq_zero.1 hk), hk]
        simp
      · obtain ⟨k, hk'⟩ := Nat.exists_eq_succ_of_ne_zero hk
        rw [if_neg (mt surplus_eq_zero.2 hk), hk']
        simp
    | leaf n =>
      have hstack : (b.call (.leaf n)).stack = b.stack := rfl
      rw [hstack, call, size_leaf_eq, openNodes, surplus]
    | finish =>
      have hstack : (b.call .finish).stack = b.stack.tail := rfl
      have hsize : (b.call .finish).size = b.size := rfl
      rw [hstack, hsize, openNodes, surplus, List.drop_tail]

theorem size_made (source : String) (calls : List Call) :
    (made source calls).size = additions calls := by
  rw [made, size_run]
  exact Nat.zero_add _

theorem stack_made (source : String) (calls : List Call) :
    (made source calls).stack = (openNodes 0 calls).reverse := by
  rw [made, stack_run]
  have hsize : (ofSource source).size = 0 := rfl
  have hstack : (ofSource source).stack = [] := rfl
  rw [hsize, hstack, List.drop_nil, List.append_nil]

theorem made_concat (source : String) (calls : List Call) (c : Call) :
    made source (calls ++ [c]) = (made source calls).call c := by
  simp [made, run]

theorem stack_made_eq_nil (source : String) (calls : List Call) :
    (made source calls).stack = [] ↔ openNodes 0 calls = [] := by
  rw [stack_made, List.reverse_eq_nil_iff]

theorem outermost_concat (past calls : List Call) (c : Call) :
    outermost past (calls ++ [c]) = outermost past calls +
      if c.node?.isSome ∧ openNodes 0 (past ++ calls) = [] then 1 else 0 := by
  induction calls generalizing past with
  | nil => simp [outermost]
  | cons d calls ih =>
    rw [List.cons_append, outermost, ih, outermost, List.append_assoc, List.singleton_append,
      Nat.add_assoc]

theorem outermost_of_no_additions {calls : List Call} (past : List Call)
    (h : additions calls = 0) : outermost past calls = 0 := by
  induction calls generalizing past with
  | nil => rfl
  | cons c calls ih =>
    rw [additions_cons] at h
    have hc : ¬ c.node?.isSome := by
      intro hc
      rw [if_pos hc] at h
      omega
    rw [outermost, if_neg fun hcond => hc hcond.1, ih (past ++ [c]) (by omega)]

def roots (b : Builder) : Nat := b.extraRoots + if b.root = none then 0 else 1

theorem roots_leaf (b : Builder) (n : Node) :
    (b.leaf n).2.roots = b.roots + if b.stack = [] then 1 else 0 := by
  cases hs : b.stack <;> cases hr : b.root <;> simp [roots, leaf, hs, hr]

theorem roots_call (b : Builder) (c : Call) :
    (b.call c).roots = b.roots + if c.node?.isSome ∧ b.stack = [] then 1 else 0 := by
  cases c with
  | start n =>
    have hleaf : (b.call (.start n)).roots = (b.leaf n).2.roots := rfl
    simp [hleaf, roots_leaf, Call.node?]
  | leaf n =>
    have hleaf : (b.call (.leaf n)).roots = (b.leaf n).2.roots := rfl
    simp [hleaf, roots_leaf, Call.node?]
  | finish => rfl

theorem roots_made (source : String) (calls : List Call) :
    (made source calls).roots = outermost [] calls := by
  induction calls using List.reverseRecOn with
  | nil => rfl
  | append_singleton calls c ih =>
    rw [made_concat, roots_call, ih, outermost_concat, List.nil_append]
    simp only [stack_made_eq_nil]

theorem root_leaf_ne_none {b : Builder} (n : Node) (h : b.root = none → b.size = 0) :
    (b.leaf n).2.root ≠ none := by
  cases hr : b.root with
  | some r => simp [leaf, hr]
  | none =>
    -- an open node would have a number below the size
    have hs : b.stack = [] := by
      rw [List.eq_nil_iff_forall_not_mem]
      intro i hi
      exact absurd (b.stack_lt i hi) (by rw [show b.arena.size = 0 from h hr]; omega)
    simp [leaf, hr, hs]

theorem root_made_eq_none (source : String) (calls : List Call) :
    (made source calls).root = none ↔ additions calls = 0 := by
  rw [← size_made source]
  induction calls using List.reverseRecOn with
  | nil => exact Iff.intro (fun _ => rfl) fun _ => rfl
  | append_singleton calls c ih =>
    rw [made_concat]
    cases c with
    | start n =>
      rw [call, size_start]
      exact iff_of_false (root_leaf_ne_none n ih.1) (Nat.succ_ne_zero _)
    | leaf n =>
      rw [call, size_leaf_eq]
      exact iff_of_false (root_leaf_ne_none n ih.1) (Nat.succ_ne_zero _)
    | finish => exact ih

/-- All outermost nodes but the first are beside the root. -/
theorem outermost_eq (source : String) (calls : List Call) :
    outermost [] calls = if additions calls = 0 then 0 else (made source calls).extraRoots + 1 := by
  split
  · rename_i h
    exact outermost_of_no_additions [] h
  · rename_i h
    rw [← roots_made source, roots, if_neg (mt (root_made_eq_none source calls).1 h)]

theorem extraRoots_of_no_additions {source : String} {calls : List Call}
    (h : additions calls = 0) : (made source calls).extraRoots = 0 := by
  have hroots := roots_made source calls
  rw [outermost_of_no_additions [] h, roots] at hroots
  omega

end CanonTree.Syntax.Builder
