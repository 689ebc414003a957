import CanonTree.Proofs.Fallible
import CanonTree.Proofs.Syntax.Building
import CanonTree.Syntax.Document.Reader

namespace CanonTree.Syntax

open Entry (Stage Free graft)

theorem Kind.mem_all (k : Kind) : k ∈ Kind.all := by
  cases k <;> decide

theorem Kind.ofName?_name (k : Kind) : Kind.ofName? k.name = some k := by
  have h : ∀ k ∈ Kind.all, Kind.ofName? k.name = some k := by decide +kernel
  exact h k k.mem_all

namespace DocNode

def ofNode (n : Node) : DocNode :=
  { kind := n.kind.name, span := n.span, role := n.role, attrs := n.attrs }

theorem eq_ofNode {d : DocNode} {n : Node} (h : d.toNode = .ok n) : d = ofNode n := by
  rw [toNode] at h
  split at h
  · rename_i k hk
    cases h
    have hname : k.name = d.kind := by simpa using List.find?_some hk
    simp [ofNode, hname]
  · cases h

theorem toNode_ofNode (n : Node) : (ofNode n).toNode = .ok n := by
  simp [toNode, ofNode, Kind.ofName?_name]

end DocNode

namespace Builder

/-- The second builder is the first with a forest hung below its innermost open node. -/
structure Planted (cs : List (Rose Node)) (b b' : Builder) : Prop where
  source : b'.source = b.source
  stack : b'.stack = b.stack
  extraRoots : b'.extraRoots = b.extraRoots
  root : b'.root = b.root.or (some b.size)
  rows : b'.arena.rows = graft b.stack.head? b.arena.rows cs

structure Open (b : Builder) : Prop where
  stack : b.stack ≠ []
  root : b.root ≠ none

theorem Open.free {b : Builder} (h : b.Open) : Free b.stack b.root :=
  ⟨fun hs => absurd hs h.stack, fun hr => absurd hr h.root⟩

theorem open_start {b : Builder} (n : Node) (hf : Free b.stack b.root) : (b.start n).2.Open where
  stack := List.cons_ne_nil b.size b.stack
  root := by
    change (b.leaf n).2.root ≠ none
    rw [root_leaf n hf]
    simp

theorem Planted.open {cs : List (Rose Node)} {b b' : Builder} (h : Planted cs b b') (hb : b.Open) :
    b'.Open :=
  ⟨by rw [h.stack]; exact hb.stack, by rw [h.root]; simp⟩

theorem Planted.nil {b : Builder} (h : b.Open) : Planted [] b b where
  source := rfl
  stack := rfl
  extraRoots := rfl
  root := by
    obtain ⟨r, hr⟩ := Option.ne_none_iff_exists'.1 h.root
    simp [hr]
  rows := (Entry.graft_nil _ _).symm

theorem Planted.append {cs ds : List (Rose Node)} {b b' b'' : Builder} (h : Planted cs b b')
    (h' : Planted ds b' b'') : Planted (cs ++ ds) b b'' where
  source := h'.source.trans h.source
  stack := h'.stack.trans h.stack
  extraRoots := h'.extraRoots.trans h.extraRoots
  root := by
    rw [h'.root, h.root]
    cases b.root <;> rfl
  rows := by
    rw [h'.rows, h.stack, h.rows, Entry.graft_append]
    simpa [Arena.length_rows] using b.head_lt

theorem Planted.node {cs : List (Rose Node)} {b b' : Builder} (n : Node)
    (hf : Free b.stack b.root) (h : Planted cs (b.start n).2 b') :
    Planted [.node n cs] b b'.finish where
  source := h.source
  stack := by
    change b'.stack.tail = b.stack
    rw [h.stack]
    rfl
  extraRoots := h.extraRoots.trans (extraRoots_leaf_of_free n hf)
  root := by
    change b'.root = _
    rw [h.root]
    change (b.leaf n).2.root.or _ = _
    rw [root_leaf n hf]
    cases b.root <;> rfl
  rows := by
    change b'.arena.rows = _
    rw [h.rows]
    change graft (some b.size) (b.leaf n).2.arena.rows cs = _
    rw [rows_leaf, size, ← Arena.length_rows, Entry.graft_leaf]

end Builder

namespace Document

open Builder (Planted)

mutual
theorem plant_ok : ∀ (r : Rose Node) {b : Builder}, Free b.stack b.root →
    ∃ b', plant (r.map DocNode.ofNode) b = .ok b' ∧ Planted [r] b b'
  | .node n cs, b, hf => by
    obtain ⟨b', hplant, h⟩ := plantAll_ok cs (Builder.open_start n hf)
    refine ⟨b'.finish, ?_, h.node n hf⟩
    rw [Rose.map, plant, DocNode.toNode_ofNode]
    change (plantAll (Rose.maps DocNode.ofNode cs) (b.start n).2 >>= fun b => .ok b.finish) = _
    rw [hplant]
    rfl

theorem plantAll_ok : ∀ (cs : List (Rose Node)) {b : Builder}, b.Open →
    ∃ b', plantAll (Rose.maps DocNode.ofNode cs) b = .ok b' ∧ Planted cs b b'
  | [], b, h => ⟨b, rfl, .nil h⟩
  | c :: cs, b, h => by
    obtain ⟨b₁, hc, h₁⟩ := plant_ok c h.free
    obtain ⟨b₂, hcs, h₂⟩ := plantAll_ok cs (h₁.open h)
    refine ⟨b₂, ?_, h₁.append h₂⟩
    rw [Rose.maps, plantAll, hc]
    exact hcs
end

/-- The document of a tree of nodes makes a tree of that shape. -/
theorem toTree_ok (source : String) (r : Rose Node) :
    ∃ t, toTree ⟨source, r.map DocNode.ofNode⟩ = .ok t ∧ t.source = source ∧ t.Shaped r := by
  have hfree : Free (Builder.ofSource source).stack (Builder.ofSource source).root :=
    Iff.intro (fun _ => rfl) fun _ => rfl
  obtain ⟨b, hplant, h⟩ := plant_ok r hfree
  obtain ⟨t, hbuild, hsource, hroot, harena⟩ := Builder.build_ok h.stack h.extraRoots h.root
  refine ⟨t, ?_, hsource.trans h.source, hroot, ?_⟩
  · rw [toTree, hplant]
    exact hbuild
  · rw [harena, h.rows]
    exact Entry.graft_none_nil r

theorem ofTree_eq {t : Tree} {r : Rose Node} (h : t.Shaped r) :
    ofTree t = ⟨t.source, r.map DocNode.ofNode⟩ := by
  rw [ofTree, h.trunk, Rose.map_number]
  congr 1
  exact Rose.number_const DocNode.ofNode 0 r

theorem toTree_ofTree {t : Tree} {r : Rose Node} (h : t.Shaped r) : (ofTree t).toTree = .ok t := by
  obtain ⟨s, hs, hsource, hshape⟩ := toTree_ok t.source r
  rw [ofTree_eq h, hs, hshape.ext h hsource]

mutual
theorem exists_of_plant : ∀ (r : Rose DocNode) {b b' : Builder}, plant r b = .ok b' →
    ∃ s : Rose Node, r = s.map DocNode.ofNode
  | .node d cs, b, b', h => by
    rw [plant] at h
    obtain ⟨n, hd, h⟩ := bind_eq_ok.1 h
    obtain ⟨b₁, hcs, -⟩ := bind_eq_ok.1 h
    obtain ⟨ss, rfl⟩ := exists_of_plantAll cs hcs
    exact ⟨.node n ss, by rw [Rose.map, DocNode.eq_ofNode hd]⟩

theorem exists_of_plantAll : ∀ (cs : List (Rose DocNode)) {b b' : Builder},
    plantAll cs b = .ok b' → ∃ ss : List (Rose Node), cs = Rose.maps DocNode.ofNode ss
  | [], _, _, _ => ⟨[], rfl⟩
  | c :: cs, b, b', h => by
    rw [plantAll] at h
    obtain ⟨b₁, hc, hcs⟩ := bind_eq_ok.1 h
    obtain ⟨s, rfl⟩ := exists_of_plant c hc
    obtain ⟨ss, rfl⟩ := exists_of_plantAll cs hcs
    exact ⟨s :: ss, by rw [Rose.maps]⟩
end

theorem shaped_of_toTree {d : Document} {t : Tree} (h : d.toTree = .ok t) : ∃ r, t.Shaped r := by
  obtain ⟨source, root⟩ := d
  cases hp : plant root (Builder.ofSource source) with
  | error e =>
    rw [toTree, hp] at h
    cases h
  | ok b =>
    obtain ⟨r, rfl⟩ := exists_of_plant root hp
    obtain ⟨t', ht', -, hshape⟩ := toTree_ok source r
    cases ht'.symm.trans h
    exact ⟨r, hshape⟩

end Document

/-- The trees there are: made call by call, or read from a text. -/
inductive Tree.Made : Tree → Prop
  | built {source : String} {calls : List Builder.Call} {t : Tree} :
      ((Builder.ofSource source).run calls).build = .ok t → Made t
  | loaded {text : String} {t : Tree} : Tree.ofJson text = .ok t → Made t

theorem Tree.Made.shaped {t : Tree} (h : t.Made) : ∃ r, t.Shaped r := by
  cases h with
  | built h => exact (Builder.shaped_of_build h).2
  | @loaded text _ h =>
    rw [Tree.ofJson] at h
    cases hd : Document.read text with
    | error e =>
      rw [hd] at h
      cases h
    | ok d =>
      rw [hd] at h
      exact Document.shaped_of_toTree h

end CanonTree.Syntax
