import CanonTree.Proofs.Nesting
import CanonTree.Proofs.Syntax.Loading

namespace CanonTree.Syntax

namespace DocNode

def Known (d : DocNode) : Prop := ∃ k : Kind, k.name = d.kind

theorem known_ofNode (n : Node) : (ofNode n).Known := ⟨n.kind, rfl⟩

theorem toNode_of_known {d : DocNode} (h : d.Known) : ∃ n, d.toNode = .ok n := by
  obtain ⟨k, hk⟩ := h
  rw [toNode, ← hk, Kind.ofName?_name]
  exact ⟨_, rfl⟩

theorem toNode_eq_error {d : DocNode} {e : Error} (h : d.toNode = .error e) :
    ¬ d.Known ∧ e = .unknownKind d.kind := by
  refine ⟨fun hknown => ?_, ?_⟩
  · obtain ⟨n, hn⟩ := toNode_of_known hknown
    cases h.symm.trans hn
  · rw [toNode] at h
    split at h
    · cases h
    · cases h
      rfl

def ofEntry (e : Entry Node) : Entry DocNode := e.map ofNode

end DocNode

namespace Document

/-- Why the document makes no tree: the first kind in pre-order that there is not. -/
def Refused (d : Document) (e : Error) : Prop :=
  ∃ before n after, d.root.preorder = before ++ n :: after ∧ (∀ m ∈ before, m.Known) ∧ ¬ n.Known ∧
    e = .unknownKind n.kind

theorem known_of_map {s : Rose Node} {d : DocNode} (h : d ∈ (s.map DocNode.ofNode).preorder) :
    d.Known := by
  rw [Rose.preorder_map] at h
  obtain ⟨n, -, rfl⟩ := List.mem_map.1 h
  exact DocNode.known_ofNode n

mutual
theorem refused_of_plant : ∀ (r : Rose DocNode) {b : Builder} {e : Error}, plant r b = .error e →
    ∃ before n after, r.preorder = before ++ n :: after ∧ (∀ m ∈ before, m.Known) ∧ ¬ n.Known ∧
      e = .unknownKind n.kind
  | .node d cs, b, e, h => by
    rw [plant] at h
    cases hd : d.toNode with
    | error e' =>
      rw [hd] at h
      cases h
      obtain ⟨hunknown, rfl⟩ := DocNode.toNode_eq_error hd
      exact ⟨[], d, Rose.preorders cs, rfl, by simp, hunknown, rfl⟩
    | ok n =>
      rw [hd] at h
      change (plantAll cs (b.start n).2 >>= fun b => .ok b.finish) = _ at h
      cases hcs : plantAll cs (b.start n).2 with
      | ok b' =>
        rw [hcs] at h
        cases h
      | error e' =>
        rw [hcs] at h
        cases h
        obtain ⟨before, u, after, hsplit, hknown, hu, he⟩ := refused_of_plantAll cs hcs
        refine ⟨d :: before, u, after, by rw [Rose.preorder, hsplit]; rfl, ?_, hu, he⟩
        intro m hm
        rcases List.mem_cons.1 hm with rfl | hm
        · rw [DocNode.eq_ofNode hd]
          exact DocNode.known_ofNode n
        · exact hknown m hm

theorem refused_of_plantAll : ∀ (cs : List (Rose DocNode)) {b : Builder} {e : Error},
    plantAll cs b = .error e → ∃ before n after, Rose.preorders cs = before ++ n :: after ∧
      (∀ m ∈ before, m.Known) ∧ ¬ n.Known ∧ e = .unknownKind n.kind
  | [], b, e, h => by cases h
  | c :: cs, b, e, h => by
    rw [plantAll] at h
    cases hc : plant c b with
    | error e' =>
      rw [hc] at h
      cases h
      obtain ⟨before, u, after, hsplit, hknown, hu, he⟩ := refused_of_plant c hc
      exact ⟨before, u, after ++ Rose.preorders cs, by simp [Rose.preorders, hsplit], hknown, hu,
        he⟩
    | ok b' =>
      rw [hc] at h
      obtain ⟨s, rfl⟩ := exists_of_plant c hc
      obtain ⟨before, u, after, hsplit, hknown, hu, he⟩ := refused_of_plantAll cs h
      refine ⟨_ ++ before, u, after, by rw [Rose.preorders, hsplit, List.append_assoc], ?_, hu, he⟩
      intro m hm
      rcases List.mem_append.1 hm with hm | hm
      · exact known_of_map hm
      · exact hknown m hm
end

theorem toTree_cases (d : Document) :
    (∃ (r : Rose Node) (t : Tree), d.root = r.map DocNode.ofNode ∧ d.toTree = .ok t ∧
      t.source = d.source ∧ t.Shaped r) ∨ ∃ e, d.toTree = .error e ∧ d.Refused e := by
  obtain ⟨source, root⟩ := d
  cases hp : plant root (Builder.ofSource source) with
  | error e =>
    refine Or.inr ⟨e, ?_, refused_of_plant root hp⟩
    rw [toTree, hp]
    rfl
  | ok b =>
    obtain ⟨r, rfl⟩ := exists_of_plant root hp
    obtain ⟨t, ht, hsource, hshape⟩ := toTree_ok source r
    exact Or.inl ⟨r, t, rfl, ht, hsource, hshape⟩

theorem Refused.unique {d : Document} {e e' : Error} (h : d.Refused e) (h' : d.Refused e') :
    e = e' := by
  classical
  have hfind : ∀ {e : Error}, d.Refused e →
      ∃ n, d.root.preorder.find? (fun m => ¬ m.Known) = some n ∧ e = .unknownKind n.kind := by
    rintro e ⟨before, n, after, hsplit, hbefore, hn, rfl⟩
    refine ⟨n, List.find?_eq_some_iff_append.2 ⟨by simpa using hn, before, after, hsplit, ?_⟩, rfl⟩
    simpa using hbefore
  obtain ⟨n, hn, rfl⟩ := hfind h
  obtain ⟨n', hn', rfl⟩ := hfind h'
  cases hn.symm.trans hn'
  rfl

/-- The tree that a document makes has its source and its nodes, numbered and nested as there. -/
structure Loaded (d : Document) (t : Tree) : Prop where
  source : t.source = d.source
  root : t.root = 0
  mirrored : d.root.Mirrored (t.arena.rows.map DocNode.ofEntry)
  back : ofTree t = d

theorem loaded_of_shaped {d : Document} {r : Rose Node} {t : Tree}
    (hd : d.root = r.map DocNode.ofNode) (hs : t.source = d.source) (h : t.Shaped r) :
    d.Loaded t where
  source := hs
  root := h.root
  mirrored := by
    have hrows : t.arena.rows.map DocNode.ofEntry = (r.map DocNode.ofNode).layout none 0 := by
      rw [h.rows, Rose.layout_map]
      rfl
    rw [hd, hrows]
    exact Rose.mirrored_layout _
  back := by
    rw [ofTree_eq h, hs, ← hd]

/-- Documents without unknown kinds and trees that a builder makes correspond to each other. -/
theorem toTree_correspondence :
    (∀ d : Document, ((∃ t, d.toTree = .ok t) ↔ ∀ n ∈ d.root.preorder, n.Known) ∧
      (∀ e, d.toTree = .error e ↔ d.Refused e) ∧ ∀ t, d.toTree = .ok t → d.Loaded t) ∧
    ∀ source calls t, ((Builder.ofSource source).run calls).build = .ok t →
      (ofTree t).toTree = .ok t := by
  refine ⟨fun d => ?_, fun source calls t h => ?_⟩
  · obtain ⟨r, t, hroot, ht, hsource, hshape⟩ | ⟨e, he, href⟩ := toTree_cases d
    · have hknown : ∀ n ∈ d.root.preorder, n.Known := by
        rw [hroot]
        exact fun n hn => known_of_map hn
      refine ⟨iff_of_true ⟨t, ht⟩ hknown, fun e => ⟨fun he => ?_, ?_⟩, fun t' ht' => ?_⟩
      · rw [ht] at he
        cases he
      · rintro ⟨before, n, after, hsplit, -, hn, -⟩
        exact absurd (hknown n (by simp [hsplit])) hn
      · cases ht.symm.trans ht'
        exact loaded_of_shaped hroot hsource hshape
    · have hunknown : ¬ ∀ n ∈ d.root.preorder, n.Known := by
        obtain ⟨before, n, after, hsplit, -, hn, -⟩ := href
        exact fun hknown => hn (hknown n (by simp [hsplit]))
      refine ⟨iff_of_false ?_ hunknown, fun e' => ⟨fun he' => ?_, fun href' => ?_⟩, fun t ht => ?_⟩
      · rintro ⟨t, ht⟩
        cases he.symm.trans ht
      · cases he.symm.trans he'
        exact href
      · rw [he, href.unique href']
      · cases he.symm.trans ht
  · obtain ⟨-, r, hr⟩ := Builder.shaped_of_build h
    exact toTree_ofTree hr

def choiceOnCall : Document := ⟨"if", .node { kind := "IfStatement", span := ⟨0, 2⟩ } [
  .node { kind := "MethodInvocation", role := .expression } [
    .node { kind := "SimpleName", role := .name, attrs := .ofToken "open" } []],
  .node { kind := "Block", role := .thenStatement } []]⟩

/-- Two kinds that there are not, the first below a node that stands before the second. -/
def strangers : Document := ⟨"", .node { kind := "Block" } [
  .node { kind := "ReturnStatement" } [.node { kind := "LambdaExpression" } []],
  .node { kind := "YieldStatement" } []]⟩

theorem toTree_correspondence_strangers :
    (∃ t, choiceOnCall.toTree = .ok t ∧ choiceOnCall.Loaded t) ∧
      strangers.toTree = .error (.unknownKind "LambdaExpression") ∧
        ∃ t, ((Builder.ofSource "").run [.finish, .leaf { kind := .block }]).build = .ok t ∧
          (ofTree t).toTree = .ok t := by
  refine ⟨?_, ?_, _, rfl, toTree_correspondence.2 "" [.finish, .leaf { kind := .block }] _ rfl⟩
  · have h : ∃ t, choiceOnCall.toTree = .ok t := ⟨_, rfl⟩
    obtain ⟨t, ht⟩ := h
    exact ⟨t, ht, (toTree_correspondence.1 choiceOnCall).2.2 t ht⟩
  · have hunknown : ¬ DocNode.Known { kind := "LambdaExpression" } :=
      (DocNode.toNode_eq_error (e := .unknownKind "LambdaExpression") rfl).1
    refine ((toTree_correspondence.1 strangers).2.1 _).2
      ⟨[{ kind := "Block" }, { kind := "ReturnStatement" }], _, _, rfl, ?_, hunknown, rfl⟩
    simpa using ⟨⟨.block, rfl⟩, ⟨.returnStatement, rfl⟩⟩

end Document

end CanonTree.Syntax
