import Mathlib.Data.List.Nodup
import Mathlib.Data.List.Perm.Subperm
import CanonTree.Proofs.Conversion.Arrangement

namespace CanonTree.Conversion

open Syntax (Branch Item Role)

variable {n b c : Branch} {cs : List Branch} {r : Role} {rs : List Role}

/-- The children that are converted: all of most nodes, the parts of a construct, but not the name
of a type declaration, and none of a call or a qualified name. -/
def reported (n : Branch) : List Branch :=
  match shape n.value.kind with
  | .plain | .importing => n.children
  | .call | .qualifiedName => []
  | .choice =>
    match Syntax.Choice.of n with
    | .ok p => p.condition :: p.thenBranch :: p.elseBranch.toList
    | .error _ => []
  | .typeDeclaration =>
    match Syntax.TypeDeclaration.of n with
    | .ok p => p.modifiers ++ p.superclass.toList ++ p.superInterfaces ++ p.body
    | .error _ => []
  | .loop =>
    match Syntax.Loop.of n with
    | .ok p => p.initializers ++ p.condition.toList ++ p.updaters ++ [p.body]
    | .error _ => []

theorem required_of_demanded (h : missing? n = none) (hr : r ∈ demanded n.value.kind) :
    ∃ c, Syntax.first? r n.children = some c ∧ Syntax.required r n = .ok c := by
  have habsent := List.findSome?_eq_none_iff.1 h r hr
  cases hc : Syntax.first? r n.children with
  | none => simp [absent?, hc] at habsent
  | some c => exact ⟨c, rfl, by rw [Syntax.required, hc]⟩

theorem onward_eq_reported (h : missing? n = none) : onward n = reported n := by
  rcases kind_cases n.value.kind with hk | hk | hk | hk | hk | hk | hk
  · obtain ⟨c, hc, hcond⟩ := required_of_demanded (r := .expression) h (by simp [hk, demanded])
    obtain ⟨d, hd, hthen⟩ := required_of_demanded (r := .thenStatement) h (by simp [hk, demanded])
    have hof : Syntax.Choice.of n = .ok ⟨c, d, Syntax.first? .elseStatement n.children⟩ := by
      rw [Syntax.Choice.of, hcond, hthen]
      rfl
    simp only [onward, reported, hk, shape, hof, hc, hd]
    rfl
  · rcases hk with hk | hk <;> simp only [onward, reported, hk, shape]
  · obtain ⟨c, -, hname⟩ := required_of_demanded (r := .name) h (by simp [hk, demanded])
    have hof : Syntax.TypeDeclaration.of n = .ok ⟨Syntax.inRole .modifiers n.children, c,
        Syntax.first? .superclassType n.children, Syntax.inRole .superInterfaceTypes n.children,
        Syntax.inRole .bodyDeclarations n.children⟩ := by
      rw [Syntax.TypeDeclaration.of, hname]
      rfl
    simp only [onward, reported, hk, shape, hof]
  · obtain ⟨c, hc, hbody⟩ := required_of_demanded (r := .body) h (by simp [hk, demanded])
    have hof : Syntax.Loop.of n = .ok ⟨Syntax.inRole .initializers n.children,
        Syntax.first? .expression n.children, Syntax.inRole .updaters n.children, c⟩ := by
      rw [Syntax.Loop.of, hbody]
      rfl
    simp only [onward, reported, hk, shape, hof, hc]
    rfl
  · simp only [onward, reported, hk, shape]
  · simp only [onward, reported, hk, shape]
  · rw [onward_plain hk]
    simp only [reported, hk]

theorem flatMap_inRole_perm (h : rs.Nodup) (cs : List Branch) :
    (rs.flatMap (Syntax.inRole · cs)).Perm (cs.filter (·.value.role ∈ rs)) := by
  induction rs with
  | nil => simp
  | cons r rs ih =>
    obtain ⟨hr, hrs⟩ := List.nodup_cons.1 h
    have hsplit := List.filter_append_perm (fun c : Branch => decide (c.value.role = r))
      (cs.filter (·.value.role ∈ r :: rs))
    have hin : (cs.filter (·.value.role ∈ r :: rs)).filter
        (fun c : Branch => decide (c.value.role = r)) = Syntax.inRole r cs := by
      rw [Syntax.inRole, List.filter_filter]
      refine List.filter_congr fun c _ => ?_
      by_cases hc : c.value.role = r <;> simp [hc]
    have hout : (cs.filter (·.value.role ∈ r :: rs)).filter
        (fun c : Branch => !decide (c.value.role = r)) = cs.filter (·.value.role ∈ rs) := by
      rw [List.filter_filter]
      refine List.filter_congr fun c _ => ?_
      by_cases hc : c.value.role = r <;> simp [hc, hr]
    rw [hin, hout] at hsplit
    rw [List.flatMap_cons]
    exact ((ih hrs).append_left _).trans hsplit

theorem flatMap_inRole_subperm (rs : List Role) (h : rs.Nodup) (cs : List Branch) :
    (rs.flatMap (Syntax.inRole · cs)).Subperm cs :=
  (flatMap_inRole_perm h cs).subperm.trans List.filter_sublist.subperm

theorem first_sublist (r : Role) (cs : List Branch) :
    (Syntax.first? r cs).toList.Sublist (Syntax.inRole r cs) := by
  rw [Syntax.first?, Syntax.inRole, ← List.head?_filter]
  cases cs.filter (·.value.role = r) <;> simp

theorem onward_subperm (n : Branch) : (onward n).Subperm n.children := by
  have hfirst := fun r => first_sublist r n.children
  have hall := fun r => List.Sublist.refl (Syntax.inRole r n.children)
  unfold onward
  split
  · refine List.Subperm.trans (List.Sublist.subperm ?_) (flatMap_inRole_subperm
      [.expression, .thenStatement, .elseStatement] (by decide) n.children)
    simpa using ((hfirst .expression).append (hfirst .thenStatement)).append
      (hfirst .elseStatement)
  · exact List.nil_subperm
  · exact List.nil_subperm
  · exact List.nil_subperm
  · refine List.Subperm.trans (List.Sublist.subperm ?_) (flatMap_inRole_subperm
      [.modifiers, .superclassType, .superInterfaceTypes, .bodyDeclarations] (by decide) n.children)
    simpa using (((hall .modifiers).append (hfirst .superclassType)).append
      (hall .superInterfaceTypes)).append (hall .bodyDeclarations)
  · refine List.Subperm.trans (List.Sublist.subperm ?_) (flatMap_inRole_subperm
      [.initializers, .expression, .updaters, .body] (by decide) n.children)
    simpa using (((hall .initializers).append (hfirst .expression)).append
      (hall .updaters)).append (hfirst .body)
  · exact List.Subperm.refl _

theorem pairwise_onward {R : Branch → Branch → Prop} (hR : ∀ {a b}, R a b → R b a)
    (h : n.children.Pairwise R) : (onward n).Pairwise R := by
  obtain ⟨cs, hperm, hsub⟩ := onward_subperm n
  exact (hperm.pairwise_iff hR).1 (h.sublist hsub)

def ids (b : Branch) : List Nat := b.preorder.map (·.id)

theorem ids_node (v : Item) (cs : List Branch) : ids (.node v cs) = v.id :: cs.flatMap ids := by
  rw [ids, Rose.preorder, Rose.preorders_eq, List.map_cons, List.map_flatMap]
  rfl

theorem mem_ids_of_mem_visited {b c : Branch} (h : c ∈ visited b) : c.value.id ∈ ids b := by
  cases b with
  | node v cs =>
    rw [visited_eq, List.mem_cons, List.mem_flatMap] at h
    rw [ids_node, List.mem_cons, List.mem_flatMap]
    rcases h with rfl | ⟨d, hd, hc⟩
    · exact .inl rfl
    · exact .inr ⟨d, mem_of_mem_onward hd, mem_ids_of_mem_visited hc⟩
termination_by b.size
decreasing_by
  subst_vars
  exact Rose.size_lt_of_mem_children (mem_of_mem_onward hd)

theorem nodup_visited {b : Branch} (h : (ids b).Nodup) :
    ((visited b).map (·.value.id)).Nodup := by
  cases b with
  | node v cs =>
    rw [ids_node, List.nodup_cons, List.nodup_flatMap] at h
    obtain ⟨hv, hcs, hapart⟩ := h
    have hbelow : ∀ c ∈ onward (.node v cs), ∀ x ∈ (visited c).map (·.value.id), x ∈ ids c := by
      intro c _ x hx
      obtain ⟨d, hd, rfl⟩ := List.mem_map.1 hx
      exact mem_ids_of_mem_visited hd
    rw [visited_eq, List.map_cons, List.map_flatMap, List.nodup_cons, List.nodup_flatMap]
    refine ⟨?_, ?_, ?_⟩
    · intro hmem
      obtain ⟨c, hc, hx⟩ := List.mem_flatMap.1 hmem
      exact hv (List.mem_flatMap.2 ⟨c, mem_of_mem_onward hc, hbelow c hc _ hx⟩)
    · intro c hc
      exact nodup_visited (hcs c (mem_of_mem_onward hc))
    · -- branches that are apart as children are apart in the order of the conversion
      have hsep := pairwise_onward (n := .node v cs) (R := fun c d => (ids c).Disjoint (ids d))
        (fun h x hd hc => h hc hd) hapart
      refine hsep.imp_of_mem fun hc hd hdis => ?_
      intro x hx hx'
      exact hdis (hbelow _ hc x hx) (hbelow _ hd x hx')
termination_by b.size
decreasing_by
  subst_vars
  exact Rose.size_lt_of_mem_children (mem_of_mem_onward hc)

end CanonTree.Conversion
