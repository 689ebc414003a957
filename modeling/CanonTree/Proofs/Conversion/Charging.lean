import CanonTree.Proofs.Canon.Discipline
import CanonTree.Proofs.Conversion.Origin

namespace CanonTree.Conversion

open Rose (sizes)
open Syntax (Branch Item Role)

variable {source : String} {ds es : List (Rose Canon.Node)} {cs bs gs : List Branch}

/-- The children pay for the canonical trees, each of their nodes for two. -/
def Paid (ds : List (Rose Canon.Node)) (cs : List Branch) : Prop := sizes ds ≤ 2 * sizes cs

/-- The branch pays for its canonical tree and can still pay for another node. -/
def Spares (source : String) (b : Branch) : Prop := (image source b).size < 2 * b.size

theorem Paid.append (h : Paid ds cs) (h' : Paid es bs) : Paid (ds ++ es) (cs ++ bs) := by
  rw [Paid, Rose.sizes_append, Rose.sizes_append, Nat.mul_add]
  exact Nat.add_le_add h h'

theorem Paid.of_sublist (h : Paid ds bs) (hbs : bs.Sublist cs) : Paid ds cs :=
  Nat.le_trans h (Nat.mul_le_mul_left 2 (Rose.sizes_le_of_sublist hbs))

/-- Children in different roles pay for different trees. -/
theorem Paid.of_roles (h : Paid ds gs) (rs : List Role)
    (hgs : gs.Sublist (rs.flatMap (Syntax.inRole · cs))) (hrs : rs.Nodup) : Paid ds cs := by
  obtain ⟨bs, hperm, hsub⟩ := flatMap_inRole_subperm rs hrs cs
  have hbs := h.of_sublist hgs
  rw [Paid, ← Rose.sizes_eq_of_perm hperm] at hbs
  exact Paid.of_sublist hbs hsub

theorem sizes_images (h : ∀ c ∈ cs, Spares source c) :
    sizes (cs.map (image source)) + cs.length ≤ 2 * sizes cs := by
  induction cs with
  | nil => exact Nat.le_refl 0
  | cons c cs ih =>
    have hc : (image source c).size < 2 * c.size := h c List.mem_cons_self
    have hcs := ih fun d hd => h d (List.mem_cons_of_mem c hd)
    simp only [List.map_cons, sizes, List.length_cons]
    omega

theorem paid_children (h : ∀ c ∈ cs, Spares source c) :
    Paid ((cs.map (part source)).map Part.tree) cs := by
  have := sizes_images h
  rw [map_tree_parts, Paid]
  omega

/-- A wrapper takes what the first child in it leaves unspent. -/
theorem paid_wrapped (e : Entity) (h : ∀ c ∈ cs, Spares source c) :
    Paid (Part.wrapped e (cs.map (part source))) cs := by
  have hcs := sizes_images h
  cases cs with
  | nil => exact Nat.le_refl 0
  | cons c cs =>
    have hsize : sizes (Part.wrapped e ((c :: cs).map (part source))) =
        sizes ((c :: cs).map (image source)) + 1 := by
      rw [← map_tree_parts]
      rfl
    rw [Paid, hsize]
    rw [List.length_cons] at hcs
    omega

theorem size_textLeaf (p : Part) : p.textLeaf.size = 1 := rfl

theorem size_nameLeaf (p : Part) : p.nameLeaf.size = 1 := rfl

theorem paid_leaves (source : String) {f : Part → Rose Canon.Node} (hf : ∀ p, (f p).size = 1)
    (cs : List Branch) : Paid ((cs.map (part source)).map f) cs := by
  have := Rose.length_le_sizes cs
  rw [Paid, Rose.sizes_of_leaves hf, List.length_map]
  omega

theorem paid_texts (source : String) (e : Entity) (cs : List Branch) :
    Paid (Part.texts e (cs.map (part source))) cs := by
  cases cs with
  | nil => exact Nat.le_refl 0
  | cons c cs =>
    have hsize : sizes (Part.texts e ((c :: cs).map (part source))) = (c :: cs).length + 1 := by
      rw [← List.length_map (part source), ← Rose.sizes_of_leaves size_textLeaf]
      rfl
    have hlength := Rose.length_le_sizes (c :: cs)
    rw [Paid, hsize]
    rw [List.length_cons] at hlength ⊢
    omega

variable {v : Item}

theorem paid_choice (hk : v.kind = .ifStatement)
    (h : ∀ c ∈ onward (.node v cs), Spares source c) :
    Paid (Part.arrange source v (parts source cs)) cs := by
  simp only [onward, Rose.value, Rose.children, hk, List.forall_mem_append] at h
  obtain ⟨⟨hcondition, hthen⟩, helse⟩ := h
  have hgroups := ((paid_children hcondition).append (paid_children hthen)).append
    (paid_wrapped .elseStatement helse)
  have hsub := ((first_sublist .expression cs).append (first_sublist .thenStatement cs)).append
    (first_sublist .elseStatement cs)
  simp only [Part.arrange, hk, first_parts]
  exact hgroups.of_roles [.expression, .thenStatement, .elseStatement] (by simpa using hsub)
    (by decide)

theorem paid_call (hk : v.kind = .methodInvocation ∨ v.kind = .superMethodInvocation) :
    Paid (Part.arrange source v (parts source cs)) cs := by
  have hreceiver := paid_leaves source size_textLeaf (Syntax.first? .expression cs).toList
  have htypes := paid_texts source .typeArguments (Syntax.inRole .typeArguments cs)
  have hname := paid_leaves source size_textLeaf (Syntax.first? .name cs).toList
  have harguments := paid_texts source .arguments (Syntax.inRole .arguments cs)
  have hsub := ((List.Sublist.refl (Syntax.inRole .typeArguments cs)).append
    (first_sublist .name cs)).append (List.Sublist.refl (Syntax.inRole .arguments cs))
  rcases hk with hk | hk <;> simp only [Part.arrange, hk, first_parts, inRole_parts]
  · have hall := (first_sublist .expression cs).append hsub
    exact (((hreceiver.append htypes).append hname).append harguments).of_roles
      [.expression, .typeArguments, .name, .arguments] (by simpa using hall) (by decide)
  · exact ((htypes.append hname).append harguments).of_roles
      [.typeArguments, .name, .arguments] (by simpa using hsub) (by decide)

theorem paid_typeDeclaration (hk : v.kind = .typeDeclaration)
    (h : ∀ c ∈ onward (.node v cs), Spares source c) :
    Paid (Part.arrange source v (parts source cs)) cs := by
  simp only [onward, Rose.value, Rose.children, hk, List.forall_mem_append] at h
  obtain ⟨⟨⟨hmodifiers, hsuper⟩, hinterfaces⟩, hbody⟩ := h
  have hgroups := ((((paid_children hmodifiers).append
    (paid_leaves source size_nameLeaf (Syntax.first? .name cs).toList)).append
      (paid_wrapped .superClassType hsuper)).append
        (paid_wrapped .superInterfaceTypes hinterfaces)).append (paid_children hbody)
  have hsub := (((List.Sublist.refl (Syntax.inRole .modifiers cs)).append
    (first_sublist .name cs)).append (first_sublist .superclassType cs)).append
      ((List.Sublist.refl (Syntax.inRole .superInterfaceTypes cs)).append
        (List.Sublist.refl (Syntax.inRole .bodyDeclarations cs)))
  simp only [Part.arrange, hk, first_parts, inRole_parts]
  exact hgroups.of_roles
    [.modifiers, .name, .superclassType, .superInterfaceTypes, .bodyDeclarations]
    (by simpa using hsub) (by decide)

theorem paid_loop (hk : v.kind = .forStatement)
    (h : ∀ c ∈ onward (.node v cs), Spares source c) :
    Paid (Part.arrange source v (parts source cs)) cs := by
  simp only [onward, Rose.value, Rose.children, hk, List.forall_mem_append] at h
  obtain ⟨⟨⟨hinitializers, hcondition⟩, hupdaters⟩, hbody⟩ := h
  have hgroups := (((paid_wrapped .initializers hinitializers).append
    (paid_wrapped .conditionalForExpression hcondition)).append
      (paid_wrapped .updaters hupdaters)).append (paid_children hbody)
  have hsub := (((List.Sublist.refl (Syntax.inRole .initializers cs)).append
    (first_sublist .expression cs)).append (List.Sublist.refl (Syntax.inRole .updaters cs))).append
      (first_sublist .body cs)
  simp only [Part.arrange, hk, first_parts, inRole_parts]
  exact hgroups.of_roles [.initializers, .expression, .updaters, .body] (by simpa using hsub)
    (by decide)

/-- The mark of a static import is paid for by the name, which is always there. -/
theorem paid_import (hk : v.kind = .importDeclaration) (hmissing : missing? (.node v cs) = none)
    (h : ∀ c ∈ onward (.node v cs), Spares source c) :
    Paid (Part.arrange source v (parts source cs)) cs := by
  have hname : Role.name ∈ demanded (Rose.node v cs).value.kind := by
    simp [Rose.value, hk, demanded]
  obtain ⟨n, hn, -⟩ := required_of_demanded hmissing hname
  have hlength := List.length_pos_of_mem (List.mem_of_find?_eq_some hn)
  simp only [onward, Rose.value, Rose.children, hk] at h hlength
  have himages := sizes_images h
  have hmark : sizes (if v.attrs.isStatic then [Part.staticLeaf source] else []) ≤ 1 := by
    split
    · exact Nat.le_refl 1
    · exact Nat.zero_le 1
  simp only [Part.arrange, hk, parts_eq]
  rw [Paid, Rose.sizes_append, map_tree_parts]
  omega

theorem paid_arrange (hmissing : missing? (.node v cs) = none)
    (h : ∀ c ∈ onward (.node v cs), Spares source c) :
    Paid (Part.arrange source v (parts source cs)) cs := by
  rcases kind_cases v.kind with hk | hk | hk | hk | hk | hk | hk
  · exact paid_choice hk h
  · exact paid_call hk
  · exact paid_typeDeclaration hk h
  · exact paid_loop hk h
  · exact paid_import hk hmissing h
  · simp only [Part.arrange, hk]
    exact Nat.zero_le _
  · rw [onward_plain (n := .node v cs) hk] at h
    rw [arrange_plain hk, parts_eq]
    exact paid_children h

theorem spares (b : Branch) (h : ∀ n ∈ visited b, missing? n = none) : Spares source b := by
  have honward : ∀ c ∈ onward b, Spares source c := by
    intro c hc
    refine spares c fun n hn => h n ?_
    rw [visited_eq]
    exact List.mem_cons_of_mem b (List.mem_flatMap.2 ⟨c, hc, hn⟩)
  have htop : missing? b = none := by
    apply h
    rw [visited_eq]
    exact List.mem_cons_self
  -- the children pay for all that is below the node, so one of its two is spent on the node itself
  cases b with
  | node v cs =>
    have hpaid : sizes (Part.arrange source v (parts source cs)) ≤ 2 * sizes cs :=
      paid_arrange htop honward
    rw [Spares, image, Rose.size, Rose.size]
    omega
termination_by b.size
decreasing_by exact Rose.size_lt_of_mem_children (mem_of_mem_onward hc)

open Canon.Builder (Call made openings)

mutual
def calls : Rose Canon.Node → List Call
  | .node n cs => .push n site :: (callsAll cs ++ [.pop])

def callsAll : List (Rose Canon.Node) → List Call
  | [] => []
  | c :: cs => calls c ++ callsAll cs
end

theorem made_call {past : List Call} {c : Call} {b : Canon.Builder}
    (h : ((made past).call c).map (·.2) = .ok b) : made (past ++ [c]) = b := by
  obtain ⟨r, hc, rfl⟩ := map_eq_ok.1 h
  rw [Canon.Builder.made_concat, Canon.Builder.after, hc]

mutual
theorem made_calls {past : List Call} {b : Canon.Builder} : ∀ r : Rose Canon.Node,
    plant r (made past) = .ok b → made (past ++ calls r) = b
  | .node n cs => by
    intro h
    rw [plant_node] at h
    obtain ⟨b₂, h, hpop⟩ := bind_eq_ok.1 h
    obtain ⟨b₁, hpush, hcs⟩ := bind_eq_ok.1 h
    have hopen : made (past ++ [.push n site]) = b₁ := made_call hpush
    rw [← hopen] at hcs
    rw [← made_callsAll cs hcs] at hpop
    have hclose : made (past ++ [.push n site] ++ callsAll cs ++ [.pop]) = b := made_call hpop
    rwa [List.append_assoc, List.append_assoc, List.singleton_append] at hclose

theorem made_callsAll {past : List Call} {b : Canon.Builder} : ∀ cs : List (Rose Canon.Node),
    plantAll cs (made past) = .ok b → made (past ++ callsAll cs) = b
  | [] => by
    intro h
    cases h
    rw [callsAll, List.append_nil]
  | c :: cs => by
    intro h
    rw [plantAll_cons] at h
    obtain ⟨b₁, hc, hcs⟩ := bind_eq_ok.1 h
    rw [← made_calls c hc] at hcs
    rw [callsAll, ← List.append_assoc]
    exact made_callsAll cs hcs
end

theorem build_calls {t : Syntax.Tree} {c : Canon.Tree} (h : convert t = .ok c) :
    (made (calls (image t.source t.trunk))).build = .ok c := by
  obtain ⟨hfault, -, -⟩ := within_of_convert h
  obtain ⟨b, hplant, -⟩ := plant_ok (image t.source t.trunk) Canon.Builder.ready_empty
  rw [convert, converts t.source t.trunk .empty Canon.Builder.ready_empty, hfault] at h
  simp only [guarded, hplant] at h
  have hmade : made ([] ++ calls (image t.source t.trunk)) = b := made_calls _ hplant
  rw [List.nil_append] at hmade
  rw [hmade]
  exact h

/-- The number of a node that is pushed after these calls, as it is stored: the count of the nodes,
cast to 32 bits. -/
def stored (past : List Call) : UInt32 := UInt32.ofNat (made past).size

/-- The pushes answer the numbers from zero on. All are below the largest number of 32 bits, so that
none wraps around and no two nodes are stored under one number. -/
structure Numbered (calls : List Call) (c : Canon.Tree) : Prop where
  ids : (openings calls).map (·.id) = List.range c.size
  lt : ∀ o ∈ openings calls, o.id < 4294967295
  toNat_stored : ∀ o ∈ openings calls, (stored o.past).toNat = o.id
  distinct : ((openings calls).map fun o => stored o.past).Nodup

theorem numbered_of_build {calls : List Call} {c : Canon.Tree} (h : (made calls).build = .ok c)
    (hsize : c.size ≤ 4294967295) : Numbered calls c := by
  obtain ⟨-, -, harena⟩ := Canon.Builder.build_eq_ok h
  have hids := (Canon.Builder.recorded calls).ids
  rw [Canon.Builder.size, harena, ← Canon.Tree.size] at hids
  have hlength : (openings calls).length = c.size := by
    rw [Canon.Builder.length_openings, Canon.Builder.size, harena, Canon.Tree.size]
  have hlt : ∀ o ∈ openings calls, o.id < c.size := by
    intro o ho
    rw [← List.mem_range, ← hids]
    exact List.mem_map_of_mem ho
  have hexact : ∀ o ∈ openings calls, (stored o.past).toNat = o.id := by
    intro o ho
    obtain ⟨b, more, -, hpush⟩ := Canon.Builder.exists_push_of_mem_openings ho
    obtain ⟨-, hid, -⟩ := Canon.Builder.push_eq_ok hpush
    rw [stored, ← hid]
    exact Canon.Builder.toNat_ofNat_id ho (by omega)
  refine ⟨hids, fun o ho => Nat.lt_of_lt_of_le (hlt o ho) hsize, hexact, ?_⟩
  have hmap : ((openings calls).map fun o => stored o.past).map UInt32.toNat =
      List.range c.size := by
    rw [List.map_map, ← hids]
    exact List.map_congr_left hexact
  exact List.Nodup.of_map UInt32.toNat (hmap ▸ List.nodup_range)

/-- A canonical tree has less than twice as many nodes as the syntax tree, so 32 bits are enough to
number those of a syntax tree of half as many nodes as there are numbers. -/
theorem size_of_convert {t : Syntax.Tree} {c : Canon.Tree} (ht : t.Made) (h : convert t = .ok c) :
    c.size ≤ 2 * t.size - 1 ∧ (made (calls (image t.source t.trunk))).build = .ok c ∧
      (t.size ≤ 2147483648 → ∀ calls, (made calls).build = .ok c → Numbered calls c) := by
  obtain ⟨r, hshape⟩ := ht.shaped
  obtain ⟨hfault, -, hrows⟩ := within_of_convert h
  have himage : c.size = (image t.source t.trunk).size := by
    rw [Canon.Tree.size, ← Arena.length_rows, hrows, Rose.length_layout]
  have htrunk : t.size = t.trunk.size := by
    rw [Syntax.Tree.size, ← Arena.length_rows, hshape.rows, Rose.length_layout, hshape.trunk,
      Rose.size_number]
  have hspares : (image t.source t.trunk).size < 2 * t.trunk.size :=
    spares t.trunk fun n hn => missing?_of_visited hfault hn
  exact ⟨by omega, build_calls h, fun hsize calls hbuild => numbered_of_build hbuild (by omega)⟩

/-- A static import, which has the most nodes that two can be converted to. -/
def staticImport : List Syntax.Builder.Call := [
  .start { kind := .importDeclaration, attrs := { isStatic := true } },
  .leaf { kind := .simpleName, role := .name, attrs := .ofToken "List" },
  .finish]

theorem size_of_convert_staticImport :
    ∃ t c, ((Syntax.Builder.ofSource "").run staticImport).build = .ok t ∧ convert t = .ok c ∧
      t.size = 2 ∧ c.size = 3 ∧ c.size ≤ 2 * t.size - 1 ∧
        Numbered (calls (image t.source t.trunk)) c := by
  have hbuild : ∃ t, ((Syntax.Builder.ofSource "").run staticImport).build = .ok t ∧
      within t.trunk = none ∧ t.size = 2 ∧ (image t.source t.trunk).size = 3 := by
    refine ⟨_, rfl, ?_, rfl, ?_⟩ <;> decide +kernel
  obtain ⟨t, ht, hfault, hsize, himage⟩ := hbuild
  obtain ⟨c, hc, -, hrows⟩ := convert_of_no_fault hfault
  obtain ⟨hle, hcalls, hnumbered⟩ := size_of_convert (.built ht) hc
  have hthree : c.size = 3 := by
    rw [Canon.Tree.size, ← Arena.length_rows, hrows, Rose.length_layout, himage]
  exact ⟨t, c, ht, hc, hsize, hthree, hle, hnumbered (by omega) _ hcalls⟩

end CanonTree.Conversion
