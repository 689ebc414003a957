import CanonTree.Proofs.Canon.Rows
import CanonTree.Proofs.Conversion.Outcome

namespace CanonTree.Canon

open Builder (Call made)

variable {positions : Bool} {m n : Node} {x y : Nat × Node}

theorem not_isNameChar_of_remark (positions : Bool) (n : Node) :
    ∀ c ∈ (remark positions n).head?, ¬ IsNameChar c := by
  have hcolon : ¬ IsNameChar ':' := by decide
  have hblank : ¬ IsNameChar ' ' := by decide
  rw [remark]
  by_cases hempty : n.label.isEmpty <;> cases positions <;> simp [hempty, hcolon, hblank]

/-- A label that is written begins behind a colon, and the span behind the last blank. -/
theorem label_span_of_remark (h : remark positions m = remark positions n) :
    m.label = n.label ∧ (positions = true → m.span = n.span) := by
  have hblank : ∀ s : Span, ' ' ∉ s.render.toList :=
    fun s => Span.not_mem_render (by decide) (by decide)
  have hnil : ∀ {k : Node}, k.label.isEmpty = true → k.label = "" := fun hk => by simpa using hk
  rw [remark, remark] at h
  cases positions with
  | false =>
    simp only [Bool.false_eq_true, if_false, List.append_nil] at h
    refine ⟨?_, fun hfalse => absurd hfalse Bool.false_ne_true⟩
    split at h <;> split at h
    · rename_i hm hn
      rw [hnil hm, hnil hn]
    · cases h
    · cases h
    · exact String.toList_injective (List.cons.inj (List.cons.inj h).2).2
  | true =>
    simp only [if_true] at h
    split at h <;> split at h
    · rename_i hm hn
      refine ⟨by rw [hnil hm, hnil hn], fun _ => ?_⟩
      exact Span.render_injective (List.cons.inj h).2
    · cases h
    · cases h
    · simp only [List.cons_append, List.cons.injEq, true_and] at h
      obtain ⟨hlabel, hspan⟩ := Text.append_cons_inj_last (hblank _) (hblank _) h
      exact ⟨String.toList_injective hlabel, fun _ => Span.render_injective hspan⟩

/-- The margin ends with the first letter of the entity's name, and the name before a colon or a
blank. -/
theorem row_injective (h : row positions x = row positions y) :
    x.1 = y.1 ∧ x.2.entity = y.2.entity ∧ x.2.label = y.2.label ∧
      (positions = true → x.2.span = y.2.span) := by
  have hblanks : ∀ {k : Nat}, ∀ c ∈ List.replicate k ' ', c = ' ' :=
    fun c hc => List.eq_of_mem_replicate hc
  have hname : ∀ z : Nat × Node,
      ∀ c ∈ (z.2.entity.name.toList ++ remark positions z.2).head?, ¬ c = ' ' := by
    rintro z c hc rfl
    obtain ⟨hne, hspelled⟩ := z.2.entity.name_spelled
    cases hl : z.2.entity.name.toList with
    | nil => exact hne (String.toList_eq_nil_iff.1 hl)
    | cons d ds =>
      rw [hl] at hc hspelled
      cases hc
      exact absurd (hspelled _ List.mem_cons_self) (by decide)
  have hchars := congrArg String.toList h
  rw [toList_row, toList_row] at hchars
  obtain ⟨hmargin, hchars⟩ := Text.append_inj_of_stop hblanks hblanks (hname x) (hname y) hchars
  obtain ⟨hentity, hremark⟩ := Text.append_inj_of_stop x.2.entity.name_spelled.2
    y.2.entity.name_spelled.2 (not_isNameChar_of_remark positions x.2)
    (not_isNameChar_of_remark positions y.2) hchars
  obtain ⟨hlabel, hspan⟩ := label_span_of_remark hremark
  have hdepth := congrArg List.length hmargin
  rw [List.length_replicate, List.length_replicate] at hdepth
  refine ⟨by omega, ?_, hlabel, hspan⟩
  exact Entity.name_injective (String.toList_injective hentity)

theorem map_eq_of_factorsThrough {α β γ : Type} {f : α → β} {g : α → γ} (h : g.FactorsThrough f)
    {as bs : List α} (hmap : as.map f = bs.map f) : as.map g = bs.map g := by
  induction as generalizing bs with
  | nil =>
    rw [List.map_nil, eq_comm, List.map_eq_nil_iff] at hmap
    rw [hmap]
  | cons a as ih =>
    cases bs with
    | nil => cases hmap
    | cons b bs =>
      obtain ⟨hab, hrest⟩ := List.cons.inj hmap
      rw [List.map_cons, List.map_cons, h hab, ih hrest]

theorem map_eq_of_rows {β : Type} {f : Node → β}
    (hf : Function.FactorsThrough (Prod.map id f : Nat × Node → Nat × β) (row positions))
    {r s : Rose Node} (hr : ∀ n ∈ r.preorder, Text.Plain n.label)
    (hs : ∀ n ∈ s.preorder, Text.Plain n.label)
    (h : Text.joinLines ((r.levels 0).map (row positions)) =
      Text.joinLines ((s.levels 0).map (row positions))) : r.map f = s.map f := by
  have hrows := ((lines_rows_iff positions r).2 hr).unique
    (h ▸ (lines_rows_iff positions s).2 hs)
  apply Rose.levels_injective (d := 0)
  rw [Rose.levels_map, Rose.levels_map]
  exact map_eq_of_factorsThrough hf hrows

theorem laidOut_of_build {calls : List Call} {t : Tree} (h : (made calls).build = .ok t) :
    t.LaidOut := by
  obtain ⟨hstack, hroot, harena⟩ := Builder.build_eq_ok h
  have hstage := (Builder.recorded calls).stage
  rw [hstack, hroot, harena] at hstage
  obtain ⟨hzero, r, hrows⟩ := hstage.rose_of_closed
  exact ⟨hzero, by rw [hrows, Conversion.rose_eq hzero hrows]⟩

/-- The trees have one shape, told as they are nested and by the numbers in pre-order of parents and
children, and at each place `f` makes the same of their nodes. -/
structure Agree {β : Type} (f : Node → β) (t u : Tree) : Prop where
  nested : t.rose.map f = u.rose.map f
  rows : t.arena.rows.map (Entry.map f) = u.arena.rows.map (Entry.map f)
  preorder : t.preorder = List.range t.size ∧ u.preorder = List.range u.size

theorem Agree.of_nested {β : Type} {f : Node → β} {t u : Tree} (ht : t.LaidOut) (hu : u.LaidOut)
    (h : t.rose.map f = u.rose.map f) : Agree f t u := by
  refine ⟨h, ?_, ht.preorder, hu.preorder⟩
  rw [ht.rows, hu.rows, ← Rose.layout_map, ← Rose.layout_map, h]

theorem agree_of_dump_eq {calls calls' : List Call} {t u : Tree} (ht : (made calls).build = .ok t)
    (hu : (made calls').build = .ok u) (htl : ∀ n ∈ t.nodes, Text.Plain n.label)
    (hul : ∀ n ∈ u.nodes, Text.Plain n.label) :
    (t.dump true = u.dump true → Agree (fun n => (n.entity, n.label, n.span)) t u) ∧
      (t.dump false = u.dump false → Agree (fun n => (n.entity, n.label)) t u) := by
  have htlaid := laidOut_of_build ht
  have hulaid := laidOut_of_build hu
  rw [← htlaid.preorder_rose] at htl
  rw [← hulaid.preorder_rose] at hul
  have hagree : ∀ {β : Type} {f : Node → β} {positions : Bool},
      Function.FactorsThrough (Prod.map id f : Nat × Node → Nat × β) (row positions) →
        t.dump positions = u.dump positions → Agree f t u := by
    intro β f positions hf h
    rw [dump_eq_joinLines, dump_eq_joinLines] at h
    exact .of_nested htlaid hulaid (map_eq_of_rows hf htl hul h)
  constructor
  · apply hagree
    intro x y h
    obtain ⟨hdepth, hentity, hlabel, hspan⟩ := row_injective h
    simp [Prod.map, hdepth, hentity, hlabel, hspan rfl]
  · apply hagree
    intro x y h
    obtain ⟨hdepth, hentity, hlabel, -⟩ := row_injective h
    simp [Prod.map, hdepth, hentity, hlabel]

/-- Calls that push a node, and others that mark every node differently and pop once too often. -/
def lookalikes (synthetic : Bool) (stray : List Call) : List Call :=
  stray ++ [
    .push ⟨.methodInvocation, ": [1,2]", ⟨0, 9⟩, synthetic⟩ "test",
    .push ⟨.simpleName, " SIMPLE_NAME ", .unknown, synthetic⟩ "test",
    .pop,
    .push ⟨.arguments, "", ⟨-1, 0⟩, synthetic⟩ "test",
    .push ⟨.simpleName, "a [1,2]", ⟨3, 1⟩, synthetic⟩ "test",
    .pop, .pop, .pop] ++ stray

structure Disguised (synthetic : Bool) (t : Tree) : Prop where
  dump_true : t.dump true = "METHOD_INVOCATION: : [1,2] [0,9]\n" ++
    "    SIMPLE_NAME:  SIMPLE_NAME  [-1,-1]\n" ++
    "    ARGUMENTS [-1,0]\n" ++
    "        SIMPLE_NAME: a [1,2] [3,1]\n"
  dump_false : t.dump false = "METHOD_INVOCATION: : [1,2]\n" ++
    "    SIMPLE_NAME:  SIMPLE_NAME \n" ++
    "    ARGUMENTS\n" ++
    "        SIMPLE_NAME: a [1,2]\n"
  marked : t.nodes.map (·.synthetic) = List.replicate 4 synthetic
  plain : ∀ n ∈ t.nodes, Text.Plain n.label

instance (synthetic : Bool) (t : Tree) : Decidable (Disguised synthetic t) :=
  decidable_of_iff _ ⟨fun ⟨h₁, h₂, h₃, h₄⟩ => ⟨h₁, h₂, h₃, h₄⟩,
    fun ⟨h₁, h₂, h₃, h₄⟩ => (⟨h₁, h₂, h₃, h₄⟩ : _ ∧ _ ∧ _ ∧ _)⟩

theorem build_lookalikes (synthetic : Bool) (stray : List Call)
    (h : (synthetic, stray) ∈ [(false, []), (true, [.pop])]) :
    ∃ t, (made (lookalikes synthetic stray)).build = .ok t ∧ Disguised synthetic t := by
  have hbuild : ∀ x ∈ [(false, []), (true, [Call.pop])],
      (made (lookalikes x.1 x.2)).build.toOption.any (Disguised x.1 ·) = true := by
    decide +kernel
  obtain ⟨t, ht, htd⟩ := exists_ok_of_any (hbuild _ h)
  exact ⟨t, ht, of_decide_eq_true htd⟩

theorem agree_of_dump_eq_lookalikes :
    ∃ t u, (made (lookalikes false [])).build = .ok t ∧
      (made (lookalikes true [.pop])).build = .ok u ∧ Disguised false t ∧ Disguised true u ∧
        Agree (fun n => (n.entity, n.label, n.span)) t u ∧
          Agree (fun n => (n.entity, n.label)) t u := by
  obtain ⟨t, ht, htd⟩ := build_lookalikes false [] (by simp)
  obtain ⟨u, hu, hud⟩ := build_lookalikes true [.pop] (by simp)
  obtain ⟨hfull, hshort⟩ := agree_of_dump_eq ht hu htd.plain hud.plain
  exact ⟨t, u, ht, hu, htd, hud, hfull (htd.dump_true.trans hud.dump_true.symm),
    hshort (htd.dump_false.trans hud.dump_false.symm)⟩

end CanonTree.Canon
