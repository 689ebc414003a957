import CanonTree.Proofs.Conversion.Outcome
import CanonTree.Syntax.Document

namespace CanonTree.Conversion

open Syntax (DocNode)

/-- The nested tree read off a converted tree is the image of the syntax tree. -/
theorem rose_of_convert {t : Syntax.Tree} {c : Canon.Tree} (h : convert t = .ok c) :
    c.rose = image t.source t.trunk := by
  cases hf : within t.trunk with
  | some e =>
    rw [convert_of_fault hf] at h
    cases h
  | none =>
    obtain ⟨c', hc', hroot, hrows⟩ := convert_of_no_fault hf
    cases hc'.symm.trans h
    exact rose_eq hroot hrows

def nestedChoice : Syntax.Document := ⟨"", .node { kind := "IfStatement" } [
  .node { kind := "MethodInvocation", role := .expression } [
    .node { kind := "SimpleName", role := .expression, attrs := .ofToken "list" } [],
    .node { kind := "SimpleName", role := .name, attrs := .ofToken "has" } [],
    .node { kind := "NumberLiteral", role := .arguments, attrs := .ofToken "10" } []],
  .node { kind := "Block", role := .thenStatement } [],
  .node { kind := "ForStatement", role := .elseStatement } [
    .node { kind := "BooleanLiteral", role := .expression, attrs := .ofToken "true" } [],
    .node { kind := "Block", role := .body } []]]⟩

def nestedChoiceImage : Rose Canon.Node := .node ⟨.ifStatement, "", .unknown, false⟩ [
  .node ⟨.methodInvocation, "", .unknown, false⟩ [
    .node ⟨.simpleName, "list", ⟨-1, 4⟩, true⟩ [],
    .node ⟨.simpleName, "has", ⟨-1, 3⟩, true⟩ [],
    .node ⟨.arguments, "", ⟨-1, 0⟩, true⟩ [.node ⟨.simpleName, "10", ⟨-1, 2⟩, true⟩ []]],
  .node ⟨.block, "", .unknown, false⟩ [],
  .node ⟨.elseStatement, "", .unknown, true⟩ [
    .node ⟨.forStatement, "", .unknown, false⟩ [
      .node ⟨.conditionalForExpression, "", .unknown, true⟩ [
        .node ⟨.booleanLiteral, "true", .unknown, false⟩ []],
      .node ⟨.block, "", .unknown, false⟩ []]]]

theorem rose_of_convert_nestedChoice :
    ∃ t c, nestedChoice.toTree = .ok t ∧ convert t = .ok c ∧ c.rose = nestedChoiceImage := by
  have h : nestedChoice.toTree.map (fun t => (within t.trunk, image t.source t.trunk)) =
      .ok (none, nestedChoiceImage) := by
    with_unfolding_all rfl
  cases ht : nestedChoice.toTree with
  | error e =>
    rw [ht] at h
    cases h
  | ok t =>
    rw [ht] at h
    have hpair := Prod.mk.inj (Except.ok.inj h)
    obtain ⟨c, hc, -⟩ := convert_of_no_fault hpair.1
    exact ⟨t, c, rfl, hc, (rose_of_convert hc).trans hpair.2⟩

/-- A conversion fails exactly if it comes to a malformed node; its error is then the complaint
about the first one in the order of the traversal, and never speaks of the stack. -/
theorem convert_error_iff (t : Syntax.Tree) :
    (∀ e, convert t = .error e ↔ ∃ before w after,
      Visit.traversal ⟨none, t.trunk⟩ = before ++ w :: after ∧ w.malformation? = some e ∧
        ∀ u ∈ before, u.malformation? = none) ∧
    ((∃ e, convert t = .error e) ↔
      ∃ w, Visit.Reached ⟨none, t.trunk⟩ w ∧ w.malformation? ≠ none) ∧
    (∀ w, w ∈ Visit.traversal ⟨none, t.trunk⟩ ↔ Visit.Reached ⟨none, t.trunk⟩ w) ∧
    ∀ e, convert t = .error e → e.isInternal = false ∧
      ((∃ k r o, e = .missingChild k r o) ∨ ∃ k o, e = .unexpectedModifier k o) := by
  have hiff : ∀ e, convert t = .error e ↔ within t.trunk = some e := by
    intro e
    refine ⟨fun h => ?_, convert_of_fault⟩
    cases hf : within t.trunk with
    | some f =>
      rw [convert_of_fault hf] at h
      cases h
      rfl
    | none =>
      obtain ⟨c, hc, -⟩ := convert_of_no_fault hf
      rw [hc] at h
      cases h
  refine ⟨fun e => ?_, ?_, fun w => Visit.mem_traversal, fun e he => ?_⟩
  · rw [hiff, within, Visit.fault?, List.findSome?_eq_some_iff]
  · simp only [hiff, ← Visit.mem_traversal]
    constructor
    · rintro ⟨e, he⟩
      obtain ⟨w, hw, hm⟩ := List.exists_of_findSome?_eq_some he
      exact ⟨w, hw, by simp [hm]⟩
    · rintro ⟨w, hw, hm⟩
      rw [← Option.ne_none_iff_exists']
      exact fun hnone => hm (List.findSome?_eq_none_iff.1 hnone w hw)
  · have hform := error_of_within ((hiff e).1 he)
    refine ⟨?_, hform⟩
    rcases hform with ⟨k, r, o, rfl⟩ | ⟨k, o, rfl⟩ <;> rfl

def twoFaults : Syntax.Document := ⟨"", .node { kind := "CompilationUnit" } [
  .node { kind := "TypeDeclaration" } [
    .node { kind := "Modifier", role := .modifiers } [],
    .node { kind := "Block", span := ⟨7, 2⟩, role := .modifiers } [],
    .node { kind := "SimpleName", role := .name } []],
  .node { kind := "IfStatement" } []]⟩

theorem convert_error_twoFaults :
    ∃ t, twoFaults.toTree = .ok t ∧ convert t = .error (.unexpectedModifier .block 7) ∧
      (∃ before w after, Visit.traversal ⟨none, t.trunk⟩ = before ++ w :: after ∧
        w.malformation? = some (.unexpectedModifier .block 7) ∧
          ∀ u ∈ before, u.malformation? = none) ∧
      ∃ w, Visit.Reached ⟨none, t.trunk⟩ w ∧ w.malformation? ≠ none := by
  have h : twoFaults.toTree.map (fun t => within t.trunk) =
      .ok (some (.unexpectedModifier .block 7)) := by
    with_unfolding_all rfl
  cases ht : twoFaults.toTree with
  | error e =>
    rw [ht] at h
    cases h
  | ok t =>
    rw [ht] at h
    have hc := convert_of_fault (Except.ok.inj h)
    exact ⟨t, rfl, hc, ((convert_error_iff t).1 _).1 hc, (convert_error_iff t).2.1.1 ⟨_, hc⟩⟩

end CanonTree.Conversion
