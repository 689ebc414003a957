import CanonTree.Cli.Run
import CanonTree.Proofs.Canon.Ranking
import CanonTree.Proofs.Conversion.Lines
import CanonTree.Proofs.Files.Collecting
import CanonTree.Proofs.Json.Squeezing

namespace CanonTree.Cli

open Canon (Tally)

variable {fs : Files} {input time : String} {args : List String} {format : Format} {c : Canon.Tree}

theorem has_of_generateFile (h : generateFile fs input = .ok c) : fs.has input = true := by
  obtain ⟨text, hread, -⟩ := bind_eq_ok.1 h
  cases hresult : fs.read input with
  | ok text => exact Files.has_of_read hresult
  | error e =>
    rw [hresult] at hread
    cases hread

theorem run_of_generateFile (hargs : Command.ofArgs? args = some (.stats input format))
    (h : generateFile fs input = .ok c) :
    run fs time args = ⟨0, statisticsText c.statistics time format, [], fs⟩ := by
  have hstats : stats fs input format =
      .ok fun time => ⟨0, statisticsText c.statistics time format, [], fs⟩ := by
    rw [stats, has_of_generateFile h, h]
    rfl
  rw [run, hargs]
  simp only [execute, hstats, outcome]

def categoryLine (x : Entity × Nat) : String := "  " ++ x.1.name ++ ": " ++ toString x.2 ++ "\n"

def categoryValue (x : Entity × Nat) : Json.Value := .array [.string x.1.name, .number x.2]

/-- The statistics of the tree tell how often each entity is met in it, as the only list in order
that does so; a tree with the same entities has the same ones, but for the number of nodes that were
put in. What is printed are these numbers, the entities in their order. -/
structure Summarized (c : Canon.Tree) : Prop where
  tally : Tally c.met c.statistics.categories
  only : ∀ ds, Tally c.met ds → ds = c.statistics.categories
  sum : (c.statistics.categories.map (·.2)).sum = c.statistics.total
  total : c.statistics.total = c.size
  nesting : ∀ t' c', Conversion.convert t' = .ok c' → c'.met.Perm c.met →
    c'.statistics = { c.statistics with synthetic := c'.syntheticCount }
  text : ∀ time, statisticsText c.statistics time .text =
    "\nStatistics\n==========\nTotal nodes: " ++ toString c.size ++ "\nSynthetic nodes: " ++
      toString c.syntheticCount ++ "\n\nBy type:\n" ++
        String.join (c.statistics.categories.map categoryLine) ++ "\nDuration: " ++ time ++ "\n"
  json : ∀ time, Json.Value.parse? (Json.squeeze (statisticsText c.statistics time .json)) =
    some (.object [("total", .number c.size), ("synthetic", .number c.syntheticCount),
      ("categories", .array (c.statistics.categories.map categoryValue)),
      ("duration", .string time)])
  printed : ∀ fs time args input format, Command.ofArgs? args = some (.stats input format) →
    generateFile fs input = .ok c →
      run fs time args = ⟨0, statisticsText c.statistics time format, [], fs⟩

theorem tally_of_convert {t : Syntax.Tree} (h : Conversion.convert t = .ok c) :
    Tally c.met c.statistics.categories ∧ c.met.length = c.statistics.total := by
  obtain ⟨hlaid, -⟩ := Conversion.laidOut_of_convert h
  rw [hlaid.met_eq]
  exact ⟨c.tally_categories, c.length_entities⟩

theorem statisticsText_text (c : Canon.Tree) (time : String)
    (hne : c.statistics.categories ≠ []) : statisticsText c.statistics time .text =
      "\nStatistics\n==========\nTotal nodes: " ++ toString c.size ++ "\nSynthetic nodes: " ++
        toString c.syntheticCount ++ "\n\nBy type:\n" ++
          String.join (c.statistics.categories.map categoryLine) ++ "\nDuration: " ++ time ++
            "\n" := by
  have hsome : c.statistics.categories.isEmpty = false := by simpa using hne
  have hheader : header "Statistics" = "\nStatistics\n==========\n" := by decide
  have hlines : statisticsLines c.statistics =
      "\nBy type:\n" ++ String.join (c.statistics.categories.map categoryLine) := by
    rw [statisticsLines, hsome]
    rfl
  rw [statisticsText, hheader, hlines, ← String.toList_inj]
  simp [toString, Canon.Tree.statistics]

theorem parse?_statisticsText (c : Canon.Tree) (time : String) :
    Json.Value.parse? (Json.squeeze (statisticsText c.statistics time .json)) =
      some (.object [("total", .number c.size), ("synthetic", .number c.syntheticCount),
        ("categories", .array (c.statistics.categories.map categoryValue)),
        ("duration", .string time)]) := by
  rw [statisticsText, Json.squeeze_pretty_line, Json.Value.parse?_compact]
  rfl

theorem summarized_of_convert {t : Syntax.Tree} (h : Conversion.convert t = .ok c) :
    Summarized c := by
  obtain ⟨htally, htotal⟩ := tally_of_convert h
  have hne : c.statistics.categories ≠ [] := by
    intro hnil
    have hsum := htally.sum.trans htotal
    rw [hnil] at hsum
    exact Nat.not_lt_zero _ (Nat.lt_of_lt_of_eq c.root_lt hsum.symm)
  refine ⟨htally, fun ds hds => hds.eq htally, htally.sum.trans htotal, rfl, ?_,
    fun time => statisticsText_text c time hne, parse?_statisticsText c, ?_⟩
  · intro t' c' h' hperm
    obtain ⟨htally', htotal'⟩ := tally_of_convert h'
    have hcategories : c'.statistics.categories = c.statistics.categories :=
      (htally'.perm hperm).eq htally
    have hsame : c'.statistics.total = c.statistics.total := by
      rw [← htotal', ← htotal, hperm.length_eq]
    change Canon.Statistics.mk c'.statistics.total _ c'.statistics.categories =
      .mk c.statistics.total _ c.statistics.categories
    rw [hsame, hcategories]
  · intro fs time args input format hargs hgenerate
    exact run_of_generateFile hargs hgenerate

def nestedBlock : Syntax.Document := ⟨"",
  .node { kind := "IfStatement" } [
    .node { kind := "SimpleName", role := .expression } [],
    .node { kind := "Block", role := .thenStatement } [.node { kind := "Block" } []],
    .node { kind := "SimpleName", role := .elseStatement } []]⟩

def nestedName : Syntax.Document := ⟨"",
  .node { kind := "IfStatement" } [
    .node { kind := "SimpleName", role := .expression } [],
    .node { kind := "Block", role := .thenStatement } [],
    .node { kind := "Block", role := .elseStatement } [.node { kind := "SimpleName" } []]]⟩

def nestedBlockMet : List Entity :=
  [.ifStatement, .simpleName, .block, .block, .elseStatement, .simpleName]

def nestedNameMet : List Entity :=
  [.ifStatement, .simpleName, .block, .elseStatement, .block, .simpleName]

def nestedCategories : List (Entity × Nat) :=
  [(.block, 2), (.simpleName, 2), (.elseStatement, 1), (.ifStatement, 1)]

theorem summarized_of_convert_nested : ∃ t c t' c', nestedBlock.toTree = .ok t ∧
    Conversion.convert t = .ok c ∧ nestedName.toTree = .ok t' ∧ Conversion.convert t' = .ok c' ∧
      Summarized c ∧ c.met = nestedBlockMet ∧ c'.met = nestedNameMet ∧
        c.statistics.categories = nestedCategories ∧
          c'.statistics.categories = nestedCategories := by
  have hblock : nestedBlock.toTree.toOption.any (fun t => (Conversion.convert t).toOption.any
      (fun c => c.met = nestedBlockMet)) = true := by
    decide +kernel
  have hname : nestedName.toTree.toOption.any (fun t => (Conversion.convert t).toOption.any
      (fun c => c.met = nestedNameMet)) = true := by
    decide +kernel
  obtain ⟨t, c, ht, hc, hcomputed⟩ := exists_ok_ok_of_any hblock
  have hmet := of_decide_eq_true hcomputed
  obtain ⟨t', c', ht', hc', hcomputed'⟩ := exists_ok_ok_of_any hname
  have hmet' := of_decide_eq_true hcomputed'
  have hsummarized := summarized_of_convert hc
  have hperm : c'.met.Perm c.met := by
    rw [hmet, hmet']
    decide
  have hstatistics := hsummarized.nesting t' c' hc' hperm
  have htally : Tally c.met nestedCategories := by
    rw [hmet]
    exact Tally.of_perm (by decide) (by decide +kernel)
  have hcategories := (hsummarized.only nestedCategories htally).symm
  refine ⟨t, c, t', c', ht, hc, ht', hc', hsummarized, hmet, hmet', hcategories, ?_⟩
  rw [hstatistics]
  exact hcategories

end CanonTree.Cli
