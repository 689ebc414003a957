import Mathlib.Data.List.Nodup
import CanonTree.Cli.Run
import CanonTree.Proofs.Cli.Arguments
import CanonTree.Proofs.Files.Writing

namespace CanonTree.Cli

variable {c : OutputConfig} {dir : String} {d : List String}

def converted (results : List (String × Except Failure Canon.Tree)) :
    List (String × Canon.Tree) :=
  results.filterMap fun r => r.2.toOption.map (r.1, ·)

/-- What the delivery of `trees` makes of the files. -/
structure Delivered (c : OutputConfig) (d : List String) (trees : List (String × Canon.Tree))
    (fs fs' : Files) : Prop where
  isDirAt : ∀ q, fs'.isDirAt q = fs.isDirAt q
  here : ∀ x ∈ trees, fs'.contentAt? (d ++ [outputName c.format x.1]) = some (render c x.2).toUTF8
  elsewhere : ∀ q, (∀ x ∈ trees, q ≠ d ++ [outputName c.format x.1]) →
    fs'.contentAt? q = fs.contentAt? q

theorem Delivered.nil (c : OutputConfig) (d : List String) (fs : Files) :
    Delivered c d [] fs fs :=
  ⟨fun _ => rfl, by simp, fun _ _ => rfl⟩

/-- An output stays as it is if none of the others has its name. -/
theorem Delivered.cons {trees : List (String × Canon.Tree)} {fs fs₁ fs₂ : Files} {path : String}
    {t : Canon.Tree} (hw : fs.Written fs₁ (d ++ [outputName c.format path]) (render c t))
    (h : Delivered c d trees fs₁ fs₂)
    (hname : ∀ x ∈ trees, outputName c.format path ≠ outputName c.format x.1) :
    Delivered c d ((path, t) :: trees) fs fs₂ where
  isDirAt q := (h.isDirAt q).trans (hw.isDirAt q)
  here := by
    intro x hx
    obtain rfl | hx := List.mem_cons.1 hx
    · rw [h.elsewhere _ fun y hy heq => hname y hy (by simpa using heq), hw.here]
    · exact h.here x hx
  elsewhere := by
    intro q hq
    rw [h.elsewhere q fun x hx => hq x (List.mem_cons_of_mem _ hx),
      hw.elsewhere q (hq (path, t) List.mem_cons_self)]

/-- What a conversion works on that comes to deliver into a directory: the files that it collected
and all files as they are then. -/
structure Batch where
  config : OutputConfig
  directory : String
  found : List String
  files : Files

namespace Batch

def results (b : Batch) : List (String × Except Failure Canon.Tree) :=
  b.found.map fun path => (path, generateFile b.files path)

def trees (b : Batch) : List (String × Canon.Tree) := converted b.results

def name (b : Batch) (path : String) : String := outputName b.config.format path

end Batch

variable {fs : Files} {args : List String} {b : Batch}

end CanonTree.Cli
