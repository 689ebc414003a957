import CanonTree.Cli.Args

namespace CanonTree.Cli

def Given.Accepted (g : Given) : Prop := ∀ o ∈ g.options, o.1.accepts o.2 = true

variable {g g' : Given} {known : List OptionName} {next : Option String} {taken : Bool}

theorem Given.Accepted.empty : Given.Accepted {} := fun _ ho => absurd ho List.not_mem_nil

theorem Given.Accepted.withOption? {name : OptionName} {value : String} (h : g.Accepted)
    (hg : g.withOption? name value = some g') : g'.Accepted := by
  rw [Given.withOption?] at hg
  split at hg
  · rename_i haccepts
    cases hg
    intro o ho
    obtain ho | ho := List.mem_append.1 ho
    · exact h o ho
    · cases List.mem_singleton.1 ho
      simp only [Bool.and_eq_true] at haccepts
      exact haccepts.1
  · cases hg

theorem Given.Accepted.withVerbose? (h : g.Accepted) (hg : g.withVerbose? = some g') :
    g'.Accepted := by
  rw [Given.withVerbose?] at hg
  split at hg
  · cases hg
  · cases hg
    exact h

end CanonTree.Cli
