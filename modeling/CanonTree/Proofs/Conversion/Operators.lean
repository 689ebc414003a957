import Mathlib.Data.List.Chain
import CanonTree.Canon.Dump
import CanonTree.Proofs.Conversion.Flattening
import CanonTree.Proofs.Fallible
import CanonTree.Proofs.Syntax.Dimensions
import CanonTree.Syntax.Document

namespace CanonTree

namespace Syntax

inductive Sign where
  | plus | minus | bang | tilde
deriving DecidableEq

inductive Operator where
  | plus | minus | increment | decrement | not | complement
deriving DecidableEq

namespace Sign

def char : Sign → Char
  | plus => '+'
  | minus => '-'
  | bang => '!'
  | tilde => '~'

def alone : Sign → Operator
  | plus => .plus
  | minus => .minus
  | bang => .not
  | tilde => .complement

theorem char_injective {s s' : Sign} (h : s.char = s'.char) : s = s' := by
  cases s <;> cases s' <;> first | rfl | exact absurd h (by decide)

end Sign

namespace Operator

def signs : Operator → List Sign
  | plus => [.plus]
  | minus => [.minus]
  | increment => [.plus, .plus]
  | decrement => [.minus, .minus]
  | not => [.bang]
  | complement => [.tilde]

def spelling (o : Operator) : String := String.ofList (o.signs.map Sign.char)

example : [plus, minus, increment, decrement, not, complement].map spelling =
    ["+", "-", "++", "--", "!", "~"] := by decide

def row (os : List Operator) : List Sign := os.flatMap signs

def glue (os : List Operator) : String := String.join (os.map spelling)

/-- Takes signs for operators, from the left and two for one where that can be. -/
def munch : List Sign → List Operator
  | [] => []
  | .plus :: .plus :: ss => increment :: munch ss
  | .minus :: .minus :: ss => decrement :: munch ss
  | s :: ss => s.alone :: munch ss

/-- The first sign of `p` is taken to be part of `o`. -/
def RunsInto (o p : Operator) : Prop :=
  (o = plus ∨ o = minus) ∧ p.signs.head? = o.signs.head?

instance (o p : Operator) : Decidable (RunsInto o p) := inferInstanceAs (Decidable (_ ∧ _))

def Apart (os : List Operator) : Prop := os.IsChain fun o p => ¬ RunsInto o p

instance (os : List Operator) : Decidable (Apart os) :=
  inferInstanceAs (Decidable (os.IsChain fun o p => ¬ RunsInto o p))

variable {os os' : List Operator} {o : Operator} {ss : List Sign}

theorem toList_glue (os : List Operator) : (glue os).toList = (row os).map Sign.char := by
  rw [glue, String.toList_join, List.flatMap_map, row, List.map_flatMap]
  simp only [spelling, String.toList_ofList]

theorem glue_inj : glue os = glue os' ↔ row os = row os' := by
  rw [← String.toList_inj, toList_glue, toList_glue,
    List.map_inj_right fun _ _ => Sign.char_injective]

theorem signs_alone (s : Sign) : s.alone.signs = [s] := by
  cases s <;> rfl

theorem head?_row_cons (o : Operator) (os : List Operator) :
    (row (o :: os)).head? = o.signs.head? := by
  cases o <;> rfl

@[simp] theorem row_munch (ss : List Sign) : row (munch ss) = ss := by
  fun_induction munch ss with
  | case1 => rfl
  | case2 ss ih | case3 ss ih =>
    rw [row, List.flatMap_cons, ← row, ih]
    rfl
  | case4 s ss _ _ ih => rw [row, List.flatMap_cons, ← row, ih, signs_alone, List.singleton_append]

theorem head?_signs_of_munch (h : o ∈ (munch ss).head?) : o.signs.head? = ss.head? := by
  cases hmunch : munch ss with
  | nil => simp [hmunch] at h
  | cons p os =>
    rw [hmunch, List.head?_cons, Option.mem_some_iff] at h
    rw [← h, ← head?_row_cons p os, ← hmunch, row_munch]

theorem apart_munch (ss : List Sign) : Apart (munch ss) := by
  fun_induction munch ss with
  | case1 => exact .nil
  | case2 ss ih | case3 ss ih =>
    refine List.isChain_cons.2 ⟨fun p _ hruns => ?_, ih⟩
    exact absurd hruns.1 (by decide)
  | case4 s ss hplus hminus ih =>
    refine List.isChain_cons.2 ⟨fun p hp hruns => ?_, ih⟩
    obtain ⟨hsign, hhead⟩ := hruns
    rw [head?_signs_of_munch hp, signs_alone, List.head?_cons] at hhead
    -- the sign would have been taken together with the one behind it
    cases s with
    | plus =>
      obtain ⟨rest, rfl⟩ := List.head?_eq_some_iff.1 hhead
      exact hplus rest rfl rfl
    | minus =>
      obtain ⟨rest, rfl⟩ := List.head?_eq_some_iff.1 hhead
      exact hminus rest rfl rfl
    | bang | tilde => exact absurd hsign (by decide)

theorem munch_alone {s : Sign} (h : ss.head? = some s → s ≠ .plus ∧ s ≠ .minus) :
    munch (s :: ss) = s.alone :: munch ss := by
  rw [munch]
  · rintro rest rfl rfl
    exact (h rfl).1 rfl
  · rintro rest rfl rfl
    exact (h rfl).2 rfl

theorem munch_row_alone {s : Sign} (h : ∀ p ∈ os.head?, ¬ RunsInto s.alone p) :
    munch (row (s.alone :: os)) = s.alone :: munch (row os) := by
  rw [row, List.flatMap_cons, signs_alone, List.singleton_append, ← row]
  refine munch_alone fun hhead => ?_
  cases os with
  | nil => cases hhead
  | cons p os =>
    have hno := h p rfl
    rw [head?_row_cons] at hhead
    rw [RunsInto, hhead, signs_alone, List.head?_cons, and_iff_left rfl, not_or] at hno
    exact ⟨fun hs => hno.1 (congrArg Sign.alone hs), fun hs => hno.2 (congrArg Sign.alone hs)⟩

/-- Operators that stay apart are found again in their signs. -/
theorem munch_row (h : Apart os) : munch (row os) = os := by
  induction os with
  | nil => rfl
  | cons o os ih =>
    obtain ⟨hnext, hos⟩ := List.isChain_cons.1 h
    have ih := ih hos
    cases o with
    | plus => exact (munch_row_alone (s := .plus) hnext).trans (congrArg _ ih)
    | minus => exact (munch_row_alone (s := .minus) hnext).trans (congrArg _ ih)
    | not => exact (munch_row_alone (s := .bang) hnext).trans (congrArg _ ih)
    | complement => exact (munch_row_alone (s := .tilde) hnext).trans (congrArg _ ih)
    | increment => exact congrArg (increment :: ·) ih
    | decrement => exact congrArg (decrement :: ·) ih

/-- Of the rows of operators that are written alike, there is one in which they stay apart. -/
theorem existsUnique_apart (os : List Operator) : ∃! os', Apart os' ∧ glue os' = glue os := by
  refine ⟨munch (row os), ⟨apart_munch _, ?_⟩, fun os' h => ?_⟩
  · rw [glue_inj, row_munch]
  · rw [← glue_inj.1 h.2, munch_row h.1]

end Operator

/-- The operators of `b`, from the outermost to the one next to the operand; none of these nodes has
a place in the source. -/
inductive Chain (source : String) (operand : Branch) : List Operator → Branch → Prop
  | operand : Chain source operand [] operand
  | applied {o : Operator} {os : List Operator} {inner b : Branch} : Chain source operand os inner →
      b.value.kind = .prefixExpression → b.value.attrs.token = some o.spelling →
      ¬ b.value.span.Addresses source → b.children = [inner] → Chain source operand (o :: os) b

variable {source : String} {operand operand' b b' : Branch} {os os' : List Operator}

theorem Chain.text_eq (h : Chain source operand os b) :
    text source b = Operator.glue os ++ text source operand := by
  induction h with
  | operand => rw [show Operator.glue [] = "" from rfl, String.empty_append]
  | applied _ hkind htoken hplaceless hchildren ih =>
    rw [text_eq_render hplaceless, hkind, htoken, hchildren, fragments_eq_map, List.map_singleton,
      Fragment.render, Fragment.compound, Fragment.joined, List.map_singleton,
      String.intercalate_singleton, ih, Operator.glue, Operator.glue, List.map_cons,
      String.join_cons, String.append_assoc, Option.getD_some]

theorem Chain.text_eq_iff (h : Chain source operand os b) (h' : Chain source operand' os' b')
    (hsame : text source operand' = text source operand) :
    text source b' = text source b ↔ Operator.row os' = Operator.row os := by
  rw [h.text_eq, h'.text_eq, hsame, String.append_left_inj, Operator.glue_inj]

end Syntax

namespace Conversion

open Syntax (Branch Chain Operator)

theorem Flattening.container_mem_children {f : Flattening} {as : List String}
    (h : f.arguments = some as) : container .arguments as ∈ f.children := by
  simp [children, h]

/-- A converted call with arguments has a container with their texts, in their order. -/
theorem arguments_of_convert {t : Syntax.Tree} {c : Canon.Tree} {call : Branch} (ht : t.Made)
    (h : convert t = .ok c) (hcall : Traversed t call)
    (hk : call.value.kind = .methodInvocation ∨ call.value.kind = .superMethodInvocation)
    (hne : Syntax.inRole .arguments call.children ≠ []) :
    ∃ i, ∃ hi : i < c.size, Genuine c i ∧ origin t c i = call.value.id ∧
      Flattening.container .arguments
          ((Syntax.inRole .arguments call.children).map (Syntax.text t.source)) ∈
        (below c i hi).children := by
  obtain ⟨i, hi, hgenuine, horigin, hbelow⟩ := exists_stand_of_convert ht h hcall
  obtain ⟨hfault, -, -⟩ := within_of_convert h
  have hmissing := missing?_of_visited hfault ((traversed_iff hfault).1 hcall)
  obtain ⟨n, hn⟩ := exists_name_of_call hmissing hk
  refine ⟨i, hi, hgenuine, horigin, ?_⟩
  rw [hbelow, children_image_of_call t.source hk hn]
  refine Flattening.container_mem_children ?_
  rw [Flattening.ofParts]
  exact Flattening.contained_of_ne_nil (mt List.map_eq_nil_iff.1 hne)

/-- What the text of a chain of operators `os` in front of an operand tells. -/
structure Glued (source : String) (operand : Branch) (os : List Operator) (b : Branch) : Prop where
  text : Syntax.text source b = Operator.glue os ++ Syntax.text source operand
  confused_iff : ∀ operand' os' b', Chain source operand' os' b' →
    Syntax.text source operand' = Syntax.text source operand →
      (Syntax.text source b' = Syntax.text source b ↔ Operator.row os' = Operator.row os)
  distinct : Operator.Apart os → ∀ operand' os' b', Chain source operand' os' b' →
    Syntax.text source operand' = Syntax.text source operand → Operator.Apart os' →
      os' ≠ os → Syntax.text source b' ≠ Syntax.text source b
  unique : ∃! os', Operator.Apart os' ∧ Operator.glue os' = Operator.glue os
  argument : ∀ (t : Syntax.Tree) (c : Canon.Tree) (call : Branch), t.source = source → t.Made →
    convert t = .ok c → Traversed t call →
    (call.value.kind = .methodInvocation ∨ call.value.kind = .superMethodInvocation) →
    b ∈ Syntax.inRole .arguments call.children →
      ∃ i, ∃ hi : i < c.size, Genuine c i ∧ origin t c i = call.value.id ∧
        ∃ labels, Flattening.container .arguments labels ∈ (below c i hi).children ∧
          labels = (Syntax.inRole .arguments call.children).map (Syntax.text source) ∧
            Operator.glue os ++ Syntax.text source operand ∈ labels

variable {source : String} {operand b : Branch} {os : List Operator}

theorem glued_of_chain (h : Chain source operand os b) : Glued source operand os b where
  text := h.text_eq
  confused_iff _ _ _ h' hsame := h.text_eq_iff h' hsame
  distinct hos operand' os' b' h' hsame hos' hne htext := by
    have hrow := (h.text_eq_iff h' hsame).1 htext
    rw [← Operator.munch_row hos', ← Operator.munch_row hos, hrow] at hne
    exact hne rfl
  unique := Operator.existsUnique_apart os
  argument t c call hsource ht hc hcall hk hb := by
    obtain ⟨i, hi, hgenuine, horigin, hcontainer⟩ :=
      arguments_of_convert ht hc hcall hk (List.ne_nil_of_mem hb)
    rw [hsource] at hcontainer
    refine ⟨i, hi, hgenuine, horigin, _, hcontainer, rfl, ?_⟩
    rw [← h.text_eq]
    exact List.mem_map_of_mem hb

open Syntax (loose)

def operandX : Branch := loose .simpleName (some "x") []

def prefixed : List Operator → Branch
  | [] => operandX
  | o :: os => loose .prefixExpression (some o.spelling) [prefixed os]

theorem chain_prefixed (os : List Operator) : Chain "" operandX os (prefixed os) := by
  induction os with
  | nil => exact .operand
  | cons o os ih => exact .applied ih rfl rfl (Syntax.not_addresses_loose _ _ _ _) rfl

theorem glued_of_chain_apart : Chain "" operandX [.complement, .increment, .plus, .minus]
      (prefixed [.complement, .increment, .plus, .minus]) ∧
    Operator.Apart [.complement, .increment, .plus, .minus] ∧
    Glued "" operandX [.complement, .increment, .plus, .minus]
      (prefixed [.complement, .increment, .plus, .minus]) ∧
    Syntax.text "" (prefixed [.complement, .increment, .plus, .minus]) = "~+++-x" := by
  have h := chain_prefixed [.complement, .increment, .plus, .minus]
  have hglued := glued_of_chain h
  refine ⟨h, by decide, hglued, ?_⟩
  rw [hglued.text]
  decide +kernel

def negatedCall : Syntax.Document := ⟨"",
  .node { kind := "MethodInvocation" } [
    .node { kind := "SimpleName", role := .name, attrs := .ofToken "f" } [],
    .node { kind := "PrefixExpression", role := .arguments, attrs := .ofToken "-" } [
      .node { kind := "PrefixExpression", attrs := .ofToken "-" } [
        .node { kind := "SimpleName", attrs := .ofToken "x" } []]],
    .node { kind := "PrefixExpression", role := .arguments, attrs := .ofToken "--" } [
      .node { kind := "SimpleName", attrs := .ofToken "x" } []]]⟩

/-- The negative of a negative reads like a decrement, and so they are the same as arguments. -/
theorem not_distinct_negations :
    Chain "" operandX [.minus, .minus] (prefixed [.minus, .minus]) ∧
      Chain "" operandX [.decrement] (prefixed [.decrement]) ∧
      ([.minus, .minus] : List Operator) ≠ [.decrement] ∧
      Syntax.text "" (prefixed [.minus, .minus]) = Syntax.text "" (prefixed [.decrement]) ∧
    ∃ t c, negatedCall.toTree = .ok t ∧ convert t = .ok c ∧
      c.dump true = "METHOD_INVOCATION [-1,-1]\n" ++ "    SIMPLE_NAME: f [-1,1]\n" ++
        "    ARGUMENTS [-1,0]\n" ++ "        SIMPLE_NAME: --x [-1,3]\n" ++
          "        SIMPLE_NAME: --x [-1,3]\n" := by
  have hload : negatedCall.toTree.toOption.any (fun t => (convert t).toOption.any (fun c =>
      c.dump true = "METHOD_INVOCATION [-1,-1]\n" ++ "    SIMPLE_NAME: f [-1,1]\n" ++
        "    ARGUMENTS [-1,0]\n" ++ "        SIMPLE_NAME: --x [-1,3]\n" ++
          "        SIMPLE_NAME: --x [-1,3]\n")) = true := by
    decide +kernel
  obtain ⟨t, c, ht, hc, hdump⟩ := exists_ok_ok_of_any hload
  refine ⟨chain_prefixed _, chain_prefixed _, by decide, ?_, t, c, ht, hc,
    of_decide_eq_true hdump⟩
  exact ((chain_prefixed _).text_eq_iff (chain_prefixed _) rfl).2 rfl

end Conversion
end CanonTree
