import CanonTree.Canon.View
import CanonTree.Proofs.Canon.Legible
import CanonTree.Proofs.Json.Squeezing

namespace CanonTree

namespace Json.Value

mutual
def without (keys : List String) : Value → Value
  | object ms => object (membersWithout keys ms)
  | array vs => array (itemsWithout keys vs)
  | v => v

def itemsWithout (keys : List String) : List Value → List Value
  | [] => []
  | v :: vs => v.without keys :: itemsWithout keys vs

def membersWithout (keys : List String) : List (String × Value) → List (String × Value)
  | [] => []
  | (k, v) :: ms =>
    if k ∈ keys then membersWithout keys ms else (k, v.without keys) :: membersWithout keys ms
end

end Json.Value

namespace Canon

open Builder (Call made)
open Json (Value)

structure Shown where
  name : String
  code : Int
  label : String
  start : Int
  length : Int
deriving DecidableEq

def Node.shown (n : Node) : Shown :=
  ⟨n.entity.name, n.entity.code, n.label, n.span.start.toInt, n.span.length.toInt⟩

def viewKeys : List String := ["type", "legacy_code", "label", "pos", "length", "children"]

mutual
def ofView? : Value → Option (Rose Shown)
  | .object [(k₁, .string name), (k₂, .number code), (k₃, .string label), (k₄, .number start),
      (k₅, .number length), (k₆, .array vs)] =>
    if [k₁, k₂, k₃, k₄, k₅, k₆] = viewKeys then
      (ofViews? vs).map (.node ⟨name, code, label, start, length⟩)
    else none
  | _ => none

def ofViews? : List Value → Option (List (Rose Shown))
  | [] => some []
  | v :: vs => do return (← ofView? v) :: (← ofViews? vs)
end

mutual
theorem ofView?_view : ∀ r : Rose Node, ofView? (view true r) = some (r.map Node.shown)
  | .node n cs => by
    have hcs := ofViews?_views cs
    simp only [view, Node.members, if_true, List.cons_append, List.nil_append, ofView?, hcs,
      Rose.map]
    rfl

theorem ofViews?_views : ∀ cs : List (Rose Node),
    ofViews? (views true cs) = some (Rose.maps Node.shown cs)
  | [] => rfl
  | c :: cs => by
    rw [views, ofViews?, ofView?_view c, ofViews?_views cs, Rose.maps]
    rfl
end

def positionKeys : List String := ["pos", "length"]

mutual
theorem without_view : ∀ r : Rose Node, (view true r).without positionKeys = view false r
  | .node n cs => by
    have hcs := without_views cs
    have hpos : "pos" ∈ positionKeys := by decide
    have hlength : "length" ∈ positionKeys := by decide
    have hkept : ∀ k ∈ ["type", "legacy_code", "label", "children"], k ∉ positionKeys := by decide
    simp only [List.forall_mem_cons] at hkept
    obtain ⟨htype, hcode, hlabel, hchildren, -⟩ := hkept
    simp [view, Node.members, Value.without, Value.membersWithout, hpos, hlength, htype, hcode,
      hlabel, hchildren, hcs]

theorem without_views : ∀ cs : List (Rose Node),
    Value.itemsWithout positionKeys (views true cs) = views false cs
  | [] => rfl
  | c :: cs => by
    rw [views, Value.itemsWithout, without_view c, without_views cs, views]
end

def recover? (text : String) : Option (Rose Shown) := Value.parse? text >>= ofView?

theorem recover?_compact (t : Tree) :
    recover? (t.json true).compact = some (t.rose.map Node.shown) := by
  rw [recover?, Value.parse?_compact]
  exact ofView?_view t.rose

/-- The views of the tree tell it: as JSON that the tree is read back from, in either layout, and
with or without the positions. -/
structure Faithful (t : Tree) : Prop where
  spells : ∀ positions,
    Json.Spells (.of (t.json positions)) (t.json positions).compact.toList
  recover : recover? (t.json true).compact = some (t.rose.map Node.shown)
  rows : t.arena.rows.map (Entry.map Node.shown) = (t.rose.map Node.shown).layout none 0
  unique : ∀ {calls : List Call} {u : Tree}, (made calls).build = .ok u →
    (t.json true).compact = (u.json true).compact → Agree Node.shown t u
  squeeze : ∀ positions, Json.squeeze (t.json positions).pretty = (t.json positions).compact
  without : (t.json true).without positionKeys = t.json false

theorem Tree.LaidOut.faithful {t : Tree} (hlaid : t.LaidOut) : Faithful t := by
  have hrows : t.arena.rows.map (Entry.map Node.shown) =
      (t.rose.map Node.shown).layout none 0 := by
    rw [hlaid.rows, ← Rose.layout_map]
  refine ⟨fun positions => Value.spells_compact _, recover?_compact t, hrows, ?_,
    fun positions => Json.squeeze_pretty _, without_view t.rose⟩
  intro calls' u hu htext
  have hshown : some (t.rose.map Node.shown) = some (u.rose.map Node.shown) := by
    rw [← recover?_compact, ← recover?_compact, htext]
  exact .of_nested hlaid (laidOut_of_build hu) (Option.some.inj hshown)

theorem faithful_of_build {calls : List Call} {t : Tree} (h : (made calls).build = .ok t) :
    Faithful t := (laidOut_of_build h).faithful

/-- Labels that look like JSON, with quotes, backslashes and control characters in them. -/
def quotedCalls : List Call := [
  .push (.inserted .methodInvocation "\",\"pos\":[\\" ⟨0, 9⟩) "test",
  .push (.inserted .simpleName " \x01\t\n \"" .unknown) "test",
  .pop,
  .pop]

def quotedText : String :=
  "\x7b\"type\":\"METHOD_INVOCATION\",\"legacy_code\":32,\"label\":\"\\\",\\\"pos\\\":[\\\\\"," ++
  "\"pos\":0,\"length\":9,\"children\":[" ++
  "\x7b\"type\":\"SIMPLE_NAME\",\"legacy_code\":42,\"label\":\" \\u0001\\t\\n \\\"\"," ++
  "\"pos\":-1,\"length\":-1,\"children\":[]\x7d]\x7d"

theorem faithful_of_build_quotedCalls : ∃ t, (made quotedCalls).build = .ok t ∧
    (t.json true).compact = quotedText ∧ Faithful t := by
  have hrun : (made quotedCalls).build.toOption.any
      (fun t => (t.json true).compact = quotedText) = true := by
    decide +kernel
  obtain ⟨t, ht, htext⟩ := exists_ok_of_any hrun
  exact ⟨t, ht, of_decide_eq_true htext, faithful_of_build ht⟩

end Canon
end CanonTree
