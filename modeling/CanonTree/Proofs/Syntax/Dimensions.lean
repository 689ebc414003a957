import CanonTree.Proofs.Syntax.Quoting

namespace CanonTree.Syntax

namespace Fragment

variable {s : String}

theorem brackets_succ (n : Nat) : brackets (n + 1) = brackets n ++ "[]" := by
  rw [brackets, List.replicate_succ', String.join_append, brackets, String.join_cons,
    String.join_nil, String.append_empty]

theorem joined_empty (fs : List Fragment) : joined "" fs = String.join (fs.map (·.text)) := by
  rw [joined]
  generalize fs.map (·.text) = ss
  induction ss with
  | nil => rfl
  | cons s ss ih =>
    cases ss with
    | nil => rw [String.intercalate_singleton, String.join_cons, String.join_nil,
        String.append_empty]
    | cons t ss =>
      rw [String.intercalate_cons_cons, String.append_empty, ih]
      exact String.join_cons.symm

theorem stripBrackets_of_not_suffix (h : ∀ t, s ≠ t ++ "[]") :
    stripBrackets s.toList.reverse = (s.toList.reverse, 0) := by
  rw [stripBrackets]
  intro cs hcs
  have hs : s.toList = cs.reverse ++ ['[', ']'] := by
    rw [← List.reverse_inj, hcs, List.reverse_append, List.reverse_reverse]
    rfl
  apply h (String.ofList cs.reverse)
  rw [← String.toList_inj, hs, String.toList_append, String.toList_ofList]
  rfl

/-- Brackets put behind a text that does not end in a pair of them are all that is taken off. -/
theorem stripBrackets_append_brackets (h : ∀ t, s ≠ t ++ "[]") (k : Nat) :
    stripBrackets (s ++ brackets k).toList.reverse = (s.toList.reverse, k) := by
  induction k with
  | zero =>
    rw [show brackets 0 = "" from rfl, String.append_empty]
    exact stripBrackets_of_not_suffix h
  | succ k ih =>
    have hlast : (s ++ brackets (k + 1)).toList.reverse =
        ']' :: '[' :: (s ++ brackets k).toList.reverse := by
      rw [brackets_succ, ← String.append_assoc, String.toList_append, List.reverse_append]
      rfl
    rw [hlast, stripBrackets, ih]

/-- What an array creation reads like: the element, the sizes in brackets, the brackets of the
dimensions that are left, and the initializer. -/
def created (element : String) (dimensions : Nat) (sizes : List String)
    (initializer : Option String) : String :=
  "new " ++ element ++ String.join (sizes.map fun s => "[" ++ s ++ "]") ++
    String.join (List.replicate (dimensions - sizes.length) "[]") ++
    initializer.elim "" fun s => " " ++ s

theorem arrayCreation_eq_created (h : ∀ t, s ≠ t ++ "[]") {k : Nat} {type : Fragment}
    (htype : type.text = s ++ brackets k) (fs : List Fragment) :
    arrayCreation type fs = created s k ((fs.filter (·.kind ≠ .arrayInitializer)).map (·.text))
      ((fs.filter (·.kind = .arrayInitializer)).getLast?.map (·.text)) := by
  rw [arrayCreation, htype, stripBrackets_append_brackets h, created, List.map_map,
    List.length_map, Option.elim_map]
  simp only [List.reverse_reverse, String.ofList_toList]
  rfl

end Fragment

variable {source : String} {element type b : Branch} {k : Nat} {rest : List Branch}

/-- A pair of brackets: a dimension without a word, without children and without a place in the
source. -/
structure Unsized (source : String) (d : Branch) : Prop where
  kind : d.value.kind = .dimension
  token : d.value.attrs.token = none
  children : d.children = []
  placeless : ¬ d.value.span.Addresses source

/-- An array type that lists `k` dimensions behind its element. -/
structure Listed (source : String) (element : Branch) (k : Nat) (type : Branch) : Prop where
  kind : type.value.kind = .arrayType
  placeless : ¬ type.value.span.Addresses source
  children : ∃ ds, type.children = element :: ds ∧ ds.length = k ∧ ∀ d ∈ ds, Unsized source d

/-- Array types one inside the other, `k` of them, with the element inside the last. -/
inductive Nested (source : String) (element : Branch) : Nat → Branch → Prop
  | element : Nested source element 0 element
  | wrapped {k : Nat} {inner type : Branch} : Nested source element k inner →
      type.value.kind = .arrayType → ¬ type.value.span.Addresses source →
      type.children = [inner] → Nested source element (k + 1) type

theorem Unsized.text_eq (h : Unsized source d) : text source d = "[]" := by
  rw [text_eq_render h.placeless, h.kind, h.token, h.children]
  rfl

theorem Listed.text_eq (h : Listed source element k type) (hk : 1 ≤ k) :
    text source type = text source element ++ Fragment.brackets k := by
  obtain ⟨ds, hchildren, hlength, hds⟩ := h.children
  have hempty : ds.map (text source) = List.replicate k "[]" := by
    rw [List.eq_replicate_iff, List.length_map]
    refine ⟨hlength, fun s hs => ?_⟩
    obtain ⟨d, hd, rfl⟩ := List.mem_map.1 hs
    exact (hds d hd).text_eq
  have hne : ds ≠ [] := List.ne_nil_of_length_pos (hlength ▸ hk)
  have hfragments : (fragments source ds).isEmpty = false := by
    rw [fragments_eq_map, List.isEmpty_map, List.isEmpty_eq_false_iff]
    exact hne
  rw [text_eq_render h.placeless, h.kind, hchildren, fragments, Fragment.render, Fragment.compound,
    hfragments, if_neg Bool.false_ne_true, Fragment.joined_empty, List.map_cons,
    map_text_fragments, hempty, String.join_cons, Fragment.brackets]

theorem Nested.text_eq (h : Nested source element k type) :
    text source type = text source element ++ Fragment.brackets k := by
  induction h with
  | element => rw [show Fragment.brackets 0 = "" from rfl, String.append_empty]
  | wrapped _ hkind hplaceless hchildren ih =>
    rw [text_eq_render hplaceless, hkind, hchildren, fragments_eq_map, Fragment.brackets_succ,
      ← String.append_assoc, ← ih]
    rfl

def isInitializer (c : Branch) : Bool := c.value.kind = .arrayInitializer

/-- An array creation without a place in the source: first its type, and then sizes and at most one
initializer. -/
structure Creation (source : String) (type : Branch) (rest : List Branch) (b : Branch) : Prop where
  kind : b.value.kind = .arrayCreation
  placeless : ¬ b.value.span.Addresses source
  children : b.children = type :: rest
  initializers : (rest.filter isInitializer).length ≤ 1

theorem getLast?_filter_of_length_le_one {α : Type} {p : α → Bool} {xs : List α}
    (h : (xs.filter p).length ≤ 1) : (xs.filter p).getLast? = xs.find? p := by
  rw [← List.head?_filter]
  match xs.filter p, h with
  | [], _ => rfl
  | [_], _ => rfl

theorem Creation.text_eq (h : Creation source type rest b)
    (helement : ∀ t, text source element ≠ t ++ "[]")
    (htype : text source type = text source element ++ Fragment.brackets k) :
    text source b = Fragment.created (text source element) k
      ((rest.filter fun c => !isInitializer c).map (text source))
      ((rest.find? isInitializer).map (text source)) := by
  rw [text_eq_render h.placeless, h.kind, h.children, fragments_eq_map, List.map_cons,
    Fragment.render, Fragment.compound, Fragment.arrayCreation_eq_created helement htype,
    List.filter_map, List.filter_map, List.map_map,
    ← getLast?_filter_of_length_le_one h.initializers, List.getLast?_map, Option.map_map]
  simp only [decide_not]
  rfl

/-- Whichever way its type is written, an array creation reads like the element, the sizes in
order, the dimensions without a size, and the initializer. -/
theorem text_arrayCreation (hk : 1 ≤ k) (helement : ∀ t, text source element ≠ t ++ "[]")
    (htype : Listed source element k type ∨ Nested source element k type)
    (hb : Creation source type rest b) :
    text source b = Fragment.created (text source element) k
      ((rest.filter fun c => !isInitializer c).map (text source))
      ((rest.find? isInitializer).map (text source)) := by
  rcases htype with hlisted | hnested
  · exact hb.text_eq helement (hlisted.text_eq hk)
  · exact hb.text_eq helement hnested.text_eq

def loose (kind : Kind) (token : Option String) (cs : List Branch) : Branch :=
  .node (.of 0 { kind := kind, attrs := { token := token } }) cs

theorem not_addresses_loose (kind : Kind) (token : Option String) (cs : List Branch)
    (source : String) : ¬ (loose kind token cs).value.span.Addresses source :=
  fun h => (by decide : ¬ 0 ≤ Span.unknown.start.toInt) h.start_nonneg

def intType : Branch := loose .primitiveType (some "int") []

def listedMatrix : Branch :=
  loose .arrayType none [intType, loose .dimension none [], loose .dimension none []]

def nestedMatrix : Branch := loose .arrayType none [loose .arrayType none [intType]]

def filled : List Branch := [
  loose .arrayInitializer none [loose .simpleName (some "a") []], loose .simpleName (some "n") []]

theorem text_arrayCreation_matrix :
    Listed "" intType 2 listedMatrix ∧ Nested "" intType 2 nestedMatrix ∧
      text "" (loose .arrayCreation none (listedMatrix :: filled)) = "new int[n][] \x7ba\x7d" ∧
      text "" (loose .arrayCreation none (nestedMatrix :: filled)) = "new int[n][] \x7ba\x7d" := by
  have hplaceless := fun kind token cs => not_addresses_loose kind token cs ""
  have hint : ∀ t, text "" intType ≠ t ++ "[]" := by
    intro t ht
    have hword : text "" intType = "int" := by decide +kernel
    have hlast := congrArg (·.toList.getLast?) (hword.symm.trans ht)
    simp at hlast
  have hlisted : Listed "" intType 2 listedMatrix := by
    refine ⟨rfl, hplaceless _ _ _, _, rfl, rfl, fun d hd => ?_⟩
    obtain rfl := List.eq_of_mem_replicate (n := 2) hd
    exact ⟨rfl, rfl, rfl, hplaceless _ _ _⟩
  have hnested : Nested "" intType 2 nestedMatrix :=
    .wrapped (.wrapped .element rfl (hplaceless _ _ _) rfl) rfl (hplaceless _ _ _) rfl
  have hcreation : ∀ type, Creation "" type filled (loose .arrayCreation none (type :: filled)) :=
    fun type => ⟨rfl, hplaceless _ _ _, rfl, by decide⟩
  refine ⟨hlisted, hnested, ?_, ?_⟩
  · rw [text_arrayCreation (by decide) hint (.inl hlisted) (hcreation _)]
    decide +kernel
  · rw [text_arrayCreation (by decide) hint (.inr hnested) (hcreation _)]
    decide +kernel

end CanonTree.Syntax
