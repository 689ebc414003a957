import CanonTree.Proofs.Preorder
import CanonTree.Proofs.Text.Bytes
import CanonTree.Syntax.Rendering

namespace CanonTree

open Text (Boundary)

namespace Span

variable {s : Span} {source t : String} {a b : Nat}

/-- The span is a non-empty run of whole characters of the source. -/
structure Addresses (s : Span) (source : String) : Prop where
  start_nonneg : 0 ≤ s.start.toInt
  length_pos : 1 ≤ s.length.toInt
  stop_fits : s.start.toInt + s.length.toInt ≤ 2147483647
  stop_le : s.start.toInt + s.length.toInt ≤ source.toUTF8.size
  start_boundary : Boundary source s.start.toInt.toNat
  stop_boundary : Boundary source (s.start.toInt + s.length.toInt).toNat

def bytes (s : Span) (source : String) : ByteArray :=
  source.toUTF8.extract s.start.toInt.toNat (s.start.toInt + s.length.toInt).toNat

/-- The range of a span is exact: there is one if and only if both parts are known and the end fits
32 bits, and then it runs from the start to the sum, without wrapping around. -/
structure Ranged (s : Span) : Prop where
  stop_iff : ∀ e, s.end? = some e ↔ 0 ≤ s.start.toInt ∧ 0 ≤ s.length.toInt ∧
    s.start.toInt + s.length.toInt ≤ 2147483647 ∧ e.toInt = s.start.toInt + s.length.toInt
  range_iff : ∀ a b, s.range? = some (a, b) ↔ 0 ≤ s.start.toInt ∧ 0 ≤ s.length.toInt ∧
    s.start.toInt + s.length.toInt ≤ 2147483647 ∧ (a : Int) = s.start.toInt ∧
      (b : Int) = s.start.toInt + s.length.toInt
  ordered : ∀ a b, s.range? = some (a, b) → a ≤ b ∧ b ≤ 2147483647

theorem isKnown_iff : s.isKnown = true ↔ 0 ≤ s.start.toInt ∧ 0 ≤ s.length.toInt := by
  rw [isKnown, Bool.and_eq_true, decide_eq_true_eq, decide_eq_true_eq, Int32.le_iff_toInt_le,
    Int32.le_iff_toInt_le, Int32.toInt_zero]

theorem end?_eq_some_iff {e : Int32} : s.end? = some e ↔ 0 ≤ s.start.toInt ∧
    0 ≤ s.length.toInt ∧ s.start.toInt + s.length.toInt ≤ 2147483647 ∧
      e.toInt = s.start.toInt + s.length.toInt := by
  rw [end?]
  split
  · rename_i hknown
    obtain ⟨hstart, hlength⟩ := isKnown_iff.1 hknown
    simp only [hstart, hlength, true_and]
    split
    · rename_i hfits
      have hfits : s.start.toInt + s.length.toInt ≤ 2147483647 := hfits
      have hsum : (Int32.ofInt (s.start.toInt + s.length.toInt)).toInt =
          s.start.toInt + s.length.toInt := Int32.toInt_ofInt_of_le (by omega) (by omega)
      rw [Option.some.injEq, ← Int32.toInt_inj, hsum, and_iff_right hfits, eq_comm]
    · rename_i hfits
      have hfits : ¬ s.start.toInt + s.length.toInt ≤ 2147483647 := hfits
      simp [hfits]
  · rename_i hknown
    have hnot := mt isKnown_iff.2 hknown
    constructor
    · intro h
      cases h
    · rintro ⟨hstart, hlength, -⟩
      exact absurd ⟨hstart, hlength⟩ hnot

theorem range?_eq_some_iff : s.range? = some (a, b) ↔ 0 ≤ s.start.toInt ∧ 0 ≤ s.length.toInt ∧
    s.start.toInt + s.length.toInt ≤ 2147483647 ∧ (a : Int) = s.start.toInt ∧
      (b : Int) = s.start.toInt + s.length.toInt := by
  rw [range?, Option.map_eq_some_iff]
  constructor
  · rintro ⟨e, he, hab⟩
    obtain ⟨hstart, hlength, hfits, hsum⟩ := end?_eq_some_iff.1 he
    obtain ⟨rfl, rfl⟩ := Prod.mk.inj hab
    refine ⟨hstart, hlength, hfits, ?_, ?_⟩ <;> rw [Int32.toNatClampNeg] <;> omega
  · rintro ⟨hstart, hlength, hfits, ha, hb⟩
    have hsum : (Int32.ofInt b).toInt = b := Int32.toInt_ofInt_of_le (by omega) (by omega)
    refine ⟨Int32.ofInt b, end?_eq_some_iff.2 ⟨hstart, hlength, hfits, hsum.trans hb⟩, ?_⟩
    rw [Int32.toNatClampNeg, Int32.toNatClampNeg, hsum, ← ha, Int.toNat_natCast, Int.toNat_natCast]

theorem ranged (s : Span) : s.Ranged where
  stop_iff _ := end?_eq_some_iff
  range_iff _ _ := range?_eq_some_iff
  ordered a b h := by
    obtain ⟨hstart, hlength, hfits, ha, hb⟩ := range?_eq_some_iff.1 h
    omega

theorem Addresses.range? (h : s.Addresses source) :
    s.range? = some (s.start.toInt.toNat, (s.start.toInt + s.length.toInt).toNat) := by
  obtain ⟨hstart, hlength, hfits, -, -, -⟩ := h
  rw [range?_eq_some_iff]
  omega

theorem isEmpty_iff_size : t.isEmpty = true ↔ t.toUTF8.size = 0 := by
  rw [String.toUTF8_eq_toByteArray, String.size_toByteArray, String.isEmpty_iff,
    String.utf8ByteSize_eq_zero_iff]

theorem Addresses.size_bytes (h : s.Addresses source) :
    ((s.bytes source).size : Int) = s.length.toInt := by
  obtain ⟨hstart, hlength, -, hle, -, -⟩ := h
  rw [bytes, ByteArray.size_extract]
  omega

theorem Addresses.exists_slice (h : s.Addresses source) :
    ∃ t, s.slice? source = some t ∧ t.toUTF8 = s.bytes source := by
  have hle : s.start.toInt.toNat ≤ (s.start.toInt + s.length.toInt).toNat := by
    have := h.length_pos
    omega
  obtain ⟨t, ht⟩ := Text.exists_slice h.start_boundary h.stop_boundary hle
  obtain ⟨-, -, -, hbytes⟩ := Text.slice?_eq_some_iff.1 ht
  refine ⟨t, ?_, hbytes⟩
  have hne : t.isEmpty = false := by
    rw [← Bool.not_eq_true, isEmpty_iff_size, hbytes]
    have hsize := h.size_bytes
    have hpos := h.length_pos
    rw [bytes] at hsize
    omega
  simp only [slice?, h.range?, Option.bind_eq_bind, Option.bind_some, ht, hne, Bool.false_eq_true,
    if_false]

theorem addresses_of_slice? (h : s.slice? source = some t) : s.Addresses source := by
  rw [slice?] at h
  simp only [Option.bind_eq_bind, Option.bind_eq_some_iff] at h
  obtain ⟨⟨a, b⟩, hrange, u, hu, h⟩ := h
  obtain ⟨hstart, hlength, hfits, ha, hb⟩ := range?_eq_some_iff.1 hrange
  obtain ⟨hbegin, hend, -, hbytes⟩ := Text.slice?_eq_some_iff.1 hu
  have hstop : b ≤ source.toUTF8.size := by
    rw [String.toUTF8_eq_toByteArray, String.size_toByteArray]
    exact hend.le
  split at h
  · cases h
  · -- a text that is not empty has at least one byte
    rename_i hne
    rw [isEmpty_iff_size, hbytes, ByteArray.size_extract] at hne
    rw [show a = s.start.toInt.toNat by omega] at hbegin
    rw [show b = (s.start.toInt + s.length.toInt).toNat by omega] at hend
    exact ⟨hstart, by omega, hfits, by omega, hbegin, hend⟩

theorem isSome_slice?_iff : (s.slice? source).isSome = true ↔ s.Addresses source := by
  constructor
  · intro h
    obtain ⟨t, ht⟩ := Option.isSome_iff_exists.1 h
    exact addresses_of_slice? ht
  · intro h
    obtain ⟨t, ht, -⟩ := h.exists_slice
    rw [ht]
    rfl

theorem slice?_eq_none_iff : s.slice? source = none ↔ ¬ s.Addresses source := by
  rw [← isSome_slice?_iff, Bool.not_eq_true, Option.isSome_eq_false_iff, Option.isNone_iff_eq_none]

instance : Decidable (s.Addresses source) := decidable_of_iff _ isSome_slice?_iff

end Span

namespace Syntax

variable {source : String}

theorem toUTF8_text {b : Branch} (h : b.value.span.Addresses source) :
    (text source b).toUTF8 = b.value.span.bytes source := by
  obtain ⟨t, ht, hbytes⟩ := h.exists_slice
  cases b with
  | node v cs =>
    have hslice : v.span.slice? source = some t := ht
    rw [text, hslice]
    exact hbytes

theorem text_eq_render {b : Branch} (h : ¬ b.value.span.Addresses source) :
    text source b = Fragment.render b.value.kind b.value.attrs.token
      (fragments source b.children) := by
  cases b with
  | node v cs =>
    have hslice : v.span.slice? source = none := Span.slice?_eq_none_iff.2 h
    rw [text, hslice]
    rfl

theorem fragments_eq_map (source : String) (cs : List Branch) :
    fragments source cs = cs.map fun c => ⟨c.value.kind, c.value.role, text source c⟩ := by
  induction cs with
  | nil => rfl
  | cons c cs ih => rw [fragments, ih, List.map_cons]

theorem map_text_fragments (source : String) (cs : List Branch) :
    (fragments source cs).map (·.text) = cs.map (text source) := by
  rw [fragments_eq_map, List.map_map]
  rfl

namespace Tree

variable {t : Tree} {i : Nat}

def textOf (t : Tree) (i : Nat) (h : i < t.size) : String := text t.source (t.branch i h)

theorem child_lt (h : i < t.size) : ∀ c ∈ t.arena[i].children.toList, c < t.size :=
  fun c hc => (t.arena.children_gt i h c (Array.mem_toList_iff.1 hc)).2

def fragmentsOf (t : Tree) (i : Nat) (h : i < t.size) : List Fragment :=
  t.arena[i].children.toList.pmap
    (fun c hc => ⟨t.arena[c].value.kind, t.arena[c].value.role, t.textOf c hc⟩) (child_lt h)

/-- The text of node `i` is the piece of source that its span addresses; if it addresses none, it is
rendered from the node's kind and word and the texts of its children. -/
structure Quoted (t : Tree) (i : Nat) (h : i < t.size) : Prop where
  quoted : t.arena[i].value.span.Addresses t.source →
    (t.textOf i h).toUTF8 = t.arena[i].value.span.bytes t.source
  rendered : ¬ t.arena[i].value.span.Addresses t.source →
    t.textOf i h = Fragment.render t.arena[i].value.kind t.arena[i].value.attrs.token
      (t.fragmentsOf i h)

theorem value_branch (h : i < t.size) : (t.branch i h).value = Item.of i t.arena[i].value :=
  t.arena.value_subtree Item.of i h

theorem row_of_lt (h : i < t.size) : t.arena.rows[i]? = some t.arena[i] := by
  rw [Arena.rows, Array.getElem?_toList]
  exact Array.getElem?_eq_getElem h

theorem branch_eq (h : i < t.size) : t.branch i h = .node (Item.of i t.arena[i].value)
    (t.arena[i].children.toList.pmap (fun c hc => t.branch c hc) (child_lt h)) :=
  Arena.subtree_eq Item.of t.arena i h _ (row_of_lt h) (child_lt h)

theorem fragments_branch (h : i < t.size) :
    fragments t.source (t.branch i h).children = t.fragmentsOf i h := by
  rw [branch_eq, Rose.children, fragments_eq_map, List.map_pmap, fragmentsOf]
  congr 1
  funext c hc
  rw [value_branch]
  rfl

theorem quoted_text (t : Tree) (i : Nat) (h : i < t.size) :
    (∀ s : Span, s.Ranged) ∧ t.Quoted i h := by
  have hvalue := value_branch h
  refine ⟨Span.ranged, fun haddresses => ?_, fun hnone => ?_⟩
  · have hbranch : (t.branch i h).value.span.Addresses t.source := by rwa [hvalue]
    have htext := toUTF8_text hbranch
    rwa [hvalue] at htext
  · have hbranch : ¬ (t.branch i h).value.span.Addresses t.source := by rwa [hvalue]
    have htext := text_eq_render hbranch
    rw [hvalue, fragments_branch] at htext
    exact htext

/-- In `né` the second character takes two bytes: a span of three bytes is quoted, one of two cuts
it and gives way to the node's word. -/
theorem quoted_text_twoByte : ∃ (t : Tree) (h₀ : 0 < t.size) (h₁ : 1 < t.size),
    t.source = "né" ∧ t.arena[0].value.span = ⟨0, 3⟩ ∧ t.textOf 0 h₀ = "né" ∧
      t.arena[1].value.span = ⟨0, 2⟩ ∧ t.textOf 1 h₁ = "n" := by
  let root : Node := { kind := .expressionStatement, span := ⟨0, 3⟩ }
  let name : Node := { kind := .simpleName, span := ⟨0, 2⟩, attrs := .ofToken "n" }
  let t : Tree := {
    source := "né"
    arena := (({} : Arena Node).addRoot root).addChild 0 (by decide) name
    root := 0
    root_lt := by decide }
  have h₀ : 0 < t.size := by decide
  have h₁ : 1 < t.size := by decide
  have hroot : root.span.Addresses "né" := by decide +kernel
  have hname : ¬ name.span.Addresses "né" := by decide +kernel
  refine ⟨t, h₀, h₁, rfl, rfl, ?_, rfl, ?_⟩
  · have hbytes : root.span.bytes "né" = "né".toUTF8 := by decide +kernel
    exact String.toByteArray_inj.1 (((quoted_text t 0 h₀).2.quoted hroot).trans hbytes)
  · have hword : Fragment.render name.kind name.attrs.token [] = "n" := by decide +kernel
    exact ((quoted_text t 1 h₁).2.rendered hname).trans hword

end Tree

end Syntax
end CanonTree
