import Mathlib.Algebra.GroupWithZero.Nat
import CanonTree.Proofs.Conversion.Flattening
import CanonTree.Proofs.Text.Searching

namespace CanonTree

open Syntax (Branch Builder)
open Text (Boundary FirstAt Occurs)

variable {source needle : String} {start p : Nat}

structure Located (source needle : String) (start : Nat) (s : Span) : Prop where
  unknown_iff : s = .unknown ↔ source.utf8ByteSize < start ∨ ¬ Boundary source start ∨
    ∀ q, start ≤ q → ¬ Occurs source needle q
  found : s ≠ .unknown → ∃ p, FirstAt source needle start p ∧ s.start.toInt = p ∧
    s.length.toInt = needle.utf8ByteSize
  text : s ≠ .unknown → needle ≠ "" → ∀ b : Branch, b.value.span = s →
    Syntax.text source b = needle

theorem toInt_offset (h : source.utf8ByteSize < 2 ^ 31) (hp : p ≤ source.utf8ByteSize) :
    (Int32.ofNat p).toInt = p :=
  Int32.toInt_ofNat_of_lt (Nat.lt_of_le_of_lt hp h)

/-- Nodes at an occurrence of a word that is not empty read like the word. -/
theorem text_of_occurs (h : source.utf8ByteSize < 2 ^ 31) (hp : Occurs source needle p)
    (hne : needle ≠ "") {b : Branch}
    (hb : b.value.span = ⟨Int32.ofNat p, Int32.ofNat needle.utf8ByteSize⟩) :
    Syntax.text source b = needle := by
  obtain ⟨hbegin, hend⟩ := hp.boundary hne
  obtain ⟨hle, hbytes⟩ := hp
  have hpos : needle.utf8ByteSize ≠ 0 := mt String.utf8ByteSize_eq_zero_iff.1 hne
  have hstart : b.value.span.start.toInt = p := by
    rw [hb]
    exact toInt_offset h (by omega)
  have hlength : b.value.span.length.toInt = needle.utf8ByteSize := by
    rw [hb]
    exact toInt_offset h (by omega)
  have hsize : source.toUTF8.size = source.utf8ByteSize := by
    rw [String.toUTF8_eq_toByteArray, String.size_toByteArray]
  have haddresses : b.value.span.Addresses source := by
    constructor
    · omega
    · omega
    · omega
    · omega
    · rwa [hstart]
    · rwa [hstart, hlength]
  have htext := Syntax.toUTF8_text haddresses
  rw [Span.bytes, hstart, hlength] at htext
  exact String.toByteArray_inj.1 (htext.trans hbytes)

theorem located_unknown (h : source.utf8ByteSize < start ∨ ¬ Boundary source start ∨
    ∀ q, start ≤ q → ¬ Occurs source needle q) : Located source needle start .unknown where
  unknown_iff := ⟨fun _ => h, fun _ => rfl⟩
  found hne := absurd rfl hne
  text hne := absurd rfl hne

theorem located_first (h : source.utf8ByteSize < 2 ^ 31) (hstart : Boundary source start)
    (hp : FirstAt source needle start p) :
    Located source needle start ⟨Int32.ofNat p, Int32.ofNat needle.utf8ByteSize⟩ := by
  have hwithin := hstart.le
  have hle := hp.occurs.1
  have hbegin : (Int32.ofNat p).toInt = p := toInt_offset h (by omega)
  have hknown : (⟨Int32.ofNat p, Int32.ofNat needle.utf8ByteSize⟩ : Span) ≠ .unknown := by
    intro heq
    have hminus : (Int32.ofNat p).toInt = -1 := by
      rw [(Span.mk.inj heq).1]
      rfl
    omega
  refine ⟨⟨fun heq => absurd heq hknown, ?_⟩, fun _ => ?_, fun _ hne b hb => ?_⟩
  · rintro (hlt | hnot | hall)
    · omega
    · exact absurd hstart hnot
    · exact absurd hp.occurs (hall p hp.le)
  · exact ⟨p, hp, hbegin, toInt_offset h (by omega)⟩
  · exact text_of_occurs h hp.occurs hne hb

theorem located_spanOf {b : Builder} (h : b.source.utf8ByteSize < 2 ^ 31) (needle : String)
    (start : Nat) : Located b.source needle start (b.spanOf needle start) := by
  rw [Builder.spanOf]
  by_cases hstart : Boundary b.source start
  · rcases Text.find?_of_boundary needle hstart with ⟨p, hp, hfirst⟩ | ⟨hnone, hall⟩
    · rw [hp]
      exact located_first h hstart hfirst
    · rw [hnone]
      exact located_unknown (.inr (.inr hall))
  · rw [Text.find?_of_not_boundary hstart]
    exact located_unknown (.inr (.inl hstart))

namespace Conversion

/-- A span of six bytes at the first occurrence of the word in the source, or nowhere. -/
structure Marked (source : String) (s : Span) : Prop where
  length : s.length.toInt = 6
  start_iff : ∀ p : Nat, s.start.toInt = p ↔ FirstAt source "static" 0 p
  absent_iff : s.start.toInt = -1 ↔ ∀ q, ¬ Occurs source "static" q

theorem marked_staticSpan (h : source.utf8ByteSize < 2 ^ 31) :
    Marked source (staticSpan source) := by
  have hstart : Boundary source 0 := ⟨"", source, by simp, rfl⟩
  rcases Text.find?_of_boundary staticWord hstart with ⟨p, hp, hfirst⟩ | ⟨hnone, hall⟩
  · have hle := hfirst.occurs.1
    have hbegin : (staticSpan source).start.toInt = p := by
      rw [staticSpan, hp]
      exact toInt_offset h (by omega)
    refine ⟨by rw [staticSpan, hp]; rfl, fun q => ?_, ?_⟩
    · rw [hbegin, Int.natCast_inj]
      constructor
      · rintro rfl
        exact hfirst
      · exact fun hq => hfirst.unique hq
    · rw [hbegin]
      exact ⟨fun hminus => by omega, fun hall => absurd hfirst.occurs (hall p)⟩
  · have hbegin : (staticSpan source).start.toInt = -1 := by
      rw [staticSpan, hnone]
      rfl
    refine ⟨by rw [staticSpan, hnone]; rfl, fun q => ?_, ?_⟩
    · rw [hbegin]
      exact ⟨fun hq => by omega, fun hq => absurd hq.occurs (hall q hq.le)⟩
    · exact ⟨fun _ q => hall q (Nat.zero_le q), fun _ => hbegin⟩

theorem children_image_static {b : Branch} (hk : b.value.kind = .importDeclaration)
    (hs : b.value.attrs.isStatic = true) : (image source b).children =
      .node (.inserted .modifier "static" (staticSpan source)) [] ::
        b.children.map (image source) := by
  cases b with
  | node v cs =>
    have hv : v.kind = .importDeclaration := hk
    have hstatic : v.attrs.isStatic = true := hs
    simp only [image, Rose.children, Part.arrange, hv, hstatic, if_true, parts_eq, map_tree_parts,
      List.singleton_append]
    rfl

/-- What is searched for in a source whose offsets fit 32 bits is located exactly: a word from any
place on, and the word `static` for each import that is marked with it. -/
theorem located_in_source (h : source.utf8ByteSize < 2 ^ 31) :
    (∀ b : Builder, b.source = source → ∀ needle start,
      Located source needle start (b.spanOf needle start)) ∧
    ∀ (t : Syntax.Tree) (c : Canon.Tree) (b : Branch), t.Made → t.source = source →
      convert t = .ok c → Traversed t b → b.value.kind = .importDeclaration →
      b.value.attrs.isStatic = true →
        ∃ i, ∃ hi : i < c.size, Genuine c i ∧ origin t c i = b.value.id ∧
          ∃ s, Marked source s ∧ (below c i hi).children =
            .node (.inserted .modifier "static" s) [] :: b.children.map (image source) := by
  constructor
  · rintro b rfl needle start
    exact located_spanOf h needle start
  · rintro t c b ht rfl hc hb hk hs
    obtain ⟨i, hi, hgenuine, horigin, hbelow⟩ := exists_stand_of_convert ht hc hb
    refine ⟨i, hi, hgenuine, horigin, _, marked_staticSpan h, ?_⟩
    rw [hbelow, children_image_static hk hs]

def importSource : String := "é; import static a.b;"

def markedImport : List Builder.Call := [
  .start { kind := .importDeclaration, span := ⟨4, 18⟩, attrs := { isStatic := true } },
  .leaf { kind := .qualifiedName, role := .name, span := ⟨18, 3⟩ },
  .finish]

theorem located_in_source_markedImport : importSource.utf8ByteSize < 2 ^ 31 ∧
    Located importSource "a.b" 3 ((Builder.ofSource importSource).spanOf "a.b" 3) ∧
    (Builder.ofSource importSource).spanOf "a.b" 3 = ⟨18, 3⟩ ∧
    (Builder.ofSource importSource).spanOf "a.b" 1 = .unknown ∧
    ∃ t c i, ∃ hi : i < c.size,
      ((Builder.ofSource importSource).run markedImport).build = .ok t ∧ convert t = .ok c ∧
        t.trunk.value.kind = .importDeclaration ∧ t.trunk.value.attrs.isStatic = true ∧
          Genuine c i ∧ origin t c i = t.trunk.value.id ∧
            ∃ s, Marked importSource s ∧ s.start.toInt = 11 ∧ (below c i hi).children =
              .node (.inserted .modifier "static" s) [] ::
                t.trunk.children.map (image importSource) := by
  have hsize : importSource.utf8ByteSize < 2 ^ 31 := by decide
  have hbuild : ∃ t, ((Builder.ofSource importSource).run markedImport).build = .ok t ∧
      t.source = importSource ∧ within t.trunk = none ∧
        t.trunk.value.kind = .importDeclaration ∧ t.trunk.value.attrs.isStatic = true := by
    refine ⟨_, rfl, rfl, ?_, ?_, ?_⟩
    · decide +kernel
    · decide +kernel
    · decide +kernel
  obtain ⟨t, ht, hsource, hfault, hkind, hstatic⟩ := hbuild
  obtain ⟨c, hc, -⟩ := convert_of_no_fault hfault
  obtain ⟨hspan, hmark⟩ := located_in_source hsize
  obtain ⟨i, hi, hgenuine, horigin, s, hs, hchildren⟩ :=
    hmark t c t.trunk (.built ht) hsource hc .trunk hkind hstatic
  have hword : Text.find? importSource "static" 0 = some 11 := by decide +kernel
  refine ⟨hsize, hspan _ rfl "a.b" 3, by decide +kernel, by decide +kernel, t, c, i, hi, ht, hc,
    hkind, hstatic, hgenuine, horigin, s, hs,
    (hs.start_iff 11).2 (Text.firstAt_of_find? hword), hchildren⟩

end Conversion
end CanonTree
