import Mathlib.Data.List.Nodup
import CanonTree.Entity.Name

namespace CanonTree

def IsNameChar (c : Char) : Prop := c.isUpper ∨ c = '_'

instance (c : Char) : Decidable (IsNameChar c) := inferInstanceAs (Decidable (_ ∨ _))

namespace Entity

structure IsSegment (cs : List Char) : Prop where
  ne_nil : cs ≠ []
  isUpper : ∀ c ∈ cs, c.isUpper = true

theorem isSegment_iff (cs : List Char) :
    (!cs.isEmpty && cs.all Char.isUpper) = true ↔ IsSegment cs := by
  rw [Bool.and_eq_true, Bool.not_eq_true', List.isEmpty_eq_false_iff, List.all_eq_true]
  exact ⟨fun h => ⟨h.1, h.2⟩, fun h => ⟨h.ne_nil, h.isUpper⟩⟩

instance (cs : List Char) : Decidable (IsSegment cs) := decidable_of_iff _ (isSegment_iff cs)

/-- The name is made of these segments, with an underscore between each and the next. -/
structure Composed (segments : List String) (name : String) : Prop where
  ne_nil : segments ≠ []
  segment : ∀ s ∈ segments, IsSegment s.toList
  name_eq : name = "_".intercalate segments

/-- A name that is more than single letters. -/
def Wordy (name : String) : Prop :=
  ∃ segments, Composed segments name ∧ ∃ s ∈ segments, 2 ≤ s.length

/-- Puts an underscore before each capital letter, except the first one, and makes all letters
capital; `first` tells that there was no capital letter yet. -/
def snakeChars (first : Bool) : List Char → List Char
  | [] => []
  | c :: cs =>
    if c.isUpper then (if first then [] else ['_']) ++ c.toUpper :: snakeChars false cs
    else c.toUpper :: snakeChars first cs

def snake (name : String) : String := String.ofList (snakeChars true name.toList)

def spellings (name : String) : List String := [name, camel name]

def capitalized : List Char → List Char
  | [] => []
  | c :: cs => c :: cs.map Char.toLower

variable {cs s rest : List Char} {ss : List (List Char)} {segments segments' : List String}
  {name other : String}

theorem intercalate_cons_eq {α : Type} (x : α) (xs : List α) (xss : List (List α)) :
    [x].intercalate (xs :: xss) = xs ++ xss.flatMap (x :: ·) := by
  induction xss generalizing xs with
  | nil => rw [List.intercalate_singleton, List.flatMap_nil, List.append_nil]
  | cons ys xss ih => rw [List.intercalate_cons_cons, ih, List.flatMap_cons, List.append_assoc,
      List.singleton_append, List.cons_append]

theorem ne_underscore {c : Char} (h : c.isUpper = true) : c ≠ '_' := by
  rintro rfl
  exact absurd h (by decide)

/-- A capital letter stays what it is, and the small one it has is told from it and leads back. -/
theorem casing_of_isUpper {c : Char} (h : c.isUpper = true) :
    c.toUpper = c ∧ c.toLower.toUpper = c ∧ c.toLower.isUpper = false ∧
      c.toLower.isLower = true := by
  obtain ⟨hfrom, hto⟩ : 65 ≤ c.toNat ∧ c.toNat ≤ 90 := of_decide_eq_true h
  obtain ⟨i, hi, rfl⟩ : ∃ i, i < 26 ∧ c = Char.ofNat (65 + i) :=
    ⟨c.toNat - 65, by omega, by rw [Nat.add_sub_cancel' hfrom, Char.ofNat_toNat]⟩
  clear h hfrom hto
  revert i
  decide

theorem camelChars_continued (h : ∀ c ∈ cs, c.isUpper = true) (rest : List Char) :
    camelChars false (cs ++ rest) = cs.map Char.toLower ++ camelChars false rest := by
  induction cs with
  | nil => rfl
  | cons c cs ih =>
    obtain ⟨hc, hcs⟩ := List.forall_mem_cons.1 h
    rw [List.cons_append, camelChars, if_neg (ne_underscore hc), ih hcs]
    rfl

theorem camelChars_segment (h : IsSegment s) (rest : List Char) :
    camelChars true (s ++ rest) = capitalized s ++ camelChars false rest := by
  cases s with
  | nil => exact absurd rfl h.ne_nil
  | cons c cs =>
    obtain ⟨hc, hcs⟩ := List.forall_mem_cons.1 h.isUpper
    rw [List.cons_append, camelChars, if_neg (ne_underscore hc), camelChars_continued hcs,
      if_pos rfl, (casing_of_isUpper hc).1]
    rfl

theorem camelChars_segments (h : ∀ s ∈ ss, IsSegment s) :
    camelChars false (ss.flatMap ('_' :: ·)) = ss.flatMap capitalized := by
  induction ss with
  | nil => rfl
  | cons s ss ih =>
    obtain ⟨hs, hss⟩ := List.forall_mem_cons.1 h
    rw [List.flatMap_cons, List.cons_append, camelChars, if_pos rfl,
      camelChars_segment hs, ih hss, List.flatMap_cons]

theorem snakeChars_continued (h : ∀ c ∈ cs, c.isUpper = true) (rest : List Char) :
    snakeChars false (cs.map Char.toLower ++ rest) = cs ++ snakeChars false rest := by
  induction cs with
  | nil => rfl
  | cons c cs ih =>
    obtain ⟨hc, hcs⟩ := List.forall_mem_cons.1 h
    obtain ⟨-, hback, hsmall, -⟩ := casing_of_isUpper hc
    rw [List.map_cons, List.cons_append, snakeChars, hsmall, if_neg Bool.false_ne_true, hback,
      ih hcs, List.cons_append]

theorem snakeChars_segment (first : Bool) (h : IsSegment s)
    (rest : List Char) : snakeChars first (capitalized s ++ rest) =
      (if first then [] else ['_']) ++ (s ++ snakeChars false rest) := by
  cases s with
  | nil => exact absurd rfl h.ne_nil
  | cons c cs =>
    obtain ⟨hc, hcs⟩ := List.forall_mem_cons.1 h.isUpper
    rw [capitalized, List.cons_append, snakeChars, if_pos hc, (casing_of_isUpper hc).1,
      snakeChars_continued hcs, List.cons_append]

theorem snakeChars_segments (h : ∀ s ∈ ss, IsSegment s) :
    snakeChars false (ss.flatMap capitalized) = ss.flatMap ('_' :: ·) := by
  induction ss with
  | nil => rfl
  | cons s ss ih =>
    obtain ⟨hs, hss⟩ := List.forall_mem_cons.1 h
    rw [List.flatMap_cons, snakeChars_segment false hs, ih hss]
    rfl

namespace Composed

theorem exists_chars (h : Composed segments name) : ∃ s ss, segments.map String.toList = s :: ss ∧
    name.toList = s ++ ss.flatMap ('_' :: ·) ∧
      ∀ t ∈ s :: ss, IsSegment t := by
  obtain ⟨hne, hsegment, rfl⟩ := h
  cases segments with
  | nil => exact absurd rfl hne
  | cons s segments =>
    refine ⟨s.toList, segments.map String.toList, rfl, ?_, fun t ht => ?_⟩
    · rw [String.toList_intercalate, List.map_cons, show "_".toList = ['_'] from rfl,
        intercalate_cons_eq]
    · rw [← List.map_cons] at ht
      obtain ⟨u, hu, rfl⟩ := List.mem_map.1 ht
      exact hsegment u hu

theorem toList_camel (h : Composed segments name) :
    (camel name).toList = (segments.map String.toList).flatMap capitalized := by
  obtain ⟨s, ss, hsegments, hname, hall⟩ := h.exists_chars
  obtain ⟨hs, hss⟩ := List.forall_mem_cons.1 hall
  rw [camel, String.toList_ofList, hname, camelChars_segment hs, camelChars_segments hss,
    hsegments, List.flatMap_cons]

theorem snake_camel (h : Composed segments name) : snake (camel name) = name := by
  obtain ⟨s, ss, hsegments, hname, hall⟩ := h.exists_chars
  obtain ⟨hs, hss⟩ := List.forall_mem_cons.1 hall
  rw [snake, h.toList_camel, hsegments, List.flatMap_cons, snakeChars_segment true hs,
    snakeChars_segments hss, if_pos rfl, List.nil_append, ← hname, String.ofList_toList]

theorem camel_injective (h : Composed segments name) (h' : Composed segments' other)
    (heq : camel other = camel name) : other = name := by
  rw [← h'.snake_camel, ← h.snake_camel, heq]

theorem isNameChar (h : Composed segments name) : ∀ c ∈ name.toList, IsNameChar c := by
  obtain ⟨s, ss, -, hname, hss⟩ := h.exists_chars
  intro c hc
  rw [hname, List.mem_append, List.mem_flatMap] at hc
  rcases hc with hc | ⟨t, ht, hc⟩
  · exact .inl ((hss s List.mem_cons_self).isUpper c hc)
  · rcases List.mem_cons.1 hc with rfl | hc
    · exact .inr rfl
    · exact .inl ((hss t (List.mem_cons_of_mem s ht)).isUpper c hc)

/-- The second letter of a segment becomes a small one, and no name has such letters. -/
theorem not_composed_camel (h : Composed segments name) (hlong : ∃ s ∈ segments, 2 ≤ s.length) :
    ¬ Composed segments' (camel name) := by
  intro h'
  obtain ⟨s, hs, hlength⟩ := hlong
  rw [← String.length_toList] at hlength
  have hupper := (h.segment s hs).isUpper
  match hchars : s.toList with
  | [] | [_] => simp [hchars] at hlength
  | a :: b :: cs =>
    obtain ⟨-, -, hcapital, hsmall⟩ := casing_of_isUpper (hupper b (by simp [hchars]))
    have hmem : b.toLower ∈ (camel name).toList := by
      rw [h.toList_camel, List.mem_flatMap]
      exact ⟨s.toList, List.mem_map_of_mem hs, by simp [hchars, capitalized]⟩
    rcases h'.isNameChar _ hmem with hupper' | hunderscore
    · exact Bool.false_ne_true (hcapital.symm.trans hupper')
    · rw [hunderscore] at hsmall
      exact absurd hsmall (by decide)

end Composed

theorem Wordy.camel_ne (h : Wordy name) (h' : Wordy other) : camel name ≠ other := by
  rintro rfl
  obtain ⟨segments, hname, hlong⟩ := h
  obtain ⟨segments', hcamel, -⟩ := h'
  exact hname.not_composed_camel hlong hcamel

theorem Wordy.eq_of_mem_spellings {s : String} (h : Wordy name) (h' : Wordy other)
    (hs : s ∈ spellings name) (hs' : s ∈ spellings other) : other = name := by
  simp only [spellings, List.mem_cons, List.not_mem_nil, or_false] at hs hs'
  rcases hs with rfl | rfl <;> rcases hs' with hs' | hs'
  · exact hs'.symm
  · exact absurd hs'.symm (h'.camel_ne h)
  · exact absurd hs' (h.camel_ne h')
  · obtain ⟨_, hname, -⟩ := h
    obtain ⟨_, hother, -⟩ := h'
    exact hname.camel_injective hother hs'.symm

theorem nodup_spellings {names : List String} (hnodup : names.Nodup) (h : ∀ n ∈ names, Wordy n) :
    (names.flatMap spellings).Nodup := by
  rw [List.nodup_flatMap]
  refine ⟨fun n hn => ?_, hnodup.imp_of_mem fun hn hm hne s hs hs' => ?_⟩
  · have hne : n ≠ camel n := fun heq => (h n hn).camel_ne (h n hn) heq.symm
    simp [spellings, hne]
  · exact hne ((h _ hm).eq_of_mem_spellings (h _ hn) hs' hs)

-- names of single letters are joined to other names
example : camel "B_L_O_C_K" = "BLOCK" := by decide +kernel

theorem mem_all (e : Entity) : e ∈ all := by
  cases e <;> decide

theorem nodup_names : (all.map Entity.name).Nodup := by
  decide +kernel

theorem nodup_all : all.Nodup := .of_map Entity.name nodup_names

theorem name_injective {e f : Entity} (h : e.name = f.name) : e = f :=
  List.inj_on_of_nodup_map nodup_names e.mem_all f.mem_all h

def segmentsOf (name : String) : List String := (name.toList.splitOn '_').map String.ofList

theorem composed_segmentsOf (h : ∀ cs ∈ name.toList.splitOn '_', IsSegment cs) :
    Composed (segmentsOf name) name where
  ne_nil := mt List.map_eq_nil_iff.1 (List.splitOn_ne_nil _ _)
  segment s hs := by
    obtain ⟨cs, hcs, rfl⟩ := List.mem_map.1 hs
    rw [String.toList_ofList]
    exact h cs hcs
  name_eq := by
    have hchars : (segmentsOf name).map String.toList = name.toList.splitOn '_' := by
      rw [segmentsOf, List.map_map]
      exact List.map_id'' (fun _ => String.toList_ofList) _
    rw [← String.toList_inj, String.toList_intercalate, hchars]
    exact (List.intercalate_splitOn _).symm

theorem wordy_name (e : Entity) : Wordy e.name := by
  have h : (all.map fun e => e.name.toList.splitOn '_').all (fun segments =>
      segments.all (IsSegment ·) && segments.any (2 ≤ ·.length)) = true := by
    decide +kernel
  have he := List.all_eq_true.1 h _ (List.mem_map_of_mem e.mem_all)
  rw [Bool.and_eq_true, List.all_eq_true, List.any_eq_true] at he
  obtain ⟨hsegments, cs, hcs, hlength⟩ := he
  refine ⟨segmentsOf e.name, composed_segmentsOf fun ds hds => of_decide_eq_true (hsegments ds hds),
    String.ofList cs, List.mem_map_of_mem hcs, ?_⟩
  rw [String.length_ofList]
  exact of_decide_eq_true hlength

theorem name_spelled (e : Entity) : e.name ≠ "" ∧ ∀ c ∈ e.name.toList, IsNameChar c := by
  obtain ⟨segments, h, -⟩ := wordy_name e
  refine ⟨fun hempty => ?_, h.isNameChar⟩
  obtain ⟨s, ss, -, hname, hss⟩ := h.exists_chars
  rw [hempty] at hname
  exact (hss s List.mem_cons_self).ne_nil (List.append_eq_nil_iff.1 hname.symm).1

theorem mem_spellings_iff {e : Entity} {s : String} :
    s ∈ spellings e.name ↔ (e.name == s || e.camelName == s) = true := by
  rw [Bool.or_eq_true, beq_iff_eq, beq_iff_eq, spellings, List.mem_pair, camelName]
  exact or_congr eq_comm eq_comm

theorem mem_spellings_of_ofName? {e : Entity} {s : String} (h : ofName? s = some e) :
    s ∈ spellings e.name := by
  have hmatch := List.find?_some h
  exact mem_spellings_iff.2 hmatch

theorem ofName?_eq_some_iff {e : Entity} {s : String} :
    ofName? s = some e ↔ s ∈ spellings e.name := by
  refine ⟨mem_spellings_of_ofName?, fun h => ?_⟩
  have hfound : (ofName? s).isSome = true := by
    rw [ofName?, List.find?_isSome]
    exact ⟨e, e.mem_all, mem_spellings_iff.1 h⟩
  obtain ⟨f, hf⟩ := Option.isSome_iff_exists.1 hfound
  have heq := (wordy_name e).eq_of_mem_spellings (wordy_name f) h (mem_spellings_of_ofName? hf)
  rw [hf, name_injective heq]

/-- What is known of the joined spelling of a name with these segments. -/
structure Respelled (segments : List String) (name : String) : Prop where
  snake_camel : snake (camel name) = name
  distinct : ∀ segments' other, Composed segments' other → camel other = camel name → other = name
  not_composed : (∃ s ∈ segments, 2 ≤ s.length) → ∀ segments', ¬ Composed segments' (camel name)
  table : (∃ s ∈ segments, 2 ≤ s.length) → ∀ names : List String, (∀ n ∈ names, Wordy n) →
    (name :: names).Nodup → ((name :: names).flatMap spellings).Nodup
  found : (∃ s ∈ segments, 2 ≤ s.length) → ∀ s ∈ spellings name, ∀ e : Entity,
    ofName? s = some e ↔ e.name = name

theorem respelled_of_composed (h : Composed segments name) : Respelled segments name where
  snake_camel := h.snake_camel
  distinct _ _ h' heq := h.camel_injective h' heq
  not_composed hlong _ := h.not_composed_camel hlong
  table hlong _ hnames hnodup :=
    nodup_spellings hnodup (List.forall_mem_cons.2 ⟨⟨segments, h, hlong⟩, hnames⟩)
  found hlong s hs e := by
    rw [ofName?_eq_some_iff]
    constructor
    · exact Wordy.eq_of_mem_spellings ⟨segments, h, hlong⟩ (wordy_name e) hs
    · rintro rfl
      exact hs

theorem respelled_of_composed_singleLetters :
    Composed ["A", "B", "CDE", "F"] "A_B_CDE_F" ∧ camel "A_B_CDE_F" = "ABCdeF" ∧
      Respelled ["A", "B", "CDE", "F"] "A_B_CDE_F" := by
  have hsegments : segmentsOf "A_B_CDE_F" = ["A", "B", "CDE", "F"] := by decide +kernel
  have hall : ("A_B_CDE_F".toList.splitOn '_').all (IsSegment ·) = true := by decide +kernel
  have h : Composed (segmentsOf "A_B_CDE_F") "A_B_CDE_F" :=
    composed_segmentsOf fun cs hcs => of_decide_eq_true (List.all_eq_true.1 hall cs hcs)
  rw [hsegments] at h
  exact ⟨h, by decide +kernel, respelled_of_composed h⟩

end Entity

end CanonTree
