import CanonTree.Proofs.Rose
import CanonTree.Proofs.Text.Lines
import CanonTree.Syntax.Label

namespace CanonTree

open Text (Plain plain_append plain_join)

theorem Text.exists_append_extract {s : String} (b e : s.Pos) :
    ∃ u v, s = u ++ String.extract b e ++ v := by
  by_cases h : b.offset.byteIdx ≤ e.offset.byteIdx
  · refine ⟨String.extract s.startPos b, String.extract e s.endPos, ?_⟩
    rw [← String.toByteArray_inj]
    simp only [String.toByteArray_append, String.toByteArray_extract,
      ByteArray.extract_append_extract]
    have hwhole : s.toByteArray.extract 0 s.utf8ByteSize = s.toByteArray :=
      ByteArray.extract_zero_size
    simp [h, hwhole]
  · have hempty : String.extract b e = "" := by
      rw [← String.toByteArray_inj, String.toByteArray_extract]
      simp
      omega
    exact ⟨s, "", by simp [hempty]⟩

theorem Text.exists_append_slice {s t : String} {start stop : Nat}
    (h : Text.slice? s start stop = some t) : ∃ u v, s = u ++ t ++ v := by
  rw [Text.slice?] at h
  split at h
  · split at h
    · cases h
      apply Text.exists_append_extract
    · cases h
  · cases h

theorem Span.plain_slice {s : Span} {source t : String} (hs : Plain source)
    (h : s.slice? source = some t) : Plain t := by
  rw [Span.slice?, Option.bind_eq_bind, Option.bind_eq_some_iff] at h
  obtain ⟨⟨start, stop⟩, -, h⟩ := h
  rw [Option.bind_eq_bind, Option.bind_eq_some_iff] at h
  obtain ⟨u, hu, h⟩ := h
  split at h
  · cases h
  · cases h
    obtain ⟨v, w, hvw⟩ := Text.exists_append_slice hu
    rw [hvw, plain_append, plain_append] at hs
    exact hs.1.2

namespace Syntax

namespace Fragment

variable {fs : List Fragment} {f : Fragment} {mark token : String} {kind : Kind} {r : Role}

def AllPlain (fs : List Fragment) : Prop := ∀ f ∈ fs, Plain f.text

theorem allPlain_cons : AllPlain (f :: fs) ↔ Plain f.text ∧ AllPlain fs := by
  simp [AllPlain]

theorem plain_joined (hm : Plain mark) (h : AllPlain fs) : Plain (joined mark fs) := by
  rw [joined]
  induction fs with
  | nil => exact List.not_mem_nil
  | cons f fs ih =>
    obtain ⟨hf, hfs⟩ := allPlain_cons.1 h
    cases fs with
    | nil => simpa using hf
    | cons g gs =>
      rw [List.map_cons, List.map_cons, String.intercalate_cons_cons, plain_append, plain_append]
      exact ⟨⟨hf, hm⟩, ih hfs⟩

theorem AllPlain.filter (h : AllPlain fs) (p : Fragment → Bool) : AllPlain (fs.filter p) :=
  fun f hf => h f (List.mem_of_mem_filter hf)

theorem AllPlain.elim (h : AllPlain fs) {o : Option Fragment} (ho : ∀ f ∈ o, f ∈ fs)
    {g : Fragment → String} (hg : ∀ f, Plain f.text → Plain (g f)) : Plain (o.elim "" g) := by
  cases o with
  | none => exact List.not_mem_nil
  | some f => exact hg f (h f (ho f rfl))

theorem plain_leafText (h : Plain token) : Plain (leafText kind token) := by
  rw [leafText.eq_def]
  split
  · decide
  all_goals first | exact h | (split <;> first | exact h | decide)

theorem plain_typeArguments (h : AllPlain fs) : Plain (typeArguments fs) := by
  rw [typeArguments]
  split
  · decide
  · rw [plain_append, plain_append]
    exact ⟨⟨by decide, plain_joined (by decide) (h.filter _)⟩, by decide⟩

theorem plain_arguments (h : AllPlain fs) : Plain (arguments fs) := by
  rw [arguments, plain_append, plain_append]
  exact ⟨⟨by decide, plain_joined (by decide) (h.filter _)⟩, by decide⟩

theorem plain_receiver (h : AllPlain fs) : Plain (receiver fs) := by
  rw [receiver]
  split
  · decide
  · rename_i r rs hr
    have hplain := h.filter (·.role = .expression) r (by
      have : r ∈ inRole .expression fs := by
        rw [hr]
        exact List.mem_cons_self
      exact this)
    exact plain_append.2 ⟨hplain, by decide⟩

theorem plain_call (h : AllPlain fs) : Plain (call fs) := by
  rw [call, plain_append, plain_append]
  refine ⟨⟨plain_typeArguments h, ?_⟩, plain_arguments h⟩
  exact h.elim (fun f hf => List.mem_of_mem_filter (List.mem_of_mem_head? hf)) fun _ hf => hf

theorem plain_instanceCreation (h : AllPlain fs) : Plain (instanceCreation fs) := by
  simp only [instanceCreation, plain_append]
  refine ⟨⟨⟨⟨⟨plain_receiver h, by decide⟩, plain_typeArguments h⟩, ?_⟩, plain_arguments h⟩, ?_⟩
  · exact h.elim (fun f hf => List.mem_of_find?_eq_some hf) fun _ hf => hf
  · exact h.elim (fun f hf => List.mem_of_find?_eq_some hf) fun _ hf =>
      plain_append.2 ⟨by decide, hf⟩

theorem mem_stripBrackets : ∀ {cs : List Char} {c : Char}, c ∈ (stripBrackets cs).1 → c ∈ cs := by
  intro cs c
  fun_induction stripBrackets cs with
  | case1 cs ih => exact fun h => List.mem_cons_of_mem _ (List.mem_cons_of_mem _ (ih h))
  | case2 cs => exact id

theorem plain_arrayCreation (hf : Plain f.text) (h : AllPlain fs) :
    Plain (arrayCreation f fs) := by
  simp only [arrayCreation, plain_append, plain_join]
  refine ⟨⟨⟨⟨by decide, ?_⟩, ?_⟩, ?_⟩, ?_⟩
  · intro hmem
    apply hf
    have hin : '\n' ∈ (stripBrackets f.text.toList.reverse).1 := by simpa using hmem
    exact List.mem_reverse.1 (mem_stripBrackets hin)
  · intro s hs
    obtain ⟨g, hg, rfl⟩ := List.mem_map.1 hs
    simp only [plain_append]
    exact ⟨⟨by decide, h.filter _ g hg⟩, by decide⟩
  · rw [brackets, plain_join]
    intro s hs
    rw [List.eq_of_mem_replicate hs]
    decide
  · exact h.elim (fun g hg => List.mem_of_mem_filter (List.mem_of_getLast? hg)) fun _ hg =>
      plain_append.2 ⟨by decide, hg⟩

theorem plain_declarator (h : AllPlain fs) {d : String} {i : Option String} (hd : Plain d)
    (hi : ∀ s ∈ i, Plain s) :
    Plain (declarator fs d i).1 ∧ ∀ s ∈ (declarator fs d i).2, Plain s := by
  fun_induction declarator fs d i with
  | case1 d i => exact ⟨hd, hi⟩
  | case2 d i f fs hdim ih =>
    obtain ⟨hf, hfs⟩ := allPlain_cons.1 h
    exact ih hfs (plain_append.2 ⟨hd, hf⟩) hi
  | case3 d i f fs hdim ih =>
    obtain ⟨hf, hfs⟩ := allPlain_cons.1 h
    exact ih hfs hd fun s hs => by
      cases hs
      exact hf

theorem plain_declaration (h : AllPlain fs) : Plain (declaration fs) := by
  obtain ⟨hd, hi⟩ := plain_declarator h (d := "") (i := none) (by decide) nofun
  rw [declaration]
  split
  · rename_i d i heq
    rw [heq] at hd hi
    rw [plain_append, plain_append]
    exact ⟨⟨hd, by decide⟩, hi i rfl⟩
  · rename_i d heq
    rw [heq] at hd
    exact hd

theorem plain_superField (h : AllPlain fs) : Plain (superField fs) := by
  have hlast : ∀ f ∈ fs.getLast?, Plain f.text := fun f hf => h f (List.mem_of_getLast? hf)
  have hinit : AllPlain fs.dropLast := fun f hf => h f (List.dropLast_subset fs hf)
  rw [superField]
  split
  · rename_i name _ hname
    exact plain_append.2 ⟨by decide, hlast name hname⟩
  · rename_i name hname _
    rw [plain_append, plain_append]
    exact ⟨⟨plain_joined (by decide) hinit, by decide⟩, hlast name hname⟩
  · decide

theorem plain_compound (ht : Plain token) (hf : Plain f.text) (h : AllPlain fs) :
    Plain (compound kind token f fs) := by
  have hall : AllPlain (f :: fs) := allPlain_cons.2 ⟨hf, h⟩
  have hbound : Plain (if token = "super" then "super" else "extends") := by
    split <;> decide
  have harray : Plain (if fs.isEmpty then f.text ++ "[]" else joined "" (f :: fs)) := by
    split
    · exact plain_append.2 ⟨hf, by decide⟩
    · exact plain_joined (by decide) hall
  have hinfix : Plain (joined (" " ++ token ++ " ") (f :: fs)) :=
    plain_joined (by simp only [plain_append, ht]; decide) hall
  cases kind <;> simp only [compound, plain_append] <;> and_intros
  case conditionalExpression =>
    split
    · rename_i yes no
      obtain ⟨hyes, hfs⟩ := allPlain_cons.1 h
      simp only [plain_append]
      exact ⟨⟨⟨⟨hf, by decide⟩, hyes⟩, by decide⟩, (allPlain_cons.1 hfs).1⟩
    · exact plain_joined (by decide) hall
  all_goals
    first
    | decide
    | with_reducible assumption
    | with_reducible exact plain_joined (by decide) hall
    | with_reducible exact plain_joined (by decide) h
    | with_reducible exact plain_receiver hall
    | with_reducible exact plain_call hall
    | with_reducible exact plain_instanceCreation hall
    | with_reducible exact plain_arrayCreation hf h
    | with_reducible exact plain_superField hall
    | with_reducible exact plain_declaration hall

theorem plain_getD {word : Option String} (hw : ∀ w ∈ word, Plain w) {s : String}
    (hs : Plain s) : Plain (word.getD s) := by
  cases word with
  | none => exact hs
  | some w => exact hw w rfl

theorem plain_render {word : Option String} (hw : ∀ w ∈ word, Plain w) (h : AllPlain fs) :
    Plain (render kind word fs) := by
  have ht := plain_getD hw (s := "") (by decide)
  cases fs with
  | nil => exact plain_leafText ht
  | cons f fs =>
    obtain ⟨hf, hfs⟩ := allPlain_cons.1 h
    exact plain_compound ht hf hfs

end Fragment

def PlainWords (b : Branch) : Prop := ∀ v ∈ b.preorder, ∀ w ∈ v.attrs.token, Plain w

variable {source : String}

theorem PlainWords.child {b c : Branch} (h : PlainWords b) (hc : c ∈ b.children) :
    PlainWords c := by
  cases b with
  | node v cs =>
    intro u hu
    apply h
    rw [Rose.preorder, Rose.preorders_eq]
    exact List.mem_cons_of_mem v (List.mem_flatMap.2 ⟨c, hc, hu⟩)

theorem PlainWords.word {b : Branch} (h : PlainWords b) : ∀ w ∈ b.value.attrs.token, Plain w := by
  cases b with
  | node v cs => exact h v List.mem_cons_self

mutual
theorem plain_text (hs : Plain source) : ∀ {b : Branch}, PlainWords b → Plain (text source b)
  | .node v cs, h => by
    rw [text]
    split
    · rename_i s hslice
      exact Span.plain_slice hs hslice
    · exact Fragment.plain_render h.word (plain_fragments hs fun c hc => h.child hc)

theorem plain_fragments (hs : Plain source) : ∀ {cs : List Branch},
    (∀ c ∈ cs, PlainWords c) → Fragment.AllPlain (fragments source cs)
  | [], _ => fun _ hf => absurd hf List.not_mem_nil
  | c :: cs, h => by
    rw [fragments, Fragment.allPlain_cons]
    exact ⟨plain_text hs (h c List.mem_cons_self),
      plain_fragments hs fun d hd => h d (List.mem_cons_of_mem c hd)⟩
end

theorem plain_label (hs : Plain source) {b : Branch} (h : PlainWords b) :
    Plain (label source b) := by
  have htext := plain_text hs h
  have hblanks : Plain (Text.removeBlanks (text source b)) := by
    intro hmem
    rw [Text.removeBlanks, String.toList_ofList] at hmem
    exact htext (List.mem_of_mem_filter hmem)
  have hword : Plain (b.value.attrs.token.getD "") := Fragment.plain_getD h.word (by decide)
  have hname : Plain (b.value.attrs.token.getD (text source b)) := Fragment.plain_getD h.word htext
  have hjoined : Plain (b.value.attrs.token.getD (Text.removeBlanks (text source b))) :=
    Fragment.plain_getD h.word hblanks
  rw [label.eq_def]
  split
  all_goals first | with_reducible assumption | decide | (split <;> decide)

end Syntax
end CanonTree
