import CanonTree.Files.Path

namespace CanonTree.Path

open Component (normal)

variable {dir name path : String}

/-- A name that can stand between slashes and leads to an entry of that name. -/
structure Plain (name : String) : Prop where
  no_slash : '/' ∉ name.toList
  not_empty : name ≠ ""
  not_current : name ≠ "."
  not_parent : name ≠ ".."

theorem toList_slash : "/".toList = ['/'] := by decide

theorem pieces_append_slash (a b : String) : pieces (a ++ "/" ++ b) = pieces a ++ pieces b := by
  have hl : (a ++ "/" ++ b).toList = a.toList ++ '/' :: b.toList := by
    rw [String.toList_append, String.toList_append, toList_slash, List.append_assoc]
    rfl
  rw [pieces, hl, List.splitOn_append_cons_self, List.map_append]
  rfl

theorem pieces_of_no_slash (h : '/' ∉ name.toList) : pieces name = [name] := by
  rw [pieces, List.splitOn_eq_singleton h, List.map_singleton, String.ofList_toList]

theorem pieces_ne_nil (path : String) : pieces path ≠ [] := by
  simp [pieces]

/-- The components of a path with these pieces, unless the path is empty. -/
def leading : List String → List Component
  | [] => []
  | s :: ss => if s = "" then .root :: ofPieces ss
    else if s = "." then .current :: ofPieces ss else ofPieces (s :: ss)

theorem components_eq_leading (h : path ≠ "") : components path = leading (pieces path) := by
  have hempty : path.isEmpty = false := by simpa using h
  rw [components]
  split
  · rename_i hp
    simp [hp, hempty, leading]
  · rename_i hp
    simp [hp, leading]
  · rename_i hroot hcurrent
    cases hp : pieces path with
    | nil => exact absurd hp (pieces_ne_nil path)
    | cons s ss =>
      have hs : s ≠ "" := by
        rintro rfl
        exact hroot ss hp
      have hs' : s ≠ "." := by
        rintro rfl
        exact hcurrent ss hp
      rw [leading, if_neg hs, if_neg hs']

theorem ofPieces_append (ss ts : List String) :
    ofPieces (ss ++ ts) = ofPieces ss ++ ofPieces ts := by
  induction ss with
  | nil => rfl
  | cons s ss ih =>
    rw [List.cons_append, ofPieces, ofPieces, ih]
    split <;> rfl

theorem leading_append {ss : List String} (h : ss ≠ []) (ts : List String) :
    leading (ss ++ ts) = leading ss ++ ofPieces ts := by
  cases ss with
  | nil => exact absurd rfl h
  | cons s ss =>
    rw [List.cons_append, leading, leading, ← List.cons_append, ofPieces_append, ofPieces_append]
    split
    · rfl
    · split <;> rfl

theorem ofPieces_plain (h : Plain name) : ofPieces [name] = [normal name] := by
  simp [ofPieces, h.not_empty, h.not_current, h.not_parent]

theorem endsWith_iff (s t : String) : s.endsWith t = true ↔ t.toList <:+ s.toList := by
  rw [← String.endsWith_toSlice, String.Slice.endsWith_string_iff, String.copy_toSlice]

theorem exists_join (name : String) (hdir : dir ≠ "") :
    ∃ before, join dir name = before ++ "/" ++ name ∧
      ∃ rest, pieces dir = pieces before ++ rest ∧ ofPieces rest = [] := by
  have hempty : dir.isEmpty = false := by simpa using hdir
  by_cases hs : dir.endsWith "/" = true
  · obtain ⟨cs, hcs⟩ := (endsWith_iff dir "/").1 hs
    have hbefore : dir = String.ofList cs ++ "/" := by
      apply String.toList_injective
      rw [String.toList_append, String.toList_ofList, hcs]
    refine ⟨String.ofList cs, ?_, [""], ?_, rfl⟩
    · rw [join, hempty, hs, ← hbefore]
      rfl
    · have hp := pieces_append_slash (String.ofList cs) ""
      rw [← hbefore] at hp
      simpa [pieces_of_no_slash] using hp
  · refine ⟨dir, ?_, [], by simp, rfl⟩
    rw [join, hempty, if_neg (by simp), if_neg hs]

theorem components_join (hdir : dir ≠ "") (h : Plain name) :
    components (join dir name) = components dir ++ [normal name] := by
  obtain ⟨before, hjoin, rest, hrest, hnone⟩ := exists_join name hdir
  have hne : before ++ "/" ++ name ≠ "" := by
    intro he
    have := congrArg String.toList he
    simp [toList_slash] at this
  rw [hjoin, components_eq_leading hne, pieces_append_slash, components_eq_leading hdir, hrest,
    leading_append (pieces_ne_nil before), leading_append (pieces_ne_nil before), hnone,
    pieces_of_no_slash h.no_slash, ofPieces_plain h, List.append_nil]

theorem eq_of_append_slash_eq {cs ds as bs : List Char} (ha : '/' ∉ as) (hb : '/' ∉ bs)
    (h : cs ++ '/' :: as = ds ++ '/' :: bs) : as = bs := by
  have hs := congrArg (List.splitOn '/') h
  rw [List.splitOn_append_cons_self, List.splitOn_append_cons_self, List.splitOn_eq_singleton ha,
    List.splitOn_eq_singleton hb] at hs
  have hlast := congrArg List.getLast? hs
  simpa using hlast

theorem not_endsWith_join (hdir : dir ≠ "") (h : Plain name) {w : String} (hw : '/' ∉ w.toList)
    (hne : name ≠ w) : (join dir name).endsWith ("/" ++ w) = false := by
  rw [Bool.eq_false_iff]
  intro he
  obtain ⟨cs, hcs⟩ := (endsWith_iff _ _).1 he
  obtain ⟨before, hjoin, -⟩ := exists_join name hdir
  rw [hjoin, String.toList_append, String.toList_append, String.toList_append, toList_slash,
    List.append_assoc] at hcs
  exact hne (String.toList_injective (eq_of_append_slash_eq hw h.no_slash hcs).symm)

theorem utf8ByteSize_join (dir name : String) :
    (join dir name).utf8ByteSize = (join dir "").utf8ByteSize + name.utf8ByteSize := by
  rw [join, join]
  split
  · simp
  · split <;> simp [Nat.add_assoc]

theorem utf8ByteSize_join_bounds (dir name : String) :
    dir.utf8ByteSize + name.utf8ByteSize ≤ (join dir name).utf8ByteSize ∧
      (join dir name).utf8ByteSize ≤ dir.utf8ByteSize + 1 + name.utf8ByteSize := by
  have hslash : "/".utf8ByteSize = 1 := by decide
  rw [join]
  split
  · rename_i hempty
    rw [String.isEmpty_iff] at hempty
    subst hempty
    simp
  · split
    · simp
    · simp only [String.utf8ByteSize_append, hslash]
      omega

theorem utf8ByteSize_intercalate_le {ps qs : List String} (h : ps <+: qs) :
    ("/".intercalate ps).utf8ByteSize ≤ ("/".intercalate qs).utf8ByteSize := by
  obtain ⟨rest, rfl⟩ := h
  by_cases hps : ps = []
  · subst hps
    simp
  · by_cases hrest : rest = []
    · subst hrest
      simp
    · rw [String.intercalate_append_of_ne_nil hps hrest]
      simp only [String.utf8ByteSize_append]
      omega

end CanonTree.Path
