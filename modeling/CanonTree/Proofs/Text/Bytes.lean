import CanonTree.Text.Slice

namespace CanonTree.Text

theorem toList_loop_eq (b : ByteArray) (i : Nat) (r : List UInt8) :
    ByteArray.toList.loop b i r = r.reverse ++ b.data.toList.drop i := by
  fun_induction ByteArray.toList.loop b i r with
  | case1 i r hi ih =>
    have hdrop : b.data.toList.drop i = b.get! i :: b.data.toList.drop (i + 1) := by
      rw [List.drop_eq_getElem_cons (by simpa using hi), Array.getElem_toList]
      congr 1
      exact (getElem!_pos b.data i hi).symm
    rw [ih, hdrop, List.reverse_cons, List.append_assoc, List.singleton_append]
  | case2 i r hi =>
    have hend : b.data.toList.length ≤ i := by simpa using Nat.not_lt.1 hi
    rw [List.drop_eq_nil_of_le hend, List.append_nil]

theorem toList_bytes (b : ByteArray) : b.toList = b.data.toList := by
  rw [ByteArray.toList, toList_loop_eq]
  rfl

@[simp] theorem length_bytes (s : String) : s.toByteArray.toList.length = s.utf8ByteSize := by
  rw [toList_bytes]
  simp

variable {s t : String} {n start stop : Nat}

/-- The text can be parted behind its first `n` bytes. -/
def Boundary (s : String) (n : Nat) : Prop := ∃ u v : String, s = u ++ v ∧ u.utf8ByteSize = n

theorem boundary_iff : Boundary s n ↔ (⟨n⟩ : String.Pos.Raw).IsValid s := by
  rw [String.Pos.Raw.isValid_iff_exists_append, Boundary]
  constructor
  · rintro ⟨u, v, hs, hn⟩
    exact ⟨u, v, hs, String.Pos.Raw.ext hn.symm⟩
  · rintro ⟨u, v, hs, hn⟩
    exact ⟨u, v, hs, congrArg String.Pos.Raw.byteIdx hn.symm⟩

theorem Boundary.le (h : Boundary s n) : n ≤ s.utf8ByteSize := by
  obtain ⟨u, v, rfl, rfl⟩ := h
  simp

theorem pos?_of_boundary (h : Boundary s n) : ∃ p, s.pos? ⟨n⟩ = some p ∧ p.offset.byteIdx = n := by
  have hvalid := String.Pos.Raw.isValidForSlice_toSlice_iff.2 (boundary_iff.1 h)
  rw [← String.Pos.Raw.isValidForSlice_eq_true_iff] at hvalid
  refine ⟨String.Pos.ofToSlice (s.toSlice.pos ⟨n⟩ (by simpa using hvalid)), ?_, rfl⟩
  rw [String.pos?, String.Slice.pos?, dif_pos hvalid]
  rfl

theorem boundary_of_pos? {p : s.Pos} (h : s.pos? ⟨n⟩ = some p) : Boundary s n := by
  rw [String.pos?, String.Slice.pos?] at h
  split at h
  · rename_i hvalid
    rw [String.Pos.Raw.isValidForSlice_eq_true_iff] at hvalid
    exact boundary_iff.2 (String.Pos.Raw.isValidForSlice_toSlice_iff.1 hvalid)
  · cases h

theorem slice?_eq_some_iff : slice? s start stop = some t ↔
    Boundary s start ∧ Boundary s stop ∧ start ≤ stop ∧
      t.toUTF8 = s.toUTF8.extract start stop := by
  constructor
  · intro h
    rw [slice?] at h
    split at h
    · rename_i b e hb he
      have hstart := boundary_of_pos? hb
      have hstop := boundary_of_pos? he
      obtain ⟨b', hb', hbyte⟩ := pos?_of_boundary hstart
      obtain ⟨e', he', hbyte'⟩ := pos?_of_boundary hstop
      cases hb.symm.trans hb'
      cases he.symm.trans he'
      split at h
      · cases h
        refine ⟨hstart, hstop, ‹_›, ?_⟩
        simp only [String.toUTF8_eq_toByteArray, String.toByteArray_extract, hbyte, hbyte']
      · cases h
    · cases h
  · rintro ⟨hstart, hstop, hle, ht⟩
    obtain ⟨b, hb, hbyte⟩ := pos?_of_boundary hstart
    obtain ⟨e, he, hbyte'⟩ := pos?_of_boundary hstop
    simp only [slice?, hb, he, if_pos hle, Option.some.injEq]
    rw [← String.toByteArray_inj, String.toByteArray_extract, hbyte, hbyte']
    exact ht.symm

theorem exists_slice (hstart : Boundary s start) (hstop : Boundary s stop) (h : start ≤ stop) :
    ∃ t, slice? s start stop = some t := by
  obtain ⟨b, hb, -⟩ := pos?_of_boundary hstart
  obtain ⟨e, he, -⟩ := pos?_of_boundary hstop
  exact ⟨String.extract b e, by simp only [slice?, hb, he, if_pos h]⟩

end CanonTree.Text
