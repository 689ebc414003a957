import CanonTree.Proofs.Text.Bytes

namespace CanonTree.Text

variable {s needle : String} {bytes bs : List UInt8} {start i p : Nat}

def Occurs (s needle : String) (p : Nat) : Prop :=
  p + needle.utf8ByteSize ≤ s.utf8ByteSize ∧
    s.toUTF8.extract p (p + needle.utf8ByteSize) = needle.toUTF8

structure FirstAt (s needle : String) (start p : Nat) : Prop where
  le : start ≤ p
  occurs : Occurs s needle p
  least : ∀ q, start ≤ q → Occurs s needle q → p ≤ q

theorem FirstAt.unique {q : Nat} (h : FirstAt s needle start p) (h' : FirstAt s needle start q) :
    p = q :=
  Nat.le_antisymm (h.least q h'.le h'.occurs) (h'.least p h.le h.occurs)

theorem toList_extract (b : ByteArray) (i n : Nat) :
    (b.extract i (i + n)).toList = (b.toList.drop i).take n := by
  rw [toList_bytes, toList_bytes, ByteArray.data_extract, Array.toList_extract,
    List.extract_eq_take_drop, Nat.add_sub_cancel_left]

theorem toList_inj {b c : ByteArray} : b.toList = c.toList ↔ b = c := by
  rw [toList_bytes, toList_bytes, Array.toList_inj, ByteArray.ext_iff]

theorem occurs_iff : Occurs s needle p ↔
    p ≤ s.utf8ByteSize ∧ needle.toUTF8.toList <+: s.toUTF8.toList.drop p := by
  have hneedle := length_bytes needle
  have hs := length_bytes s
  rw [Occurs, ← toList_inj, toList_extract, List.prefix_iff_eq_take, String.toUTF8_eq_toByteArray,
    String.toUTF8_eq_toByteArray, hneedle]
  constructor
  · rintro ⟨hle, heq⟩
    exact ⟨by omega, heq.symm⟩
  · rintro ⟨hle, heq⟩
    have hlen := congrArg List.length heq
    rw [List.length_take, List.length_drop, hneedle, hs] at hlen
    exact ⟨by omega, heq.symm⟩

/-- The search goes through all places, the end included, and stops at the first that will do. -/
theorem indexOf?_spec (bytes bs : List UInt8) (i : Nat) :
    (∃ k, indexOf? bytes bs i = some (i + k) ∧ k ≤ bs.length ∧ bytes <+: bs.drop k ∧
      ∀ m, m < k → ¬ bytes <+: bs.drop m) ∨
    (indexOf? bytes bs i = none ∧ ∀ k, k ≤ bs.length → ¬ bytes <+: bs.drop k) := by
  induction bs generalizing i with
  | nil =>
    rw [indexOf?]
    split
    · rename_i hhere
      exact .inl ⟨0, rfl, Nat.le_refl 0, List.isPrefixOf_iff_prefix.1 hhere, by simp⟩
    · rename_i hhere
      refine .inr ⟨rfl, fun k _ hk => hhere ?_⟩
      rwa [List.drop_nil, ← List.isPrefixOf_iff_prefix] at hk
  | cons b bs ih =>
    rw [indexOf?]
    split
    · rename_i hhere
      exact .inl ⟨0, rfl, Nat.zero_le _, List.isPrefixOf_iff_prefix.1 hhere, by simp⟩
    · rename_i hhere
      rw [List.isPrefixOf_iff_prefix] at hhere
      rcases ih (i + 1) with ⟨k, hk, hle, hpre, hleast⟩ | ⟨hnone, hall⟩
      · refine .inl ⟨k + 1, by rw [hk, Nat.add_right_comm, Nat.add_assoc], Nat.succ_le_succ hle,
          hpre, fun m hm => ?_⟩
        cases m with
        | zero => exact hhere
        | succ m => exact hleast m (Nat.lt_of_succ_lt_succ hm)
      · refine .inr ⟨hnone, fun k hk => ?_⟩
        cases k with
        | zero => exact hhere
        | succ k => exact hall k (Nat.le_of_succ_le_succ hk)

theorem find?_of_not_boundary (h : ¬ Boundary s start) : find? s needle start = none := by
  rw [find?]
  split
  · rename_i hp
    exact absurd (boundary_of_pos? hp) h
  · rfl

theorem find?_of_boundary (needle : String) (h : Boundary s start) :
    (∃ p, find? s needle start = some p ∧ FirstAt s needle start p) ∨
      (find? s needle start = none ∧ ∀ q, start ≤ q → ¬ Occurs s needle q) := by
  have hlen : (s.toUTF8.toList.drop start).length = s.utf8ByteSize - start := by
    rw [List.length_drop, String.toUTF8_eq_toByteArray, length_bytes]
  have hdrop : ∀ k, Occurs s needle (start + k) ↔ k ≤ s.utf8ByteSize - start ∧
      needle.toUTF8.toList <+: (s.toUTF8.toList.drop start).drop k := by
    intro k
    have := h.le
    rw [occurs_iff, List.drop_drop]
    exact and_congr_left fun _ => by omega
  obtain ⟨pos, hpos, -⟩ := pos?_of_boundary h
  have hfind : find? s needle start =
      indexOf? needle.toUTF8.toList (s.toUTF8.toList.drop start) start := by
    rw [find?, hpos]
  rcases indexOf?_spec needle.toUTF8.toList (s.toUTF8.toList.drop start) start with
    ⟨k, hk, hle, hpre, hleast⟩ | ⟨hnone, hall⟩
  · rw [hlen] at hle
    refine .inl ⟨start + k, hfind.trans hk, Nat.le_add_right _ _, (hdrop k).2 ⟨hle, hpre⟩, ?_⟩
    intro q hq hoccurs
    obtain ⟨m, rfl⟩ := Nat.exists_eq_add_of_le hq
    have := mt (hleast m) (not_not_intro ((hdrop m).1 hoccurs).2)
    omega
  · refine .inr ⟨hfind.trans hnone, fun q hq hoccurs => ?_⟩
    obtain ⟨m, rfl⟩ := Nat.exists_eq_add_of_le hq
    obtain ⟨hle, hpre⟩ := (hdrop m).1 hoccurs
    exact hall m (by rwa [hlen]) hpre

theorem firstAt_of_find? (h : find? s needle start = some p) : FirstAt s needle start p := by
  by_cases hstart : Boundary s start
  · rcases find?_of_boundary needle hstart with ⟨q, hq, hfirst⟩ | ⟨hnone, -⟩
    · cases hq.symm.trans h
      exact hfirst
    · cases hnone.symm.trans h
  · cases (find?_of_not_boundary hstart).symm.trans h

theorem Occurs.boundary (h : Occurs s needle p) (hne : needle ≠ "") :
    Boundary s p ∧ Boundary s (p + needle.utf8ByteSize) := by
  obtain ⟨hle, heq⟩ := h
  have hpos : needle.utf8ByteSize ≠ 0 := mt String.utf8ByteSize_eq_zero_iff.1 hne
  have hvalid : (s.toByteArray.extract p (p + needle.utf8ByteSize)).IsValidUTF8 :=
    heq ▸ needle.isValidUTF8
  rw [boundary_iff, boundary_iff]
  rcases (String.Pos.Raw.isValidUTF8_extract_iff ⟨p⟩ ⟨p + needle.utf8ByteSize⟩
    (Nat.le_add_right _ _) hle).1 hvalid with hsame | hvalid
  · have hbytes := congrArg String.Pos.Raw.byteIdx hsame
    dsimp only at hbytes
    omega
  · exact hvalid

end CanonTree.Text
