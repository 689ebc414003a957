import CanonTree.Proofs.Text.Bytes
import CanonTree.Source.Lines

namespace CanonTree

def LineColumn.Before (p q : LineColumn) : Prop :=
  p.line < q.line ∨ p.line = q.line ∧ p.column < q.column

namespace LineTable

variable {bs : List UInt8} {i j n : Nat} {w : UInt32}

def feedsBefore (bs : List UInt8) (n : Nat) : Nat := (bs.take n).count 10

/-- The offset at which the line of offset `n` begins: behind the last line feed before `n`, or with
the text if there is none. -/
inductive LineStart (bs : List UInt8) (n : Nat) : Nat → Prop
  | first : (∀ p, p < n → bs[p]? ≠ some 10) → LineStart bs n 0
  | behind {p : Nat} : p < n → bs[p]? = some 10 →
      (∀ q, p < q → q < n → bs[q]? ≠ some 10) → LineStart bs n (p + 1)

/-- The table answers for every offset what counting the line feeds of the text gives. -/
structure Exact (bs : List UInt8) (x : LineTable) : Prop where
  lineCount : x.lineCount = bs.count 10 + 1
  locate_eq_none_iff : ∀ o, x.locate o = none ↔ o < 0
  line : ∀ {o p}, x.locate o = some p → p.line = feedsBefore bs o.toNatClampNeg
  column : ∀ {o p}, x.locate o = some p → ∃ s, LineStart bs o.toNatClampNeg s ∧
    s ≤ o.toNatClampNeg ∧ p.column = o.toNatClampNeg - s
  start : ∀ {o p}, x.locate o = some p →
    ∃ w, x.starts[p.line]? = some w ∧ w.toNat + p.column = o.toNatClampNeg
  before : ∀ {o o' p p'}, o < o' → x.locate o = some p → x.locate o' = some p' → p.Before p'

theorem mem_breaks : w ∈ breaks bs i ↔ ∃ p, bs[p]? = some 10 ∧ w = UInt32.ofNat (i + p + 1) := by
  induction bs generalizing i with
  | nil => simp [breaks]
  | cons b bs ih =>
    have hsplit : (∃ p, (b :: bs)[p]? = some 10 ∧ w = UInt32.ofNat (i + p + 1)) ↔
        (b = 10 ∧ w = UInt32.ofNat (i + 1)) ∨ w ∈ breaks bs (i + 1) := by
      rw [ih]
      constructor
      · rintro ⟨_ | p, hp, hw⟩
        · exact .inl ⟨by simpa using hp, hw⟩
        · exact .inr ⟨p, by simpa using hp, by rw [hw, show i + 1 + p = i + (p + 1) by omega]⟩
      · rintro (⟨rfl, hw⟩ | ⟨p, hp, hw⟩)
        · exact ⟨0, rfl, hw⟩
        · exact ⟨p + 1, by simpa using hp, by rw [hw, show i + 1 + p = i + (p + 1) by omega]⟩
    rw [hsplit, breaks]
    split
    · simp [*]
    · simp [*]

theorem length_breaks (bs : List UInt8) (i : Nat) : (breaks bs i).length = bs.count 10 := by
  induction bs generalizing i with
  | nil => rfl
  | cons b bs ih =>
    rw [breaks, List.count_cons]
    split <;> simp_all

theorem toNat_of_mem_breaks (h : i + bs.length < UInt32.size) (hw : w ∈ breaks bs i) :
    ∃ p, bs[p]? = some 10 ∧ w.toNat = i + p + 1 := by
  obtain ⟨p, hp, rfl⟩ := mem_breaks.1 hw
  have hlt := (List.getElem?_eq_some_iff.1 hp).1
  exact ⟨p, hp, UInt32.toNat_ofNat_of_lt' (by omega)⟩

theorem ascending_breaks (h : i + bs.length < UInt32.size) :
    (breaks bs i).Pairwise (· < ·) := by
  induction bs generalizing i with
  | nil => exact .nil
  | cons b bs ih =>
    rw [List.length_cons] at h
    have hbs := ih (i := i + 1) (by omega)
    rw [breaks]
    split
    · refine List.pairwise_cons.2 ⟨fun w hw => ?_, hbs⟩
      obtain ⟨p, -, hp⟩ := toNat_of_mem_breaks (by omega) hw
      rw [UInt32.lt_iff_toNat_lt, UInt32.toNat_ofNat_of_lt' (by omega), hp]
      omega
    · exact hbs

/-- The lines that begin at or before an offset, the first one apart, are those ended before it. -/
theorem countP_breaks (h : i + bs.length < UInt32.size) (w : UInt32) :
    (breaks bs i).countP (· ≤ w) = feedsBefore bs (w.toNat - i) := by
  rw [feedsBefore]
  induction bs generalizing i with
  | nil => simp [breaks]
  | cons b bs ih =>
    rw [List.length_cons] at h
    have hbs := ih (i := i + 1) (by omega)
    have hhead : UInt32.ofNat (i + 1) ≤ w ↔ i < w.toNat := by
      rw [UInt32.le_iff_toNat_le, UInt32.toNat_ofNat_of_lt' (by omega), Nat.succ_le_iff]
    by_cases hi : i < w.toNat
    · have hsub : w.toNat - i = w.toNat - (i + 1) + 1 := by omega
      rw [breaks, hsub, List.take_succ_cons, List.count_cons]
      split <;> simp_all
    · have hnone : w.toNat - i = 0 := by omega
      have hnone' : w.toNat - (i + 1) = 0 := by omega
      rw [hnone'] at hbs
      rw [breaks, hnone]
      split <;> simp_all

section

variable {ws : List UInt32}

/-- In an ascending list the entries up to a bound come first. -/
theorem getElem_le_iff_lt_countP (h : ws.Pairwise (· < ·)) (hj : j < ws.length) :
    ws[j] ≤ w ↔ j < ws.countP (· ≤ w) := by
  induction ws generalizing j with
  | nil => simp at hj
  | cons v ws ih =>
    obtain ⟨hv, hws⟩ := List.pairwise_cons.1 h
    by_cases hvw : v ≤ w
    · rw [List.countP_cons_of_pos (by simpa using hvw)]
      cases j with
      | zero => simpa using hvw
      | succ j => simpa using ih hws (Nat.lt_of_succ_lt_succ hj)
    · have habove : ∀ u ∈ v :: ws, ¬ u ≤ w := by
        intro u hu huw
        obtain rfl | hu := List.mem_cons.1 hu
        · exact hvw huw
        · exact hvw (UInt32.le_trans (UInt32.le_of_lt (hv u hu)) huw)
      have hnone : (v :: ws).countP (· ≤ w) = 0 :=
        List.countP_eq_zero.2 fun u hu => by simpa using habove u hu
      simpa [hnone] using habove _ (List.getElem_mem hj)

theorem countUpTo_eq {starts : Array UInt32} {lo hi : Nat}
    (h : starts.toList.Pairwise (· < ·)) (hlo : lo ≤ starts.toList.countP (· ≤ w))
    (hhi : starts.toList.countP (· ≤ w) ≤ hi) (hsize : hi ≤ starts.size) :
    countUpTo starts w lo hi = starts.toList.countP (· ≤ w) := by
  fun_induction countUpTo starts w lo hi with
  | case1 lo hi hlt mid hmid ih =>
    have hm : mid < starts.size := by omega
    have := (getElem_le_iff_lt_countP (w := w) h (j := mid) (by simpa using hm)).1
      (by simpa [Array.getD, hm] using hmid)
    exact ih (by omega) hhi hsize
  | case2 lo hi hlt mid hmid ih =>
    have hm : mid < starts.size := by omega
    have := mt (getElem_le_iff_lt_countP (w := w) h (j := mid) (by simpa using hm)).2
      (by simpa [Array.getD, hm] using hmid)
    exact ih hlo (by omega) (by omega)
  | case3 lo hi hlt => omega

end

section

variable {text : String}

theorem length_lt (h : text.utf8ByteSize < UInt32.size) :
    0 + text.toUTF8.toList.length < UInt32.size := by
  simpa using h

theorem starts_ofText (text : String) :
    (ofText text).starts.toList = 0 :: breaks text.toUTF8.toList 0 := rfl

theorem ascending_starts (h : text.utf8ByteSize < UInt32.size) :
    (ofText text).starts.toList.Pairwise (· < ·) := by
  rw [starts_ofText]
  refine List.pairwise_cons.2 ⟨fun w hw => ?_, ascending_breaks (length_lt h)⟩
  obtain ⟨p, -, hp⟩ := toNat_of_mem_breaks (length_lt h) hw
  rw [UInt32.lt_iff_toNat_lt, hp]
  exact Nat.succ_pos _

theorem countP_starts (h : text.utf8ByteSize < UInt32.size) (w : UInt32) :
    (ofText text).starts.toList.countP (· ≤ w) = feedsBefore text.toUTF8.toList w.toNat + 1 := by
  have hbreaks := countP_breaks (length_lt h) w
  rw [Nat.sub_zero] at hbreaks
  rw [starts_ofText, List.countP_cons_of_pos (by simp), hbreaks]

theorem start_le_iff (h : text.utf8ByteSize < UInt32.size) {v : UInt32}
    (hv : (ofText text).starts[j]? = some v) :
    v ≤ w ↔ j ≤ feedsBefore text.toUTF8.toList w.toNat := by
  obtain ⟨hj, rfl⟩ := Array.getElem?_eq_some_iff.1 hv
  have hle := getElem_le_iff_lt_countP (w := w) (ascending_starts h) (j := j) (by simpa using hj)
  rwa [Array.getElem_toList, countP_starts h, Nat.lt_succ_iff] at hle

theorem exists_start (h : text.utf8ByteSize < UInt32.size) (w : UInt32) :
    ∃ v, (ofText text).starts[feedsBefore text.toUTF8.toList w.toNat]? = some v := by
  have hle := List.countP_le_length (p := fun v => decide (v ≤ w))
    (l := (ofText text).starts.toList)
  rw [countP_starts h, Array.length_toList] at hle
  exact ⟨_, Array.getElem?_eq_getElem hle⟩

theorem locate_of_nonneg (h : text.utf8ByteSize < UInt32.size) {o : Int32} (ho : 0 ≤ o)
    {v : UInt32}
    (hv : (ofText text).starts[feedsBefore text.toUTF8.toList o.toNatClampNeg]? = some v) :
    (ofText text).locate o =
      some ⟨feedsBefore text.toUTF8.toList o.toNatClampNeg, o.toNatClampNeg - v.toNat⟩ := by
  have hn := Int32.toNat_toUInt32_of_le ho
  have hcount := countP_starts h o.toUInt32
  have hsearch := countUpTo_eq (ascending_starts h) (Nat.zero_le _)
    (List.countP_le_length (p := fun v => decide (v ≤ o.toUInt32))) (by simp)
  rw [Array.length_toList, hcount, hn] at hsearch
  have hget : (ofText text).starts.getD (feedsBefore text.toUTF8.toList o.toNatClampNeg) 0 = v := by
    rw [Array.getD_eq_getD_getElem?, hv, Option.getD_some]
  have hle : v ≤ o.toUInt32 := (start_le_iff h hv).2 (Nat.le_of_eq (by rw [hn]))
  rw [locate, if_neg (Int32.not_lt.2 ho)]
  simp only [hsearch, Nat.add_sub_cancel, hget]
  rw [UInt32.toNat_sub_of_le _ _ hle, hn]

/-- The entry found is the greatest up to the offset, so no line feed stands between. -/
theorem lineStart_of_start (h : text.utf8ByteSize < UInt32.size) {v : UInt32}
    (hv : (ofText text).starts[feedsBefore text.toUTF8.toList w.toNat]? = some v) :
    LineStart text.toUTF8.toList w.toNat v.toNat := by
  have hentry : ∀ q, text.toUTF8.toList[q]? = some 10 → q < w.toNat →
      ∃ j u, (ofText text).starts[j]? = some u ∧ u.toNat = q + 1 ∧
        0 < j ∧ j ≤ feedsBefore text.toUTF8.toList w.toNat := by
    intro q hq hlt
    have hmem : UInt32.ofNat (0 + q + 1) ∈ breaks text.toUTF8.toList 0 :=
      mem_breaks.2 ⟨q, hq, rfl⟩
    obtain ⟨k, hk⟩ := List.mem_iff_getElem?.1 hmem
    have hstart : (ofText text).starts[k + 1]? = some (UInt32.ofNat (0 + q + 1)) := by
      rw [← Array.getElem?_toList, starts_ofText, List.getElem?_cons_succ, hk]
    have hsize := w.toNat_lt_size
    have hu : (UInt32.ofNat (0 + q + 1)).toNat = q + 1 := by
      rw [UInt32.toNat_ofNat_of_lt' (by omega)]
      omega
    refine ⟨k + 1, _, hstart, hu, Nat.succ_pos k, (start_le_iff h hstart).1 ?_⟩
    rw [UInt32.le_iff_toNat_le, hu]
    exact hlt
  cases hline : feedsBefore text.toUTF8.toList w.toNat with
  | zero =>
    rw [hline, ← Array.getElem?_toList, starts_ofText] at hv
    cases Option.some.inj hv
    refine .first fun q hlt hq => ?_
    obtain ⟨j, u, -, -, hpos, hle⟩ := hentry q hq hlt
    omega
  | succ k =>
    have hle : v ≤ w := (start_le_iff h hv).2 (Nat.le_refl _)
    have hk := hv
    rw [hline, ← Array.getElem?_toList, starts_ofText, List.getElem?_cons_succ] at hk
    obtain ⟨p, hp, hvp⟩ := toNat_of_mem_breaks (length_lt h) (List.mem_of_getElem? hk)
    rw [Nat.zero_add] at hvp
    rw [UInt32.le_iff_toNat_le] at hle
    rw [hvp]
    refine .behind (by omega) hp fun q hpq hlt hq => ?_
    -- a later line feed would have an entry behind that of the line
    obtain ⟨j, u, hu, huq, -, hj⟩ := hentry q hq hlt
    have hself := (start_le_iff h hv).1 (UInt32.le_refl v)
    have hle' := (start_le_iff h hu).2 (Nat.le_trans hj hself)
    rw [UInt32.le_iff_toNat_le] at hle'
    omega

theorem feedsBefore_mono (bs : List UInt8) {n m : Nat} (h : n ≤ m) :
    feedsBefore bs n ≤ feedsBefore bs m :=
  (List.take_sublist_take_left h).count_le 10

theorem locate_eq_none_iff (x : LineTable) (o : Int32) : x.locate o = none ↔ o < 0 := by
  rw [locate]
  split <;> simp_all

theorem nonneg_of_locate {x : LineTable} {o : Int32} {p : LineColumn} (h : x.locate o = some p) :
    0 ≤ o :=
  Int32.not_lt.1 fun hlt => by simp [(locate_eq_none_iff x o).2 hlt] at h

theorem place_of_locate (h : text.utf8ByteSize < UInt32.size) {o : Int32} {p : LineColumn}
    (hp : (ofText text).locate o = some p) :
    ∃ v, (ofText text).starts[p.line]? = some v ∧
      LineStart text.toUTF8.toList o.toNatClampNeg v.toNat ∧ v.toNat ≤ o.toNatClampNeg ∧
        p = ⟨feedsBefore text.toUTF8.toList o.toNatClampNeg, o.toNatClampNeg - v.toNat⟩ := by
  have ho := nonneg_of_locate hp
  obtain ⟨v, hv⟩ := exists_start h o.toUInt32
  have hle := (start_le_iff h hv).2 (Nat.le_refl _)
  have hstart := lineStart_of_start h hv
  rw [UInt32.le_iff_toNat_le] at hle
  rw [Int32.toNat_toUInt32_of_le ho] at hv hle hstart
  rw [locate_of_nonneg h ho hv] at hp
  cases hp
  exact ⟨v, hv, hstart, hle, rfl⟩

/-- The table of a text answers as counting does, as long as its offsets fit 32 bits. -/
theorem exact_ofText (h : text.utf8ByteSize < UInt32.size) :
    Exact text.toUTF8.toList (ofText text) where
  lineCount := by
    rw [lineCount, ← Array.length_toList, starts_ofText, List.length_cons, length_breaks]
  locate_eq_none_iff := locate_eq_none_iff _
  line hp := by
    obtain ⟨v, -, -, -, rfl⟩ := place_of_locate h hp
    rfl
  column hp := by
    obtain ⟨v, -, hstart, hle, rfl⟩ := place_of_locate h hp
    exact ⟨v.toNat, hstart, hle, rfl⟩
  start hp := by
    obtain ⟨v, hv, -, hle, rfl⟩ := place_of_locate h hp
    exact ⟨v, hv, Nat.add_sub_cancel' hle⟩
  before {o o' p p'} hlt hp hp' := by
    have hlt' : o.toNatClampNeg < o'.toNatClampNeg := by
      have ho := Int32.le_iff_toInt_le.1 (nonneg_of_locate hp)
      rw [Int32.lt_iff_toInt_lt] at hlt
      rw [Int32.toInt_zero] at ho
      rw [Int32.toNatClampNeg, Int32.toNatClampNeg]
      omega
    obtain ⟨v, hv, -, hle, rfl⟩ := place_of_locate h hp
    obtain ⟨v', hv', -, -, rfl⟩ := place_of_locate h hp'
    obtain hline | hline :=
      Nat.lt_or_eq_of_le (feedsBefore_mono text.toUTF8.toList (Nat.le_of_lt hlt'))
    · exact .inl hline
    · -- offsets of one line count from one place
      simp only [hline] at hv
      cases hv.symm.trans hv'
      exact .inr ⟨hline, by dsimp only; omega⟩

/-- A blank line, and characters of more than one byte before the last line feed. -/
def blankLine : String := "a\n\nñandú\n"

theorem exact_ofText_blankLine : blankLine.utf8ByteSize < UInt32.size ∧
    Exact blankLine.toUTF8.toList (ofText blankLine) ∧ (ofText blankLine).lineCount = 4 ∧
    [-1, 0, 1, 2, 3, 10, 11, 40].map (ofText blankLine).locate =
      [none, some ⟨0, 0⟩, some ⟨0, 1⟩, some ⟨1, 0⟩, some ⟨2, 0⟩, some ⟨2, 7⟩, some ⟨3, 0⟩,
        some ⟨3, 29⟩] := by
  have h : blankLine.utf8ByteSize < UInt32.size := by decide
  refine ⟨h, exact_ofText h, ?_, ?_⟩
  · decide +kernel
  · decide +kernel

end

end LineTable
end CanonTree
