import CanonTree.Json.Reader
import CanonTree.Proofs.Fallible
import CanonTree.Proofs.Json.Spacing

namespace CanonTree.Json

/-- The UTF-16 code units that a piece stands for. -/
def Piece.units : Piece → List Nat
  | .char c =>
    if c.toNat < 0x10000 then [c.toNat]
    else [0xD800 + (c.toNat - 0x10000) / 1024, 0xDC00 + (c.toNat - 0x10000) % 1024]
  | .unit n => [n]

/-- The same string, whichever of its characters are escaped and how. -/
structure Lexeme.Same (l l' : Lexeme) : Prop where
  units : l.pieces.flatMap Piece.units = l'.pieces.flatMap Piece.units
  stop : l.stop = l'.stop

theorem decode_plain {stop : Option Problem} {n : Nat} (hlow : ¬ Lexeme.isLowSurrogate n)
    (hhigh : ¬ Lexeme.isHighSurrogate n) (ps : List Piece) (done : List Char) :
    Lexeme.decode stop (.unit n :: ps) done = Lexeme.decode stop ps (Char.ofNat n :: done) := by
  rw [Lexeme.decode.eq_def]
  simp only [hlow, hhigh, Bool.false_eq_true, if_false]

theorem decode_pair {stop : Option Problem} {n m : Nat} (hlow : ¬ Lexeme.isLowSurrogate n)
    (hhigh : Lexeme.isHighSurrogate n) (hm : Lexeme.isLowSurrogate m) (ps : List Piece)
    (done : List Char) : Lexeme.decode stop (.unit n :: .unit m :: ps) done =
      Lexeme.decode stop ps
        (Char.ofNat ((n - 0xD800) * 1024 + (m - 0xDC00) + 0x10000) :: done) := by
  rw [Lexeme.decode.eq_def]
  simp only [hlow, hhigh, hm, Bool.false_eq_true, if_false, if_true]

theorem decode_lone {stop : Option Problem} {n m : Nat} (hlow : ¬ Lexeme.isLowSurrogate n)
    (hhigh : Lexeme.isHighSurrogate n) (hm : ¬ Lexeme.isLowSurrogate m) (ps : List Piece)
    (done : List Char) :
    Lexeme.decode stop (.unit n :: .unit m :: ps) done = .error .malformed := by
  rw [Lexeme.decode.eq_def]
  simp only [hlow, hhigh, hm, Bool.false_eq_true, if_false, if_true]

theorem decode_char (stop : Option Problem) (c : Char) (ps : List Piece) (done : List Char) :
    Lexeme.decode stop ((Piece.char c).units.map .unit ++ ps) done =
      Lexeme.decode stop ps (c :: done) := by
  have hvalid : c.toNat < 0xD800 ∨ 0xDFFF < c.toNat ∧ c.toNat < 0x110000 := c.valid
  rw [Piece.units]
  split
  · rename_i hc
    have hlow : ¬ Lexeme.isLowSurrogate c.toNat := by
      simp [Lexeme.isLowSurrogate]
      omega
    have hhigh : ¬ Lexeme.isHighSurrogate c.toNat := by
      simp [Lexeme.isHighSurrogate]
      omega
    rw [List.map_singleton, List.singleton_append, decode_plain hlow hhigh, Char.ofNat_toNat]
  · rename_i hc
    have hlow : ¬ Lexeme.isLowSurrogate (0xD800 + (c.toNat - 0x10000) / 1024) := by
      simp [Lexeme.isLowSurrogate]
      omega
    have hhigh : Lexeme.isHighSurrogate (0xD800 + (c.toNat - 0x10000) / 1024) := by
      simp [Lexeme.isHighSurrogate]
      omega
    have hsecond : Lexeme.isLowSurrogate (0xDC00 + (c.toNat - 0x10000) % 1024) := by
      simp [Lexeme.isLowSurrogate]
      omega
    have hsum : (0xD800 + (c.toNat - 0x10000) / 1024 - 0xD800) * 1024 +
        (0xDC00 + (c.toNat - 0x10000) % 1024 - 0xDC00) + 0x10000 = c.toNat := by
      omega
    rw [List.map_cons, List.map_singleton, List.cons_append, List.singleton_append,
      decode_pair hlow hhigh hsecond, hsum, Char.ofNat_toNat]

/-- The first unit of a character is no second half of a pair. -/
theorem exists_first_unit (c : Char) :
    ∃ n ns, (Piece.char c).units = n :: ns ∧ ¬ Lexeme.isLowSurrogate n := by
  have hvalid : c.toNat < 0xD800 ∨ 0xDFFF < c.toNat ∧ c.toNat < 0x110000 := c.valid
  rw [Piece.units]
  split
  · refine ⟨_, _, rfl, ?_⟩
    simp [Lexeme.isLowSurrogate]
    omega
  · refine ⟨_, _, rfl, ?_⟩
    simp [Lexeme.isLowSurrogate]
    omega

/-- A string is decoded as if all of it were escaped. -/
theorem decode_units (stop : Option Problem) (ps : List Piece) (done : List Char) :
    Lexeme.decode stop ((ps.flatMap Piece.units).map Piece.unit) done =
      Lexeme.decode stop ps done := by
  fun_induction Lexeme.decode stop ps done with
  | case1 done p hstop => simp [Lexeme.decode, hstop]
  | case2 done hstop => simp [Lexeme.decode, hstop]
  | case3 done c ps ih => rw [List.flatMap_cons, List.map_append, decode_char, ih]
  | case4 done n ps hlow => simp [Piece.units, Lexeme.decode.eq_def, hlow]
  | case5 n done hlow hhigh m ps hm ih => exact (decode_pair hlow hhigh hm _ done).trans ih
  | case6 n done hlow hhigh m ps hm => exact decode_lone hlow hhigh hm _ done
  | case7 n done hlow hhigh c ps =>
    obtain ⟨m, ms, hunits, hm⟩ := exists_first_unit c
    rw [List.flatMap_cons, List.flatMap_cons, hunits]
    exact decode_lone hlow hhigh hm _ done
  | case8 n done hlow hhigh => simp [Piece.units, Lexeme.decode.eq_def, hlow, hhigh]
  | case9 n ps done hlow hhigh ih => exact (decode_plain hlow hhigh _ done).trans ih

theorem Lexeme.Same.text_eq {l l' : Lexeme} (h : l.Same l') : l.text = l'.text := by
  rw [Lexeme.text, Lexeme.text, ← decode_units l.stop, ← decode_units l'.stop, h.units, h.stop]

/-- The same value with another spelling of a string, or another order of the members of an
object, somewhere in it. -/
inductive Rephrased : Raw → Raw → Prop where
  | string {l l' : Lexeme} : l.Same l' → Rephrased (.string l) (.string l')
  | key {ms ns : List (Lexeme × Raw)} {k k' : Lexeme} {v : Raw} {e : Ending} : k.Same k' →
      Rephrased (.object (ms ++ (k, v) :: ns) e) (.object (ms ++ (k', v) :: ns) e)
  | order {ms ms' : List (Lexeme × Raw)} {e : Ending} : ms.Perm ms' →
      Rephrased (.object ms e) (.object ms' e)
  | item {vs ws : List Raw} {v v' : Raw} {e : Ending} : Rephrased v v' →
      Rephrased (.array (vs ++ v :: ws) e) (.array (vs ++ v' :: ws) e)
  | member {ms ns : List (Lexeme × Raw)} {k : Lexeme} {v v' : Raw} {e : Ending} : Rephrased v v' →
      Rephrased (.object (ms ++ (k, v) :: ns) e) (.object (ms ++ (k, v') :: ns) e)

theorem orProblem_eq_ok {p : Option Problem} : orProblem p = .ok () ↔ p = none := by
  cases p <;> simp [orProblem]

theorem checkedItems_eq_ok {room : Nat} {vs : List Raw} :
    Raw.checkedItems room vs = .ok () ↔ ∀ v ∈ vs, ∃ f, v.checked room = .ok f := by
  induction vs with
  | nil => simp [Raw.checkedItems]
  | cons v vs ih => simp [Raw.checkedItems, bind_eq_ok, ih]

def Legible (room : Nat) (m : Lexeme × Raw) : Prop :=
  (∃ key, m.1.text = .ok key) ∧ ∃ f, m.2.checked room = .ok f

theorem checkedMembers_eq_ok {room : Nat} {ms : List (Lexeme × Raw)} :
    Raw.checkedMembers room ms = .ok () ↔ ∀ m ∈ ms, Legible room m := by
  induction ms with
  | nil => simp [Raw.checkedMembers]
  | cons m ms ih => simp [Raw.checkedMembers, bind_eq_ok, ih, Legible, and_assoc]

theorem checked_array {room : Nat} {vs : List Raw} {e : Ending} {f : Found} :
    (Raw.array vs e).checked room = .ok f ↔ room ≠ 0 ∧
      (∀ v ∈ vs, ∃ f, v.checked (room - 1) = .ok f) ∧ e.problem? = none ∧ .sequence = f := by
  by_cases hroom : room = 0
  · simp [Raw.checked, hroom, bind, Except.bind, throw, throwThe, MonadExceptOf.throw]
  · simp [Raw.checked, hroom, bind_eq_ok, Unique.exists_iff, checkedItems_eq_ok, orProblem_eq_ok,
      pure, Except.pure]

theorem checked_object {room : Nat} {ms : List (Lexeme × Raw)} {e : Ending} {f : Found} :
    (Raw.object ms e).checked room = .ok f ↔ room ≠ 0 ∧
      (∀ m ∈ ms, Legible (room - 1) m) ∧ e.problem? = none ∧ .map = f := by
  by_cases hroom : room = 0
  · simp [Raw.checked, hroom, bind, Except.bind, throw, throwThe, MonadExceptOf.throw]
  · simp [Raw.checked, hroom, bind_eq_ok, Unique.exists_iff, checkedMembers_eq_ok,
      orProblem_eq_ok, pure, Except.pure]

theorem wholeItems_iff {vs : List Raw} : Raw.WholeItems vs ↔ ∀ v ∈ vs, v.Whole := by
  induction vs with
  | nil => simp [Raw.WholeItems]
  | cons v vs ih => simp [Raw.WholeItems, ih]

theorem wholeMembers_iff {ms : List (Lexeme × Raw)} :
    Raw.WholeMembers ms ↔ ∀ m ∈ ms, m.1.stop = none ∧ m.2.Whole := by
  induction ms with
  | nil => simp [Raw.WholeMembers]
  | cons m ms ih => simp [Raw.WholeMembers, ih]

theorem whole_array {vs : List Raw} {e : Ending} :
    (Raw.array vs e).Whole ↔ (∀ v ∈ vs, v.Whole) ∧ e = .closed := by
  rw [Raw.Whole, wholeItems_iff]

theorem whole_object {ms : List (Lexeme × Raw)} {e : Ending} :
    (Raw.object ms e).Whole ↔ (∀ m ∈ ms, m.1.stop = none ∧ m.2.Whole) ∧ e = .closed := by
  rw [Raw.Whole, wholeMembers_iff]

namespace Rephrased

variable {r r' : Raw}

theorem found (h : Rephrased r r') : r.found = r'.found := by
  cases h with
  | string hl => simp only [Raw.found, hl.text_eq]
  | key => rfl
  | order => rfl
  | item => rfl
  | member => rfl

theorem checked (h : Rephrased r r') {room : Nat} {f : Found} (hr : r.checked room = .ok f) :
    r'.checked room = .ok f := by
  induction h generalizing room f with
  | string hl => simpa [Raw.checked, Raw.found, hl.text_eq] using hr
  | key hk =>
    rw [checked_object, List.forall_mem_append, List.forall_mem_cons] at hr ⊢
    simpa [Legible, hk.text_eq] using hr
  | order hms =>
    rw [checked_object] at hr ⊢
    simpa only [hms.mem_iff] using hr
  | item _ ih =>
    rw [checked_array, List.forall_mem_append, List.forall_mem_cons] at hr ⊢
    obtain ⟨hroom, ⟨hvs, ⟨g, hv⟩, hws⟩, hend⟩ := hr
    exact ⟨hroom, ⟨hvs, ⟨g, ih hv⟩, hws⟩, hend⟩
  | member _ ih =>
    rw [checked_object, List.forall_mem_append, List.forall_mem_cons] at hr ⊢
    obtain ⟨hroom, ⟨hms, ⟨hk, g, hv⟩, hns⟩, hend⟩ := hr
    exact ⟨hroom, ⟨hms, ⟨hk, g, ih hv⟩, hns⟩, hend⟩

theorem whole (h : Rephrased r r') (hr : r.Whole) : r'.Whole := by
  induction h with
  | string hl => exact hl.stop.symm.trans hr
  | key hk =>
    rw [whole_object, List.forall_mem_append, List.forall_mem_cons] at hr ⊢
    simpa [hk.stop] using hr
  | order hms =>
    rw [whole_object] at hr ⊢
    simpa only [hms.mem_iff] using hr
  | item _ ih =>
    rw [whole_array, List.forall_mem_append, List.forall_mem_cons] at hr ⊢
    obtain ⟨⟨hvs, hv, hws⟩, hend⟩ := hr
    exact ⟨⟨hvs, ih hv, hws⟩, hend⟩
  | member _ ih =>
    rw [whole_object, List.forall_mem_append, List.forall_mem_cons] at hr ⊢
    obtain ⟨⟨hms, ⟨hk, hv⟩, hns⟩, hend⟩ := hr
    exact ⟨⟨hms, ⟨hk, ih hv⟩, hns⟩, hend⟩

end Rephrased

theorem problem?_eq_none {e : Ending} : e.problem? = none ↔ e = .closed := by
  cases e <;> simp [Ending.problem?]

theorem stop_of_decode {stop : Option Problem} {ps : List Piece} {done cs : List Char}
    (h : Lexeme.decode stop ps done = .ok cs) : stop = none := by
  fun_induction Lexeme.decode stop ps done <;> simp_all

theorem stop_of_text {l : Lexeme} {s : String} (h : l.text = .ok s) : l.stop = none := by
  rw [Lexeme.text] at h
  cases hd : Lexeme.decode l.stop l.pieces [] with
  | error p => simp [hd, Except.map] at h
  | ok cs => exact stop_of_decode hd

theorem stop_of_found {l : Lexeme} {f : Found} (h : (Raw.string l).found = .ok f) :
    l.stop = none := by
  cases hl : l.text with
  | error p => simp [Raw.found, hl, Except.map] at h
  | ok s => exact stop_of_text hl

namespace Raw

mutual
/-- A value is passed over exactly if nothing is missing in it. -/
theorem skim_eq_ok : ∀ r : Raw, r.skim = .ok () ↔ r.Whole
  | absent | junk | badWord _ | badNumber _ => by simp [skim, Whole]
  | null | bool _ | number _ => by simp [skim, Whole]
  | string l => by simp [skim, Whole, orProblem_eq_ok]
  | array vs e => by
    simp [skim, Whole, bind_eq_ok, Unique.exists_iff, orProblem_eq_ok, problem?_eq_none,
      skimItems_eq_ok vs]
  | object ms e => by
    simp [skim, Whole, bind_eq_ok, Unique.exists_iff, orProblem_eq_ok, problem?_eq_none,
      skimMembers_eq_ok ms]

theorem skimItems_eq_ok : ∀ vs : List Raw, skimItems vs = .ok () ↔ WholeItems vs
  | [] => by simp [skimItems, WholeItems]
  | v :: vs => by
    simp [skimItems, WholeItems, bind_eq_ok, Unique.exists_iff, skim_eq_ok v, skimItems_eq_ok vs]

theorem skimMembers_eq_ok : ∀ ms : List (Lexeme × Raw),
    skimMembers ms = .ok () ↔ WholeMembers ms
  | [] => by simp [skimMembers, WholeMembers]
  | (k, v) :: ms => by
    simp [skimMembers, WholeMembers, bind_eq_ok, Unique.exists_iff, orProblem_eq_ok, skim_eq_ok v,
      skimMembers_eq_ok ms, and_assoc]
end

theorem whole_of_found {r : Raw} {f : Found} (h : r.found = .ok f) (hsequence : f ≠ .sequence)
    (hmap : f ≠ .map) : r.Whole := by
  cases r with
  | string l => exact stop_of_found h
  | array => exact absurd (Except.ok.inj h).symm hsequence
  | object => exact absurd (Except.ok.inj h).symm hmap
  | null | bool | number => trivial
  | absent | junk | badWord | badNumber => cases h

theorem whole_of_checked {room : Nat} {r : Raw} {f : Found} (h : r.checked room = .ok f) :
    r.Whole := by
  match r with
  | array vs e =>
    obtain ⟨hroom, hvs, hend, -⟩ := checked_array.1 h
    refine whole_array.2 ⟨fun v hv => ?_, problem?_eq_none.1 hend⟩
    obtain ⟨g, hg⟩ := hvs v hv
    exact whole_of_checked hg
  | object ms e =>
    obtain ⟨hroom, hms, hend, -⟩ := checked_object.1 h
    refine whole_object.2 ⟨fun m hm => ?_, problem?_eq_none.1 hend⟩
    obtain ⟨⟨key, hk⟩, g, hg⟩ := hms m hm
    exact ⟨stop_of_text hk, whole_of_checked hg⟩
  | string l => exact stop_of_found h
  | null | bool _ | number _ => trivial
  | absent | junk | badWord _ | badNumber _ => cases h
termination_by room

end Raw

theorem isEmpty_skipSpace {cs : List Char} : (skipSpace cs).isEmpty ↔ Blank cs := by
  simp [skipSpace, Blank]

theorem Reader.run_eq_ok {α : Type} {read : Reader α} {text : String} {a : α} :
    read.run text = .ok a ↔
      read maxDepth (Raw.read text.toList).1 = .ok a ∧ Blank (Raw.read text.toList).2 := by
  rw [Reader.run]
  generalize Raw.read text.toList = p
  obtain ⟨r, rest⟩ := p
  refine bind_eq_ok.trans ?_
  by_cases hrest : Blank rest
  · simp [isEmpty_skipSpace.2 hrest, hrest, pure, Except.pure]
  · have hfull : ¬ (skipSpace rest).isEmpty := mt isEmpty_skipSpace.1 hrest
    simp [hfull, hrest, throw, throwThe, MonadExceptOf.throw]

end CanonTree.Json
