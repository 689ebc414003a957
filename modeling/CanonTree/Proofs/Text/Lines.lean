import Mathlib.Algebra.GroupWithZero.Nat
import Mathlib.Data.List.Basic

namespace CanonTree.Text

variable {α : Type}

/-- What comes before the first item without a property is settled by the whole. -/
theorem append_inj_of_stop {P : α → Prop} {as bs xs ys : List α} (ha : ∀ c ∈ as, P c)
    (hb : ∀ c ∈ bs, P c) (hx : ∀ c ∈ xs.head?, ¬ P c) (hy : ∀ c ∈ ys.head?, ¬ P c)
    (h : as ++ xs = bs ++ ys) : as = bs ∧ xs = ys := by
  induction as generalizing bs with
  | nil =>
    cases bs with
    | nil => exact ⟨rfl, h⟩
    | cons b bs =>
      have hxs : b ∈ xs.head? := by
        rw [show xs = b :: (bs ++ ys) from h]
        rfl
      exact absurd (hb b List.mem_cons_self) (hx b hxs)
  | cons a as ih =>
    cases bs with
    | nil =>
      have hys : a ∈ ys.head? := by
        rw [show ys = a :: (as ++ xs) from h.symm]
        rfl
      exact absurd (ha a List.mem_cons_self) (hy a hys)
    | cons b bs =>
      obtain ⟨rfl, htail⟩ := List.cons.inj h
      obtain ⟨rfl, hrest⟩ := ih (fun c hc => ha c (List.mem_cons_of_mem _ hc))
        (fun c hc => hb c (List.mem_cons_of_mem _ hc)) htail
      exact ⟨rfl, hrest⟩

theorem append_cons_inj {m : α} {as bs xs ys : List α} (ha : m ∉ as) (hb : m ∉ bs)
    (h : as ++ m :: xs = bs ++ m :: ys) : as = bs ∧ xs = ys := by
  have hne : ∀ {cs : List α}, m ∉ cs → ∀ c ∈ cs, c ≠ m := by
    rintro cs hcs c hc rfl
    exact hcs hc
  obtain ⟨hab, hxy⟩ := append_inj_of_stop (hne ha) (hne hb) (by simp) (by simp) h
  exact ⟨hab, (List.cons.inj hxy).2⟩

theorem append_cons_inj_last {m : α} {as bs xs ys : List α} (hx : m ∉ xs) (hy : m ∉ ys)
    (h : as ++ m :: xs = bs ++ m :: ys) : as = bs ∧ xs = ys := by
  have hr := congrArg List.reverse h
  simp only [List.reverse_append, List.reverse_cons, List.append_assoc, List.singleton_append] at hr
  obtain ⟨hxy, hab⟩ := append_cons_inj (by simpa using hx) (by simpa using hy) hr
  exact ⟨List.reverse_inj.1 hab, List.reverse_inj.1 hxy⟩

def Plain (s : String) : Prop := '\n' ∉ s.toList

instance (s : String) : Decidable (Plain s) := inferInstanceAs (Decidable (¬ _))

theorem plain_append {s t : String} : Plain (s ++ t) ↔ Plain s ∧ Plain t := by
  simp [Plain]

theorem plain_join {ss : List String} : Plain (String.join ss) ↔ ∀ s ∈ ss, Plain s := by
  simp [Plain, String.toList_join]

def joinLines (ls : List String) : String := String.join (ls.map (· ++ "\n"))

/-- The text consists of these lines, each ended by a line feed, and no line has another in it. -/
structure Lines (s : String) (ls : List String) : Prop where
  text : s = joinLines ls
  plain : ∀ l ∈ ls, Plain l

theorem toList_joinLines (ls : List String) :
    (joinLines ls).toList = ls.flatMap fun l => l.toList ++ ['\n'] := by
  rw [joinLines, String.toList_join, List.flatMap_map]
  simp

variable {s : String} {ls ms : List String}

theorem Lines.unique (h : Lines s ls) (h' : Lines s ms) : ls = ms := by
  have htext := (toList_joinLines ls).symm.trans
    ((congrArg String.toList (h.text.symm.trans h'.text)).trans (toList_joinLines ms))
  replace h := h.plain
  replace h' := h'.plain
  induction ls generalizing ms with
  | nil =>
    cases ms with
    | nil => rfl
    | cons m ms => simp at htext
  | cons l ls ih =>
    cases ms with
    | nil => simp at htext
    | cons m ms =>
      simp only [List.flatMap_cons, List.append_assoc, List.singleton_append] at htext
      obtain ⟨hl, hls⟩ := append_cons_inj (h l List.mem_cons_self) (h' m List.mem_cons_self) htext
      rw [String.toList_injective hl, ih hls (fun n hn => h n (List.mem_cons_of_mem _ hn))
        fun n hn => h' n (List.mem_cons_of_mem _ hn)]

theorem count_joinLines (ls : List String) : (joinLines ls).toList.count '\n' =
    ls.length + (ls.map fun l => l.toList.count '\n').sum := by
  rw [toList_joinLines]
  induction ls with
  | nil => rfl
  | cons l ls ih =>
    simp only [List.flatMap_cons, List.count_append, List.count_singleton_self, ih,
      List.length_cons, List.map_cons, List.sum_cons]
    omega

theorem Lines.count (h : Lines s ls) : s.toList.count '\n' = ls.length := by
  have hnone : (ls.map fun l => l.toList.count '\n').sum = 0 := by
    rw [List.sum_eq_zero_iff_forall_eq_nat]
    intro n hn
    obtain ⟨l, hl, rfl⟩ := List.mem_map.1 hn
    exact List.count_eq_zero.2 (h.plain l hl)
  rw [h.text, count_joinLines, hnone, Nat.add_zero]

theorem lines_joinLines_iff : Lines (joinLines ls) ls ↔ ∀ l ∈ ls, Plain l :=
  ⟨Lines.plain, fun h => ⟨rfl, h⟩⟩

/-- A text of as many lines as were joined consists of these. -/
theorem exists_lines_iff (ls : List String) :
    (∃ ms, Lines (joinLines ls) ms ∧ ms.length = ls.length) ↔ Lines (joinLines ls) ls := by
  refine ⟨?_, fun h => ⟨ls, h, rfl⟩⟩
  rintro ⟨ms, hms, hlength⟩
  refine lines_joinLines_iff.2 fun l hl => ?_
  have hcount := hms.count
  rw [count_joinLines, hlength, Nat.add_eq_left, List.sum_eq_zero_iff_forall_eq_nat] at hcount
  exact List.count_eq_zero.1 (hcount _ (List.mem_map.2 ⟨l, hl, rfl⟩))

end CanonTree.Text
