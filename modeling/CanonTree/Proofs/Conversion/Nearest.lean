import CanonTree.Proofs.Conversion.Arrangement

namespace CanonTree.Conversion

open Rose (append_prefix_drop layout layouts sizes)
open Syntax (Branch)

variable {es fs : List (Entry Canon.Node)} {e : Entry Canon.Node} {i j : Nat}

def rank (es : List (Entry Canon.Node)) (i : Nat) : Nat :=
  (es.take i).countP fun e => genuine e.value

theorem rank_add (h : fs <+: es.drop i) :
    rank es (i + fs.length) = rank es i + (fs.map Entry.value).countP genuine := by
  rw [rank, List.take_add, List.countP_append, ← List.prefix_iff_eq_take.1 h, List.countP_map]
  rfl

theorem rank_succ (h : es[i]? = some e) :
    rank es (i + 1) = rank es i + if genuine e.value then 1 else 0 := by
  have hp : [e] <+: es.drop i := by
    rw [List.drop_eq_getElem_cons (List.getElem?_eq_some_iff.1 h).1,
      (List.getElem?_eq_some_iff.1 h).2]
    exact ⟨_, rfl⟩
  simpa [List.countP_singleton] using rank_add hp

theorem rank_mono (h : i ≤ j) : rank es i ≤ rank es j :=
  (List.take_sublist_take_left h).countP_le

theorem rank_lt (h : i < j) (he : es[i]? = some e) (hg : genuine e.value = true) :
    rank es i < rank es j := by
  have hsucc := rank_succ he
  rw [if_pos hg] at hsucc
  have : rank es (i + 1) ≤ rank es j := rank_mono h
  omega

theorem eq_of_rank_eq {d : Entry Canon.Node} (he : es[i]? = some e) (hg : genuine e.value = true)
    (hd : es[j]? = some d) (hg' : genuine d.value = true) (h : rank es i = rank es j) : i = j := by
  by_contra hne
  obtain hlt | hlt := Nat.lt_or_gt_of_ne hne
  · exact Nat.ne_of_lt (rank_lt hlt he hg) h
  · exact Nat.ne_of_gt (rank_lt hlt hd hg') h

theorem getElem?_filter_countP {α : Type} {p : α → Bool} {as : List α} {a : α} {i : Nat}
    (ha : as[i]? = some a) (hp : p a = true) : (as.filter p)[(as.take i).countP p]? = some a := by
  induction as generalizing i with
  | nil => simp at ha
  | cons b as ih =>
    cases i with
    | zero =>
      cases Option.some.inj ha
      simp [hp]
    | succ i =>
      have h := ih (i := i) (by simpa using ha)
      by_cases hb : p b = true <;> simpa [hb] using h

theorem exists_countP_take {α : Type} {p : α → Bool} {as : List α} {k : Nat}
    (hk : k < (as.filter p).length) :
    ∃ i a, as[i]? = some a ∧ p a = true ∧ (as.take i).countP p = k := by
  induction as generalizing k with
  | nil => simp at hk
  | cons b as ih =>
    by_cases hb : p b = true
    · cases k with
      | zero => exact ⟨0, b, rfl, hb, rfl⟩
      | succ k =>
        rw [List.filter_cons_of_pos hb] at hk
        obtain ⟨i, a, ha, hp, hcount⟩ := ih (Nat.lt_of_succ_lt_succ hk)
        exact ⟨i + 1, a, ha, hp, by simp [hb, hcount]⟩
    · rw [List.filter_cons_of_neg hb] at hk
      obtain ⟨i, a, ha, hp, hcount⟩ := ih hk
      exact ⟨i + 1, a, ha, hp, by simp [hb, hcount]⟩

/-- Node `j` is not inserted and stands above node `i`, with at most one inserted node between. -/
inductive Nearest (es : List (Entry Canon.Node)) (i j : Nat) : Prop
  | parent {e d : Entry Canon.Node} : es[i]? = some e → e.parent = some j → es[j]? = some d →
      d.value.synthetic = false → Nearest es i j
  | overWrapper {k : Nat} {e w d : Entry Canon.Node} : es[i]? = some e → e.parent = some k →
      es[k]? = some w → w.value.synthetic = true → w.parent = some j → es[j]? = some d →
        d.value.synthetic = false → Nearest es i j

theorem Nearest.not_inserted (h : Nearest es i j) :
    ∃ d, es[j]? = some d ∧ d.value.synthetic = false := by
  cases h with
  | parent _ _ hd hs => exact ⟨_, hd, hs⟩
  | overWrapper _ _ _ _ _ hd hs => exact ⟨_, hd, hs⟩

/-- The nodes with numbers from `lo` on and below `hi` that are not inserted hang below those from
which the nodes they stand for were reached. -/
def Followed (es : List (Entry Canon.Node)) (bs : List Branch) (lo hi : Nat) : Prop :=
  ∀ i e, lo ≤ i → i < hi → es[i]? = some e → genuine e.value = true →
    ∃ j b c, Nearest es i j ∧ bs[rank es j]? = some b ∧ bs[rank es i]? = some c ∧ c ∈ onward b

variable {source : String} {bs cs : List Branch} {b c : Branch} {lo mid hi : Nat}

theorem Followed.empty (h : hi ≤ lo) : Followed es bs lo hi := by
  intro i e hlo hhi
  omega

theorem Followed.append (h : Followed es bs lo mid) (h' : Followed es bs mid hi) :
    Followed es bs lo hi := by
  intro i e hlo hhi
  by_cases hmid : i < mid
  · exact h i e hlo hmid
  · exact h' i e (Nat.le_of_not_lt hmid) hhi

theorem getElem?_of_visited (h : visited b <+: bs.drop i) : bs[i]? = some b := by
  obtain ⟨rest, hrest⟩ := h
  rw [visited_eq, List.cons_append] at hrest
  rw [← List.head?_drop, ← hrest]
  rfl

theorem rank_add_image {p : Option Nat} (h : (image source c).layout p i <+: es.drop i) :
    rank es (i + (image source c).size) = rank es i + (visited c).length := by
  have hadd := rank_add h
  rw [Rose.length_layout, Rose.map_value_layout, List.countP_eq_length_filter,
    filter_preorder_image, List.length_map] at hadd
  exact hadd

theorem rank_add_images {p : Option Nat} (h : layouts p i (cs.map (image source)) <+: es.drop i) :
    rank es (i + sizes (cs.map (image source))) = rank es i + (cs.flatMap visited).length := by
  have hadd := rank_add h
  rw [Rose.length_layouts, Rose.map_value_layouts, List.countP_eq_length_filter,
    filter_preorders_images fun c _ => filter_preorder_image c, List.length_map] at hadd
  exact hadd

theorem followed_node (hn : Nearest es i j) (hb : bs[rank es j]? = some b) (hc : c ∈ onward b)
    (hv : visited c <+: bs.drop (rank es i)) (h : Followed es bs (i + 1) hi) :
    Followed es bs i hi := by
  have hself : Followed es bs i (i + 1) := by
    intro k e hlo hhi _ _
    cases Nat.le_antisymm (Nat.le_of_lt_succ hhi) hlo
    exact ⟨j, b, c, hn, hb, getElem?_of_visited hv, hc⟩
  exact hself.append h

def Follows (source : String) (es : List (Entry Canon.Node)) (bs : List Branch) (b : Branch) :
    Prop :=
  ∀ p i, (image source b).layout p i <+: es.drop i → visited b <+: bs.drop (rank es i) →
    Followed es bs (i + 1) (i + (image source b).size)

theorem followed_images {q : Nat} (hq : ∀ k e, es[k]? = some e → e.parent = some q →
      Nearest es k j) (hb : bs[rank es j]? = some b) (hcs : ∀ c ∈ cs, c ∈ onward b)
    (ih : ∀ c ∈ cs, Follows source es bs c)
    (hl : layouts (some q) i (cs.map (image source)) <+: es.drop i)
    (hv : cs.flatMap visited <+: bs.drop (rank es i)) :
    Followed es bs i (i + sizes (cs.map (image source))) := by
  induction cs generalizing i with
  | nil => exact .empty (Nat.le_refl i)
  | cons c cs ihcs =>
    obtain ⟨hlc, hlcs⟩ := Rose.layouts_prefix_iff.1 hl
    obtain ⟨hvc, hvcs⟩ := append_prefix_drop.1 hv
    rw [← rank_add_image hlc] at hvcs
    have hrow : ∃ e, es[i]? = some e ∧ e.parent = some q := by
      cases hr : image source c with
      | node n ds =>
        rw [hr] at hlc
        exact ⟨_, (Rose.layout_prefix_iff.1 hlc).1, rfl⟩
    obtain ⟨e, he, hparent⟩ := hrow
    have hhead := followed_node (hq i e he hparent) hb (hcs c List.mem_cons_self) hvc
      (ih c List.mem_cons_self (some q) i hlc hvc)
    have htail := ihcs (fun d hd => hcs d (List.mem_cons_of_mem c hd))
      (fun d hd => ih d (List.mem_cons_of_mem c hd)) hlcs hvcs
    rw [List.map_cons, sizes, ← Nat.add_assoc]
    exact hhead.append htail

theorem followed_inserted (bs : List Branch) {r : Rose Canon.Node} {p : Option Nat}
    (hr : Inserted r)    (hl : r.layout p i <+: es.drop i) :
    Followed es bs i (i + r.size) ∧ rank es (i + r.size) = rank es i := by
  have hnone : r.preorder.countP genuine = 0 :=
    List.countP_eq_zero.2 fun n hn => by simpa [genuine] using hr n hn
  have hadd := rank_add hl
  rw [Rose.length_layout, Rose.map_value_layout, hnone] at hadd
  refine ⟨?_, hadd⟩
  intro k e hlo hhi he hg
  -- a node that is not inserted would be counted
  have hlt : rank es k < rank es (k + 1) := rank_lt (Nat.lt_succ_self k) he hg
  have hle : rank es i ≤ rank es k := rank_mono hlo
  have hge : rank es (k + 1) ≤ rank es (i + r.size) := rank_mono hhi
  omega

theorem followed_arranged {ds : List (Rose Canon.Node)} {d : Entry Canon.Node}
    (h : Arranged source ds cs) (hd : es[j]? = some d) (hs : d.value.synthetic = false)
    (hb : bs[rank es j]? = some b) (hcs : ∀ c ∈ cs, c ∈ onward b)
    (ih : ∀ c ∈ cs, Follows source es bs c) (hl : layouts (some j) i ds <+: es.drop i)
    (hv : cs.flatMap visited <+: bs.drop (rank es i)) : Followed es bs i (i + sizes ds) := by
  induction h generalizing i with
  | nil => exact .empty (Nat.le_refl i)
  | @child ds cs c _ iha =>
    -- a child on its own is a row of one
    obtain ⟨hlc, hlds⟩ := Rose.layouts_prefix_iff.1 hl
    obtain ⟨hvc, hvcs⟩ := append_prefix_drop.1 hv
    rw [← rank_add_image hlc] at hvcs
    have hl₁ : layouts (some j) i ([c].map (image source)) <+: es.drop i := by
      simpa [layouts] using hlc
    have hv₁ : [c].flatMap visited <+: bs.drop (rank es i) := by simpa using hvc
    have hone := followed_images (fun k e he hp => .parent he hp hd hs) hb
      (fun c' hc' => hcs c' (List.mem_cons.2 (.inl (List.mem_singleton.1 hc'))))
      (fun c' hc' => ih c' (List.mem_cons.2 (.inl (List.mem_singleton.1 hc')))) hl₁ hv₁
    have hrest := iha (fun c' hc' => hcs c' (List.mem_cons_of_mem c hc'))
      (fun c' hc' => ih c' (List.mem_cons_of_mem c hc')) hlds hvcs
    rw [sizes, ← Nat.add_assoc]
    refine Followed.append ?_ hrest
    simpa [sizes] using hone
  | @wrapper ds cs n bs' hn _ iha =>
    -- the wrapper is not counted; its children find the node above it over the wrapper
    obtain ⟨hlw, hlds⟩ := Rose.layouts_prefix_iff.1 hl
    obtain ⟨hrow, hlbs⟩ := Rose.layout_prefix_iff.1 hlw
    rw [List.flatMap_append] at hv
    obtain ⟨hvbs, hvcs⟩ := append_prefix_drop.1 hv
    have hskip : rank es (i + 1) = rank es i := by
      rw [rank_succ hrow]
      simp [genuine, hn]
    rw [← hskip] at hvbs hvcs
    rw [← rank_add_images hlbs] at hvcs
    have hone : Followed es bs i (i + 1) := by
      intro k e hlo hhi he hg
      cases Nat.le_antisymm (Nat.le_of_lt_succ hhi) hlo
      cases hrow.symm.trans he
      simp [genuine, hn] at hg
    have hbelow := followed_images (fun k e he hp => .overWrapper he hp hrow hn rfl hd hs) hb
      (fun c hc => hcs c (List.mem_append_left cs hc))
      (fun c hc => ih c (List.mem_append_left cs hc)) hlbs hvbs
    have hsize : i + (Rose.node n (bs'.map (image source))).size =
        i + 1 + sizes (bs'.map (image source)) := by
      rw [Rose.size]
      omega
    rw [hsize] at hlds
    have hrest := iha (fun c hc => hcs c (List.mem_append_right bs' hc))
      (fun c hc => ih c (List.mem_append_right bs' hc)) hlds hvcs
    rw [sizes, ← Nat.add_assoc, hsize]
    exact (hone.append hbelow).append hrest
  | @inserted ds cs r hr _ iha =>
    obtain ⟨hlr, hlds⟩ := Rose.layouts_prefix_iff.1 hl
    obtain ⟨hnone, hrank⟩ := followed_inserted bs hr hlr
    have hrest := iha hcs ih hlds (by rwa [hrank])
    rw [sizes, ← Nat.add_assoc]
    exact hnone.append hrest

/-- Every node that is not inserted, the uppermost apart, hangs below the one from which the node it
stands for was reached. -/
theorem follows (source : String) (es : List (Entry Canon.Node)) (bs : List Branch) (b : Branch) :
    Follows source es bs b := by
  intro p i hl hv
  have hb := getElem?_of_visited hv
  have ih : ∀ c ∈ onward b, Follows source es bs c := fun c hc => follows source es bs c
  have harranged := arranged_image source b
  cases hr : image source b with
  | node n ds =>
    rw [hr] at hl harranged
    obtain ⟨hrow, hlds⟩ := Rose.layout_prefix_iff.1 hl
    have hn : n.synthetic = false := by
      cases b with
      | node v cs =>
        rw [image] at hr
        cases hr
        rfl
    -- the node itself takes the first of the visited nodes, what is below it the others
    have hrank : rank es (i + 1) = rank es i + 1 := by
      rw [rank_succ hrow]
      simp [genuine, hn]
    rw [visited_eq, ← List.singleton_append, append_prefix_drop, List.length_singleton,
      ← hrank] at hv
    have hbelow := followed_arranged harranged hrow hn hb (fun c hc => hc) ih hlds hv.2
    rwa [Rose.size, Nat.add_comm (sizes ds) 1, ← Nat.add_assoc]
termination_by b.size
decreasing_by exact Rose.size_lt_of_mem_children (mem_of_mem_onward hc)

end CanonTree.Conversion
