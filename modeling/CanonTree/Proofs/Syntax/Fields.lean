import CanonTree.Proofs.Json.Rephrasing
import CanonTree.Syntax.Document.Reader
import Mathlib.Data.List.Forall2

namespace CanonTree.Json

def Lexeme.key? (k : Lexeme) : Option String := k.text.toOption

theorem Lexeme.key?_eq_some {k : Lexeme} {key : String} : k.key? = some key ↔ k.text = .ok key := by
  rw [Lexeme.key?]
  cases k.text <;> simp [Except.toOption]

end CanonTree.Json

namespace CanonTree.Syntax

open Json (Found Legible Lexeme Problem Raw Reader orProblem_eq_ok)
open List (Forall₂)

variable {κ β γ α : Type}

/-- The values that stand under a key, where `name?` says what a key is. -/
def values (name? : κ → Option String) (key : String) (ms : List (κ × β)) : List β :=
  ms.filterMap fun m => if name? m.1 = some key then some m.2 else none

theorem values_cons {name? : κ → Option String} {key : String} (m : κ × β)
    (ms : List (κ × β)) : values name? key (m :: ms) =
      if name? m.1 = some key then m.2 :: values name? key ms else values name? key ms := by
  rw [values, List.filterMap_cons]
  split <;> simp_all [values]

theorem mem_values {name? : κ → Option String} {key : String} {ms : List (κ × β)} {v : β} :
    v ∈ values name? key ms ↔ ∃ m ∈ ms, name? m.1 = some key ∧ m.2 = v := by
  simp [values]

/-- A slot that holds `o` is filled with what is read from the values: it stays as it is if there
are none, and otherwise must be empty and take the only one. -/
inductive Slot (read : β → Except Problem α) : Option α → List β → Option α → Prop where
  | kept (o : Option α) : Slot read o [] o
  | filled {v : β} {x : α} : read v = .ok x → Slot read none [v] (some x)

theorem slot_nil {read : β → Except Problem α} {o o' : Option α} :
    Slot read o [] o' ↔ o = o' := by
  constructor
  · rintro ⟨⟩
    rfl
  · rintro rfl
    exact .kept o

theorem slot_cons {read : β → Except Problem α} {o o' : Option α} {v : β} {vs : List β} :
    Slot read o (v :: vs) o' ↔ o = none ∧ ∃ x, read v = .ok x ∧ Slot read (some x) vs o' := by
  constructor
  · rintro ⟨⟩
    exact ⟨rfl, _, ‹_›, .kept _⟩
  · rintro ⟨rfl, x, hx, ⟨⟩⟩
    exact .filled hx

structure Single (P : β → Prop) (omitted : Prop) (vs : List β) : Prop where
  once : vs.length ≤ 1
  holds : ∀ v ∈ vs, P v
  omitted : vs = [] → omitted

theorem exists_slot {read : β → Except Problem α} {vs : List β} {d x : α} :
    (∃ o, Slot read none vs o ∧ o.getD d = x) ↔ Single (read · = .ok x) (x = d) vs := by
  constructor
  · rintro ⟨o, ⟨⟩, rfl⟩
    · exact ⟨by simp, by simp, by simp⟩
    · exact ⟨by simp, by simpa, by simp⟩
  · rintro ⟨honce, hread, homitted⟩
    match vs with
    | [] => exact ⟨none, .kept none, (homitted rfl).symm⟩
    | [v] => exact ⟨some x, .filled (hread v List.mem_cons_self), rfl⟩
    | _ :: _ :: _ => simp at honce

theorem slot_some {read : β → Except Problem α} {vs : List β} {x : α} :
    Slot read none vs (some x) ↔ Single (read · = .ok x) False vs := by
  constructor
  · rintro ⟨⟩
    exact ⟨by simp, by simpa, by simp⟩
  · rintro ⟨honce, hread, homitted⟩
    match vs with
    | [] => exact (homitted rfl).elim
    | [v] => exact .filled (hread v List.mem_cons_self)
    | _ :: _ :: _ => simp at honce

theorem slot_of_forall₂ {pre : β → Except Problem γ} {read : γ → Except Problem α} {vs : List β}
    {ws : List γ} (h : Forall₂ (fun v w => pre v = .ok w) vs ws) {o o' : Option α} :
    Slot read o ws o' ↔ Slot (fun v => pre v >>= read) o vs o' := by
  induction h generalizing o with
  | nil => simp only [slot_nil]
  | cons hv _ ih => simp only [slot_cons, hv, bind_eq_ok, ih, Except.ok.injEq, exists_eq_left']

theorem unless_eq_ok {c : Prop} [Decidable c] {p : Problem} {f : PUnit → Except Problem α}
    {x : Except Problem α} {a : α} :
    (if c then throw p >>= f else x) = .ok a ↔ ¬ c ∧ x = .ok a := by
  by_cases h : c <;> simp [h, throw, throwThe, MonadExceptOf.throw, bind, Except.bind]

def Attributed (fs : List (String × Found)) (a b : AttrFields) : Prop :=
  Slot Reader.Take.stringOrNull a.token (values some "token" fs) b.token ∧
  Slot Reader.Take.bool a.isStatic (values some "is_static" fs) b.isStatic ∧
  Slot Reader.Take.bool a.isOnDemand (values some "is_on_demand" fs) b.isOnDemand ∧
  Slot Reader.Take.bool a.isInterface (values some "is_interface" fs) b.isInterface ∧
  Slot Reader.Take.bool a.isDefault (values some "is_default" fs) b.isDefault

def attrKeys : List String := attrFields.map (·.name)

theorem takeAttrs_eq_ok {fs : List (String × Found)} {a b : AttrFields} :
    takeAttrs fs a = .ok b ↔ Attributed fs a b := by
  induction fs generalizing a with
  | nil =>
    obtain ⟨t, s, o, i, d⟩ := a
    obtain ⟨t', s', o', i', d'⟩ := b
    simp [takeAttrs, Attributed, values, slot_nil]
  | cons f fs ih =>
    obtain ⟨key, f⟩ := f
    by_cases hkey : key ∈ attrKeys
    · simp only [attrKeys, attrFields, List.map_cons, List.map_nil, List.mem_cons,
        List.not_mem_nil, or_false] at hkey
      rcases hkey with rfl | rfl | rfl | rfl | rfl <;>
        simp [-Bool.exists_bool, takeAttrs, attrFields, unless_eq_ok, bind_eq_ok, ih, Attributed,
          values_cons, slot_cons] <;>
        grind
    · have hfind : attrFields.find? (·.name = key) = none :=
        List.find?_eq_none.2 (by simpa [attrKeys, eq_comm] using hkey)
      simp only [attrKeys, attrFields, List.map_cons, List.map_nil, List.mem_cons,
        List.not_mem_nil, or_false, not_or] at hkey
      rw [takeAttrs, hfind]
      simp [ih, Attributed, values_cons, hkey]

def ownKeys : List String := ["kind", "start", "length", "role", "children"]

/-- The members without a field of their own. -/
def strangers (ms : List (Lexeme × Raw)) : List (Lexeme × Raw) :=
  ms.filter fun m => ∀ key ∈ ownKeys, m.1.key? ≠ some key

theorem strangers_own {m : Lexeme × Raw} {key : String} (hname : m.1.key? = some key)
    (hkey : key ∈ ownKeys) (ms : List (Lexeme × Raw)) : strangers (m :: ms) = strangers ms := by
  rw [strangers, List.filter_cons_of_neg (by simpa [hname] using hkey), strangers]

theorem strangers_other {m : Lexeme × Raw} (hname : ∀ key ∈ ownKeys, m.1.key? ≠ some key)
    (ms : List (Lexeme × Raw)) : strangers (m :: ms) = m :: strangers ms := by
  rw [strangers, List.filter_cons_of_pos (by simpa using hname), strangers]

def Judged (room : Nat) (m : Lexeme × Raw) (f : String × Found) : Prop :=
  m.1.text = .ok f.1 ∧ m.2.checked room = .ok f.2

theorem exists_judged {room : Nat} {ms : List (Lexeme × Raw)} :
    (∃ fs, Forall₂ (Judged room) ms fs) ↔ ∀ m ∈ ms, Legible room m := by
  induction ms with
  | nil => simp
  | cons m ms ih => simp [List.forall₂_cons_left_iff, ih, Legible, Judged]

/-- What stands under a key without a field of its own, before and after it is judged. -/
theorem values_judged {room : Nat} {ms : List (Lexeme × Raw)} {fs : List (String × Found)}
    (h : Forall₂ (Judged room) (strangers ms) fs) {key : String} (hkey : key ∉ ownKeys) :
    Forall₂ (fun v f => v.checked room = .ok f) (values Lexeme.key? key ms)
      (values some key fs) := by
  induction ms generalizing fs with
  | nil =>
    cases h
    exact .nil
  | cons m ms ih =>
    -- A member that is no stranger has another key than this one, which is no own key.
    by_cases hname : ∃ own ∈ ownKeys, m.1.key? = some own
    · obtain ⟨own, hown, hname⟩ := hname
      have hne : m.1.key? ≠ some key := by
        rw [hname]
        rintro ⟨⟩
        exact hkey hown
      rw [strangers_own hname hown] at h
      rw [values_cons, if_neg hne]
      exact ih h
    · rw [strangers_other fun own hown heq => hname ⟨own, hown, heq⟩] at h
      cases h with
      | @cons _ f _ fs hf hfs =>
        have hname : m.1.key? = some f.1 := Lexeme.key?_eq_some.2 hf.1
        rw [values_cons, values_cons, hname]
        split
        · exact .cons hf.2 (ih hfs)
        · exact ih hfs

theorem once_eq_ok {key : String} {isSet : Bool} : once key isSet = .ok () ↔ isSet = false := by
  cases isSet <;> simp [once]

theorem readFields_eq_ok {room : Nat} {ms : List (Lexeme × Raw)} {f g : NodeFields} :
    readFields room ms f = .ok g ↔
      Slot (·.found >>= Reader.Take.string) f.kind (values Lexeme.key? "kind" ms) g.kind ∧
      Slot (·.found >>= Reader.Take.int32) f.start (values Lexeme.key? "start" ms) g.start ∧
      Slot (·.found >>= Reader.Take.int32) f.length (values Lexeme.key? "length" ms) g.length ∧
      Slot (Role.read room) f.role (values Lexeme.key? "role" ms) g.role ∧
      Slot (readChildren room) f.children (values Lexeme.key? "children" ms) g.children ∧
      ∃ fs, Forall₂ (Judged room) (strangers ms) fs ∧ g.others = fs.reverse ++ f.others := by
  induction ms generalizing f with
  | nil =>
    obtain ⟨k, s, l, r, c, o⟩ := f
    obtain ⟨k', s', l', r', c', o'⟩ := g
    simp [readFields, values, slot_nil, strangers, eq_comm]
  | cons m ms ih =>
    obtain ⟨k, v⟩ := m
    cases hk : k.text with
    | error p =>
      have hname : k.key? = none := by simp [Lexeme.key?, hk, Except.toOption]
      rw [strangers_other (by simp [hname])]
      simp [readFields, bind_eq_ok, hk, Judged, List.forall₂_cons_left_iff]
    | ok key =>
      have hname : k.key? = some key := Lexeme.key?_eq_some.2 hk
      by_cases hkey : key ∈ ownKeys
      · rw [strangers_own hname hkey]
        simp only [ownKeys, List.mem_cons, List.not_mem_nil, or_false] at hkey
        rcases hkey with rfl | rfl | rfl | rfl | rfl <;>
          simp [readFields, hk, bind_eq_ok, once_eq_ok, Unique.exists_iff, ih, values_cons, hname,
            slot_cons] <;>
          grind
      · have hother : ∀ own ∈ ownKeys, k.key? ≠ some own := fun own hown heq =>
          hkey (Option.some.inj (hname.symm.trans heq) ▸ hown)
        rw [strangers_other hother]
        simp only [ownKeys, List.mem_cons, List.not_mem_nil, or_false, not_or] at hkey
        simp [readFields, hk, bind_eq_ok, ih, values_cons, hname, hkey, Judged,
          List.forall₂_cons_left_iff]
        grind

/-- The members describe something: each tells what it has under its key, none of the keys stands
there twice, and it has what is meant by those that do not stand there. -/
structure Described (tells : String → Raw → Prop) (omitted : String → Prop) (keys : List String)
    (ms : List (Lexeme × Raw)) : Prop where
  tells : ∀ m ∈ ms, ∃ key, m.1.text = .ok key ∧ tells key m.2
  once : ∀ key ∈ keys, (values Lexeme.key? key ms).length ≤ 1
  omitted : ∀ key ∈ keys, values Lexeme.key? key ms = [] → omitted key

theorem described_iff {tells : String → Raw → Prop} {omitted : String → Prop} {keys : List String}
    {ms : List (Lexeme × Raw)} : Described tells omitted keys ms ↔
      (∀ m ∈ ms, ∃ key, m.1.text = .ok key ∧ (key ∉ keys → tells key m.2)) ∧
      ∀ key ∈ keys, Single (tells key) (omitted key) (values Lexeme.key? key ms) := by
  constructor
  · rintro ⟨htells, honce, homitted⟩
    refine ⟨fun m hm => ?_, fun key hkey => ⟨honce key hkey, fun v hv => ?_, homitted key hkey⟩⟩
    · obtain ⟨key, hk, h⟩ := htells m hm
      exact ⟨key, hk, fun _ => h⟩
    · obtain ⟨m, hm, hname, rfl⟩ := mem_values.1 hv
      obtain ⟨key', hk, h⟩ := htells m hm
      cases hk.symm.trans (Lexeme.key?_eq_some.1 hname)
      exact h
  · rintro ⟨hothers, hkeys⟩
    refine ⟨fun m hm => ?_, fun key hkey => (hkeys key hkey).once,
      fun key hkey => (hkeys key hkey).omitted⟩
    obtain ⟨key, hk, hother⟩ := hothers m hm
    by_cases hkey : key ∈ keys
    · have hv := mem_values.2 ⟨m, hm, Lexeme.key?_eq_some.2 hk, rfl⟩
      exact ⟨key, hk, (hkeys key hkey).holds m.2 hv⟩
    · exact ⟨key, hk, hother hkey⟩

def nodeKeys : List String := ownKeys ++ attrKeys

/-- What a member says about a node; under other keys it only must be legible. -/
def Tells (room : Nat) (d : DocNode) (cs : List (Rose DocNode)) (key : String) (v : Raw) : Prop :=
  match key with
  | "kind" => (v.found >>= Reader.Take.string) = .ok d.kind
  | "start" => (v.found >>= Reader.Take.int32) = .ok d.span.start
  | "length" => (v.found >>= Reader.Take.int32) = .ok d.span.length
  | "role" => Role.read room v = .ok d.role
  | "children" => readChildren room v = .ok cs
  | "token" => (v.checked room >>= Reader.Take.stringOrNull) = .ok d.attrs.token
  | "is_static" => (v.checked room >>= Reader.Take.bool) = .ok d.attrs.isStatic
  | "is_on_demand" => (v.checked room >>= Reader.Take.bool) = .ok d.attrs.isOnDemand
  | "is_interface" => (v.checked room >>= Reader.Take.bool) = .ok d.attrs.isInterface
  | "is_default" => (v.checked room >>= Reader.Take.bool) = .ok d.attrs.isDefault
  | _ => ∃ f, v.checked room = .ok f

theorem tells_other {room : Nat} {d : DocNode} {cs : List (Rose DocNode)} {key : String} {v : Raw}
    (hkey : key ∉ nodeKeys) : Tells room d cs key v ↔ ∃ f, v.checked room = .ok f := by
  rw [Tells] <;> rintro rfl <;> exact hkey (by decide)

theorem Tells.checked {room : Nat} {d : DocNode} {cs : List (Rose DocNode)} {key : String} {v : Raw}
    (h : Tells room d cs key v) (hkey : key ∉ ownKeys) : ∃ f, v.checked room = .ok f := by
  rw [Tells.eq_def] at h
  split at h <;> simp_all [ownKeys, bind_eq_ok] <;> grind

def Omitted (d : DocNode) (cs : List (Rose DocNode)) (key : String) : Prop :=
  match key with
  | "kind" => False
  | "start" => d.span.start = -1
  | "length" => d.span.length = -1
  | "role" => d.role = .other
  | "children" => cs = []
  | "token" => d.attrs.token = none
  | "is_static" => d.attrs.isStatic = false
  | "is_on_demand" => d.attrs.isOnDemand = false
  | "is_interface" => d.attrs.isInterface = false
  | "is_default" => d.attrs.isDefault = false
  | _ => True

theorem finish_eq_ok {f : NodeFields} {d : DocNode} {cs : List (Rose DocNode)} :
    f.finish = .ok (.node d cs) ↔ f.kind = some d.kind ∧ f.start.getD (-1) = d.span.start ∧
      f.length.getD (-1) = d.span.length ∧ f.role.getD .other = d.role ∧ f.children.getD [] = cs ∧
      ∃ a, takeAttrs f.others.reverse {} = .ok a ∧ a.attrs = d.attrs := by
  obtain ⟨kind, ⟨start, length⟩, role, attrs⟩ := d
  cases hkind : f.kind with
  | none => simp [NodeFields.finish, hkind, Json.present, bind, Except.bind]
  | some k =>
    simp [NodeFields.finish, hkind, Json.present, bind_eq_ok, pure, Except.pure]
    grind

theorem single_attr {room : Nat} {ms : List (Lexeme × Raw)} {fs : List (String × Found)}
    (h : Forall₂ (Judged room) (strangers ms) fs) {key : String} (hkey : key ∉ ownKeys)
    {take : Found → Except Problem α} {d x : α} :
    (∃ o, Slot take none (values some key fs) o ∧ o.getD d = x) ↔
      Single (fun v => (v.checked room >>= take) = .ok x) (x = d) (values Lexeme.key? key ms) := by
  simp only [slot_of_forall₂ (values_judged h hkey)]
  exact exists_slot

theorem AttrFields.attrs_eq {a : AttrFields} {attrs : Attrs} : a.attrs = attrs ↔
    a.token.getD none = attrs.token ∧ a.isStatic.getD false = attrs.isStatic ∧
      a.isOnDemand.getD false = attrs.isOnDemand ∧ a.isInterface.getD false = attrs.isInterface ∧
      a.isDefault.getD false = attrs.isDefault := by
  have htoken : a.token.join = a.token.getD none := by cases a.token <;> rfl
  obtain ⟨t, s, o, i, d⟩ := attrs
  rw [AttrFields.attrs, htoken, Attrs.mk.injEq]

theorem exists_attributed {room : Nat} {ms : List (Lexeme × Raw)} {fs : List (String × Found)}
    (h : Forall₂ (Judged room) (strangers ms) fs) {d : DocNode} {cs : List (Rose DocNode)} :
    (∃ a, takeAttrs fs {} = .ok a ∧ a.attrs = d.attrs) ↔ ∀ key ∈ attrKeys,
      Single (Tells room d cs key) (Omitted d cs key) (values Lexeme.key? key ms) := by
  simp only [attrKeys, attrFields, List.map_cons, List.map_nil, List.forall_mem_cons,
    List.not_mem_nil, false_implies, implies_true, and_true]
  constructor
  · rintro ⟨a, ha, hattrs⟩
    obtain ⟨ht, hs, ho, hi, hd⟩ := takeAttrs_eq_ok.1 ha
    obtain ⟨ht', hs', ho', hi', hd'⟩ := AttrFields.attrs_eq.1 hattrs
    exact ⟨(single_attr h (by decide)).1 ⟨_, ht, ht'⟩, (single_attr h (by decide)).1 ⟨_, hs, hs'⟩,
      (single_attr h (by decide)).1 ⟨_, ho, ho'⟩, (single_attr h (by decide)).1 ⟨_, hi, hi'⟩,
      (single_attr h (by decide)).1 ⟨_, hd, hd'⟩⟩
  · rintro ⟨ht, hs, ho, hi, hd⟩
    obtain ⟨t, ht, ht'⟩ := (single_attr h (by decide)).2 ht
    obtain ⟨s, hs, hs'⟩ := (single_attr h (by decide)).2 hs
    obtain ⟨o, ho, ho'⟩ := (single_attr h (by decide)).2 ho
    obtain ⟨i, hi, hi'⟩ := (single_attr h (by decide)).2 hi
    obtain ⟨f, hf, hf'⟩ := (single_attr h (by decide)).2 hd
    exact ⟨⟨t, s, o, i, f⟩, takeAttrs_eq_ok.2 ⟨ht, hs, ho, hi, hf⟩,
      AttrFields.attrs_eq.2 ⟨ht', hs', ho', hi', hf'⟩⟩

theorem readFields_finish {room : Nat} {ms : List (Lexeme × Raw)} {d : DocNode}
    {cs : List (Rose DocNode)} : (readFields room ms {} >>= fun f => f.finish) = .ok (.node d cs) ↔
      (∀ m ∈ strangers ms, Legible room m) ∧ ∀ key ∈ nodeKeys,
        Single (Tells room d cs key) (Omitted d cs key) (values Lexeme.key? key ms) := by
  rw [nodeKeys, List.forall_mem_append]
  simp only [ownKeys, List.forall_mem_cons, List.not_mem_nil, false_implies, implies_true, and_true,
    bind_eq_ok, readFields_eq_ok, finish_eq_ok]
  constructor
  · rintro ⟨f, ⟨hk, hs, hl, hr, hc, fs, hfs, hothers⟩, hk', hs', hl', hr', hc', hattrs⟩
    rw [hk'] at hk
    rw [hothers, List.append_nil, List.reverse_reverse] at hattrs
    exact ⟨exists_judged.1 ⟨fs, hfs⟩, ⟨slot_some.1 hk, exists_slot.1 ⟨_, hs, hs'⟩,
      exists_slot.1 ⟨_, hl, hl'⟩, exists_slot.1 ⟨_, hr, hr'⟩, exists_slot.1 ⟨_, hc, hc'⟩⟩,
      (exists_attributed hfs).1 hattrs⟩
  · rintro ⟨hlegible, ⟨hk, hs, hl, hr, hc⟩, hattrs⟩
    obtain ⟨fs, hfs⟩ := exists_judged.2 hlegible
    obtain ⟨s, hs, hs'⟩ := exists_slot.2 hs
    obtain ⟨l, hl, hl'⟩ := exists_slot.2 hl
    obtain ⟨r, hr, hr'⟩ := exists_slot.2 hr
    obtain ⟨c, hc, hc'⟩ := exists_slot.2 hc
    have hattrs := (exists_attributed hfs).2 hattrs
    rw [← List.reverse_reverse fs] at hattrs
    exact ⟨⟨some d.kind, s, l, r, c, fs.reverse⟩,
      ⟨slot_some.2 hk, hs, hl, hr, hc, fs, hfs, by simp⟩, rfl, hs', hl', hr', hc', hattrs⟩

theorem mem_strangers {m : Lexeme × Raw} {ms : List (Lexeme × Raw)} :
    m ∈ strangers ms ↔ m ∈ ms ∧ ∀ key ∈ ownKeys, m.1.key? ≠ some key := by
  simp [strangers]

theorem described_node {room : Nat} {ms : List (Lexeme × Raw)} {d : DocNode}
    {cs : List (Rose DocNode)} : Described (Tells room d cs) (Omitted d cs) nodeKeys ms ↔
      (∀ m ∈ strangers ms, Legible room m) ∧ ∀ key ∈ nodeKeys,
        Single (Tells room d cs key) (Omitted d cs key) (values Lexeme.key? key ms) := by
  constructor
  · intro h
    refine ⟨fun m hm => ?_, (described_iff.1 h).2⟩
    obtain ⟨hm, hother⟩ := mem_strangers.1 hm
    obtain ⟨key, hk, htells⟩ := h.tells m hm
    exact ⟨⟨key, hk⟩, htells.checked fun hkey => hother key hkey (Lexeme.key?_eq_some.2 hk)⟩
  · rintro ⟨hlegible, hkeys⟩
    refine described_iff.2 ⟨fun m hm => ?_, hkeys⟩
    by_cases hother : m ∈ strangers ms
    · obtain ⟨⟨key, hk⟩, hv⟩ := hlegible m hother
      exact ⟨key, hk, fun hkey => (tells_other hkey).2 hv⟩
    · obtain ⟨key, hown, hname⟩ : ∃ key ∈ ownKeys, m.1.key? = some key := by
        simpa [mem_strangers, hm] using hother
      exact ⟨key, Lexeme.key?_eq_some.1 hname,
        fun hkey => absurd (List.mem_append_left attrKeys hown) hkey⟩

/-- An object is a node if its members describe it and nothing is wrong behind them. -/
theorem readNode_eq_ok {room : Nat} {ms : List (Lexeme × Raw)} {e : Json.Ending} {d : DocNode}
    {cs : List (Rose DocNode)} : readNode room (.object ms e) = .ok (.node d cs) ↔
      room ≠ 0 ∧ e.problem? = none ∧
      Described (Tells (room - 1) d cs) (Omitted d cs) nodeKeys ms := by
  simp only [readNode, unless_eq_ok, bind_eq_ok, Unique.exists_iff, PUnit.default_eq_unit,
    orProblem_eq_ok, described_node, ← readFields_finish]
  grind

namespace Document

def keys : List String := ["source", "root"]

def Tells (room : Nat) (d : Document) (key : String) (v : Raw) : Prop :=
  match key with
  | "source" => (v.found >>= Reader.Take.string) = .ok d.source
  | "root" => readNode room v = .ok d.root
  | _ => v.Whole

def Omitted (d : Document) (key : String) : Prop :=
  match key with
  | "source" => d.source = ""
  | "root" => False
  | _ => True

theorem tells_other {room : Nat} {d : Document} {key : String} {v : Raw} (hkey : key ∉ keys) :
    Tells room d key v ↔ v.Whole := by
  rw [Tells] <;> rintro rfl <;> exact hkey (by decide)

theorem readMembers_eq_ok {room : Nat} {ms : List (Lexeme × Raw)} {p q : DocumentFields} :
    documentRecord.readMembers room ms p = .ok q ↔
      (∀ m ∈ ms, ∃ key, m.1.text = .ok key ∧ (key ∉ keys → m.2.Whole)) ∧
      Slot (·.found >>= Reader.Take.string) p.source (values Lexeme.key? "source" ms) q.source ∧
      Slot (readNode room) p.root (values Lexeme.key? "root" ms) q.root := by
  induction ms generalizing p with
  | nil =>
    obtain ⟨s, r⟩ := p
    obtain ⟨s', r'⟩ := q
    simp [Json.Record.readMembers, values, slot_nil]
  | cons m ms ih =>
    obtain ⟨k, v⟩ := m
    rw [List.forall_mem_cons, Json.Record.readMembers, values_cons, values_cons]
    cases hk : k.text with
    | error e => simp [bind, Except.bind]
    | ok key =>
      have hname : k.key? = some key := Lexeme.key?_eq_some.2 hk
      by_cases hkey : key ∈ keys
      · simp only [keys, List.mem_cons, List.not_mem_nil, or_false] at hkey
        rcases hkey with rfl | rfl <;>
          refine unless_eq_ok.trans ?_ <;>
          simp [bind_eq_ok, ih, hname, slot_cons, keys] <;>
          grind
      · have hfind : documentRecord.fields.find? (·.name = key) = none :=
          List.find?_eq_none.2 (by simpa [documentRecord, keys, eq_comm] using hkey)
        simp only [keys, List.mem_cons, List.not_mem_nil, or_false, not_or] at hkey
        simp [hfind, bind_eq_ok, Unique.exists_iff, Raw.skim_eq_ok, ih, hname, hkey, keys,
          and_assoc]

theorem finish_eq_ok {q : DocumentFields} {d : Document} : documentRecord.finish q = .ok d ↔
    q.source.getD "" = d.source ∧ q.root = some d.root := by
  obtain ⟨source, root⟩ := q
  obtain ⟨source', root'⟩ := d
  cases root <;> simp [documentRecord, Json.present, bind, Except.bind, pure, Except.pure]

theorem readMembers_finish {room : Nat} {ms : List (Lexeme × Raw)} {d : Document} :
    (documentRecord.readMembers room ms documentRecord.start >>= documentRecord.finish) = .ok d ↔
      Described (Tells room d) d.Omitted keys ms := by
  rw [described_iff, bind_eq_ok]
  simp only [readMembers_eq_ok, finish_eq_ok]
  constructor
  · rintro ⟨q, ⟨hothers, hs, hr⟩, hs', hr'⟩
    rw [hr'] at hr
    refine ⟨fun m hm => ?_, ?_⟩
    · obtain ⟨key, hk, hother⟩ := hothers m hm
      exact ⟨key, hk, fun hkey => (tells_other hkey).2 (hother hkey)⟩
    · simp only [keys, List.forall_mem_cons, List.not_mem_nil, false_implies, implies_true,
        and_true]
      exact ⟨exists_slot.1 ⟨_, hs, hs'⟩, slot_some.1 hr⟩
  · rintro ⟨hothers, hkeys⟩
    simp only [keys, List.forall_mem_cons, List.not_mem_nil, false_implies, implies_true,
      and_true] at hkeys
    obtain ⟨s, hs, hs'⟩ := exists_slot.2 hkeys.1
    refine ⟨⟨s, some d.root⟩, ⟨fun m hm => ?_, hs, slot_some.2 hkeys.2⟩, hs', rfl⟩
    obtain ⟨key, hk, hother⟩ := hothers m hm
    exact ⟨key, hk, fun hkey => (tells_other hkey).1 (hother hkey)⟩

theorem read_object {room : Nat} {ms : List (Lexeme × Raw)} {e : Json.Ending} {d : Document} :
    documentRecord.read room (.object ms e) = .ok d ↔
      room ≠ 0 ∧ e.problem? = none ∧ Described (Tells (room - 1) d) d.Omitted keys ms := by
  refine unless_eq_ok.trans ?_
  simp only [← readMembers_finish, bind_eq_ok, Unique.exists_iff, PUnit.default_eq_unit,
    orProblem_eq_ok]
  grind

theorem readEnd_eq_ok {vs : List Raw} {e : Json.Ending} :
    Json.Record.readEnd vs e = .ok () ↔ vs = [] ∧ e = .closed := by
  cases vs <;> cases e <;> simp [Json.Record.readEnd]

theorem read_array {room : Nat} {vs : List Raw} {e : Json.Ending} {d : Document} :
    documentRecord.read room (.array vs e) = .ok d ↔ room ≠ 0 ∧ e = .closed ∧ ∃ s r, vs = [s, r] ∧
      (s.found >>= Reader.Take.string) = .ok d.source ∧ readNode (room - 1) r = .ok d.root := by
  obtain ⟨source, root⟩ := d
  refine unless_eq_ok.trans (and_congr Iff.rfl ?_)
  match vs with
  | [] =>
    cases hend : e.problem? <;>
      simp [documentRecord, Json.Record.readItems, hend, Json.orProblem, throw, throwThe,
        MonadExceptOf.throw, bind, Except.bind]
  | [s] =>
    simp [documentRecord, Json.Record.readItems, bind_eq_ok, throw, throwThe, MonadExceptOf.throw]
  | s :: r :: vs =>
    simp [documentRecord, Json.Record.readItems, bind_eq_ok, Unique.exists_iff, readEnd_eq_ok,
      Json.present, pure, Except.pure]
    grind

end Document

end CanonTree.Syntax
