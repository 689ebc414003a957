import CanonTree.Proofs.Json.Grammar
import Mathlib.Data.List.TakeWhile

namespace CanonTree.Json

inductive Token where
  | fixed (c : Char) (cs : List Char)
  | number (n : Numeral)
  | string (ps : List Piece)

def Token.Spelled : Token → List Char → Prop
  | fixed c w, cs => cs = c :: w
  | number n, cs => n.Spelled cs
  | string ps, cs => ∃ body, Piece.Spelling ps body ∧ cs = '"' :: (body ++ ['"'])

def Blank (cs : List Char) : Prop := ∀ c ∈ cs, isSpace c

/-- The text consists of the tokens, each with any blanks before it. -/
inductive Spaced : List Token → List Char → Prop where
  | nil : Spaced [] []
  | cons {t : Token} {ts : List Token} {s a b : List Char} : Blank s → t.Spelled a → Spaced ts b →
      Spaced (t :: ts) (s ++ (a ++ b))

namespace Raw

mutual
/-- Nothing is missing and nothing stands where it must not. -/
def Whole : Raw → Prop
  | null | bool _ | number _ => True
  | string l => l.stop = none
  | array vs e => WholeItems vs ∧ e = .closed
  | object ms e => WholeMembers ms ∧ e = .closed
  | absent | junk | badWord _ | badNumber _ => False

def WholeItems : List Raw → Prop
  | [] => True
  | v :: vs => v.Whole ∧ WholeItems vs

def WholeMembers : List (Lexeme × Raw) → Prop
  | [] => True
  | (k, v) :: ms => (k.stop = none ∧ v.Whole) ∧ WholeMembers ms
end

mutual
def tokens : Raw → List Token
  | null => [.fixed 'n' ['u', 'l', 'l']]
  | bool true => [.fixed 't' ['r', 'u', 'e']]
  | bool false => [.fixed 'f' ['a', 'l', 's', 'e']]
  | number n => [.number n]
  | string l => [.string l.pieces]
  | array vs _ => .fixed '[' [] :: (itemTokens vs ++ [.fixed ']' []])
  | object ms _ => .fixed '\x7b' [] :: (memberTokens ms ++ [.fixed '\x7d' []])
  | absent | junk | badWord _ | badNumber _ => []

def itemTokens : List Raw → List Token
  | [] => []
  | v :: vs => v.tokens ++ laterItems vs

def laterItems : List Raw → List Token
  | [] => []
  | v :: vs => .fixed ',' [] :: (v.tokens ++ laterItems vs)

def memberTokens : List (Lexeme × Raw) → List Token
  | [] => []
  | (k, v) :: ms => .string k.pieces :: .fixed ':' [] :: (v.tokens ++ laterMembers ms)

def laterMembers : List (Lexeme × Raw) → List Token
  | [] => []
  | (k, v) :: ms =>
    .fixed ',' [] :: .string k.pieces :: .fixed ':' [] :: (v.tokens ++ laterMembers ms)
end

end Raw

theorem skipSpace_cons {c : Char} (cs : List Char) (h : isSpace c = false) :
    skipSpace (c :: cs) = c :: cs := by
  simp [skipSpace, h]

theorem skipSpace_append {s : List Char} (h : Blank s) (cs : List Char) :
    skipSpace (s ++ cs) = skipSpace cs := by
  induction s with
  | nil => rfl
  | cons c s ih =>
    have hc := h c List.mem_cons_self
    have hs := ih fun d hd => h d (List.mem_cons_of_mem c hd)
    simpa [skipSpace, hc] using hs

theorem exists_blank (cs : List Char) : ∃ s, Blank s ∧ cs = s ++ skipSpace cs := by
  refine ⟨cs.takeWhile isSpace, fun c hc => List.mem_takeWhile_imp hc, ?_⟩
  exact (List.takeWhile_append_dropWhile).symm

namespace Spaced

theorem append {ts us : List Token} {a b : List Char} (h : Spaced ts a) (hu : Spaced us b) :
    Spaced (ts ++ us) (a ++ b) := by
  induction h with
  | nil => exact hu
  | cons hs ht _ ih =>
    rw [List.append_assoc, List.append_assoc]
    exact .cons hs ht ih

theorem split {ts us : List Token} {cs : List Char} (h : Spaced (ts ++ us) cs) :
    ∃ a b, cs = a ++ b ∧ Spaced ts a ∧ Spaced us b := by
  induction ts generalizing cs with
  | nil => exact ⟨[], cs, rfl, .nil, h⟩
  | cons t ts ih =>
    cases h with
    | cons hs ht h =>
      obtain ⟨a, b, rfl, ha, hb⟩ := ih h
      exact ⟨_, b, by simp, .cons hs ht ha, hb⟩

theorem blank_append {ts : List Token} (hts : ts ≠ []) {s cs : List Char} (hs : Blank s)
    (h : Spaced ts cs) : Spaced ts (s ++ cs) := by
  cases h with
  | nil => exact absurd rfl hts
  | @cons _ _ s' a b hs' ht h =>
    have hblank : Blank (s ++ s') := by
      intro c hc
      rcases List.mem_append.1 hc with hc | hc
      · exact hs c hc
      · exact hs' c hc
    rw [← List.append_assoc]
    exact .cons hblank ht h

theorem first {t : Token} {ts : List Token} {a b : List Char} (ht : t.Spelled a)
    (h : Spaced ts b) : Spaced (t :: ts) (a ++ b) :=
  .cons (s := []) nofun ht h

theorem fixed {ts : List Token} {c : Char} {w cs : List Char} (h : Spaced ts cs) :
    Spaced (.fixed c w :: ts) (c :: (w ++ cs)) :=
  .first (t := .fixed c w) (a := c :: w) rfl h

end Spaced

theorem Token.Spelled.ne_nil {t : Token} {cs : List Char} (h : t.Spelled cs) : cs ≠ [] := by
  cases t with
  | fixed c w =>
    rw [show cs = c :: w from h]
    exact List.cons_ne_nil c w
  | number n =>
    obtain ⟨body, ⟨⟨hne, -⟩, -, f, e, -, -, rfl⟩, rfl⟩ := h
    simp [digitText, hne]
  | string ps =>
    obtain ⟨body, -, rfl⟩ := h
    exact List.cons_ne_nil _ _

theorem Spaced.length_le {ts : List Token} {cs : List Char} (h : Spaced ts cs) :
    ts.length ≤ cs.length := by
  induction h with
  | nil => exact Nat.le_refl 0
  | cons _ ht _ ih =>
    have hpos := List.length_pos_iff.2 ht.ne_nil
    simp only [List.length_cons, List.length_append]
    omega

theorem Spaced.mark {c : Char} {ts : List Token} {s cs : List Char} (hs : Blank s)
    (h : Spaced ts cs) : Spaced (.fixed c [] :: ts) (s ++ c :: cs) :=
  .cons (a := [c]) hs rfl h

theorem Spaced.cons_inv {t : Token} {ts : List Token} {cs : List Char} (h : Spaced (t :: ts) cs) :
    ∃ s a b, Blank s ∧ t.Spelled a ∧ Spaced ts b ∧ cs = s ++ (a ++ b) := by
  cases h with
  | cons hs ht h => exact ⟨_, _, _, hs, ht, h, rfl⟩

theorem readValue_append {s : List Char} (hs : Blank s) (n : Nat) (cs : List Char) :
    readValue (n + 1) (s ++ cs) = readValue (n + 1) cs := by
  rw [readValue, readValue, skipSpace_append hs]

theorem digitChar_plain : ∀ d < 10, isSpace d.digitChar = false ∧
    d.digitChar ∉ ['n', 't', 'f', '"', '-', '[', ']', '\x7b'] := by
  decide

/-- What a value begins with is neither a blank nor a closing bracket. -/
theorem exists_first_token {v : Raw} (hv : v.Whole) :
    ∃ t ts, v.tokens = t :: ts ∧ ∀ a, t.Spelled a →
      ∃ c b, a = c :: b ∧ isSpace c = false ∧ c ≠ ']' := by
  have hfixed : ∀ c w, isSpace c = false → c ≠ ']' → ∀ a, (Token.fixed c w).Spelled a →
      ∃ c b, a = c :: b ∧ isSpace c = false ∧ c ≠ ']' :=
    fun c w hs hc a ha => ⟨c, w, ha, hs, hc⟩
  cases v with
  | absent => exact hv.elim
  | junk => exact hv.elim
  | badWord p => exact hv.elim
  | badNumber cut => exact hv.elim
  | null => exact ⟨_, _, rfl, hfixed _ _ rfl (by decide)⟩
  | bool b => cases b <;> exact ⟨_, _, rfl, hfixed _ _ rfl (by decide)⟩
  | array vs e => exact ⟨_, _, rfl, hfixed _ _ rfl (by decide)⟩
  | object ms e => exact ⟨_, _, rfl, hfixed _ _ rfl (by decide)⟩
  | string l =>
    refine ⟨_, _, rfl, fun a ha => ?_⟩
    obtain ⟨body, -, rfl⟩ := ha
    exact ⟨_, _, rfl, rfl, by decide⟩
  | number n =>
    refine ⟨_, _, rfl, fun a ha => ?_⟩
    obtain ⟨body, ⟨hwhole, -, f, e, -, -, rfl⟩, rfl⟩ := ha
    obtain ⟨d, ds, hds⟩ := List.exists_cons_of_ne_nil hwhole.1
    rw [hds] at hwhole ⊢
    obtain ⟨hspace, hplain⟩ := digitChar_plain d (hwhole.2 d List.mem_cons_self)
    cases n.negative with
    | true => exact ⟨_, _, rfl, rfl, by decide⟩
    | false => exact ⟨_, _, rfl, hspace, fun hc => hplain (by simp [hc])⟩

theorem tokens_ne_nil {v : Raw} (hv : v.Whole) : v.tokens ≠ [] := by
  obtain ⟨t, ts, ht, -⟩ := exists_first_token hv
  rw [ht]
  exact List.cons_ne_nil t ts

theorem exists_first {v : Raw} (hv : v.Whole) {cs : List Char} (h : Spaced v.tokens cs) :
    ∃ s c b, Blank s ∧ cs = s ++ c :: b ∧ isSpace c = false ∧ c ≠ ']' ∧
      Spaced v.tokens (c :: b) := by
  obtain ⟨t, ts, hv, hfirst⟩ := exists_first_token hv
  rw [hv] at h ⊢
  obtain ⟨s, a, b, hs, ht, hts, rfl⟩ := h.cons_inv
  obtain ⟨c, w, rfl, hspace, hbracket⟩ := hfirst a ht
  refine ⟨s, c, w ++ b, hs, rfl, hspace, hbracket, ?_⟩
  exact .first ht hts

theorem ends_of_spaced {c : Char} {w : List Char} {ts : List Token} {cs : List Char}
    (hc : c = ',' ∨ c = ']' ∨ c = '\x7d') (h : Spaced (.fixed c w :: ts) cs) (rest : List Char) :
    Ends (cs ++ rest) := by
  obtain ⟨s, a, b, hs, rfl, -, rfl⟩ := h.cons_inv
  intro d hd
  rcases s with _ | ⟨d', s⟩
  · cases hd
    exact Or.inr hc
  · cases hd
    exact Or.inl (hs d List.mem_cons_self)

theorem readValue_digit {d : Nat} (hd : d < 10) (n : Nat) (cs : List Char) :
    readValue (n + 1) (d.digitChar :: cs) = readNumber false (d.digitChar :: cs) := by
  have hdigit := digit?_digitChar hd
  obtain ⟨hspace, hplain⟩ := digitChar_plain d hd
  rw [readValue, skipSpace_cons cs hspace]
  generalize d.digitChar = c at hdigit hplain ⊢
  split <;> simp_all

theorem readValue_number {m : Numeral} {cs rest : List Char} (h : m.Spelled cs) (n : Nat)
    (hrest : Ends rest) : readValue (n + 1) (cs ++ rest) = (.number m, rest) := by
  obtain ⟨body, hbody, rfl⟩ := h
  have hread := readNumber_unsigned hbody hrest
  cases hneg : m.negative with
  | true =>
    rw [hneg] at hread
    exact hread
  | false =>
    obtain ⟨hwhole, -, f, e, -, -, rfl⟩ := hbody
    obtain ⟨d, ds, hds⟩ := List.exists_cons_of_ne_nil hwhole.1
    rw [hneg] at hread
    rw [hds] at hwhole hread ⊢
    exact (readValue_digit (hwhole.2 d List.mem_cons_self) n _).trans hread

theorem readValue_items {c : Char} {s cs : List Char} (hs : Blank s) (hspace : isSpace c = false)
    (hc : c ≠ ']') (n : Nat) : readValue (n + 1) ('[' :: (s ++ c :: cs)) =
      (.array (readItems n (c :: cs)).1 (readItems n (c :: cs)).2.1,
        (readItems n (c :: cs)).2.2) := by
  rw [readValue, skipSpace_cons _ rfl]
  simp only [skipSpace_append hs, skipSpace_cons cs hspace]
  split <;> simp_all

theorem readItems_last {n : Nat} {s cs rest : List Char} {r : Raw} (hs : Blank s)
    (h : readValue n cs = (r, s ++ ']' :: rest)) :
    readItems (n + 1) cs = ([r], .closed, rest) := by
  rw [readItems, h]
  simp only [skipSpace_append hs, skipSpace_cons rest (c := ']') rfl]

theorem readItems_comma {n : Nat} {c : Char} {s s' cs rest : List Char} {r : Raw} (hs : Blank s)
    (hs' : Blank s') (h : readValue n cs = (r, s ++ ',' :: (s' ++ c :: rest)))
    (hspace : isSpace c = false) (hc : c ≠ ']') :
    readItems (n + 1) cs =
      (r :: (readItems n (c :: rest)).1, (readItems n (c :: rest)).2.1,
        (readItems n (c :: rest)).2.2) := by
  rw [readItems, h]
  simp only [skipSpace_append hs, skipSpace_cons _ (c := ',') rfl, skipSpace_append hs',
    skipSpace_cons rest hspace]
  split <;> simp_all

theorem readMembers_last {n : Nat} {ps : List Piece} {body s s' cs rest : List Char} {r : Raw}
    (hbody : Piece.Spelling ps body) (hs : Blank s) (hs' : Blank s')
    (h : readValue n cs = (r, s' ++ '\x7d' :: rest)) :
    readMembers (n + 1) (body ++ '"' :: (s ++ ':' :: cs)) = ([(⟨ps, none⟩, r)], .closed, rest) := by
  rw [readMembers, readString_spelling hbody]
  simp only [skipSpace_append hs, skipSpace_cons _ (c := ':') rfl, h, skipSpace_append hs',
    skipSpace_cons _ (c := '\x7d') rfl, List.reverse_nil, List.nil_append]

theorem readMembers_comma {n : Nat} {ps : List Piece} {body s s' s'' cs rest : List Char} {r : Raw}
    (hbody : Piece.Spelling ps body) (hs : Blank s) (hs' : Blank s') (hs'' : Blank s'')
    (h : readValue n cs = (r, s' ++ ',' :: (s'' ++ '"' :: rest))) :
    readMembers (n + 1) (body ++ '"' :: (s ++ ':' :: cs)) =
      ((⟨ps, none⟩, r) :: (readMembers n rest).1, (readMembers n rest).2.1,
        (readMembers n rest).2.2) := by
  rw [readMembers, readString_spelling hbody]
  simp only [skipSpace_append hs, skipSpace_cons _ (c := ':') rfl, h, skipSpace_append hs',
    skipSpace_cons _ (c := ',') rfl, skipSpace_append hs'', skipSpace_cons _ (c := '"') rfl,
    List.reverse_nil, List.nil_append]

theorem Spaced.fixed_inv {c : Char} {w cs : List Char} {ts : List Token}
    (h : Spaced (.fixed c w :: ts) cs) :
    ∃ s b, Blank s ∧ Spaced ts b ∧ cs = s ++ c :: (w ++ b) := by
  obtain ⟨s, a, b, hs, rfl, hts, rfl⟩ := h.cons_inv
  exact ⟨s, b, hs, hts, rfl⟩

theorem Spaced.string_inv {ps : List Piece} {cs : List Char} {ts : List Token}
    (h : Spaced (.string ps :: ts) cs) :
    ∃ s body b, Blank s ∧ Piece.Spelling ps body ∧ Spaced ts b ∧
      cs = s ++ '"' :: (body ++ '"' :: b) := by
  obtain ⟨s, a, b, hs, ⟨body, hbody, rfl⟩, hts, rfl⟩ := h.cons_inv
  exact ⟨s, body, b, hs, hbody, hts, by simp⟩

theorem Spaced.quote_inv {ps : List Piece} {cs : List Char} {ts : List Token}
    (h : Spaced (.string ps :: ts) ('"' :: cs)) :
    ∃ body b, Piece.Spelling ps body ∧ Spaced ts b ∧ cs = body ++ '"' :: b := by
  obtain ⟨s, body, b, hs, hbody, hb, heq⟩ := h.string_inv
  cases s with
  | nil => exact ⟨body, b, hbody, hb, List.cons.inj heq |>.2⟩
  | cons c s =>
    have hc := hs c List.mem_cons_self
    rw [← (List.cons.inj heq).1] at hc
    cases hc

theorem Spaced.string {ps : List Piece} {body cs : List Char} {ts : List Token}
    (hbody : Piece.Spelling ps body) (h : Spaced ts cs) :
    Spaced (.string ps :: ts) ('"' :: (body ++ '"' :: cs)) := by
  have hfirst := Spaced.first (t := .string ps) ⟨body, hbody, rfl⟩ h
  simpa using hfirst

theorem exists_first_item {v : Raw} {vs : List Raw} (hv : v.Whole) {us : List Token}
    {cs : List Char} (h : Spaced (Raw.itemTokens (v :: vs) ++ us) cs) :
    ∃ s c b, Blank s ∧ cs = s ++ c :: b ∧ isSpace c = false ∧ c ≠ ']' ∧
      Spaced (Raw.itemTokens (v :: vs) ++ us) (c :: b) := by
  rw [Raw.itemTokens, List.append_assoc] at h ⊢
  obtain ⟨a, b, rfl, ha, hb⟩ := h.split
  obtain ⟨s, c, a, hs, rfl, hspace, hc, ha⟩ := exists_first hv ha
  exact ⟨s, c, a ++ b, hs, by simp, hspace, hc, ha.append hb⟩

open Raw (itemTokens laterItems memberTokens laterMembers WholeItems WholeMembers)

theorem laterItems_cons (v : Raw) (vs : List Raw) :
    laterItems (v :: vs) = .fixed ',' [] :: itemTokens (v :: vs) := by
  rw [laterItems, itemTokens]

theorem laterMembers_cons (m : Lexeme × Raw) (ms : List (Lexeme × Raw)) :
    laterMembers (m :: ms) = .fixed ',' [] :: memberTokens (m :: ms) := by
  rw [laterMembers, memberTokens]

theorem exists_fuel {v : Raw} (hv : v.Whole) {n : Nat} (h : 2 * v.tokens.length ≤ n) :
    ∃ m, n = m + 1 := by
  have hpos := List.length_pos_iff.2 (tokens_ne_nil hv)
  exact ⟨n - 1, by omega⟩

theorem readValue_fixed {v : Raw} {n : Nat} {c : Char} {w cs : List Char}
    (hread : ∀ rest, readValue (n + 1) (c :: (w ++ rest)) = (v, rest))
    (h : Spaced [.fixed c w] cs) (rest : List Char) :
    readValue (n + 1) (cs ++ rest) = (v, rest) := by
  obtain ⟨s, b, hs, hb, rfl⟩ := h.fixed_inv
  cases hb
  rw [List.append_assoc, readValue_append hs, List.append_nil]
  exact hread rest

mutual
theorem readValue_spaced : ∀ (v : Raw) (n : Nat) {cs rest : List Char}, v.Whole →
    2 * v.tokens.length ≤ n + 1 → Spaced v.tokens cs → Ends rest →
    readValue (n + 1) (cs ++ rest) = (v, rest)
  | .absent, _, _, _, hv, _, _, _ => hv.elim
  | .junk, _, _, _, hv, _, _, _ => hv.elim
  | .badWord _, _, _, _, hv, _, _, _ => hv.elim
  | .badNumber _, _, _, _, hv, _, _, _ => hv.elim
  | .null, _, _, rest, _, _, h, _ => readValue_fixed (fun _ => rfl) h rest
  | .bool true, _, _, rest, _, _, h, _ => readValue_fixed (fun _ => rfl) h rest
  | .bool false, _, _, rest, _, _, h, _ => readValue_fixed (fun _ => rfl) h rest
  | .number m, n, _, rest, _, _, h, hrest => by
    obtain ⟨s, a, b, hs, ha, hb, rfl⟩ := h.cons_inv
    cases hb
    rw [List.append_nil, List.append_assoc, readValue_append hs]
    exact readValue_number ha n hrest
  | .string ⟨ps, stop⟩, n, _, rest, hv, _, h, _ => by
    obtain ⟨s, body, b, hs, hbody, hb, rfl⟩ := h.string_inv
    cases hb
    cases hv
    rw [List.append_assoc, readValue_append hs]
    change (let (l, rest) := readString (body ++ ['"'] ++ rest) []; (Raw.string l, rest)) = _
    rw [List.append_assoc, List.singleton_append, readString_spelling hbody]
    rfl
  | .array [] e, n, _, rest, hv, _, h, _ => by
    obtain ⟨s, b, hs, hclose, rfl⟩ := h.fixed_inv
    obtain ⟨s', b, hs', hb, rfl⟩ := hclose.fixed_inv
    cases hb
    cases hv.2
    rw [List.append_assoc, readValue_append hs, readValue, List.cons_append, skipSpace_cons _ rfl]
    simp only [List.nil_append, List.append_assoc, List.cons_append, skipSpace_append hs',
      skipSpace_cons _ (c := ']') rfl]
  | .array (v :: vs) e, n, _, rest, hv, hn, h, _ => by
    obtain ⟨s, b, hs, hitems, rfl⟩ := h.fixed_inv
    obtain ⟨s', c, b, hs', rfl, hspace, hc, hb⟩ := exists_first_item hv.1.1 hitems
    obtain ⟨m, rfl⟩ : ∃ m, n = m + 1 := ⟨n - 1, by simp [Raw.tokens] at hn; omega⟩
    have hread := readItems_spaced (v :: vs) m rest (List.cons_ne_nil v vs) hv.1
      (by simp [Raw.tokens] at hn; omega) hb
    cases hv.2
    rw [List.cons_append] at hread
    rw [List.append_assoc, readValue_append hs, List.nil_append, List.cons_append,
      List.append_assoc, List.cons_append, readValue_items hs' hspace hc, hread]
  | .object [] e, n, _, rest, hv, _, h, _ => by
    obtain ⟨s, b, hs, hclose, rfl⟩ := h.fixed_inv
    obtain ⟨s', b, hs', hb, rfl⟩ := hclose.fixed_inv
    cases hb
    cases hv.2
    rw [List.append_assoc, readValue_append hs, readValue, List.cons_append, skipSpace_cons _ rfl]
    simp only [List.nil_append, List.append_assoc, List.cons_append, skipSpace_append hs',
      skipSpace_cons _ (c := '\x7d') rfl]
  | .object ((k, v) :: ms) e, n, _, rest, hv, hn, h, _ => by
    obtain ⟨s, b, hs, hmembers, rfl⟩ := h.fixed_inv
    obtain ⟨s', body, b, hs', hbody, hb, rfl⟩ := hmembers.string_inv
    obtain ⟨m, rfl⟩ : ∃ m, n = m + 1 := ⟨n - 1, by simp [Raw.tokens] at hn; omega⟩
    have hread := readMembers_spaced ((k, v) :: ms) m rest (List.cons_ne_nil _ ms) hv.1
      (by simp [Raw.tokens] at hn; omega) (hb.string hbody)
    cases hv.2
    rw [List.append_assoc, readValue_append hs, readValue, List.nil_append, List.cons_append,
      skipSpace_cons _ rfl]
    simp only [List.append_assoc, List.cons_append, skipSpace_append hs',
      skipSpace_cons _ (c := '"') rfl] at hread ⊢
    rw [hread]

theorem readItems_spaced : ∀ (vs : List Raw) (n : Nat) {cs : List Char} (rest : List Char),
    vs ≠ [] → WholeItems vs → 2 * (itemTokens vs).length ≤ n →
    Spaced (itemTokens vs ++ [.fixed ']' []]) cs →
    readItems (n + 1) (cs ++ rest) = (vs, .closed, rest)
  | [], _, _, _, h, _, _, _ => absurd rfl h
  | [v], n, cs, rest, _, hv, hn, h => by
    simp only [itemTokens, laterItems, List.append_nil] at hn h
    obtain ⟨a, b, rfl, ha, hclose⟩ := h.split
    have hends := ends_of_spaced (Or.inr (Or.inl rfl)) hclose rest
    obtain ⟨s, b, hs, hb, rfl⟩ := hclose.fixed_inv
    cases hb
    obtain ⟨m, rfl⟩ := exists_fuel hv.1 hn
    have hread := readValue_spaced v m hv.1 hn ha hends
    rw [List.append_assoc]
    exact readItems_last hs (by simpa using hread)
  | v :: w :: vs, n, cs, rest, _, hv, hn, h => by
    rw [itemTokens, laterItems_cons] at hn h
    simp only [List.length_append, List.length_cons] at hn
    rw [List.append_assoc, List.cons_append] at h
    obtain ⟨a, b, rfl, ha, hcomma⟩ := h.split
    have hends := ends_of_spaced (Or.inl rfl) hcomma rest
    obtain ⟨s, b, hs, hitems, rfl⟩ := hcomma.fixed_inv
    obtain ⟨s', c, b, hs', rfl, hspace, hc, hb⟩ := exists_first_item hv.2.1 hitems
    obtain ⟨m, rfl⟩ := exists_fuel hv.1 (n := n) (by omega)
    have hread := readValue_spaced v m hv.1 (by omega) ha hends
    have hlater := readItems_spaced (w :: vs) m rest (List.cons_ne_nil w vs) hv.2 (by omega) hb
    simp only [List.append_assoc, List.cons_append, List.nil_append] at hread hlater ⊢
    rw [readItems_comma hs hs' hread hspace hc, hlater]

theorem readMembers_spaced : ∀ (ms : List (Lexeme × Raw)) (n : Nat) {cs : List Char}
    (rest : List Char), ms ≠ [] → WholeMembers ms → 2 * (memberTokens ms).length ≤ n + 2 →
    Spaced (memberTokens ms ++ [.fixed '\x7d' []]) ('"' :: cs) →
    readMembers (n + 1) (cs ++ rest) = (ms, .closed, rest)
  | [], _, _, _, h, _, _, _ => absurd rfl h
  | [(⟨ps, stop⟩, v)], n, cs, rest, _, hv, hn, h => by
    simp only [memberTokens, laterMembers, List.append_nil, List.length_cons] at hn h
    obtain ⟨body, b, hbody, hcolon, rfl⟩ := h.quote_inv
    obtain ⟨s, b, hs, hvalue, rfl⟩ := hcolon.fixed_inv
    obtain ⟨a, b, rfl, ha, hclose⟩ := hvalue.split
    have hends := ends_of_spaced (Or.inr (Or.inr rfl)) hclose rest
    obtain ⟨s', b, hs', hb, rfl⟩ := hclose.fixed_inv
    cases hb
    cases hv.1.1
    obtain ⟨m, rfl⟩ := exists_fuel hv.1.2 (n := n) (by omega)
    have hread := readValue_spaced v m hv.1.2 (by omega) ha hends
    simp only [List.append_assoc, List.cons_append, List.nil_append] at hread ⊢
    exact readMembers_last hbody hs hs' hread
  | (⟨ps, stop⟩, v) :: m :: ms, n, cs, rest, _, hv, hn, h => by
    rw [memberTokens, laterMembers_cons] at hn h
    simp only [List.length_append, List.length_cons] at hn
    simp only [List.append_assoc, List.cons_append] at h
    obtain ⟨body, b, hbody, hcolon, rfl⟩ := h.quote_inv
    obtain ⟨s, b, hs, hvalue, rfl⟩ := hcolon.fixed_inv
    obtain ⟨a, b, rfl, ha, hcomma⟩ := hvalue.split
    have hends := ends_of_spaced (Or.inl rfl) hcomma rest
    obtain ⟨s', b, hs', hmembers, rfl⟩ := hcomma.fixed_inv
    obtain ⟨s'', body', b, hs'', hbody', hb, rfl⟩ := hmembers.string_inv
    cases hv.1.1
    obtain ⟨j, rfl⟩ := exists_fuel hv.1.2 (n := n) (by omega)
    have hread := readValue_spaced v j hv.1.2 (by omega) ha hends
    have hlater := readMembers_spaced (m :: ms) j rest (List.cons_ne_nil m ms) hv.2
      (by omega) (hb.string hbody')
    simp only [List.append_assoc, List.cons_append, List.nil_append] at hread hlater ⊢
    rw [readMembers_comma hbody hs hs' hs'' hread, hlater]
end

theorem word_of_readWord {value v : Raw} {ws cs rest : List Char}
    (h : readWord value ws cs = (v, rest)) (hv : v.Whole) : v = value ∧ cs = ws ++ rest := by
  induction ws generalizing cs with
  | nil =>
    cases h
    exact ⟨rfl, rfl⟩
  | cons w ws ih =>
    cases cs with
    | nil =>
      cases h
      exact hv.elim
    | cons c cs =>
      rw [readWord] at h
      split at h
      · rename_i hw
        obtain ⟨rfl, rfl⟩ := ih h
        exact ⟨rfl, by rw [hw]; rfl⟩
      · cases h
        exact hv.elim

theorem number_of_readExponent {n : Numeral} {v : Raw} {cs rest : List Char}
    (h : readExponent n cs = (v, rest)) (hv : v.Whole) : ∃ m, v = .number m := by
  cases cs with
  | nil =>
    cases h
    exact ⟨_, rfl⟩
  | cons c cs =>
    rw [readExponent_cons] at h
    split at h
    · split at h
      · cases h
        exact hv.elim
      · cases h
        exact ⟨_, rfl⟩
    · cases h
      exact ⟨_, rfl⟩

theorem number_of_readNumber {negative : Bool} {v : Raw} {cs rest : List Char}
    (h : readNumber negative cs = (v, rest)) (hv : v.Whole) : ∃ m, v = .number m := by
  rw [readNumber] at h
  split at h
  · cases h
    exact hv.elim
  · cases h
    exact hv.elim
  · rw [readFraction.eq_def] at h
    split at h
    · split at h
      · cases h
        exact hv.elim
      · exact number_of_readExponent h hv
    · exact number_of_readExponent h hv

theorem spaced_of_readWord {value v : Raw} {c : Char} {ws cs rest : List Char}
    (hvalue : value.tokens = [.fixed c ws]) (h : readWord value ws cs = (v, rest)) (hv : v.Whole) :
    ∃ body, c :: cs = body ++ rest ∧ Spaced v.tokens body := by
  obtain ⟨rfl, rfl⟩ := word_of_readWord h hv
  rw [hvalue]
  exact ⟨c :: (ws ++ []), by simp, .fixed .nil⟩

theorem spaced_of_readNumber {negative : Bool} {v : Raw} {cs rest : List Char}
    (h : readNumber negative cs = (v, rest)) (hv : v.Whole) :
    ∃ body, (if negative then ['-'] else []) ++ cs = body ++ rest ∧ Spaced v.tokens body := by
  obtain ⟨m, rfl⟩ := number_of_readNumber h hv
  obtain ⟨rfl, body, hbody, rfl⟩ := unsigned_of_readNumber h
  exact ⟨_, by simp, .first ⟨body, hbody, rfl⟩ .nil⟩

theorem spaced_of_readString {l : Lexeme} {cs rest : List Char} (h : readString cs [] = (l, rest))
    (hl : l.stop = none) :
    ∃ body, '"' :: cs = body ++ rest ∧ Spaced (Raw.string l).tokens body := by
  obtain ⟨ps, stop⟩ := l
  cases hl
  obtain ⟨qs, body, rfl, rfl, hbody⟩ := spelling_of_readString h
  exact ⟨_, by simp, .string hbody .nil⟩

mutual
theorem spaced_of_readValue : ∀ (n : Nat) {v : Raw} {cs rest : List Char},
    readValue n cs = (v, rest) → v.Whole → ∃ body, cs = body ++ rest ∧ Spaced v.tokens body
  | 0, _, _, _, h, hv => by
    cases h
    exact hv.elim
  | n + 1, v, cs, rest, h, hv => by
    obtain ⟨s, hs, hcs⟩ := exists_blank cs
    suffices hskip : ∃ body, skipSpace cs = body ++ rest ∧ Spaced v.tokens body by
      obtain ⟨body, hbody, hspaced⟩ := hskip
      rw [hbody, ← List.append_assoc] at hcs
      exact ⟨s ++ body, hcs, hspaced.blank_append (tokens_ne_nil hv) hs⟩
    rw [readValue] at h
    split at h
    · cases h
      exact hv.elim
    · rename_i heq
      rw [heq]
      exact spaced_of_readWord rfl h hv
    · rename_i heq
      rw [heq]
      exact spaced_of_readWord rfl h hv
    · rename_i heq
      rw [heq]
      exact spaced_of_readWord rfl h hv
    · rename_i cs' heq
      rw [heq]
      cases h
      exact spaced_of_readString rfl hv
    · rename_i heq
      rw [heq]
      exact spaced_of_readNumber h hv
    · rename_i cs' heq
      rw [heq]
      obtain ⟨s', hs', hcs'⟩ := exists_blank cs'
      split at h
      · cases h
        cases hv.2
      · rename_i rest' heq'
        rw [heq'] at hcs'
        cases h
        exact ⟨_, by rw [hcs']; simp, .fixed (.mark hs' .nil)⟩
      · obtain ⟨vs, e, rest', hread⟩ : ∃ vs e rest', readItems n (skipSpace cs') = (vs, e, rest') :=
          ⟨_, _, _, rfl⟩
        rw [hread] at h
        cases h
        cases hv.2
        obtain ⟨-, body, hbody, hspaced⟩ := spaced_of_readItems n hread hv.1
        rw [hbody] at hcs'
        exact ⟨_, by rw [hcs']; simp, .fixed (hspaced.blank_append (by simp) hs')⟩
    · rename_i cs' heq
      rw [heq]
      obtain ⟨s', hs', hcs'⟩ := exists_blank cs'
      split at h
      · cases h
        cases hv.2
      · rename_i rest' heq'
        rw [heq'] at hcs'
        cases h
        exact ⟨_, by rw [hcs']; simp, .fixed (.mark hs' .nil)⟩
      · rename_i cs'' heq'
        rw [heq'] at hcs'
        obtain ⟨ms, e, rest', hread⟩ : ∃ ms e rest', readMembers n cs'' = (ms, e, rest') :=
          ⟨_, _, _, rfl⟩
        rw [hread] at h
        cases h
        cases hv.2
        obtain ⟨-, body, rfl, hspaced⟩ := spaced_of_readMembers n hread hv.1
        exact ⟨_, by rw [hcs']; simp, .fixed (hspaced.blank_append (by simp) hs')⟩
      · cases h
        cases hv.2
    · rename_i heq
      rw [heq]
      split at h
      · exact spaced_of_readNumber h hv
      · cases h
        exact hv.elim

theorem spaced_of_readItems : ∀ (n : Nat) {vs : List Raw} {cs rest : List Char},
    readItems n cs = (vs, .closed, rest) → WholeItems vs →
      vs ≠ [] ∧ ∃ body, cs = body ++ rest ∧ Spaced (itemTokens vs ++ [.fixed ']' []]) body
  | 0, _, _, _, h, _ => by cases h
  | n + 1, vs, cs, rest, h, hvs => by
    obtain ⟨v, mid, hread⟩ : ∃ v mid, readValue n cs = (v, mid) := ⟨_, _, rfl⟩
    obtain ⟨s, hs, hmid⟩ := exists_blank mid
    rw [readItems, hread] at h
    simp only at h
    split at h
    · cases h
    · rename_i rest' heq
      rw [heq] at hmid
      cases h
      obtain ⟨a, rfl, ha⟩ := spaced_of_readValue n hread hvs.1
      refine ⟨List.cons_ne_nil _ _, a ++ (s ++ [']']), ?_, ?_⟩
      · rw [hmid]
        simp
      · rw [itemTokens, laterItems, List.append_nil]
        exact ha.append (.mark hs .nil)
    · rename_i rest' heq
      rw [heq] at hmid
      obtain ⟨s', hs', hrest'⟩ := exists_blank rest'
      split at h
      · cases h
      · cases h
      · obtain ⟨ws, e, rest'', hlater⟩ : ∃ ws e rest'', readItems n (skipSpace rest') =
            (ws, e, rest'') := ⟨_, _, _, rfl⟩
        rw [hlater] at h
        cases h
        obtain ⟨a, rfl, ha⟩ := spaced_of_readValue n hread hvs.1
        obtain ⟨hne, body, hbody, hspaced⟩ := spaced_of_readItems n hlater hvs.2
        obtain ⟨w, ws, rfl⟩ := List.exists_cons_of_ne_nil hne
        rw [hbody] at hrest'
        refine ⟨List.cons_ne_nil _ _, a ++ (s ++ (',' :: (s' ++ body))), ?_, ?_⟩
        · rw [hmid, hrest']
          simp
        · rw [itemTokens, laterItems_cons, List.append_assoc]
          exact ha.append (.mark hs (hspaced.blank_append (by simp) hs'))
    · cases h

theorem spaced_of_readMembers : ∀ (n : Nat) {ms : List (Lexeme × Raw)} {cs rest : List Char},
    readMembers n cs = (ms, .closed, rest) → WholeMembers ms →
      ms ≠ [] ∧ ∃ body, cs = body ++ rest ∧
        Spaced (memberTokens ms ++ [.fixed '\x7d' []]) ('"' :: body)
  | 0, _, _, _, h, _ => by cases h
  | n + 1, ms, cs, rest, h, hms => by
    obtain ⟨⟨ps, stop⟩, mid, hkey⟩ : ∃ l mid, readString cs [] = (l, mid) := ⟨_, _, rfl⟩
    obtain ⟨s, hs, hmid⟩ := exists_blank mid
    rw [readMembers, hkey] at h
    simp only at h
    split at h
    · cases h
    · rename_i after heq
      rw [heq] at hmid
      obtain ⟨v, mid', hread⟩ : ∃ v mid', readValue n after = (v, mid') := ⟨_, _, rfl⟩
      obtain ⟨s', hs', hmid'⟩ := exists_blank mid'
      rw [hread] at h
      simp only at h
      split at h
      · cases h
      · rename_i rest' heq'
        rw [heq'] at hmid'
        cases h
        cases hms.1.1
        obtain ⟨a, rfl, ha⟩ := spaced_of_readValue n hread hms.1.2
        obtain ⟨qs, body, rfl, rfl, hbody⟩ := spelling_of_readString hkey
        refine ⟨List.cons_ne_nil _ _, body ++ '"' :: (s ++ ':' :: (a ++ (s' ++ ['\x7d']))), ?_, ?_⟩
        · rw [hmid, hmid']
          simp
        · rw [memberTokens, laterMembers, List.append_nil]
          exact .string hbody (.mark hs (ha.append (.mark hs' .nil)))
      · rename_i rest' heq'
        rw [heq'] at hmid'
        obtain ⟨s'', hs'', hrest'⟩ := exists_blank rest'
        split at h
        · cases h
        · rename_i rest'' heq''
          rw [heq''] at hrest'
          obtain ⟨ns, e, tail, hlater⟩ : ∃ ns e tail, readMembers n rest'' =
              (ns, e, tail) := ⟨_, _, _, rfl⟩
          rw [hlater] at h
          cases h
          cases hms.1.1
          obtain ⟨a, rfl, ha⟩ := spaced_of_readValue n hread hms.1.2
          obtain ⟨qs, body, rfl, rfl, hbody⟩ := spelling_of_readString hkey
          obtain ⟨hne, body', rfl, hspaced⟩ := spaced_of_readMembers n hlater hms.2
          obtain ⟨m, ns, rfl⟩ := List.exists_cons_of_ne_nil hne
          refine ⟨List.cons_ne_nil _ _,
            body ++ '"' :: (s ++ ':' :: (a ++ (s' ++ ',' :: (s'' ++ '"' :: body')))), ?_, ?_⟩
          · rw [hmid, hmid', hrest']
            simp
          · rw [memberTokens, laterMembers_cons, List.cons_append, List.cons_append,
              List.append_assoc]
            exact .string hbody
              (.mark hs (ha.append (.mark hs' (hspaced.blank_append (by simp) hs''))))
        · cases h
      · cases h
    · cases h
end

/-- The text is the value, with any blanks between its tokens and around it. -/
def Spells (v : Raw) (cs : List Char) : Prop :=
  v.Whole ∧ ∃ body s, Spaced v.tokens body ∧ Blank s ∧ cs = body ++ s

theorem read_spaced {v : Raw} (hv : v.Whole) {body s : List Char} (hbody : Spaced v.tokens body)
    (hs : Blank s) : Raw.read (body ++ s) = (v, s) := by
  have hends : Ends s := fun c hc => Or.inl (hs c (List.mem_of_mem_head? hc))
  have hlength := hbody.length_le
  exact readValue_spaced v (2 * (body ++ s).length + 1) hv
    (by rw [List.length_append]; omega) hbody hends

/-- A text spells what is read from it, if that is whole and only blanks follow, and nothing
else. -/
theorem spells_iff {v : Raw} {cs : List Char} :
    Spells v cs ↔ v.Whole ∧ (Raw.read cs).1 = v ∧ Blank (Raw.read cs).2 := by
  constructor
  · rintro ⟨hv, body, s, hbody, hs, rfl⟩
    rw [read_spaced hv hbody hs]
    exact ⟨hv, rfl, hs⟩
  · rintro ⟨hv, rfl, hs⟩
    obtain ⟨body, hcs, hbody⟩ := spaced_of_readValue _ (v := (Raw.read cs).1) rfl hv
    exact ⟨hv, body, _, hbody, hs, hcs⟩

end CanonTree.Json
