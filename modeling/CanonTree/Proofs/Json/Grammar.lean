import CanonTree.Json.Raw
import Mathlib.Data.List.Basic

namespace CanonTree.Json

/-- A string between its quotes. -/
inductive Piece.Spelling : List Piece → List Char → Prop where
  | nil : Spelling [] []
  | char {c : Char} {ps : List Piece} {cs : List Char} : c ≠ '"' → c ≠ '\\' → 32 ≤ c.toNat →
      Spelling ps cs → Spelling (.char c :: ps) (c :: cs)
  | escape {c e : Char} {ps : List Piece} {cs : List Char} : simpleEscape? e = some c →
      Spelling ps cs → Spelling (.char c :: ps) ('\\' :: e :: cs)
  | unit {n : Nat} {i j k l : Char} {ps : List Piece} {cs : List Char} :
      hexUnit? i j k l = some n → Spelling ps cs →
        Spelling (.unit n :: ps) ('\\' :: 'u' :: i :: j :: k :: l :: cs)

theorem readString_spelling {ps : List Piece} {body : List Char} (h : Piece.Spelling ps body)
    (done : List Piece) (rest : List Char) :
    readString (body ++ '"' :: rest) done = (⟨done.reverse ++ ps, none⟩, rest) := by
  induction h generalizing done with
  | nil => simp [readString]
  | char hquote hback hc _ ih =>
    rw [List.cons_append, readString, if_neg (by omega), ih]
    · simp
    all_goals simp_all
  | @escape c e _ _ he _ ih =>
    have hu : e ≠ 'u' := by
      rintro rfl
      cases he
    rw [List.cons_append, List.cons_append, readString, he]
    · simp only [ih]
      simp
    all_goals simp_all
  | unit hn _ ih =>
    simp only [List.cons_append]
    rw [readString, hn]
    simp only [ih]
    simp

theorem spelling_of_readString {cs rest : List Char} {done ps : List Piece}
    (h : readString cs done = (⟨ps, none⟩, rest)) :
    ∃ qs body, ps = done.reverse ++ qs ∧ cs = body ++ '"' :: rest ∧ Piece.Spelling qs body := by
  induction cs, done using readString.induct with
  | case1 done => simp [readString] at h
  | case2 cs done =>
    simp only [readString, Prod.mk.injEq, Lexeme.mk.injEq] at h
    obtain ⟨⟨rfl, -⟩, rfl⟩ := h
    exact ⟨[], [], by simp, rfl, .nil⟩
  | case3 done => simp [readString] at h
  | case4 i j k l cs done n hn ih =>
    rw [readString, hn] at h
    obtain ⟨qs, body, rfl, rfl, hs⟩ := ih h
    exact ⟨.unit n :: qs, _, by simp, rfl, .unit hn hs⟩
  | case5 i j k l cs done hn =>
    rw [readString, hn] at h
    simp at h
  | case6 cs done hshort =>
    rw [readString] at h
    · simp at h
    · exact hshort
  | case7 c cs done hlong hu e he ih =>
    rw [readString, he] at h
    · obtain ⟨qs, body, rfl, rfl, hs⟩ := ih h
      exact ⟨.char e :: qs, _, by simp, rfl, .escape he hs⟩
    all_goals assumption
  | case8 c cs done hlong hu he =>
    rw [readString, he] at h
    · simp at h
    all_goals assumption
  | case9 c cs done hquote hlast hunit hu hback hctrl =>
    rw [readString, if_pos hctrl] at h
    · simp at h
    all_goals assumption
  | case10 c cs done hquote hlast hunit hu hback hctrl ih =>
    rw [readString, if_neg hctrl] at h
    · obtain ⟨qs, body, rfl, rfl, hs⟩ := ih h
      have hplain : c ≠ '\\' := by
        rintro rfl
        cases body with
        | nil => exact hback _ _ rfl rfl
        | cons d body => exact hback _ _ rfl rfl
      exact ⟨.char c :: qs, _, by simp, rfl, .char hquote hplain (Nat.not_lt.1 hctrl) hs⟩
    all_goals assumption

def Digits (ds : List Nat) : Prop := ds ≠ [] ∧ ∀ d ∈ ds, d < 10

def digitText (ds : List Nat) : List Char := ds.map Nat.digitChar

inductive Numeral.Fraction : List Nat → List Char → Prop where
  | none : Fraction [] []
  | some {ds : List Nat} : Digits ds → Fraction ds ('.' :: digitText ds)

def signs : List (Bool × List Char) := [(false, []), (false, ['+']), (true, ['-'])]

inductive Numeral.Exponent : Option (Bool × List Nat) → List Char → Prop where
  | none : Exponent none []
  | some {ds : List Nat} {negative : Bool} {e : Char} {sign : List Char} : Digits ds →
      e = 'e' ∨ e = 'E' → (negative, sign) ∈ signs →
      Exponent (some (negative, ds)) (e :: (sign ++ digitText ds))

/-- The number behind its sign. A zero begins no other number. -/
def Numeral.Unsigned (n : Numeral) (cs : List Char) : Prop :=
  Digits n.whole ∧ (n.whole.head? = some 0 → n.whole = [0]) ∧
    ∃ f e, Fraction n.fraction f ∧ Exponent n.exponent e ∧ cs = digitText n.whole ++ (f ++ e)

def Numeral.Spelled (n : Numeral) (cs : List Char) : Prop :=
  ∃ body, n.Unsigned body ∧ cs = (if n.negative then ['-'] else []) ++ body

/-- What stands behind a value: a blank, a comma, a closing bracket or the end. -/
def Ends (cs : List Char) : Prop :=
  ∀ c ∈ cs.head?, isSpace c ∨ c = ',' ∨ c = ']' ∨ c = '\x7d'

def Stopped (cs : List Char) : Prop := ∀ c ∈ cs.head?, digit? c = none

theorem digit?_digitChar {d : Nat} (h : d < 10) : digit? d.digitChar = some d := by
  revert d
  decide

theorem digitChar_of_digit? {c : Char} {d : Nat} (h : digit? c = some d) :
    d < 10 ∧ c = d.digitChar := by
  rw [digit?] at h
  split at h
  · rename_i hc
    cases h
    have hlow : 48 ≤ c.toNat := hc.1
    have hupp : c.toNat ≤ 57 := hc.2
    have hchar : ∀ d < 10, Char.ofNat (d + 48) = d.digitChar := by decide
    refine ⟨by omega, ?_⟩
    rw [← hchar _ (by omega), Nat.sub_add_cancel hlow, Char.ofNat_toNat]
  · cases h

theorem readDigits_digitText {ds : List Nat} (h : ∀ d ∈ ds, d < 10) {rest : List Char}
    (hrest : Stopped rest) : readDigits (digitText ds ++ rest) = (ds, rest) := by
  induction ds with
  | nil =>
    cases rest with
    | nil => rfl
    | cons c cs => simp [digitText, readDigits, hrest c rfl]
  | cons d ds ih =>
    have hds := ih fun e he => h e (List.mem_cons_of_mem d he)
    rw [digitText] at hds
    simp [digitText, readDigits, digit?_digitChar (h d List.mem_cons_self), hds]

theorem digitText_of_readDigits {cs rest : List Char} {ds : List Nat}
    (h : readDigits cs = (ds, rest)) : (∀ d ∈ ds, d < 10) ∧ cs = digitText ds ++ rest := by
  induction cs generalizing ds with
  | nil =>
    cases h
    simp [digitText]
  | cons c cs ih =>
    rw [readDigits] at h
    cases hc : digit? c with
    | none =>
      rw [hc] at h
      cases h
      simp [digitText]
    | some d =>
      rw [hc] at h
      cases h
      obtain ⟨hd, rfl⟩ := digitChar_of_digit? hc
      obtain ⟨hds, hcs⟩ := ih rfl
      refine ⟨by simpa using ⟨hd, hds⟩, ?_⟩
      nth_rewrite 1 [hcs]
      rfl

theorem Ends.stopped {cs : List Char} (h : Ends cs) : Stopped cs := by
  intro c hc
  rcases h c hc with hs | rfl | rfl | rfl
  · simp only [isSpace, Bool.or_eq_true, decide_eq_true_eq] at hs
    rcases hs with ((rfl | rfl) | rfl) | rfl <;> rfl
  all_goals rfl

theorem Ends.ne {cs : List Char} (h : Ends cs) {c : Char} {rest : List Char}
    (hcs : cs = c :: rest) : c ≠ '.' ∧ c ≠ 'e' ∧ c ≠ 'E' := by
  rcases h c (by rw [hcs]; rfl) with hs | rfl | rfl | rfl
  · simp only [isSpace, Bool.or_eq_true, decide_eq_true_eq] at hs
    rcases hs with ((rfl | rfl) | rfl) | rfl <;> decide
  all_goals decide

theorem Numeral.Exponent.stopped {o : Option (Bool × List Nat)} {e rest : List Char}
    (h : Exponent o e) (hrest : Ends rest) : Stopped (e ++ rest) := by
  cases h with
  | none => exact hrest.stopped
  | some _ he _ =>
    intro c hc
    cases hc
    rcases he with rfl | rfl <;> rfl

theorem Numeral.Fraction.stopped {ds : List Nat} {f rest : List Char} (h : Fraction ds f)
    (hrest : Stopped rest) : Stopped (f ++ rest) := by
  cases h with
  | none => exact hrest
  | some _ =>
    intro c hc
    cases hc
    rfl

def readSign : List Char → Bool × List Char
  | '+' :: cs => (false, cs)
  | '-' :: cs => (true, cs)
  | cs => (false, cs)

theorem readExponent_cons (n : Numeral) (c : Char) (cs : List Char) :
    readExponent n (c :: cs) =
      if c = 'e' || c = 'E' then
        match readDigits (readSign cs).2 with
        | ([], rest) => (.badNumber rest.isEmpty, [])
        | (ds, rest) => (.number { n with exponent := some ((readSign cs).1, ds) }, rest)
      else (.number n, c :: cs) :=
  rfl

theorem readSign_append {negative : Bool} {sign : List Char} (h : (negative, sign) ∈ signs)
    {ds : List Nat} (hds : Digits ds) (rest : List Char) :
    readSign (sign ++ (digitText ds ++ rest)) = (negative, digitText ds ++ rest) := by
  have hplain : ∀ d < 10, d.digitChar ≠ '+' ∧ d.digitChar ≠ '-' := by decide
  obtain ⟨d, ds, rfl⟩ := List.exists_cons_of_ne_nil hds.1
  obtain ⟨hplus, hminus⟩ := hplain d (hds.2 d List.mem_cons_self)
  simp only [signs, List.mem_cons, Prod.mk.injEq, List.not_mem_nil, or_false] at h
  rcases h with ⟨rfl, rfl⟩ | ⟨rfl, rfl⟩ | ⟨rfl, rfl⟩
  · simp [readSign, digitText, hplus, hminus]
  · rfl
  · rfl

theorem sign_of_readSign (cs : List Char) :
    ∃ sign, ((readSign cs).1, sign) ∈ signs ∧ cs = sign ++ (readSign cs).2 := by
  fun_cases readSign cs with
  | case1 cs => exact ⟨['+'], by simp [signs], rfl⟩
  | case2 cs => exact ⟨['-'], by simp [signs], rfl⟩
  | case3 cs => exact ⟨[], by simp [signs], rfl⟩

theorem readExponent_spelled {n : Numeral} {o : Option (Bool × List Nat)} {cs rest : List Char}
    (h : Numeral.Exponent o cs) (hn : n.exponent = none) (hrest : Ends rest) :
    readExponent n (cs ++ rest) = (.number { n with exponent := o }, rest) := by
  cases h with
  | none =>
    rw [← hn]
    cases rest with
    | nil => rfl
    | cons c rest =>
      obtain ⟨-, he, hE⟩ := hrest.ne rfl
      rw [List.nil_append, readExponent_cons, if_neg (by simp [he, hE])]
  | @some ds negative e sign hds he hsign =>
    have hread := readDigits_digitText hds.2 hrest.stopped
    obtain ⟨d, ds, rfl⟩ := List.exists_cons_of_ne_nil hds.1
    rw [List.cons_append, List.append_assoc, readExponent_cons, if_pos (by simpa using he),
      readSign_append hsign hds]
    simp only [hread]

theorem readFraction_spelled {n : Numeral} {f e rest : List Char}
    (hf : Numeral.Fraction n.fraction f) (he : Numeral.Exponent n.exponent e) (hrest : Ends rest) :
    readFraction { negative := n.negative, whole := n.whole } (f ++ (e ++ rest)) =
      (.number n, rest) := by
  obtain ⟨negative, whole, fraction, exponent⟩ := n
  have hexponent : ∀ m : Numeral, m.exponent = none → readExponent m (e ++ rest) =
      (.number { m with exponent }, rest) := fun m hm => readExponent_spelled he hm hrest
  cases hf with
  | none =>
    have hpoint : ∀ cs, e ++ rest = '.' :: cs → False := by
      intro cs hcs
      cases he with
      | none => exact (hrest.ne hcs).1 rfl
      | some _ he _ =>
        cases hcs
        simp at he
    rw [List.nil_append, readFraction]
    · exact hexponent _ rfl
    · exact hpoint
  | some hds =>
    have hread := readDigits_digitText hds.2 (he.stopped hrest)
    obtain ⟨d, ds, rfl⟩ := List.exists_cons_of_ne_nil hds.1
    rw [List.cons_append, readFraction, hread]
    exact hexponent _ rfl

theorem readNumber_unsigned {n : Numeral} {cs rest : List Char} (h : n.Unsigned cs)
    (hrest : Ends rest) : readNumber n.negative (cs ++ rest) = (.number n, rest) := by
  obtain ⟨hwhole, hzero, f, e, hf, he, rfl⟩ := h
  have hread := readDigits_digitText hwhole.2 (hf.stopped (he.stopped hrest))
  have hfraction := readFraction_spelled hf he hrest
  rw [readNumber, List.append_assoc, List.append_assoc, hread]
  obtain ⟨d, ds, hds⟩ := List.exists_cons_of_ne_nil hwhole.1
  rw [hds] at hzero hfraction ⊢
  split
  · simp_all
  · simp_all
  · simp_all

theorem exponent_of_readExponent {n m : Numeral} {cs rest : List Char} (hn : n.exponent = none)
    (h : readExponent n cs = (.number m, rest)) :
    ∃ o e, Numeral.Exponent o e ∧ cs = e ++ rest ∧ m = { n with exponent := o } := by
  cases cs with
  | nil =>
    cases h
    exact ⟨none, [], .none, rfl, by rw [← hn]⟩
  | cons c cs =>
    rw [readExponent_cons] at h
    split at h
    · rename_i hc
      obtain ⟨sign, hsign, hcs⟩ := sign_of_readSign cs
      split at h
      · cases h
      · rename_i ds rest' hne hread
        cases h
        obtain ⟨hds, htext⟩ := digitText_of_readDigits hread
        refine ⟨_, _, .some ⟨hne, hds⟩ (by simpa using hc) hsign, ?_, rfl⟩
        rw [List.cons_append, List.append_assoc, ← htext, ← hcs]
    · cases h
      exact ⟨none, [], .none, rfl, by rw [← hn]⟩

theorem fraction_of_readFraction {n m : Numeral} {cs rest : List Char} (hf : n.fraction = [])
    (he : n.exponent = none) (h : readFraction n cs = (.number m, rest)) :
    ∃ f e, Numeral.Fraction m.fraction f ∧ Numeral.Exponent m.exponent e ∧
      cs = f ++ (e ++ rest) ∧ m.negative = n.negative ∧ m.whole = n.whole := by
  rw [readFraction.eq_def] at h
  split at h
  · split at h
    · cases h
    · rename_i ds rest' hne hread
      obtain ⟨hds, rfl⟩ := digitText_of_readDigits hread
      obtain ⟨o, e, ho, rfl, rfl⟩ := exponent_of_readExponent (n := { n with fraction := ds }) he h
      exact ⟨_, e, .some ⟨hne, hds⟩, ho, rfl, rfl, rfl⟩
  · obtain ⟨o, e, ho, rfl, rfl⟩ := exponent_of_readExponent he h
    exact ⟨[], e, hf ▸ .none, ho, rfl, rfl, rfl⟩

theorem unsigned_of_readNumber {n : Numeral} {negative : Bool} {cs rest : List Char}
    (h : readNumber negative cs = (.number n, rest)) :
    n.negative = negative ∧ ∃ body, n.Unsigned body ∧ cs = body ++ rest := by
  rw [readNumber] at h
  split at h
  · cases h
  · cases h
  · rename_i ds rest' hne hzero hread
    obtain ⟨hds, rfl⟩ := digitText_of_readDigits hread
    obtain ⟨f, e, hf, he, rfl, hneg, hwhole⟩ := fraction_of_readFraction rfl rfl h
    have hlead : n.whole.head? = some 0 → n.whole = [0] := by
      rw [hwhole]
      rcases ds with _ | ⟨d, _ | ⟨d', ds⟩⟩
      · exact absurd rfl hne
      · simp
      · intro hd
        cases hd
        exact absurd rfl (hzero d' ds)
    refine ⟨hneg, _, ⟨hwhole ▸ ⟨hne, hds⟩, hlead, f, e, hf, he, rfl⟩, ?_⟩
    simp [hwhole]

end CanonTree.Json
