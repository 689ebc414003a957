import CanonTree.Json.Reader
import CanonTree.Json.Value
import CanonTree.Proofs.Json.Spacing

namespace CanonTree.Json

def Piece.of (c : Char) : Piece :=
  if c.toNat < 32 ∧ c.toNat ∉ [8, 9, 10, 12, 13] then .unit c.toNat else .char c

def Lexeme.of (s : String) : Lexeme := ⟨s.toList.map Piece.of, none⟩

def digitsOf (n : Nat) : List Nat := (Nat.toDigits 10 n).map fun c => c.toNat - 48

def Numeral.of (n : Int) : Numeral := { negative := n < 0, whole := digitsOf n.natAbs }

namespace Raw

mutual
/-- What is read for a value. -/
def of : Value → Raw
  | .null => .null
  | .bool b => .bool b
  | .number n => .number (.of n)
  | .string s => .string (.of s)
  | .array vs => .array (ofItems vs) .closed
  | .object ms => .object (ofMembers ms) .closed

def ofItems : List Value → List Raw
  | [] => []
  | v :: vs => of v :: ofItems vs

def ofMembers : List (String × Value) → List (Lexeme × Raw)
  | [] => []
  | (k, v) :: ms => (.of k, of v) :: ofMembers ms
end

end Raw

theorem hexUnit?_hexDigit :
    ∀ n < 32, hexUnit? '0' '0' (hexDigit (n / 16)) (hexDigit (n % 16)) = some n := by
  decide

theorem spelling_escape (c : Char) {ps : List Piece} {cs : List Char}
    (h : Piece.Spelling ps cs) : Piece.Spelling (.of c :: ps) (escape c ++ cs) := by
  by_cases hquote : c = '"'
  · subst hquote
    exact .escape rfl h
  by_cases hback : c = '\\'
  · subst hback
    exact .escape rfl h
  by_cases hctrl : c.toNat < 32
  · by_cases hshort : c.toNat ∈ [8, 9, 10, 12, 13]
    · have hc := Char.ofNat_toNat c
      simp only [List.mem_cons, List.not_mem_nil, or_false] at hshort
      rcases hshort with hn | hn | hn | hn | hn <;>
        rw [← hc, hn] <;> exact .escape rfl h
    · have hu := hexUnit?_hexDigit c.toNat hctrl
      have hescape : escape c =
          ['\\', 'u', '0', '0', hexDigit (c.toNat / 16), hexDigit (c.toNat % 16)] := by
        rw [escape, if_neg hquote, if_neg hback, if_pos hctrl]
        split <;> simp_all
      rw [hescape, Piece.of, if_pos ⟨hctrl, hshort⟩]
      exact .unit hu h
  · have hescape : escape c = [c] := by
      rw [escape, if_neg hquote, if_neg hback, if_neg hctrl]
    rw [hescape, Piece.of, if_neg fun h => hctrl h.1]
    exact .char hquote hback (Nat.not_lt.1 hctrl) h

theorem spelling_of (s : List Char) : Piece.Spelling (s.map Piece.of) (s.flatMap escape) := by
  induction s with
  | nil => exact .nil
  | cons c s ih => exact spelling_escape c ih

theorem decode_of (s done : List Char) :
    Lexeme.decode none (s.map Piece.of) done = .ok (done.reverse ++ s) := by
  induction s generalizing done with
  | nil => simp [Lexeme.decode]
  | cons c s ih =>
    rw [List.map_cons, Piece.of]
    split
    · rename_i h
      have hlow : Lexeme.isLowSurrogate c.toNat = false := by
        simp [Lexeme.isLowSurrogate]
        omega
      have hhigh : Lexeme.isHighSurrogate c.toNat = false := by
        simp [Lexeme.isHighSurrogate]
        omega
      rw [Lexeme.decode.eq_def]
      simp [hlow, hhigh, ih]
    · simp [Lexeme.decode, ih]

theorem text_of (s : String) : (Lexeme.of s).text = .ok s := by
  simp [Lexeme.text, Lexeme.of, decode_of, Except.map]

theorem digit?_of_isDigit {c : Char} (h : c.isDigit) : digit? c = some (c.toNat - 48) := by
  have hc : '0' ≤ c ∧ c ≤ '9' := by
    simpa [Char.isDigit, Char.le_def] using h
  simp [digit?, hc]

theorem digits_of (n : Nat) : Digits (digitsOf n) ∧ digitText (digitsOf n) = Nat.toDigits 10 n := by
  have hdigit : ∀ c ∈ Nat.toDigits 10 n, c.toNat - 48 < 10 ∧ c = (c.toNat - 48).digitChar :=
    fun c hc => digitChar_of_digit? (digit?_of_isDigit
      (Nat.isDigit_of_mem_toDigits (by decide) (by decide) hc))
  refine ⟨⟨by simp [digitsOf, Nat.toDigits_ne_nil], ?_⟩, ?_⟩
  · intro d hd
    obtain ⟨c, hc, rfl⟩ := List.mem_map.1 hd
    exact (hdigit c hc).1
  · rw [digitText, digitsOf, List.map_map]
    exact List.map_congr_left (fun c hc => (hdigit c hc).2.symm) |>.trans (List.map_id _)

theorem digitsOf_of_lt {n : Nat} (h : n < 10) : digitsOf n = [n] := by
  simp [digitsOf, Nat.toDigits_of_lt_base h, Nat.toNat_digitChar_sub_48_of_lt_ten h]

theorem digitsOf_of_pos {n : Nat} (h : 0 < n) : ∃ d ds, 0 < d ∧ digitsOf n = d :: ds := by
  induction n using Nat.strongRecOn with
  | ind n ih =>
    by_cases hn : n < 10
    · exact ⟨n, [], h, digitsOf_of_lt hn⟩
    · obtain ⟨d, ds, hd, heq⟩ := ih (n / 10) (by omega) (by omega)
      refine ⟨d, ds ++ [(n % 10).digitChar.toNat - 48], hd, ?_⟩
      rw [digitsOf] at heq
      rw [digitsOf, Nat.toDigits_of_base_le (by decide) (by omega), List.map_append, heq]
      rfl

theorem foldl_digitsOf (n : Nat) : (digitsOf n).foldl (fun s d => s * 10 + d) 0 = n := by
  have h := Nat.ofDigitChars_ten_toDigits (n := n)
  rw [Nat.ofDigitChars_eq_foldl] at h
  rw [digitsOf, List.foldl_map]
  simpa [Nat.mul_comm] using h

theorem le_foldl_digits (s : Nat) (ds : List Nat) : s ≤ ds.foldl (fun s d => s * 10 + d) s := by
  induction ds generalizing s with
  | nil => exact Nat.le_refl s
  | cons d ds ih =>
    have := ih (s * 10 + d)
    simp only [List.foldl_cons]
    omega

theorem absorb_eq (s : Nat) (ds : List Nat)
    (h : ds.foldl (fun s d => s * 10 + d) s ≤ Numeral.significandLimit) :
    Numeral.absorb s ds = (ds.foldl (fun s d => s * 10 + d) s, []) := by
  induction ds generalizing s with
  | nil => rfl
  | cons d ds ih =>
    have hd : s * 10 + d ≤ Numeral.significandLimit := Nat.le_trans (le_foldl_digits _ ds) h
    rw [Numeral.absorb, if_pos hd, ih _ h]
    rfl

theorem found_of {n : Int} (hl : Int64.minValue.toInt ≤ n) (hu : n ≤ Int64.maxValue.toInt) :
    (Numeral.of n).found = .ok (.integer n) := by
  have hlow : Int64.minValue.toInt = -9223372036854775808 := rfl
  have hupp : Int64.maxValue.toInt = 9223372036854775807 := rfl
  have hlimit : Numeral.significandLimit = 18446744073709551615 := rfl
  have habs : Numeral.absorb 0 (digitsOf n.natAbs) = (n.natAbs, []) := by
    rw [absorb_eq, foldl_digitsOf]
    rw [foldl_digitsOf]
    omega
  have hint : (Numeral.of n).integer? = some n := by
    simp only [Numeral.integer?, Numeral.of, habs]
    change (if !decide (n < 0) then some (n.natAbs : Int) else
      if 0 < n.natAbs ∧ n.natAbs ≤ Int64.minValue.toInt.natAbs then some (-(n.natAbs : Int)) else
        none) = some n
    by_cases hn : n < 0
    · have hb : 0 < n.natAbs ∧ n.natAbs ≤ Int64.minValue.toInt.natAbs := by omega
      have hneg : -(n.natAbs : Int) = n := by omega
      have hd : ¬ (!decide (n < 0)) = true := by simp [hn]
      rw [if_neg hd, if_pos hb, hneg]
    · have hpos : (n.natAbs : Int) = n := by omega
      have hd : (!decide (n < 0)) = true := by simp [hn]
      rw [if_pos hd, hpos]
  simp [Numeral.found, hint]

theorem spelled_of (n : Int) : (Numeral.of n).Spelled
    ((if n < 0 then ['-'] else []) ++ Nat.toDigits 10 n.natAbs) := by
  obtain ⟨hdigits, htext⟩ := digits_of n.natAbs
  have hzero : (digitsOf n.natAbs).head? = some 0 → digitsOf n.natAbs = [0] := by
    rcases Nat.eq_zero_or_pos n.natAbs with hn | hn
    · rw [hn, digitsOf_of_lt (by decide)]
      exact fun _ => rfl
    · obtain ⟨d, ds, hd, heq⟩ := digitsOf_of_pos hn
      intro h
      rw [heq] at h
      cases h
      exact absurd hd (Nat.lt_irrefl 0)
  refine ⟨Nat.toDigits 10 n.natAbs, ⟨hdigits, hzero, [], [], .none, .none, ?_⟩, ?_⟩
  · rw [List.append_nil, List.append_nil]
    exact htext.symm
  · simp [Numeral.of]

def body (s : String) : List Char := s.toList.flatMap escape ++ ['"']

namespace Value

mutual
def text : Value → List Char
  | null => ['n', 'u', 'l', 'l']
  | bool true => ['t', 'r', 'u', 'e']
  | bool false => ['f', 'a', 'l', 's', 'e']
  | number n => (toString n).toList
  | string s => '"' :: body s
  | array vs => '[' :: (itemsText vs ++ [']'])
  | object ms => '\x7b' :: (membersText ms ++ ['\x7d'])

def itemsText : List Value → List Char
  | [] => []
  | v :: vs => v.text ++ laterItems vs

def laterItems : List Value → List Char
  | [] => []
  | v :: vs => ',' :: (v.text ++ laterItems vs)

def membersText : List (String × Value) → List Char
  | [] => []
  | (k, v) :: ms => '"' :: (body k ++ ':' :: (v.text ++ laterMembers ms))

def laterMembers : List (String × Value) → List Char
  | [] => []
  | (k, v) :: ms => ',' :: '"' :: (body k ++ ':' :: (v.text ++ laterMembers ms))
end

theorem laterItems_cons (v : Value) (vs : List Value) :
    laterItems (v :: vs) = ',' :: itemsText (v :: vs) := by
  rw [laterItems, itemsText]

theorem laterMembers_cons (m : String × Value) (ms : List (String × Value)) :
    laterMembers (m :: ms) = ',' :: membersText (m :: ms) := by
  rw [laterMembers, membersText]

theorem toList_quote (s : String) : (quote s).toList = '"' :: body s := by
  simp [quote, body]

mutual
theorem toList_compact : ∀ v : Value, v.compact.toList = v.text
  | null => rfl
  | bool true => rfl
  | bool false => rfl
  | number n => rfl
  | string s => toList_quote s
  | array vs => by
    simp [compact, text, toList_compactItems vs]
  | object ms => by
    simp [compact, text, toList_compactMembers ms]

theorem toList_compactItems : ∀ vs : List Value, (compactItems vs).toList = itemsText vs
  | [] => rfl
  | [v] => by
    simp [compactItems, itemsText, laterItems, toList_compact v]
  | v :: w :: vs => by
    simp [compactItems, itemsText, laterItems_cons w vs, toList_compact v,
      toList_compactItems (w :: vs)]

theorem toList_compactMembers :
    ∀ ms : List (String × Value), (compactMembers ms).toList = membersText ms
  | [] => rfl
  | [(k, v)] => by
    simp [compactMembers, membersText, laterMembers, toList_quote, toList_compact v]
  | (k, v) :: m :: ms => by
    simp [compactMembers, membersText, laterMembers_cons m ms, toList_quote, toList_compact v,
      toList_compactMembers (m :: ms)]
end

theorem text_number (n : Int) :
    (number n).text = (if n < 0 then ['-'] else []) ++ Nat.toDigits 10 n.natAbs := by
  cases n with
  | ofNat m =>
    have hm : ¬ Int.ofNat m < 0 := Int.not_lt.2 (Int.natCast_nonneg m)
    rw [if_neg hm]
    exact Nat.toList_repr
  | negSucc m =>
    rw [if_pos (Int.negSucc_lt_zero m)]
    change ("-" ++ Nat.repr (m + 1)).toList = _
    rw [String.toList_append, Nat.toList_repr]
    rfl

end Value

namespace Raw

mutual
theorem whole_of : ∀ v : Value, (of v).Whole
  | .null => trivial
  | .bool _ => trivial
  | .number _ => trivial
  | .string _ => rfl
  | .array vs => ⟨whole_ofItems vs, rfl⟩
  | .object ms => ⟨whole_ofMembers ms, rfl⟩

theorem whole_ofItems : ∀ vs : List Value, WholeItems (ofItems vs)
  | [] => trivial
  | v :: vs => ⟨whole_of v, whole_ofItems vs⟩

theorem whole_ofMembers : ∀ ms : List (String × Value), WholeMembers (ofMembers ms)
  | [] => trivial
  | (_, v) :: ms => ⟨⟨rfl, whole_of v⟩, whole_ofMembers ms⟩
end

end Raw

theorem spaced_body (s : String) {ts : List Token} {cs : List Char} (h : Spaced ts cs) :
    Spaced (.string (Lexeme.of s).pieces :: ts) ('"' :: (body s ++ cs)) := by
  rw [body, List.append_assoc]
  exact h.string (spelling_of s.toList)

open Raw (tokens itemTokens laterItems memberTokens laterMembers ofItems ofMembers)

mutual
theorem spaced_text : ∀ v : Value, Spaced (Raw.of v).tokens v.text
  | .null => .fixed .nil
  | .bool true => .fixed .nil
  | .bool false => .fixed .nil
  | .number n => by
    have h := Spaced.first (t := .number (.of n)) (spelled_of n) .nil
    rw [List.append_nil] at h
    rwa [Value.text_number]
  | .string s => by
    have h := spaced_body s .nil
    rw [List.append_nil] at h
    exact h
  | .array vs => .fixed ((spaced_itemsText vs).append (.fixed .nil))
  | .object ms => .fixed ((spaced_membersText ms).append (.fixed .nil))

theorem spaced_itemsText : ∀ vs : List Value, Spaced (itemTokens (ofItems vs)) (Value.itemsText vs)
  | [] => .nil
  | v :: vs => (spaced_text v).append (spaced_laterItems vs)

theorem spaced_laterItems : ∀ vs : List Value,
    Spaced (laterItems (ofItems vs)) (Value.laterItems vs)
  | [] => .nil
  | v :: vs => .fixed ((spaced_text v).append (spaced_laterItems vs))

theorem spaced_membersText : ∀ ms : List (String × Value),
    Spaced (memberTokens (ofMembers ms)) (Value.membersText ms)
  | [] => .nil
  | (k, v) :: ms => spaced_body k (.fixed ((spaced_text v).append (spaced_laterMembers ms)))

theorem spaced_laterMembers : ∀ ms : List (String × Value),
    Spaced (laterMembers (ofMembers ms)) (Value.laterMembers ms)
  | [] => .nil
  | (k, v) :: ms =>
    .fixed (spaced_body k (.fixed ((spaced_text v).append (spaced_laterMembers ms))))
end

/-- The compact form of a value is read as that value, to its end. -/
theorem read_compact (v : Value) : Raw.read v.compact.toList = (.of v, []) := by
  rw [Value.toList_compact]
  have h := read_spaced (Raw.whole_of v) (spaced_text v) (s := []) nofun
  rwa [List.append_nil] at h

end CanonTree.Json
