import CanonTree.Proofs.Json.Decoding

namespace CanonTree.Json

/-- Where a character stands: outside of strings, in one, or behind a backslash in one. -/
inductive Place where
  | outside | inside | escaped

def squeezeFrom : Place → List Char → List Char
  | _, [] => []
  | .outside, c :: cs =>
    if isSpace c then squeezeFrom .outside cs
    else c :: squeezeFrom (if c = '"' then .inside else .outside) cs
  | .inside, c :: cs =>
    c :: squeezeFrom (if c = '"' then .outside else if c = '\\' then .escaped else .inside) cs
  | .escaped, c :: cs => c :: squeezeFrom .inside cs

def squeeze (text : String) : String := String.ofList (squeezeFrom .outside text.toList)

/-- Whatever follows, `cs` is squeezed to `ds`, and both end outside of strings. -/
def Squeezes (cs ds : List Char) : Prop :=
  ∀ rest, squeezeFrom .outside (cs ++ rest) = ds ++ squeezeFrom .outside rest

namespace Squeezes

variable {cs ds cs' ds' : List Char} {c : Char}

theorem append (h : Squeezes cs ds) (h' : Squeezes cs' ds') :
    Squeezes (cs ++ cs') (ds ++ ds') := by
  intro rest
  rw [List.append_assoc, h, h', List.append_assoc]

theorem nil : Squeezes [] [] := fun _ => rfl

theorem cons (hspace : isSpace c = false) (hquote : c ≠ '"') (h : Squeezes cs ds) :
    Squeezes (c :: cs) (c :: ds) := by
  intro rest
  rw [List.cons_append, squeezeFrom, if_neg (by simp [hspace]), if_neg hquote, h]
  rfl

theorem blank (hspace : isSpace c = true) (h : Squeezes cs ds) : Squeezes (c :: cs) ds := by
  intro rest
  rw [List.cons_append, squeezeFrom, if_pos hspace, h]

theorem of_blank (h : Blank cs) : Squeezes cs [] := by
  induction cs with
  | nil => exact nil
  | cons c cs ih =>
    exact blank (h c List.mem_cons_self) (ih fun d hd => h d (List.mem_cons_of_mem c hd))

theorem of_plain (h : ∀ c ∈ cs, isSpace c = false ∧ c ≠ '"') : Squeezes cs cs := by
  induction cs with
  | nil => exact nil
  | cons c cs ih =>
    obtain ⟨hspace, hquote⟩ := h c List.mem_cons_self
    exact cons hspace hquote (ih fun d hd => h d (List.mem_cons_of_mem c hd))

theorem of_word (h : cs.all (fun c => !isSpace c && c != '"') = true) : Squeezes cs cs := by
  refine of_plain fun c hc => ?_
  simpa using List.all_eq_true.1 h c hc

end Squeezes

theorem plain_of_hexUnit? {i j k l : Char} {n : Nat} (h : hexUnit? i j k l = some n) :
    ∀ c ∈ [i, j, k, l], c ≠ '"' ∧ c ≠ '\\' := by
  have hsome : ∀ c ∈ [i, j, k, l], (hexDigit? c).isSome := by
    intro c hc
    by_contra hnone
    have hn : hexDigit? c = none := by simpa using hnone
    simp only [List.mem_cons, List.not_mem_nil, or_false] at hc
    obtain rfl | rfl | rfl | rfl := hc <;>
      simp only [hexUnit?, hn, Option.bind_eq_bind, Option.bind_none, Option.bind_fun_none] at h <;>
      cases h
  intro c hc
  constructor <;> rintro rfl <;> exact absurd (hsome _ hc) (by decide)

/-- Within a string nothing is taken out. -/
theorem squeezeFrom_spelling {ps : List Piece} {cs : List Char} (h : Piece.Spelling ps cs)
    (rest : List Char) :
    squeezeFrom .inside (cs ++ '"' :: rest) = cs ++ '"' :: squeezeFrom .outside rest := by
  induction h with
  | nil => rfl
  | char hquote hback _ _ ih => simp [squeezeFrom, hquote, hback, ih]
  | escape _ _ ih => simp [squeezeFrom, ih]
  | unit hn _ ih =>
    have hplain := plain_of_hexUnit? hn
    simp only [List.forall_mem_cons, List.not_mem_nil, false_implies, implies_true, and_true]
      at hplain
    obtain ⟨⟨hi, hi'⟩, ⟨hj, hj'⟩, ⟨hk, hk'⟩, ⟨hl, hl'⟩⟩ := hplain
    simp [squeezeFrom, hi, hi', hj, hj', hk, hk', hl, hl', ih]

theorem squeezes_string (s : String) {cs ds : List Char} (h : Squeezes cs ds) :
    Squeezes ('"' :: (body s ++ cs)) ('"' :: (body s ++ ds)) := by
  intro rest
  have hquote : isSpace '"' = false := rfl
  have hbody := squeezeFrom_spelling (spelling_of s.toList) (cs ++ rest)
  rw [h] at hbody
  rw [List.cons_append, squeezeFrom, if_neg (by simp [hquote]), if_pos rfl, body]
  simpa using hbody

theorem plain_of_isDigit {c : Char} (h : c.isDigit) : isSpace c = false ∧ c ≠ '"' := by
  have hspace : ¬ isSpace c = true := by
    intro hs
    simp only [isSpace, Bool.or_eq_true, decide_eq_true_eq] at hs
    obtain ((rfl | rfl) | rfl) | rfl := hs <;> revert h <;> decide
  refine ⟨Bool.eq_false_iff.2 hspace, ?_⟩
  rintro rfl
  exact absurd h (by decide)

theorem squeezes_number (n : Int) : Squeezes (toString n).toList (toString n).toList := by
  refine .of_plain fun c hc => ?_
  obtain rfl | hdigit := mem_toString_int hc
  · decide
  · exact plain_of_isDigit hdigit

open Value (indent prettyItems prettyMembers itemsText membersText)

theorem squeezes_indent (level : Nat) {cs ds : List Char} (h : Squeezes cs ds) :
    Squeezes ((indent level).toList ++ cs) ds := by
  have hblank : Blank (indent level).toList := by
    intro c hc
    rw [indent, String.toList_join, List.mem_flatMap] at hc
    obtain ⟨s, hs, hc⟩ := hc
    have hpair : s.toList = [' ', ' '] := by
      rw [List.eq_of_mem_replicate hs]
      rfl
    simp only [hpair, List.mem_cons, List.not_mem_nil, or_false, or_self] at hc
    rw [hc]
    rfl
  exact (Squeezes.of_blank hblank).append h

theorem squeezes_block {o c : Char} (ho : isSpace o = false ∧ o ≠ '"')
    (hc : isSpace c = false ∧ c ≠ '"') (level : Nat) {cs ds : List Char} (h : Squeezes cs ds) :
    Squeezes (o :: '\n' :: (cs ++ '\n' :: ((indent level).toList ++ [c]))) (o :: (ds ++ [c])) :=
  .cons ho.1 ho.2 (.blank rfl (h.append (.blank rfl
    (squeezes_indent level (.cons hc.1 hc.2 .nil)))))

theorem squeezes_member (level : Nat) (k : String) {cs ds : List Char} (h : Squeezes cs ds) :
    Squeezes ((indent level).toList ++ '"' :: (body k ++ ':' :: ' ' :: cs))
      ('"' :: (body k ++ ':' :: ds)) :=
  squeezes_indent level (squeezes_string k (.cons rfl (by decide) (.blank rfl h)))

mutual
theorem squeezes_prettyAt (level : Nat) : ∀ v : Value, Squeezes (v.prettyAt level).toList v.text
  | .null => by
    rw [Value.prettyAt, Value.text]
    exact .of_word (by decide)
  | .bool true => by
    rw [Value.prettyAt, Value.text]
    exact .of_word (by decide)
  | .bool false => by
    rw [Value.prettyAt, Value.text]
    exact .of_word (by decide)
  | .number n => by
    rw [Value.prettyAt]
    exact squeezes_number n
  | .string s => by
    have h := squeezes_string s .nil
    rw [List.append_nil] at h
    rwa [Value.prettyAt, Value.toList_quote, Value.text]
  | .array [] => by
    rw [Value.prettyAt]
    exact show Squeezes ['[', ']'] _ from .of_word (by decide)
  | .array (v :: vs) => by
    have h := squeezes_block (o := '[') (c := ']') (by decide) (by decide) level
      (squeezes_prettyItems level (v :: vs))
    simpa [Value.prettyAt, Value.text] using h
  | .object [] => by
    rw [Value.prettyAt]
    exact show Squeezes ['\x7b', '\x7d'] _ from .of_word (by decide)
  | .object (m :: ms) => by
    have h := squeezes_block (o := '\x7b') (c := '\x7d') (by decide) (by decide) level
      (squeezes_prettyMembers level (m :: ms))
    simpa [Value.prettyAt, Value.text] using h

theorem squeezes_prettyItems (level : Nat) : ∀ vs : List Value,
    Squeezes (prettyItems level vs).toList (itemsText vs)
  | [] => .nil
  | [v] => by
    have h := squeezes_indent (level + 1) (squeezes_prettyAt (level + 1) v)
    simpa [prettyItems, itemsText, Value.laterItems] using h
  | v :: w :: vs => by
    have hrest := squeezes_prettyItems level (w :: vs)
    have h := squeezes_indent (level + 1) ((squeezes_prettyAt (level + 1) v).append
      (.cons (c := ',') rfl (by decide) (.blank (c := '\n') rfl hrest)))
    rw [itemsText, Value.laterItems_cons]
    simpa [prettyItems] using h

theorem squeezes_prettyMembers (level : Nat) : ∀ ms : List (String × Value),
    Squeezes (prettyMembers level ms).toList (membersText ms)
  | [] => .nil
  | [(k, v)] => by
    have h := squeezes_member (level + 1) k (squeezes_prettyAt (level + 1) v)
    simpa [prettyMembers, membersText, Value.laterMembers, Value.toList_quote] using h
  | (k, v) :: m :: ms => by
    have hrest := squeezes_prettyMembers level (m :: ms)
    have h := squeezes_member (level + 1) k ((squeezes_prettyAt (level + 1) v).append
      (.cons (c := ',') rfl (by decide) (.blank (c := '\n') rfl hrest)))
    rw [membersText, Value.laterMembers_cons]
    simpa [prettyMembers, Value.toList_quote] using h
end

theorem squeeze_pretty (v : Value) : squeeze v.pretty = v.compact := by
  have h := squeezes_prettyAt 0 v []
  rw [List.append_nil, squeezeFrom, List.append_nil] at h
  rw [squeeze, Value.pretty, h, ← Value.toList_compact, String.ofList_toList]

theorem squeeze_pretty_line (v : Value) : squeeze (v.pretty ++ "\n") = v.compact := by
  have h := squeezes_prettyAt 0 v "\n".toList
  have hfeed : squeezeFrom .outside "\n".toList = [] := by decide
  rw [hfeed, List.append_nil] at h
  rw [squeeze, Value.pretty, String.toList_append, h, ← Value.toList_compact,
    String.ofList_toList]

end CanonTree.Json
