import CanonTree.Proofs.Json.Written

namespace CanonTree.Json

def Numeral.value (n : Numeral) : Int :=
  let k : Nat := n.whole.foldl (fun s d => s * 10 + d) 0
  if n.negative then -k else k

theorem Numeral.value_of (n : Int) : (Numeral.of n).value = n := by
  simp only [value, of, foldl_digitsOf, decide_eq_true_eq]
  split <;> omega

namespace Raw

mutual
/-- The value, if nothing is wrong with the text and its numbers are integers. -/
def value? : Raw → Option Value
  | .null => some .null
  | .bool b => some (.bool b)
  | .number n => if n.fraction = [] ∧ n.exponent = none then some (.number n.value) else none
  | .string l => l.text.toOption.map .string
  | .array vs .closed => (values? vs).map .array
  | .object ms .closed => (members? ms).map .object
  | _ => none

def values? : List Raw → Option (List Value)
  | [] => some []
  | v :: vs => do return (← v.value?) :: (← values? vs)

def members? : List (Lexeme × Raw) → Option (List (String × Value))
  | [] => some []
  | (k, v) :: ms => do return (← k.text.toOption, ← v.value?) :: (← members? ms)
end

mutual
theorem value?_of : ∀ v : Value, (of v).value? = some v
  | .null => rfl
  | .bool _ => rfl
  | .number n => by
    rw [of, value?, if_pos ⟨rfl, rfl⟩, Numeral.value_of]
  | .string s => by
    rw [of, value?, text_of]
    rfl
  | .array vs => by
    rw [of, value?, values?_of vs]
    rfl
  | .object ms => by
    rw [of, value?, members?_of ms]
    rfl

theorem values?_of : ∀ vs : List Value, values? (ofItems vs) = some vs
  | [] => rfl
  | v :: vs => by
    rw [ofItems, values?, value?_of v, values?_of vs]
    rfl

theorem members?_of : ∀ ms : List (String × Value), members? (ofMembers ms) = some ms
  | [] => rfl
  | (k, v) :: ms => by
    rw [ofMembers, members?, text_of, value?_of v, members?_of ms]
    rfl
end

end Raw

namespace Value

def parse? (text : String) : Option Value :=
  let (r, rest) := Raw.read text.toList
  if rest.all isSpace then r.value? else none

theorem parse?_compact (v : Value) : parse? v.compact = some v := by
  rw [parse?, read_compact]
  exact Raw.value?_of v

theorem compact_injective : Function.Injective compact := by
  intro v w h
  have hparsed := congrArg parse? h
  rw [parse?_compact, parse?_compact] at hparsed
  exact Option.some.inj hparsed

theorem spells_compact (v : Value) : Spells (.of v) v.compact.toList := by
  rw [spells_iff, read_compact]
  exact ⟨Raw.whole_of v, rfl, fun _ hc => absurd hc List.not_mem_nil⟩

end Value

theorem mem_toString_int {n : Int} {c : Char} (h : c ∈ (toString n).toList) :
    c = '-' ∨ c.isDigit := by
  have htext : (toString n).toList = _ := Value.text_number n
  rw [htext, List.mem_append] at h
  obtain h | h := h
  · split at h
    · exact Or.inl (List.mem_singleton.1 h)
    · exact absurd h List.not_mem_nil
  · exact Or.inr (Nat.isDigit_of_mem_toDigits (by decide) (by decide) h)

theorem toString_int_injective {m n : Int} (h : (toString m).toList = (toString n).toList) :
    m = n := by
  have hvalue : Value.number m = Value.number n :=
    Value.compact_injective (String.toList_injective h)
  exact Value.number.inj hvalue

end CanonTree.Json
