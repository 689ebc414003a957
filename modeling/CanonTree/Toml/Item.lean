namespace CanonTree.Toml

/-- How a table came to be: by a header of its own, on the way to the header of another table, or on
the way of a dotted key. -/
inductive Standing where
  | explicit
  | implied
  | dotted
deriving DecidableEq

inductive Item where
  | string (s : String)
  | integer (n : Int)
  | boolean (b : Bool)
  | float (text : String)
  | dateTime (text : String)
  | array (items : List Item)
  | inline (members : List (String × Item))
  | table (standing : Standing) (members : List (String × Item))
  /-- Tables with the same header in double brackets, the last one first. -/
  | tables (reversed : List (List (String × Item)))

instance : Inhabited Item := ⟨.boolean false⟩

abbrev Members := List (String × Item)

namespace Members

def get? (ms : Members) (key : String) : Option Item := (ms.find? (·.1 = key)).map (·.2)

/-- Members stay in the order in which they were first met. -/
def put (ms : Members) (key : String) (item : Item) : Members :=
  if ms.any (·.1 = key) then ms.map fun m => if m.1 = key then (key, item) else m
  else ms ++ [(key, item)]

/-- Adds a value under a dotted key. The tables on the way must not have headers, and the last one
must come from dotted keys. -/
def insert? (ms : Members) (item : Item) : List String → String → Option Members
  | [], key => if (get? ms key).isSome then none else some (put ms key item)
  | k :: ks, key =>
    match get? ms k with
    | none => do
      let inner ← insert? [] item ks key
      return put ms k (.table .dotted inner)
    | some (.table .dotted inner) => do
      let inner ← insert? inner item ks key
      return put ms k (.table .dotted inner)
    | some (.table .implied inner) => do
      let inner ← if ks.isEmpty then none else insert? inner item ks key
      return put ms k (.table .implied inner)
    | some (.tables (last :: others)) => do
      let last ← if ks.isEmpty then none else insert? last item ks key
      return put ms k (.tables (last :: others))
    | _ => none

/-- Changes the members of the table at a path of header keys; tables that are missing on the way
are implied. -/
def modify? (f : Members → Option Members) : List String → Members → Option Members
  | [], ms => f ms
  | k :: ks, ms =>
    match get? ms k with
    | none => do return put ms k (.table .implied (← modify? f ks []))
    | some (.table standing inner) => do return put ms k (.table standing (← modify? f ks inner))
    | some (.tables (last :: others)) => do
      return put ms k (.tables ((← modify? f ks last) :: others))
    | _ => none

def openTable? (key : String) (ms : Members) : Option Members :=
  match get? ms key with
  | none => some (ms ++ [(key, .table .explicit [])])
  | some (.table .implied inner) => some (ms.filter (·.1 ≠ key) ++ [(key, .table .explicit inner)])
  | _ => none

def openElement? (key : String) (ms : Members) : Option Members :=
  match get? ms key with
  | none => some (put ms key (.tables [[]]))
  | some (.tables elements) => some (put ms key (.tables ([] :: elements)))
  | _ => none

end Members

mutual
/-- An item of a table in braces: the tables that its dotted keys made are as complete as it is. -/
def Item.sealed : Item → Item
  | .table _ ms => .inline (sealedMembers ms)
  | i => i

def sealedMembers : List (String × Item) → List (String × Item)
  | [] => []
  | (key, i) :: ms => (key, i.sealed) :: sealedMembers ms
end

end CanonTree.Toml
