namespace CanonTree.Json

inductive Value where
  | null
  | bool (b : Bool)
  | number (n : Int)
  | string (s : String)
  | array (items : List Value)
  | object (members : List (String × Value))

instance : Inhabited Value := ⟨.null⟩

def hexDigit (n : Nat) : Char := "0123456789abcdef".toList.getD n '0'

def escape (c : Char) : List Char :=
  if c = '"' then ['\\', '"']
  else if c = '\\' then ['\\', '\\']
  else if c.toNat < 32 then
    match c.toNat with
    | 8 => ['\\', 'b']
    | 9 => ['\\', 't']
    | 10 => ['\\', 'n']
    | 12 => ['\\', 'f']
    | 13 => ['\\', 'r']
    | n => ['\\', 'u', '0', '0', hexDigit (n / 16), hexDigit (n % 16)]
  else [c]

def quote (s : String) : String := String.ofList ('"' :: s.toList.flatMap escape ++ ['"'])

namespace Value

mutual
def compact : Value → String
  | null => "null"
  | bool b => if b then "true" else "false"
  | number n => toString n
  | string s => quote s
  | array items => "[" ++ compactItems items ++ "]"
  | object members => "\x7b" ++ compactMembers members ++ "\x7d"

def compactItems : List Value → String
  | [] => ""
  | [v] => v.compact
  | v :: vs => v.compact ++ "," ++ compactItems vs

def compactMembers : List (String × Value) → String
  | [] => ""
  | [(k, v)] => quote k ++ ":" ++ v.compact
  | (k, v) :: ms => quote k ++ ":" ++ v.compact ++ "," ++ compactMembers ms
end

def indent (level : Nat) : String := String.join (List.replicate level "  ")

mutual
def prettyAt (level : Nat) : Value → String
  | array (v :: vs) => "[\n" ++ prettyItems level (v :: vs) ++ "\n" ++ indent level ++ "]"
  | object (m :: ms) => "\x7b\n" ++ prettyMembers level (m :: ms) ++ "\n" ++ indent level ++ "\x7d"
  | array [] => "[]"
  | object [] => "\x7b\x7d"
  | null => "null"
  | bool b => if b then "true" else "false"
  | number n => toString n
  | string s => quote s

def prettyItems (level : Nat) : List Value → String
  | [] => ""
  | [v] => indent (level + 1) ++ v.prettyAt (level + 1)
  | v :: vs => indent (level + 1) ++ v.prettyAt (level + 1) ++ ",\n" ++ prettyItems level vs

def prettyMembers (level : Nat) : List (String × Value) → String
  | [] => ""
  | [(k, v)] => indent (level + 1) ++ quote k ++ ": " ++ v.prettyAt (level + 1)
  | (k, v) :: ms =>
    indent (level + 1) ++ quote k ++ ": " ++ v.prettyAt (level + 1) ++ ",\n" ++
      prettyMembers level ms
end

def pretty (v : Value) : String := v.prettyAt 0

end Value
end CanonTree.Json
