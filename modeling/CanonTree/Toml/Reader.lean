import CanonTree.Toml.Scalar

namespace CanonTree.Toml

def skipComment? (cs : List Char) : Option (List Char) :=
  match cs with
  | '#' :: cs =>
    let rest := cs.dropWhile isPlain
    if rest.isEmpty || (newline? rest).isSome then some rest else none
  | _ => some cs

def skipLoose? : Nat → List Char → Option (List Char)
  | 0, cs => some cs
  | n + 1, cs =>
    match skipBlanks cs with
    | '#' :: cs => do
      let rest ← skipComment? ('#' :: cs)
      skipLoose? n rest
    | cs =>
      match newline? cs with
      | some rest => skipLoose? n rest
      | none => some cs

def isBareKey (c : Char) : Bool := c.isAlphanum || c = '_' || c = '-'

def simpleKey? (cs : List Char) : Option (String × List Char) :=
  match cs with
  | '"' :: '"' :: '"' :: _ | '\'' :: '\'' :: '\'' :: _ => none
  | '"' :: _ | '\'' :: _ => string? cs
  | cs =>
    let key := cs.takeWhile isBareKey
    if key.isEmpty then none else some (String.ofList key, cs.drop key.length)

/-- How deep lists, tables in braces and the parts of a key may be nested. -/
def maxDepth : Nat := 79

/-- A key of at most so many parts: those in front of its last one, the last one, and what follows
the blanks behind it. -/
def keyParts? : Nat → List Char → Option (List String × String × List Char)
  | 0, _ => none
  | n + 1, cs => do
    let (k, rest) ← simpleKey? (skipBlanks cs)
    match skipBlanks rest with
    | '.' :: rest => do
      let (path, key, rest) ← keyParts? n rest
      return (k :: path, key, rest)
    | rest => return ([], k, rest)

def key? (cs : List Char) : Option (List String × String × List Char) := keyParts? maxDepth cs

mutual
def value? (depth : Nat) : Nat → List Char → Option (Item × List Char)
  | 0, _ => none
  | n + 1, cs =>
    match cs with
    | '"' :: _ | '\'' :: _ => (string? cs).map fun (s, rest) => (.string s, rest)
    | '[' :: cs =>
      match depth with
      | 0 => none
      | depth + 1 => do
        let (items, rest) ← items? depth n cs
        return (.array items, rest)
    | '\x7b' :: cs =>
      match depth with
      | 0 => none
      | depth + 1 =>
        match skipBlanks cs with
        | '\x7d' :: rest => some (.inline [], rest)
        | cs => do
          let (ms, rest) ← members? depth n cs []
          return (.inline (sealedMembers ms), rest)
    | cs => word? cs

def items? (depth : Nat) : Nat → List Char → Option (List Item × List Char)
  | 0, _ => none
  | n + 1, cs => do
    match ← skipLoose? cs.length cs with
    | ']' :: rest => return ([], rest)
    | cs =>
      let (v, rest) ← value? depth n cs
      match ← skipLoose? rest.length rest with
      | ',' :: rest => do
        let (vs, rest) ← items? depth n rest
        return (v :: vs, rest)
      | ']' :: rest => return ([v], rest)
      | _ => none

def members? (depth : Nat) : Nat → List Char → Members → Option (Members × List Char)
  | 0, _, _ => none
  | n + 1, cs, ms => do
    let (path, key, rest) ← key? cs
    match rest with
    | '=' :: rest => do
      let (v, rest) ← value? depth n (skipBlanks rest)
      let ms ← ms.insert? v path key
      match skipBlanks rest with
      | ',' :: rest => members? depth n rest ms
      | '\x7d' :: rest => return (ms, rest)
      | _ => none
    | _ => none
end

def endLine? (cs : List Char) : Option (List Char) := do
  match ← skipComment? (skipBlanks cs) with
  | [] => return []
  | cs => newline? cs

structure State where
  root : Members := []
  path : List String := []

def header? (s : State) (cs : List Char) : Option (State × List Char) := do
  match cs with
  | '[' :: cs => do
    let (path, key, rest) ← key? cs
    let root ← s.root.modify? (Members.openElement? key) path
    match rest with
    | ']' :: ']' :: rest => return ({ root, path := path ++ [key] }, rest)
    | _ => none
  | cs => do
    let (path, key, rest) ← key? cs
    let root ← s.root.modify? (Members.openTable? key) path
    match rest with
    | ']' :: rest => return ({ root, path := path ++ [key] }, rest)
    | _ => none

def assignment? (s : State) (cs : List Char) : Option (State × List Char) := do
  let (path, key, rest) ← key? cs
  match rest with
  | '=' :: rest => do
    let (v, rest) ← value? maxDepth (2 * rest.length + 2) (skipBlanks rest)
    let root ← s.root.modify? (fun ms => ms.insert? v path key) s.path
    return ({ s with root }, rest)
  | _ => none

def lines? : Nat → State → List Char → Option Members
  | 0, _, _ => none
  | n + 1, s, cs =>
    match skipBlanks cs with
    | [] => some s.root
    | '#' :: cs => do lines? n s (← endLine? ('#' :: cs))
    | '[' :: cs => do
      let (s, rest) ← header? s cs
      lines? n s (← endLine? rest)
    | cs =>
      match newline? cs with
      | some rest => lines? n s rest
      | none => do
        let (s, rest) ← assignment? s cs
        lines? n s (← endLine? rest)

def read? (text : String) : Option Members :=
  let cs := match text.toList with
    | '\uFEFF' :: cs => cs
    | cs => cs
  lines? (cs.length + 1) {} cs

end CanonTree.Toml
