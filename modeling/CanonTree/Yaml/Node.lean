import CanonTree.Yaml.Tokens

namespace CanonTree.Yaml

inductive Node where
  | scalar (text : String) (style : Style) (tag : Option String)
  | sequence (items : List Node)
  | mapping (members : List (Node × Node))

instance : Inhabited Node := ⟨.sequence []⟩

def Node.empty (tag : Option String) : Node := .scalar "" .plain tag

/-- What an alias inside the node it names stands for. No settings can be read from it. -/
def Node.unfinished : Node := .sequence []

abbrev Anchors := List (String × Node)

structure Properties where
  anchor : Option String := none
  tag : Option String := none

abbrev Handles := List (String × String)

def ownHandles : Handles := [("", ""), ("!", "!"), ("!!", "tag:yaml.org,2002:")]

def fullTag? (handles : Handles) (handle suffix : String) : Option String :=
  (handles.find? (·.1 = handle)).map (·.2 ++ suffix)

def properties? (handles : Handles) : List Token → Properties → Option (Properties × List Token)
  | .anchor name :: ts, p =>
    if p.anchor.isSome then some (p, .anchor name :: ts)
    else properties? handles ts { p with anchor := some name }
  | .tag handle suffix :: ts, p =>
    if p.tag.isSome then some (p, .tag handle suffix :: ts)
    else do properties? handles ts { p with tag := some (← fullTag? handles handle suffix) }
  | ts, p => some (p, ts)

/-- What a part of the text holds, the anchors known behind it, and the tokens that follow. -/
abbrev Part (α : Type) := α × Anchors × List Token

def remember (name : Option String) (n : Node) (env : Anchors) : Anchors :=
  match name with
  | some a => (a, n) :: env
  | none => env

section
variable (handles : Handles)

mutual
/-- Composes a node; an alias is replaced by what it stands for. In a block, `indentless` allows a
sequence that is not indented. -/
def node? (block indentless : Bool) : Nat → Anchors → List Token → Option (Part Node)
  | 0, _, _ => none
  | n + 1, env, ts => do
    match ts with
    | .alias name :: ts =>
      let (_, node) ← env.find? (·.1 = name)
      return (node, env, ts)
    | ts =>
      let (p, ts) ← properties? handles ts {}
      let (node, env, ts) ← content? block indentless p n (remember p.anchor .unfinished env) ts
      return (node, remember p.anchor node env, ts)

def content? (block indentless : Bool) (p : Properties) :
    Nat → Anchors → List Token → Option (Part Node)
  | 0, _, _ => none
  | n + 1, env, ts =>
    match ts with
    | .scalar text style :: ts => some (.scalar text style p.tag, env, ts)
    | .flowSequenceStart :: ts => do
      let (items, env, ts) ← flowItems? true n env ts
      return (.sequence items, env, ts)
    | .flowMappingStart :: ts => do
      let (members, env, ts) ← flowMembers? true n env ts
      return (.mapping members, env, ts)
    | .blockSequenceStart :: rest =>
      if block then do
        let (items, env, ts) ← blockItems? n env rest
        return (.sequence items, env, ts)
      else if p.anchor.isSome || p.tag.isSome then some (.empty p.tag, env, ts) else none
    | .blockMappingStart :: rest =>
      if block then do
        let (members, env, ts) ← blockMembers? n env rest
        return (.mapping members, env, ts)
      else if p.anchor.isSome || p.tag.isSome then some (.empty p.tag, env, ts) else none
    | .blockEntry :: _ =>
      if indentless then do
        let (items, env, ts) ← indentlessItems? n env ts
        return (.sequence items, env, ts)
      else if p.anchor.isSome || p.tag.isSome then some (.empty p.tag, env, ts) else none
    | ts => if p.anchor.isSome || p.tag.isSome then some (.empty p.tag, env, ts) else none

def blockItems? : Nat → Anchors → List Token → Option (Part (List Node))
  | 0, _, _ => none
  | n + 1, env, ts =>
    match ts with
    | .blockEnd :: ts => some ([], env, ts)
    | .blockEntry :: ts => do
      let (item, env, ts) ← match ts with
        | .blockEntry :: _ | .blockEnd :: _ => some (Node.empty none, env, ts)
        | _ => node? true false n env ts
      let (items, env, ts) ← blockItems? n env ts
      return (item :: items, env, ts)
    | _ => none

def indentlessItems? : Nat → Anchors → List Token → Option (Part (List Node))
  | 0, _, _ => none
  | n + 1, env, ts =>
    match ts with
    | .blockEntry :: ts => do
      let (item, env, ts) ← match ts with
        | .blockEntry :: _ | .key :: _ | .value :: _ | .blockEnd :: _ =>
          some (Node.empty none, env, ts)
        | _ => node? true false n env ts
      let (items, env, ts) ← indentlessItems? n env ts
      return (item :: items, env, ts)
    | ts => some ([], env, ts)

def blockMembers? : Nat → Anchors → List Token → Option (Part (List (Node × Node)))
  | 0, _, _ => none
  | n + 1, env, ts =>
    match ts with
    | .blockEnd :: ts => some ([], env, ts)
    | .key :: ts => do
      let (key, env, ts) ← blockPart? n env ts
      let (value, env, ts) ← match ts with
        | .value :: ts => blockPart? n env ts
        | ts => some (Node.empty none, env, ts)
      let (members, env, ts) ← blockMembers? n env ts
      return ((key, value) :: members, env, ts)
    | _ => none

def blockPart? : Nat → Anchors → List Token → Option (Part Node)
  | 0, _, _ => none
  | n + 1, env, ts =>
    match ts with
    | .key :: _ | .value :: _ | .blockEnd :: _ => some (.empty none, env, ts)
    | ts => node? true true n env ts

def flowItems? (first : Bool) : Nat → Anchors → List Token → Option (Part (List Node))
  | 0, _, _ => none
  | n + 1, env, ts => do
    match ts with
    | .flowSequenceEnd :: ts => return ([], env, ts)
    | ts =>
      let ts ← match first, ts with
        | true, ts => some ts
        | false, .flowEntry :: ts => some ts
        | false, _ => none
      match ts with
      | .flowSequenceEnd :: ts => return ([], env, ts)
      | .key :: ts =>
        let (key, env, ts) ← flowPart? n env ts
        let (value, env, ts) ← match ts with
          | .value :: ts => flowPart? n env ts
          | ts => some (Node.empty none, env, ts)
        let (items, env, ts) ← flowItems? false n env ts
        return (.mapping [(key, value)] :: items, env, ts)
      | ts =>
        let (item, env, ts) ← node? false false n env ts
        let (items, env, ts) ← flowItems? false n env ts
        return (item :: items, env, ts)

def flowMembers? (first : Bool) : Nat → Anchors → List Token → Option (Part (List (Node × Node)))
  | 0, _, _ => none
  | n + 1, env, ts => do
    match ts with
    | .flowMappingEnd :: ts => return ([], env, ts)
    | ts =>
      let ts ← match first, ts with
        | true, ts => some ts
        | false, .flowEntry :: ts => some ts
        | false, _ => none
      match ts with
      | .flowMappingEnd :: ts => return ([], env, ts)
      | .key :: ts =>
        let (key, env, ts) ← flowPart? n env ts
        let (value, env, ts) ← match ts with
          | .value :: ts => flowPart? n env ts
          | ts => some (Node.empty none, env, ts)
        let (members, env, ts) ← flowMembers? false n env ts
        return ((key, value) :: members, env, ts)
      | ts =>
        let (key, env, ts) ← node? false false n env ts
        let (members, env, ts) ← flowMembers? false n env ts
        return ((key, Node.empty none) :: members, env, ts)

def flowPart? : Nat → Anchors → List Token → Option (Part Node)
  | 0, _, _ => none
  | n + 1, env, ts =>
    match ts with
    | .value :: _ | .flowEntry :: _ | .flowSequenceEnd :: _ | .flowMappingEnd :: _ =>
      some (.empty none, env, ts)
    | ts => node? false false n env ts
end
end

/-- The directives in front of a document. The version must be one that is known, and neither it nor
a handle can be given twice. -/
def directives? (versioned : Bool) : Handles → List Token → Option (Handles × List Token)
  | handles, .version major minor :: ts =>
    if versioned || major ≠ 1 || (minor ≠ 1 && minor ≠ 2) then none
    else directives? true handles ts
  | handles, .handle name beginning :: ts =>
    if handles.any (·.1 = name) then none
    else directives? versioned (handles ++ [(name, beginning)]) ts
  | handles, ts => some (handles, ts)

def content (handles : Handles) (ts : List Token) : Option (Node × List Token) :=
  (node? handles true false (4 * ts.length + 4) [] ts).map fun (node, _, ts) => (node, ts)

def isDocumentMark : Token → Bool
  | .version .. | .handle .. | .documentStart | .documentEnd => true
  | _ => false

/-- A document behind its directives. Only one that begins with a mark may be empty, and directives
need the mark. -/
def document? (handles : Handles) (marked : Bool) : List Token → Option (Node × List Token)
  | .documentStart :: ts =>
    if ts.head?.all isDocumentMark then some (.empty none, ts)
    else content (handles ++ ownHandles) ts
  | ts => if marked then none else content ownHandles ts

/-- The one document of a text; nothing at all if the text holds no document. -/
def read? (text : String) : Option (Option Node) := do
  match ← tokens? text with
  | [] => return none
  | ts =>
    let (handles, rest) ← directives? false [] ts
    let (node, rest) ← document? handles (rest.length ≠ ts.length) rest
    if (rest.dropWhile (· = .documentEnd)).isEmpty then return some node else none

end CanonTree.Yaml
