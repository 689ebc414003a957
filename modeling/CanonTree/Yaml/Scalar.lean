import CanonTree.Yaml.Scan

namespace CanonTree.Yaml.Scan

structure Gap where
  blanks : List Char := []
  first : Option (List Char) := none
  more : List Char := []

/-- The text a gap stands for: a single line break folds into a space. -/
def Gap.text (g : Gap) : List Char :=
  match g.first with
  | none => g.blanks
  | some b => if b = ['\n'] then (if g.more.isEmpty then [' '] else g.more) else b ++ g.more

def gap? (minColumn : Option Nat) : Nat → Scan → Gap → Option (Gap × Scan)
  | 0, s, g => some (g, s)
  | n + 1, s, g =>
    match s.rest with
    | c :: _ =>
      if isBlank c then
        if c = '\t' && g.first.isSome && minColumn.any (s.column < ·) then none
        else gap? minColumn n s.advance
          (if g.first.isSome then g else { g with blanks := g.blanks ++ [c] })
      else if isBreak c then
        let b := breakText s.rest
        gap? minColumn n s.advance
          (if g.first.isSome then { g with more := g.more ++ b } else { g with first := some b })
      else some (g, s)
    | [] => some (g, s)

def endsPlain (flow : Bool) : List Char → Bool
  | [] => true
  | ':' :: rest => endsWord rest
  | c :: _ => isBlankOrBreak c || (flow && isFlowMark c)

def isMisplacedColon (flow : Bool) : List Char → Bool
  | ':' :: c :: _ => flow && (isFlowMark c || c = '?')
  | _ => false

def plainWord? : Nat → Scan → List Char → Option (List Char × Scan)
  | 0, s, done => some (done, s)
  | n + 1, s, done =>
    if isMisplacedColon s.inFlow s.rest then none
    else if endsPlain s.inFlow s.rest then some (done, s)
    else match s.rest with
      | c :: _ => plainWord? n s.advance (c :: done)
      | [] => some (done, s)

/-- Reads a plain scalar, back to front; `lead` is the gap in front of the next word. -/
def plain? : Nat → Scan → Gap → List Char → Option (List Char × Scan)
  | 0, s, _, done => some (done, s)
  | n + 1, s, lead, done =>
    let stop := some (done, if lead.first.isSome then { s with allowed := true } else s)
    if s.atDocumentMark || s.rest.head? = some '#' then stop
    else do
      let (word, s') ← plainWord? s.rest.length s []
      if word.isEmpty then stop
      else
        let done := word ++ lead.text.reverse ++ done
        let s := if lead.first.isSome then { s' with allowed := false } else s'
        if !(s.rest.head?.any isBlankOrBreak) then return (done, s)
        let (g, s) ← gap? (some s.minColumn) s.rest.length s {}
        if !s.inFlow && s.column < s.minColumn then
          return (done, if g.first.isSome then { s with allowed := true } else s)
        plain? n s g done

def hexChar? (width : Nat) (cs : List Char) : Option Char := do
  let digits := cs.take width
  let n ← if digits.length = width then
      digits.foldlM (fun n c => (hexValue? c).map fun d => n * 16 + d) 0
    else none
  if n.isValidChar then some (Char.ofNat n) else none

def escape? (c : Char) (rest : List Char) : Option (Char × Nat) :=
  match c with
  | '0' => some ('\x00', 1)
  | 'a' => some ('\x07', 1)
  | 'b' => some ('\x08', 1)
  | 't' | '\t' => some ('\t', 1)
  | 'n' => some ('\n', 1)
  | 'v' => some ('\x0b', 1)
  | 'f' => some ('\x0c', 1)
  | 'r' => some ('\r', 1)
  | 'e' => some ('\x1b', 1)
  | ' ' => some (' ', 1)
  | '"' => some ('"', 1)
  | '/' => some ('/', 1)
  | '\\' => some ('\\', 1)
  | 'N' => some ('\u0085', 1)
  | '_' => some ('\u00a0', 1)
  | 'L' => some ('\u2028', 1)
  | 'P' => some ('\u2029', 1)
  | 'x' => (hexChar? 2 rest).map fun c => (c, 3)
  | 'u' => (hexChar? 4 rest).map fun c => (c, 5)
  | 'U' => (hexChar? 8 rest).map fun c => (c, 9)
  | _ => none

def quoted? (double : Bool) : Nat → Scan → List Char → Option (List Char × Scan)
  | 0, _, _ => none
  | n + 1, s, done =>
    if s.atDocumentMark then none
    else match s.rest with
      | [] => none
      | c :: rest =>
        if !double && c = '\'' then
          if rest.head? = some '\'' then quoted? double n (s.skip 2) ('\'' :: done)
          else some (done, s.advance)
        else if double && c = '"' then some (done, s.advance)
        else if double && c = '\\' then
          match rest with
          | [] => none
          | e :: rest =>
            if isBreak e then do
              let (g, s) ← gap? none s.rest.length (s.advance.advance) { first := some [] }
              quoted? double n s (g.more.reverse ++ done)
            else do
              let (e, length) ← escape? e rest
              quoted? double n (s.skip (length + 1)) (e :: done)
        else if isBlankOrBreak c then do
          let (g, s) ← gap? none s.rest.length s {}
          quoted? double n s (g.text.reverse ++ done)
        else quoted? double n s.advance (c :: done)

inductive Chomping where
  | strip | clip | keep
deriving DecidableEq

def chomping? : Char → Option Chomping
  | '-' => some .strip
  | '+' => some .keep
  | _ => none

def increment? (c : Char) : Option Nat :=
  if '1' ≤ c ∧ c ≤ '9' then some (c.toNat - 48) else none

def blockHeader : List Char → Chomping × Option Nat × Nat
  | a :: b :: _ =>
    match chomping? a, increment? a, chomping? b, increment? b with
    | some c, _, _, some i => (c, some i, 2)
    | some c, _, _, none => (c, none, 1)
    | none, some i, some c, _ => (c, some i, 2)
    | none, some i, none, _ => (.clip, some i, 1)
    | none, none, _, _ => (.clip, none, 0)
  | [a] =>
    match chomping? a, increment? a with
    | some c, _ => (c, none, 1)
    | none, some i => (.clip, some i, 1)
    | none, none => (.clip, none, 0)
  | [] => (.clip, none, 0)

/-- Skips indentation and empty lines of a block scalar. Answers the breaks, the widest indentation
and what follows. -/
def blockBreaks? (indent : Option Nat) : Nat → Scan → List Char → Nat →
    Option (List Char × Nat × Scan)
  | 0, s, breaks, widest => some (breaks, widest, s)
  | n + 1, s, breaks, widest =>
    let inside := indent.all (s.column < ·)
    match s.rest with
    | c :: _ =>
      if inside && c = ' ' then blockBreaks? indent n s.advance breaks (max widest (s.column + 1))
      else if inside && c = '\t' then none
      else if isBreak c then blockBreaks? indent n s.advance (breaks ++ breakText s.rest) widest
      else some (breaks, widest, s)
    | [] => some (breaks, widest, s)

/-- The text between two lines of a block scalar. Folding joins lines that begin with no blank. -/
def between (folded wasBlank isBlankNow : Bool) (first more : List Char) : List Char :=
  if folded && first = ['\n'] && !wasBlank && !isBlankNow then
    (if more.isEmpty then [' '] else []) ++ more
  else first ++ more

def blockLines? (folded : Bool) (indent : Nat) : Nat → Scan → Bool → List Char → List Char →
    List Char → Option (List Char × List Char × List Char × Scan)
  | 0, s, _, first, more, done => some (done, first, more, s)
  | n + 1, s, wasBlank, first, more, done =>
    if s.column = indent && !s.rest.isEmpty then
      let isBlankNow := s.rest.head?.any isBlank
      let content := s.rest.takeWhile (!isBreak ·)
      let done := content.reverse ++ (between folded wasBlank isBlankNow first more).reverse ++ done
      let s := s.skip content.length
      let first := if s.rest.isEmpty then [] else breakText s.rest
      do
        let (more, _, s) ← blockBreaks? (some indent) s.rest.length s.advance [] 0
        blockLines? folded indent n s isBlankNow first more done
    else some (done, first, more, s)

def block? (folded : Bool) (s : Scan) : Option (String × Scan) := do
  let (chomping, increment, length) := blockHeader s.rest
  let s := s.skip length
  if s.rest.head? = some '0' then none
  let s' := s.skip (s.rest.takeWhile isBlank).length
  let s' := if s'.rest.head? = some '#' then s'.skip (s'.rest.takeWhile (!isBreak ·)).length else s'
  if !(s'.rest.isEmpty || s'.rest.head?.any isBreak) then none
  let s := s'.advance
  let fixed := increment.map fun i => (s.minColumn - 1) + i
  let (more, widest, s) ← blockBreaks? fixed s.rest.length s [] 0
  let indent := fixed.getD (max widest (max s.minColumn 1))
  let (done, first, more, s) ← blockLines? folded indent (s.rest.length + 1) s false [] more []
  let tail := match chomping with
    | .strip => []
    | .clip => first
    | .keep => first ++ more
  return (String.ofList (done.reverse ++ tail), s)

end CanonTree.Yaml.Scan
