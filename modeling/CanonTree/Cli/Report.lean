import CanonTree.Canon.Dump
import CanonTree.Canon.Statistics
import CanonTree.Canon.View
import CanonTree.Config.Basic
import CanonTree.Json.Registry
import CanonTree.Text.Blank

namespace CanonTree.Cli

/-- A tree in the form the settings ask for. JSON ends with a line feed, as the dump does. -/
def render (c : OutputConfig) (t : Canon.Tree) : String :=
  match c.format with
  | .text => t.dump c.positions
  | .json =>
    let v := t.json c.positions
    (if c.pretty then v.pretty else v.compact) ++ "\n"

/-- A title over a line of the same width in bytes. -/
def header (title : String) : String :=
  "\n" ++ title ++ "\n" ++ String.ofList (List.replicate title.utf8ByteSize '=') ++ "\n"

def repeated (n : Nat) (s : String) : String := String.join (List.replicate n s)

def pad (width : Nat) (cell : String) : String := cell ++ repeated (width - cell.length) " "

def widths (rows : List (List String)) (headings : List String) : List Nat :=
  rows.foldl (fun ws row => ws.zipWith (fun w cell => max w cell.utf8ByteSize) row)
    (headings.map (·.utf8ByteSize))

def tableLine (ws : List Nat) (cells : List String) : String :=
  " │ ".intercalate (ws.zipWith pad cells)

def table (headings : List String) (rows : List (List String)) : String :=
  let ws := widths rows headings
  tableLine ws headings ++ "\n" ++ "─┼─".intercalate (ws.map fun w => repeated w "─") ++ "\n" ++
    String.join (rows.map fun row => Text.trimEnd (tableLine ws row) ++ "\n")

def registryText : Format → String
  | .json => (Json.Value.array (Entity.registry.map (·.value))).pretty ++ "\n"
  | .text => table ["name", "legacy_code", "valid_change"]
      (Entity.registry.map fun r => [r.name, toString r.code, toString r.isValidChange])

open Json (Value) in
def statisticsJson (s : Canon.Statistics) (time : String) : Value :=
  .object [("total", .number s.total), ("synthetic", .number s.synthetic),
    ("categories", .array (s.categories.map fun c => .array [.string c.1.name, .number c.2])),
    ("duration", .string time)]

def statisticsLines (s : Canon.Statistics) : String :=
  if s.categories.isEmpty then ""
  else "\nBy type:\n" ++ String.join (s.categories.map fun c => s!"  {c.1.name}: {c.2}\n")

def statisticsText (s : Canon.Statistics) (time : String) : Format → String
  | .json => (statisticsJson s time).pretty ++ "\n"
  | .text => header "Statistics" ++ s!"Total nodes: {s.total}\nSynthetic nodes: {s.synthetic}\n" ++
      statisticsLines s ++ s!"\nDuration: {time}\n"

end CanonTree.Cli
