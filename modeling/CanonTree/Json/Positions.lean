import CanonTree.Json.Reader
import CanonTree.Json.Value
import CanonTree.Source.Lines
import CanonTree.Source.Span

namespace CanonTree

open Json (Reader Record Value present)

structure Span.Fields where
  start : Option Int32 := none
  length : Option Int32 := none

def Span.record : Record Span.Fields Span where
  name := "SourceSpan"
  fields := [
    { name := "start", required := true, isSet := (·.start.isSome)
      read := fun p => Reader.ofFound fun f => do
        return { p with start := some (← Reader.Take.int32 f) } },
    { name := "length", required := true, isSet := (·.length.isSome)
      read := fun p => Reader.ofFound fun f => do
        return { p with length := some (← Reader.Take.int32 f) } }]
  start := {}
  finish p := return ⟨← present "start" p.start, ← present "length" p.length⟩

def Span.value (s : Span) : Value :=
  .object [("start", .number s.start.toInt), ("length", .number s.length.toInt)]

structure LineColumn.Fields where
  line : Option Nat := none
  column : Option Nat := none

def LineColumn.record : Record LineColumn.Fields LineColumn where
  name := "LineColumn"
  fields := [
    { name := "line", required := true, isSet := (·.line.isSome)
      read := fun p => Reader.ofFound fun f => do
        return { p with line := some (← Reader.Take.size f) } },
    { name := "column", required := true, isSet := (·.column.isSome)
      read := fun p => Reader.ofFound fun f => do
        return { p with column := some (← Reader.Take.size f) } }]
  start := {}
  finish p := return ⟨← present "line" p.line, ← present "column" p.column⟩

def LineColumn.value (p : LineColumn) : Value :=
  .object [("line", .number p.line), ("column", .number p.column)]

end CanonTree
