import CanonTree.Config.Basic
import CanonTree.Json.Reader
import CanonTree.Json.Value

namespace CanonTree

open Json (Reader Record Value)

def Format.read : Reader Format := Reader.variant (Format.all.map Format.name) Format.ofName?

structure OutputConfig.Fields where
  format : Option Format := none
  pretty : Option Bool := none
  positions : Option Bool := none

def OutputConfig.record : Record OutputConfig.Fields OutputConfig where
  name := "OutputConfig"
  fields := [
    { name := "format", isSet := (·.format.isSome)
      read := fun p room v => return { p with format := some (← Format.read room v) } },
    { name := "pretty", isSet := (·.pretty.isSome)
      read := fun p => Reader.ofFound fun f => do
        return { p with pretty := some (← Reader.Take.bool f) } },
    { name := "include_positions", isSet := (·.positions.isSome)
      read := fun p => Reader.ofFound fun f => do
        return { p with positions := some (← Reader.Take.bool f) } }]
  start := {}
  finish p := .ok ⟨p.format.getD .json, p.pretty.getD true, p.positions.getD true⟩

def OutputConfig.value (c : OutputConfig) : Value :=
  .object [("format", .string c.format.name), ("pretty", .bool c.pretty),
    ("include_positions", .bool c.positions)]

def Config.threadsRecord : Record (Option Nat) Nat where
  name := "ParallelConfig"
  fields := [
    { name := "threads", isSet := (·.isSome)
      read := fun _ => Reader.ofFound fun f => do
        return some (← Reader.Take.size f) }]
  start := none
  finish p := .ok (p.getD 0)

structure Config.Fields where
  output : Option OutputConfig := none
  threads : Option Nat := none

def Config.record : Record Config.Fields Config where
  name := "TreeGenConfig"
  fields := [
    { name := "output", isSet := (·.output.isSome)
      read := fun p room v => do
        return { p with output := some (← OutputConfig.record.read room v) } },
    { name := "parallel", isSet := (·.threads.isSome)
      read := fun p room v => do
        return { p with threads := some (← Config.threadsRecord.read room v) } }]
  start := {}
  finish p := .ok ⟨p.output.getD {}, p.threads.getD 0⟩

def Config.value (c : Config) : Value :=
  .object [("output", c.output.value), ("parallel", .object [("threads", .number c.threads)])]

end CanonTree
