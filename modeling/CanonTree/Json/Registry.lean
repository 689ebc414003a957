import CanonTree.Entity.Registry
import CanonTree.Json.Reader
import CanonTree.Json.Value

namespace CanonTree.Entity.Row

open Json (Reader Record Value present)

structure Fields where
  name : Option String := none
  code : Option Int32 := none
  isValidChange : Option Bool := none

def record : Record Fields Row where
  name := "RegistryEntry"
  fields := [
    { name := "name", required := true, isSet := (·.name.isSome)
      read := fun p => Reader.ofFound fun f => do
        return { p with name := some (← Reader.Take.string f) } },
    { name := "legacy_code", required := true, isSet := (·.code.isSome)
      read := fun p => Reader.ofFound fun f => do
        return { p with code := some (← Reader.Take.int32 f) } },
    { name := "is_valid_change", required := true, isSet := (·.isValidChange.isSome)
      read := fun p => Reader.ofFound fun f => do
        return { p with isValidChange := some (← Reader.Take.bool f) } }]
  start := {}
  finish p := do
    return ⟨← present "name" p.name, (← present "legacy_code" p.code).toInt,
      ← present "is_valid_change" p.isValidChange⟩

def value (r : Row) : Value :=
  .object [("name", .string r.name), ("legacy_code", .number r.code),
    ("is_valid_change", .bool r.isValidChange)]

end CanonTree.Entity.Row
