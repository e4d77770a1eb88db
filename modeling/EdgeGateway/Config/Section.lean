import EdgeGateway.Toml.Value

/-!
# Sections of the configuration file

A section is a table whose keys name its fields, or a list that holds the fields in their fixed
order. A field that is absent has its default; one that is present must suit, and keys that name no
field are passed over.
-/

namespace EdgeGateway.Config

open Toml (Value Entries)

/-- Finds a field by its position and its name. -/
abbrev Section := Nat → String → Option Value

namespace Section

/-- A section in which every field is absent. -/
def empty : Section := fun _ _ ↦ none

/-- The section that a value holds. -/
def ofValue? : Value → Option Section
  | .table _ t => some fun _ name ↦ t.lookup name
  | .array _ items => some fun i _ ↦ items[i]?
  | _ => none

/-- The section that a key of the file holds, which is empty if the key is absent. -/
def ofKey? (file : Entries) (key : String) : Option Section :=
  match file.lookup key with
  | none => some empty
  | some v => ofValue? v

/-- A number of the given number of bits. -/
def number (s : Section) (i : Nat) (name : String) (bits default : Nat) : Option Nat :=
  match s i name with
  | none => some default
  | some (.integer n) => if 0 ≤ n ∧ n.toNat < 1 <<< bits then some n.toNat else none
  | some _ => none

/-- A text. -/
def text (s : Section) (i : Nat) (name : String) (default : String) : Option String :=
  match s i name with
  | none => some default
  | some (.text t) => some t
  | some _ => none

end Section

end EdgeGateway.Config
