/-!
# TOML values

A document is a table of values. Tables remember how they came to be, because that decides whether
more may be added to them: a table in braces is complete, one that a header opened may not be opened
again, one that only stands on the way to another may still be, and one that a dotted key made grows
by dotted keys alone.

Fractions and points in time are checked when they are read. Nothing uses their values, so only
their presence is kept.
-/

namespace EdgeGateway.Toml

/-- How a table came to be. -/
inductive Origin where
  /-- Written in braces. -/
  | braces
  /-- Opened by a header of its own; the root counts as such. -/
  | header
  /-- Named on the way to another header. -/
  | implied
  /-- Named on the way to a dotted key. -/
  | dotted
  deriving Repr, DecidableEq

/-- A value in a document. -/
inductive Value where
  | text (s : String)
  | integer (n : Int)
  | fraction
  | boolean (b : Bool)
  | moment
  /-- A list of values. One that headers in double brackets made can grow. -/
  | array (grows : Bool) (items : List Value)
  | table (origin : Origin) (entries : List (String × Value))
  deriving Repr

/-- The keys of a table with their values. -/
abbrev Entries := List (String × Value)

namespace Entries

/-- Replaces the value of a key that is present. -/
def update (t : Entries) (key : String) (v : Value) : Entries :=
  t.map fun e ↦ if e.1 = key then (key, v) else e

/-- Changes the table that lies at the end of `path`, and makes the tables on the way that are
missing. Without `byKey` the path is that of a header and may lead through the latest table of an
array; with it, the path is that of a dotted key, which may not enter a table that has a header. -/
def within (byKey : Bool) (f : Origin → Entries → Option Entries) :
    (path : List String) → Origin → Entries → Option Entries
  | [], origin, t => f origin t
  | key :: path, _, t =>
    match t.lookup key with
    | none => do
      let made := if byKey then Origin.dotted else Origin.implied
      let u ← within byKey f path made []
      return t ++ [(key, .table made u)]
    | some (.table .braces _) => none
    | some (.table origin u) =>
      if byKey ∧ origin = .header then none
      else do
        let u ← within byKey f path origin u
        return t.update key (.table origin u)
    | some (.array true items) =>
      match items.getLast? with
      | some (.table origin u) => do
        let u ← within byKey f path origin u
        return t.update key (.array true (items.dropLast ++ [.table origin u]))
      | _ => none
    | some _ => none

/-- Gives a value to a key, which must be new. Behind a dotted path lies a table that dotted keys
made. -/
def define (path : List String) (key : String) (v : Value) :
    Origin → Entries → Option Entries :=
  within true (fun origin t ↦
    if decide (origin = .dotted) = path.isEmpty then none
    else if (t.lookup key).isSome then none
    else some (t ++ [(key, v)])) path

/-- Opens the table of a header. It must be new, or have been named on the way to others only. -/
def openTable (path : List String) (key : String) : Entries → Option Entries :=
  within false (fun _ t ↦
    match t.lookup key with
    | none => some (t ++ [(key, .table .header [])])
    | some (.table .implied u) => some (t.update key (.table .header u))
    | some _ => none) path .header

/-- Opens the next table of an array of tables. -/
def openElement (path : List String) (key : String) : Entries → Option Entries :=
  within false (fun _ t ↦
    match t.lookup key with
    | none => some (t ++ [(key, .array true [.table .header []])])
    | some (.array true items) =>
      some (t.update key (.array true (items ++ [.table .header []])))
    | some _ => none) path .header

end Entries

end EdgeGateway.Toml
