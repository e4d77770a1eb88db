import EdgeGateway.Toml.Scalar

/-!
# TOML documents

A document is a list of lines: headers that open tables, and keys with values for the table opened
last. `parse?` gives the table of the whole document, or nothing if the text is no TOML.
-/

namespace EdgeGateway.Toml

/-- Reads the rest of a list in brackets. A comma may stand behind the last value. -/
def items (value : Reader Value) : (fuel : Nat) → Reader (List Value)
  | 0, _ => none
  | fuel + 1, cs =>
    match skipGap false cs with
    | ']' :: cs => some ([], cs)
    | cs => do
      let (v, cs) ← value cs
      match skipGap false cs with
      | ',' :: cs => do
        let (vs, cs) ← items value fuel cs
        return (v :: vs, cs)
      | ']' :: cs => return ([v], cs)
      | _ => none

/-- Reads a key, an equals sign and a value. -/
def pair (value : Reader Value) (cs : List Char) :
    Option (((List String × String) × Value) × List Char) := do
  let (k, cs) ← key cs
  let cs ← after? '=' cs
  let (v, cs) ← value (skipBlank cs)
  return ((k, v), cs)

/-- Reads the rest of a table in braces. -/
def bracedTable (value : Reader Value) (cs : List Char) : Option (Value × List Char) := do
  match skipBlank cs with
  | '}' :: cs => return (.table .braces [], cs)
  | cs =>
    let element : Reader ((List String × String) × Value) := fun cs ↦
      (pair value cs).map fun (p, cs) ↦ (p, skipBlank cs)
    let (pairs, cs) ← separated ',' element (cs.length + 1) cs
    let cs ← after? '}' cs
    let t ← pairs.foldlM
      (fun (t : Entries) (p : (List String × String) × Value) ↦
        Entries.define p.1.1 p.1.2 p.2 .braces t) []
    return (.table .braces t, cs)

/-- Reads a value with at most `levels` levels of lists and braces. -/
def value : (levels : Nat) → Reader Value
  | levels + 1, '[' :: cs =>
    (items (value levels) (cs.length + 1) cs).map fun (vs, cs) ↦ (.array false vs, cs)
  | levels + 1, '{' :: cs => bracedTable (value levels) cs
  | _, cs => scalar cs

/-- A document as far as it has been read: its table, and the path of the table opened last. -/
structure Draft where
  root : Entries
  path : List String

namespace Draft

/-- Gives a value to a key of the table opened last. -/
def define (d : Draft) (path : List String) (key : String) (v : Value) : Option Draft := do
  let root ← Entries.within false (Entries.define path key v) d.path .header d.root
  return { d with root }

/-- Reads a line: a header, a key with its value, or nothing but a comment. -/
def line (d : Draft) : List Char → Option (Draft × List Char)
  | '[' :: '[' :: cs => do
    let ((path, name), cs) ← key cs
    let cs ← after? ']' cs
    let cs ← after? ']' cs
    let cs ← restOfLine? cs
    let root ← Entries.openElement path name d.root
    return (⟨root, path ++ [name]⟩, cs)
  | '[' :: cs => do
    let ((path, name), cs) ← key cs
    let cs ← after? ']' cs
    let cs ← restOfLine? cs
    let root ← Entries.openTable path name d.root
    return (⟨root, path ++ [name]⟩, cs)
  | cs =>
    match restOfLine? cs with
    | some rest => some (d, rest)
    | none => do
      let (((path, name), v), cs) ← pair (value (nestingLimit - 1)) cs
      let cs ← restOfLine? cs
      let d ← d.define path name v
      return (d, cs)

/-- Reads the lines of a document. -/
def lines : (fuel : Nat) → Draft → List Char → Option Draft
  | 0, _, _ => none
  | fuel + 1, d, cs =>
    match skipBlank cs with
    | [] => some d
    | cs => do
      let (d, cs) ← d.line cs
      d.lines fuel cs

end Draft

/-- The table of a document. A byte order mark at its front is passed over. -/
def parse? (s : String) : Option Entries :=
  let cs := match s.toList with
    | '\uFEFF' :: cs => cs
    | cs => cs
  (Draft.lines (cs.length + 1) ⟨[], []⟩ cs).map (·.root)

end EdgeGateway.Toml
