import EdgeGateway.Config.Settings

/-!
# Command line options

An option is given as `--name value` or `--name=value`; the port has a short form as well. Every
option may be given once.
-/

namespace EdgeGateway.Config

/-- What the command line says. -/
structure Options where
  overrides : Overrides := {}
  /-- The path of the configuration file. -/
  file : Option String := none
  /-- How much is logged. -/
  logLevel : Option String := none

/-- What is wrong with a command line. -/
inductive OptionFault where
  | unexpected (argument : String)
  | repeated (name : String)
  | valueMissing (name : String)
  | valueInvalid (name value : String)
  deriving Repr, DecidableEq

/-- The text of a fault. -/
def OptionFault.message : OptionFault → String
  | unexpected a => s!"unexpected argument: {a}"
  | repeated n => s!"given more than once: --{n}"
  | valueMissing n => s!"a value is required for --{n}"
  | valueInvalid n v => s!"invalid value for --{n}: {v}"

namespace Options

/-- Where the configuration file is unless the command line says otherwise. -/
def defaultFile : String := "~/.imx/gateway.toml"

/-- The number below `bound` that a value stands for. -/
def number? (bound : Nat) (value : String) : Option Nat :=
  if value.isEmpty || !value.toList.all Char.isDigit then none
  else value.toNat?.filter (· < bound)

/-- An argument that names an option, and the value if it is part of the argument. -/
def split? (argument : String) : Option (String × Option String) :=
  match argument.toList with
  | '-' :: '-' :: cs =>
    match cs.span (· ≠ '=') with
    | (name, []) => some (String.ofList name, none)
    | (name, _ :: value) => some (String.ofList name, some (String.ofList value))
  | ['-', 'p'] => some ("port", none)
  | '-' :: 'p' :: '=' :: value | '-' :: 'p' :: value => some ("port", some (String.ofList value))
  | _ => none

/-- Sets a field that has not been set. -/
def once {α : Type} (name : String) (old : Option α) (new : α) :
    Except OptionFault (Option α) :=
  if old.isSome then .error (.repeated name) else .ok (some new)

/-- Sets an option. -/
def set (o : Options) (name value : String) : Except OptionFault Options := do
  let v := o.overrides
  match name with
  | "port" =>
    match number? 0x10000 value with
    | some n => return { o with overrides := { v with port := ← once name v.port (.ofNat n) } }
    | none => throw (.valueInvalid name value)
  | "nid" =>
    match number? 0x100000000 value with
    | some n => return { o with overrides := { v with nid := ← once name v.nid (.ofNat n) } }
    | none => throw (.valueInvalid name value)
  | "forwarder" =>
    return { o with overrides := { v with backend := ← once name v.backend value } }
  | "config" => return { o with file := ← once name o.file value }
  | "log-level" => return { o with logLevel := ← once name o.logLevel value }
  | _ => throw (.unexpected ("--" ++ name))

/-- Reads a command line. -/
def parse (o : Options) : List String → Except OptionFault Options
  | [] => .ok o
  | [a] =>
    match split? a with
    | some (name, some value) => o.set name value
    | some (name, none) => .error (.valueMissing name)
    | none => .error (.unexpected a)
  | a :: b :: rest =>
    match split? a with
    | some (name, some value) => do (← o.set name value).parse (b :: rest)
    | some (name, none) => do (← o.set name b).parse rest
    | none => .error (.unexpected a)

end Options

end EdgeGateway.Config
