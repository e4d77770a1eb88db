import EdgeGateway.Table.Basic
import EdgeGateway.Wire.Command

/-!
# Dispatch tables

A dispatch table says who handles which command. A later registration for the same command takes the
place of the earlier one (`lookup_register`).
-/

namespace EdgeGateway

/-- Handlers by command. -/
structure Dispatch (η : Type) where
  handlers : Table Command η
  deriving Repr

namespace Dispatch

variable {η : Type}

/-- The dispatch table without handlers. -/
def empty : Dispatch η := ⟨.empty⟩

/-- The handler of a command. -/
def lookup (d : Dispatch η) (cmd : Command) : Option η := d.handlers.get? cmd

/-- Is there a handler for the command? -/
def contains (d : Dispatch η) (cmd : Command) : Bool := (d.lookup cmd).isSome

/-- The number of commands that have a handler. -/
def size (d : Dispatch η) : Nat := d.handlers.size

/-- Is there no handler at all? -/
def isEmpty (d : Dispatch η) : Bool := d.handlers.isEmpty

/-- Registers a handler, and tells whether it replaces another. -/
def register (d : Dispatch η) (cmd : Command) (h : η) : Bool × Dispatch η :=
  (d.contains cmd, ⟨d.handlers.insert cmd h⟩)

/-- Registers one handler for several commands. -/
def registerAll (d : Dispatch η) (cmds : List Command) (h : η) : Dispatch η :=
  cmds.foldl (fun d cmd ↦ (d.register cmd h).2) d

/-- After a registration the command has the handler, and others have the one they had. -/
theorem lookup_register (d : Dispatch η) (cmd c : Command) (h : η) :
    (d.register cmd h).2.lookup c = if c = cmd then some h else d.lookup c :=
  Table.get?_insert ..

/-- After several registrations those commands have the handler, and others have the one they had.
-/
theorem lookup_registerAll (d : Dispatch η) (cmds : List Command) (c : Command) (h : η) :
    (d.registerAll cmds h).lookup c = if c ∈ cmds then some h else d.lookup c := by
  induction cmds generalizing d with
  | nil => simp [registerAll]
  | cons cmd cmds ih =>
    have step : d.registerAll (cmd :: cmds) h = (d.register cmd h).2.registerAll cmds h := rfl
    rw [step, ih, lookup_register]
    by_cases hc : c = cmd <;> by_cases hm : c ∈ cmds <;> simp [hc, hm]

end Dispatch

end EdgeGateway
