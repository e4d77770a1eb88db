import EdgeGateway.Connection.Basic
import EdgeGateway.Table.Sharded

/-!
# The connections of a gateway

A connection keeps its number for good and no number is given twice. It can be reached by its number
only while it is registered; a connection that is no longer registered lives on until its tasks have
let go of it, so the store of connections and the set of registered numbers are kept apart.
-/

namespace EdgeGateway

/-- The connections of a gateway. -/
structure Connections where
  /-- Every connection there ever was. -/
  all : Table UInt64 Connection
  /-- The numbers under which connections can be reached. -/
  live : ShardedTable UInt64
  /-- The next number to be given. -/
  next : UInt64

namespace Connections

/-- No connections yet; the first number is 1. -/
def empty (shards : Nat) : Connections := ⟨.empty, .empty shards, 1⟩

/-- The number of registered connections. -/
def size (t : Connections) : Nat := t.live.size

/-- Is a connection registered under this number? -/
def isLive (t : Connections) (cid : UInt64) : Bool := t.live.contains cid

/-- A connection, registered or not. -/
def find? (t : Connections) (cid : UInt64) : Option Connection := t.all.get? cid

/-- The connection registered under a number. -/
def get? (t : Connections) (cid : UInt64) : Option Connection :=
  if t.isLive cid then t.find? cid else none

/-- Creates a connection with a fresh number, without registering it. -/
def create (t : Connections) (capacity : Nat) : UInt64 × Connections :=
  (t.next,
    { t with all := t.all.insert t.next (.fresh t.next capacity), next := t.next + 1 })

/-- Registers a connection under its number. -/
def register (t : Connections) (cid : UInt64) : Connections :=
  { t with live := t.live.insert cid cid }

/-- Makes a connection unreachable. -/
def deregister (t : Connections) (cid : UInt64) : Connections :=
  { t with live := t.live.erase cid }

/-- Changes a connection, registered or not. -/
def modify (t : Connections) (cid : UInt64) (f : Connection → Connection) : Connections :=
  { t with all := t.all.modify cid f }

/-- Puts the new state of a connection in the place of the old one. -/
def store (t : Connections) (c : Connection) : Connections := t.modify c.cid fun _ ↦ c

/-- Closes the connection registered under a number, and tells whether there is one. -/
def close (t : Connections) (cid : UInt64) : Bool × Connections :=
  if t.isLive cid then (true, t.modify cid .close) else (false, t)

/-- Closes every registered connection, and tells how many these are. -/
def closeAll (t : Connections) : Nat × Connections :=
  (t.live.values.length, t.live.values.foldl (fun t cid ↦ t.modify cid .close) t)

/-- To change one connection leaves all others alone. -/
theorem find?_modify (t : Connections) (cid c : UInt64) (f : Connection → Connection) :
    (t.modify cid f).find? c = if c = cid then (t.find? cid).map f else t.find? c :=
  Table.get?_modify ..

/-- To change a connection makes it neither reachable nor unreachable. -/
@[simp] theorem isLive_modify (t : Connections) (cid c : UInt64) (f : Connection → Connection) :
    (t.modify cid f).isLive c = t.isLive c := rfl

/-- After a registration one more connection can be reached. -/
theorem isLive_register (t : Connections) (cid c : UInt64) :
    (t.register cid).isLive c = (decide (c = cid) || t.isLive c) := by
  unfold isLive register ShardedTable.contains
  rw [ShardedTable.get?_insert]
  by_cases h : c = cid <;> simp [h]

/-- After a deregistration one connection can no longer be reached. -/
theorem isLive_deregister (t : Connections) (cid c : UInt64) :
    (t.deregister cid).isLive c = (decide (c ≠ cid) && t.isLive c) := by
  unfold isLive deregister ShardedTable.contains
  rw [ShardedTable.get?_erase]
  by_cases h : c = cid <;> simp [h]

end Connections

end EdgeGateway
