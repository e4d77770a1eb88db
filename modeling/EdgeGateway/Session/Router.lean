import EdgeGateway.Table.Sharded

/-!
# Session routes

The router knows which connection carries a session. A session has at most one route; binding it
again displaces the old one, and a route is removed only by the connection it points to, so that a
connection that lost its session cannot take away the route of its successor.
-/

namespace EdgeGateway

/-- The connection of each session. -/
structure Router where
  routes : ShardedTable UInt64

namespace Router

/-- A router without routes. -/
def empty (shards : Nat) : Router := ⟨.empty shards⟩

/-- The connection that carries a session. -/
def lookup (r : Router) (sid : UInt64) : Option UInt64 := r.routes.get? sid

/-- The number of routes. -/
def size (r : Router) : Nat := r.routes.size

/-- Routes a session to a connection, and tells which one it displaces. -/
def bind (r : Router) (sid cid : UInt64) : Option UInt64 × Router :=
  (r.lookup sid, ⟨r.routes.insert sid cid⟩)

/-- Removes the route of a session if it still points to `cid`, and tells whether it did. -/
def unbind (r : Router) (sid cid : UInt64) : Bool × Router :=
  (r.lookup sid == some cid, ⟨r.routes.eraseIf sid (· == cid)⟩)

/-- At first no session is routed. -/
@[simp] theorem lookup_empty (n : Nat) (sid : UInt64) : (empty n).lookup sid = none :=
  ShardedTable.get?_empty ..

/-- After a binding the session is routed there, and all others as before. -/
theorem lookup_bind (r : Router) (sid cid s : UInt64) :
    (r.bind sid cid).2.lookup s = if s = sid then some cid else r.lookup s :=
  ShardedTable.get?_insert ..

/-- A session loses its route if it is unbound from where it is routed, and no other does. -/
theorem lookup_unbind (r : Router) (sid cid s : UInt64) :
    (r.unbind sid cid).2.lookup s =
      if s = sid ∧ r.lookup sid = some cid then none else r.lookup s := by
  have hp : ((r.routes.get? sid).any (· == cid)) = true ↔ r.routes.get? sid = some cid := by
    cases r.routes.get? sid <;> simp
  unfold unbind lookup
  rw [ShardedTable.get?_eraseIf]
  simp only [hp]

/-- Something is unbound just when the session was routed there. -/
theorem unbind_fst (r : Router) (sid cid : UInt64) :
    (r.unbind sid cid).1 = true ↔ r.lookup sid = some cid := by simp [unbind]

end Router

end EdgeGateway
