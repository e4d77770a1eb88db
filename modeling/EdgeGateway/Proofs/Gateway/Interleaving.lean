import EdgeGateway.Proofs.Gateway.Handling

/-!
# Tasks that interleave

Handlers and endings run on several threads, so between any two operations of one of them any other
may come in. A crew is the tables together with the handlers and endings that are at work on them;
an act is one operation of one of them, or something that another task does, or the beginning of a
new one. What happens to routes and records on the way is told by events.
-/

namespace EdgeGateway

/-- What an operation does to the route of a session or to its record in the rooms. -/
inductive Event where
  /-- A session is routed to a connection; `old` carried it before. -/
  | bound (sid cid : UInt64) (old : Option UInt64)
  /-- A release takes the route of a session away from its connection. -/
  | unbound (sid cid : UInt64)
  /-- The record of a session comes to name a connection, as the session enters `room` or is taken
  over; the session is routed to `route`. -/
  | recorded (sid cid : UInt64) (room route : Option UInt64)
  /-- A release takes a session out of `rooms`, all that it is in; the session is routed to `route`.
  -/
  | cleared (sid cid : UInt64) (route : Option UInt64) (rooms : List UInt64)
  deriving Repr, DecidableEq

/-- What the next operation of a release does. -/
def Release.event? (h : Hub) : Release → Option Event
  | inspect _ => none
  | unbind cid sid _ => if h.router.lookup sid = some cid then some (.unbound sid cid) else none
  | clear cid sid _ => some (.cleared sid cid (h.router.lookup sid) (h.rooms.roomsOf sid))

/-- What the next operation of an ending does. -/
def Closing.event? (h : Hub) : Closing → Option Event
  | release _ r => r.event? h
  | deregister _ | retire _ => none

namespace Downlink

/-- What the next operation of a handling does. -/
def event? (h : Hub) : Downlink → Option Event
  | bind m cid => some (.bound m.sid cid (h.router.lookup m.sid))
  | rebind m cid _ =>
    if (h.rooms.carrier? m.sid).isSome then
      some (.recorded m.sid cid none (h.router.lookup m.sid))
    else none
  | enter m rid _ cid => some (.recorded m.sid cid (some rid) (h.router.lookup m.sid))
  | release r => r.event? h
  | _ => none

/-- What is left of a handling after a step. -/
def Outcome.calls : Outcome → List Downlink
  | .next d => [d]
  | .done _ => []

/-- A handling is still at work just when a step leads on to it. -/
theorem Outcome.mem_calls {o : Outcome} {d : Downlink} : d ∈ o.calls ↔ o = .next d := by
  cases o <;> simp [calls, eq_comm]

end Downlink

/-- The tables of a gateway with the handlings and endings that are at work on them. -/
structure Crew where
  hub : Hub
  calls : List Downlink := []
  endings : List Closing := []

namespace Crew

/-- One operation of one of the tasks, where the backend sends only what is in `feed`. -/
inductive Act (feed : DownlinkKind → Bytes → Prop) :
    Crew → Option Event → Crew → Prop where
  /-- Some other task does something. -/
  | change {c : Crew} {h : Hub} : c.hub.Change h → Act feed c none { c with hub := h }
  /-- A worker takes a frame. -/
  | receive {c : Crew} {kind : DownlinkKind} {body : Bytes} : feed kind body →
    Act feed c none { c with calls := .received kind body :: c.calls }
  | call {h h' : Hub} {d : Downlink} {o : Downlink.Outcome} {a b : List Downlink}
    {es : List Closing} : d.step h = some (h', o) →
    Act feed ⟨h, a ++ d :: b, es⟩ (d.event? h) ⟨h', a ++ o.calls ++ b, es⟩
  /-- The end of a closed connection begins. -/
  | depart {c : Crew} {cid : UInt64} {k : Connection} :
    c.hub.conns.find? cid = some k → k.closed = true → c.hub.conns.isLive cid = true →
    (∀ e ∈ c.endings, e.cid ≠ cid) →
    Act feed c none { c with endings := .deregister cid :: c.endings }
  | ending {h h' : Hub} {e : Closing} {o : Option Closing} {ds : List Downlink}
    {a b : List Closing} : e.step h = (h', o) →
    Act feed ⟨h, ds, a ++ e :: b⟩ (e.event? h) ⟨h', ds, a ++ o.toList ++ b⟩

/-- Any number of acts in any order, with what they did. -/
inductive Run (feed : DownlinkKind → Bytes → Prop) (start : Crew) :
    List Event → Crew → Prop where
  | start : Run feed start [] start
  | act {tr : List Event} {c c' : Crew} {e : Option Event} :
    Run feed start tr c → Act feed c e c' → Run feed start (tr ++ e.toList) c'

variable {feed : DownlinkKind → Bytes → Prop}

/-- What holds at first and is kept by every act holds wherever a run leads. -/
theorem Run.invariant {P : List Event → Crew → Prop} {start c : Crew} {tr : List Event}
    (hr : Run feed start tr c) (initially : P [] start)
    (kept : ∀ tr c e c', P tr c → Act feed c e c' → P (tr ++ e.toList) c') : P tr c := by
  induction hr with
  | start => exact initially
  | act _ ha ih => exact kept _ _ _ _ ih ha

/-- Whatever a run tells of was done by an act, to which a part of the run leads. -/
theorem Run.split {start c : Crew} {x y : List Event} {e : Event}
    (hr : Run feed start (x ++ e :: y) c) :
    ∃ b b', Run feed start x b ∧ Act feed b (some e) b' := by
  generalize ht : x ++ e :: y = tr at hr
  induction hr generalizing y with
  | start => simp at ht
  | @act tr c c' o hr ha ih =>
    cases o with
    | none =>
      rw [Option.toList_none, List.append_nil] at ht
      exact ih ht
    | some e' =>
      rw [Option.toList_some] at ht
      rcases List.eq_nil_or_concat y with rfl | ⟨y, z, rfl⟩
      · obtain ⟨rfl, he⟩ := List.append_inj' ht rfl
        cases he
        exact ⟨c, c', hr, ha⟩
      · rw [List.concat_eq_append, ← List.cons_append, ← List.append_assoc] at ht
        exact ih (List.append_inj' ht rfl).1

/-- Whoever is at work when a task has gone on was so before, or is what has become of the task. -/
theorem mem_of_mem_replaced {α : Type} {x y : α} {a l b : List α} (hy : y ∈ a ++ l ++ b) :
    y ∈ a ++ x :: b ∨ y ∈ l := by
  rw [List.mem_append, List.mem_append] at hy
  rcases hy with (hy | hy) | hy
  · exact .inl (List.mem_append_left _ hy)
  · exact .inr hy
  · exact .inl (List.mem_append_right _ (List.mem_cons_of_mem _ hy))

/-- Whoever is at work is still so when a task has gone on, unless it is that task. -/
theorem exists_replaced {α : Type} {P : α → Prop} {x : α} {a l b : List α}
    (hy : ∃ y ∈ a ++ x :: b, P y) : P x ∨ ∃ y ∈ a ++ l ++ b, P y := by
  obtain ⟨y, hy, hp⟩ := hy
  rw [List.mem_append, List.mem_cons] at hy
  rcases hy with hy | rfl | hy
  · exact .inr ⟨y, List.mem_append_left _ (List.mem_append_left _ hy), hp⟩
  · exact .inl hp
  · exact .inr ⟨y, List.mem_append_right _ hy, hp⟩

/-- What has become of a task that has gone on is at work. -/
theorem exists_becoming {α : Type} {P : α → Prop} {a l b : List α} (hy : ∃ y ∈ l, P y) :
    ∃ y ∈ a ++ l ++ b, P y := by
  obtain ⟨y, hy, hp⟩ := hy
  exact ⟨y, List.mem_append_left _ (List.mem_append_right _ hy), hp⟩

/-- The backend opens no session without a name. -/
def Naming (kind : DownlinkKind) (body : Bytes) : Prop := kind = .verdict → NamesSession body

/-- Whether a body names what its kind asks for can be read from it. -/
instance (kind : DownlinkKind) (body : Bytes) : Decidable (Naming kind body) :=
  inferInstanceAs (Decidable (_ → _))

/-! ### Runs that can be computed -/

/-- An act, named so that it can be carried out. -/
inductive Deed where
  | connect
  | request (cid : UInt64)
  | close (cid : UInt64)
  | receive (kind : DownlinkKind) (body : Bytes)
  | call (k : Nat)
  | depart (cid : UInt64)
  | ending (k : Nat)

/-- Carries out a deed, if it is possible, and tells what it did. -/
def do? (c : Crew) : Deed → Option (Option Event × Crew)
  | .connect =>
    if c.hub.conns.next ≠ 0 then
      some (none, { c with hub := { c.hub with
        conns := (c.hub.conns.create 4).2.register c.hub.conns.next } })
    else none
  | .request cid => do
    let k ← c.hub.conns.find? cid
    let k ← k.transition [.ready, .check] .check
    return (none, { c with hub := c.hub.modifyConn cid fun _ ↦ k })
  | .close cid => do
    let k ← c.hub.conns.find? cid
    return (none, { c with hub := c.hub.modifyConn cid fun _ ↦ k.close })
  | .receive kind body =>
    if Naming kind body then
      some (none, { c with calls := .received kind body :: c.calls })
    else none
  | .call k =>
    match c.calls.splitAt k with
    | (a, d :: b) => do
      let (h, o) ← d.step c.hub
      return (d.event? c.hub, ⟨h, a ++ o.calls ++ b, c.endings⟩)
    | (_, []) => none
  | .depart cid => do
    let k ← c.hub.conns.find? cid
    if k.closed = true ∧ c.hub.conns.isLive cid = true ∧ ∀ e ∈ c.endings, e.cid ≠ cid then
      return (none, { c with endings := .deregister cid :: c.endings })
    else none
  | .ending k =>
    match c.endings.splitAt k with
    | (a, e :: b) =>
      match e.step c.hub with
      | (h, o) => some (e.event? c.hub, ⟨h, c.calls, a ++ o.toList ++ b⟩)
    | (_, []) => none

/-- Carries out deeds one after the other, and tells what they did. -/
def run? (c : Crew) : List Deed → Option (List Event × Crew)
  | [] => some ([], c)
  | x :: xs => do
    let (e, c) ← c.do? x
    let (tr, c) ← c.run? xs
    return (e.toList ++ tr, c)

private theorem eq_of_splitAt {α : Type} {l a b : List α} {k : Nat} (h : l.splitAt k = (a, b)) :
    l = a ++ b := by
  rw [List.splitAt_eq, Prod.mk.injEq] at h
  rw [← h.1, ← h.2, List.take_append_drop]

/-- A deed that has been carried out is an act. -/
theorem act_of_do? {c c' : Crew} {x : Deed} {e : Option Event} (h : c.do? x = some (e, c')) :
    Act Naming c e c' := by
  cases x with
  | connect =>
    obtain ⟨hn, h⟩ := Option.ite_none_right_eq_some.1 h
    cases h
    exact .change (.connect 4 hn)
  | request cid =>
    obtain ⟨k, hk, h⟩ := Option.bind_eq_some_iff.1 h
    obtain ⟨l, hl, h⟩ := Option.bind_eq_some_iff.1 h
    cases h
    exact .change (.conn hk (.request hl))
  | close cid =>
    obtain ⟨k, hk, h⟩ := Option.bind_eq_some_iff.1 h
    cases h
    exact .change (.conn hk .close)
  | receive kind body =>
    obtain ⟨hn, h⟩ := Option.ite_none_right_eq_some.1 h
    cases h
    exact .receive hn
  | call k =>
    obtain ⟨hub, calls, endings⟩ := c
    simp only [do?] at h
    split at h
    · next a d b hs =>
      have hcalls : calls = a ++ d :: b := eq_of_splitAt hs
      subst hcalls
      obtain ⟨⟨h', o⟩, hd, h⟩ := Option.bind_eq_some_iff.1 h
      cases h
      exact .call hd
    · cases h
  | depart cid =>
    obtain ⟨k, hk, h⟩ := Option.bind_eq_some_iff.1 h
    obtain ⟨⟨hcl, hl, he⟩, h⟩ := Option.ite_none_right_eq_some.1 h
    cases h
    exact .depart hk hcl hl he
  | ending k =>
    obtain ⟨hub, calls, endings⟩ := c
    simp only [do?] at h
    split at h
    · next a d b hs =>
      have hendings : endings = a ++ d :: b := eq_of_splitAt hs
      subst hendings
      cases h
      exact .ending rfl
    · cases h

/-- Deeds that have been carried out are a run. -/
theorem run_of_run? {start c : Crew} {tr : List Event} (hr : Run Naming start tr c)
    {xs : List Deed} {c' : Crew} {tr' : List Event} (h : c.run? xs = some (tr', c')) :
    Run Naming start (tr ++ tr') c' := by
  induction xs generalizing c tr tr' with
  | nil =>
    cases h
    rw [List.append_nil]
    exact hr
  | cons x xs ih =>
    obtain ⟨⟨e, d⟩, hd, h⟩ := Option.bind_eq_some_iff.1 h
    obtain ⟨⟨tr'', d'⟩, hd', h⟩ := Option.bind_eq_some_iff.1 h
    cases h
    rw [← List.append_assoc]
    exact ih (hr.act (act_of_do? hd)) hd'

end Crew

end EdgeGateway
