import EdgeGateway.Proofs.Gateway.Bearing

/-!
# What the backend is told

The outbound queue is fed by three sources: what listeners pass on for their clients, the messages
by which releases tell that a session has ended, and the reports of the gateway. This module says
what each move feeds it, and what a listener does with a message.
-/

namespace EdgeGateway

/-! ### Handling a message of a client -/

/-- What a listener can make of a message. -/
inductive Uplink.Handled (h : Hub) (cid : UInt64) (c : Connection) (m : Message) :
    Hub × UplinkStep → Prop
  | proceed {h' : Hub} : h.Quiet h' → Handled h cid c m (h', .proceed)
  | failed {h' : Hub} {e : Fault} : h.Quiet h' → Handled h cid c m (h', .failed e)
  | disconnect : c.status ≠ .logon → Handled h cid c m (h, .disconnect)
  /-- A session is asked for. -/
  | request {r : OnlineRequest} : c.Early →
    Handled h cid c m
    (h.modifyConn cid fun c ↦ c.setStatus .check, .forward (request h c r) .proceed)
  /-- Something is said on behalf of the session. -/
  | relay {h' : Hub} : c.status = .logon → m.cmd ≠ .online → m.cmd ≠ .offline →
    h.Quiet h' → Handled h cid c m (h', .forward (m.readdress c.sid h.nid) .proceed)
  /-- The session is ended. -/
  | offline : c.status = .logon → m.cmd = .offline →
    Handled h cid c m (h, .forward (m.readdress c.sid h.nid) .logOut)

namespace Uplink

variable {h : Hub} {cid : UInt64} {c : Connection}

private theorem handled_reject (hn : h.conns.Numbered) (hc : h.conns.find? cid = some c)
    (m : Message) (sid : UInt64) (reason : String) : Handled h cid c m (reject h c sid reason) := by
  rw [reject]
  split
  · next hs =>
    obtain ⟨-, -, -, rfl⟩ := Connection.send_eq_ok_iff.1 hs
    exact .proceed (Hub.quiet_store hn hc rfl rfl)
  · exact .failed (.refl h)

private theorem handled_online (hn : h.conns.Numbered) (hc : h.conns.find? cid = some c)
    (m : Message) : Handled h cid c m (online h c m) := by
  rw [online]
  split
  · exact .proceed (.refl h)
  · split
    · exact handled_reject hn hc m _ _
    · split
      · exact handled_reject hn hc m _ _
      · split
        · exact .proceed (.refl h)
        · next d hd =>
          obtain ⟨hs, hd⟩ := Option.ite_none_right_eq_some.1 hd
          cases hd
          have hh : ({ h with conns := h.conns.store (c.setStatus .check) } : Hub) =
              h.modifyConn cid fun c ↦ c.setStatus .check := by
            have hcid : (c.setStatus .check).cid = cid := hn.cid_eq cid c hc
            rw [Hub.modifyConn, Connections.modify_of_find?_eq_some hc, Connections.store, hcid]
          rw [hh]
          refine .request ?_
          simpa [Connection.Early] using hs

/-- Only the command to open a session opens one, and only the command to end it ends it. -/
theorem kind_iff {cmd : Command} {kind : UplinkKind} (hl : uplinkCommands.lookup cmd = some kind) :
    (kind = .online ↔ cmd = .online) ∧ (kind = .offline ↔ cmd = .offline) := by
  have hon : uplinkCommands.lookup .online = some .online := by decide
  have hoff : uplinkCommands.lookup .offline = some .offline := by decide
  refine ⟨⟨?_, ?_⟩, ⟨?_, ?_⟩⟩
  · rintro rfl
    simp only [uplinkCommands, Dispatch.lookup_registerAll, Dispatch.lookup_register] at hl
    repeat' split at hl
    all_goals first | cases hl; assumption | cases hl
  · rintro rfl
    exact Option.some.inj (hl.symm.trans hon)
  · rintro rfl
    simp only [uplinkCommands, Dispatch.lookup_registerAll, Dispatch.lookup_register] at hl
    repeat' split at hl
    all_goals first | cases hl; exact List.mem_singleton.1 ‹_› | cases hl
  · rintro rfl
    exact Option.some.inj (hl.symm.trans hoff)

/-- A listener makes of a message one of the things above. -/
theorem handled (hn : h.conns.Numbered) (hc : h.conns.find? cid = some c) (m : Message) :
    Handled h cid c m (handle h c m) := by
  rw [handle]
  split
  · exact .proceed (.refl h)
  · exact handled_online hn hc m
  · next hl =>
    rw [offline]
    split
    · next hs => exact .disconnect hs
    · next hs =>
      exact .offline (Decidable.not_not.1 hs) ((kind_iff hl).2.1 rfl)
  · next hl =>
    obtain ⟨hon, hoff⟩ := kind_iff hl
    rw [transit]
    split
    · exact .proceed (.refl h)
    · next hs =>
      exact .relay (Decidable.not_not.1 hs) (hon.not.1 (by decide)) (hoff.not.1 (by decide))
        (.refl h)
  · next hl =>
    obtain ⟨hon, hoff⟩ := kind_iff hl
    rw [quitRoom]
    split
    · exact .proceed (.refl h)
    · next hs =>
      split
      · exact .failed (.refl h)
      · exact .relay (Decidable.not_not.1 hs) (hon.not.1 (by decide)) (hoff.not.1 (by decide))
          (h.quiet_rest _ _ _)

end Uplink

/-! ### What a listener does -/

/-- The message that comes in an event, if a well-formed one does. -/
def SocketEvent.message? (e : SocketEvent) : Option Message :=
  match e.received? with
  | some (.message data) => (Packet.parse (H := SessionHeader) data).toOption
  | _ => none

/-- A message that ends a session waits to be passed on. -/
def Listener.LogsOut (l : Listener) : Prop := ∃ ticket, l = .forwarding ticket .logOut

/-- A listener that listens holds back no message that ends a session. -/
theorem Listener.not_logsOut_listening : ¬ Listener.listening.LogsOut := by
  rintro ⟨ticket, ⟨⟩⟩

/-- A listener that has ended holds back no message that ends a session. -/
theorem Listener.not_logsOut_ended : ¬ Listener.ended.LogsOut := by
  rintro ⟨ticket, ⟨⟩⟩

/-- What a listener has before it, and what it is doing. -/
structure Ear where
  inbox : List SocketEvent
  listener : Listener
  finished : Bool
  deriving Repr, DecidableEq

/-- The listener's side of a socket. -/
def Socket.ear (s : Socket) : Ear := ⟨s.inbox, s.listener, s.finished⟩

/-- What decides about what goes out: the settings of a pool and its outbound queue. -/
def Pool.outlet {κ : Type} (p : Pool κ) : LinkSettings × Channel Frame :=
  (p.settings, p.outbound)

/-- What sending a frame leaves of the outlet. -/
def Pool.outletWith {κ : Type} (p : Pool κ) (f : Frame) : LinkSettings × Channel Frame :=
  (p.settings, (p.outbound.send f).2)

namespace Gateway

variable {g g' : Gateway} {cid : UInt64}

/-- The listener's side of the socket of a connection. -/
def ear? (g : Gateway) (cid : UInt64) : Option Ear := (g.sockets.get? cid).map Socket.ear

/-- To change one socket leaves the listeners of all others alone. -/
theorem ear?_modifySocket (g : Gateway) (k : UInt64) (f : Socket → Socket) (cid : UInt64) :
    (g.modifySocket k f).ear? cid =
      if cid = k then (g.sockets.get? cid).map fun s ↦ (f s).ear else g.ear? cid := by
  have hs := Table.get?_modify g.sockets k cid f
  rw [ear?, modifySocket, hs]
  split
  · next he =>
    subst he
    rw [Option.map_map]
    rfl
  · rfl

/-- One listener does something else, and all others go on as before. -/
theorem ear?_setListener (g : Gateway) (k : UInt64) (l : Listener) (cid : UInt64) :
    (g.setListener k l).ear? cid =
      (g.ear? cid).map fun e ↦ if cid = k then { e with listener := l } else e := by
  rw [setListener, ear?_modifySocket]
  split
  · rw [ear?, Option.map_map]
    rfl
  · rw [Option.map_id']

/-- What the listener of a connection that has not been dealt with has before it. -/
theorem ear?_of_socket? {k : Socket} {c : Connection} (hs : g.socket? cid = some (k, c)) :
    g.ear? cid = some ⟨k.inbox, k.listener, false⟩ := by
  obtain ⟨hget, -, hf⟩ := socket?_eq_some_iff.1 hs
  rw [ear?, hget, Option.map_some, Socket.ear, hf]

/-- A listener has something else before it. -/
theorem ear?_modifyInbox {k : Socket} {c : Connection} (hs : g.socket? cid = some (k, c))
    (inbox : List SocketEvent) : (g.modifySocket cid fun s ↦ { s with inbox }).ear? cid =
      some ⟨inbox, k.listener, false⟩ := by
  obtain ⟨hget, -, hf⟩ := socket?_eq_some_iff.1 hs
  rw [ear?_modifySocket, if_pos rfl, hget, Option.map_some, Socket.ear, hf]

/-- The message that the listener of a connection is about to handle, with the connection and with
the event in which the message came. -/
def heard? (g : Gateway) (cid : UInt64) : Option (SocketEvent × Connection × Message) := do
  let (s, c) ← g.socket? cid
  match s.listener, s.inbox with
  | .listening, e :: _ => e.message?.map fun m ↦ (e, c, m)
  | _, _ => none

/-- What the listener of a connection is about to pass on, with the event in which it came and with
what is done then. -/
def passing? (g : Gateway) (cid : UInt64) : Option (SocketEvent × Message × AfterForward) := do
  let (e, c, m) ← g.heard? cid
  match (Uplink.handle g.hub c m).2 with
  | .forward m' after => return (e, m', after)
  | _ => none

/-- What passing a message on comes to: the frame goes to the outbound queue, and once there is room
for it the connection is marked, if the message ends its session. -/
structure Forwards (g : Gateway) (cid : UInt64) (m : Message) (after : AfterForward) (l : Listener)
    (g' : Gateway) : Prop where
  outlet : g'.pool.outlet = g.pool.outletWith (g.pool.frame m.cmd m.bytes)
  ear : ∀ k, g'.ear? k = (g.ear? k).map fun e ↦ if k = cid then { e with listener := l } else e
  hub : match after with
    | .proceed => ¬ l.LogsOut ∧ g'.hub = g.hub
    | .logOut => l.LogsOut ∧ g'.hub = g.hub ∨
      ¬ l.LogsOut ∧ (g.hub.modifyConn cid fun c ↦ c.setStatus .logout).Quiet g'.hub

private theorem afterNotice_eq (g : Gateway) (cid : UInt64) (ticket : Nat) :
    ∃ l, ¬ l.LogsOut ∧ l ≠ .ended ∧ g.afterNotice cid ticket = g.setListener cid l := by
  rw [afterNotice]
  split
  · exact ⟨.evicting ticket, by rintro ⟨t, ⟨⟩⟩, by rintro ⟨⟩, rfl⟩
  · exact ⟨.listening, Listener.not_logsOut_listening, by rintro ⟨⟩, rfl⟩

/-- What is done once a message has been passed on. It does not end the listener. -/
theorem afterForward_cases (g : Gateway) (cid : UInt64) (after : AfterForward) :
    ∃ l, ¬ l.LogsOut ∧ l ≠ .ended ∧ (g.afterForward cid after).pool = g.pool ∧
      (∀ k, (g.afterForward cid after).ear? k =
        (g.ear? k).map fun e ↦ if k = cid then { e with listener := l } else e) ∧
      match after with
      | .proceed => (g.afterForward cid after).hub = g.hub
      | .logOut =>
        (g.hub.modifyConn cid fun c ↦ c.setStatus .logout).Quiet
          (g.afterForward cid after).hub := by
  cases after with
  | proceed =>
    exact ⟨.listening, Listener.not_logsOut_listening, by rintro ⟨⟩, rfl,
      g.ear?_setListener cid .listening, rfl⟩
  | logOut =>
    obtain ⟨l, hl, hended, hg⟩ := afterNotice_eq
      { g with hub := ((g.hub.modifyConn cid fun c ↦ c.setStatus .logout).evict cid).2 } cid
      ((g.hub.modifyConn cid fun c ↦ c.setStatus .logout).evict cid).1
    refine ⟨l, hl, hended, ?_⟩
    rw [show g.afterForward cid .logOut = _ from hg]
    exact ⟨rfl, Gateway.ear?_setListener _ cid l, Hub.quiet_rest _ _ _ _⟩

/-- Passing a message on comes to no more than that, and does not end the listener. -/
theorem forwards (g : Gateway) (cid : UInt64) (m : Message) (after : AfterForward) :
    ∃ l, l ≠ .ended ∧ g.Forwards cid m after l (g.forward cid m after) := by
  simp only [forward]
  split
  · obtain ⟨l, hl, hended, hp, he, hh⟩ := afterForward_cases
      { g with pool := (g.pool.send (g.pool.frame m.cmd m.bytes)).2 } cid after
    refine ⟨l, hended, by rw [hp]; rfl, he, ?_⟩
    cases after with
    | proceed => exact ⟨hl, hh⟩
    | logOut => exact .inr ⟨hl, hh⟩
  · refine ⟨.forwarding _ after, by rintro ⟨⟩, rfl, Gateway.ear?_setListener _ cid _, ?_⟩
    cases after with
    | proceed => exact ⟨by rintro ⟨t, ⟨⟩⟩, rfl⟩
    | logOut => exact .inl ⟨⟨_, rfl⟩, rfl⟩

/-- What hearing an event comes to, where the listener is left doing `l`. -/
inductive Hears (g : Gateway) (cid : UInt64) (e : SocketEvent) (c : Connection) (l : Listener)
    (g' : Gateway) : Prop
  | nothing : g.passing? cid = none → ¬ l.LogsOut → g.hub.Quiet g'.hub → g'.pool = g.pool →
    Hears g cid e c l g'
  /-- Something is passed on. -/
  | passes {m₀ m : Message} {after : AfterForward} {h : Hub} :
    g.passing? cid = some (e, m, after) → e.message? = some m₀ →
    Uplink.Handled g.hub cid c m₀ (h, .forward m after) →
    g'.pool.outlet = g.pool.outletWith (g.pool.frame m.cmd m.bytes) →
    (match after with
    | .proceed => ¬ l.LogsOut ∧ g'.hub = h
    | .logOut => l.LogsOut ∧ g'.hub = h ∨
      ¬ l.LogsOut ∧ (h.modifyConn cid fun c ↦ c.setStatus .logout).Quiet g'.hub) →
    Hears g cid e c l g'

/-- A listener that listens takes the next event. -/
theorem exists_hear {k : Socket} {c : Connection} {e : SocketEvent} {inbox : List SocketEvent}
    (hs : g.socket? cid = some (k, c)) (hl : k.listener = .listening) (hi : k.inbox = e :: inbox) :
    ∃ g', g.hear cid = some g' := by
  simp only [hear, hs, Option.bind_eq_bind, Option.bind_some, hl, hi]
  split
  · exact ⟨_, rfl⟩
  · split <;> exact ⟨_, rfl⟩
  · exact ⟨_, rfl⟩
  · exact ⟨_, rfl⟩

/-- The listener takes one event from those before it, and goes on, ends or handles a message. -/
theorem hear_eq (h : g.hear cid = some g') :
    ∃ s c e inbox g₁, g.socket? cid = some (s, c) ∧ s.listener = .listening ∧
      s.inbox = e :: inbox ∧ g₁ = g.modifySocket cid (fun s ↦ { s with inbox }) ∧
      (g.heard? cid = none ∧ (g' = g₁ ∨ g' = g₁.setListener cid .ended) ∨
        ∃ m, e.message? = some m ∧ g.heard? cid = some (e, c, m) ∧
          g' = g₁.onMessage cid c m) := by
  obtain ⟨⟨s, c⟩, hs, h⟩ := Option.bind_eq_some_iff.1 h
  simp only at h
  split at h
  · next e inbox hl hi =>
    refine ⟨s, c, e, inbox, _, hs, hl, hi, rfl, ?_⟩
    simp only [heard?, hs, Option.bind_eq_bind, Option.bind_some, hl, hi, SocketEvent.message?]
    split at h
    · next hr =>
      cases h
      exact .inl ⟨by rw [hr]; rfl, .inl rfl⟩
    · next data hr =>
      split at h
      · next m hm =>
        cases h
        exact .inr ⟨m, by rw [hr]; simp only [hm]; rfl, by rw [hr]; simp only [hm]; rfl, rfl⟩
      · next hm =>
        cases h
        exact .inl ⟨by rw [hr]; simp only [hm]; rfl, .inr rfl⟩
    · next hr =>
      cases h
      exact .inl ⟨by rw [hr]; rfl, .inr rfl⟩
    · next hr =>
      cases h
      exact .inl ⟨by rw [hr]; rfl, .inr rfl⟩
  · cases h

private theorem hears_onMessage {g₁ : Gateway} (hh : g₁.hub = g.hub) (hp : g₁.pool = g.pool)
    (hn : g.hub.conns.Numbered) {c : Connection} (hc : g.hub.conns.find? cid = some c)
    {e : SocketEvent} {m : Message} (he : e.message? = some m)
    (hm : g.heard? cid = some (e, c, m)) :
    ∃ l, (l = .listening ∧ (g₁.onMessage cid c m).sockets = g₁.sockets ∨
        ∀ k, (g₁.onMessage cid c m).ear? k = (g₁.ear? k).map fun x ↦
          if k = cid then { x with listener := l } else x) ∧
      g.Hears cid e c l (g₁.onMessage cid c m) := by
  have hu := Uplink.handled hn hc m
  have hpass : g.passing? cid = match (Uplink.handle g.hub c m).2 with
      | .forward m' after => some (e, m', after)
      | _ => none := by
    simp only [passing?, hm, Option.bind_eq_bind, Option.bind_some]
    rfl
  simp only [onMessage, hh]
  generalize Uplink.handle g.hub c m = r at hu hpass
  obtain ⟨h₁, u⟩ := r
  cases u with
  | proceed =>
    refine ⟨.listening, .inl ⟨rfl, rfl⟩,
      .nothing hpass Listener.not_logsOut_listening ?_ hp⟩
    cases hu with
    | proceed hq => exact hq
  | failed cause =>
    refine ⟨.listening, .inl ⟨rfl, rfl⟩,
      .nothing hpass Listener.not_logsOut_listening ?_ hp⟩
    cases hu with
    | failed hq => exact hq
  | disconnect =>
    refine ⟨.ended, .inr (Gateway.ear?_setListener _ cid .ended),
      .nothing hpass Listener.not_logsOut_ended ?_ hp⟩
    cases hu with
    | disconnect => exact .refl _
  | forward m' after =>
    obtain ⟨l, -, hf⟩ := forwards { g₁ with hub := h₁ } cid m' after
    refine ⟨l, .inr hf.ear, .passes hpass he hu ?_ hf.hub⟩
    rw [← hp]
    exact hf.outlet

/-- A listener that hears takes one event from those before it, and does what was said above. -/
theorem hear_cases (hn : g.hub.conns.Numbered) (h : g.hear cid = some g') :
    ∃ e inbox c l, g.ear? cid = some ⟨e :: inbox, .listening, false⟩ ∧
      g.hub.conns.find? cid = some c ∧ g'.ear? cid = some ⟨inbox, l, false⟩ ∧
      (∀ k, k ≠ cid → g'.ear? k = g.ear? k) ∧ g.Hears cid e c l g' := by
  obtain ⟨s, c, e, inbox, g₁, hs, hl, hi, hg₁, hcases⟩ := hear_eq h
  obtain ⟨-, hc, -⟩ := socket?_eq_some_iff.1 hs
  have hear : ∀ k, g₁.ear? k =
    if k = cid then some ⟨inbox, .listening, false⟩ else g.ear? k := by
    intro k
    split
    · next hk => rw [hk, hg₁, ear?_modifyInbox hs, hl]
    · next hk => rw [hg₁, ear?_modifySocket, if_neg hk]
  -- It remains to say what the listener is left doing.
  obtain ⟨l, hl', hh⟩ : ∃ l, (l = .listening ∧ g'.sockets = g₁.sockets ∨
      ∀ k,
      g'.ear? k = (g₁.ear? k).map fun x ↦ if k = cid then { x with listener := l } else x) ∧
      g.Hears cid e c l g' := by
    rcases hcases with ⟨hnone, hg' | hg'⟩ | ⟨m, hmsg, hm, rfl⟩
    · have hp : g.passing? cid = none := by rw [passing?, hnone]; rfl
      subst hg'
      exact ⟨.listening, .inl ⟨rfl, rfl⟩, .nothing hp Listener.not_logsOut_listening
        (by rw [hg₁]; exact .refl _) (by rw [hg₁]; rfl)⟩
    · have hp : g.passing? cid = none := by rw [passing?, hnone]; rfl
      subst hg'
      exact ⟨.ended, .inr (ear?_setListener g₁ cid .ended),
        .nothing hp Listener.not_logsOut_ended
        (by rw [hg₁]; exact .refl _) (by rw [hg₁]; rfl)⟩
    · exact hears_onMessage (g := g) (by rw [hg₁]; rfl) (by rw [hg₁]; rfl) hn hc hmsg hm
  refine ⟨e, inbox, c, l, by rw [ear?_of_socket? hs, hl, hi], hc, ?_, ?_, hh⟩
  · rcases hl' with ⟨rfl, hs⟩ | he
    · rw [ear?, hs]
      exact (hear cid).trans (if_pos rfl)
    · rw [he, hear, if_pos rfl, Option.map_some, if_pos rfl]
  · intro k hk
    rcases hl' with ⟨rfl, hs⟩ | he
    · rw [ear?, hs]
      exact (hear k).trans (if_neg hk)
    · simp only [he, hear, if_neg hk, Option.map_id']

end Gateway

end EdgeGateway
