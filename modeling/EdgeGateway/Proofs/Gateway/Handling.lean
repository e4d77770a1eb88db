import EdgeGateway.Proofs.Gateway.Effects

/-!
# The steps of a handling

Most steps of the handling of a message do to the tables only what other tasks do, too. The rest are
the operations in which a connection is given a session, a session is routed, its memberships
follow, a session enters a room, or a session is released.
-/

namespace EdgeGateway

/-- A verdict of the backend that opens a session says which. -/
def NamesSession (body : Bytes) : Prop :=
  ∀ m ∈ (Packet.parse (H := SessionHeader) body).toOption,
    ∀ ack ∈ (Body.decode (α := OnlineAck) m.body).toOption, ack.code = ResultCode.ok →
    m.header.sid ≠ 0

/-- Whether a body names a session can be read from it. -/
instance (body : Bytes) : Decidable (NamesSession body) :=
  inferInstanceAs (Decidable (∀ m ∈ (Packet.parse (H := SessionHeader) body).toOption,
    ∀ ack ∈ (Body.decode (α := OnlineAck) m.body).toOption, ack.code = ResultCode.ok →
    m.header.sid ≠ 0))

/-- The verdict by which the backend opens a session on a connection. -/
def Message.opening (sid cid : UInt64) : Message :=
  .make .onlineAck 0 sid (Body.encode ({ sid, cid, code := ResultCode.ok } : OnlineAck))

/-- The verdict by which the backend lets a session into a room. -/
def Message.entry (sid rid : UInt64) (gid : UInt32) : Message :=
  .make .roomJoinAck 0 sid (Body.encode ({ rid, gid, code := ResultCode.ok } : RoomJoinAck))

namespace Downlink

/-- The session that is about to be opened is not 0, wherever the handling stands. -/
def Named : Downlink → Prop
  | received kind body => kind = .verdict → NamesSession body
  | judge m ack => ack.code = ResultCode.ok → m.sid ≠ 0
  | logon m _ _ | bind m _ => m.sid ≠ 0
  | _ => True

variable {h h' : Hub} {d d' : Downlink} {o : Outcome}

/-- Where handling stands once the message has been read. -/
inductive Begins (m : Message) : Downlink → Prop
  | judge (ack : OnlineAck) : Begins m (.judge m ack)
  | kick : Begins m (.kick m)
  | deliver : Begins m (.deliver m)
  | join (rid : UInt64) (gid : UInt32) : Begins m (.join m rid gid)
  | leave (rid : UInt64) : Begins m (.leave m rid)
  | gather (rid : UInt64) (gid : UInt32) : Begins m (.gather m rid gid)

/-- What a message that can be read begins. -/
theorem begins_ofMessage {kind : DownlinkKind} {m : Message} (hd : ofMessage kind m = .ok d) :
    Begins m d := by
  cases kind <;> simp only [ofMessage] at hd
  case verdict =>
    split at hd <;> cases hd
    exact .judge _
  case kick =>
    cases hd
    exact .kick
  case session =>
    cases hd
    exact .deliver
  case joined =>
    split at hd <;> cases hd
    split
    · exact .join _ _
    · exact .deliver
  case removed =>
    split at hd <;> cases hd
    exact .leave _
  case room =>
    split at hd <;> cases hd
    exact .gather _ _

/-- A frame that has been taken is either refused or begins one of the ways of handling it. -/
theorem begins_of_received {kind : DownlinkKind} {body : Bytes}
    (hs : (received kind body).step h = some (h', o)) :
    h' = h ∧ ((∃ e, o = .done e) ∨
      ∃ m d, Packet.parse body = .ok m ∧ ofMessage kind m = .ok d ∧ o = .next d ∧
        Begins m d) := by
  simp only [step] at hs
  split at hs
  · cases hs
    exact ⟨rfl, .inl ⟨_, rfl⟩⟩
  · next m hp =>
    split at hs <;> cases hs
    · next d hd => exact ⟨rfl, .inr ⟨m, d, hp, hd, rfl, begins_ofMessage hd⟩⟩
    · exact ⟨rfl, .inl ⟨_, rfl⟩⟩

private theorem named_judge {kind : DownlinkKind} {body : Bytes} {m m' : Message} {ack : OnlineAck}
    (hn : kind = .verdict → NamesSession body) (hp : Packet.parse body = .ok m)
    (hd : ofMessage kind m = .ok (.judge m' ack)) : (judge m' ack).Named := by
  cases kind <;> simp only [ofMessage] at hd
  case verdict =>
    split at hd <;> cases hd
    next ha =>
    have hm : m ∈ (Packet.parse (H := SessionHeader) body).toOption := by
      rw [hp]
      rfl
    have hack : ack ∈ (Body.decode (α := OnlineAck) m.body).toOption := by
      rw [ha]
      rfl
    exact hn rfl m hm ack hack
  case kick | session => cases hd
  case joined =>
    split at hd
    · rw [Except.ok.injEq] at hd
      split at hd <;> cases hd
    · cases hd
  case removed | room => split at hd <;> cases hd

/-- A step opens no session without a name. -/
theorem Named.step (hd : d.Named) (hs : d.step h = some (h', .next d')) : d'.Named := by
  cases d with
  | received kind body =>
    obtain ⟨-, ⟨e, he⟩ | ⟨m, d, hp, hm, he, hb⟩⟩ := begins_of_received hs
    · cases he
    · cases he
      cases hb with
      | judge ack => exact named_judge hd hp hm
      | _ => trivial
  | judge m ack =>
    simp only [Downlink.step] at hs
    split at hs <;> cases hs
    split
    · next hc => exact hd hc
    · trivial
  | logon m cid uid =>
    simp only [Downlink.step] at hs
    split at hs <;> cases hs
    exact hd
  | fanOut m members =>
    simp only [Downlink.step] at hs
    repeat' split at hs
    all_goals cases hs
    all_goals trivial
  | _ =>
    simp only [Downlink.step, behindNotice] at hs
    repeat' split at hs
    all_goals cases hs
    all_goals trivial

/-- A step that does to the tables only what other tasks do, too. -/
def Plain : Downlink → Prop
  | logon .. | bind .. | rebind .. | enter .. | release _ => False
  | _ => True

/-- A plain step does to the tables only what other tasks do, too. -/
theorem changes_of_step (hs : d.step h = some (h', o)) (hd : d.Plain) (hn : h.conns.Numbered) :
    h.Changes h' := by
  cases d with
  | logon m cid uid => cases hd
  | bind m cid => cases hd
  | rebind m cid displaced => cases hd
  | enter m rid gid cid => cases hd
  | release r => cases hd
  | refuse m cid =>
    cases hs
    exact h.changes_post cid m
  | displace m cid old =>
    simp only [Downlink.step] at hs
    split at hs <;> cases hs
    · exact (h.changes_post old _).trans (Hub.changes_modifyConn _ old fun _ ↦ .kick)
    · exact .refl
  | expel m cid =>
    cases hs
    exact (h.changes_modifyConn cid fun _ ↦ .kick).trans (Hub.changes_post _ cid m)
  | evict cid after =>
    cases hs
    exact h.changes_evict cid
  | leave m rid =>
    cases hs
    exact .single (.leaveRoom rid m.sid)
  | fanOut m members =>
    cases members with
    | nil =>
      cases hs
      exact .refl
    | cons x members =>
      simp only [Downlink.step] at hs
      split at hs <;> cases hs
      · exact h.changes_post x.2 _
      · exact .refl
  | hand m cid =>
    simp only [Downlink.step] at hs
    split at hs
    · cases hs
      exact .refl
    · next c hc =>
      split at hs <;> cases hs
      · next hsend => exact Hub.changes_store hn hc (.send hsend)
      · exact .refl
  | _ =>
    simp only [Downlink.step] at hs
    repeat' split at hs
    all_goals cases hs
    all_goals exact .refl

/-- Handling waits only for room in the queue of evictions. -/
theorem eq_waiting_of_step_eq_none (hs : d.step h = none) :
    ∃ ticket after, d = .waiting ticket after := by
  cases d with
  | waiting ticket after => exact ⟨ticket, after, rfl⟩
  | fanOut m members =>
    cases members with
    | nil => cases hs
    | cons x members =>
      simp only [Downlink.step] at hs
      split at hs <;> cases hs
  | _ =>
    simp only [Downlink.step] at hs
    repeat' split at hs
    all_goals cases hs

/-! ### From steps to what they come to -/

private theorem go_induction {P : Hub → Downlink → Prop} {Q : Hub → Prop}
    (waits : ∀ {h d}, P h d → d.step h = none → Q h)
    (next : ∀ {h h' d d'}, P h d → d.step h = some (h', .next d') → P h' d')
    (done : ∀ {h h' d r}, P h d → d.step h = some (h', .done r) → Q h') {fuel : Nat}
    (hw : d.weight h < fuel) (hp : P h d) : Q (run.go fuel h d).1 := by
  induction fuel generalizing h d with
  | zero => omega
  | succ fuel ih =>
    simp only [run.go]
    split
    · next hs => exact waits hp hs
    · next hs =>
      have := weight_step hs
      exact ih (by omega) (next hp hs)
    · next hs => exact done hp hs

/-- What holds before a handling and is carried on by every step holds, in a way, where the handling
waits or ends. -/
theorem run_induction {P : Hub → Downlink → Prop} {Q : Hub → Prop}
    (waits : ∀ {h d}, P h d → d.step h = none → Q h)
    (next : ∀ {h h' d d'}, P h d → d.step h = some (h', .next d') → P h' d')
    (done : ∀ {h h' d r}, P h d → d.step h = some (h', .done r) → Q h')
    (hp : P h d) : Q (d.run h).1 :=
  go_induction waits next done (Nat.lt_succ_self _) hp

end Downlink

namespace Closing

variable {P : Hub → Closing → Prop} {Q : Hub → Prop} {h : Hub}

private theorem go_induction
    (next : ∀ {h h' e e'}, P h e → e.step h = (h', some e') → P h' e')
    (done : ∀ {h h' e}, P h e → e.step h = (h', none) → Q h') {fuel : Nat} {e : Closing}
    (hw : e.weight ≤ fuel) (hp : P h e) : Q (run.go fuel h e) := by
  induction fuel generalizing h e with
  | zero =>
    cases e with
    | release cid r =>
      simp only [weight] at hw
      omega
    | deregister cid | retire cid =>
      simp only [weight] at hw
      omega
  | succ fuel ih =>
    simp only [run.go]
    split
    · next hs =>
      have := weight_step hs
      exact ih (by omega) (next hp hs)
    · next hs => exact done hp hs

/-- What holds before the end of a connection and is carried on by every operation of it holds, in a
way, when it is over. -/
theorem run_induction (next : ∀ {h h' e e'}, P h e → e.step h = (h', some e') → P h' e')
    (done : ∀ {h h' e}, P h e → e.step h = (h', none) → Q h') {cid : UInt64}
    (hp : P h (.deregister cid)) : Q (run h cid) := go_induction next done (Nat.le_refl _) hp

end Closing

end EdgeGateway
