import EdgeGateway.Proofs.Gateway.CoherentRun
import EdgeGateway.Proofs.Gateway.Following

/-!
# Who is sent what

A handling finds the connection that it sends something to by the route of a session or by the
record of the session in the rooms, and other tasks may have changed both when it comes to sending.
`Directs` and `Directed` say that every connection that the tables or a handling name for a session
has been logged on with it, which nothing takes back, since a connection keeps the session that it
is given. The main statement is `sent_to_bearer`: whatever a handling queues for a connection is the
refusal of a session or carries the session of that connection.
-/

namespace EdgeGateway

/-- The message is a verdict that refuses a connection its session. -/
def Message.Refuses (m : Message) (cid : UInt64) : Prop :=
  ∃ ack, Body.decode (α := OnlineAck) m.body = .ok ack ∧ ack.code ≠ ResultCode.ok ∧
    ack.cid = cid

variable {P Q : UInt64 → UInt64 → Prop} {h h' : Hub} {cid sid : UInt64}

/-! ### Whom the tables name -/

namespace Hub

/-- Every connection that the tables name for a session is one of those of the session. -/
structure Directs (P : UInt64 → UInt64 → Prop) (h : Hub) : Prop where
  routed : ∀ sid cid, h.router.lookup sid = some cid → P cid sid
  carried : ∀ sid cid, h.rooms.carrier? sid = some cid → P cid sid

/-- More connections may be those of a session. -/
theorem Directs.mono (hh : h.Directs P)
    (hpq : ∀ cid sid, P cid sid → Q cid sid) : h.Directs Q :=
  ⟨fun sid cid hl ↦ hpq cid sid (hh.routed sid cid hl),
    fun sid cid hc ↦ hpq cid sid (hh.carried sid cid hc)⟩

/-- Tables that name nobody else than others do are as good. -/
theorem Directs.of_subset (hh : h.Directs P)
    (hr : ∀ sid cid, h'.router.lookup sid = some cid → h.router.lookup sid = some cid)
    (hc : ∀ sid cid, h'.rooms.carrier? sid = some cid → h.rooms.carrier? sid = some cid) :
    h'.Directs P :=
  ⟨fun sid cid hl ↦ hh.routed sid cid (hr sid cid hl),
    fun sid cid hl ↦ hh.carried sid cid (hc sid cid hl)⟩

/-- What other tasks do names nobody for a session. -/
theorem Directs.changes (hh : h.Directs P) (hm : h.rooms.Mirrored) (hc : h.Changes h') :
    h'.Directs P := by
  refine hh.of_subset ?_ fun sid cid ↦ hc.carrier? hm
  intro sid cid hl
  rwa [hc.router] at hl

/-- Members of a room are listed with the connections that are recorded for them. -/
theorem Directs.select (hh : h.Directs P) {rid : UInt64} {gid : UInt32} {x : UInt64 × UInt64}
    (hx : x ∈ h.rooms.select rid gid) : P x.2 x.1 := by
  obtain ⟨⟨sid, group⟩, -, hx⟩ := List.mem_filterMap.1 hx
  obtain ⟨-, hx⟩ := Option.ite_none_right_eq_some.1 hx
  obtain ⟨cid, hcar, rfl⟩ := Option.map_eq_some_iff.1 hx
  exact hh.carried sid cid hcar

end Hub

/-- A release leaves the connections alone. -/
theorem Release.conns_step {r : Release} {o : Option Release} (hs : r.step h = (h', o)) :
    h'.conns = h.conns := by
  cases r with
  | inspect cid =>
    simp only [step] at hs
    split at hs <;> cases hs <;> rfl
  | unbind cid sid status =>
    rw [step_unbind] at hs
    split at hs <;> cases hs <;> rfl
  | clear cid sid status =>
    simp only [step] at hs
    cases hs
    split <;> rfl

/-- A release names nobody for a session. -/
theorem Release.directs_step {r : Release} {o : Option Release} (hh : h.Directs P)
    (hm : h.rooms.Mirrored) (hs : r.step h = (h', o)) : h'.Directs P := by
  cases r with
  | inspect cid =>
    simp only [step] at hs
    split at hs <;> cases hs <;> exact hh
  | unbind cid sid status =>
    rw [step_unbind] at hs
    split at hs <;> cases hs
    · refine hh.of_subset ?_ fun _ _ ↦ id
      intro sid' cid' hl
      rw [Router.lookup_unbind] at hl
      split at hl
      · cases hl
      · exact hl
    · exact hh
  | clear cid sid status =>
    have hrooms : h'.rooms = (h.rooms.removeSession sid).2 ∧ h'.router = h.router := by
      simp only [step] at hs
      cases hs
      split <;> exact ⟨rfl, rfl⟩
    refine hh.of_subset ?_ ?_
    · rw [hrooms.2]
      exact fun _ _ ↦ id
    · intro sid' cid' hc
      rw [hrooms.1, Rooms.carrier?_removeSession hm] at hc
      split at hc
      · cases hc
      · exact hc

/-- The end of a connection names nobody for a session. -/
theorem Closing.directs_step {e : Closing} {o : Option Closing} (hh : h.Directs P)
    (hm : h.rooms.Mirrored) (hs : e.step h = (h', o)) : h'.Directs P := by
  cases e with
  | deregister cid =>
    cases hs
    exact ⟨hh.routed, hh.carried⟩
  | release cid r =>
    simp only [step] at hs
    split at hs <;> cases hs
    · next hr => exact Release.directs_step hh hm hr
    · next hr => exact Release.directs_step hh hm hr
  | retire cid =>
    cases hs
    exact ⟨hh.routed, hh.carried⟩

/-! ### Whom a handling names -/

namespace Downlink

/-- Every connection that a handling names for a session is one of those of the session, and a
session is refused only to the connection that the verdict is about. -/
def Directed (P : UInt64 → UInt64 → Prop) : Downlink → Prop
  | judge m ack => Body.decode m.body = .ok ack
  | refuse m cid => m.Refuses cid
  | bind m cid | verify m cid | reachKicked m cid | expel m cid | enter m _ _ cid | reach m cid
  | hand m cid => P cid m.sid
  | rebind m cid displaced => P cid m.sid ∧ ∀ old ∈ displaced, P old m.sid
  | displace m cid old => P cid m.sid ∧ P old m.sid
  | evict _ after | waiting _ after => ∀ x ∈ after, P x.2 x.1.sid
  | fanOut _ members => ∀ x ∈ members, P x.2 x.1
  | _ => True

variable {d d' : Downlink} {o : Outcome}

/-- More connections may be those of a session. -/
theorem Directed.mono (hd : d.Directed P) (hpq : ∀ cid sid, P cid sid → Q cid sid) :
    d.Directed Q := by
  cases d with
  | judge m ack | refuse m cid => exact hd
  | rebind m cid displaced => exact ⟨hpq _ _ hd.1, fun old ho ↦ hpq _ _ (hd.2 old ho)⟩
  | displace m cid old => exact ⟨hpq _ _ hd.1, hpq _ _ hd.2⟩
  | evict k after | waiting k after | fanOut m after => exact fun x hx ↦ hpq _ _ (hd x hx)
  | bind m cid | verify m cid | reachKicked m cid | expel m cid | enter m rid gid cid | reach m cid
  | hand m cid => exact hpq _ _ hd
  | _ => trivial

private theorem directed_ofMessage {kind : DownlinkKind} {m : Message}
    (hd : ofMessage kind m = .ok d) : d.Directed P := by
  cases kind <;> simp only [ofMessage] at hd
  case verdict =>
    split at hd <;> cases hd
    assumption
  case kick | session =>
    cases hd
    trivial
  case joined =>
    split at hd <;> cases hd
    split <;> trivial
  case removed | room =>
    split at hd <;> cases hd
    trivial

/-- A handling goes on to name only connections of a session, if those that are logged on with it
are among them. -/
theorem Directed.step (hd : d.Directed P) (hh : h.Directs P) (hn : h.conns.Numbered)
    (hs : d.step h = some (h', .next d'))
    (hl : ∀ cid c, h'.conns.find? cid = some c → c.status = .logon → P cid c.sid) :
    d'.Directed P := by
  cases d with
  | received kind body =>
    obtain ⟨-, ⟨e, he⟩ | ⟨m, d, -, hm, he, -⟩⟩ := begins_of_received hs
    · cases he
    · cases he
      exact directed_ofMessage hm
  | judge m ack =>
    simp only [Downlink.step] at hs
    split at hs <;> cases hs
    split
    · trivial
    · next hcode => exact ⟨ack, hd, hcode, rfl⟩
  | refuse m cid | expel m cid =>
    cases hs
    rintro d ⟨⟩
  | logon m cid uid =>
    simp only [Downlink.step] at hs
    split at hs <;> cases hs
    next c hc =>
    obtain ⟨k, hf, hk⟩ := Option.bind_eq_some_iff.1 hc
    obtain ⟨-, -, rfl⟩ := Connection.logon_eq_some_iff.1 hk
    refine hl cid { k with sid := m.sid, uid, status := .logon } ?_ rfl
    simp only [Connections.store, Connections.find?_modify, hn.cid_eq cid k hf, if_true, hf,
      Option.map_some]
  | bind m cid =>
    cases hs
    refine ⟨hd, ?_⟩
    intro old ho
    exact hh.routed m.sid old (Option.mem_filter_iff.1 ho).1
  | rebind m cid displaced =>
    simp only [Downlink.step] at hs
    split at hs <;> cases hs
    · exact ⟨hd.1, hd.2 _ rfl⟩
    · exact hd.1
  | displace m cid old =>
    have hx : ∀ x ∈ some (m, cid), P x.2 x.1.sid := by
      rintro x ⟨⟩
      exact hd.1
    simp only [Downlink.step] at hs
    split at hs <;> cases hs <;> exact hx
  | verify m cid =>
    simp only [Downlink.step] at hs
    split at hs <;> cases hs
    split
    · trivial
    · exact hd
  | kick m | join m rid gid | deliver m =>
    simp only [Downlink.step] at hs
    split at hs <;> cases hs
    next hr => exact hh.routed m.sid _ hr
  | evict cid after =>
    cases hs
    exact hd
  | waiting ticket after =>
    cases after <;> simp only [Downlink.step, behindNotice] at hs <;> split at hs <;> cases hs
    exact hd _ rfl
  | gather m rid gid =>
    cases hs
    exact fun x hx ↦ hh.select hx
  | fanOut m members =>
    cases members with
    | nil => cases hs
    | cons x members =>
      simp only [Downlink.step] at hs
      split at hs <;> cases hs
      · exact fun y hy ↦ hd y (List.mem_cons_of_mem _ hy)
      · exact fun y hy ↦ hd y (List.mem_cons_of_mem _ hy)
  | reachKicked m cid | reach m cid =>
    simp only [Downlink.step] at hs
    split at hs <;> cases hs
    exact hd
  | enter m rid gid cid | leave m rid =>
    cases hs
    trivial
  | release r =>
    simp only [Downlink.step] at hs
    split at hs <;> cases hs
    trivial
  | hand m cid =>
    simp only [Downlink.step] at hs
    repeat' split at hs
    all_goals cases hs

/-- A step of a handling names only connections of a session, if the handling does so. -/
theorem Directed.directs_step (hd : d.Directed P) (hh : h.Directs P) (hn : h.conns.Numbered)
    (hm : h.rooms.Mirrored) (hs : d.step h = some (h', o)) : h'.Directs P := by
  refine ⟨?_, ?_⟩
  · intro sid cid hl
    rcases (op_of_step hn hs).lookup hl with hl | hr
    · exact hh.routed sid cid hl
    · obtain ⟨m, rfl, rfl⟩ := route?_eq_some_iff.1 hr
      exact hd
  · intro sid cid hc
    cases d with
    | logon m k uid =>
      simp only [Downlink.step] at hs
      split at hs <;> cases hs <;> exact hh.carried sid cid hc
    | bind m k =>
      cases hs
      exact hh.carried sid cid hc
    | rebind m k displaced =>
      have hrooms : h'.rooms = (h.rooms.rebind m.sid k).2 := by
        simp only [Downlink.step] at hs
        split at hs <;> cases hs <;> rfl
      rw [hrooms, Rooms.carrier?_rebind] at hc
      split at hc
      · next he =>
        obtain ⟨_, -, rfl⟩ := Option.map_eq_some_iff.1 hc
        rw [he]
        exact hd.1
      · exact hh.carried sid cid hc
    | enter m rid gid k =>
      cases hs
      rw [show Rooms.carrier? _ sid = _ from Rooms.carrier?_join h.rooms rid gid m.sid k sid] at hc
      split at hc
      · next he =>
        cases hc
        rw [he]
        exact hd
      · exact hh.carried sid cid hc
    | release r =>
      simp only [Downlink.step] at hs
      split at hs <;> cases hs
      · next hr => exact (Release.directs_step hh hm hr).carried sid cid hc
      · next hr => exact (Release.directs_step hh hm hr).carried sid cid hc
    | _ => exact (hh.changes hm (changes_of_step hs trivial hn)).carried sid cid hc

/-! ### What a handling sends -/

/-- The message that a step of a handling queues for a connection. -/
inductive Sends (h : Hub) : Downlink → UInt64 → Message → Prop
  | refuse (m : Message) (cid : UInt64) : Sends h (.refuse m cid) cid m
  | displace (m : Message) (cid old : UInt64) :
    Sends h (.displace m cid old) old (h.displacement m.sid)
  | expel (m : Message) (cid : UInt64) : Sends h (.expel m cid) cid m
  | fanOut (m : Message) (sid cid : UInt64) (members : List (UInt64 × UInt64)) :
    Sends h (.fanOut m ((sid, cid) :: members)) cid (m.readdress sid m.header.nid)
  | hand (m : Message) (cid : UInt64) : Sends h (.hand m cid) cid m

/-- Whatever is sent is a refusal, or goes to a connection of the session that it carries. -/
theorem Sends.directed {m : Message} (hx : d.Sends h cid m) (hd : d.Directed P) :
    (d = .refuse m cid ∧ m.Refuses cid) ∨ P cid m.sid := by
  cases hx with
  | refuse m cid => exact .inl ⟨rfl, hd⟩
  | displace m cid old => exact .inr hd.2
  | expel m cid => exact .inr hd
  | fanOut m sid cid members => exact .inr (hd _ List.mem_cons_self)
  | hand m cid => exact .inr hd

private theorem queue_post {k : UInt64} {m : Message} {c' : Connection}
    (hf : (h.post k m).conns.find? cid = some c') :
    ∃ c, h.conns.find? cid = some c ∧
      (c'.queue = c.queue ∨ cid = k ∧ c'.queue = c.queue ++ [m]) := by
  rw [Hub.post, Hub.modifyConn, Connections.find?_modify] at hf
  split at hf
  · next he =>
    subst he
    obtain ⟨c, hc, rfl⟩ := Option.map_eq_some_iff.1 hf
    refine ⟨c, hc, ?_⟩
    rw [Connection.post]
    split
    · next hs =>
      obtain ⟨-, -, -, rfl⟩ := Connection.send_eq_ok_iff.1 hs
      exact .inr ⟨rfl, rfl⟩
    · exact .inl rfl
  · exact ⟨c', hf, .inl rfl⟩

private theorem queue_setStatus {k : UInt64} {status : Status} {c' : Connection}
    (hf : (h.modifyConn k fun c ↦ c.setStatus status).conns.find? cid = some c') :
    ∃ c, h.conns.find? cid = some c ∧ c'.queue = c.queue := by
  rw [Hub.modifyConn, Connections.find?_modify] at hf
  split at hf
  · next he =>
    subst he
    obtain ⟨c, hc, rfl⟩ := Option.map_eq_some_iff.1 hf
    exact ⟨c, hc, rfl⟩
  · exact ⟨c', hf, rfl⟩

private theorem queue_store (hn : h.conns.Numbered) {k : UInt64} {c d c' : Connection}
    (hc : h.conns.find? k = some c) (hd : d.cid = c.cid)
    (hf : (h.conns.store d).find? cid = some c') :
    ∃ e, h.conns.find? cid = some e ∧ (cid = k ∧ e = c ∧ c' = d ∨ c' = e) := by
  rw [Connections.store, hd, hn.cid_eq k c hc, Connections.find?_modify] at hf
  split at hf
  · next he =>
    subst he
    rw [hc, Option.map_some, Option.some.injEq] at hf
    exact ⟨c, hc, .inl ⟨rfl, rfl, hf.symm⟩⟩
  · exact ⟨c', hf, .inr rfl⟩

/-- A step of a handling leaves the queue of a connection as it is or puts behind it what it sends.
-/
theorem queue_of_step (hn : h.conns.Numbered) (hs : d.step h = some (h', o)) {c' : Connection}
    (hf : h'.conns.find? cid = some c') :
    ∃ c, h.conns.find? cid = some c ∧
      (c'.queue = c.queue ∨ ∃ m, d.Sends h cid m ∧ c'.queue = c.queue ++ [m]) := by
  cases d with
  | refuse m k =>
    cases hs
    obtain ⟨c, hc, hq | ⟨rfl, hq⟩⟩ := queue_post hf
    · exact ⟨c, hc, .inl hq⟩
    · exact ⟨c, hc, .inr ⟨m, .refuse m cid, hq⟩⟩
  | displace m k old =>
    simp only [Downlink.step] at hs
    split at hs <;> cases hs
    · obtain ⟨b, hb, hq'⟩ := queue_setStatus hf
      obtain ⟨c, hc, hq⟩ := queue_post hb
      rw [← hq'] at hq
      rcases hq with hq | ⟨rfl, hq⟩
      · exact ⟨c, hc, .inl hq⟩
      · exact ⟨c, hc, .inr ⟨_, .displace m k cid, hq⟩⟩
    · exact ⟨c', hf, .inl rfl⟩
  | expel m k =>
    cases hs
    obtain ⟨b, hb, hq⟩ := queue_post hf
    obtain ⟨c, hc, hq'⟩ := queue_setStatus hb
    rw [hq'] at hq
    rcases hq with hq | ⟨rfl, hq⟩
    · exact ⟨c, hc, .inl hq⟩
    · exact ⟨c, hc, .inr ⟨m, .expel m cid, hq⟩⟩
  | fanOut m members =>
    cases members with
    | nil =>
      cases hs
      exact ⟨c', hf, .inl rfl⟩
    | cons x members =>
      obtain ⟨sid, k⟩ := x
      simp only [Downlink.step] at hs
      split at hs <;> cases hs
      · obtain ⟨c, hc, hq | ⟨rfl, hq⟩⟩ := queue_post hf
        · exact ⟨c, hc, .inl hq⟩
        · exact ⟨c, hc, .inr ⟨_, .fanOut m sid cid members, hq⟩⟩
      · exact ⟨c', hf, .inl rfl⟩
  | hand m k =>
    simp only [Downlink.step] at hs
    split at hs
    · cases hs
      exact ⟨c', hf, .inl rfl⟩
    · next e he =>
      split at hs <;> cases hs
      · next d hsend =>
        obtain ⟨-, -, -, rfl⟩ := Connection.send_eq_ok_iff.1 hsend
        obtain ⟨c, hc, ⟨rfl, rfl, rfl⟩ | rfl⟩ :=
          queue_store hn he (d := { e with queue := e.queue ++ [m] }) rfl hf
        · exact ⟨c, hc, .inr ⟨m, .hand m cid, rfl⟩⟩
        · exact ⟨c', hc, .inl rfl⟩
      · exact ⟨c', hf, .inl rfl⟩
  | logon m k uid =>
    simp only [Downlink.step] at hs
    split at hs <;> cases hs
    · next d hd =>
      obtain ⟨e, he, hl⟩ := Option.bind_eq_some_iff.1 hd
      obtain ⟨-, -, rfl⟩ := Connection.logon_eq_some_iff.1 hl
      obtain ⟨c, hc, ⟨-, rfl, rfl⟩ | rfl⟩ :=
        queue_store hn he (d := { e with sid := m.sid, uid, status := .logon }) rfl hf
      · exact ⟨c, hc, .inl rfl⟩
      · exact ⟨c', hc, .inl rfl⟩
    · exact ⟨c', hf, .inl rfl⟩
  | release r =>
    have hconns : h'.conns = h.conns := by
      simp only [Downlink.step] at hs
      split at hs <;> cases hs
      · next hr => exact Release.conns_step hr
      · next hr => exact Release.conns_step hr
    exact ⟨c', hconns ▸ hf, .inl rfl⟩
  | _ =>
    simp only [Downlink.step, Hub.evict, behindNotice] at hs
    repeat' split at hs
    all_goals cases hs
    all_goals exact ⟨c', hf, .inl rfl⟩

end Downlink

/-! ### Along a run -/

namespace Crew

variable {feed : DownlinkKind → Bytes → Prop} {start c c' : Crew} {l : List Crew}
  {e : Option Event}

/-- The states that a run passes before it comes to the last one. -/
inductive Path (feed : DownlinkKind → Bytes → Prop) (start : Crew) :
    List Crew → Crew → Prop where
  | start : Path feed start [] start
  | act {l : List Crew} {c c' : Crew} {e : Option Event} :
    Path feed start l c → Act feed c e c' → Path feed start (l ++ [c]) c'

/-- Every run passes some states. -/
theorem Run.exists_path {tr : List Event} (hr : Run feed start tr c) :
    ∃ l, Path feed start l c := by
  induction hr with
  | start => exact ⟨[], .start⟩
  | act _ ha ih =>
    obtain ⟨l, hl⟩ := ih
    exact ⟨_, hl.act ha⟩

/-- In one of the states a connection is logged on with a session. -/
def LoggedOn (l : List Crew) (cid sid : UInt64) : Prop :=
  ∃ c ∈ l, ∃ k, c.hub.conns.find? cid = some k ∧ k.status = .logon ∧ k.sid = sid

private theorem LoggedOn.append (hl : LoggedOn l cid sid) (l' : List Crew) :
    LoggedOn (l ++ l') cid sid := by
  obtain ⟨c, hc, hk⟩ := hl
  exact ⟨c, List.mem_append_left l' hc, hk⟩

private theorem loggedOn_last (l : List Crew) {k : Connection}
    (hf : c.hub.conns.find? cid = some k) (hs : k.status = .logon) :
    LoggedOn (l ++ [c]) cid k.sid :=
  ⟨c, List.mem_append_right l (List.mem_singleton_self c), k, hf, hs, rfl⟩

/-- No act takes back what a connection has become. -/
theorem Act.grown (ha : Act feed c e c') (hc : c.Sound) :
    c.hub.conns.Grown c'.hub.conns := by
  cases ha with
  | change hch => exact (hch.evolves hc.numbered).grown fun _ _ hk ↦ hk.grows
  | receive hn => exact .refl _
  | call hs => exact (Downlink.op_of_step hc.numbered hs).grown hc.numbered
  | depart hf hcl hl hno => exact .refl _
  | ending hs =>
    rcases Closing.op_of_step hs with hop | ⟨k, -, rfl, -⟩
    · exact hop.grown hc.numbered
    · exact .refl _

/-- Everybody at work, and the tables, name for a session only connections of it. -/
structure Directed (P : UInt64 → UInt64 → Prop) (c : Crew) : Prop where
  tables : c.hub.Directs P
  calls : ∀ d ∈ c.calls, d.Directed P

private theorem Directed.mono (hc : c.Directed P) (hpq : ∀ cid sid, P cid sid → Q cid sid) :
    c.Directed Q :=
  ⟨hc.tables.mono hpq, fun d hd ↦ (hc.calls d hd).mono hpq⟩

/-- An act names only connections of a session, if those that are logged on with it are among them.
-/
theorem Directed.act (hd : c.Directed P) (hc : c.Sound) (ha : Act feed c e c')
    (hl : ∀ cid k, c'.hub.conns.find? cid = some k → k.status = .logon → P cid k.sid) :
    c'.Directed P := by
  cases ha with
  | change hch => exact ⟨hd.tables.changes hc.mirrored (.single hch), hd.calls⟩
  | receive hn =>
    refine ⟨hd.tables, ?_⟩
    intro d hx
    rcases List.mem_cons.1 hx with rfl | hx
    · trivial
    · exact hd.calls d hx
  | @call h h' d o a b es hs =>
    have hdd := hd.calls d (List.mem_append_right _ List.mem_cons_self)
    refine ⟨hdd.directs_step hd.tables hc.numbered hc.mirrored hs, ?_⟩
    intro x hx
    rcases mem_of_mem_replaced (x := d) hx with hx | hx
    · exact hd.calls x hx
    · rw [Downlink.Outcome.mem_calls] at hx
      subst hx
      exact hdd.step hd.tables hc.numbered hs hl
  | depart hf hcl hlive hno => exact ⟨hd.tables, hd.calls⟩
  | ending hs => exact ⟨Closing.directs_step hd.tables hc.mirrored hs, hd.calls⟩

/-- What tasks rely on holds along a path, what connections had become before is not taken back, and
all that is named for a session has been logged on with it. -/
structure Path.Kept (l : List Crew) (c : Crew) : Prop where
  sound : c.Sound
  grown : ∀ b ∈ l ++ [c], b.hub.conns.Grown c.hub.conns
  directed : c.Directed (LoggedOn (l ++ [c]))

private theorem directed_fresh (s : Settings) (P : UInt64 → UInt64 → Prop) :
    Directed P { hub := (Gateway.fresh s).hub } := by
  refine ⟨⟨?_, ?_⟩, List.forall_mem_nil _⟩
  · intro sid cid hl
    cases (Router.lookup_empty s.shards sid).symm.trans hl
  · intro sid cid hc
    cases hc

/-- Along every path from a gateway that has not been started nothing is taken back, and all that is
named for a session has been logged on with it. -/
theorem Path.kept {s : Settings} (hp : Path feed { hub := (Gateway.fresh s).hub } l c) :
    Path.Kept l c := by
  induction hp with
  | start =>
    refine ⟨sound_of_coherent (Hub.coherent_empty ..), ?_, directed_fresh s _⟩
    intro b hb
    rw [List.nil_append, List.mem_singleton] at hb
    rw [hb]
    exact .refl _
  | @act l c c' e hp ha ih =>
    have hg := ha.grown ih.sound
    refine ⟨ih.sound.act ha, ?_, ?_⟩
    · intro b hb
      rcases List.mem_append.1 hb with hb | hb
      · exact (ih.grown b hb).trans hg
      · rw [List.mem_singleton.1 hb]
        exact .refl _
    · have hd : c.Directed (LoggedOn (l ++ [c] ++ [c'])) :=
        ih.directed.mono fun cid sid hl ↦ hl.append [c']
      exact hd.act ih.sound ha fun cid k hf hs ↦ loggedOn_last (l ++ [c]) hf hs

/-- A connection that was logged on along a path still has the session that it was given. -/
theorem Path.Kept.sid_eq (hk : Path.Kept l c) (hl : LoggedOn (l ++ [c]) cid sid) {k : Connection}
    (hf : c.hub.conns.find? cid = some k) : k.sid = sid := by
  obtain ⟨b, hb, j, hj, hs, rfl⟩ := hl
  obtain ⟨k', hk', hg⟩ := hk.grown b hb cid j hj
  rw [hf] at hk'
  cases hk'
  refine hg.sid (.inr ?_)
  rintro (he | he) <;> rw [hs] at he <;> cases he

/-- However handlings and endings interleave: a step of a handling leaves the queue of every
connection as it is or puts one message behind it, which refuses that connection a session or
carries the session of that connection, with which it has been logged on. -/
theorem sent_to_bearer {s : Settings} {h h' : Hub} {d : Downlink} {o : Downlink.Outcome}
    {a b : List Downlink} {es : List Closing}
    (hp : Path feed { hub := (Gateway.fresh s).hub } l ⟨h, a ++ d :: b, es⟩)
    (hs : d.step h = some (h', o)) {k' : Connection} (hf : h'.conns.find? cid = some k') :
    ∃ k, h.conns.find? cid = some k ∧
      (k'.queue = k.queue ∨ ∃ m, k'.queue = k.queue ++ [m] ∧
        (d = .refuse m cid ∧ m.Refuses cid ∨
          m.sid = k'.sid ∧ LoggedOn (l ++ [⟨h, a ++ d :: b, es⟩]) cid m.sid)) := by
  have hk := hp.kept
  obtain ⟨k, hf₀, hq⟩ := Downlink.queue_of_step hk.sound.numbered hs hf
  refine ⟨k, hf₀, ?_⟩
  rcases hq with hq | ⟨m, hm, hq⟩
  · exact .inl hq
  · refine .inr ⟨m, hq, ?_⟩
    have hd := hk.directed.calls d (List.mem_append_right _ List.mem_cons_self)
    rcases hm.directed hd with hr | hl
    · exact .inl hr
    · refine .inr ⟨?_, hl⟩
      -- The session is still that of the connection after the step, which is one more act of the
      -- path.
      have hk' := (hp.act (.call hs)).kept
      exact (hk'.sid_eq (hl.append [_]) hf).symm

/-- A client is given session 42, then another one asks for it, and the first is about to be told.
-/
def displacement : List Deed :=
  admission 1 ++ [.connect, .request 2, .receive .verdict (Message.opening 42 2).bytes] ++
    List.replicate 5 (.call 0)

/-- The notice that a session was opened elsewhere goes to the connection that has borne it. -/
theorem sent_to_bearer_displaced :
    ∃ l h, Path Naming { hub := (Gateway.fresh Gateway.Takeover.settings).hub } l
        ⟨h, [.displace (Message.opening 42 2) 2 1], []⟩ ∧
      ∃ h' o k', (Downlink.displace (Message.opening 42 2) 2 1).step h = some (h', o) ∧
        h'.conns.find? 1 = some k' ∧ k'.sid = 42 ∧ k'.queue.map (·.sid) = [42, 42] ∧
        LoggedOn (l ++ [⟨h, [.displace (Message.opening 42 2) 2 1], []⟩]) 1 42 := by
  have hcrew : (run? { hub := Hub.empty 1 1 4 1000 } displacement).map (fun r ↦
      (r.2.calls, r.2.endings)) = some ([.displace (Message.opening 42 2) 2 1], []) := by
    decide +kernel
  have hqueue : (run? { hub := Hub.empty 1 1 4 1000 } displacement).bind (fun r ↦
      (r.2.hub.conns.find? 1).map (·.queue.map (·.sid))) = some [42] := by
    decide +kernel
  have hqueue' : (run? { hub := Hub.empty 1 1 4 1000 } displacement).bind (fun r ↦
      ((Downlink.displace (Message.opening 42 2) 2 1).step r.2.hub).bind fun x ↦
        (x.1.conns.find? 1).map fun k ↦ (k.sid, k.queue.map (·.sid))) = some (42, [42, 42]) := by
    decide +kernel
  obtain ⟨⟨tr, ⟨h, calls, endings⟩⟩, hrun, hcrew⟩ := Option.map_eq_some_iff.1 hcrew
  obtain ⟨rfl, rfl⟩ := Prod.mk.injEq .. ▸ hcrew
  rw [hrun, Option.bind_some] at hqueue hqueue'
  obtain ⟨⟨h', o⟩, hs, hk'⟩ := Option.bind_eq_some_iff.1 hqueue'
  obtain ⟨k', hf, hk'⟩ := Option.map_eq_some_iff.1 hk'
  obtain ⟨hsid, hsids⟩ := Prod.mk.injEq .. ▸ hk'
  obtain ⟨l, hp⟩ := (run_of_run? .start hrun).exists_path
  refine ⟨l, h, hp, h', o, k', hs, hf, hsid, hsids, ?_⟩
  obtain ⟨k, hf₀, hq | ⟨m, -, hx⟩⟩ :=
    sent_to_bearer (s := Gateway.Takeover.settings) (a := []) hp hs hf
  · obtain ⟨j, hj, hk⟩ := Option.map_eq_some_iff.1 hqueue
    cases hf₀.symm.trans hj
    rw [← hq, hsids] at hk
    cases hk
  · rcases hx with ⟨he, -⟩ | ⟨hm, hl⟩
    · cases he
    · rwa [hm, hsid] at hl

end Crew

end EdgeGateway
