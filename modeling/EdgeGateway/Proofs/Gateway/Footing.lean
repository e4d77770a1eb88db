import EdgeGateway.Proofs.Gateway.Coherence
import EdgeGateway.Proofs.Gateway.Interleaving

/-!
# What interleaving tasks can rely on

When anything may happen between two operations of a task, only what no other task takes back is of
use: a connection keeps its session once it has one, it stays closed once it is, and one that is
closed is given no session any more. `Sound` says what follows for the tables and for every task at
work, and every act keeps it.
-/

namespace EdgeGateway

namespace Hub

/-- A connection has been given a session. -/
def Bears (h : Hub) (cid sid : UInt64) : Prop :=
  ∃ c, h.conns.find? cid = some c ∧ c.sid = sid ∧ ¬ c.Early

/-- A connection is closed. -/
def Shut (h : Hub) (cid : UInt64) : Prop := ∃ c, h.conns.find? cid = some c ∧ c.closed = true

/-- A connection is closed and was given a session, or 0 if it was given none. -/
def ShutWith (h : Hub) (cid sid : UInt64) : Prop :=
  ∃ c, h.conns.find? cid = some c ∧ c.closed = true ∧ c.sid = sid

variable {h h' : Hub} {cid sid : UInt64}

/-- Connections that grow keep their sessions. -/
theorem Bears.grow (hb : h.Bears cid sid) (hg : h.conns.Grown h'.conns) : h'.Bears cid sid := by
  obtain ⟨c, hf, hs, he⟩ := hb
  obtain ⟨d, hd, hk⟩ := hg cid c hf
  exact ⟨d, hd, (hk.sid (.inr he)).trans hs, mt hk.early he⟩

private theorem Shut.grow (hb : h.Shut cid) (hg : h.conns.Grown h'.conns) : h'.Shut cid := by
  obtain ⟨c, hf, hcl⟩ := hb
  obtain ⟨d, hd, hk⟩ := hg cid c hf
  exact ⟨d, hd, hk.closed hcl⟩

private theorem ShutWith.grow (hb : h.ShutWith cid sid) (hg : h.conns.Grown h'.conns) :
    h'.ShutWith cid sid := by
  obtain ⟨c, hf, hcl, hs⟩ := hb
  obtain ⟨d, hd, hk⟩ := hg cid c hf
  exact ⟨d, hd, hk.closed hcl, (hk.sid (.inl hcl)).trans hs⟩

/-- A connection that is logged on has been given its session. -/
theorem bears_of_logon {uid : UInt64} {c d : Connection} (hn : h.conns.Numbered)
    (hf : h.conns.find? cid = some c) (hl : c.logon sid uid = some d) :
    Bears { h with conns := h.conns.store d } cid sid := by
  have hcid : d.cid = cid := (Connection.grows_of_logon hl).cid.trans (hn.cid_eq cid c hf)
  obtain ⟨-, -, rfl⟩ := Connection.logon_eq_some_iff.1 hl
  refine ⟨{ c with sid, uid, status := .logon }, ?_, rfl, ?_⟩
  · show (h.conns.modify c.cid _).find? cid = _
    rw [Connections.find?_modify, if_pos hcid.symm, show c.cid = cid from hcid, hf]
    rfl
  · rintro (he | he) <;> cases he

/-- A closed connection has no session but the one that it was given. -/
theorem Bears.eq_of_shutWith {sid' : UInt64} (hb : h.Bears cid sid) (hs : h.ShutWith cid sid') :
    sid = sid' := by
  obtain ⟨c, hf, rfl, -⟩ := hb
  obtain ⟨d, hd, -, rfl⟩ := hs
  rw [hf] at hd
  cases hd
  rfl

/-- A connection is given one session only. -/
theorem Bears.eq_of_bears {sid' : UInt64} (hb : h.Bears cid sid) (hs : h.Bears cid sid') :
    sid = sid' := by
  obtain ⟨c, hf, rfl, -⟩ := hb
  obtain ⟨d, hd, rfl, -⟩ := hs
  rw [hf] at hd
  cases hd
  rfl

/-! ### Single operations -/

/-- One operation of a handling or of an ending on the tables, and the route that it makes, if it
makes one. -/
inductive Op (h : Hub) : Option (UInt64 × UInt64) → Hub → Prop
  /-- The operation is one that other tasks do, too, or does nothing. -/
  | changes {h' : Hub} : h.Changes h' → Op h none h'
  | logon {cid sid uid : UInt64} {c d : Connection} : h.conns.find? cid = some c →
    c.logon sid uid = some d → Op h none { h with conns := h.conns.modify cid fun _ ↦ d }
  | bind (sid cid : UInt64) : Op h (some (sid, cid)) { h with router := (h.router.bind sid cid).2 }
  | unbind (sid cid : UInt64) : Op h none { h with router := (h.router.unbind sid cid).2 }
  | rebind (sid cid : UInt64) : Op h none { h with rooms := (h.rooms.rebind sid cid).2 }
  | join (rid : UInt64) (gid : UInt32) (sid cid : UInt64) :
    Op h none { h with rooms := h.rooms.join rid gid sid cid }
  | removeSession (sid : UInt64) (farewells : List Message) :
    Op h none { h with rooms := (h.rooms.removeSession sid).2, farewells }
  | retire {cid : UInt64} {c : Connection} : h.conns.find? cid = some c →
    Op h none { h with conns := h.conns.modify cid fun _ ↦ c.setStatus .close }

variable {route : Option (UInt64 × UInt64)}

/-- Other tasks leave the routes alone. -/
theorem Changes.router (hc : h.Changes h') : h'.router = h.router := by
  induction hc with
  | refl => rfl
  | tail _ hch ih => rw [hch.router, ih]

private theorem Changes.numbered (hn : h.conns.Numbered)
    (hc : h.Changes h') : h'.conns.Numbered := by
  induction hc with
  | refl => exact hn
  | tail _ hch ih => exact hch.numbered ih

/-- Whatever other tasks do takes nothing away from a connection. -/
theorem Changes.grown (hn : h.conns.Numbered) (hc : h.Changes h') : h.conns.Grown h'.conns := by
  induction hc with
  | refl => exact .refl _
  | tail hcs hch ih =>
    have he := hch.evolves (Changes.numbered hn hcs)
    exact ih.trans (he.grown fun _ _ hk ↦ hk.grows)

private theorem Changes.isLive (hc : h.Changes h') (hl : h.conns.isLive cid = true) :
    h'.conns.isLive cid = true := by
  induction hc with
  | refl => exact hl
  | tail _ hch ih => exact hch.isLive ih

private theorem Changes.mirrored (hm : h.rooms.Mirrored)
    (hc : h.Changes h') : h'.rooms.Mirrored := by
  induction hc with
  | refl => exact hm
  | tail _ hch ih => exact hch.mirrored ih

/-- Other tasks let no session into a room and have no other connection carry it. -/
theorem Changes.carrier? (hm : h.rooms.Mirrored) (hc : h.Changes h')
    (hs : h'.rooms.carrier? sid = some cid) : h.rooms.carrier? sid = some cid := by
  induction hc with
  | refl => exact hs
  | tail hcs hch ih => exact ih (hch.carrier? (Changes.mirrored hm hcs) hs)

/-- No operation puts a connection under another number. -/
theorem Op.numbered (hn : h.conns.Numbered) (ho : h.Op route h') : h'.conns.Numbered := by
  cases ho with
  | changes hc => exact hc.numbered hn
  | logon hf hl => exact hn.modify hf (Connection.grows_of_logon hl)
  | retire hf => exact hn.modify hf (Connection.follows_retire _).grows
  | _ => exact hn

/-- No operation takes back what a connection has become. -/
theorem Op.grown (hn : h.conns.Numbered) (ho : h.Op route h') : h.conns.Grown h'.conns := by
  cases ho with
  | changes hc => exact hc.grown hn
  | logon hf hl => exact Connections.grown_modify hf (Connection.grows_of_logon hl)
  | retire hf => exact Connections.grown_modify hf (Connection.follows_retire _).grows
  | _ => exact .refl _

/-- No operation but the first of an ending makes a connection unreachable. -/
theorem Op.isLive (ho : h.Op route h') (hl : h.conns.isLive cid = true) :
    h'.conns.isLive cid = true := by
  cases ho with
  | changes hc => exact hc.isLive hl
  | _ => exact hl

private theorem Op.mirrored (hm : h.rooms.Mirrored) (ho : h.Op route h') : h'.rooms.Mirrored := by
  cases ho with
  | changes hc => exact hc.mirrored hm
  | rebind sid cid => exact hm.rebind sid cid
  | join rid gid sid cid => exact hm.join rid gid sid cid
  | removeSession sid farewells => exact hm.removeSession sid
  | _ => exact hm

/-- A route was there before, or the operation made it. -/
theorem Op.lookup (ho : h.Op route h') (hl : h'.router.lookup sid = some cid) :
    h.router.lookup sid = some cid ∨ route = some (sid, cid) := by
  cases ho with
  | changes hc =>
    rw [hc.router] at hl
    exact .inl hl
  | bind s k =>
    rw [Router.lookup_bind] at hl
    split at hl
    · next he =>
      cases hl
      exact .inr (by rw [he])
    · exact .inl hl
  | unbind s k =>
    rw [Router.lookup_unbind] at hl
    split at hl
    · cases hl
    · exact .inl hl
  | _ => exact .inl hl

end Hub

/-! ### Releases -/

namespace Release

/-- What a release relies on: its connection is closed, and the session that was read is its own. -/
def Founded (h : Hub) : Release → Prop
  | inspect cid => h.Shut cid
  | unbind cid sid _ => h.ShutWith cid sid
  | clear .. => True

variable {h h' : Hub} {r : Release} {o : Option Release}

private theorem op_of_step (hs : r.step h = (h', o)) : h.Op none h' := by
  cases r with
  | inspect cid =>
    simp only [step] at hs
    split at hs <;> cases hs <;> exact .changes .refl
  | unbind cid sid status =>
    rw [step_unbind] at hs
    split at hs <;> cases hs
    · exact .unbind sid cid
    · exact .changes .refl
  | clear cid sid status =>
    simp only [step] at hs
    cases hs
    split
    · exact .removeSession sid h.farewells
    · exact .removeSession sid _

private theorem Founded.grow (hr : r.Founded h) (hg : h.conns.Grown h'.conns) : r.Founded h' := by
  cases r with
  | inspect cid => exact Hub.Shut.grow hr hg
  | unbind cid sid status => exact Hub.ShutWith.grow hr hg
  | clear cid sid status => trivial

private theorem Founded.step {r' : Release} (hr : r.Founded h) (hs : r.step h = (h', some r')) :
    r'.Founded h' ∧ r'.cid = r.cid := by
  cases r with
  | inspect cid =>
    obtain ⟨c, hf, hcl⟩ := hr
    simp only [Release.step, hf, Prod.mk.injEq] at hs
    obtain ⟨rfl, hs⟩ := hs
    split at hs <;> cases hs
    exact ⟨⟨c, hf, hcl, rfl⟩, rfl⟩
  | unbind cid sid status =>
    rw [step_unbind] at hs
    split at hs <;> cases hs
    exact ⟨trivial, rfl⟩
  | clear cid sid status => cases hs

end Release

/-! ### Endings -/

namespace Closing

/-- What an ending relies on. -/
def Founded (h : Hub) : Closing → Prop
  | deregister cid => h.Shut cid
  | release cid r => r.Founded h ∧ r.cid = cid
  | retire _ => True

variable {h h' : Hub} {e : Closing} {o : Option Closing}

/-- An operation of an ending is one of those above or makes the connection unreachable. -/
theorem op_of_step (hs : e.step h = (h', o)) :
    h.Op none h' ∨
      ∃ cid, e = .deregister cid ∧ h' = { h with conns := h.conns.deregister cid } ∧
        o = some (.release cid (.inspect cid)) := by
  cases e with
  | deregister cid =>
    cases hs
    exact .inr ⟨cid, rfl, rfl, rfl⟩
  | release cid r =>
    simp only [step] at hs
    split at hs <;> cases hs
    · next hr => exact .inl (Release.op_of_step hr)
    · next hr => exact .inl (Release.op_of_step hr)
  | retire cid =>
    cases hs
    cases hf : h.conns.find? cid with
    | none =>
      rw [Hub.modifyConn, Connections.modify_of_find?_eq_none hf]
      exact .inl (.changes .refl)
    | some c =>
      rw [Hub.modifyConn, Connections.modify_of_find?_eq_some hf]
      exact .inl (.retire hf)

private theorem Founded.grow (he : e.Founded h) (hg : h.conns.Grown h'.conns) : e.Founded h' := by
  cases e with
  | deregister cid => exact Hub.Shut.grow he hg
  | release cid r => exact ⟨he.1.grow hg, he.2⟩
  | retire cid => trivial

private theorem Founded.step {e' : Closing} (he : e.Founded h) (hs : e.step h = (h', some e')) :
    e'.Founded h' ∧ e'.cid = e.cid := by
  cases e with
  | deregister cid =>
    cases hs
    exact ⟨⟨he, rfl⟩, rfl⟩
  | release cid r =>
    simp only [Closing.step] at hs
    split at hs <;> cases hs
    · next hr =>
      obtain ⟨hf, hcid⟩ := he.1.step hr
      exact ⟨⟨hf, hcid.trans he.2⟩, rfl⟩
    · exact ⟨trivial, rfl⟩
  | retire cid => cases hs

end Closing

/-! ### Handlings -/

namespace Downlink

/-- What a handling relies on. -/
def Founded (h : Hub) : Downlink → Prop
  | bind m cid => h.Bears cid m.sid
  | release r => r.Founded h
  | _ => True

/-- The route that the next operation of a handling makes. -/
def route? : Downlink → Option (UInt64 × UInt64)
  | bind m cid => some (m.sid, cid)
  | _ => none

variable {h h' : Hub} {d d' : Downlink} {o : Outcome}

/-- Only the operation that binds a session makes a route. -/
theorem route?_eq_some_iff {sid cid : UInt64} :
    d.route? = some (sid, cid) ↔ ∃ m, d = .bind m cid ∧ m.sid = sid := by
  cases d <;> simp [route?, and_comm]

/-- Every step of a handling is one of the operations above. -/
theorem op_of_step (hn : h.conns.Numbered) (hs : d.step h = some (h', o)) :
    h.Op d.route? h' := by
  cases d with
  | logon m cid uid =>
    simp only [step] at hs
    split at hs <;> cases hs
    · next d hl =>
      obtain ⟨c, hf, hl⟩ := Option.bind_eq_some_iff.1 hl
      have hcid : d.cid = cid :=
        (Connection.grows_of_logon hl).cid.trans (hn.cid_eq cid c hf)
      rw [Connections.store, hcid]
      exact .logon hf hl
    · exact .changes .refl
  | bind m cid =>
    cases hs
    exact .bind m.sid cid
  | rebind m cid displaced =>
    simp only [step] at hs
    split at hs <;> cases hs <;> exact .rebind m.sid cid
  | enter m rid gid cid =>
    cases hs
    exact .join rid gid m.sid cid
  | release r =>
    simp only [step] at hs
    split at hs <;> cases hs
    · next hr => exact Release.op_of_step hr
    · next hr => exact Release.op_of_step hr
  | _ => exact .changes (changes_of_step hs trivial hn)

private theorem Founded.grow (hd : d.Founded h) (hg : h.conns.Grown h'.conns) : d.Founded h' := by
  cases d with
  | bind m cid => exact Hub.Bears.grow hd hg
  | release r => exact Release.Founded.grow hd hg
  | _ => trivial

private theorem Founded.step (hd : d.Founded h) (hn : h.conns.Numbered)
    (hs : d.step h = some (h', .next d')) : d'.Founded h' := by
  cases d with
  | received kind body =>
    obtain ⟨-, ⟨e, he⟩ | ⟨m, d, -, -, he, hb⟩⟩ := begins_of_received hs
    · cases he
    · cases he
      cases hb <;> trivial
  | judge m ack =>
    simp only [Downlink.step] at hs
    split at hs <;> cases hs
    split <;> trivial
  | logon m cid uid =>
    simp only [Downlink.step] at hs
    split at hs <;> cases hs
    next c hl =>
    obtain ⟨k, hf, hl⟩ := Option.bind_eq_some_iff.1 hl
    exact Hub.bears_of_logon hn hf hl
  | verify m cid =>
    simp only [Downlink.step] at hs
    split at hs <;> cases hs
    next c hf =>
    split
    · next hcl => exact ⟨c, hf, hcl⟩
    · trivial
  | release r =>
    simp only [Downlink.step] at hs
    split at hs <;> cases hs
    next hr => exact (Release.Founded.step hd hr).1
  | fanOut m members =>
    cases members with
    | nil => cases hs
    | cons x members =>
      simp only [Downlink.step] at hs
      split at hs <;> cases hs <;> trivial
  | _ =>
    simp only [Downlink.step, behindNotice] at hs
    repeat' split at hs
    all_goals cases hs
    all_goals trivial

end Downlink

/-! ### Everybody at work -/

namespace Crew

/-- Everything that a task relies on is the case. -/
structure Sound (c : Crew) : Prop where
  numbered : c.hub.conns.Numbered
  mirrored : c.hub.rooms.Mirrored
  owner : ∀ sid cid, c.hub.router.lookup sid = some cid → c.hub.Bears cid sid
  calls : ∀ d ∈ c.calls, d.Founded c.hub
  endings : ∀ e ∈ c.endings, e.Founded c.hub

/-- Where nobody is at work yet, coherent tables are all that is relied on. -/
theorem sound_of_coherent {h : Hub} (hc : h.Coherent) : Sound { hub := h } := by
  refine ⟨hc.numbered, hc.mirrored, ?_, nofun, nofun⟩
  intro sid cid hl
  obtain ⟨-, c, hf, hs, hm⟩ := hc.owner sid cid hl
  exact ⟨c, hf, hs, hm.not_early⟩

/-- What other tasks do takes away nothing that a task relies on. -/
theorem Sound.change {c : Crew} {h : Hub} (hc : c.Sound) (hch : c.hub.Change h) :
    Sound { c with hub := h } := by
  have hg : c.hub.conns.Grown h.conns := (hch.evolves hc.numbered).grown fun _ _ hk ↦ hk.grows
  refine ⟨hch.numbered hc.numbered, hch.mirrored hc.mirrored, ?_, ?_, ?_⟩
  · intro sid cid hl
    rw [show h.router = c.hub.router from hch.router] at hl
    exact (hc.owner sid cid hl).grow hg
  · intro d hd
    exact (hc.calls d hd).grow hg
  · intro e he
    exact (hc.endings e he).grow hg

/-- A step of a handling takes away nothing that another task relies on, and provides for what
follows. -/
theorem Sound.call {h h' : Hub} {d : Downlink} {o : Downlink.Outcome}
    {a b : List Downlink} {es : List Closing} (hc : Sound ⟨h, a ++ d :: b, es⟩)
    (hs : d.step h = some (h', o)) : Sound ⟨h', a ++ o.calls ++ b, es⟩ := by
  have hd : d ∈ a ++ d :: b := List.mem_append_right _ List.mem_cons_self
  have hop := Downlink.op_of_step hc.numbered hs
  have hg := hop.grown hc.numbered
  refine ⟨hop.numbered hc.numbered, hop.mirrored hc.mirrored, ?_, ?_, ?_⟩
  · intro sid cid hl
    rcases hop.lookup hl with hl | hr
    · exact (hc.owner sid cid hl).grow hg
    · obtain ⟨m, rfl, rfl⟩ := Downlink.route?_eq_some_iff.1 hr
      exact Hub.Bears.grow (hc.calls _ hd) hg
  · intro x hx
    rcases mem_of_mem_replaced (x := d) hx with hx | hx
    · exact (hc.calls x hx).grow hg
    · rw [Downlink.Outcome.mem_calls] at hx
      subst hx
      exact (hc.calls d hd).step hc.numbered hs
  · intro e he
    exact (hc.endings e he).grow hg

/-- So does a step of an ending. -/
theorem Sound.ending {h h' : Hub} {e : Closing} {o : Option Closing}
    {ds : List Downlink} {a b : List Closing} (hc : Sound ⟨h, ds, a ++ e :: b⟩)
    (hs : e.step h = (h', o)) : Sound ⟨h', ds, a ++ o.toList ++ b⟩ := by
  have he : e ∈ a ++ e :: b := List.mem_append_right _ List.mem_cons_self
  have hk : h'.conns.Numbered ∧ h.conns.Grown h'.conns ∧ h'.rooms.Mirrored ∧
      ∀ sid cid, h'.router.lookup sid = some cid → h.router.lookup sid = some cid := by
    rcases Closing.op_of_step hs with hop | ⟨cid, rfl, rfl, -⟩
    · refine ⟨hop.numbered hc.numbered, hop.grown hc.numbered, hop.mirrored hc.mirrored, ?_⟩
      intro sid cid hl
      exact (hop.lookup hl).resolve_right nofun
    · obtain ⟨c, hf, hcl⟩ := hc.endings _ he
      exact ⟨hc.numbered.deregister hf hcl, .refl _, hc.mirrored, fun _ _ hl ↦ hl⟩
  obtain ⟨hn, hg, hm, hsub⟩ := hk
  refine ⟨hn, hm, ?_, ?_, ?_⟩
  · intro sid cid hl
    exact (hc.owner sid cid (hsub sid cid hl)).grow hg
  · intro d hd
    exact (hc.calls d hd).grow hg
  · intro x hx
    rcases mem_of_mem_replaced (x := e) hx with hx | hx
    · exact (hc.endings x hx).grow hg
    · rw [Option.mem_toList] at hx
      cases hx
      exact ((hc.endings e he).step hs).1

variable {feed : DownlinkKind → Bytes → Prop}

/-- No act takes away what a task relies on. -/
theorem Sound.act {c c' : Crew} {e : Option Event} (hc : c.Sound) (ha : Act feed c e c') :
    c'.Sound := by
  cases ha with
  | change hch => exact hc.change hch
  | receive hn =>
    refine ⟨hc.numbered, hc.mirrored, hc.owner, ?_, hc.endings⟩
    intro d hd
    rcases List.mem_cons.1 hd with rfl | hd
    · trivial
    · exact hc.calls d hd
  | call hs => exact hc.call hs
  | depart hf hcl hl hno =>
    refine ⟨hc.numbered, hc.mirrored, hc.owner, hc.calls, ?_⟩
    intro e he
    rcases List.mem_cons.1 he with rfl | he
    · exact ⟨_, hf, hcl⟩
    · exact hc.endings e he
  | ending hs => exact hc.ending hs

/-- Wherever a run from coherent tables leads, everything that a task relies on is the case. -/
theorem Run.sound {h : Hub} {tr : List Event} {c : Crew} (hr : Run feed { hub := h } tr c)
    (hc : h.Coherent) : c.Sound :=
  hr.invariant (P := fun _ c ↦ c.Sound) (sound_of_coherent hc) fun _ _ _ _ hs ha ↦ hs.act ha

/-- What holds of coherent tables and is kept by every act on what tasks rely on holds wherever a
run leads. -/
theorem Run.kept {P : List Event → Crew → Prop} {h : Hub} {tr : List Event} {c : Crew}
    (hr : Run feed { hub := h } tr c) (hc : h.Coherent) (initially : P [] { hub := h })
    (kept : ∀ {tr c e c'}, c.Sound → P tr c → Act feed c e c' → P (tr ++ e.toList) c') :
    P tr c := by
  have hk : c.Sound ∧ P tr c := by
    refine hr.invariant (P := fun tr c ↦ c.Sound ∧ P tr c)
      ⟨sound_of_coherent hc, initially⟩ ?_
    rintro tr c e c' ⟨hs, hp⟩ ha
    exact ⟨hs.act ha, kept hs hp ha⟩
  exact hk.2

end Crew

end EdgeGateway
