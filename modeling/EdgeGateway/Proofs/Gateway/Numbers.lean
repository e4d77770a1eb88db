import EdgeGateway.Proofs.Connection.Census
import EdgeGateway.Proofs.Gateway.Noticing
import EdgeGateway.Proofs.Gateway.Trail
import EdgeGateway.Proofs.Journal

/-!
# Numbers of connections

A connection is registered under a number when its client is let in, and deregistered when it is let
go; nothing else that goes on in a gateway registers or deregisters any, and no number comes into a
table that has not been given to a connection. `Hub.Books` says so of the tables and is kept by
every operation. By `numbers_fresh` there are never more connections than there may be, and a number
stands for one connection for good, whoever still holds it.
-/

namespace EdgeGateway

/-! ### What is in the books -/

namespace Hub

/-- A number is somewhere in the tables as that of a connection: a session is routed to it, the
record of a session in the rooms names it, or it has been given notice. -/
inductive Names (h : Hub) (cid : UInt64) : Prop
  | route {sid : UInt64} : h.router.lookup sid = some cid → Names h cid
  | record {sid : UInt64} : h.rooms.carrier? sid = some cid → Names h cid
  | notice {e : Eviction} : h.sweeper.Holds e → e.cid = cid → Names h cid

/-- Given numbers are registered, a given one is next, and every number in the tables is one of `K`.
-/
structure Books (K : UInt64 → Prop) (live : ShardedTable UInt64) (next : UInt64)
    (h : Hub) : Prop where
  live : h.conns.live = live
  next : h.conns.next = next
  mirrored : h.rooms.Mirrored
  known : ∀ cid, (h.conns.find? cid).isSome → K cid
  routed : ∀ sid cid, h.router.lookup sid = some cid → K cid
  carried : ∀ sid cid, h.rooms.carrier? sid = some cid → K cid
  noticed : ∀ e, h.sweeper.Holds e → K e.cid

variable {K : UInt64 → Prop} {live : ShardedTable UInt64} {next : UInt64} {h h' : Hub}
  {cid sid : UInt64}

/-- A number that the tables name is in the books. -/
theorem Books.named (hb : h.Books K live next) (hn : h.Names cid) : K cid := by
  cases hn with
  | route hl => exact hb.routed _ _ hl
  | record hc => exact hb.carried _ _ hc
  | notice he hcid => exact hcid ▸ hb.noticed _ he

private theorem books_empty (nid : UInt32) (shards evictionCapacity evictionDelay : Nat) :
    (empty nid shards evictionCapacity evictionDelay).Books (fun _ ↦ False)
      (.empty shards) 1 where
  live := rfl
  next := rfl
  mirrored := Rooms.mirrored_empty
  known := by
    intro cid h
    cases h
  routed := by
    intro sid cid hl
    rw [empty, Router.lookup_empty] at hl
    cases hl
  carried := by
    intro sid cid hc
    cases hc
  noticed := by
    intro e he
    rw [Sweeper.holds_iff] at he
    rcases he with he | he <;> cases he

namespace Books

private theorem mono {L : UInt64 → Prop} (hb : h.Books K live next)
    (hKL : ∀ cid, K cid → L cid) : h.Books L live next :=
  { hb with
    known := fun cid hf ↦ hKL cid (hb.known cid hf)
    routed := fun sid cid hl ↦ hKL cid (hb.routed sid cid hl)
    carried := fun sid cid hc ↦ hKL cid (hb.carried sid cid hc)
    noticed := fun e he ↦ hKL e.cid (hb.noticed e he) }

private theorem conns {t : Connections} (hb : h.Books K live next) (hlive : t.live = h.conns.live)
    (hnext : t.next = h.conns.next) (hf : ∀ k, (t.find? k).isSome → (h.conns.find? k).isSome) :
    Hub.Books K live next { h with conns := t } :=
  { hb with
    live := hlive.trans hb.live
    next := hnext.trans hb.next
    known := fun cid hk ↦ hb.known cid (hf cid hk) }

private theorem modify (hb : h.Books K live next) (k : UInt64) (f : Connection → Connection) :
    (h.modifyConn k f).Books K live next := by
  refine hb.conns rfl rfl fun cid hk ↦ ?_
  rw [Connections.find?_modify] at hk
  split at hk
  · next he => simpa [he] using hk
  · exact hk

private theorem close (hb : h.Books K live next) (k : UInt64) :
    Hub.Books K live next { h with conns := (h.conns.close k).2 } := by
  rw [Connections.close]
  split
  · exact hb.modify k .close
  · exact hb

private theorem closeAll (hb : h.Books K live next) :
    Hub.Books K live next { h with conns := h.conns.closeAll.2 } :=
  Connections.closeAll_induction (P := fun t ↦ Hub.Books K live next { h with conns := t }) hb
    fun t k hu ↦ hu.modify (h := { h with conns := t }) k .close

private theorem bind (hb : h.Books K live next) (sid : UInt64) (hk : K cid) :
    Hub.Books K live next { h with router := (h.router.bind sid cid).2 } :=
  { hb with
    routed := by
      intro s k hl
      rw [show (h.router.bind sid cid).2.lookup s = _ from Router.lookup_bind ..] at hl
      split at hl
      · cases hl
        exact hk
      · exact hb.routed s k hl }

private theorem unbind (hb : h.Books K live next) (sid cid : UInt64) :
    Hub.Books K live next { h with router := (h.router.unbind sid cid).2 } :=
  { hb with
    routed := by
      intro s k hl
      rw [show (h.router.unbind sid cid).2.lookup s = _ from Router.lookup_unbind ..] at hl
      split at hl
      · cases hl
      · exact hb.routed s k hl }

private theorem rebind (hb : h.Books K live next) (sid : UInt64) (hk : K cid) :
    Hub.Books K live next { h with rooms := (h.rooms.rebind sid cid).2 } :=
  { hb with
    mirrored := hb.mirrored.rebind sid cid
    carried := by
      intro s k hc
      rw [show Rooms.carrier? (h.rooms.rebind sid cid).2 s = _ from Rooms.carrier?_rebind ..] at hc
      split at hc
      · obtain ⟨_, -, rfl⟩ := Option.map_eq_some_iff.1 hc
        exact hk
      · exact hb.carried s k hc }

private theorem join (hb : h.Books K live next) (rid : UInt64) (gid : UInt32) (sid : UInt64)
    (hk : K cid) : Hub.Books K live next { h with rooms := h.rooms.join rid gid sid cid } :=
  { hb with
    mirrored := hb.mirrored.join rid gid sid cid
    carried := by
      intro s k hc
      rw [show Rooms.carrier? (h.rooms.join rid gid sid cid) s =
        _ from Rooms.carrier?_join ..] at hc
      split at hc
      · cases hc
        exact hk
      · exact hb.carried s k hc }

private theorem quit (hb : h.Books K live next) (rid sid : UInt64) :
    Hub.Books K live next { h with rooms := (h.rooms.quit rid sid).2 } :=
  { hb with
    mirrored := hb.mirrored.quit rid sid
    carried := fun s k hc ↦ hb.carried s k (Rooms.carrier?_of_quit hb.mirrored hc) }

private theorem removeSession (hb : h.Books K live next) (sid : UInt64) (farewells : List Message) :
    Hub.Books K live next { h with rooms := (h.rooms.removeSession sid).2, farewells } :=
  { hb with
    mirrored := hb.mirrored.removeSession sid
    carried := by
      intro s k hc
      rw [show Rooms.carrier? (h.rooms.removeSession sid).2 s = _ from
        Rooms.carrier?_removeSession hb.mirrored ..] at hc
      split at hc
      · cases hc
      · exact hb.carried s k hc }

private theorem sweeper {s : Sweeper} (hb : h.Books K live next)
    (hs : ∀ e, s.Holds e → h.sweeper.Holds e) : Hub.Books K live next { h with sweeper := s } :=
  { hb with noticed := fun e he ↦ hb.noticed e (hs e he) }

private theorem evict (hb : h.Books K live next) (hk : K cid) : (h.evict cid).2.Books K live next :=
  { hb with
    noticed := by
      intro e he
      rw [Sweeper.holds_iff] at he
      rcases he with he | he
      · rcases (Channel.mem_contents_send_iff ..).1 he with he | rfl
        · exact hb.noticed e (Sweeper.holds_iff.2 (.inl he))
        · exact hk
      · exact hb.noticed e (Sweeper.holds_iff.2 (.inr he)) }

private theorem connect (hb : h.Books K live next) (capacity : Nat) :
    Hub.Books (fun cid ↦ K cid ∨ cid = next) (live.insert next next) (next + 1)
      { h with conns := (h.conns.create capacity).2.register h.conns.next } :=
  { hb.mono fun _ ↦ .inl with
    live := by
      show h.conns.live.insert h.conns.next h.conns.next = _
      rw [hb.live, hb.next]
    next := by
      show h.conns.next + 1 = _
      rw [hb.next]
    known := by
      intro cid hf
      rw [show ((h.conns.create capacity).2.register h.conns.next).find? cid = _ from
        Connections.find?_create ..] at hf
      split at hf
      · next he => exact .inr (he.trans hb.next)
      · exact .inl (hb.known cid hf) }

private theorem deregister (hb : h.Books K live next) (cid : UInt64) :
    Hub.Books K (live.erase cid) next { h with conns := h.conns.deregister cid } :=
  { hb with live := congrArg (·.erase cid) hb.live }

private theorem released (hb : h.Books K live next) (cid : UInt64) :
    (h.released cid).Books K live next := by
  rw [Hub.released]
  split
  · exact hb
  · split
    · exact (hb.unbind _ cid).removeSession _ _
    · exact hb

end Books

end Hub

private theorem Sweeper.holds_of_take {s s' : Sweeper} (h : s.take? = some s') {e : Eviction}
    (he : s'.Holds e) : s.Holds e := by
  obtain ⟨-, h⟩ := Option.ite_none_right_eq_some.1 h
  obtain ⟨⟨a, q⟩, hr, rfl⟩ := Option.map_eq_some_iff.1 h
  rw [holds_iff] at he ⊢
  rw [Channel.contents_of_receive hr, List.mem_cons]
  rcases he with he | he
  · exact .inl (.inr he)
  · rcases List.mem_append.1 he with he | he
    · exact .inr he
    · exact .inl (.inl (List.mem_singleton.1 he))

private theorem Sweeper.holds_of_finish {s s' : Sweeper} (h : s.finish? = some s') {e : Eviction}
    (he : s'.Holds e) : s.Holds e := by
  obtain ⟨-, h⟩ := Option.ite_none_right_eq_some.1 h
  cases h
  rw [holds_iff] at he ⊢
  rcases he with he | he
  · exact .inl (List.mem_append_right _ he)
  · cases he

private theorem Sweeper.holds_of_start {s : Sweeper} {e : Eviction} (he : s.start.Holds e) :
    s.Holds e := by
  rw [start] at he
  split at he <;> exact he

private theorem Sweeper.holds_of_signal {s : Sweeper} {e : Eviction} (he : s.signal.Holds e) :
    s.Holds e := by
  rw [signal] at he
  split at he <;> exact he

/-! ### What tasks do to the books -/

variable {K : UInt64 → Prop} {live : ShardedTable UInt64} {next : UInt64}

namespace Downlink

/-- Whatever a handling is about to have routed or recorded or to give notice to is one of `K`. -/
def Within (K : UInt64 → Prop) : Downlink → Prop
  | refuse _ cid | logon _ cid _ | bind _ cid | reachKicked _ cid | expel _ cid | evict cid _
  | enter _ _ _ cid => K cid
  | rebind _ cid displaced => K cid ∧ ∀ old ∈ displaced, K old
  | displace _ _ old => K old
  | _ => True

variable {h h' : Hub} {d : Downlink} {o : Outcome}

private theorem within_true (d : Downlink) : d.Within fun _ ↦ True := by
  cases d <;> simp [Within]

private theorem within_of_waits (hd : d.Waits) : d.Within K := by
  obtain ⟨ticket, after, rfl⟩ := hd
  trivial

private theorem books_release {r : Release} {o : Option Release} (hb : h.Books K live next)
    (hs : r.step h = (h', o)) : h'.Books K live next := by
  cases r with
  | inspect cid =>
    simp only [Release.step] at hs
    split at hs <;> cases hs <;> exact hb
  | unbind cid sid status =>
    rw [Release.step_unbind] at hs
    split at hs <;> cases hs
    · exact hb.unbind sid cid
    · exact hb
  | clear cid sid status =>
    simp only [Release.step] at hs
    cases hs
    split
    · exact hb.removeSession sid h.farewells
    · exact hb.removeSession sid _

/-- A step keeps the books, and leads on to where they will be kept. -/
theorem books_step (hd : d.Within K) (hb : h.Books K live next) (hs : d.step h = some (h', o)) :
    h'.Books K live next ∧ ∀ d' ∈ o.calls, d'.Within K := by
  cases d with
  | received kind body =>
    obtain ⟨rfl, ⟨e, rfl⟩ | ⟨m, d, -, -, rfl, hbegins⟩⟩ := begins_of_received hs
    · exact ⟨hb, List.forall_mem_nil _⟩
    · refine ⟨hb, List.forall_mem_singleton.2 ?_⟩
      cases hbegins <;> trivial
  | judge m ack =>
    simp only [step] at hs
    split at hs <;> cases hs
    · exact ⟨hb, List.forall_mem_nil _⟩
    · next c hc =>
      have hk : K ack.cid := hb.known _ (by rw [(Connections.get?_eq_some_iff.1 hc).2]; rfl)
      refine ⟨hb, List.forall_mem_singleton.2 ?_⟩
      split <;> exact hk
  | refuse m cid =>
    cases hs
    exact ⟨hb.modify cid fun c ↦ c.post m, List.forall_mem_singleton.2 hd⟩
  | logon m cid uid =>
    simp only [step] at hs
    split at hs <;> cases hs
    · exact ⟨hb.modify _ _, List.forall_mem_singleton.2 hd⟩
    · exact ⟨hb, List.forall_mem_nil _⟩
  | bind m cid =>
    cases hs
    refine ⟨hb.bind m.sid hd, List.forall_mem_singleton.2 ⟨hd, ?_⟩⟩
    exact fun old ho ↦ hb.routed m.sid old (Option.mem_filter_iff.1 ho).1
  | rebind m cid displaced =>
    have hk := hb.rebind m.sid hd.1
    simp only [step] at hs
    split at hs <;> cases hs
    · exact ⟨hk, List.forall_mem_singleton.2 (hd.2 _ rfl)⟩
    · exact ⟨hk, List.forall_mem_singleton.2 trivial⟩
  | displace m cid old =>
    simp only [step] at hs
    split at hs <;> cases hs
    · exact ⟨(hb.modify old _).modify old _, List.forall_mem_singleton.2 hd⟩
    · exact ⟨hb, List.forall_mem_singleton.2 hd⟩
  | verify m cid =>
    simp only [step] at hs
    split at hs <;> cases hs
    · refine ⟨hb, List.forall_mem_singleton.2 ?_⟩
      split <;> trivial
    · exact ⟨hb, List.forall_mem_nil _⟩
  | release r =>
    simp only [step] at hs
    split at hs <;> cases hs
    · next hr => exact ⟨books_release hb hr, List.forall_mem_singleton.2 trivial⟩
    · next hr => exact ⟨books_release hb hr, List.forall_mem_nil _⟩
  | kick m | join m rid gid =>
    simp only [step] at hs
    split at hs <;> cases hs
    · next hl => exact ⟨hb, List.forall_mem_singleton.2 (hb.routed _ _ hl)⟩
    · exact ⟨hb, List.forall_mem_nil _⟩
  | reachKicked m cid =>
    simp only [step] at hs
    split at hs <;> cases hs
    · exact ⟨hb, List.forall_mem_singleton.2 hd⟩
    · exact ⟨hb, List.forall_mem_nil _⟩
  | expel m cid =>
    cases hs
    exact ⟨(hb.modify cid _).modify cid _, List.forall_mem_singleton.2 hd⟩
  | evict cid after =>
    cases hs
    exact ⟨hb.evict hd, List.forall_mem_singleton.2 trivial⟩
  | enter m rid gid cid =>
    cases hs
    exact ⟨hb.join rid gid m.sid hd, List.forall_mem_singleton.2 trivial⟩
  | leave m rid =>
    cases hs
    exact ⟨hb.quit rid m.sid, List.forall_mem_singleton.2 trivial⟩
  | gather m rid gid =>
    cases hs
    exact ⟨hb, List.forall_mem_singleton.2 trivial⟩
  | fanOut m members =>
    cases members with
    | nil =>
      cases hs
      exact ⟨hb, List.forall_mem_nil _⟩
    | cons x members =>
      simp only [step] at hs
      split at hs <;> cases hs
      · exact ⟨hb.modify x.2 _, List.forall_mem_singleton.2 trivial⟩
      · exact ⟨hb, List.forall_mem_singleton.2 trivial⟩
  | hand m cid =>
    simp only [step] at hs
    repeat' split at hs
    all_goals cases hs
    · exact ⟨hb, List.forall_mem_nil _⟩
    · exact ⟨hb.modify _ _, List.forall_mem_nil _⟩
    · exact ⟨hb, List.forall_mem_nil _⟩
  | waiting ticket after =>
    simp only [step] at hs
    split at hs <;> cases hs
    · cases after with
      | none => exact ⟨hb, List.forall_mem_nil _⟩
      | some x => exact ⟨hb, List.forall_mem_singleton.2 trivial⟩
    · exact ⟨hb, List.forall_mem_nil _⟩
  | deliver m | reach m cid =>
    simp only [step] at hs
    split at hs <;> cases hs
    · exact ⟨hb, List.forall_mem_singleton.2 trivial⟩
    · exact ⟨hb, List.forall_mem_nil _⟩

/-- So does a whole handling. -/
theorem books_run (hd : d.Within K) (hb : h.Books K live next) : (d.run h).1.Books K live next :=
  run_induction (P := fun h d ↦ d.Within K ∧ h.Books K live next)
    (Q := (Hub.Books K live next ·))
    (fun hp _ ↦ hp.2)
    (fun hp hs ↦
      ⟨(books_step hp.1 hp.2 hs).2 _ (List.mem_singleton_self _), (books_step hp.1 hp.2 hs).1⟩)
    (fun hp hs ↦ (books_step hp.1 hp.2 hs).1) ⟨hd, hb⟩

end Downlink

private theorem Uplink.books_handle {h : Hub} (hb : h.Books K live next) (c : Connection)
    (m : Message) : (Uplink.handle h c m).1.Books K live next := by
  have reject : ∀ sid reason, (Uplink.reject h c sid reason).1.Books K live next := by
    intro sid reason
    rw [Uplink.reject]
    split
    · exact hb.modify _ _
    · exact hb
  simp only [handle, online, offline, transit, quitRoom]
  repeat' split
  all_goals first | exact hb | exact reject _ _ | exact hb.modify _ _ | exact hb.quit _ _

namespace Gateway

variable {g g' b : Gateway} {m : Move} {s : Settings} {t u v : List (Gateway × Move)}
  {cid : UInt64}

-- The settings of a gateway are these, and its books are kept.
private structure Kept (s : Settings) (K : UInt64 → Prop) (live : ShardedTable UInt64)
    (next : UInt64) (g : Gateway) : Prop where
  settings : g.settings = s
  books : g.hub.Books K live next

private theorem Kept.afterForward (hg : g.Kept s K live next) (hk : K cid) (after : AfterForward) :
    (g.afterForward cid after).Kept s K live next := by
  cases after with
  | proceed => exact ⟨hg.settings, hg.books⟩
  | logOut => exact ⟨hg.settings, (hg.books.modify cid _).evict hk⟩

private theorem Kept.onMessage (hg : g.Kept s K live next) (hk : K cid) (c : Connection)
    (m : Message) : (g.onMessage cid c m).Kept s K live next := by
  have hu := Uplink.books_handle hg.books c m
  simp only [Gateway.onMessage]
  split
  · next hx => exact ⟨hg.settings, by rwa [hx] at hu⟩
  · next hx => exact ⟨hg.settings, by rwa [hx] at hu⟩
  · next hx => exact ⟨hg.settings, by rwa [hx] at hu⟩
  · next hub m' after hx =>
    rw [hx] at hu
    simp only [Gateway.forward]
    split
    · exact Kept.afterForward (g := { g with hub, pool := (g.pool.send _).2 })
        ⟨hg.settings, hu⟩ hk after
    · exact ⟨hg.settings, hu⟩

private theorem Kept.known (hg : g.Kept s K live next) {x : Socket} {c : Connection}
    (h : g.socket? cid = some (x, c)) : K cid :=
  hg.books.known cid (by rw [(socket?_eq_some_iff.1 h).2.1]; rfl)

private theorem Kept.hear (hg : g.Kept s K live next) (h : g.hear cid = some g') :
    g'.Kept s K live next := by
  obtain ⟨x, c, e, inbox, g₁, hs, -, -, rfl, ⟨-, rfl | rfl⟩ | ⟨m, -, -, rfl⟩⟩ :=
    hear_eq h
  · exact ⟨hg.settings, hg.books⟩
  · exact ⟨hg.settings, hg.books⟩
  · exact Kept.onMessage (g := g.modifySocket cid _) ⟨hg.settings, hg.books⟩ (hg.known hs) c m

private theorem Kept.resumeListener (hg : g.Kept s K live next)
    (h : g.resumeListener cid = some g') : g'.Kept s K live next := by
  obtain ⟨⟨x, c⟩, hs, h⟩ := Option.bind_eq_some_iff.1 h
  simp only at h
  split at h
  · split at h <;> cases h
    exact hg.afterForward (hg.known hs) _
  · split at h <;> cases h
    exact ⟨hg.settings, hg.books⟩
  · cases h

private theorem Kept.runCall (hg : g.Kept s K live next) (i w : Nat) {d : Downlink}
    (hd : d.Within K) : (g.runCall i w d).Kept s K live next := by
  have hr := Downlink.books_run hd hg.books
  rw [← hub_runCall g i w] at hr
  refine ⟨?_, hr⟩
  rw [Gateway.runCall]
  split <;> exact hg.settings

private theorem Kept.finishSocket (hg : g.Kept s K live next) (h : g.finishSocket cid = some g') :
    g'.Kept s K (live.erase cid) next := by
  obtain ⟨⟨x, c⟩, -, h⟩ := Option.bind_eq_some_iff.1 h
  simp only at h
  split at h <;> cases h
  refine ⟨hg.settings, ?_⟩
  show (Closing.run g.hub cid).Books K (live.erase cid) next
  rw [Closing.run_eq]
  exact ((hg.books.deregister cid).released cid).modify cid _

private theorem Kept.connect (hg : g.Kept s K live next) (h : g.open? = some (cid, g')) :
    cid = next ∧ g.hub.conns.size < s.maxConnections ∧
      g'.Kept s (fun k ↦ K k ∨ k = next) (live.insert next next) (next + 1) := by
  simp only [open?] at h
  split at h
  · cases h
  · next hopen =>
    cases h
    rw [not_or, hg.settings] at hopen
    exact ⟨hg.books.next, Nat.lt_of_not_le hopen.2, hg.settings,
      hg.books.connect g.settings.sendCapacity⟩

-- What is registered after a move other than letting a client in, if `live` is before it.
private def Move.leaves (live : ShardedTable UInt64) : Move → ShardedTable UInt64
  | .finishSocket cid => live.erase cid
  | _ => live

private theorem Kept.move (hg : g.Kept s K live next) (hm : m ≠ .connect)
    (hw : ∀ i w d, g.pool.worker? i w = some (.busy d) → d.Within K) (h : g.move? m = some g') :
    g'.Kept s K (m.leaves live) next := by
  cases m with
  | connect => exact absurd rfl hm
  | start address =>
    cases h
    rw [start]
    split
    · exact ⟨hg.settings, hg.books.sweeper fun e ↦ Sweeper.holds_of_start⟩
    · exact hg
  | wait ms =>
    cases h
    exact ⟨hg.settings, { hg.books with }⟩
  | say cid e | backendSays wire b | backendEnds wire =>
    cases h
    exact ⟨hg.settings, hg.books⟩
  | shutdown =>
    cases h
    rw [shutdown]
    split
    · exact ⟨hg.settings, hg.books.closeAll.sweeper fun e ↦ Sweeper.holds_of_signal⟩
    · exact ⟨hg.settings, hg.books⟩
    · exact hg
  | link m =>
    obtain ⟨pool, -, rfl⟩ := Option.map_eq_some_iff.1 h
    exact ⟨hg.settings, hg.books⟩
  | fetchCall i w =>
    obtain ⟨⟨f, pool⟩, -, h⟩ := Option.bind_eq_some_iff.1 h
    simp only at h
    split at h <;> cases h
    · exact ⟨hg.settings, hg.books⟩
    · exact Kept.runCall (g := { g with pool }) ⟨hg.settings, hg.books⟩ i w trivial
  | resumeCall i w =>
    obtain ⟨x, hx, h⟩ := Option.bind_eq_some_iff.1 h
    split at h
    · split at h <;> cases h
      exact hg.runCall i w (hw i w _ hx)
    · cases h
  | hear cid => exact hg.hear h
  | resumeListener cid => exact hg.resumeListener h
  | takeMessage cid =>
    obtain ⟨⟨x, c⟩, -, h⟩ := Option.bind_eq_some_iff.1 h
    simp only at h
    split at h
    · cases h
    · obtain ⟨⟨w, d⟩, -, h⟩ := Option.bind_eq_some_iff.1 h
      cases h
      exact ⟨hg.settings, hg.books.modify _ _⟩
  | heed cid | ping cid | sayFarewell cid =>
    obtain ⟨⟨x, c⟩, -, h⟩ := Option.bind_eq_some_iff.1 h
    simp only at h
    split at h <;> cases h
    exact ⟨hg.settings, hg.books⟩
  | written cid | failWrite cid | giveUp cid =>
    obtain ⟨⟨x, c⟩, -, h⟩ := Option.bind_eq_some_iff.1 h
    simp only at h
    repeat' split at h
    all_goals cases h
    all_goals
      first | exact ⟨hg.settings, hg.books⟩ | exact ⟨hg.settings, hg.books.modify cid _⟩
  | closeSocket cid =>
    obtain ⟨⟨x, c⟩, -, h⟩ := Option.bind_eq_some_iff.1 h
    simp only at h
    split at h <;> cases h
    exact ⟨hg.settings, hg.books.modify cid _⟩
  | finishSocket cid => exact hg.finishSocket h
  | sendFarewell k =>
    obtain ⟨w, -, h⟩ := Option.bind_eq_some_iff.1 h
    cases h
    exact ⟨hg.settings, { hg.books with }⟩
  | sweepTake =>
    obtain ⟨sweeper, hs, rfl⟩ := Option.map_eq_some_iff.1 h
    exact ⟨hg.settings, hg.books.sweeper fun e ↦ Sweeper.holds_of_take hs⟩
  | sweepExpire =>
    obtain ⟨⟨sweeper, conns⟩, hs, rfl⟩ := Option.map_eq_some_iff.1 h
    obtain ⟨e, -, hs⟩ := Option.map_eq_some_iff.1 hs
    cases hs
    refine ⟨hg.settings, (hg.books.close e.cid).sweeper fun e' he ↦ ?_⟩
    rw [Sweeper.holds_iff] at he ⊢
    exact he.imp_right List.mem_of_mem_erase
  | sweepFinish =>
    obtain ⟨sweeper, hs, rfl⟩ := Option.map_eq_some_iff.1 h
    exact ⟨hg.settings, hg.books.sweeper fun e ↦ Sweeper.holds_of_finish hs⟩
  | report | resumeReporter | stopReporter =>
    simp only [move?, report, resumeReporter, stopReporter] at h
    repeat' split at h
    all_goals cases h
    all_goals exact ⟨hg.settings, hg.books⟩
  | drain | complete =>
    simp only [move?, drain, complete] at h
    split at h <;> cases h
    exact ⟨hg.settings, hg.books⟩

/-! ### Which numbers have been given -/

/-- The number that a client is given that is let in. -/
def opened? (g : Gateway) : Move → Option UInt64
  | .connect => g.open?.map (·.1)
  | _ => none

/-- The numbers that have been given, in the order in which they were. -/
def opened (t : List (Gateway × Move)) : List UInt64 := t.filterMap fun p ↦ p.1.opened? p.2

/-- The numbers given in two parts of a run are those given in the first and then those given in the
second. -/
theorem opened_append (t u : List (Gateway × Move)) : opened (t ++ u) = opened t ++ opened u :=
  List.filterMap_append

private theorem opened_concat_of_ne (t : List (Gateway × Move)) (b : Gateway)
    (hm : m ≠ .connect) : opened (t ++ [(b, m)]) = opened t := by
  have hnone : b.opened? m = none := by
    cases m with
    | connect => exact absurd rfl hm
    | _ => rfl
  simp [opened, hnone]

private theorem opened_concat_connect (t : List (Gateway × Move)) (h : b.open? = some (cid, g)) :
    opened (t ++ [(b, .connect)]) = opened t ++ [cid] := by
  simp [opened, opened?, h]

-- The numbers that are given first.
private def numbers (n : Nat) : List UInt64 := (List.range n).map fun i ↦ .ofNat (i + 1)

private theorem numbers_succ (n : Nat) : numbers (n + 1) = numbers n ++ [.ofNat (n + 1)] := by
  simp [numbers, List.range_succ]

private theorem toNat_of_lt {n : Nat} (h : n < UInt64.size) : (UInt64.ofNat n).toNat = n :=
  UInt64.toNat_ofNat_of_lt h

private theorem pairwise_numbers {n : Nat} (h : n < UInt64.size) :
    (numbers n).Pairwise (· < ·) := by
  refine List.pairwise_map.2 (List.pairwise_lt_range.imp_of_mem fun {i j} hi hj hij ↦ ?_)
  rw [List.mem_range] at hi hj
  rw [UInt64.lt_iff_toNat_lt, toNat_of_lt (by omega), toNat_of_lt (by omega)]
  omega

-- What is known of a run of any length: the numbers are given in order, and no more connections
-- are registered than may be.
private structure Counted (s : Settings) (t : List (Gateway × Move)) (g : Gateway) : Prop where
  kept : g.Kept s (fun _ ↦ True) g.hub.conns.live (.ofNat ((opened t).length + 1))
  given : opened t = numbers (opened t).length
  fits : g.hub.conns.size ≤ s.maxConnections

private theorem Kept.mono {L : UInt64 → Prop} (hg : g.Kept s K live next)
    (hKL : ∀ k, K k → L k) : g.Kept s L g.hub.conns.live next :=
  ⟨hg.settings, { hg.books.mono hKL with live := rfl }⟩

private theorem size_leaves_le (live : ShardedTable UInt64) (m : Move) :
    (m.leaves live).size ≤ live.size := by
  cases m with
  | finishSocket cid => exact Connections.size_deregister_le ⟨.empty, live, 1⟩ cid
  | _ => exact Nat.le_refl _

private theorem counted_of_journal (hj : Journal Gateway.move? (fresh s) t g) : Counted s t g := by
  induction hj with
  | start =>
    refine ⟨⟨rfl, (Hub.books_empty ..).mono fun _ _ ↦ trivial⟩, rfl, ?_⟩
    exact Nat.le_trans (Nat.le_of_eq (ShardedTable.size_empty _)) (Nat.zero_le _)
  | @move t b c m hj hm ih =>
    by_cases hc : m = .connect
    · subst hc
      obtain ⟨⟨k, c⟩, ho, rfl⟩ := Option.map_eq_some_iff.1 hm
      obtain ⟨rfl, hlt, hk⟩ := ih.kept.connect ho
      have ht := opened_concat_connect t ho
      rw [← UInt64.ofNat_one, ← UInt64.ofNat_add] at hk
      refine ⟨?_, ?_, ?_⟩
      · rw [ht, List.length_append]
        exact hk.mono fun _ _ ↦ trivial
      · rw [ht, List.length_append, List.length_singleton, numbers_succ, ← ih.given]
      · have hsize := b.hub.conns.size_register_le (.ofNat ((opened t).length + 1))
        rw [Connections.size, Connections.register, ← hk.books.live] at hsize
        exact Nat.le_trans hsize hlt
    · have ht := opened_concat_of_ne t b hc
      have hk := ih.kept.move hc (fun _ _ d _ ↦ Downlink.within_true d) hm
      refine ⟨?_, ?_, ?_⟩
      · rw [ht]
        exact hk.mono fun _ ↦ id
      · rw [ht]
        exact ih.given
      · have hsize := size_leaves_le b.hub.conns.live m
        rw [← hk.books.live] at hsize
        exact Nat.le_trans hsize ih.fits

private theorem trail_of_journal (hj : Journal Gateway.move? (fresh s) t g)
    (hlt : (opened t).length < UInt64.size) : Trail s t g := by
  induction hj with
  | start => exact .fresh
  | @move t b c m hj hm ih =>
    rw [opened_append, List.length_append] at hlt
    refine (ih (by omega)).move ?_ hm
    rintro rfl
    obtain ⟨⟨k, c⟩, ho, rfl⟩ := Option.map_eq_some_iff.1 hm
    have hone : (opened [(b, .connect)]).length = 1 := by simp [opened, opened?, ho]
    rw [(counted_of_journal hj).kept.books.next]
    intro h0
    have h0 := congrArg UInt64.toNat h0
    rw [toNat_of_lt (by omega)] at h0
    cases h0

private theorem kept_of_trail (ht : Trail s t g) :
    g.Kept s (· ∈ opened t) g.hub.conns.live (.ofNat ((opened t).length + 1)) := by
  induction ht with
  | fresh => exact ⟨rfl, (Hub.books_empty ..).mono fun _ ↦ False.elim⟩
  | @move t b c m ht hn hm ih =>
    by_cases hc : m = .connect
    · subst hc
      obtain ⟨⟨k, c⟩, ho, rfl⟩ := Option.map_eq_some_iff.1 hm
      obtain ⟨rfl, -, hk⟩ := ih.connect ho
      rw [← UInt64.ofNat_one, ← UInt64.ofNat_add] at hk
      rw [opened_concat_connect t ho, List.length_append]
      exact hk.mono fun k hk ↦ List.mem_append.2 (hk.imp_right List.mem_singleton.2)
    · rw [opened_concat_of_ne t b hc]
      have hw : ∀ i w d, b.pool.worker? i w = some (.busy d) → d.Within (· ∈ opened t) :=
        fun _ _ _ hd ↦ Downlink.within_of_waits (ht.sound.calls.of_worker? hd)
      exact (ih.move hc hw hm).mono fun _ ↦ id

/-! ### What becomes of a number -/

/-- A move takes nothing back that has become of a connection. -/
theorem grown_of_move? (hg : g.Sound) (hc : m = .connect → g.hub.conns.next ≠ 0)
    (h : g.move? m = some g') : g.hub.conns.Grown g'.hub.conns := by
  have hn := hg.tables.numbered
  have hrun : ∀ d : Downlink, g.hub.conns.Grown (d.run g.hub).1.conns := fun d ↦
    (Downlink.run_induction (P := fun h _ ↦ h.conns.Numbered ∧ g.hub.conns.Grown h.conns)
      (Q := fun h ↦ g.hub.conns.Grown h.conns) (fun hp _ ↦ hp.2)
      (fun hp hs ↦ ⟨(Downlink.op_of_step hp.1 hs).numbered hp.1,
        hp.2.trans ((Downlink.op_of_step hp.1 hs).grown hp.1)⟩)
      (fun hp hs ↦ hp.2.trans ((Downlink.op_of_step hp.1 hs).grown hp.1)) ⟨hn, .refl _⟩)
  cases effect_of_move? hn hc h with
  | routine hr => exact Hub.Op.grown hn (.changes hr.tables)
  | fetch =>
    rw [hub_runCall]
    exact hrun _
  | resume =>
    rw [hub_runCall]
    exact hrun _
  | @finish cid c _ hf hcl hh =>
    rw [hh, Closing.run_eq]
    show g.hub.conns.Grown ((Hub.released _ cid).conns.modify cid _)
    rw [Hub.conns_released,
      Connections.modify_of_find?_eq_some (t := g.hub.conns.deregister cid) hf
      (·.setStatus .close)]
    exact Connections.grown_modify (t := g.hub.conns.deregister cid) hf
      (Connection.follows_retire c).grows

/-- A number stands for one connection for good. -/
structure Lasting (t : List (Gateway × Move)) (g : Gateway) : Prop where
  /-- The number of every connection is greater than those of all before it. -/
  increasing : (opened t).Pairwise (· < ·)
  /-- A connection is registered from when its client is let in until it is let go, and never again.
  -/
  registered : ∀ cid, g.hub.conns.isLive cid = true ↔
    cid ∈ opened t ∧ ∀ b, (b, .finishSocket cid) ∉ t
  /-- Whatever is named in the tables is a connection that there has been. -/
  named : ∀ cid, g.hub.Names cid → cid ∈ opened t
  /-- A number that has been given by some time or is in the tables then is not given again: what is
  registered under it later is what was registered then. -/
  lasts : ∀ u b m v, t = u ++ (b, m) :: v → ∀ cid, cid ∈ opened u ∨ b.hub.Names cid →
    cid ∉ opened ((b, m) :: v) ∧ ∃ c d, b.hub.conns.find? cid = some c ∧
      g.hub.conns.find? cid = some d ∧ c.Grows d ∧
      (g.hub.conns.isLive cid = true → b.hub.conns.isLive cid = true)

private theorem isSome_of_opened (ht : Trail s t g) (hc : cid ∈ opened t) :
    (g.hub.conns.find? cid).isSome := by
  induction ht with
  | fresh => cases hc
  | @move t b c m ht hn hm ih =>
    have hold : cid ∈ opened t → (c.hub.conns.find? cid).isSome := by
      intro ho
      obtain ⟨x, hx⟩ := Option.isSome_iff_exists.1 (ih ho)
      obtain ⟨y, hy, -⟩ := grown_of_move? ht.sound hn hm cid x hx
      rw [hy]
      rfl
    by_cases hmc : m = .connect
    · subst hmc
      obtain ⟨⟨k, c⟩, ho, rfl⟩ := Option.map_eq_some_iff.1 hm
      rw [opened_concat_connect t ho] at hc
      rcases List.mem_append.1 hc with hc | hc
      · exact hold hc
      · rw [List.mem_singleton.1 hc]
        simp only [open?] at ho
        split at ho <;> cases ho
        show (Connections.find? (b.hub.conns.create _).2 b.hub.conns.next).isSome
        rw [Connections.find?_create, if_pos rfl]
        rfl
    · rw [opened_concat_of_ne t b hmc] at hc
      exact hold hc

private theorem opened_of_finished (ht : Trail s t g) (h : (b, .finishSocket cid) ∈ t) :
    cid ∈ opened t := by
  obtain ⟨u, v, b', rfl, hu, -, hm⟩ := ht.split_of_mem h
  obtain ⟨⟨x, c⟩, hs, -⟩ := Option.bind_eq_some_iff.1 hm
  rw [opened_append]
  exact List.mem_append_left _ ((kept_of_trail hu).known hs)

private theorem isLive_of_move? {c : Gateway} (ht : Trail s t b) (hm : b.move? m = some c) :
    c.hub.conns.isLive cid = true ↔
      b.opened? m = some cid ∨ b.hub.conns.isLive cid = true ∧ m ≠ .finishSocket cid := by
  by_cases hmc : m = .connect
  · subst hmc
    obtain ⟨⟨k, c⟩, ho, rfl⟩ := Option.map_eq_some_iff.1 hm
    obtain ⟨rfl, -, hk⟩ := (kept_of_trail ht).connect ho
    generalize UInt64.ofNat ((opened t).length + 1) = next at ho hk
    have hlive : c.hub.conns.isLive cid = (decide (cid = next) || b.hub.conns.isLive cid) := by
      rw [← Connections.isLive_register]
      exact congrArg (·.contains cid) hk.books.live
    simp [hlive, opened?, ho, eq_comm (a := cid)]
  · have hk := (kept_of_trail ht).move hmc
      (fun _ _ _ hd ↦ Downlink.within_of_waits (ht.sound.calls.of_worker? hd)) hm
    cases m with
    | connect => exact absurd rfl hmc
    | finishSocket k =>
      have hlive : c.hub.conns.isLive cid = (decide (cid ≠ k) && b.hub.conns.isLive cid) := by
        rw [← Connections.isLive_deregister]
        exact congrArg (·.contains cid) hk.books.live
      simp [hlive, opened?, eq_comm (a := cid), and_comm]
    | _ =>
      have hlive : c.hub.conns.isLive cid = b.hub.conns.isLive cid :=
        congrArg (·.contains cid) hk.books.live
      simp [hlive, opened?]

private theorem isLive_iff (ht : Trail s t g) (hinc : (opened t).Pairwise (· < ·)) :
    g.hub.conns.isLive cid = true ↔ cid ∈ opened t ∧ ∀ b, (b, .finishSocket cid) ∉ t := by
  induction ht with
  | fresh =>
    simp [fresh, Hub.empty, Connections.isLive, Connections.empty, ShardedTable.contains, opened]
  | @move t b c m ht hn hm ih =>
    have hmem : cid ∈ opened (t ++ [(b, m)]) ↔ cid ∈ opened t ∨ b.opened? m = some cid := by
      simp [opened]
    have hfin : (∀ x, (x, .finishSocket cid) ∉ t ++ [(b, m)]) ↔
        (∀ x, (x, .finishSocket cid) ∉ t) ∧ m ≠ .finishSocket cid := by
      simp only [List.mem_append, List.mem_singleton, Prod.mk.injEq, not_or, forall_and]
      refine and_congr_right fun _ ↦ ⟨?_, ?_⟩
      · rintro h rfl
        exact h b ⟨rfl, rfl⟩
      · exact fun h _ hx ↦ h hx.2.symm
    have hpair := hinc
    rw [opened_append, List.pairwise_append] at hpair
    -- What is about to be let in has never been let go.
    have hnew : b.opened? m = some cid → (∀ x, (x, .finishSocket cid) ∉ t) ∧
      m ≠ .finishSocket cid := by
      intro ho
      refine ⟨fun x hx ↦ ?_, ?_⟩
      · exact UInt64.lt_irrefl cid
          (hpair.2.2 cid (opened_of_finished ht hx) cid (by simp [opened, ho]))
      · rintro rfl
        cases ho
    rw [isLive_of_move? ht hm, hmem, hfin, ih hpair.1]
    constructor
    · rintro (ho | ⟨⟨hc, hf⟩, hne⟩)
      · exact ⟨.inr ho, hnew ho⟩
      · exact ⟨.inl hc, hf, hne⟩
    · rintro ⟨hc | ho, hf, hne⟩
      · exact .inr ⟨⟨hc, hf⟩, hne⟩
      · exact .inl ho

private theorem lasting_of_trail (ht : Trail s t g) (hlt : (opened t).length < UInt64.size)
    (hgiven : opened t = numbers (opened t).length) : Lasting t g := by
  have hinc : (opened t).Pairwise (· < ·) := hgiven ▸ pairwise_numbers hlt
  refine ⟨hinc, fun cid ↦ isLive_iff ht hinc, fun cid ↦ (kept_of_trail ht).books.named, ?_⟩
  rintro u b m v rfl cid hcid
  have hu := ht.split.1
  have hopen : cid ∈ opened u := hcid.elim id (kept_of_trail hu).books.named
  rw [opened_append] at hinc
  have hnot : cid ∉ opened ((b, m) :: v) := fun hv ↦
    UInt64.lt_irrefl cid ((List.pairwise_append.1 hinc).2.2 cid hopen cid hv)
  refine ⟨hnot, ?_⟩
  obtain ⟨c, hc⟩ := Option.isSome_iff_exists.1 (isSome_of_opened hu hopen)
  have hgrown : b.hub.conns.Grown g.hub.conns :=
    ht.onward (P := fun _ k ↦ b.hub.conns.Grown k.hub.conns)
      (fun _ hm ↦ grown_of_move? hu.sound ht.split.2.1 hm)
      (fun ht hk _ hn hm ↦ hk.trans (grown_of_move? ht.sound hn hm))
  obtain ⟨d, hd, hcd⟩ := hgrown cid c hc
  refine ⟨c, d, hc, hd, hcd, fun hl ↦ ?_⟩
  have hkept := ((isLive_iff ht (opened_append .. ▸ hinc)).1 hl).2
  exact (isLive_iff hu (List.pairwise_append.1 hinc).1).2
    ⟨hopen, fun k hk ↦ hkept k (List.mem_append_left _ hk)⟩

/-- There are never more connections registered than there may be, even if others are deregistered
while those are counted that there are; and as long as there are numbers left, each stands for one
connection for good. -/
theorem numbers_fresh (hj : Journal Gateway.move? (fresh s) t g) :
    g.hub.conns.size ≤ s.maxConnections ∧
    (∀ n conns, g.hub.conns.Tally conns.live.shards.length n conns → n < s.maxConnections →
      (conns.register g.hub.conns.next).size ≤ s.maxConnections) ∧
    ((opened t).length < UInt64.size → Lasting t g) := by
  have hcount := counted_of_journal hj
  refine ⟨hcount.fits, fun n conns htally hn ↦ ?_, fun hlt ↦
    lasting_of_trail (trail_of_journal hj hlt) hlt hcount.given⟩
  calc (conns.register g.hub.conns.next).size
      ≤ conns.size + 1 := conns.size_register_le _
    _ ≤ n + 1 := Nat.succ_le_succ htally.bounds.1
    _ ≤ s.maxConnections := hn

/-- The backend ends the session of a client, who goes away before the sweeper closes the
connection. Two more clients come in. -/
def Takeover.reopening : List Move :=
  Takeover.opened ++ handling Takeover.expulsion ++
    [.sweepTake, .say 1 .close, .hear 1, .takeMessage 1, .failWrite 1, .closeSocket 1,
      .finishSocket 1, .connect, .connect]

/-- Notice is still to be served to connection 1, whose number is not given again; and with two
connections nobody else is let in. -/
theorem numbers_fresh_reopening :
    ∃ t g, Journal Gateway.move? (fresh Takeover.settings) t g ∧
      t.map Prod.snd = Takeover.reopening ∧ opened t = [1, 2, 3] ∧
      g.hub.conns.isLive 1 = false ∧ g.hub.Names 1 ∧
      g.hub.conns.size = Takeover.settings.maxConnections ∧ g.open?.isNone ∧ Lasting t g := by
  have hview : (Journal.write? Gateway.move? (fresh Takeover.settings) Takeover.reopening).map
    (fun r ↦
      (opened r.1, r.2.hub.conns.isLive 1, r.2.hub.sweeper.pending.map (·.cid), r.2.hub.conns.size,
        r.2.open?.isNone)) = some ([1, 2, 3], false, [1], 2, true) := by decide +kernel
  obtain ⟨⟨t, g⟩, hrun, hv⟩ := Option.map_eq_some_iff.1 hview
  obtain ⟨hj, hmoves⟩ := Journal.of_write? hrun
  simp only [Prod.mk.injEq] at hv
  obtain ⟨hopened, hlive, hpending, hsize, hfull⟩ := hv
  obtain ⟨e, he, hcid⟩ : ∃ e ∈ g.hub.sweeper.pending, e.cid = 1 :=
    List.mem_map.1 (hpending ▸ List.mem_singleton_self _)
  exact ⟨t, g, hj, hmoves, hopened, hlive, .notice (Sweeper.holds_iff.2 (.inr he)) hcid,
    hsize, hfull, (numbers_fresh hj).2.2 (by rw [hopened]; decide)⟩

end Gateway

end EdgeGateway
