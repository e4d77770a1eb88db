import EdgeGateway.Proofs.Gateway.Delivery
import EdgeGateway.Proofs.Gateway.Handover
import EdgeGateway.Proofs.Gateway.Outbound

/-!
# Copies for a room

A message for a room is copied for every member of a group. What becomes of a connection in this
depends on the copies that are meant for it alone, so a connection that takes none keeps nobody from
getting theirs. No connection is recorded for two sessions, since the tables record only connections
that have been given the session; hence there is one copy for each connection, and it does not
matter in which order the members are visited. The main statement is `fanned_out`.
-/

namespace EdgeGateway

/-! ### The members of a group -/

namespace Rooms

variable {t : Rooms} {rid : UInt64} {gid : UInt32} {sid cid : UInt64}

/-- A session is in a group of a room, and a connection is recorded for it. Group 0 stands for every
group. -/
def Addressed (t : Rooms) (rid : UInt64) (gid : UInt32) (sid cid : UInt64) : Prop :=
  (∃ group, t.group? rid sid = some group ∧ (gid = 0 ∨ group = gid)) ∧
    t.carrier? sid = some cid

/-- No connection is recorded for two members of a group. -/
def Apart (t : Rooms) (rid : UInt64) (gid : UInt32) : Prop :=
  ∀ sid sid' cid, t.Addressed rid gid sid cid → t.Addressed rid gid sid' cid → sid = sid'

/-- The members that are listed are those of the group. -/
theorem mem_select_iff : (sid, cid) ∈ t.select rid gid ↔ t.Addressed rid gid sid cid := by
  rw [select, List.mem_filterMap]
  constructor
  · rintro ⟨⟨s, group⟩, hm, hx⟩
    obtain ⟨hg, hx⟩ := Option.ite_none_right_eq_some.1 hx
    obtain ⟨k, hk, he⟩ := Option.map_eq_some_iff.1 hx
    cases he
    exact ⟨⟨group, Table.mem_entries_iff.1 hm, hg⟩, hk⟩
  · rintro ⟨⟨group, hm, hg⟩, hk⟩
    refine ⟨(sid, group), Table.mem_entries_iff.2 hm, ?_⟩
    simp only [if_pos hg, hk, Option.map_some]

private theorem map_fst_filterMap_sublist {α β γ : Type} {f : α × β → Option (α × γ)}
    (hf : ∀ x y, f x = some y → y.1 = x.1) (l : List (α × β)) :
    ((l.filterMap f).map Prod.fst).Sublist (l.map Prod.fst) := by
  induction l with
  | nil => exact .slnil
  | cons x l ih =>
    rw [List.filterMap_cons]
    split
    · exact ih.cons _
    · next y hy =>
      rw [List.map_cons, List.map_cons, hf x y hy]
      exact ih.cons_cons _

/-- No member is listed twice. -/
theorem nodup_select (t : Rooms) (rid : UInt64) (gid : UInt32) : (t.select rid gid).Nodup := by
  apply List.Nodup.of_map Prod.fst
  refine List.Nodup.sublist (map_fst_filterMap_sublist ?_ _) (t.room rid).nodup
  intro x y hy
  obtain ⟨-, hy⟩ := Option.ite_none_right_eq_some.1 hy
  obtain ⟨k, -, rfl⟩ := Option.map_eq_some_iff.1 hy
  rfl

/-- The connections of members who are apart differ. -/
theorem Apart.nodup_select (ha : t.Apart rid gid) : ((t.select rid gid).map Prod.snd).Nodup := by
  apply List.Nodup.map_on _ (t.nodup_select rid gid)
  rintro ⟨sid, cid⟩ hx ⟨sid', cid'⟩ hy he
  cases show cid = cid' from he
  cases ha sid sid' cid (mem_select_iff.1 hx) (mem_select_iff.1 hy)
  rfl

end Rooms

/-! ### The copies for a connection -/

/-- The copies of a message that are meant for a connection. -/
def Message.copies (m : Message) (members : List (UInt64 × UInt64))
    (cid : UInt64) : List Message :=
  (members.filter fun x ↦ x.2 = cid).map fun x ↦ m.readdress x.1 m.header.nid

namespace Message

variable {m : Message} {members members' : List (UInt64 × UInt64)} {sid cid : UInt64}

/-- The copies for some members and then others are those for the ones and then the others. -/
theorem copies_append (m : Message) (members members' : List (UInt64 × UInt64)) (cid : UInt64) :
    m.copies (members ++ members') cid = m.copies members cid ++ m.copies members' cid := by
  rw [copies, List.filter_append, List.map_append, ← copies, ← copies]

/-- There is no copy for a connection that no member has. -/
theorem copies_eq_nil (h : cid ∉ members.map Prod.snd) : m.copies members cid = [] := by
  have hf : members.filter (fun x ↦ x.2 = cid) = [] := by
    rw [List.filter_eq_nil_iff]
    intro x hx he
    exact h (List.mem_map.2 ⟨x, hx, of_decide_eq_true he⟩)
  rw [copies, hf, List.map_nil]

/-- There is one copy for a connection that one member has. -/
theorem copies_eq_singleton (hd : (members.map Prod.snd).Nodup) (h : (sid, cid) ∈ members) :
    m.copies members cid = [m.readdress sid m.header.nid] := by
  obtain ⟨a, b, rfl⟩ := List.append_of_mem h
  rw [List.map_append, List.map_cons, List.nodup_append] at hd
  obtain ⟨-, hb, hab⟩ := hd
  have ha : cid ∉ a.map Prod.snd := fun hx ↦ hab cid hx cid List.mem_cons_self rfl
  have hb : cid ∉ b.map Prod.snd := (List.nodup_cons.1 hb).1
  have hone : m.copies [(sid, cid)] cid = [m.readdress sid m.header.nid] := by simp [copies]
  rw [copies_append, copies_eq_nil ha, List.nil_append, ← List.singleton_append, copies_append,
    copies_eq_nil hb, hone, List.append_nil]

/-- The order of the members does not matter if they have different connections. -/
theorem copies_perm (hd : (members.map Prod.snd).Nodup) (hp : members'.Perm members) :
    m.copies members' cid = m.copies members cid := by
  by_cases h : cid ∈ members.map Prod.snd
  · obtain ⟨⟨sid, k⟩, hm, rfl⟩ := List.mem_map.1 h
    have hd' : (members'.map Prod.snd).Nodup := (hp.map Prod.snd).nodup_iff.2 hd
    rw [copies_eq_singleton hd hm, copies_eq_singleton hd' (hp.mem_iff.2 hm)]
  · rw [copies_eq_nil h, copies_eq_nil fun hx ↦ h ((hp.map Prod.snd).mem_iff.1 hx)]

end Message

namespace Hub

variable {h h₁ h₂ : Hub} {m : Message} {members members' : List (UInt64 × UInt64)}

/-- Every connection that can be reached has been sent the copies that are meant for it, and nothing
else has changed. -/
structure Spreads (h : Hub) (m : Message) (members : List (UInt64 × UInt64))
    (h' : Hub) : Prop where
  keys : h'.conns.all.keys = h.conns.all.keys
  conn : ∀ cid, h'.conns.find? cid = (h.conns.find? cid).map fun c ↦
    if h.conns.isLive cid then (m.copies members cid).foldl Connection.post c else c
  rest : h' = { h with conns := { h.conns with all := h'.conns.all } }

private theorem Spreads.nil (h : Hub) (m : Message) : h.Spreads m [] h := by
  refine ⟨rfl, fun cid ↦ ?_, rfl⟩
  simp [Message.copies]

private theorem Spreads.append (hs : h.Spreads m members h₁)
    (hs' : h₁.Spreads m members' h₂) : h.Spreads m (members ++ members') h₂ := by
  have hlive : ∀ cid, h₁.conns.isLive cid = h.conns.isLive cid := by
    intro cid
    rw [hs.rest]
    rfl
  refine ⟨hs'.keys.trans hs.keys, fun cid ↦ ?_, ?_⟩
  · rw [hs'.conn, hs.conn, Option.map_map, hlive]
    congr 1
    funext c
    by_cases hl : h.conns.isLive cid
    · simp [hl, Message.copies_append, List.foldl_append]
    · simp [hl]
  · rw [hs'.rest, hs.rest]

private theorem spreads_post {sid cid : UInt64} {c : Connection} (hc : h.conns.get? cid = some c) :
    h.Spreads m [(sid, cid)] (h.post cid (m.readdress sid m.header.nid)) := by
  obtain ⟨hlive, -⟩ := Connections.get?_eq_some_iff.1 hc
  refine ⟨Table.keys_modify .., fun k ↦ ?_, rfl⟩
  rw [post, modifyConn, Connections.find?_modify]
  by_cases hk : k = cid
  · subst hk
    simp [hlive, Message.copies]
  · simp [hk, Message.copies, Ne.symm hk]

private theorem spreads_none {sid cid : UInt64} (hc : h.conns.get? cid = none) :
    h.Spreads m [(sid, cid)] h := by
  refine ⟨rfl, fun k ↦ ?_, rfl⟩
  by_cases hk : k = cid
  · subst hk
    rw [Connections.get?] at hc
    by_cases hl : h.conns.isLive k
    · rw [if_pos hl] at hc
      rw [hc, Option.map_none]
    · simp [hl]
  · simp [Message.copies, Ne.symm hk]

/-- A handling that sends out copies gets to its end. -/
theorem spreads_fanOut (h : Hub) (m : Message) (members : List (UInt64 × UInt64)) :
    ∃ h', (Downlink.fanOut m members).run h = (h', .finished (.ok ())) ∧
      h.Spreads m members h' := by
  induction members generalizing h with
  | nil => exact ⟨h, Downlink.run_of_done rfl, .nil h m⟩
  | cons x members ih =>
    obtain ⟨sid, cid⟩ := x
    cases hc : h.conns.get? cid with
    | none =>
      have hs : (Downlink.fanOut m ((sid, cid) :: members)).step h =
          some (h, .next (.fanOut m members)) := by simp only [Downlink.step, hc]
      obtain ⟨h', hr, hspreads⟩ := ih h
      rw [Downlink.run_of_next hs]
      exact ⟨h', hr, (spreads_none hc).append hspreads⟩
    | some c =>
      have hs : (Downlink.fanOut m ((sid, cid) :: members)).step h =
          some (h.post cid (m.readdress sid m.header.nid), .next (.fanOut m members)) := by
        simp only [Downlink.step, hc]
      obtain ⟨h', hr, hspreads⟩ := ih (h.post cid (m.readdress sid m.header.nid))
      rw [Downlink.run_of_next hs]
      exact ⟨h', hr, (spreads_post hc).append hspreads⟩

-- What comes of it depends on nothing but the copies for each connection.
private theorem Spreads.eq (hs : h.Spreads m members h₁) (hs' : h.Spreads m members' h₂)
    (hc : ∀ cid, m.copies members cid = m.copies members' cid) : h₁ = h₂ := by
  have hall : h₁.conns.all = h₂.conns.all := by
    apply Table.eq_of_get? (hs.keys.trans hs'.keys.symm)
    intro cid
    refine (hs.conn cid).trans (Eq.trans ?_ (hs'.conn cid).symm)
    rw [hc]
  rw [hs.rest, hs'.rest, hall]

/-- Members with different connections may be visited in any order. -/
theorem fanOut_perm (h : Hub) (m : Message) (hd : (members.map Prod.snd).Nodup)
    (hp : members'.Perm members) :
    (Downlink.fanOut m members').run h = (Downlink.fanOut m members).run h := by
  obtain ⟨h₁, hr₁, hs₁⟩ := spreads_fanOut h m members'
  obtain ⟨h₂, hr₂, hs₂⟩ := spreads_fanOut h m members
  rw [hr₁, hr₂, hs₁.eq hs₂ fun cid ↦ Message.copies_perm hd hp]

/-- A message has gone out to a group of a room. -/
structure FansOut (h : Hub) (m : Message) (rid : UInt64) (gid : UInt32) (h' : Hub) : Prop where
  /-- A member whose connection can be reached and takes a message gets one copy, which differs from
  the message in the session alone. -/
  reached : ∀ sid cid c, h.rooms.Addressed rid gid sid cid → h.conns.get? cid = some c →
    c.Receptive → h'.conns.find? cid =
      some { c with queue := c.queue ++ [{ m with header := { m.header with sid } }] }
  /-- All other connections are as they were. -/
  spared : ∀ cid, (∀ sid c, h.rooms.Addressed rid gid sid cid → h.conns.get? cid = some c →
    ¬ c.Receptive) → h'.conns.find? cid = h.conns.find? cid
  /-- Nothing changes but connections. -/
  rest : h' = { h with conns := { h.conns with all := h'.conns.all } }

/-- Where members are apart each gets one copy. -/
theorem Spreads.fansOut {rid : UInt64} {gid : UInt32} {h' : Hub}
    (hs : h.Spreads m (h.rooms.select rid gid) h') (ha : h.rooms.Apart rid gid) :
    h.FansOut m rid gid h' := by
  have hd := ha.nodup_select
  refine ⟨?_, ?_, hs.rest⟩
  · intro sid cid c hm hc hr
    obtain ⟨hlive, hf⟩ := Connections.get?_eq_some_iff.1 hc
    have hcopies := Message.copies_eq_singleton (m := m) hd (Rooms.mem_select_iff.2 hm)
    rw [hs.conn, hf, Option.map_some, if_pos hlive, hcopies, List.foldl_cons, List.foldl_nil,
      Connection.post_eq, if_pos hr]
    rfl
  · intro cid hspared
    rw [hs.conn]
    cases hf : h.conns.find? cid with
    | none => rfl
    | some c =>
      rw [Option.map_some]
      by_cases hlive : h.conns.isLive cid
      · rw [if_pos hlive]
        by_cases hk : cid ∈ (h.rooms.select rid gid).map Prod.snd
        · obtain ⟨⟨sid, k⟩, hm, rfl⟩ := List.mem_map.1 hk
          have hr := hspared sid c (Rooms.mem_select_iff.1 hm)
            (Connections.get?_eq_some_iff.2 ⟨hlive, hf⟩)
          rw [Message.copies_eq_singleton hd hm, List.foldl_cons, List.foldl_nil,
            Connection.post_eq,
            if_neg hr]
        · rw [Message.copies_eq_nil hk, List.foldl_nil]
      · rw [if_neg hlive]

end Hub

/-! ### Whom the tables record -/

namespace Downlink

variable {h h' : Hub} {d d' : Downlink} {o : Outcome}

private theorem directs_step (hs : Crew.Sound ⟨h, [d], []⟩) (hh : h.Directs h.Bears)
    (hd : d.Directed h.Bears) (hstep : d.step h = some (h', o)) :
    h'.Directs h'.Bears ∧ ∀ d', o = .next d' → d'.Directed h'.Bears := by
  have hg : h.conns.Grown h'.conns := (op_of_step hs.numbered hstep).grown hs.numbered
  have hmono : ∀ cid sid, h.Bears cid sid → h'.Bears cid sid := fun _ _ hb ↦ hb.grow hg
  refine ⟨(hd.directs_step hh hs.numbered hs.mirrored hstep).mono hmono, ?_⟩
  rintro d' rfl
  apply (hd.mono hmono).step (hh.mono hmono) hs.numbered hstep
  intro cid c hf hl
  refine ⟨c, hf, rfl, ?_⟩
  rintro (he | he) <;> cases hl.symm.trans he

-- What is left to be done behind a notice records nobody.
private def Late : Downlink → Prop
  | waiting .. | verify .. | release _ | hand .. => True
  | _ => False

private theorem Late.step (hs : Crew.Sound ⟨h, [d], []⟩) (hd : d.Late) (hh : h.Directs h.Bears)
    (hstep : d.step h = some (h', o)) :
    h'.Directs h'.Bears ∧ ∀ d', o = .next d' → d'.Late := by
  have hg : h.conns.Grown h'.conns := (op_of_step hs.numbered hstep).grown hs.numbered
  have hdir : h'.Directs h.Bears := by
    cases d with
    | release r =>
      simp only [Downlink.step] at hstep
      split at hstep <;> cases hstep
      · next hr => exact Release.directs_step hh hs.mirrored hr
      · next hr => exact Release.directs_step hh hs.mirrored hr
    | waiting ticket after | verify m cid | hand m cid =>
      exact hh.changes hs.mirrored (changes_of_step hstep trivial hs.numbered)
    | _ => exact hd.elim
  refine ⟨hdir.mono fun _ _ hb ↦ hb.grow hg, ?_⟩
  rintro d' rfl
  cases d with
  | waiting ticket after =>
    cases after <;> simp only [Downlink.step, behindNotice] at hstep <;> split at hstep <;>
      cases hstep
    trivial
  | verify m cid =>
    simp only [Downlink.step] at hstep
    split at hstep <;> cases hstep
    split <;> trivial
  | release r =>
    simp only [Downlink.step] at hstep
    split at hstep <;> cases hstep
    trivial
  | hand m cid =>
    simp only [Downlink.step] at hstep
    repeat' split at hstep
    all_goals cases hstep
  | _ => exact hd.elim

private theorem directs_run (hs : Crew.Sound ⟨h, [d], []⟩) (hh : h.Directs h.Bears)
    (hd : d.Directed h.Bears ∨ d.Late) : (d.run h).1.Directs (d.run h).1.Bears := by
  have step : ∀ {h h' : Hub} {d : Downlink} {o : Outcome}, Crew.Sound ⟨h, [d], []⟩ →
      h.Directs h.Bears → (d.Directed h.Bears ∨ d.Late) → d.step h = some (h', o) →
      h'.Directs h'.Bears ∧ ∀ d', o = .next d' → d'.Directed h'.Bears ∨ d'.Late := by
    intro h h' d o hs hh hd hstep
    rcases hd with hd | hd
    · obtain ⟨hh', hd'⟩ := directs_step hs hh hd hstep
      exact ⟨hh', fun d' he ↦ .inl (hd' d' he)⟩
    · obtain ⟨hh', hd'⟩ := hd.step hs hh hstep
      exact ⟨hh', fun d' he ↦ .inr (hd' d' he)⟩
  apply run_induction (P := fun h d ↦ Crew.Sound ⟨h, [d], []⟩ ∧ h.Directs h.Bears ∧
    (d.Directed h.Bears ∨ d.Late)) (Q := fun h ↦ h.Directs h.Bears)
  · rintro h d ⟨-, hh, -⟩ -
    exact hh
  · rintro h h' d d' ⟨hs, hh, hd⟩ hstep
    obtain ⟨hh', hd'⟩ := step hs hh hd hstep
    exact ⟨hs.step hstep, hh', hd' d' rfl⟩
  · rintro h h' d r ⟨hs, hh, hd⟩ hstep
    exact (step hs hh hd hstep).1
  · exact ⟨hs, hh, hd⟩

end Downlink

private theorem Closing.directs_run {h : Hub} {cid : UInt64} (hs : Crew.Sound { hub := h })
    (hc : h.Shut cid) (hh : h.Directs h.Bears) : (run h cid).Directs (run h cid).Bears := by
  have ending : ∀ {h h' e o}, Crew.Sound ⟨h, [], [e]⟩ → h.Directs h.Bears →
    e.step h = (h', o) →
      Crew.Sound ⟨h', [], o.toList⟩ ∧ h'.Directs h'.Bears := by
    intro h h' e o hs hh he
    have ha : Crew.Act (fun _ _ ↦ True) ⟨h, [], [] ++ e :: []⟩ _
      ⟨h', [], [] ++ o.toList ++ []⟩ :=
      .ending he
    have hs' := hs.act ha
    rw [List.append_nil, List.nil_append] at hs'
    have hg : h.conns.Grown h'.conns := ha.grown hs
    exact ⟨hs', (Closing.directs_step hh hs.mirrored he).mono fun _ _ hb ↦ hb.grow hg⟩
  apply run_induction (P := fun h e ↦ Crew.Sound ⟨h, [], [e]⟩ ∧ h.Directs h.Bears)
    (Q := fun h ↦ h.Directs h.Bears)
  · rintro h h' e e' ⟨hs, hh⟩ he
    exact ending hs hh he
  · rintro h h' e ⟨hs, hh⟩ he
    exact (ending hs hh he).2
  · exact ⟨⟨hs.numbered, hs.mirrored, hs.owner, List.forall_mem_nil _,
      List.forall_mem_singleton.2 hc⟩, hh⟩

namespace Gateway

variable {s : Settings} {t : List (Gateway × Move)} {g g' : Gateway} {m : Move}

private theorem directs_of_move? (hg : g.Sound) (hh : g.hub.Directs g.hub.Bears)
    (hc : m = .connect → g.hub.conns.next ≠ 0) (h : g.move? m = some g') :
    g'.hub.Directs g'.hub.Bears := by
  have alone : ∀ {d : Downlink}, d.Founded g.hub → Crew.Sound ⟨g.hub, [d], []⟩ := fun hd ↦
    ⟨hg.tables.numbered, hg.tables.mirrored, hg.tables.owner, List.forall_mem_singleton.2 hd,
      List.forall_mem_nil _⟩
  cases effect_of_move? hg.tables.numbered hc h with
  | routine hr =>
    have hgrown := hr.tables.grown hg.tables.numbered
    exact (hh.changes hg.tables.mirrored hr.tables).mono fun _ _ hb ↦ hb.grow hgrown
  | fetch =>
    rw [hub_runCall]
    exact Downlink.directs_run (alone trivial) hh (.inl trivial)
  | resume hd =>
    rw [hub_runCall]
    obtain ⟨ticket, after, rfl⟩ := hg.calls.of_worker? hd
    exact Downlink.directs_run (alone trivial) hh (.inr trivial)
  | finish hf hcl hh' =>
    rw [hh']
    exact Closing.directs_run hg.tables ⟨_, hf, hcl⟩ hh

private theorem directs_of_trail (ht : Trail s t g) : g.hub.Directs g.hub.Bears := by
  induction ht with
  | fresh =>
    refine ⟨?_, ?_⟩
    · intro sid cid hl
      cases (Router.lookup_empty s.shards sid).symm.trans hl
    · intro sid cid hc
      cases hc
  | move ht hc hm ih => exact directs_of_move? ht.sound ih hc hm

/-- In every state of every run the members of a room are apart. -/
theorem apart_of_trail (ht : Trail s t g) (rid : UInt64) (gid : UInt32) :
    g.hub.rooms.Apart rid gid := by
  have hd := directs_of_trail ht
  intro sid sid' cid hs hs'
  exact (hd.carried sid cid hs.2).eq_of_bears (hd.carried sid' cid hs'.2)

/-! ### A worker sends copies out -/

/-- A message for a room that a worker takes is copied for the members of the group that it names,
one after the other, and that is all that comes of it. Where no connection is recorded for two of
them, as is the case in every state of every run, each member whose connection can be reached and
takes a message gets one copy, and the members may as well be visited in any other order. -/
theorem fanned_out :
    (∀ (g : Gateway) (i w : Nat) (f : Frame) (m : Message) (a : RoomAddress),
      g.fetched? (.fetchCall i w) = some f → downlinkCommands.lookup f.cmd = some .room →
      Packet.parse f.body = .ok m → Body.decode m.body = .ok a →
      ∃ g', g.move? (.fetchCall i w) = some g' ∧
        g' = { g with hub := g'.hub, pool := g'.pool } ∧ g'.pool.outlet = g.pool.outlet ∧
        (Downlink.received .room f.body).run g.hub = (g'.hub, .finished (.ok ())) ∧
        g.hub.Spreads m (g.hub.rooms.select a.rid a.gid) g'.hub ∧
        (g.hub.rooms.Apart a.rid a.gid →
          g.hub.FansOut m a.rid a.gid g'.hub ∧
          ∀ members : List (UInt64 × UInt64), members.Perm (g.hub.rooms.select a.rid a.gid) →
            (Downlink.fanOut m members).run g.hub = (g'.hub, .finished (.ok ())))) ∧
    ∀ s t g, Trail s t g → ∀ rid gid, g.hub.rooms.Apart rid gid := by
  refine ⟨?_, fun s t g ht ↦ apart_of_trail ht⟩
  intro g i w f m a hf hk hm ha
  obtain ⟨⟨f', pool⟩, hfetch, hf⟩ := Option.map_eq_some_iff.1 hf
  cases hf
  obtain ⟨h', hr, hspreads⟩ := g.hub.spreads_fanOut m (g.hub.rooms.select a.rid a.gid)
  have hrun : (Downlink.received .room f'.body).run g.hub = (h', .finished (.ok ())) := by
    have s₁ : (Downlink.received .room f'.body).step g.hub =
      some (g.hub, .next (.gather m a.rid a.gid)) := by
      simp only [Downlink.step, hm, Downlink.ofMessage, ha]
    have s₂ : (Downlink.gather m a.rid a.gid).step g.hub =
        some (g.hub, .next (.fanOut m (g.hub.rooms.select a.rid a.gid))) := rfl
    rw [Downlink.run_of_next s₁, Downlink.run_of_next s₂, hr]
  have hmove : g.move? (.fetchCall i w) =
      some { g with hub := h', pool := pool.setWorker i w .idle } := by
    simp only [move?, fetchCall, hfetch, Option.bind_eq_bind, Option.bind_some, hk, runCall, hrun]
    rfl
  refine ⟨_, hmove, rfl, outlet_fetchCall hmove, hrun, hspreads, fun hapart ↦ ?_⟩
  refine ⟨hspreads.fansOut hapart, fun members hp ↦ ?_⟩
  rw [Hub.fanOut_perm g.hub m hapart.nodup_select hp, hr]

/-- Two sessions are in different groups of a room, and the queue of the first is full. The backend
has something for both groups. -/
def Takeover.crowded : List Move :=
  opened ++ handling (.entry 42 7 1) ++
    [.connect, .say 2 (.binary (Message.make .online 0 43
      (Body.encode ({ sid := 43 } : OnlineRequest))).bytes), .hear 2] ++
    handling (.opening 43 2) ++ [.takeMessage 2] ++ handling (.entry 43 7 2) ++
    [.backendSays 0 ((Message.make .roomBroadcast 9 0
      (Body.encode ({ rid := 7 } : RoomAddress))).wrap 0).bytes, .link (.read 0)]

/-- The member who cannot take a copy does not keep the other from getting one. -/
theorem fanned_out_crowded :
    ∃ t g, ∃ m : Message, ∃ c g', Trail { Takeover.settings with sendCapacity := 2 } t g ∧
      t.map Prod.snd = Takeover.crowded ∧ g.move? (.fetchCall 0 0) = some g' ∧ m.sid = 0 ∧
      g.hub.rooms.Addressed 7 0 42 1 ∧ g'.hub.conns.find? 1 = g.hub.conns.find? 1 ∧
      g.hub.rooms.Addressed 7 0 43 2 ∧ g.hub.conns.find? 2 = some c ∧
      g'.hub.conns.find? 2 =
        some { c with queue := c.queue ++ [{ m with header := { m.header with sid := 43 } }] } := by
  have hview : ((fresh { Takeover.settings with sendCapacity := 2 }).trail? Takeover.crowded).bind
      (fun r ↦ do
        let f ← r.2.fetched? (.fetchCall 0 0)
        let m : Message ← (Packet.parse f.body).toOption
        let a ← (Body.decode (α := RoomAddress) m.body).toOption
        let c ← r.2.hub.conns.get? 1
        let d ← r.2.hub.conns.get? 2
        return decide
          (downlinkCommands.lookup f.cmd = some .room ∧ m.sid = 0 ∧ a = ⟨7, 0⟩ ∧
            r.2.hub.rooms.group? 7 42 = some 1 ∧ r.2.hub.rooms.carrier? 42 = some 1 ∧
            r.2.hub.rooms.group? 7 43 = some 2 ∧ r.2.hub.rooms.carrier? 43 = some 2 ∧
            ¬ c.Receptive ∧ d.Receptive)) = some true := by decide +kernel
  obtain ⟨⟨t, g⟩, hrun, hview⟩ := Option.bind_eq_some_iff.1 hview
  obtain ⟨f, hf, hview⟩ := Option.bind_eq_some_iff.1 hview
  obtain ⟨m, hm, hview⟩ := Option.bind_eq_some_iff.1 hview
  obtain ⟨a, ha, hview⟩ := Option.bind_eq_some_iff.1 hview
  obtain ⟨c, hc, hview⟩ := Option.bind_eq_some_iff.1 hview
  obtain ⟨d, hd, hview⟩ := Option.bind_eq_some_iff.1 hview
  obtain ⟨hk, hsid, rfl, hg₁, hcar₁, hg₂, hcar₂, hfull, hroom⟩ :=
    of_decide_eq_true (Option.some.inj hview)
  obtain ⟨ht, hmoves⟩ := trail_of_trail? hrun
  obtain ⟨hsend, hapart⟩ := fanned_out
  obtain ⟨g', hmove, -, -, -, -, hout⟩ :=
    hsend g 0 0 f m ⟨7, 0⟩ hf hk (eq_ok_of_toOption hm) (eq_ok_of_toOption ha)
  obtain ⟨hfans, -⟩ := hout (hapart _ t g ht 7 0)
  have h₁ : g.hub.rooms.Addressed 7 0 42 1 := ⟨⟨1, hg₁, .inl rfl⟩, hcar₁⟩
  have h₂ : g.hub.rooms.Addressed 7 0 43 2 := ⟨⟨2, hg₂, .inl rfl⟩, hcar₂⟩
  refine ⟨t, g, m, d, g', ht, hmoves, hmove, hsid, h₁, ?_, h₂,
    (Connections.get?_eq_some_iff.1 hd).2, hfans.reached 43 2 d h₂ hd hroom⟩
  apply hfans.spared 1
  intro sid e _ he
  cases hc.symm.trans he
  exact hfull

end Gateway

end EdgeGateway
