import EdgeGateway.Proofs.Gateway.Tracking

/-!
# Rooms that are lost to an earlier connection

A release takes the route of a session away first and takes the session out of its rooms afterwards.
If the session is routed to another connection in between, the release takes it out of what it has
entered since, too. There is no other way to lose a room to an earlier connection: a connection is
routed once, and nobody enters a room by way of it before.
-/

namespace EdgeGateway

namespace Event

/-- A release for a connection takes a session out of a room that it has entered by way of the
connection that it is routed to. -/
def Deprived (tr : List Event) (sid rid cid owner : UInt64) : Prop :=
  ∃ x y rooms, tr = x ++ cleared sid cid (some owner) rooms :: y ∧ rid ∈ rooms ∧
    last? (·.entered? sid rid) x = some owner

/-- Between the two operations of a release for one connection a session is routed to another, and
by way of that one it enters a room. -/
def Overtaken (tr : List Event) (sid rid cid owner : UInt64) : Prop :=
  cid ≠ owner ∧ ∃ w x y z old rooms, tr = w ++ unbound sid cid ::
      (x ++ bound sid owner old :: (y ++ cleared sid cid (some owner) rooms :: z)) ∧
    rid ∈ rooms ∧ last? (·.entered? sid rid) y = some owner

end Event

/-- The handling has looked up the route of a session and is to let it into a room. -/
def Downlink.Enters (sid cid : UInt64) : Downlink → Prop
  | .enter m _ _ k => m.sid = sid ∧ k = cid
  | _ => False

variable {h h' : Hub} {sid cid : UInt64}

/-! ### What single operations do to the rooms of a session -/

private theorem Release.unbound_of_owes {r r' : Release} (hs : r.step h = (h', some r'))
    (ho : r'.Owes sid cid) :
    r.event? h = some (.unbound sid cid) ∧ h'.router.lookup sid = none := by
  cases r with
  | inspect k =>
    simp only [step] at hs
    split at hs
    · cases hs
    · split at hs <;> cases hs
      cases ho
  | unbind k s status =>
    rw [step_unbind] at hs
    split at hs <;> cases hs
    next hl =>
    obtain ⟨rfl, rfl⟩ := ho
    exact ⟨if_pos hl, (Router.lookup_unbind h.router s k s).trans (if_pos ⟨rfl, hl⟩)⟩
  | clear k s status => cases hs

private theorem Closing.unbound_of_owes {e e' : Closing} (hs : e.step h = (h', some e'))
    (ho : e'.Owes sid cid) :
    e.event? h = some (.unbound sid cid) ∧ h'.router.lookup sid = none := by
  cases e with
  | deregister k =>
    cases hs
    cases ho
  | release k r =>
    simp only [step] at hs
    split at hs <;> cases hs
    · next hr => exact Release.unbound_of_owes hr ho
    · cases ho
  | retire k => cases hs

private theorem Release.owes_of_event {r : Release} {route : Option UInt64} {rooms : List UInt64}
    (he : r.event? h = some (.cleared sid cid route rooms)) :
    r.Owes sid cid ∧ route = h.router.lookup sid := by
  cases r with
  | inspect k => cases he
  | unbind k s status =>
    simp only [event?] at he
    split at he <;> cases he
  | clear k s status =>
    cases he
    exact ⟨⟨rfl, rfl⟩, rfl⟩

private theorem Release.entered?_event (r : Release) (h : Hub) (sid rid : UInt64) :
    (r.event? h).bind (·.entered? sid rid) = none := by
  cases r with
  | inspect k => rfl
  | unbind k s status =>
    simp only [event?]
    split <;> rfl
  | clear k s status => rfl

namespace Downlink

variable {d d' : Downlink} {o : Outcome}

private theorem unbound_of_owes (hs : d.step h = some (h', .next d')) (ho : d'.Owes sid cid) :
    d.event? h = some (.unbound sid cid) ∧ h'.router.lookup sid = none := by
  have hclears : d'.clears cid = true := by
    cases d' with
    | release r =>
      cases r with
      | clear k s status => exact beq_iff_eq.2 ho.2
      | _ => cases ho
    | _ => cases ho
  cases d with
  | release r =>
    simp only [step] at hs
    split at hs <;> cases hs
    next hr => exact Release.unbound_of_owes hr ho
  | logon m k uid =>
    simp only [step] at hs
    split at hs <;> cases hs
    cases ho
  | bind m k =>
    cases hs
    cases ho
  | rebind m k displaced =>
    simp only [step] at hs
    split at hs <;> cases hs <;> cases ho
  | enter m rid gid k =>
    cases hs
    cases ho
  | _ =>
    rw [(tally_of_plain hs trivial cid).2] at hclears
    cases hclears

private theorem owes_of_event {route : Option UInt64} {rooms : List UInt64}
    (he : d.event? h = some (.cleared sid cid route rooms)) :
    d.Owes sid cid ∧ route = h.router.lookup sid := by
  cases d with
  | release r => exact Release.owes_of_event he
  | rebind m k displaced =>
    simp only [event?] at he
    split at he <;> cases he
  | _ => cases he

/-- A handling that is to let a session into a room has looked up its route. -/
theorem lookup_of_enters (hs : d.step h = some (h', .next d')) (ho : d'.Enters sid cid) :
    h.router.lookup sid = some cid := by
  cases d with
  | received kind body =>
    obtain ⟨-, ⟨e, he⟩ | ⟨m, d, -, -, he, hb⟩⟩ := begins_of_received hs
    · cases he
    · cases he
      cases hb <;> cases ho
  | judge m ack =>
    simp only [step] at hs
    split at hs <;> cases hs
    split at ho <;> cases ho
  | verify m k =>
    simp only [step] at hs
    split at hs <;> cases hs
    split at ho <;> cases ho
  | join m rid gid =>
    simp only [step] at hs
    split at hs <;> cases hs
    next k hl =>
    obtain ⟨rfl, rfl⟩ := ho
    exact hl
  | fanOut m members =>
    cases members with
    | nil => cases hs
    | cons x members =>
      simp only [step] at hs
      split at hs <;> cases hs <;> cases ho
  | _ =>
    simp only [step, behindNotice] at hs
    repeat' split at hs
    all_goals cases hs
    all_goals cases ho

private theorem enters_of_event {rid : UInt64}
    (he : (d.event? h).bind (·.entered? sid rid) = some cid) : d.Enters sid cid := by
  cases d with
  | rebind m k displaced =>
    simp only [event?] at he
    split at he
    · simp [Event.entered?] at he
    · cases he
  | enter m r gid k =>
    obtain ⟨⟨hs, -⟩, hk⟩ := Option.ite_none_right_eq_some.1 he
    cases hk
    exact ⟨hs, rfl⟩
  | release r =>
    rw [show (release r).event? h = r.event? h from rfl, r.entered?_event] at he
    cases he
  | _ => cases he

/-- A session that is routed after an operation of a handling was so before, or is bound by it. -/
theorem bound_of_lookup (hn : h.conns.Numbered) (hs : d.step h = some (h', o))
    (hl : h'.router.lookup sid = some cid) :
    h.router.lookup sid = some cid ∨ ∃ old, d.event? h = some (.bound sid cid old) := by
  rcases (op_of_step hn hs).lookup hl with hl | hr
  · exact .inl hl
  · obtain ⟨m, rfl, rfl⟩ := route?_eq_some_iff.1 hr
    exact .inr ⟨_, rfl⟩

end Downlink

/-! ### Rooms and routes along a run -/

namespace Crew

variable {feed : DownlinkKind → Bytes → Prop} {start : Hub} {c c' : Crew} {tr : List Event}
  {e : Option Event} {owner : UInt64}

/-- A session that is routed after an act was so before, or is bound by it. -/
theorem Act.lookup (ha : Act feed c e c') (hc : c.Sound)
    (hl : c'.hub.router.lookup sid = some owner) :
    c.hub.router.lookup sid = some owner ∨ ∃ old, e = some (.bound sid owner old) := by
  cases ha with
  | change hch =>
    rw [hch.router] at hl
    exact .inl hl
  | receive hn => exact .inl hl
  | call hs => exact Downlink.bound_of_lookup hc.numbered hs hl
  | depart hf hcl hlive hno => exact .inl hl
  | ending hs =>
    rcases Closing.op_of_step hs with hop | ⟨k, -, rfl, -⟩
    · exact .inl ((hop.lookup hl).resolve_right nofun)
    · exact .inl hl

/-- Whoever is to take a session out of its rooms after an act was to do so before, or the act has
taken its route away. -/
theorem Act.owing (ha : Act feed c e c') (ho : c'.Owing sid cid) :
    c.Owing sid cid ∨ e = some (.unbound sid cid) ∧ c'.hub.router.lookup sid = none := by
  cases ha with
  | change hch => exact .inl ho
  | receive hn =>
    rcases ho with ⟨d, hd, hk⟩ | hending
    · rcases List.mem_cons.1 hd with rfl | hd
      · cases hk
      · exact .inl (.inl ⟨d, hd, hk⟩)
    · exact .inl (.inr hending)
  | @call h h' d o a b es hs =>
    rcases ho with ⟨x, hx, hk⟩ | hending
    · rcases mem_of_mem_replaced (x := d) hx with hx | hx
      · exact .inl (.inl ⟨x, hx, hk⟩)
      · rw [Downlink.Outcome.mem_calls] at hx
        subst hx
        exact .inr (Downlink.unbound_of_owes hs hk)
    · exact .inl (.inr hending)
  | depart hf hcl hlive hno =>
    rcases ho with hcall | ⟨e, he, hk⟩
    · exact .inl (.inl hcall)
    · rcases List.mem_cons.1 he with rfl | he
      · cases hk
      · exact .inl (.inr ⟨e, he, hk⟩)
  | @ending h h' e o ds a b hs =>
    rcases ho with hcall | ⟨x, hx, hk⟩
    · exact .inl (.inl hcall)
    · rcases mem_of_mem_replaced (x := e) hx with hx | hx
      · exact .inl (.inr ⟨x, hx, hk⟩)
      · rw [Option.mem_toList] at hx
        cases hx
        exact .inr (Closing.unbound_of_owes hs hk)

/-- Whoever is to let a session into a room after an act was to do so before, or has just looked up
its route. -/
theorem Act.enters (ha : Act feed c e c') (hd : ∃ d ∈ c'.calls, d.Enters sid owner) :
    (∃ d ∈ c.calls, d.Enters sid owner) ∨ c.hub.router.lookup sid = some owner := by
  cases ha with
  | change hch => exact .inl hd
  | receive hn =>
    obtain ⟨d, hd, hk⟩ := hd
    rcases List.mem_cons.1 hd with rfl | hd
    · cases hk
    · exact .inl ⟨d, hd, hk⟩
  | @call h h' d o a b es hs =>
    obtain ⟨x, hx, hk⟩ := hd
    rcases mem_of_mem_replaced (x := d) hx with hx | hx
    · exact .inl ⟨x, hx, hk⟩
    · rw [Downlink.Outcome.mem_calls] at hx
      subst hx
      exact .inr (Downlink.lookup_of_enters hs hk)
  | depart hf hcl hlive hno => exact .inl hd
  | ending hs => exact .inl hd

private theorem Act.entry {rid : UInt64} (ha : Act feed c e c')
    (he : e.bind (·.entered? sid rid) = some owner) : ∃ d ∈ c.calls, d.Enters sid owner := by
  cases ha with
  | change hch => cases he
  | receive hn => cases he
  | call hs =>
    exact ⟨_, List.mem_append_right _ List.mem_cons_self, Downlink.enters_of_event he⟩
  | depart hf hcl hlive hno => cases he
  | @ending h h' e o ds a b hs =>
    cases e with
    | release k r =>
      rw [show (Closing.release k r).event? h = r.event? h from rfl, r.entered?_event] at he
      cases he
    | _ => cases he

/-- Whoever takes a session out of its rooms was to do so. -/
theorem Act.cleared {route : Option UInt64} {rooms : List UInt64}
    (ha : Act feed c (some (.cleared sid cid route rooms)) c') :
    c.Owing sid cid ∧ route = c.hub.router.lookup sid := by
  generalize he : some (Event.cleared sid cid route rooms) = e at ha
  cases ha with
  | change hch => cases he
  | receive hn => cases he
  | call hs =>
    obtain ⟨hk, hl⟩ := Downlink.owes_of_event he.symm
    exact ⟨.inl ⟨_, List.mem_append_right _ List.mem_cons_self, hk⟩, hl⟩
  | depart hf hcl hlive hno => cases he
  | @ending h h' e o ds a b hs =>
    cases e with
    | release k r =>
      obtain ⟨hk, hl⟩ := Release.owes_of_event (r := r) he.symm
      exact ⟨.inr ⟨_, List.mem_append_right _ List.mem_cons_self, hk⟩, hl⟩
    | _ => cases he

/-- The route of a session was taken away by whoever is to take it out of its rooms; if it has a
route, it was bound since. -/
def Reclaimed (tr : List Event) (c : Crew) : Prop :=
  ∀ sid cid, c.Owing sid cid → ∃ x y, tr = x ++ Event.unbound sid cid :: y ∧
    ∀ owner, c.hub.router.lookup sid = some owner → ∃ old, Event.bound sid owner old ∈ y

/-- No act lets anybody take a session out of its rooms before its route is gone. -/
theorem Reclaimed.act (ht : Reclaimed tr c) (hc : c.Sound) (ha : Act feed c e c') :
    Reclaimed (tr ++ e.toList) c' := by
  intro sid cid ho
  rcases ha.owing ho with ho | ⟨rfl, hnone⟩
  · obtain ⟨x, y, rfl, hy⟩ := ht sid cid ho
    refine ⟨x, y ++ e.toList, by simp, ?_⟩
    intro owner hl
    rcases ha.lookup hc hl with hl | ⟨old, rfl⟩
    · obtain ⟨old, hmem⟩ := hy owner hl
      exact ⟨old, List.mem_append_left _ hmem⟩
    · exact ⟨old, List.mem_append_right _ (List.mem_singleton_self _)⟩
  · refine ⟨tr, [], rfl, ?_⟩
    intro owner hl
    rw [hnone] at hl
    cases hl

/-- Wherever a run from coherent tables leads, whoever is to take a session out of its rooms has
taken its route away. -/
theorem Run.reclaimed (hr : Run feed { hub := start } tr c) (hc : start.Coherent) :
    Reclaimed tr c := by
  refine hr.kept (P := Reclaimed) hc ?_ ?_
  · rintro sid cid (⟨d, hd, -⟩ | ⟨e, he, -⟩)
    · cases hd
    · cases he
  · intro tr c e c' hs ht ha
    exact ht.act hs ha

/-- A connection was routed before a session is let into a room by way of it. -/
structure Announced (start : Hub) (tr : List Event) (c : Crew) : Prop where
  routed : ∀ sid owner, c.hub.router.lookup sid = some owner →
    start.router.lookup sid = some owner ∨ ∃ old, Event.bound sid owner old ∈ tr
  called : ∀ sid owner, (∃ d ∈ c.calls, d.Enters sid owner) →
    start.router.lookup sid = some owner ∨ ∃ old, Event.bound sid owner old ∈ tr
  told : ∀ sid rid owner, (∃ e ∈ tr, e.entered? sid rid = some owner) →
    start.router.lookup sid = some owner ∨ ∃ old, Event.bound sid owner old ∈ tr

/-- No act lets a session into a room by way of a connection that it was never routed to. -/
theorem Announced.act (ht : Announced start tr c) (hc : c.Sound) (ha : Act feed c e c') :
    Announced start (tr ++ e.toList) c' := by
  have hgrow : ∀ {sid owner}, (start.router.lookup sid = some owner ∨
      ∃ old, Event.bound sid owner old ∈ tr) → start.router.lookup sid = some owner ∨
      ∃ old, Event.bound sid owner old ∈ tr ++ e.toList :=
    fun h ↦ h.imp_right fun ⟨old, hmem⟩ ↦ ⟨old, List.mem_append_left _ hmem⟩
  refine ⟨?_, ?_, ?_⟩
  · intro sid owner hl
    rcases ha.lookup hc hl with hl | ⟨old, rfl⟩
    · exact hgrow (ht.routed sid owner hl)
    · exact .inr ⟨old, List.mem_append_right _ (List.mem_singleton_self _)⟩
  · intro sid owner hd
    rcases ha.enters hd with hd | hl
    · exact hgrow (ht.called sid owner hd)
    · exact hgrow (ht.routed sid owner hl)
  · rintro sid rid owner ⟨x, hx, hk⟩
    rcases List.mem_append.1 hx with hx | hx
    · exact hgrow (ht.told sid rid owner ⟨x, hx, hk⟩)
    · rw [Option.mem_toList] at hx
      cases hx
      exact hgrow (ht.called sid owner (ha.entry hk))

/-- Wherever a run from coherent tables leads, sessions have entered rooms only by way of
connections that they were routed to. -/
theorem Run.announced (hr : Run feed { hub := start } tr c) (hc : start.Coherent) :
    Announced start tr c := by
  refine hr.kept (P := Announced start) hc ⟨fun _ _ hl ↦ .inl hl, ?_, ?_⟩ ?_
  · rintro sid owner ⟨d, hd, -⟩
    cases hd
  · rintro sid rid owner ⟨e, he, -⟩
    cases he
  · intro tr c e c' hs ht ha
    exact ht.act hs ha

/-- Before a session was routed to a connection, no release took away a route to it. -/
theorem Run.not_unbound {x y : List Event} {old : Option UInt64}
    (hr : Run feed { hub := start } (x ++ .bound sid owner old :: y) c) (hc : start.Coherent) :
    Event.unbound sid owner ∉ x := by
  intro hmem
  obtain ⟨b, b', hb, -⟩ := hr.split
  have honce := (hr.ledger hc owner).once
  rw [List.countP_append, List.countP_cons_of_pos (by simp [Event.binds])] at honce
  have haccount := (hb.ledger hc owner).account
  have : 0 < x.countP (·.unbinds owner) :=
    List.countP_pos_iff.2 ⟨_, hmem, by simp [Event.unbinds]⟩
  omega

/-- No session was let into a room by way of a connection before the session was routed to it. -/
theorem Run.not_entered {x y : List Event} {old : Option UInt64}
    (hr : Run feed { hub := start } (x ++ .bound sid owner old :: y) c) (hc : start.Coherent)
    (rid : UInt64) : Event.last? (·.entered? sid rid) x ≠ some owner := by
  intro hlast
  obtain ⟨b, b', hb, -⟩ := hr.split
  have honce := (hr.ledger hc owner).once
  rw [List.countP_append, List.countP_cons_of_pos (by simp [Event.binds])] at honce
  rcases (hb.announced hc).told sid rid owner (Event.exists_of_last? hlast) with hl
    | ⟨old', hmem⟩
  · have := Hub.routed_of_lookup hl
    omega
  · have : 0 < x.countP (·.binds owner) :=
      List.countP_pos_iff.2 ⟨_, hmem, by simp [Event.binds]⟩
    omega

/-- A room is lost to an earlier connection only if the session entered it between the two
operations of a release. -/
theorem overtaken_of_deprived {rid : UInt64} (hc : start.Coherent)
    (hr : Run feed { hub := start } tr c) (hd : Event.Deprived tr sid rid cid owner) :
    Event.Overtaken tr sid rid cid owner := by
  obtain ⟨x, z, rooms, rfl, hrid, hlast⟩ := hd
  obtain ⟨b, b', hb, ha⟩ := hr.split
  obtain ⟨howing, hroute⟩ := ha.cleared
  obtain ⟨w, v, rfl, hbound⟩ := hb.reclaimed hc sid cid howing
  obtain ⟨old, hmem⟩ := hbound owner hroute.symm
  obtain ⟨v, y, rfl⟩ := List.append_of_mem hmem
  have hsplit : w ++ Event.unbound sid cid :: (v ++ .bound sid owner old :: y) =
      (w ++ .unbound sid cid :: v) ++ .bound sid owner old :: y := by simp
  rw [hsplit] at hb hlast
  refine ⟨?_, w, v, y, z, old, rooms, by simp, hrid, ?_⟩
  · rintro rfl
    exact hb.not_unbound hc (List.mem_append_right _ List.mem_cons_self)
  -- The last entry cannot lie before the route by way of which it was made.
  have hbefore := hb.not_entered hc rid
  rw [Event.last?_append, Event.last?_cons] at hlast
  cases hy : Event.last? (·.entered? sid rid) y with
  | some k =>
    rw [hy] at hlast
    exact hlast
  | none =>
    rw [hy] at hlast
    exact absurd hlast hbefore

/-- Whatever a session enters between the two operations of a release is lost. -/
theorem deprived_of_overtaken {rid : UInt64}
    (ho : Event.Overtaken tr sid rid cid owner) : Event.Deprived tr sid rid cid owner := by
  obtain ⟨-, w, x, y, z, old, rooms, rfl, hrid, hlast⟩ := ho
  refine ⟨w ++ .unbound sid cid :: (x ++ .bound sid owner old :: y), z, rooms,
    by simp, hrid, ?_⟩
  rw [Event.last?_append, Event.last?_cons, Event.last?_append, Event.last?_cons, hlast]
  rfl

end Crew

end EdgeGateway
