import EdgeGateway.Proofs.Gateway.Race

/-!
# Keeping records in step with routes

The record of a session in the rooms is written after its route has been looked up or changed, by
another operation. Somebody who has changed a route and is to see to the record makes the session
lag; when nobody is, the record names the connection that the session is routed to just when it was
written at a time when it did so.
-/

namespace EdgeGateway

/-! ### What is told last -/

namespace Event

/-- The connection that the record of a session comes to name, and where the session is routed then.
-/
def record? (sid : UInt64) : Event → Option (UInt64 × Option UInt64)
  | recorded s k _ route => if s = sid then some (k, route) else none
  | _ => none

/-- The connection by way of which a session enters a room. -/
def entered? (sid rid : UInt64) : Event → Option UInt64
  | recorded s k room _ => if s = sid ∧ room = some rid then some k else none
  | _ => none

/-- The last that the events of a run tell of something. -/
def last? {α : Type} (told : Event → Option α) (tr : List Event) : Option α :=
  tr.reverse.findSome? told

variable {α : Type} {told : Event → Option α} {tr : List Event}

/-- What is told later takes precedence. -/
theorem last?_append (told : Event → Option α) (tr tr' : List Event) :
    last? told (tr ++ tr') = (last? told tr').or (last? told tr) := by
  rw [last?, List.reverse_append, List.findSome?_append]
  rfl

/-- What is told first counts only if nothing is told later. -/
theorem last?_cons (told : Event → Option α) (e : Event) (tr : List Event) :
    last? told (e :: tr) = (last? told tr).or (told e) := by
  rw [last?, List.reverse_cons, List.findSome?_append]
  simp [last?]

private theorem last?_append_of_told {e : Option Event} {x : α} (he : e.bind told = some x) :
    last? told (tr ++ e.toList) = some x := by
  obtain ⟨e, rfl, ht⟩ := Option.bind_eq_some_iff.1 he
  rw [Option.toList_some, last?_append, last?_cons, ht]
  rfl

private theorem last?_append_of_untold {e : Option Event} (he : e.bind told = none) :
    last? told (tr ++ e.toList) = last? told tr := by
  cases e with
  | none => rw [Option.toList_none, List.append_nil]
  | some e =>
    rw [Option.toList_some, last?_append, last?_cons, show told e = none from he]
    rfl

/-- What is told last is told. -/
theorem exists_of_last? {x : α} (hx : last? told tr = some x) : ∃ e ∈ tr, told e = some x := by
  obtain ⟨e, he, ht⟩ := List.exists_of_findSome?_eq_some hx
  exact ⟨e, List.mem_reverse.1 he, ht⟩

/-- When the record of a session was written last, the session was routed to the connection that the
record has named since. -/
def Timely (tr : List Event) (sid : UInt64) : Prop :=
  ∀ r ∈ last? (·.record? sid) tr, r.2 = some r.1

end Event

/-! ### What is still to be done for a session -/

/-- The release has taken the route of a session away and is to take the session out of its rooms.
-/
def Release.Owes (sid cid : UInt64) : Release → Prop
  | .clear k s _ => s = sid ∧ k = cid
  | _ => False

/-- The ending has taken the route of a session away and is to take the session out of its rooms. -/
def Closing.Owes (sid cid : UInt64) : Closing → Prop
  | .release _ r => r.Owes sid cid
  | _ => False

namespace Downlink

/-- The handling has taken the route of a session away and is to take the session out of its rooms.
-/
def Owes (sid cid : UInt64) : Downlink → Prop
  | release r => r.Owes sid cid
  | _ => False

/-- The handling has routed a session and is to make its record follow. -/
def Trails (sid : UInt64) : Downlink → Prop
  | rebind m _ _ => m.sid = sid
  | _ => False

end Downlink

namespace Crew

/-- Somebody has taken the route of a session to a connection away and is to take the session out of
its rooms. -/
def Owing (c : Crew) (sid cid : UInt64) : Prop :=
  (∃ d ∈ c.calls, d.Owes sid cid) ∨ ∃ e ∈ c.endings, e.Owes sid cid

/-- Somebody is to make the record of a session follow its route. -/
def Lagging (c : Crew) (sid : UInt64) : Prop :=
  (∃ d ∈ c.calls, d.Trails sid) ∨ ∃ cid, c.Owing sid cid

end Crew

variable {h h' : Hub} {sid cid : UInt64}

/-! ### What single operations do to the record of a session -/

private theorem Release.record?_event (r : Release) (h : Hub) (sid : UInt64) :
    (r.event? h).bind (·.record? sid) = none := by
  cases r with
  | inspect k => rfl
  | unbind k s status =>
    simp only [event?]
    split <;> rfl
  | clear k s status => rfl

/-- A session that is in a room after an operation of a release was so before, by the same record;
if the release has taken its route away, the release is to take it out of its rooms. -/
theorem Release.carrier?_step {r : Release} {o : Option Release} (hm : h.rooms.Mirrored)
    (hs : r.step h = (h', o)) (hc : h'.rooms.carrier? sid = some cid) :
    (∃ r' ∈ o, ∃ k, r'.Owes sid k) ∨
    ((∀ k, ¬ r.Owes sid k) ∧ h.rooms.carrier? sid = some cid ∧
      h'.router.lookup sid = h.router.lookup sid) := by
  cases r with
  | inspect k =>
    have hh : h' = h := by
      simp only [step] at hs
      split at hs <;> cases hs <;> rfl
    subst hh
    exact .inr ⟨fun k ho ↦ ho, hc, rfl⟩
  | unbind k s status =>
    rw [step_unbind] at hs
    split at hs <;> cases hs
    · by_cases hsid : sid = s
      · exact .inl ⟨_, rfl, k, hsid.symm, rfl⟩
      · have hu := Router.lookup_unbind h.router s k sid
        rw [if_neg fun hx ↦ hsid hx.1] at hu
        exact .inr ⟨fun k ho ↦ ho, hc, hu⟩
    · exact .inr ⟨fun k ho ↦ ho, hc, rfl⟩
  | clear k s status =>
    have hrooms : h'.rooms = (h.rooms.removeSession s).2 ∧ h'.router = h.router := by
      simp only [step] at hs
      cases hs
      split <;> exact ⟨rfl, rfl⟩
    rw [hrooms.1, Rooms.carrier?_removeSession hm] at hc
    split at hc
    · cases hc
    · next hsid =>
      refine .inr ⟨?_, hc, by rw [hrooms.2]⟩
      rintro k ⟨rfl, -⟩
      exact hsid rfl

/-- The same for an operation of an ending. -/
theorem Closing.carrier?_step {e : Closing} {o : Option Closing} (hm : h.rooms.Mirrored)
    (hs : e.step h = (h', o)) (hc : h'.rooms.carrier? sid = some cid) :
    (∃ e' ∈ o, ∃ k, e'.Owes sid k) ∨
    ((∀ k, ¬ e.Owes sid k) ∧ h.rooms.carrier? sid = some cid ∧
      h'.router.lookup sid = h.router.lookup sid) := by
  cases e with
  | deregister k =>
    cases hs
    exact .inr ⟨fun k ho ↦ ho, hc, rfl⟩
  | release k r =>
    simp only [step] at hs
    split at hs <;> cases hs
    · next r' hr =>
      rcases Release.carrier?_step hm hr hc with ⟨r'', hr', hk⟩ | hkept
      · cases hr'
        exact .inl ⟨_, rfl, hk⟩
      · exact .inr hkept
    · next hr =>
      rcases Release.carrier?_step hm hr hc with ⟨r'', hr', hk⟩ | hkept
      · cases hr'
      · exact .inr hkept
  | retire k =>
    cases hs
    exact .inr ⟨fun k ho ↦ ho, hc, rfl⟩

private theorem Closing.record?_event (e : Closing) (h : Hub) (sid : UInt64) :
    (e.event? h).bind (·.record? sid) = none := by
  cases e with
  | release k r => exact r.record?_event h sid
  | _ => rfl

/-- A session that is in a room after an operation of a handling is lagging behind then, or the
operation has written its record, or its record and its route are as before. -/
theorem Downlink.carrier?_step {d : Downlink} {o : Outcome} (hn : h.conns.Numbered)
    (hm : h.rooms.Mirrored) (hs : d.step h = some (h', o))
    (hc : h'.rooms.carrier? sid = some cid) :
    (∃ d' ∈ o.calls, d'.Trails sid ∨ ∃ k, d'.Owes sid k) ∨
    ((d.event? h).bind (·.record? sid) = some (cid, h'.router.lookup sid)) ∨
    (¬ d.Trails sid ∧ (∀ k, ¬ d.Owes sid k) ∧ h.rooms.carrier? sid = some cid ∧
      h'.router.lookup sid = h.router.lookup sid ∧
      (d.event? h).bind (·.record? sid) = none) := by
  cases d with
  | logon m k uid =>
    simp only [step] at hs
    split at hs <;> cases hs <;> exact .inr (.inr ⟨id, fun k ho ↦ ho, hc, rfl, rfl⟩)
  | bind m k =>
    have hl := Router.lookup_bind h.router m.sid k sid
    cases hs
    by_cases hsid : sid = m.sid
    · exact .inl ⟨_, List.mem_singleton_self _, .inl hsid.symm⟩
    · rw [if_neg hsid] at hl
      exact .inr (.inr ⟨id, fun k ho ↦ ho, hc, hl, rfl⟩)
  | rebind m k displaced =>
    have hh : h'.rooms = (h.rooms.rebind m.sid k).2 ∧ h'.router = h.router := by
      simp only [step] at hs
      split at hs <;> cases hs <;> exact ⟨rfl, rfl⟩
    rw [hh.1, Rooms.carrier?_rebind] at hc
    rw [hh.2]
    refine .inr ?_
    split at hc
    · next hsid =>
      subst hsid
      obtain ⟨_, hp, rfl⟩ := Option.map_eq_some_iff.1 hc
      refine .inl ?_
      simp [event?, hp, Event.record?]
    · next hsid =>
      refine .inr ⟨fun hx ↦ hsid (Eq.symm hx), fun k ho ↦ ho, hc, rfl, ?_⟩
      simp only [event?]
      split
      · exact if_neg fun hx ↦ hsid hx.symm
      · rfl
  | enter m rid gid k =>
    cases hs
    rw [show Rooms.carrier? _ sid = _ from Rooms.carrier?_join h.rooms rid gid m.sid k sid] at hc
    refine .inr ?_
    split at hc
    · next hsid =>
      subst hsid
      cases hc
      exact .inl (if_pos rfl)
    · next hsid =>
      exact .inr ⟨id, fun k ho ↦ ho, hc, rfl, if_neg fun hx ↦ hsid hx.symm⟩
  | release r =>
    simp only [step] at hs
    split at hs <;> cases hs
    · next r' hr =>
      rcases Release.carrier?_step hm hr hc with ⟨r'', hr', hk⟩ | ⟨howes, hkept⟩
      · cases hr'
        exact .inl ⟨_, List.mem_singleton_self _, .inr hk⟩
      · exact .inr (.inr ⟨id, howes, hkept.1, hkept.2, r.record?_event h sid⟩)
    · next hr =>
      rcases Release.carrier?_step hm hr hc with ⟨r'', hr', hk⟩ | ⟨howes, hkept⟩
      · cases hr'
      · exact .inr (.inr ⟨id, howes, hkept.1, hkept.2, r.record?_event h sid⟩)
  | _ =>
    have hch := changes_of_step hs trivial hn
    have hl : h'.router.lookup sid = h.router.lookup sid := by rw [hch.router]
    exact .inr (.inr ⟨id, fun k ho ↦ ho, hch.carrier? hm hc, hl, rfl⟩)

/-! ### Records and routes along a run -/

namespace Crew

variable {feed : DownlinkKind → Bytes → Prop} {start : Hub} {c c' : Crew} {tr : List Event}

/-- Unless somebody is to make the record of a session follow, it names the connection that the
session is routed to just when it was written in time. -/
def Tracked (tr : List Event) (c : Crew) : Prop :=
  ∀ sid cid, c.hub.rooms.carrier? sid = some cid →
    c.Lagging sid ∨ (c.hub.router.lookup sid = some cid ↔ Event.Timely tr sid)

private theorem timely_iff_of_told {e : Option Event} {route : Option UInt64}
    (he : e.bind (·.record? sid) = some (cid, route)) :
    Event.Timely (tr ++ e.toList) sid ↔ route = some cid := by
  rw [Event.Timely, Event.last?_append_of_told he]
  simp

private theorem timely_iff_of_untold {e : Option Event} (he : e.bind (·.record? sid) = none) :
    Event.Timely (tr ++ e.toList) sid ↔ Event.Timely tr sid := by
  rw [Event.Timely, Event.Timely, Event.last?_append_of_untold he]

private theorem Tracked.call {h h' : Hub} {d : Downlink} {o : Downlink.Outcome}
    {a b : List Downlink} {es : List Closing} (ht : Tracked tr ⟨h, a ++ d :: b, es⟩)
    (hc : Sound ⟨h, a ++ d :: b, es⟩) (hs : d.step h = some (h', o)) :
    Tracked (tr ++ (d.event? h).toList) ⟨h', a ++ o.calls ++ b, es⟩ := by
  intro sid cid hcarrier
  rcases Downlink.carrier?_step hc.numbered hc.mirrored hs hcarrier with
    ⟨d', hd', htrails | ⟨k, howes⟩⟩ | htold | ⟨htrails, howes, hbefore, hl, hu⟩
  · exact .inl (.inl (exists_becoming ⟨d', hd', htrails⟩))
  · exact .inl (.inr ⟨k, .inl (exists_becoming ⟨d', hd', howes⟩)⟩)
  · exact .inr (timely_iff_of_told htold).symm
  · rcases ht sid cid hbefore with hlag | hiff
    · refine .inl ?_
      rcases hlag with hcall | ⟨k, hcall | hending⟩
      · exact .inl ((exists_replaced hcall).resolve_left htrails)
      · exact .inr ⟨k, .inl ((exists_replaced hcall).resolve_left (howes k))⟩
      · exact .inr ⟨k, .inr hending⟩
    · refine .inr ?_
      rw [timely_iff_of_untold hu, ← hiff]
      show h'.router.lookup sid = _ ↔ _
      rw [hl]

private theorem Tracked.ending {h h' : Hub} {e : Closing} {o : Option Closing}
    {ds : List Downlink} {a b : List Closing} (ht : Tracked tr ⟨h, ds, a ++ e :: b⟩)
    (hc : Sound ⟨h, ds, a ++ e :: b⟩) (hs : e.step h = (h', o)) :
    Tracked (tr ++ (e.event? h).toList) ⟨h', ds, a ++ o.toList ++ b⟩ := by
  intro sid cid hcarrier
  rcases Closing.carrier?_step hc.mirrored hs hcarrier with
    ⟨e', he', k, howes⟩ | ⟨howes, hbefore, hl⟩
  · exact .inl (.inr ⟨k, .inr (exists_becoming ⟨e', Option.mem_toList.2 he', howes⟩)⟩)
  · rcases ht sid cid hbefore with hlag | hiff
    · refine .inl ?_
      rcases hlag with hcall | ⟨k, hcall | hending⟩
      · exact .inl hcall
      · exact .inr ⟨k, .inl hcall⟩
      · exact .inr ⟨k, .inr ((exists_replaced hending).resolve_left (howes k))⟩
    · refine .inr ?_
      rw [timely_iff_of_untold (e.record?_event h sid), ← hiff]
      show h'.router.lookup sid = _ ↔ _
      rw [hl]

/-- No act makes a record name another connection than the route without somebody to see to it. -/
theorem Tracked.act {e : Option Event} (ht : Tracked tr c) (hc : c.Sound)
    (ha : Act feed c e c') : Tracked (tr ++ e.toList) c' := by
  cases ha with
  | change hch =>
    intro sid cid hcarrier
    rw [Option.toList_none, List.append_nil, hch.router]
    exact ht sid cid (hch.carrier? hc.mirrored hcarrier)
  | receive hn =>
    intro sid cid hcarrier
    rw [Option.toList_none, List.append_nil]
    refine (ht sid cid hcarrier).imp_left ?_
    rintro (⟨d, hd, hk⟩ | ⟨k, ⟨d, hd, hk⟩ | hending⟩)
    · exact .inl ⟨d, List.mem_cons_of_mem _ hd, hk⟩
    · exact .inr ⟨k, .inl ⟨d, List.mem_cons_of_mem _ hd, hk⟩⟩
    · exact .inr ⟨k, .inr hending⟩
  | call hs => exact ht.call hc hs
  | depart hf hcl hlive hno =>
    intro sid cid hcarrier
    rw [Option.toList_none, List.append_nil]
    refine (ht sid cid hcarrier).imp_left ?_
    rintro (hcall | ⟨k, hcall | ⟨e, he, hk⟩⟩)
    · exact .inl hcall
    · exact .inr ⟨k, .inl hcall⟩
    · exact .inr ⟨k, .inr ⟨e, List.mem_cons_of_mem _ he, hk⟩⟩
  | ending hs => exact ht.ending hc hs

/-- Wherever a run from coherent tables leads, records and routes are in step as far as they were
written in time. -/
theorem Run.tracked (hr : Run feed { hub := start } tr c) (hc : start.Coherent) :
    Tracked tr c := by
  refine hr.kept (P := Tracked) hc ?_ ?_
  · intro sid cid hcarrier
    refine .inr (iff_of_true (hc.carried sid cid hcarrier nofun) ?_)
    intro r hr
    cases hr
  · intro tr c e c' hs ht ha
    exact ht.act hs ha

end Crew

end EdgeGateway
