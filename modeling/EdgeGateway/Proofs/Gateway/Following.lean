import EdgeGateway.Proofs.Gateway.Overtaking

/-!
# Whether rooms follow routes

Whoever lets a session into a room looks up its route first and writes its record afterwards, and a
release takes the route of a session away first and takes the session out of its rooms afterwards.
In between, the session may be let go or be taken over. `rooms_follow_routes_iff` says exactly when
this leaves a record that names another connection than the route, and when it takes a session out
of a room that it has entered by way of its next connection.
-/

namespace EdgeGateway.Crew

variable {feed : DownlinkKind → Bytes → Prop} {start : Hub} {c : Crew} {tr : List Event}

/-- However handlings and endings interleave: once all have finished, a session that is in a room is
routed to the connection that its record names just when the record was written in time; and a
session is taken out of a room that it has entered by way of its present connection, by the release
of another, just when it was taken over and entered the room between the two operations of that
release. -/
theorem rooms_follow_routes_iff (hc : start.Coherent) (hr : Run feed { hub := start } tr c)
    (hcalls : c.calls = []) (hendings : c.endings = []) :
    (∀ sid, c.hub.rooms.Present sid →
      ((∃ cid, c.hub.rooms.carrier? sid = some cid ∧ c.hub.router.lookup sid = some cid) ↔
        Event.Timely tr sid)) ∧
    ∀ sid rid cid owner,
      Event.Deprived tr sid rid cid owner ↔ Event.Overtaken tr sid rid cid owner := by
  have hrest : ∀ sid, ¬ c.Lagging sid := by
    intro sid
    rintro (⟨d, hd, -⟩ | ⟨k, ⟨d, hd, -⟩ | ⟨e, he, -⟩⟩)
    · rw [hcalls] at hd
      cases hd
    · rw [hcalls] at hd
      cases hd
    · rw [hendings] at he
      cases he
  refine ⟨?_,
    fun sid rid cid owner ↦ ⟨overtaken_of_deprived hc hr, deprived_of_overtaken⟩⟩
  intro sid hpresent
  rw [(hr.sound hc).mirrored.present_iff] at hpresent
  obtain ⟨k, hk⟩ := Option.isSome_iff_exists.1 hpresent
  have hiff := (hr.tracked hc sid k hk).resolve_left (hrest sid)
  rw [← hiff, hk]
  refine ⟨?_, fun hl ↦ ⟨k, rfl, hl⟩⟩
  rintro ⟨cid, hcid, hl⟩
  cases hcid
  exact hl

/-- A client connects and is given session 42. -/
def admission (cid : UInt64) : List Deed :=
  [.connect, .request cid, .receive .verdict (Message.opening 42 cid).bytes] ++
    List.replicate 7 (.call 0)

/-- The route of session 42 is looked up for room 7, the connection ends, and then the session is
let into the room. -/
def orphaned : List Deed :=
  admission 1 ++ [.receive .joined (Message.entry 42 7 1).bytes, .call 0, .call 0, .close 1,
    .depart 1] ++ List.replicate 5 (.ending 0) ++ [.call 0, .call 0]

/-- The route of session 42 is taken away as its connection ends, the session is opened on another
and enters room 8, and then it is taken out of its rooms. -/
def robbed : List Deed :=
  admission 1 ++ [.close 1, .depart 1] ++ List.replicate 3 (.ending 0) ++ admission 2 ++
    [.receive .joined (Message.entry 42 8 1).bytes] ++ List.replicate 6 (.call 0) ++
    List.replicate 2 (.ending 0)

/-- The condition tells apart what becomes of a session that is let into a room too late. -/
theorem rooms_follow_routes_iff_orphaned :
    ∃ tr c, Run Naming { hub := Hub.empty 1 1 4 1000 } tr c ∧ c.calls = [] ∧
      c.endings = [] ∧
      c.hub.rooms.Present 42 ∧ ¬ Event.Timely tr 42 ∧ ¬ Event.Deprived tr 42 7 1 1 := by
  have hview : (run? { hub := Hub.empty 1 1 4 1000 } orphaned).map (fun r ↦
      (r.2.calls, r.2.endings, r.2.hub.rooms.carrier? 42, r.2.hub.router.lookup 42)) =
      some ([], [], some 1, none) := by
    decide +kernel
  obtain ⟨⟨tr, c⟩, hrun, hview⟩ := Option.map_eq_some_iff.1 hview
  simp only [Prod.mk.injEq] at hview
  obtain ⟨hcalls, hendings, hcarrier, hroute⟩ := hview
  have hr : Run Naming { hub := Hub.empty 1 1 4 1000 } tr c := run_of_run? .start hrun
  have hpresent : c.hub.rooms.Present 42 := .inl (by rw [hcarrier]; rfl)
  obtain ⟨hfollows, hdeprived⟩ :=
    rooms_follow_routes_iff (Hub.coherent_empty 1 1 4 1000) hr hcalls hendings
  refine ⟨tr, c, hr, hcalls, hendings, hpresent, ?_, ?_⟩
  · rw [← hfollows 42 hpresent]
    rintro ⟨cid, -, hl⟩
    rw [hroute] at hl
    cases hl
  · rw [hdeprived 42 7 1 1]
    exact fun ho ↦ ho.1 rfl

/-- A session can be left in a room without a route, and a release can take a session out of a room
that it has entered by way of the next connection. -/
theorem rooms_miss_routes :
    (∃ tr c, Run Naming { hub := Hub.empty 1 1 4 1000 } tr c ∧ c.calls = [] ∧
      c.endings = [] ∧
      c.hub.rooms.Present 42 ∧ c.hub.router.lookup 42 = none) ∧
    ∃ tr c, Run Naming { hub := Hub.empty 1 1 4 1000 } tr c ∧ c.calls = [] ∧
      c.endings = [] ∧ c.hub.router.lookup 42 = some 2 ∧ Event.Deprived tr 42 8 1 2 ∧
      c.hub.rooms.roomsOf 42 = [] := by
  constructor
  · have hview : (run? { hub := Hub.empty 1 1 4 1000 } orphaned).map (fun r ↦
        (r.2.calls, r.2.endings, r.2.hub.rooms.carrier? 42, r.2.hub.router.lookup 42)) =
        some ([], [], some 1, none) := by
      decide +kernel
    obtain ⟨⟨tr, c⟩, hrun, hview⟩ := Option.map_eq_some_iff.1 hview
    simp only [Prod.mk.injEq] at hview
    obtain ⟨hcalls, hendings, hcarrier, hroute⟩ := hview
    exact ⟨tr, c, run_of_run? .start hrun, hcalls, hendings,
      .inl (by rw [hcarrier]; rfl), hroute⟩
  · have hview : (run? { hub := Hub.empty 1 1 4 1000 } robbed).map (fun r ↦
        (r.1, r.2.calls, r.2.endings, r.2.hub.router.lookup 42 == some 2,
          (r.2.hub.rooms.roomsOf 42).isEmpty)) =
        some ([.bound 42 1 none, .unbound 42 1, .bound 42 2 none, .recorded 42 2 (some 8) (some 2),
          .cleared 42 1 (some 2) [8]], [], [], true, true) := by
      decide +kernel
    obtain ⟨⟨tr, c⟩, hrun, hview⟩ := Option.map_eq_some_iff.1 hview
    simp only [Prod.mk.injEq] at hview
    obtain ⟨htr, hcalls, hendings, hroute, hrooms⟩ := hview
    refine ⟨tr, c, run_of_run? .start hrun, hcalls, hendings, eq_of_beq hroute, ?_,
      List.isEmpty_iff.1 hrooms⟩
    rw [htr]
    exact ⟨[.bound 42 1 none, .unbound 42 1, .bound 42 2 none, .recorded 42 2 (some 8) (some 2)],
      [], [8], rfl, List.mem_singleton_self _, by decide⟩

end EdgeGateway.Crew
