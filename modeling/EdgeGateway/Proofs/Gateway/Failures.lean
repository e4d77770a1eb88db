import EdgeGateway.Proofs.Gateway.Outbound

/-!
# Messages that are turned away

A worker turns a message away that it cannot read, or whose session or connection nobody knows. Two
kinds of message change the members of a room before it is seen whether there is anybody to deliver
them to; yet where the tables are coherent, a session that can be let into a room can also be
reached, and one that cannot be reached is in no room. So whoever turns a message away leaves
everything as it was, and does so before it waits for anything. The main statement is `turned_away`.
-/

namespace EdgeGateway

/-- The fault says that a message cannot be read, or that its session or its connection is not
known. -/
def Fault.TurnsAway (e : Fault) : Prop :=
  e.kind = .malformedFrame ∨ e.kind = .codec ∨ e.kind = .sessionNotFound ∨
    e.kind = .connectionNotFound

/-- Whether a fault turns a message away shows in its kind. -/
instance (e : Fault) : Decidable e.TurnsAway := inferInstanceAs (Decidable (_ ∨ _))

namespace Downlink

variable {h h' : Hub} {d d' : Downlink} {o : Outcome}

/-- The fault of a handling that begins, if nobody knows the connection or the session that it is
about. -/
def missing? (h : Hub) : Downlink → Option Fault
  | judge _ ack =>
    if h.conns.get? ack.cid = none then some (.connectionNotFound ack.cid) else none
  | kick m | deliver m | join m _ _ | leave m _ =>
    if h.router.lookup m.sid = none then some (.sessionNotFound m.sid) else none
  | _ => none

/-- Everybody is there whom a handling is still to look up. -/
def Attended (h : Hub) : Downlink → Prop
  | received .. => False
  | judge _ ack => (h.conns.get? ack.cid).isSome
  | kick m | deliver m | join m _ _ | enter m _ _ _ | leave m _ =>
    ∃ cid, h.router.lookup m.sid = some cid ∧ (h.conns.get? cid).isSome
  | reachKicked _ cid | reach _ cid => (h.conns.get? cid).isSome
  | hand _ cid => (h.conns.find? cid).isSome
  | _ => True

/-- What a step leads to looks up nobody who is not there, and turns nothing away. -/
def Outcome.Attended (h : Hub) : Outcome → Prop
  | .next d => d.Attended h
  | .done (.error e) => ¬ e.TurnsAway
  | .done (.ok _) => True

private theorem not_turnsAway_of_send {c : Connection} {m : Message} {e : Fault}
    (h : c.send m = .error e) : ¬ e.TurnsAway := by
  unfold Connection.send at h
  split at h
  · cases h
    rintro (h | h | h | h) <;> cases h
  · split at h <;> cases h
    rintro (h | h | h | h) <;> cases h

private theorem Attended.step (hd : d.Attended h)
    (hs : d.step h = some (h', o)) : o.Attended h' := by
  cases d with
  | received kind body => exact hd.elim
  | judge m ack =>
    obtain ⟨c, hc⟩ := Option.isSome_iff_exists.1 hd
    simp only [Downlink.step, hc] at hs
    cases hs
    show Downlink.Attended h (if _ then _ else _)
    split <;> trivial
  | verify m cid =>
    simp only [Downlink.step] at hs
    split at hs <;> cases hs
    · next c hf =>
      show Downlink.Attended h (if _ then _ else _)
      split
      · trivial
      · exact Option.isSome_iff_exists.2 ⟨c, hf⟩
    · trivial
  | waiting ticket after =>
    simp only [Downlink.step] at hs
    split at hs <;> cases hs
    · cases after <;> trivial
    · rintro (h | h | h | h) <;> cases h
  | kick m | deliver m =>
    obtain ⟨cid, hl, hc⟩ := hd
    simp only [Downlink.step, hl] at hs
    cases hs
    exact hc
  | join m rid gid =>
    obtain ⟨cid, hl, hc⟩ := hd
    simp only [Downlink.step, hl] at hs
    cases hs
    exact ⟨cid, hl, hc⟩
  | enter m rid gid cid | leave m rid =>
    cases hs
    exact hd
  | reachKicked m cid =>
    obtain ⟨c, hc⟩ := Option.isSome_iff_exists.1 hd
    simp only [Downlink.step, hc] at hs
    cases hs
    trivial
  | reach m cid =>
    obtain ⟨c, hc⟩ := Option.isSome_iff_exists.1 hd
    simp only [Downlink.step, hc] at hs
    cases hs
    exact Option.isSome_iff_exists.2 ⟨c, (Connections.get?_eq_some_iff.1 hc).2⟩
  | hand m cid =>
    obtain ⟨c, hf⟩ := Option.isSome_iff_exists.1 hd
    simp only [Downlink.step, hf] at hs
    split at hs <;> cases hs
    · trivial
    · next he => exact not_turnsAway_of_send he
  | fanOut m members =>
    cases members with
    | nil =>
      cases hs
      trivial
    | cons x members =>
      simp only [Downlink.step] at hs
      split at hs <;> cases hs <;> trivial
  | _ =>
    simp only [Downlink.step, Hub.evict] at hs
    repeat' split at hs
    all_goals cases hs
    all_goals trivial

private theorem last_step_of_go {P : Hub → Downlink → Prop}
    (next : ∀ {h h' d d'}, P h d → d.step h = some (h', .next d') → P h' d') {fuel : Nat}
    {r : Except Fault Unit} (hp : P h d) (hr : (run.go fuel h d).2 = .finished r) :
    ∃ h₀ d₀, P h₀ d₀ ∧ d₀.step h₀ = some ((run.go fuel h d).1, .done r) := by
  induction fuel generalizing h d with
  | zero => cases hr
  | succ fuel ih =>
    simp only [run.go] at hr ⊢
    split at hr
    · cases hr
    · next h' d' hs => exact ih (next hp hs) hr
    · next h' r' hs =>
      cases hr
      exact ⟨h, d, hp, hs⟩

-- What holds before a handling and is carried on by every step holds before the last one.
private theorem exists_last_step {P : Hub → Downlink → Prop}
    (next : ∀ {h h' d d'}, P h d → d.step h = some (h', .next d') → P h' d')
    {r : Except Fault Unit} (hp : P h d) (hr : (d.run h).2 = .finished r) :
    ∃ h₀ d₀, P h₀ d₀ ∧ d₀.step h₀ = some ((d.run h).1, .done r) :=
  last_step_of_go next hp hr

private theorem Attended.run (hd : d.Attended h) {e : Fault}
    (hr : (d.run h).2 = .finished (.error e)) : ¬ e.TurnsAway := by
  obtain ⟨h₀, d₀, hd₀, hs⟩ := exists_last_step (P := fun h d ↦ d.Attended h)
    (fun hd hs ↦ hd.step hs) hd hr
  exact hd₀.step hs

private theorem attended_of_lookup (hc : h.Coherent) {sid : UInt64}
    (hl : h.router.lookup sid ≠ none) :
    ∃ cid, h.router.lookup sid = some cid ∧ (h.conns.get? cid).isSome := by
  obtain ⟨cid, hl⟩ := Option.ne_none_iff_exists'.1 hl
  obtain ⟨-, c, hf, -⟩ := hc.owner sid cid hl
  have hlive := hc.reachable sid cid hl nofun
  exact ⟨cid, hl,
    Option.isSome_iff_exists.2 ⟨c, Connections.get?_eq_some_iff.2 ⟨hlive, hf⟩⟩⟩

private theorem attended_of_begins (hc : h.Coherent) {m : Message} (hb : Begins m d)
    (hm : d.missing? h = none) : d.Attended h := by
  cases hb with
  | judge ack =>
    simp only [missing?, ite_eq_right_iff, reduceCtorEq, imp_false] at hm
    exact Option.isSome_iff_ne_none.2 hm
  | kick | deliver | join | leave =>
    simp only [missing?, ite_eq_right_iff, reduceCtorEq, imp_false] at hm
    exact attended_of_lookup hc hm
  | gather => trivial

private theorem leave_unrouted (hc : h.Coherent) {m : Message} {rid : UInt64}
    (hl : h.router.lookup m.sid = none) :
    (leave m rid).step h = some (h, .next (.deliver m)) := by
  have hn : h.rooms.carrier? m.sid = none := by
    cases hcar : h.rooms.carrier? m.sid with
    | none => rfl
    | some cid => cases hl.symm.trans (hc.carried m.sid cid hcar nofun)
  have hg : h.rooms.group? rid m.sid = none := by
    by_contra hg
    have hp : h.rooms.Present m.sid := .inr ⟨rid, Option.isSome_iff_ne_none.2 hg⟩
    rw [hc.mirrored.present_iff, hn] at hp
    cases hp
  rw [step, Rooms.quit_of_group?_eq_none hc.mirrored hg]

private theorem run_of_missing? (hc : h.Coherent) {m : Message} (hb : Begins m d) {e : Fault}
    (hm : d.missing? h = some e) : d.run h = (h, .finished (.error e)) ∧ e.TurnsAway := by
  cases hb with
  | judge ack =>
    obtain ⟨hn, he⟩ := Option.ite_none_right_eq_some.1 hm
    cases he
    exact ⟨run_of_done (by simp only [step, hn]), .inr (.inr (.inr rfl))⟩
  | kick | deliver | join =>
    obtain ⟨hl, he⟩ := Option.ite_none_right_eq_some.1 hm
    cases he
    exact ⟨run_of_done (by simp only [step, hl]), .inr (.inr (.inl rfl))⟩
  | leave rid =>
    obtain ⟨hl, he⟩ := Option.ite_none_right_eq_some.1 hm
    cases he
    rw [run_of_next (leave_unrouted hc hl)]
    exact ⟨run_of_done (by simp only [step, hl]), .inr (.inr (.inl rfl))⟩
  | gather => cases hm

private theorem turnsAway_ofMessage {kind : DownlinkKind} {m : Message} {e : Fault}
    (h : ofMessage kind m = .error e) : e.TurnsAway := by
  have hcodec : ∀ c : CodecFault, (Fault.codec c).TurnsAway := fun c ↦ .inr (.inl rfl)
  cases kind <;> simp only [ofMessage] at h
  case kick | session => cases h
  all_goals
    split at h <;> cases h
    exact hcodec _

end Downlink

/-! ### Whole handlings -/

/-- The fault for which a message is turned away, if it is: either it cannot be read, or somebody is
missing. -/
def Hub.fault? (h : Hub) (kind : DownlinkKind) (body : Bytes) : Option Fault :=
  match Packet.parse (H := SessionHeader) body with
  | .error e => some (.malformedFrame e)
  | .ok m =>
    match Downlink.ofMessage kind m with
    | .error e => some e
    | .ok d => d.missing? h

namespace Downlink

variable {h : Hub} {kind : DownlinkKind} {body : Bytes} {e : Fault}

private theorem run_of_fault? (hc : h.Coherent) (hf : h.fault? kind body = some e) :
    (received kind body).run h = (h, .finished (.error e)) ∧ e.TurnsAway := by
  unfold Hub.fault? at hf
  split at hf
  · next hp =>
    cases hf
    exact ⟨run_of_done (by simp only [step, hp]), .inl rfl⟩
  · next m hp =>
    split at hf
    · next hm =>
      cases hf
      exact ⟨run_of_done (by simp only [step, hp, hm]), turnsAway_ofMessage hm⟩
    · next d hm =>
      have hs : (received kind body).step h = some (h, .next d) := by simp only [step, hp, hm]
      rw [run_of_next hs]
      exact run_of_missing? hc (begins_ofMessage hm) hf

private theorem fault?_of_run (hc : h.Coherent)
    (hr : ((received kind body).run h).2 = .finished (.error e)) (he : e.TurnsAway) :
    h.fault? kind body = some e := by
  cases hf : h.fault? kind body with
  | some e' =>
    rw [(run_of_fault? hc hf).1] at hr
    cases hr
    rfl
  | none =>
    exfalso
    unfold Hub.fault? at hf
    split at hf
    · cases hf
    · next m hp =>
      split at hf
      · cases hf
      · next d hm =>
        have hs : (received kind body).step h = some (h, .next d) := by simp only [step, hp, hm]
        rw [run_of_next hs] at hr
        exact (attended_of_begins hc (begins_ofMessage hm) hf).run hr he

/-- The fault with which a handling ends. -/
def Pause.fault? : Pause → Option Fault
  | .finished (.error e) => some e
  | _ => none

/-- A fault is what a handling has finished with. -/
theorem Pause.fault?_eq_some_iff {p : Pause} : p.fault? = some e ↔ p = .finished (.error e) := by
  unfold fault?
  split <;> simp_all

end Downlink

namespace Gateway

variable {s : Settings} {g : Gateway}

/-- The fault with which the handling of a message ends in a move. -/
def failure? (g : Gateway) : Move → Option Fault
  | .fetchCall i w => do
    let f ← g.fetched? (.fetchCall i w)
    let kind ← downlinkCommands.lookup f.cmd
    ((Downlink.received kind f.body).run g.hub).2.fault?
  | .resumeCall i w =>
    match g.pool.worker? i w with
    | some (.busy d) => (d.run g.hub).2.fault?
    | _ => none
  | _ => none

private theorem fault?_of_failure? (hg : g.Settled) {m : Move} {e : Fault}
    (hf : g.failure? m = some e) (he : e.TurnsAway) :
    ∃ i w f kind, m = .fetchCall i w ∧ g.fetched? m = some f ∧
      downlinkCommands.lookup f.cmd = some kind ∧ g.hub.fault? kind f.body = some e := by
  cases m with
  | fetchCall i w =>
    obtain ⟨f, hfetched, hf⟩ := Option.bind_eq_some_iff.1 hf
    obtain ⟨kind, hk, hf⟩ := Option.bind_eq_some_iff.1 hf
    have hr := Downlink.Pause.fault?_eq_some_iff.1 hf
    exact ⟨i, w, f, kind, rfl, hfetched, hk, Downlink.fault?_of_run hg.coherent hr he⟩
  | resumeCall i w =>
    exfalso
    simp only [failure?] at hf
    split at hf
    · next d hd =>
      obtain ⟨ticket, after, rfl⟩ := hg.calls.of_worker? hd
      have hr := Downlink.Pause.fault?_eq_some_iff.1 hf
      have hattended : (Downlink.waiting ticket after).Attended g.hub := trivial
      exact hattended.run hr he
    · cases hf
  | _ => cases hf

/-- Wherever orderly moves lead, a message of any kind that is turned away leaves all tables,
connections and queues as they were, and it is turned away just when it cannot be read or somebody
is missing. A worker does so in the very move in which it takes the message, and sends nothing. -/
theorem turned_away (hg : ReachableBy s Orderly g) :
    (∀ kind body h' e, (Downlink.received kind body).run g.hub = (h', .finished (.error e)) →
      e.TurnsAway → h' = g.hub ∧ g.hub.fault? kind body = some e) ∧
    (∀ kind body e, g.hub.fault? kind body = some e →
      (Downlink.received kind body).run g.hub = (g.hub, .finished (.error e)) ∧ e.TurnsAway) ∧
    ∀ m g' e, g.move? m = some g' → g.failure? m = some e → e.TurnsAway →
      g'.hub = g.hub ∧ g'.pool.outlet = g.pool.outlet ∧ ∃ i w, m = .fetchCall i w := by
  have hs := settled_of_reachable hg
  refine ⟨?_, fun kind body e ↦ Downlink.run_of_fault? hs.coherent, ?_⟩
  · intro kind body h' e hr he
    have hf := Downlink.fault?_of_run hs.coherent (congrArg Prod.snd hr) he
    obtain ⟨hr', -⟩ := Downlink.run_of_fault? hs.coherent hf
    cases hr.symm.trans hr'
    exact ⟨rfl, hf⟩
  · intro m g' e hm hf he
    obtain ⟨i, w, f, kind, rfl, hfetched, hk, hf⟩ := fault?_of_failure? hs hf he
    refine ⟨?_, outlet_fetchCall hm, i, w, rfl⟩
    obtain ⟨⟨f', pool⟩, hfetch, hfetched⟩ := Option.map_eq_some_iff.1 hfetched
    cases hfetched
    simp only [move?, fetchCall, hfetch, Option.bind_eq_bind, Option.bind_some, hk] at hm
    cases hm
    rw [hub_runCall, (Downlink.run_of_fault? hs.coherent hf).1]

/-- A session is in a room, and the backend removes another session from it that nobody knows. -/
def Takeover.removing : List Move :=
  opened ++ handling (.entry 42 7 1) ++
    [.backendSays 0
        ((Message.make .roomKickNotice 0 43 (Body.encode ({ rid := 7 } : RoomQuit))).wrap 0).bytes,
      .link (.read 0)]

/-- The notice is turned away, and whoever is in the room stays there. -/
theorem turned_away_removing :
    ∃ g g', ReachableBy Takeover.settings Orderly g ∧ g.move? (.fetchCall 0 0) = some g' ∧
      g.failure? (.fetchCall 0 0) = some (.sessionNotFound 43) ∧
      g.hub.rooms.group? 7 42 = some 1 ∧ g'.hub = g.hub ∧ g'.pool.outlet = g.pool.outlet := by
  have hview : ((fresh Takeover.settings).orderlyRun? Takeover.removing).bind (fun g ↦ do
      let _ ← g.move? (.fetchCall 0 0)
      let e ← g.failure? (.fetchCall 0 0)
      return decide (e = .sessionNotFound 43 ∧ g.hub.rooms.group? 7 42 = some 1)) =
        some true := by
    decide +kernel
  obtain ⟨g, hrun, hview⟩ := Option.bind_eq_some_iff.1 hview
  obtain ⟨g', hm, hview⟩ := Option.bind_eq_some_iff.1 hview
  obtain ⟨e, hf, hview⟩ := Option.bind_eq_some_iff.1 hview
  obtain ⟨rfl, hroom⟩ := of_decide_eq_true (Option.some.inj hview)
  have hg := ReachableBy.fresh.orderlyRun hrun
  obtain ⟨hhub, houtlet, -⟩ := (turned_away hg).2.2 _ g' _ hm hf (by decide)
  exact ⟨g, g', hg, hm, hf, hroom, hhub, houtlet⟩

end Gateway

end EdgeGateway
