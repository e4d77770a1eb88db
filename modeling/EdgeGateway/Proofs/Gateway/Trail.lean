import EdgeGateway.Proofs.Gateway.Standing

/-!
# Runs with their history

A trail is a run together with the moves that were made, each with the state in which it was made.
`Trail.follow` is the induction over a run from the point of view of one connection: the connection
is not there, then it is new, and then it takes one step after another. The histories below say what
was passed on for it, what was told about it, which sessions it was given and which statuses it had.
-/

namespace EdgeGateway

/-! ### What every move relies on -/

namespace Crew

variable {h h' : Hub}

private theorem Sound.alone {ds : List Downlink} {es : List Closing} (hs : Sound ⟨h, ds, es⟩) :
    Sound { hub := h } :=
  ⟨hs.numbered, hs.mirrored, hs.owner, List.forall_mem_nil _, List.forall_mem_nil _⟩

private theorem Sound.changes (hs : Sound { hub := h }) (hc : h.Changes h') :
    Sound { hub := h' } := by
  induction hc with
  | refl => exact hs
  | tail _ hch ih => exact ih.change hch

/-- A step of the only task takes nothing away. -/
theorem Sound.step {d : Downlink} {o : Downlink.Outcome} (hs : Sound ⟨h, [d], []⟩)
    (hd : d.step h = some (h', o)) : Sound ⟨h', o.calls, []⟩ := by
  have ha := hs.call (a := []) (b := []) hd
  rwa [List.append_nil, List.nil_append] at ha

private theorem Sound.run {d : Downlink} (hs : Sound { hub := h }) (hd : d.Founded h) :
    Sound { hub := (d.run h).1 } :=
  Downlink.run_induction (P := fun h d ↦ Sound ⟨h, [d], []⟩)
    (Q := fun h ↦ Sound { hub := h })
    (fun hs _ ↦ hs.alone) Sound.step (fun hs hd ↦ (hs.step hd).alone)
    ⟨hs.numbered, hs.mirrored, hs.owner, List.forall_mem_singleton.2 hd, List.forall_mem_nil _⟩

private theorem Sound.runClosing {cid : UInt64} (hs : Sound { hub := h }) (hc : h.Shut cid) :
    Sound { hub := Closing.run h cid } := by
  have act : ∀ {h h' e o}, Sound ⟨h, [], [e]⟩ → e.step h = (h', o) →
    Sound ⟨h', [], o.toList⟩ := by
    intro h h' e o hs he
    have ha := hs.ending (a := []) (b := []) he
    rwa [List.append_nil, List.nil_append] at ha
  exact Closing.run_induction (P := fun h e ↦ Sound ⟨h, [], [e]⟩)
    (Q := fun h ↦ Sound { hub := h })
    act (fun hs he ↦ (act hs he).alone)
    ⟨hs.numbered, hs.mirrored, hs.owner, List.forall_mem_nil _, List.forall_mem_singleton.2 hc⟩

end Crew

namespace Gateway

variable {g g' : Gateway} {m : Move} {cid : UInt64} {x : Standing}

/-- The tables are as the tasks need them, every call that is not finished waits for room in the
queue of evictions, and what has a socket is a connection. -/
structure Sound (g : Gateway) : Prop where
  tables : Crew.Sound { hub := g.hub }
  calls : g.pool.Calls Downlink.Waits
  paired : ∀ cid, (g.ear? cid).isSome = (g.hub.bearing? cid).isSome

/-- Nothing is amiss with a gateway that has not been started. -/
theorem sound_fresh (s : Settings) : (fresh s).Sound :=
  ⟨Crew.sound_of_coherent (Hub.coherent_empty ..), Pool.calls_fresh _, fun _ ↦ rfl⟩

/-- Where nothing stands there is neither a connection nor a socket. -/
theorem Sound.absent (hg : g.Sound) (hx : g.standing? cid = none) :
    g.hub.bearing? cid = none ∧ g.ear? cid = none := by
  have hp := hg.paired cid
  cases hb : g.hub.bearing? cid with
  | none =>
    rw [hb] at hp
    exact ⟨rfl, by simpa using hp⟩
  | some b =>
    rw [hb, Option.isSome_some, Option.isSome_iff_exists] at hp
    obtain ⟨e, he⟩ := hp
    simp [standing?, hb, he] at hx

private theorem standing?_connect (hg : g.Sound) (hnext : g.hub.conns.next ≠ 0) (capacity : Nat)
    (hh : g'.hub = { g.hub with
      conns := (g.hub.conns.create capacity).2.register g.hub.conns.next })
    (he : ∀ k, g'.ear? k =
      if k = g.hub.conns.next then some ⟨[], .listening, false⟩ else g.ear? k)
    (cid : UInt64) :
    g'.standing? cid = if cid = g.hub.conns.next then some .fresh else g.standing? cid := by
  have hf : g'.hub.conns.find? cid =
      if cid = g.hub.conns.next then some (.fresh g.hub.conns.next capacity)
      else g.hub.conns.find? cid := by
    rw [hh]
    exact Connections.find?_create g.hub.conns capacity cid
  have hv : g'.hub.conns.isLive cid =
    (decide (cid = g.hub.conns.next) || g.hub.conns.isLive cid) := by
    rw [hh]
    exact Connections.isLive_register _ _ cid
  have hr : g'.hub.router = g.hub.router := by rw [hh]
  rw [standing?, Hub.bearing?, hf, he]
  split
  · next hk =>
    -- No session is routed to a connection that there is not.
    have hl : g.hub.router.lookup 0 ≠ some g.hub.conns.next := by
      intro hl
      obtain ⟨c, hc, -⟩ := hg.tables.owner _ _ hl
      cases hc.symm.trans (hg.tables.numbered.find?_next hnext)
    rw [hk, decide_eq_true rfl, Bool.true_or] at hv
    simp [Hub.bearingOf, hk, hv, hr, Connection.fresh, Standing.fresh, hl]
  · next hk =>
    have hb : g'.hub.bearingOf cid = g.hub.bearingOf cid := by
      funext c
      simp [Hub.bearingOf, hv, hr, hk]
    rw [hb]
    rfl

private theorem Sound.tables_move (hg : g.Sound) (hc : m = .connect → g.hub.conns.next ≠ 0)
    (h : g.move? m = some g') : Crew.Sound { hub := g'.hub } := by
  have he := effect_of_move? hg.tables.numbered hc h
  cases he with
  | routine hr => exact hg.tables.changes hr.tables
  | fetch =>
    rw [hub_runCall]
    exact hg.tables.run trivial
  | resume hd =>
    rw [hub_runCall]
    obtain ⟨ticket, after, rfl⟩ := hg.calls.of_worker? hd
    exact hg.tables.run trivial
  | finish hf hcl hh =>
    rw [hh]
    exact hg.tables.runClosing ⟨_, hf, hcl⟩

/-- In a move every connection takes a step, and where there was none there is none or a new one. -/
theorem standing_of_move? (hg : g.Sound) (hc : m = .connect → g.hub.conns.next ≠ 0)
    (h : g.move? m = some g') (cid : UInt64) :
    (∃ x, g.standing? cid = some x ∧ g.Steps cid x m g') ∨
      (g.standing? cid = none ∧ g.relayed? cid m = none ∧ g.noticed? cid m = none ∧
        (g'.standing? cid = none ∨ g'.standing? cid = some .fresh)) := by
  have ht := turn_of_move? hg.tables.numbered hg.calls h
  by_cases hm : m = .connect
  · subst hm
    cases ht with
    | idle hm => exact hm.elim
    | connect capacity hh he =>
      have hs := standing?_connect hg (hc rfl) capacity hh he cid
      have hn : g.noticed? cid .connect = none := noticed?_eq_none rfl
      cases hx : g.standing? cid with
      | none =>
        refine .inr ⟨rfl, rfl, hn, ?_⟩
        rw [hs, hx]
        split
        · exact .inr rfl
        · exact .inl rfl
      | some x =>
        refine .inl ⟨x, rfl, x, ?_, ?_⟩
        · rw [hs, if_neg, hx]
          rintro rfl
          obtain ⟨hb, -⟩ := standing?_eq_some_iff.1 hx
          rw [Hub.bearing?, hg.tables.numbered.find?_next (hc rfl)] at hb
          cases hb
        · rw [hn]
          exact .refl _ _ _ _
  · cases hx : g.standing? cid with
    | some x => exact .inl ⟨x, rfl, steps_of_turn hg.tables hm ht hx⟩
    | none =>
      obtain ⟨hb, hi⟩ := hg.absent hx
      obtain ⟨hb', -, hr, hn⟩ := absent_of_turn hm ht hb hi
      exact .inr ⟨rfl, hr, hn, .inl (by rw [standing?, hb']; rfl)⟩

/-- A move keeps what every move relies on. -/
theorem Sound.move (hg : g.Sound) (hc : m = .connect → g.hub.conns.next ≠ 0)
    (h : g.move? m = some g') : g'.Sound := by
  refine ⟨hg.tables_move hc h, waits_of_move? hg.calls hg.tables.numbered hc h, ?_⟩
  intro cid
  have stands : ∀ {y}, g'.standing? cid = some y →
      (g'.ear? cid).isSome = (g'.hub.bearing? cid).isSome := by
    intro y hy
    obtain ⟨hb, inbox, hi⟩ := standing?_eq_some_iff.1 hy
    rw [hb, hi]
    rfl
  rcases standing_of_move? hg hc h cid with ⟨x, -, y, hy, -⟩ | ⟨hx, -, -, hnone | hy⟩
  · exact stands hy
  · have ht := turn_of_move? hg.tables.numbered hg.calls h
    obtain ⟨hb, hi⟩ := hg.absent hx
    by_cases hm : m = .connect
    · subst hm
      cases ht with
      | idle hm => exact hm.elim
      | connect capacity hh he =>
        have hf := Connections.find?_create g.hub.conns capacity cid
        rw [Hub.bearing?, hh, Connections.find?_register, hf, he]
        split
        · rfl
        · rw [hi, Option.map_eq_none_iff.1 hb]
          rfl
    · obtain ⟨hb', hi', -⟩ := absent_of_turn hm ht hb hi
      rw [hb', hi']
      rfl
  · exact stands hy

private theorem nid_of_turn (ht : Turn g m g') : g'.hub.nid = g.hub.nid := by
  cases ht with
  | idle _ hh => exact hh.nid
  | connect _ hh | say hh | heed _ _ _ hh | sendFarewell _ hh => rw [hh]
  | hear _ _ _ _ hh =>
    cases hh with
    | nothing _ _ hq => exact hq.nid
    | passes _ _ hu _ hafter =>
      cases hu with
      | request => rw [hafter.2]; rfl
      | relay _ _ _ hq => rw [hafter.2]; exact hq.nid
      | offline =>
        rcases hafter with ⟨-, hh⟩ | ⟨-, hq⟩
        · rw [hh]
        · exact hq.nid
  | resumeListener _ _ _ _ hh =>
    rcases hh with ⟨-, hh⟩ | ⟨-, hq⟩
    · rw [hh]
    · exact hq.nid
  | fetchCall hh =>
    cases hh with
    | quiet hq | kicked _ _ hq | admitted _ _ hq | tookOver _ _ _ _ _ hq => exact hq.nid
  | resumeCall hh =>
    split at hh
    · rw [hh, Hub.nid_released]
    · exact hh.nid
  | finishSocket _ _ _ _ _ hh =>
    rw [hh, Closing.run_eq]
    exact Hub.nid_released _ _

/-! ### Trails -/

/-- The moves by which a gateway with given settings has come to a state, each with the state in
which it was made. A connection is opened only as long as there is a number that none has had. -/
inductive Trail (s : Settings) : List (Gateway × Move) → Gateway → Prop where
  | fresh : Trail s [] (fresh s)
  | move {t : List (Gateway × Move)} {g h : Gateway} {m : Move} : Trail s t g →
    (m = .connect → g.hub.conns.next ≠ 0) → g.move? m = some h → Trail s (t ++ [(g, m)]) h

namespace Trail

variable {s : Settings} {t : List (Gateway × Move)}

/-- Every state of a run is sound. -/
theorem sound (ht : Trail s t g) : g.Sound := by
  induction ht with
  | fresh => exact sound_fresh s
  | move _ hc hm ih => exact ih.move hc hm

/-- The node of a gateway is the one of its settings. -/
theorem nid (ht : Trail s t g) : g.hub.nid = s.nid := by
  induction ht with
  | fresh => rfl
  | move ht _ hm ih =>
    have hg := ht.sound
    rw [nid_of_turn (turn_of_move? hg.tables.numbered hg.calls hm), ih]

/-- The parts of every standing go together. -/
theorem fit (ht : Trail s t g) (hx : g.standing? cid = some x) : x.Fit := by
  induction ht generalizing x with
  | fresh => cases hx
  | move ht hc hm ih =>
    rcases standing_of_move? ht.sound hc hm cid with ⟨y, hy, z, hz, hstep⟩
      | ⟨-, -, -, hnone | hfresh⟩
    · rw [hz] at hx
      cases hx
      exact (ih hy).step hstep
    · rw [hnone] at hx
      cases hx
    · rw [hfresh] at hx
      cases hx
      exact Standing.fit_fresh

/-- Each move of a run was made in a state to which a part of the run leads. -/
theorem split_of_mem {b : Gateway} (ht : Trail s t g) (hb : (b, m) ∈ t) :
    ∃ u v b', t = u ++ (b, m) :: v ∧ Trail s u b ∧
      (m = .connect → b.hub.conns.next ≠ 0) ∧ b.move? m = some b' := by
  induction ht with
  | fresh => cases hb
  | @move t k h m' ht hc hm ih =>
    rcases List.mem_append.1 hb with hb | hb
    · obtain ⟨u, v, b', rfl, hsplit⟩ := ih hb
      exact ⟨u, v ++ [(k, m')], b', by simp, hsplit⟩
    · cases List.mem_singleton.1 hb
      exact ⟨t, [], h, rfl, ht, hc, hm⟩

/-- A run consists of what was done up to a move, the move, and what was done from there. -/
theorem split {u v : List (Gateway × Move)} {b : Gateway} (ht : Trail s (u ++ (b, m) :: v) g) :
    Trail s u b ∧ (m = .connect → b.hub.conns.next ≠ 0) ∧
      ∃ b', b.move? m = some b' ∧ Trail s (u ++ [(b, m)]) b' := by
  generalize hw : u ++ (b, m) :: v = w at ht
  induction ht generalizing v with
  | fresh => simp at hw
  | @move t e f n ht hc hm ih =>
    rcases v.eq_nil_or_concat with rfl | ⟨v, x, rfl⟩
    · obtain ⟨rfl, hx⟩ := List.append_inj' hw rfl
      cases hx
      exact ⟨ht, hc, f, hm, ht.move hc hm⟩
    · rw [List.concat_eq_append, ← List.cons_append, ← List.append_assoc] at hw
      exact ih (List.append_inj' hw rfl).1

/-- What holds after a move, and is kept by all that is done from there, holds as long as the run
goes on. -/
theorem onward {P : List (Gateway × Move) → Gateway → Prop} {u v : List (Gateway × Move)}
    {b : Gateway} (ht : Trail s (u ++ (b, m) :: v) g)
    (initially : ∀ {b'}, Trail s (u ++ [(b, m)]) b' → b.move? m = some b' → P [] b')
    (moves : ∀ {w k k' n}, Trail s (u ++ (b, m) :: w) k → P w k → (k, n) ∈ v →
      (n = .connect → k.hub.conns.next ≠ 0) → k.move? n = some k' → P (w ++ [(k, n)]) k') :
    P v g := by
  generalize hw : u ++ (b, m) :: v = w at ht
  induction ht generalizing v with
  | fresh => simp at hw
  | @move t e f n ht hc hm ih =>
    rcases v.eq_nil_or_concat with rfl | ⟨v, x, rfl⟩
    · obtain ⟨rfl, hx⟩ := List.append_inj' hw rfl
      cases hx
      exact initially (ht.move hc hm) hm
    · rw [List.concat_eq_append, ← List.cons_append, ← List.append_assoc] at hw
      obtain ⟨rfl, hx⟩ := List.append_inj' hw rfl
      cases hx
      rw [List.concat_eq_append] at moves ⊢
      refine moves ht ?_ (by simp) hc hm
      exact ih (fun ht hw hx ↦ moves ht hw (List.mem_append_left _ hx)) rfl

/-- What a move says about a connection that is not there is nothing; in a run a connection that is
there takes one step after another. -/
theorem follow {P : List (Gateway × Move) → Option Standing → Prop} (ht : Trail s t g)
    (cid : UInt64) (initially : P [] none)
    (absent : ∀ {t b m y}, P t none → b.relayed? cid m = none → b.noticed? cid m = none →
      b.hub.conns.find? cid = none → y = none ∨ y = some .fresh → P (t ++ [(b, m)]) y)
    (steps : ∀ {t b m b' x y}, Trail s t b → P t (some x) → b.standing? cid = some x →
      b.move? m = some b' → b'.standing? cid = some y → x.Fit →
      x.Step s.nid cid m (b.relayed? cid m) (b.noticed? cid m) y → P (t ++ [(b, m)]) (some y)) :
    P t (g.standing? cid) := by
  induction ht with
  | fresh => exact initially
  | move ht hc hm ih =>
    rcases standing_of_move? ht.sound hc hm cid with ⟨x, hx, y, hy, hstep⟩
      | ⟨hx, hr, hn, hy⟩
    · rw [hx] at ih
      rw [ht.nid] at hstep
      rw [hy]
      exact steps ht ih hx hm hy (ht.fit hx) hstep
    · rw [hx] at ih
      exact absent ih hr hn (Option.map_eq_none_iff.1 (ht.sound.absent hx).1) hy

end Trail

/-- The moves of a sequence, each with the state in which it is made, and the state after them, if
all of them are possible and numbers are left. -/
def trail? (g : Gateway) : List Move → Option (List (Gateway × Move) × Gateway)
  | [] => some ([], g)
  | m :: ms =>
    if m = .connect → g.hub.conns.next ≠ 0 then do
      let h ← g.move? m
      let (t, k) ← h.trail? ms
      return ((g, m) :: t, k)
    else none

private theorem trail_of_trail?_from {s : Settings} {ms : List Move} {t u : List (Gateway × Move)}
    {h : Gateway} (ht : Trail s t g) (hms : g.trail? ms = some (u, h)) :
    Trail s (t ++ u) h ∧ u.map Prod.snd = ms := by
  induction ms generalizing g t u with
  | nil =>
    cases hms
    rw [List.append_nil]
    exact ⟨ht, rfl⟩
  | cons m ms ih =>
    simp only [trail?] at hms
    split at hms
    · next hc =>
      obtain ⟨k, hk, hms⟩ := Option.bind_eq_some_iff.1 hms
      obtain ⟨⟨v, h'⟩, hv, hms⟩ := Option.bind_eq_some_iff.1 hms
      cases hms
      obtain ⟨ht', hmap⟩ := ih (ht.move hc hk) hv
      rw [List.append_assoc] at ht'
      exact ⟨ht', congrArg (m :: ·) hmap⟩
    · cases hms

/-- What is found that way is a trail. -/
theorem trail_of_trail? {s : Settings} {ms : List Move} {t : List (Gateway × Move)}
    (h : (fresh s).trail? ms = some (t, g)) : Trail s t g ∧ t.map Prod.snd = ms :=
  trail_of_trail?_from .fresh h

/-- A client opens session 42. -/
def Takeover.opened : List Move :=
  [.start ⟨.four 127 0 0 1, 8080⟩, .link (.connect 0), .link (.transmit 0 1000)] ++
    [.connect, .say 1 (.binary request.bytes), .hear 1] ++ handling (.opening 42 1)

/-! ### Histories -/

section Histories

/-- What the listener of a connection has passed on, with the events in which it came. -/
def relays (t : List (Gateway × Move)) (cid : UInt64) : List (SocketEvent × Message) :=
  t.filterMap fun p ↦ p.1.relayed? cid p.2

/-- The messages by which the backend has been told that the session of a connection has ended. -/
def notices (t : List (Gateway × Move)) (cid : UInt64) : List Message :=
  t.filterMap fun p ↦ p.1.noticed? cid p.2

/-- The status of a connection, if there is one. -/
def status? (g : Gateway) (cid : UInt64) : Option Status := (g.hub.conns.find? cid).map (·.status)

/-- The session that a connection is given in a move. -/
def granted? (g : Gateway) (cid : UInt64) (m : Move) : Option UInt64 := do
  let h ← g.move? m
  let c ← g.hub.conns.find? cid
  let d ← h.hub.conns.find? cid
  if c.status ≠ .logon ∧ d.status = .logon then return d.sid else none

/-- The sessions that a connection has been given. -/
def logons (t : List (Gateway × Move)) (cid : UInt64) : List UInt64 :=
  t.filterMap fun p ↦ p.1.granted? cid p.2

/-- The statuses that a connection has had in the states before the moves and has in the last state.
-/
def statuses (t : List (Gateway × Move)) (g : Gateway) (cid : UInt64) : List Status :=
  (t.map Prod.fst ++ [g]).filterMap (·.status? cid)

variable (t : List (Gateway × Move)) (b : Gateway)

/-- One more move adds the relays in it. -/
theorem relays_append : relays (t ++ [(b, m)]) cid = relays t cid ++ (b.relayed? cid m).toList := by
  cases h : b.relayed? cid m <;> simp [relays, h]

/-- One more move adds the notices in it. -/
theorem notices_append :
    notices (t ++ [(b, m)]) cid = notices t cid ++ (b.noticed? cid m).toList := by
  cases h : b.noticed? cid m <;> simp [notices, h]

/-- One more move adds the session that is granted in it. -/
theorem logons_append : logons (t ++ [(b, m)]) cid = logons t cid ++ (b.granted? cid m).toList := by
  cases h : b.granted? cid m <;> simp [logons, h]

/-- One more move adds the status after it. -/
theorem statuses_append :
    statuses (t ++ [(b, m)]) g cid = statuses t b cid ++ (g.status? cid).toList := by
  cases h : g.status? cid <;> cases h' : b.status? cid <;> simp [statuses, h, h']

end Histories

/-- The status of a connection is that of its standing. -/
theorem Sound.status?_eq (hg : g.Sound) (cid : UInt64) :
    g.status? cid = (g.standing? cid).map (·.status) := by
  cases hx : g.standing? cid with
  | none =>
    have hb := (hg.absent hx).1
    rw [status?, Option.map_eq_none_iff.1 hb]
    rfl
  | some x =>
    obtain ⟨hb, -⟩ := standing?_eq_some_iff.1 hx
    obtain ⟨c, hc, hb⟩ := Option.map_eq_some_iff.1 hb
    rw [status?, hc, Option.map_some, Option.map_some, ← hb]
    rfl

/-- What session a connection is given in a move can be seen from where it stands before and after.
-/
theorem granted?_eq {y : Standing} (h : g.move? m = some g') (hx : g.standing? cid = some x)
    (hy : g'.standing? cid = some y) :
    g.granted? cid m = if x.status ≠ .logon ∧ y.status = .logon then some y.sid else none := by
  obtain ⟨c, hc, hb⟩ := Option.map_eq_some_iff.1 (standing?_eq_some_iff.1 hx).1
  obtain ⟨d, hd, hb'⟩ := Option.map_eq_some_iff.1 (standing?_eq_some_iff.1 hy).1
  simp only [granted?, h, hc, hd, Option.bind_eq_bind, Option.bind_some, ← hb, ← hb']
  rfl

/-- Nobody is given a session who is not there. -/
theorem granted?_of_absent (hx : g.hub.conns.find? cid = none) : g.granted? cid m = none := by
  simp [granted?, hx]

/-- A connection that has asked for a session and is logged on after a move has been given one in
it. -/
theorem granted?_of_check {c : Connection} {b : Bearing} (h : g.move? m = some g')
    (hc : g.hub.conns.find? cid = some c) (hs : c.status = .check)
    (hb : g'.hub.bearing? cid = some b) (hl : b.status = .logon) :
    g.granted? cid m = some b.sid := by
  obtain ⟨d, hd, rfl⟩ := Option.map_eq_some_iff.1 hb
  have hd' : d.status = .logon := hl
  simp only [granted?, h, hc, hd, Option.bind_eq_bind, Option.bind_some, hs, hd']
  exact if_pos ⟨by decide, trivial⟩

/-- A connection that is given a session in a move has asked for one before. -/
theorem Trail.check_of_granted {s : Settings} {t : List (Gateway × Move)} {sid : UInt64}
    (ht : Trail s t g) (hc : m = .connect → g.hub.conns.next ≠ 0)
    (hs : g.granted? cid m = some sid) : g.status? cid = some .check := by
  obtain ⟨h, hm, hs'⟩ := Option.bind_eq_some_iff.1 hs
  obtain ⟨c, hf, -⟩ := Option.bind_eq_some_iff.1 hs'
  rcases standing_of_move? ht.sound hc hm cid with ⟨x, hx, y, hy, hstep⟩ | ⟨hx, -⟩
  · rw [ht.sound.status?_eq, hx]
    rw [granted?_eq hm hx hy, Option.ite_none_right_eq_some] at hs
    obtain ⟨⟨hne, hl⟩, -⟩ := hs
    rcases hstep.session (ht.fit hx) with ⟨hcheck, -⟩ | ⟨-, hback, -⟩
    · rw [Option.map_some, hcheck]
    · exact absurd (hback hl) hne
  · have hb := (ht.sound.absent hx).1
    rw [Hub.bearing?, hf] at hb
    cases hb

/-- A connection has been given no session as long as it has none, and then only the one that it
has. -/
theorem Trail.logons_cases {s : Settings} {t : List (Gateway × Move)} (ht : Trail s t g)
    (cid : UInt64) :
    (g.standing? cid = none → logons t cid = []) ∧
      ∀ x, g.standing? cid = some x →
        logons t cid = [] ∧ (x.Early ∨ x.status = .close) ∨ logons t cid = [x.sid] ∧
        ¬ x.Early := by
  refine ht.follow cid (P := fun t o ↦ (o = none → logons t cid = []) ∧ ∀ x, o = some x →
    logons t cid = [] ∧ (x.Early ∨ x.status = .close) ∨ logons t cid = [x.sid] ∧ ¬ x.Early)
    ⟨fun _ ↦ rfl, by rintro x ⟨⟩⟩ ?_ ?_
  · rintro t b m y ⟨ht, -⟩ hr hn hx hy
    have hl : logons (t ++ [(b, m)]) cid = [] := by
      rw [logons_append, ht rfl, granted?_of_absent hx]
      rfl
    refine ⟨fun _ ↦ hl, ?_⟩
    rintro x rfl
    cases hy with
    | inl hy => cases hy
    | inr hy =>
      cases hy
      exact .inl ⟨hl, .inl (.inl rfl)⟩
  · rintro t b m b' x y - ⟨-, ht⟩ hx hm hy hfit hstep
    refine ⟨by rintro ⟨⟩, ?_⟩
    rintro z ⟨⟩
    rw [logons_append, granted?_eq hm hx hy]
    rcases hstep.session hfit with ⟨hcheck, hlogon⟩ | ⟨hsid, hback, hearly, hlate, hclose⟩
    · rw [if_pos ⟨by rw [hcheck]; decide, hlogon⟩]
      refine .inr ⟨?_, ?_⟩
      · rcases ht x rfl with ⟨hl, -⟩ | ⟨-, hne⟩
        · rw [hl]
          rfl
        · exact absurd (.inr hcheck) hne
      · rintro (he | he) <;> cases hlogon.symm.trans he
    · rw [if_neg fun h ↦ h.1 (hback h.2), Option.toList_none, List.append_nil, hsid]
      rcases ht x rfl with ⟨hl, he | hc⟩ | ⟨hl, hne⟩
      · exact .inl ⟨hl, hearly he⟩
      · exact .inl ⟨hl, .inr (hclose hc)⟩
      · exact .inr ⟨hl, hlate hne⟩

/-- A connection is given one session at most. -/
theorem Trail.length_logons_le {s : Settings} {t : List (Gateway × Move)} (ht : Trail s t g)
    (cid : UInt64) : (logons t cid).length ≤ 1 := by
  obtain ⟨hnone, hsome⟩ := ht.logons_cases cid
  cases hx : g.standing? cid with
  | none => simp [hnone hx]
  | some x => rcases hsome x hx with ⟨hl, -⟩ | ⟨hl, -⟩ <;> simp [hl]

end Gateway

end EdgeGateway
