import EdgeGateway.Proofs.Gateway.Handover
import EdgeGateway.Proofs.Gateway.Trail

/-!
# Verdicts on sessions

A client may ask for a session several times before the backend answers, so there may be several
verdicts on one connection. An acceptance takes effect only on an open connection whose session has
been asked for and not been accepted. A refusal is passed on and gives notice whatever has been
decided before, and it leaves the status as it is, so that an acceptance may still come.
`stands_iff` says when the first verdict on a connection is the last word, and what every verdict
comes to.
-/

namespace EdgeGateway

/-! ### What a verdict comes to -/

/-- What comes of a verdict by the time the worker that has taken it waits or is done. -/
inductive Hub.Judges (h : Hub) (w : Message) (ack : OnlineAck) : Hub → Prop
  /-- There is no connection that can be reached. -/
  | nobody : h.conns.get? ack.cid = none → Judges h w ack h
  /-- The refusal is passed on and the connection is given notice, whatever its status. -/
  | refusal {c : Connection} : h.conns.get? ack.cid = some c → ack.code ≠ ResultCode.ok →
    Judges h w ack ((h.post ack.cid w).evict ack.cid).2
  /-- The connection is closed, or it is not waiting for a verdict. -/
  | ignored {c : Connection} : h.conns.get? ack.cid = some c → ack.code = ResultCode.ok →
    ¬ (c.status = .check ∧ c.closed = false) → Judges h w ack h
  /-- The session is opened. -/
  | acceptance {c : Connection} {h' : Hub} : h.conns.get? ack.cid = some c →
    ack.code = ResultCode.ok → c.status = .check → c.closed = false →
    h'.bearing? ack.cid = some ⟨w.sid, .logon, false, true, true⟩ → Judges h w ack h'

/-- A session is opened that is accepted for an open connection that waits for it. -/
theorem Hub.Judges.accepted {h h' : Hub} {w : Message} {ack : OnlineAck} (hj : h.Judges w ack h')
    {c : Connection} (hc : h.conns.get? ack.cid = some c) (hok : ack.code = ResultCode.ok)
    (hcheck : c.status = .check) (hopen : c.closed = false) :
    h'.bearing? ack.cid = some ⟨w.sid, .logon, false, true, true⟩ := by
  cases hj with
  | nobody hn => cases hc.symm.trans hn
  | refusal _ hcode => exact absurd hok hcode
  | ignored hc' _ hne =>
    cases hc.symm.trans hc'
    exact absurd ⟨hcheck, hopen⟩ hne
  | acceptance _ _ _ _ hb => exact hb

namespace Downlink

variable {h : Hub} {w : Message} {ack : OnlineAck}

private theorem run_evict (h : Hub) (cid : UInt64) :
    ((evict cid none).run h).1 = (h.evict cid).2 := by
  have s₁ : (evict cid none).step h =
    some ((h.evict cid).2, .next (.waiting (h.evict cid).1 none)) := rfl
  rw [run_of_next s₁]
  cases he : (h.evict cid).2.eviction (h.evict cid).1 with
  | accepted =>
    have s₂ : (waiting (h.evict cid).1 none).step (h.evict cid).2 =
        some ((h.evict cid).2, .done (.ok ())) := by simp only [step, he, behindNotice]
    rw [run_of_done s₂]
  | refused =>
    have s₂ : (waiting (h.evict cid).1 none).step (h.evict cid).2 =
        some ((h.evict cid).2, .done (.error (.queueClosed .eviction))) := by simp only [step, he]
    rw [run_of_done s₂]
  | pending =>
    rw [run_of_none (by simp only [step, he])]

private theorem judges_logon (hn : h.conns.Numbered) {c : Connection}
    (hc : h.conns.get? ack.cid = some c) (hok : ack.code = ResultCode.ok) :
    h.Judges w ack ((logon w ack.cid ack.uid).run h).1 := by
  obtain ⟨hlive, hf⟩ := Connections.get?_eq_some_iff.1 hc
  cases hlog : c.logon w.sid ack.uid with
  | none =>
    rw [run_logon_of_none (by rw [hf, Option.bind_some, hlog])]
    refine .ignored hc hok ?_
    rintro ⟨hs, ho⟩
    rw [Connection.logon_eq_some_iff.2 ⟨hs, ho, rfl⟩] at hlog
    cases hlog
  | some d =>
    obtain ⟨hs, ho, hd⟩ := Connection.logon_eq_some_iff.1 hlog
    have hb : (h.admitted ack.cid d).bearing? ack.cid =
      some ⟨w.sid, .logon, false, true, true⟩ := by
      rw [Hub.bearing?_admitted hf, if_pos rfl, hlive, hd, ho]
    refine .acceptance hc hok hs ho ?_
    rcases run_logon hn hf hlog with hq | ⟨old, e, -, hne, -, hq⟩
    · rw [hq.bearing, hb]
    · rw [hq.bearing, Hub.bearing?_setStatus, hb, Option.map_some, if_neg (Ne.symm hne)]

/-- What a verdict comes to is one of the things above. -/
theorem judges_run (hn : h.conns.Numbered) {body : Bytes} (hw : Packet.parse body = .ok w)
    (hack : Body.decode w.body = .ok ack) : h.Judges w ack ((received .verdict body).run h).1 := by
  have s₁ : (received .verdict body).step h = some (h, .next (.judge w ack)) := by
    simp only [step, hw, ofMessage, hack]
  rw [run_of_next s₁]
  cases hc : h.conns.get? ack.cid with
  | none =>
    have s₂ : (judge w ack).step h = some (h, .done (.error (.connectionNotFound ack.cid))) := by
      simp only [step, hc]
    rw [run_of_done s₂]
    exact .nobody hc
  | some c =>
    by_cases hok : ack.code = ResultCode.ok
    · have s₂ : (judge w ack).step h = some (h, .next (.logon w ack.cid ack.uid)) := by
        simp only [step, hc, if_pos hok]
      rw [run_of_next s₂]
      exact judges_logon hn hc hok
    · have s₂ : (judge w ack).step h = some (h, .next (.refuse w ack.cid)) := by
        simp only [step, hc, if_neg hok]
      have s₃ : (refuse w ack.cid).step h =
        some (h.post ack.cid w, .next (.evict ack.cid none)) := rfl
      rw [run_of_next s₂, run_of_next s₃, run_evict]
      exact .refusal hc hok

end Downlink

/-- The number of notices of a connection that the sweeper still has before it. Whoever waits at a
queue that is closed has given none. -/
def Sweeper.notices (s : Sweeper) (cid : UInt64) : Nat :=
  ((if s.queue.closed then s.queue.items else s.queue.contents) ++ s.pending).countP (·.cid == cid)

/-- A connection is given one notice, if the queue takes any. -/
theorem Sweeper.notices_push (s : Sweeper) (now : Nat) (cid : UInt64) :
    (s.push now cid).2.notices cid = s.notices cid + if s.queue.closed then 0 else 1 := by
  have hcl : (s.push now cid).2.queue.closed = s.queue.closed := s.queue.closed_send _
  rw [notices, notices, hcl, push, pushAt, Channel.send]
  cases hc : s.queue.closed with
  | true => simp [Channel.HasRoom, hc]
  | false =>
    simp only [Bool.false_eq_true, if_false, Channel.contents]
    split <;>
    · simp only [List.map_append, List.map_cons, List.map_nil, List.countP_append,
        List.countP_cons, List.countP_nil, beq_self_eq_true, if_true]
      omega

namespace Gateway

variable {s : Settings} {t u v : List (Gateway × Move)} {g g' b b' : Gateway} {m : Move}
  {cid : UInt64} {w : Message} {ack : OnlineAck}

/-- The verdict that a worker takes in a move. -/
def verdict? (g : Gateway) (m : Move) : Option (Message × OnlineAck) := do
  let f ← g.fetched? m
  if downlinkCommands.lookup f.cmd = some .verdict then
    let w ← (Packet.parse (H := SessionHeader) f.body).toOption
    let ack ← (Body.decode (α := OnlineAck) w.body).toOption
    return (w, ack)
  else none

/-- A worker that takes a verdict handles it. -/
theorem judges_of_verdict (hn : b.hub.conns.Numbered) (hv : b.verdict? m = some (w, ack))
    (hm : b.move? m = some b') : b.hub.Judges w ack b'.hub := by
  obtain ⟨f, hf, hv⟩ := Option.bind_eq_some_iff.1 hv
  obtain ⟨hk, hv⟩ := Option.ite_none_right_eq_some.1 hv
  obtain ⟨w', hw, hv⟩ := Option.bind_eq_some_iff.1 hv
  obtain ⟨ack', hack, hv⟩ := Option.bind_eq_some_iff.1 hv
  cases hv
  cases m with
  | fetchCall i j =>
    obtain ⟨⟨f', pool⟩, hfetch, hf⟩ := Option.map_eq_some_iff.1 hf
    cases hf
    simp only [move?, fetchCall, hfetch, Option.bind_eq_bind, Option.bind_some, hk] at hm
    cases hm
    rw [hub_runCall]
    exact Downlink.judges_run hn (eq_ok_of_toOption hw) (eq_ok_of_toOption hack)
  | _ => cases hf

/-! ### The last word -/

/-- The refusal by which a move gives a connection notice. -/
def refused? (g : Gateway) (cid : UInt64) (m : Move) : Option Message := do
  let (w, ack) ← g.verdict? m
  if ack.cid = cid ∧ ack.code ≠ ResultCode.ok ∧ (g.hub.conns.get? cid).isSome then
    return w
  else none

/-- The refusals that have given a connection notice. -/
def refusals (t : List (Gateway × Move)) (cid : UInt64) : List Message :=
  t.filterMap fun p ↦ p.1.refused? cid p.2

/-- A connection is as it was, the same sessions are routed to it, and it has been given no notice.
-/
structure PassesOver (b b' : Gateway) (cid : UInt64) : Prop where
  conn : b'.hub.conns.find? cid = b.hub.conns.find? cid
  routes : ∀ sid, b'.hub.router.lookup sid = some cid ↔ b.hub.router.lookup sid = some cid
  notices : b'.hub.sweeper.notices cid = b.hub.sweeper.notices cid

/-- The first verdict on a connection is the last word: once it has been accepted no verdict on it
has any effect, and once it has been refused none gives it a session. -/
structure Stands (t : List (Gateway × Move)) (cid : UInt64) : Prop where
  accepted : ∀ u b m v b' w ack, t = u ++ (b, m) :: v → b.move? m = some b' →
    b.verdict? m = some (w, ack) → ack.cid = cid → logons u cid ≠ [] → b.PassesOver b' cid
  refused : ∀ u b m v b' w ack, t = u ++ (b, m) :: v → b.move? m = some b' →
    b.verdict? m = some (w, ack) → ack.cid = cid → refusals u cid ≠ [] →
    b.granted? cid m = none ∧
      ∀ sid, b'.hub.router.lookup sid = some cid → b.hub.router.lookup sid = some cid

/-- A connection that has been given a session is refused, and its queue takes the refusal or the
sweeper its notice. -/
def RefusedLate (t : List (Gateway × Move)) (cid : UInt64) : Prop :=
  ∃ u b m v w ack c, t = u ++ (b, m) :: v ∧ b.verdict? m = some (w, ack) ∧ ack.cid = cid ∧
    ack.code ≠ ResultCode.ok ∧ logons u cid ≠ [] ∧ b.hub.conns.get? cid = some c ∧
    (c.Receptive ∨ b.hub.sweeper.queue.closed = false)

/-- A connection that has been refused is accepted, while it is open and has been given no session.
-/
def AcceptedLate (t : List (Gateway × Move)) (cid : UInt64) : Prop :=
  ∃ u b m v w ack c, t = u ++ (b, m) :: v ∧ b.verdict? m = some (w, ack) ∧ ack.cid = cid ∧
    ack.code = ResultCode.ok ∧ refusals u cid ≠ [] ∧ b.hub.conns.get? cid = some c ∧
    c.status = .check ∧ c.closed = false

private theorem PassesOver.of_hub (h : b'.hub = b.hub) : b.PassesOver b' cid := by
  refine ⟨by rw [h], fun sid ↦ by rw [h], by rw [h]⟩

private theorem find?_refused {h : Hub} {c : Connection} (hc : h.conns.get? cid = some c)
    (w : Message) : ((h.post cid w).evict cid).2.conns.find? cid = some (c.post w) := by
  have hf := (Connections.get?_eq_some_iff.1 hc).2
  show (h.conns.modify cid fun c ↦ c.post w).find? cid = _
  rw [Connections.find?_modify, if_pos rfl, hf, Option.map_some]

private theorem passesOver_refusal_iff {c : Connection} (hc : b.hub.conns.get? cid = some c)
    (hh : b'.hub = ((b.hub.post cid w).evict cid).2) :
    b.PassesOver b' cid ↔ ¬ (c.Receptive ∨ b.hub.sweeper.queue.closed = false) := by
  have hf := (Connections.get?_eq_some_iff.1 hc).2
  have hf' : b'.hub.conns.find? cid = some (c.post w) := by rw [hh, find?_refused hc]
  have hn : b'.hub.sweeper.notices cid =
      b.hub.sweeper.notices cid + if b.hub.sweeper.queue.closed then 0 else 1 := by
    rw [hh]
    exact b.hub.sweeper.notices_push b.hub.now cid
  constructor
  · rintro hs (hr | ho)
    · have hpost := hs.conn
      rw [hf, hf', Option.some.injEq, Connection.post_eq, if_pos hr] at hpost
      exact absurd (congrArg Connection.queue hpost) (by simp)
    · have hcount := hs.notices
      rw [hn, ho] at hcount
      simp at hcount
  · intro hne
    obtain ⟨hr, ho⟩ := not_or.1 hne
    rw [Bool.not_eq_false] at ho
    refine ⟨?_, fun sid ↦ by rw [hh]; exact Iff.rfl, by rw [hn, ho]; rfl⟩
    rw [hf', hf, Connection.post_eq, if_neg hr]

private theorem granted?_of_status_eq {c d : Connection} (hm : b.move? m = some b')
    (hc : b.hub.conns.find? cid = some c) (hd : b'.hub.conns.find? cid = some d)
    (hs : d.status = c.status) : b.granted? cid m = none := by
  simp only [granted?, hm, hc, hd, Option.bind_eq_bind, Option.bind_some, hs]
  exact if_neg fun h ↦ h.1 h.2

private theorem granted?_of_hub (hm : b.move? m = some b') (h : b'.hub = b.hub) :
    b.granted? cid m = none := by
  cases hc : b.hub.conns.find? cid with
  | none => exact granted?_of_absent hc
  | some c => exact granted?_of_status_eq hm hc (by rw [h, hc]) rfl

private theorem status_ne_check (hu : Trail s u b) (hl : logons u cid ≠ []) {c : Connection}
    (hc : b.hub.conns.find? cid = some c) : c.status ≠ .check := by
  intro hs
  have hb : b.status? cid = some .check := by rw [status?, hc, Option.map_some, hs]
  rw [hu.sound.status?_eq] at hb
  obtain ⟨x, hx, hs⟩ := Option.map_eq_some_iff.1 hb
  rcases (hu.logons_cases cid).2 x hx with ⟨hnil, -⟩ | ⟨-, hne⟩
  · exact hl hnil
  · exact hne (.inr hs)

private theorem judges_of_split (ht : Trail s (u ++ (b, m) :: v) g)
    (hv : b.verdict? m = some (w, ack)) :
    Trail s u b ∧ ∃ b', b.move? m = some b' ∧ b.hub.Judges w ack b'.hub := by
  obtain ⟨hu, -, b', hm, -⟩ := ht.split
  exact ⟨hu, b', hm, judges_of_verdict hu.sound.tables.numbered hv hm⟩

private theorem Stands.not_refusedLate (ht : Trail s t g) (hs : Stands t cid) :
    ¬ RefusedLate t cid := by
  rintro ⟨u, b, m, v, w, ack, c, rfl, hv, rfl, hcode, hl, hc, htakes⟩
  obtain ⟨-, b', hm, hj⟩ := judges_of_split ht hv
  have hover := hs.accepted u b m v b' w ack rfl hm hv rfl hl
  generalize hh : b'.hub = h' at hj
  cases hj with
  | nobody hnone => cases hnone.symm.trans hc
  | refusal => exact (passesOver_refusal_iff hc hh).1 hover htakes
  | ignored _ hok | acceptance _ hok => exact hcode hok

private theorem Stands.not_acceptedLate (ht : Trail s t g) (hs : Stands t cid) :
    ¬ AcceptedLate t cid := by
  rintro ⟨u, b, m, v, w, ack, c, rfl, hv, rfl, hok, hr, hc, hcheck, hopen⟩
  obtain ⟨-, b', hm, hj⟩ := judges_of_split ht hv
  obtain ⟨hnone, -⟩ := hs.refused u b m v b' w ack rfl hm hv rfl hr
  have hf := (Connections.get?_eq_some_iff.1 hc).2
  have hb := hj.accepted hc hok hcheck hopen
  cases hnone.symm.trans (granted?_of_check hm hf hcheck hb rfl)

private theorem stands_of_timely (ht : Trail s t g) (hrefused : ¬ RefusedLate t cid)
    (haccepted : ¬ AcceptedLate t cid) : Stands t cid := by
  refine ⟨?_, ?_⟩
  · rintro u b m v b' w ack rfl hm hv rfl hl
    obtain ⟨hu, k, hk, hj⟩ := judges_of_split ht hv
    cases hm.symm.trans hk
    generalize hh : b'.hub = h' at hj
    cases hj with
    | nobody | ignored => exact .of_hub hh
    | refusal hc hcode =>
      refine (passesOver_refusal_iff hc hh).2 fun htakes ↦ hrefused ?_
      exact ⟨u, b, m, v, w, ack, _, rfl, hv, rfl, hcode, hl, hc, htakes⟩
    | acceptance hc _ hcheck =>
      exact absurd hcheck (status_ne_check hu hl (Connections.get?_eq_some_iff.1 hc).2)
  · rintro u b m v b' w ack rfl hm hv rfl hr
    obtain ⟨-, k, hk, hj⟩ := judges_of_split ht hv
    cases hm.symm.trans hk
    generalize hh : b'.hub = h' at hj
    cases hj with
    | nobody | ignored => exact ⟨granted?_of_hub hm hh, fun _ ↦ id⟩
    | @refusal c hc =>
      have hf := (Connections.get?_eq_some_iff.1 hc).2
      have hf' := find?_refused hc w
      have hstatus : (c.post w).status = c.status := by rw [Connection.post_eq]
      rw [← hh] at hf'
      exact ⟨granted?_of_status_eq hm hf hf' hstatus, fun _ ↦ id⟩
    | acceptance hc hok hcheck hopen =>
      refine absurd ?_ haccepted
      exact ⟨u, b, m, v, w, ack, _, rfl, hv, rfl, hok, hr, hc, hcheck, hopen⟩

/-- Every verdict that is taken in a run comes to one of the things above. The first verdict on a
connection is the last word just when the connection is not refused while it has a session, with any
effect, and not accepted after a refusal while it still waits for a verdict. -/
theorem stands_iff (ht : Trail s t g) (cid : UInt64) :
    (∀ b m b' w ack, (b, m) ∈ t → b.verdict? m = some (w, ack) → b.move? m = some b' →
      b.hub.Judges w ack b'.hub) ∧
    (Stands t cid ↔ ¬ RefusedLate t cid ∧ ¬ AcceptedLate t cid) := by
  refine ⟨?_, fun hs ↦ ⟨hs.not_refusedLate ht, hs.not_acceptedLate ht⟩,
    fun h ↦ stands_of_timely ht h.1 h.2⟩
  intro b m b' w ack hb hv hm
  obtain ⟨u, v, -, rfl, hu, -⟩ := ht.split_of_mem hb
  exact judges_of_verdict hu.sound.tables.numbered hv hm

/-- A client has asked for session 42 twice when the answer comes, and the answer to the second
request opens session 43. -/
def Takeover.pipelining : List Move :=
  [.start ⟨.four 127 0 0 1, 8080⟩, .link (.connect 0), .link (.transmit 0 1000), .connect] ++
    [.say 1 (.binary request.bytes), .hear 1, .say 1 (.binary request.bytes), .hear 1] ++
    handling (.opening 42 1) ++ handling (.opening 43 1)

/-- The second answer has no say: nobody was refused. -/
theorem stands_iff_pipelining :
    ∃ t g, Trail Takeover.settings t g ∧ t.map Prod.snd = Takeover.pipelining ∧
      logons t 1 = [42] ∧ g.hub.router.lookup 43 = none ∧ Stands t 1 := by
  have hview : ((fresh Takeover.settings).trail? Takeover.pipelining).map (fun r ↦
      (logons r.1 1, r.2.hub.router.lookup 43,
        r.1.all fun p ↦ (p.1.verdict? p.2).all fun x ↦ x.2.code == ResultCode.ok)) =
      some ([42], none, true) := by decide +kernel
  obtain ⟨⟨t, g⟩, hrun, hv⟩ := Option.map_eq_some_iff.1 hview
  obtain ⟨ht, hmoves⟩ := trail_of_trail? hrun
  simp only [Prod.mk.injEq] at hv
  obtain ⟨hl, hroute, hall⟩ := hv
  have hok : ∀ b m w ack, (b, m) ∈ t → b.verdict? m = some (w, ack) →
    ack.code = ResultCode.ok := by
    intro b m w ack hb hv
    have h := List.all_eq_true.1 hall _ hb
    simp only [hv, Option.all_some] at h
    exact eq_of_beq h
  refine ⟨t, g, ht, hmoves, hl, hroute, (stands_iff ht 1).2.2 ⟨?_, ?_⟩⟩
  · rintro ⟨u, b, m, v, w, ack, c, rfl, hv, -, hcode, -⟩
    exact hcode (hok b m w ack (by simp) hv)
  · rintro ⟨u, b, m, v, w, ack, c, rfl, -, -, -, hr, -⟩
    obtain ⟨x, hx⟩ := List.exists_mem_of_ne_nil _ hr
    obtain ⟨⟨b', m'⟩, hb, hx⟩ := List.mem_filterMap.1 hx
    obtain ⟨⟨w', ack'⟩, hv, hx⟩ := Option.bind_eq_some_iff.1 hx
    obtain ⟨⟨-, hcode, -⟩, -⟩ := Option.ite_none_right_eq_some.1 hx
    exact hcode (hok b' m' w' ack' (List.mem_append_left _ hb) hv)

/-- The verdict by which the backend refuses a session. -/
def Takeover.refusing (sid cid : UInt64) : Message :=
  .make .onlineAck 0 sid (Body.encode ({ sid, cid, code := 40, errmsg := "bad token" } : OnlineAck))

/-- A client asks for session 42 twice, and both answers come. -/
def Takeover.answering (first second : Message) : List Move :=
  [.start ⟨.four 127 0 0 1, 8080⟩, .link (.connect 0), .link (.transmit 0 1000), .connect] ++
    [.say 1 (.binary request.bytes), .hear 1, .say 1 (.binary request.bytes), .hear 1] ++
    handling first ++ [.backendSays 0 (second.wrap 0).bytes, .link (.read 0)]

/-- A connection that has its session is given notice by a refusal that comes late, and one that has
been refused is given a session all the same. -/
theorem verdict_overruled :
    (∃ t g, Trail Takeover.settings t g ∧ logons t 1 = [42] ∧ g.status? 1 = some .logon ∧
      g.hub.sweeper.notices 1 = 1 ∧ ¬ Stands t 1) ∧
    (∃ t g, Trail Takeover.settings t g ∧ (refusals t 1).map (·.cmd) = [.onlineAck] ∧
      g.hub.sweeper.notices 1 = 1 ∧ g.hub.router.lookup 42 = some 1 ∧ ¬ Stands t 1) := by
  refine ⟨?_, ?_⟩
  · have hview : ((fresh Takeover.settings).trail?
        (Takeover.answering (.opening 42 1) (Takeover.refusing 42 1))).bind (fun r ↦ do
        let x ← r.2.verdict? (.fetchCall 0 0)
        let c ← r.2.hub.conns.get? 1
        let g ← r.2.move? (.fetchCall 0 0)
        return decide (x.2.cid = 1 ∧ x.2.code = 40 ∧ logons r.1 1 = [42] ∧
          r.2.granted? 1 (.fetchCall 0 0) = none ∧ c.Receptive ∧ g.status? 1 = some .logon ∧
          g.hub.sweeper.notices 1 = 1)) = some true := by decide +kernel
    obtain ⟨⟨u, b⟩, hrun, hview⟩ := Option.bind_eq_some_iff.1 hview
    obtain ⟨⟨w, ack⟩, hv, hview⟩ := Option.bind_eq_some_iff.1 hview
    obtain ⟨c, hc, hview⟩ := Option.bind_eq_some_iff.1 hview
    obtain ⟨g, hm, hview⟩ := Option.bind_eq_some_iff.1 hview
    obtain ⟨hcid, hcode, hl, hnone, hr, hs, hn⟩ := of_decide_eq_true (Option.some.inj hview)
    have ht : Trail Takeover.settings (u ++ [(b, .fetchCall 0 0)]) g :=
      (trail_of_trail? hrun).1.move (by rintro ⟨⟩) hm
    refine ⟨_, g, ht, by rw [logons_append, hl, hnone]; rfl, hs, hn, fun hst ↦ ?_⟩
    exact hst.not_refusedLate ht ⟨u, b, _, [], w, ack, c, rfl, hv, hcid, by rw [hcode]; decide,
      by rw [hl]; decide, hc, .inl hr⟩
  · have hview : ((fresh Takeover.settings).trail?
        (Takeover.answering (Takeover.refusing 42 1) (.opening 42 1))).bind (fun r ↦ do
        let x ← r.2.verdict? (.fetchCall 0 0)
        let c ← r.2.hub.conns.get? 1
        let g ← r.2.move? (.fetchCall 0 0)
        return decide
          (x.2.cid = 1 ∧ x.2.code = 0 ∧ (refusals r.1 1).map (·.cmd) = [.onlineAck] ∧
            r.2.refused? 1 (.fetchCall 0 0) = none ∧ c.status = .check ∧ c.closed = false ∧
            g.hub.sweeper.notices 1 = 1 ∧ g.hub.router.lookup 42 = some 1)) = some true := by
      decide +kernel
    obtain ⟨⟨u, b⟩, hrun, hview⟩ := Option.bind_eq_some_iff.1 hview
    obtain ⟨⟨w, ack⟩, hv, hview⟩ := Option.bind_eq_some_iff.1 hview
    obtain ⟨c, hc, hview⟩ := Option.bind_eq_some_iff.1 hview
    obtain ⟨g, hm, hview⟩ := Option.bind_eq_some_iff.1 hview
    obtain ⟨hcid, hcode, hr, hnone, hcheck, hopen, hn, hroute⟩ :=
      of_decide_eq_true (Option.some.inj hview)
    have ht : Trail Takeover.settings (u ++ [(b, .fetchCall 0 0)]) g :=
      (trail_of_trail? hrun).1.move (by rintro ⟨⟩) hm
    have hrefusals : (refusals (u ++ [(b, .fetchCall 0 0)]) 1).map (·.cmd) = [.onlineAck] := by
      rw [refusals, List.filterMap_append, List.map_append, ← refusals, hr]
      simp [hnone]
    refine ⟨_, g, ht, hrefusals, hn, hroute, fun hst ↦ ?_⟩
    refine hst.not_acceptedLate ht
      ⟨u, b, _, [], w, ack, c, rfl, hv, hcid, hcode, ?_, hc, hcheck, hopen⟩
    rintro hnil
    rw [hnil] at hr
    cases hr

end Gateway

end EdgeGateway
