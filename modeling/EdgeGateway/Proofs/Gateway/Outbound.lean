import EdgeGateway.Proofs.Gateway.Trail

/-!
# What goes through the outbound queue

Listeners, releases and the reporter send frames to the outbound queue, and the links take them. In
every run the queue holds the last of what was sent, in the order in which it was sent, and what a
listener sends comes from events that it heard one after the other in the order in which its client
sent them.
-/

namespace EdgeGateway

namespace Pool

variable {κ : Type} {p q : Pool κ}

/-- Nothing is sent to the backend, but the frame that has waited longest may be taken. -/
def Drains (p q : Pool κ) : Prop :=
  q.settings = p.settings ∧
    (q.outbound = p.outbound ∨ ∃ f, p.outbound.receive = some (f, q.outbound))

/-- A pool whose outlet is the same has drained nothing else. -/
theorem Drains.of_outlet (h : q.outlet = p.outlet) : p.Drains q :=
  ⟨congrArg Prod.fst h, .inl (congrArg Prod.snd h)⟩

private theorem outlet_accept (p : Pool κ) (i : Nat) (l : Link κ) (s : Service κ) (f : Frame) :
    (p.accept i l s f).outlet = p.outlet := by
  rw [accept]
  split
  · split <;> rfl
  · rfl

private theorem drains_fetchOutbound {i : Nat} (h : p.fetchOutbound i = some q) : p.Drains q := by
  obtain ⟨⟨l, s⟩, -, h⟩ := Option.bind_eq_some_iff.1 h
  simp only at h
  split at h
  · cases h
  · split at h
    · cases h
      exact .of_outlet rfl
    · obtain ⟨⟨f, outbound⟩, hr, h⟩ := Option.bind_eq_some_iff.1 h
      cases h
      exact ⟨rfl, .inr ⟨f, hr⟩⟩

private theorem outlet_read {i : Nat} (h : p.read i = some q) : q.outlet = p.outlet := by
  obtain ⟨⟨l, s⟩, -, h⟩ := Option.bind_eq_some_iff.1 h
  simp only at h
  split at h
  · cases h
  · obtain ⟨w, -, h⟩ := Option.bind_eq_some_iff.1 h
    split at h <;> cases h
    · rfl
    · rfl
    · exact outlet_accept _ i l s _

private theorem outlet_readLast {i : Nat} (h : p.readLast i = some q) : q.outlet = p.outlet := by
  obtain ⟨⟨l, s⟩, -, h⟩ := Option.bind_eq_some_iff.1 h
  simp only at h
  split at h
  · cases h
  · obtain ⟨w, -, h⟩ := Option.bind_eq_some_iff.1 h
    split at h
    · split at h <;> cases h
      rfl
    · cases h

/-- What a worker has in hand is no matter of the outlet. -/
theorem outlet_setWorker (p : Pool κ) (i w : Nat) (x : Worker κ) :
    (p.setWorker i w x).outlet = p.outlet := by
  rw [setWorker]
  split <;> rfl

private theorem outlet_stopWorker {i w : Nat} (h : p.stopWorker i w = some q) :
    q.outlet = p.outlet := by
  obtain ⟨⟨l, s⟩, -, h⟩ := Option.bind_eq_some_iff.1 h
  obtain ⟨x, -, h⟩ := Option.bind_eq_some_iff.1 h
  split at h
  · split at h <;> cases h
    exact p.outlet_setWorker i w .ended
  · cases h

/-- What the links do sends nothing. -/
theorem drains_of_move? {now : Nat} {m : Move} (h : p.move? now m = some q) : p.Drains q := by
  cases m with
  | fetchOutbound i => exact drains_fetchOutbound h
  | read i => exact .of_outlet (outlet_read h)
  | readLast i => exact .of_outlet (outlet_readLast h)
  | stopWorker i w => exact .of_outlet (outlet_stopWorker h)
  | connect i | refuse i | wake i | halt i =>
    obtain ⟨l, -, h⟩ := Option.bind_eq_some_iff.1 h
    repeat' split at h
    all_goals cases h
    all_goals exact .of_outlet rfl
  | stopWriter i | readOn i | stopReader i | supervise i final | conclude i =>
    obtain ⟨⟨l, s⟩, -, h⟩ := Option.bind_eq_some_iff.1 h
    simp only at h
    repeat' split at h
    all_goals cases h
    all_goals exact .of_outlet rfl
  | transmit i n =>
    obtain ⟨⟨wire, f, left⟩, -, h⟩ := Option.bind_eq_some_iff.1 h
    obtain ⟨l, -, h⟩ := Option.bind_eq_some_iff.1 h
    split at h <;> cases h
    exact .of_outlet rfl
  | failWrite i =>
    obtain ⟨⟨wire, f, left⟩, -, h⟩ := Option.bind_eq_some_iff.1 h
    obtain ⟨l, -, h⟩ := Option.bind_eq_some_iff.1 h
    simp only at h
    split at h <;> cases h <;> exact .of_outlet rfl
  | tick | stopTicker =>
    simp only [move?, tick, stopTicker] at h
    repeat' split at h
    all_goals cases h
    all_goals exact .of_outlet rfl

end Pool

namespace Gateway

variable {s : Settings} {t : List (Gateway × Move)} {g g' b : Gateway} {m : Move} {cid : UInt64}

/-- The frame that a move sends to the outbound queue. -/
def sent? (g : Gateway) : Move → Option Frame
  | .hear cid => (g.relayed? cid (.hear cid)).map fun p ↦ g.pool.frame p.2.cmd p.2.bytes
  | .sendFarewell k => g.hub.farewells[k]?.map fun w ↦ g.pool.frame w.cmd w.bytes
  | .report => some (g.reportFrame g.snapshot)
  | _ => none

private theorem sent?_hear (g : Gateway) (cid : UInt64) : g.sent? (.hear cid) =
    (g.relayed? cid (.hear cid)).map fun p ↦ g.pool.frame p.2.cmd p.2.bytes := rfl

private theorem sent?_sendFarewell (g : Gateway) (k : Nat) : g.sent? (.sendFarewell k) =
    g.hub.farewells[k]?.map fun w ↦ g.pool.frame w.cmd w.bytes := rfl

private theorem Move.Restful.sent?_eq_none (hm : m.Restful) (g : Gateway) : g.sent? m = none := by
  cases m with
  | hear | sendFarewell | report => exact hm.elim
  | _ => rfl

private theorem outlet_of_hears {e : SocketEvent} {c : Connection} {l : Listener}
    (hh : g.Hears cid e c l g') :
    match g.sent? (.hear cid) with
    | some f => g'.pool.outlet = g.pool.outletWith f
    | none => g.pool.Drains g'.pool := by
  have hs : g.sent? (.hear cid) =
      (g.passing? cid).map fun p ↦ g.pool.frame p.2.1.cmd p.2.1.bytes := by
    rw [sent?_hear, relayed?, if_pos rfl, Option.map_map]
    rfl
  rw [hs]
  cases hh with
  | nothing hp _ _ hpool =>
    rw [hp]
    exact .of_outlet (by rw [hpool])
  | passes hp _ _ hout =>
    rw [hp]
    exact hout

/-- What a worker does with a message sends nothing. -/
theorem outlet_runCall (g : Gateway) (i w : Nat) (d : Downlink) :
    (g.runCall i w d).pool.outlet = g.pool.outlet := by
  rw [runCall]
  split <;> exact g.pool.outlet_setWorker i w _

/-- Fetching and handling a call changes nothing of the outbound queue. -/
theorem outlet_fetchCall {i w : Nat} (h : g.fetchCall i w = some g') :
    g'.pool.outlet = g.pool.outlet := by
  obtain ⟨⟨f, pool⟩, hf, h⟩ := Option.bind_eq_some_iff.1 h
  have hp : pool.outlet = g.pool.outlet := by
    obtain ⟨x, -, hf⟩ := Option.bind_eq_some_iff.1 hf
    split at hf
    · obtain ⟨⟨f', inbound⟩, -, hf⟩ := Option.bind_eq_some_iff.1 hf
      cases hf
      rfl
    · cases hf
  simp only at h
  split at h <;> cases h
  · exact hp
  · exact (outlet_runCall { g with pool } i w _).trans hp

private theorem outlet_resumeListener (h : g.resumeListener cid = some g') :
    g'.pool.outlet = g.pool.outlet := by
  obtain ⟨⟨s, c⟩, -, h⟩ := Option.bind_eq_some_iff.1 h
  simp only at h
  split at h
  · next after _ =>
    split at h <;> cases h
    obtain ⟨-, -, -, hp, -⟩ := g.afterForward_cases cid after
    rw [hp]
  · split at h <;> cases h
    rfl
  · cases h

/-- What a move does to the outbound queue. -/
theorem outlet_of_move? (hn : g.hub.conns.Numbered) (h : g.move? m = some g') :
    match g.sent? m with
    | some f => g'.pool.outlet = g.pool.outletWith f
    | none => g.pool.Drains g'.pool := by
  by_cases hm : m.Restful
  · rw [hm.sent?_eq_none]
    exact .of_outlet (rests_of_move? hn hm h).outlet
  · cases m with
    | hear cid =>
      obtain ⟨e, inbox, c, l, -, -, -, -, hh⟩ := hear_cases hn h
      exact outlet_of_hears hh
    | sendFarewell k =>
      obtain ⟨w, hw, h⟩ := Option.bind_eq_some_iff.1 h
      cases h
      simp only [sent?_sendFarewell, hw, Option.map_some]
      rfl
    | report =>
      rw [move?, report] at h
      split at h
      · split at h <;> cases h
        rfl
      · cases h
    | link m =>
      obtain ⟨pool, hp, rfl⟩ := Option.map_eq_some_iff.1 h
      exact Pool.drains_of_move? hp
    | connect =>
      obtain ⟨⟨k, g'⟩, ho, rfl⟩ := Option.map_eq_some_iff.1 h
      simp only [open?] at ho
      split at ho <;> cases ho
      exact .of_outlet rfl
    | say cid e =>
      cases h
      exact .of_outlet rfl
    | heed cid | finishSocket cid =>
      obtain ⟨⟨s, c⟩, -, h⟩ := Option.bind_eq_some_iff.1 h
      simp only at h
      split at h <;> cases h
      exact .of_outlet rfl
    | resumeListener cid => exact .of_outlet (outlet_resumeListener h)
    | fetchCall i w => exact .of_outlet (outlet_fetchCall h)
    | resumeCall i w =>
      obtain ⟨x, -, h⟩ := Option.bind_eq_some_iff.1 h
      split at h
      · split at h <;> cases h
        exact .of_outlet (g.outlet_runCall i w _)
      · cases h
    | _ => exact absurd trivial hm

/-! ### Whole runs -/

/-- The frames that have been sent to the outbound queue. -/
def sent (t : List (Gateway × Move)) : List Frame := t.filterMap fun p ↦ p.1.sent? p.2

/-- What a client sends in a move. -/
def said? (cid : UInt64) : Move → Option SocketEvent
  | .say k e => if k = cid then some e else none
  | _ => none

/-- What a client has sent. -/
def said (t : List (Gateway × Move)) (cid : UInt64) : List SocketEvent :=
  t.filterMap fun p ↦ said? cid p.2

private theorem sent_append (t : List (Gateway × Move)) (b : Gateway) (m : Move) :
    sent (t ++ [(b, m)]) = sent t ++ (b.sent? m).toList := by
  cases h : b.sent? m <;> simp [sent, h]

private theorem said_append (t : List (Gateway × Move)) (b : Gateway) (m : Move) (cid : UInt64) :
    said (t ++ [(b, m)]) cid = said t cid ++ (said? cid m).toList := by
  cases h : said? cid m <;> simp [said, h]

-- The settings of the links are those of the gateway, and the outbound queue holds the last of
-- what was sent.
private structure Keeping (s : Settings) (t : List (Gateway × Move)) (g : Gateway) : Prop where
  settings : g.pool.settings = s.link
  tidy : g.pool.outbound.Tidy
  closed : g.pool.outbound.closed = false
  held : g.pool.outbound.contents <:+ sent t

private theorem keeping_of_trail (ht : Trail s t g) : Keeping s t g := by
  induction ht with
  | fresh => exact ⟨rfl, Channel.tidy_empty _, rfl, List.nil_suffix⟩
  | @move t g h m ht _ hm ih =>
    obtain ⟨hs, htidy, hc, hheld⟩ := ih
    have ho := outlet_of_move? ht.sound.tables.numbered hm
    split at ho
    · next f hf =>
      have hout : h.pool.outbound = (g.pool.outbound.send f).2 := congrArg Prod.snd ho
      refine ⟨(congrArg Prod.fst ho).trans hs, ?_, ?_, ?_⟩
      · rw [hout]
        exact Channel.tidy_send htidy f
      · rw [hout, Channel.closed_send, hc]
      · rw [hout, Channel.contents_send htidy hc, sent_append, hf]
        obtain ⟨u, hu⟩ := hheld
        exact ⟨u, by rw [← List.append_assoc, hu]; rfl⟩
    · next hf =>
      obtain ⟨hs', ho | ⟨f, hr⟩⟩ := ho
      · rw [← ho] at htidy hc hheld
        refine ⟨hs'.trans hs, htidy, hc, ?_⟩
        rw [sent_append, hf, Option.toList_none, List.append_nil]
        exact hheld
      · refine ⟨hs'.trans hs, Channel.tidy_receive htidy hr,
          (Channel.closed_of_receive hr).trans hc, ?_⟩
        rw [sent_append, hf, Option.toList_none, List.append_nil]
        rw [Channel.contents_of_receive hr] at hheld
        exact (List.suffix_cons f _).trans hheld

/-- In every run the outbound queue holds the last of what was sent. -/
theorem contents_suffix_sent (ht : Trail s t g) : g.pool.outbound.contents <:+ sent t :=
  (keeping_of_trail ht).held

private theorem sent?_of_relayed? {p : SocketEvent × Message} (hr : b.relayed? cid m = some p) :
    b.sent? m = some (p.2.wrap b.pool.settings.nid) := by
  cases m with
  | hear k =>
    have hk : k = cid := by
      by_contra hne
      rw [relayed?, if_neg hne] at hr
      cases hr
    subst hk
    rw [sent?_hear, hr]
    rfl
  | _ => cases hr

/-- What the listener of a connection passes on is sent in that order. -/
theorem relays_sublist_sent (ht : Trail s t g) (cid : UInt64) :
    ((relays t cid).map fun p ↦ p.2.wrap s.link.nid).Sublist (sent t) := by
  induction ht with
  | fresh => exact .slnil
  | @move t g h m ht _ _ ih =>
    rw [relays_append, sent_append, List.map_append]
    refine ih.append ?_
    cases hr : g.relayed? cid m with
    | none => exact List.nil_sublist _
    | some p =>
      rw [sent?_of_relayed? hr, (keeping_of_trail ht).settings]
      exact List.Sublist.refl _

/-- What the listener of a connection has before it. -/
def inbox (g : Gateway) (cid : UInt64) : List SocketEvent :=
  match g.ear? cid with
  | some x => x.inbox
  | none => []

private theorem inbox_of_ear? (h : g'.ear? cid = g.ear? cid) : g'.inbox cid = g.inbox cid := by
  rw [inbox, inbox, h]

private theorem inbox_of_map {f : Ear → Ear} (hf : ∀ x, (f x).inbox = x.inbox)
    (h : g'.ear? cid = (g.ear? cid).map f) : g'.inbox cid = g.inbox cid := by
  rw [inbox, inbox, h]
  cases g.ear? cid with
  | none => rfl
  | some x => exact hf x

private theorem inbox_of_turn (ht : Turn g m g') (cid : UInt64) :
    ((g.relayed? cid m).toList.map Prod.fst ++ g'.inbox cid).Sublist
      (g.inbox cid ++ (said? cid m).toList) := by
  have same : g.relayed? cid m = none → g'.inbox cid = g.inbox cid →
      ((g.relayed? cid m).toList.map Prod.fst ++ g'.inbox cid).Sublist
        (g.inbox cid ++ (said? cid m).toList) := by
    intro hr hi
    rw [hr, hi]
    exact List.sublist_append_left _ _
  cases ht with
  | idle hm _ he => exact same (hm.silent g cid).1 (inbox_of_ear? (he cid))
  | fetchCall _ he | resumeCall _ he | sendFarewell _ _ he =>
    exact same rfl (inbox_of_ear? (he cid))
  | heed _ _ _ _ he | resumeListener _ _ _ he _ | finishSocket _ _ _ _ _ _ he =>
    refine same rfl (inbox_of_map ?_ (he cid))
    intro x
    split <;> rfl
  | connect _ _ he =>
    by_cases hk : cid = g.hub.conns.next
    · have hi : g'.inbox cid = [] := by rw [inbox, he, if_pos hk]
      rw [hi]
      exact List.nil_sublist _
    · exact same rfl (inbox_of_ear? (by rw [he, if_neg hk]))
  | @say k e _ _ he =>
    by_cases hk : k = cid
    · subst hk
      have hs : said? k (.say k e) = some e := if_pos rfl
      rw [hs, inbox, inbox, he]
      cases g.ear? k with
      | none => exact List.nil_sublist _
      | some x =>
        rw [Option.map_some, if_pos rfl]
        exact List.Sublist.refl _
    · refine same rfl (inbox_of_ear? ?_)
      simp only [he, if_neg (Ne.symm hk), Option.map_id']
  | @hear k e inbox c l _ hk _ hk' hoth hh =>
    by_cases hkc : k = cid
    · subst hkc
      have hr : g.relayed? k (.hear k) = (g.passing? k).map fun p ↦ (p.1, p.2.1) := if_pos rfl
      have hs : said? k (.hear k) = none := rfl
      rw [hr, hs, Option.toList_none, List.append_nil, Gateway.inbox, Gateway.inbox, hk, hk']
      cases hh with
      | nothing hp =>
        rw [hp]
        exact List.sublist_cons_self e inbox
      | passes hp =>
        rw [hp]
        exact List.Sublist.refl _
    · exact same (if_neg hkc) (inbox_of_ear? (hoth cid (Ne.symm hkc)))

/-- What a listener has passed on comes from events that its client has sent, each at most once and
in that order, and what is left before it was sent later. -/
theorem relays_sublist_said (ht : Trail s t g) (cid : UInt64) :
    ((relays t cid).map Prod.fst ++ g.inbox cid).Sublist (said t cid) := by
  induction ht with
  | fresh => exact .slnil
  | @move t g h m ht hc hm ih =>
    have hsub := inbox_of_turn (turn_of_move? ht.sound.tables.numbered ht.sound.calls hm) cid
    rw [relays_append, said_append, List.map_append, List.append_assoc]
    refine ((List.Sublist.refl _).append hsub).trans ?_
    rw [← List.append_assoc]
    exact ih.append (List.Sublist.refl _)

private theorem farewells_still (hm : g.releasing? m = none)
    (hf : g'.hub.farewells = g.hub.farewells) :
    g'.hub.farewells = g.hub.farewells ++ ((g.releasing? m).bind g.hub.parting?).toList := by
  rw [hm, hf]
  exact (List.append_nil _).symm

private theorem farewells_of_turn (ht : Turn g m g') :
    g'.hub.farewells = g.hub.farewells ++ ((g.releasing? m).bind g.hub.parting?).toList ∨
      ∃ k w, m = .sendFarewell k ∧ g.hub.farewells[k]? = some w ∧
        g'.hub.farewells = g.hub.farewells.eraseIdx k := by
  cases ht with
  | idle hm hh =>
    refine .inl (farewells_still ?_ hh.farewells)
    cases m <;> first | exact hm.elim | rfl
  | connect _ hh | say hh | heed _ _ _ hh => exact .inl (farewells_still rfl (by rw [hh]))
  | hear _ _ _ _ hh =>
    refine .inl (farewells_still rfl ?_)
    cases hh with
    | nothing _ _ hq => exact hq.farewells
    | passes _ _ hu _ hafter =>
      cases hu with
      | request =>
        rw [hafter.2]
        rfl
      | relay _ _ _ hq => rw [hafter.2, hq.farewells]
      | offline =>
        rcases hafter with ⟨-, hh⟩ | ⟨-, hq⟩
        · rw [hh]
        · exact hq.farewells
  | resumeListener _ _ _ _ hh =>
    refine .inl (farewells_still rfl ?_)
    rcases hh with ⟨-, hh⟩ | ⟨-, hq⟩
    · rw [hh]
    · exact hq.farewells
  | fetchCall hh =>
    refine .inl (farewells_still rfl ?_)
    cases hh with
    | quiet hq | kicked _ _ hq | admitted _ _ hq | tookOver _ _ _ _ _ hq => exact hq.farewells
  | resumeCall hh =>
    split at hh
    · next hr =>
      rw [hh, Hub.farewells_released, hr]
      exact .inl rfl
    · next hr => exact .inl (farewells_still hr hh.farewells)
  | @finishSocket cid _ _ _ _ _ _ _ _ hh =>
    rw [hh, Closing.run_eq]
    exact .inl (Hub.farewells_released { g.hub with conns := g.hub.conns.deregister cid } cid)
  | sendFarewell hw hh => exact .inr ⟨_, _, rfl, hw, by rw [hh]⟩

private theorem noticed_of_farewells (ht : Trail s t g) {w : Message} (hw : w ∈ g.hub.farewells) :
    ∃ cid, w ∈ notices t cid := by
  induction ht with
  | fresh => cases hw
  | @move t g h m ht _ hm ih =>
    have hg := ht.sound
    have before : w ∈ g.hub.farewells → ∃ cid, w ∈ notices (t ++ [(g, m)]) cid := by
      intro hw
      obtain ⟨cid, hcid⟩ := ih hw
      exact ⟨cid, by rw [notices_append]; exact List.mem_append_left _ hcid⟩
    rcases farewells_of_turn (turn_of_move? hg.tables.numbered hg.calls hm) with hf
      | ⟨k, _, -, -, hf⟩
    · rw [hf] at hw
      rcases List.mem_append.1 hw with hw | hw
      · exact before hw
      · obtain ⟨cid, hr, hp⟩ := Option.bind_eq_some_iff.1 (Option.mem_toList.1 hw)
        have hn : g.noticed? cid m = some w := by rw [noticed?, if_pos hr, hp]
        exact ⟨cid,
          by rw [notices_append, hn]; exact List.mem_append_right _ (List.mem_singleton_self w)⟩
    · rw [hf] at hw
      exact before (List.mem_of_mem_eraseIdx hw)

/-- What the backend is told of the end of a session is on its way to the outbound queue or has been
sent there. -/
theorem handed_of_notices (ht : Trail s t g) {w : Message} (hw : w ∈ notices t cid) :
    w ∈ g.hub.farewells ∨ w.wrap s.link.nid ∈ sent t := by
  induction ht with
  | fresh => cases hw
  | @move t g h m ht _ hm ih =>
    have hg := ht.sound
    rw [sent_append]
    rcases farewells_of_turn (turn_of_move? hg.tables.numbered hg.calls hm) with hf
      | ⟨k, x, rfl, hx, hf⟩
    · rw [notices_append] at hw
      rcases List.mem_append.1 hw with hw | hw
      · refine (ih hw).imp (fun h ↦ ?_) (List.mem_append_left _)
        rw [hf]
        exact List.mem_append_left _ h
      · obtain ⟨hr, hp⟩ := Option.ite_none_right_eq_some.1 (Option.mem_toList.1 hw)
        refine .inl ?_
        rw [hf, hr, Option.bind_some, hp]
        exact List.mem_append_right _ (List.mem_singleton_self w)
    · have hn : g.noticed? cid (.sendFarewell k) = none := noticed?_eq_none rfl
      rw [notices_append, hn, Option.toList_none, List.append_nil] at hw
      rcases ih hw with hw | hw
      · -- Either this is the message that is sent now, or it stays on its way.
        by_cases he : w = x
        · refine .inr (List.mem_append_right _ ?_)
          rw [sent?_sendFarewell, hx, he, ← (keeping_of_trail ht).settings]
          exact List.mem_singleton_self _
        · refine .inl ?_
          rw [hf]
          obtain ⟨j, hj⟩ := List.mem_iff_getElem?.1 hw
          refine (List.mem_eraseIdx_iff_getElem?).2 ⟨j, ?_, hj⟩
          rintro rfl
          exact he (Option.some.inj (hj.symm.trans hx))
      · exact .inr (List.mem_append_left _ hw)

/-- Everything that is sent is a report of the gateway, or carries what a listener passes on or what
tells that the session of a connection has ended. -/
theorem sent_cases (ht : Trail s t g) {f : Frame} (hf : f ∈ sent t) :
    f.cmd = .livenessReport ∨
      ∃ cid w, (w ∈ (relays t cid).map Prod.snd ∨ w ∈ notices t cid) ∧
        f = w.wrap s.link.nid := by
  induction ht with
  | fresh => cases hf
  | @move t g h m ht _ hm ih =>
    rw [sent_append] at hf
    rcases List.mem_append.1 hf with hf | hf
    · refine (ih hf).imp id ?_
      rintro ⟨cid, w, hw, rfl⟩
      refine ⟨cid, w, hw.imp (fun hw ↦ ?_) (fun hw ↦ ?_), rfl⟩
      · rw [relays_append, List.map_append]
        exact List.mem_append_left _ hw
      · rw [notices_append]
        exact List.mem_append_left _ hw
    · rw [Option.mem_toList] at hf
      have hnid : g.pool.settings = s.link := (keeping_of_trail ht).settings
      cases m with
      | hear cid =>
        obtain ⟨p, hp, rfl⟩ := Option.map_eq_some_iff.1 hf
        refine .inr ⟨cid, p.2, .inl ?_, by rw [← hnid]; rfl⟩
        rw [relays_append, hp, List.map_append]
        exact List.mem_append_right _ (List.mem_singleton_self _)
      | sendFarewell k =>
        obtain ⟨w, hw, rfl⟩ := Option.map_eq_some_iff.1 hf
        obtain ⟨cid, hcid⟩ := noticed_of_farewells ht (List.mem_of_getElem? hw)
        refine .inr ⟨cid, w, .inr ?_, by rw [← hnid]; rfl⟩
        rw [notices_append]
        exact List.mem_append_left _ hcid
      | report =>
        cases hf
        exact .inl rfl
      | _ => cases hf

end Gateway

end EdgeGateway
