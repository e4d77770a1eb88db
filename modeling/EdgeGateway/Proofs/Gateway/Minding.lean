import EdgeGateway.Proofs.Gateway.Footing

/-!
# Somebody minds every route

A route must not outlive its connection. Whoever binds one minds it until it has seen that the
connection is still open, or has released it; and a connection that is open is registered, so that
its end is still to come and will release whatever is routed to it. Hence each route leads to a
connection that is registered, or somebody is at work who will see to it, as long as the queue of
evictions is open: a handling that finds it closed gives up.
-/

namespace EdgeGateway

/-! ### The queue of evictions stays closed -/

namespace Hub

variable {h h' : Hub}

/-- Nobody takes notices any more. -/
def Unattended (h : Hub) : Prop := h.sweeper.queue.closed = true

private theorem Change.unattended (hc : h.Change h') (hu : h.Unattended) : h'.Unattended := by
  cases hc with
  | rest now sweeper farewells hq => exact hq hu
  | conn hf ha => exact hu
  | connect capacity hn => exact hu
  | leaveRoom rid sid => exact hu

private theorem Changes.unattended (hc : h.Changes h') (hu : h.Unattended) : h'.Unattended := by
  induction hc with
  | refl => exact hu
  | tail _ hch ih => exact hch.unattended ih

private theorem Op.unattended {route : Option (UInt64 × UInt64)} (ho : h.Op route h')
    (hu : h.Unattended) : h'.Unattended := by
  cases ho with
  | changes hc => exact hc.unattended hu
  | _ => exact hu

private theorem unattended_of_refused {ticket : Nat} (hr : h.eviction ticket = .refused) :
    h.Unattended := by
  simp only [eviction, Channel.delivery] at hr
  split at hr
  · split at hr
    · next hc => exact hc
    · cases hr
  · cases hr

end Hub

/-! ### Minding a route -/

/-- The release is still to look for a route to its connection. -/
def Release.Seeks (cid : UInt64) : Release → Prop
  | .inspect k | .unbind k _ _ => k = cid
  | .clear .. => False

/-- The ending is still to look for a route to its connection. -/
def Closing.Seeks (cid : UInt64) : Closing → Prop
  | .release _ r => r.Seeks cid
  | .deregister _ | .retire _ => False

/-- The handling has routed a session to a connection, and is still to see that it is open or to
look for the route to take it away. -/
def Downlink.Minds (cid : UInt64) : Downlink → Prop
  | .rebind _ k _ | .displace _ k _ | .verify _ k => k = cid
  | .evict _ (some (_, k)) | .waiting _ (some (_, k)) => k = cid
  | .release r => r.Seeks cid
  | _ => False

variable {h h' : Hub} {cid sid : UInt64}

/-- A release that has looked for the route to its connection has taken it away. -/
theorem Release.Seeks.step {r : Release} {o : Option Release} (hr : r.Seeks cid)
    (hf : r.Founded h) (h0 : sid ≠ 0) (hb : h.Bears cid sid) (hs : r.step h = (h', o))
    (hl : h'.router.lookup sid = some cid) : ∃ r' ∈ o, r'.Seeks cid := by
  cases r with
  | inspect k =>
    cases hr
    obtain ⟨c, hc, hsid, -⟩ := hb
    simp only [Release.step, hc, Prod.mk.injEq] at hs
    obtain ⟨-, rfl⟩ := hs
    rw [hsid, if_neg h0]
    exact ⟨_, rfl, rfl⟩
  | unbind k s status =>
    cases hr
    have he : sid = s := hb.eq_of_shutWith hf
    subst he
    rw [Release.step_unbind] at hs
    split at hs <;> cases hs
    · next hw =>
      rw [Router.lookup_unbind, if_pos ⟨rfl, hw⟩] at hl
      cases hl
    · next hw => exact absurd hl hw
  | clear k s status => cases hr

/-- Whoever minds a route goes on minding it until the connection has been found to be open. -/
theorem Downlink.Minds.step {d : Downlink} {o : Outcome} (hd : d.Minds cid) (hf : d.Founded h)
    (hn : h.conns.Numbered) (h0 : sid ≠ 0) (hb : h.Bears cid sid) (hs : d.step h = some (h', o))
    (hl : h'.router.lookup sid = some cid) :
    h'.Unattended ∨ h'.conns.isLive cid = true ∨ ∃ d' ∈ o.calls, d'.Minds cid := by
  cases d with
  | rebind m k displaced =>
    simp only [Downlink.step] at hs
    split at hs <;> cases hs <;> exact .inr (.inr ⟨_, List.mem_singleton_self _, hd⟩)
  | displace m k old =>
    simp only [Downlink.step] at hs
    split at hs <;> cases hs <;> exact .inr (.inr ⟨_, List.mem_singleton_self _, hd⟩)
  | evict old after =>
    cases hs
    cases after with
    | none => cases hd
    | some p => exact .inr (.inr ⟨_, List.mem_singleton_self _, hd⟩)
  | waiting ticket after =>
    cases after with
    | none => cases hd
    | some p =>
      simp only [Downlink.step] at hs
      split at hs <;> cases hs
      · exact .inr (.inr ⟨_, List.mem_singleton_self _, hd⟩)
      · next hr => exact .inl (Hub.unattended_of_refused hr)
  | verify m k =>
    cases hd
    obtain ⟨c, hc, -⟩ := hb
    simp only [Downlink.step, hc] at hs
    cases hs
    by_cases hcl : c.closed = true
    · rw [if_pos hcl]
      exact .inr (.inr ⟨_, List.mem_singleton_self _, rfl⟩)
    · exact .inr (.inl (hn.isLive_of_open cid c hc (Bool.eq_false_iff.2 hcl)))
  | release r =>
    simp only [Downlink.step] at hs
    split at hs <;> cases hs
    · next hr =>
      obtain ⟨r', hr', hk⟩ := Release.Seeks.step hd hf h0 hb hr hl
      cases hr'
      exact .inr (.inr ⟨_, List.mem_singleton_self _, hk⟩)
    · next hr =>
      obtain ⟨r', hr', -⟩ := Release.Seeks.step hd hf h0 hb hr hl
      cases hr'
  | _ => cases hd

/-- An ending that has looked for the route to its connection has taken it away. -/
theorem Closing.Seeks.step {e : Closing} {o : Option Closing} (he : e.Seeks cid)
    (hf : e.Founded h) (h0 : sid ≠ 0) (hb : h.Bears cid sid) (hs : e.step h = (h', o))
    (hl : h'.router.lookup sid = some cid) : ∃ e' ∈ o, e'.Seeks cid := by
  cases e with
  | deregister k => cases he
  | release k r =>
    simp only [Closing.step] at hs
    split at hs <;> cases hs
    · next hr =>
      obtain ⟨r', hr', hk⟩ := Release.Seeks.step he hf.1 h0 hb hr hl
      cases hr'
      exact ⟨_, rfl, hk⟩
    · next hr =>
      obtain ⟨r', hr', -⟩ := Release.Seeks.step he hf.1 h0 hb hr hl
      cases hr'
  | retire k => cases he

/-! ### Every route is minded -/

namespace Crew

/-- No session without a name is routed or about to be. -/
structure Named (c : Crew) : Prop where
  routes : ∀ sid cid, c.hub.router.lookup sid = some cid → sid ≠ 0
  calls : ∀ d ∈ c.calls, d.Named

private theorem Named.act {c c' : Crew} {e : Option Event} (hc : c.Sound) (hnamed : c.Named)
    (ha : Act Naming c e c') : c'.Named := by
  cases ha with
  | change hch =>
    refine ⟨?_, hnamed.calls⟩
    intro sid cid hl
    rw [hch.router] at hl
    exact hnamed.routes sid cid hl
  | receive hn =>
    refine ⟨hnamed.routes, ?_⟩
    intro d hd
    rcases List.mem_cons.1 hd with rfl | hd
    · exact hn
    · exact hnamed.calls d hd
  | @call h h' d o a b es hs =>
    have hd : d ∈ a ++ d :: b := List.mem_append_right _ List.mem_cons_self
    refine ⟨?_, ?_⟩
    · intro sid cid hl
      rcases (Downlink.op_of_step hc.numbered hs).lookup hl with hl | hr
      · exact hnamed.routes sid cid hl
      · obtain ⟨m, rfl, rfl⟩ := Downlink.route?_eq_some_iff.1 hr
        exact hnamed.calls _ hd
    · intro x hx
      rcases mem_of_mem_replaced (x := d) hx with hx | hx
      · exact hnamed.calls x hx
      · rw [Downlink.Outcome.mem_calls] at hx
        subst hx
        exact (hnamed.calls d hd).step hs
  | depart hf hcl hl hno => exact ⟨hnamed.routes, hnamed.calls⟩
  | ending hs =>
    refine ⟨?_, hnamed.calls⟩
    intro sid cid hl
    rcases Closing.op_of_step hs with hop | ⟨k, -, rfl, -⟩
    · exact hnamed.routes sid cid ((hop.lookup hl).resolve_right nofun)
    · exact hnamed.routes sid cid hl

/-- Each route leads to a registered connection, or somebody minds it. -/
def Minded (c : Crew) : Prop :=
  ∀ sid cid, c.hub.router.lookup sid = some cid →
    c.hub.conns.isLive cid = true ∨ (∃ d ∈ c.calls, d.Minds cid) ∨
    ∃ e ∈ c.endings, e.Seeks cid

private theorem minded_call {h h' : Hub} {d : Downlink} {o : Downlink.Outcome}
    {a b : List Downlink} {es : List Closing} (hc : Sound ⟨h, a ++ d :: b, es⟩)
    (hnamed : Named ⟨h, a ++ d :: b, es⟩) (hm : Minded ⟨h, a ++ d :: b, es⟩)
    (hs : d.step h = some (h', o)) :
    h'.Unattended ∨ Minded ⟨h', a ++ o.calls ++ b, es⟩ := by
  have hd : d ∈ a ++ d :: b := List.mem_append_right _ List.mem_cons_self
  by_cases hu : h'.Unattended
  · exact .inl hu
  refine .inr ?_
  intro sid cid hl
  have hop := Downlink.op_of_step hc.numbered hs
  rcases hop.lookup hl with hl₀ | hr
  · have h0 := hnamed.routes sid cid hl₀
    have hb := hc.owner sid cid hl₀
    rcases hm sid cid hl₀ with hlive | hcall | hending
    · exact .inl (hop.isLive hlive)
    · rcases exists_replaced hcall with hk | hcall
      · rcases hk.step (hc.calls _ hd) hc.numbered h0 hb hs hl with hq | hlive | hcall
        · exact absurd hq hu
        · exact .inl hlive
        · exact .inr (.inl (exists_becoming hcall))
      · exact .inr (.inl hcall)
    · exact .inr (.inr hending)
  · obtain ⟨m, rfl, rfl⟩ := Downlink.route?_eq_some_iff.1 hr
    cases hs
    exact .inr (.inl (exists_becoming ⟨_, List.mem_singleton_self _, rfl⟩))

private theorem minded_ending {h h' : Hub} {e : Closing} {o : Option Closing}
    {ds : List Downlink} {a b : List Closing} (hc : Sound ⟨h, ds, a ++ e :: b⟩)
    (hnamed : Named ⟨h, ds, a ++ e :: b⟩) (hm : Minded ⟨h, ds, a ++ e :: b⟩)
    (hs : e.step h = (h', o)) : Minded ⟨h', ds, a ++ o.toList ++ b⟩ := by
  have he : e ∈ a ++ e :: b := List.mem_append_right _ List.mem_cons_self
  intro sid cid hl
  rcases Closing.op_of_step hs with hop | ⟨k, rfl, rfl, rfl⟩
  · have hl₀ := (hop.lookup hl).resolve_right nofun
    have h0 := hnamed.routes sid cid hl₀
    have hb := hc.owner sid cid hl₀
    rcases hm sid cid hl₀ with hlive | hcall | hending
    · exact .inl (hop.isLive hlive)
    · exact .inr (.inl hcall)
    · rcases exists_replaced hending with hk | hending
      · obtain ⟨e', he', hk'⟩ := hk.step (hc.endings _ he) h0 hb hs hl
        exact .inr (.inr (exists_becoming ⟨e', Option.mem_toList.2 he', hk'⟩))
      · exact .inr (.inr hending)
  · rcases hm sid cid hl with hlive | hcall | hending
    · by_cases hcid : cid = k
      · exact .inr (.inr (exists_becoming ⟨_, List.mem_singleton_self _, hcid.symm⟩))
      · refine .inl ?_
        show (h.conns.deregister k).isLive cid = true
        rw [Connections.isLive_deregister, Bool.and_eq_true, decide_eq_true_eq]
        exact ⟨hcid, hlive⟩
    · exact .inr (.inl hcall)
    · rcases exists_replaced hending with hk | hending
      · cases hk
      · exact .inr (.inr hending)

private theorem Act.unattended {c c' : Crew} {e : Option Event} (ha : Act Naming c e c')
    (hn : c.hub.conns.Numbered) (hu : c.hub.Unattended) : c'.hub.Unattended := by
  cases ha with
  | change hch => exact hch.unattended hu
  | receive hnamed => exact hu
  | call hs => exact (Downlink.op_of_step hn hs).unattended hu
  | depart hf hcl hl hno => exact hu
  | ending hs =>
    rcases Closing.op_of_step hs with hop | ⟨cid, -, rfl, -⟩
    · exact hop.unattended hu
    · exact hu

/-- No act leaves a route to nobody's care, as long as notices are taken. -/
theorem Minded.act {c c' : Crew} {e : Option Event} (hc : c.Sound) (hnamed : c.Named)
    (hm : c.Minded) (ha : Act Naming c e c') : c'.hub.Unattended ∨ c'.Minded := by
  cases ha with
  | change hch =>
    refine .inr ?_
    intro sid cid hl
    rw [hch.router] at hl
    exact (hm sid cid hl).imp_left hch.isLive
  | receive hnamed =>
    refine .inr ?_
    intro sid cid hl
    rcases hm sid cid hl with hlive | ⟨d, hd, hk⟩ | hending
    · exact .inl hlive
    · exact .inr (.inl ⟨d, List.mem_cons_of_mem _ hd, hk⟩)
    · exact .inr (.inr hending)
  | call hs => exact minded_call hc hnamed hm hs
  | depart hf hcl hl hno =>
    refine .inr ?_
    intro sid cid hl
    rcases hm sid cid hl with hlive | hcall | ⟨e, he, hk⟩
    · exact .inl hlive
    · exact .inr (.inl hcall)
    · exact .inr (.inr ⟨e, List.mem_cons_of_mem _ he, hk⟩)
  | ending hs => exact .inr (minded_ending hc hnamed hm hs)

/-- As long as somebody takes notices, each route leads to a registered connection, or somebody
minds it. -/
theorem Run.minded {h : Hub} {tr : List Event} {c : Crew} (hr : Run Naming { hub := h } tr c)
    (hc : h.Coherent) : c.hub.Unattended ∨ c.Minded := by
  have hk : c.Named ∧ (c.hub.Unattended ∨ c.Minded) := by
    refine hr.kept (P := fun _ c ↦ c.Named ∧ (c.hub.Unattended ∨ c.Minded)) hc ?_ ?_
    · refine ⟨⟨fun sid cid hl ↦ (hc.owner sid cid hl).1, nofun⟩, .inr ?_⟩
      intro sid cid hl
      exact .inl (hc.reachable sid cid hl nofun)
    · rintro _ c e c' hs ⟨hn, hu | hm⟩ ha
      · exact ⟨hn.act hs ha, .inl (ha.unattended hs.numbered hu)⟩
      · exact ⟨hn.act hs ha, hm.act hs hn ha⟩
  exact hk.2

end Crew

end EdgeGateway
