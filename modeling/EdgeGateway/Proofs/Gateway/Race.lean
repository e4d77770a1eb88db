import EdgeGateway.Proofs.Gateway.Minding

/-!
# The race between a verdict and the end of a connection

A verdict may give a connection its session while the connection is being closed. Both sides may
then release the session, and other connections may take it over in between. The releases, the
takeovers and the route that is left are tallied against the routes that were made: a connection is
routed at most once, since it is given a session at most once, and each release that wins uses the
route up.

The main statement is `race_leaves_no_route`.
-/

namespace EdgeGateway

/-! ### What is tallied -/

namespace Event

/-- A session is routed to the connection. -/
def binds (cid : UInt64) : Event → Bool
  | bound _ k _ => k == cid
  | _ => false

/-- Another connection takes over the session that was routed to the connection. -/
def displaces (cid : UInt64) : Event → Bool
  | bound _ k old => old == some cid && k != cid
  | _ => false

/-- A release of the connection takes its route away. -/
def unbinds (cid : UInt64) : Event → Bool
  | unbound _ k => k == cid
  | _ => false

/-- A release of the connection removes the memberships of its session. -/
def clears (cid : UInt64) : Event → Bool
  | cleared _ k _ _ => k == cid
  | _ => false

end Event

/-- The release has taken the route away and is about to remove the memberships. -/
def Release.clears (cid : UInt64) : Release → Bool
  | .clear k _ _ => k == cid
  | _ => false

/-- The ending has taken the route away and is about to remove the memberships. -/
def Closing.clears (cid : UInt64) : Closing → Bool
  | .release _ r => r.clears cid
  | _ => false

namespace Downlink

/-- The handling is about to route a session to the connection. -/
def binds (cid : UInt64) : Downlink → Bool
  | bind _ k => k == cid
  | _ => false

/-- The handling has taken the route away and is about to remove the memberships. -/
def clears (cid : UInt64) : Downlink → Bool
  | release r => r.clears cid
  | _ => false

end Downlink

namespace Hub

/-- The number of routes to a connection, of which there cannot be two. -/
noncomputable def routed (h : Hub) (cid : UInt64) : Nat :=
  @ite _ (∃ sid, h.router.lookup sid = some cid) (Classical.propDecidable _) 1 0

/-- The number of sessions that a connection may still be given. -/
noncomputable def unspent (h : Hub) (cid : UInt64) : Nat :=
  @ite _ (∀ c, h.conns.find? cid = some c → c.Early) (Classical.propDecidable _) 1 0

variable {h h' : Hub} {cid sid : UInt64}

/-- A connection that a session is routed to counts once. -/
theorem routed_of_lookup (hl : h.router.lookup sid = some cid) : h.routed cid = 1 :=
  if_pos ⟨sid, hl⟩

private theorem routed_eq_zero
    (hl : ∀ sid, h.router.lookup sid ≠ some cid) : h.routed cid = 0 :=
  if_neg fun ⟨sid, hs⟩ ↦ hl sid hs

private theorem routed_congr
    (hl : ∀ sid, h'.router.lookup sid = some cid ↔ h.router.lookup sid = some cid) :
    h'.routed cid = h.routed cid := by
  by_cases hr : ∃ sid, h.router.lookup sid = some cid
  · obtain ⟨sid, hs⟩ := hr
    rw [routed_of_lookup hs, routed_of_lookup ((hl sid).2 hs)]
  · rw [routed_eq_zero fun sid hs ↦ hr ⟨sid, hs⟩,
      routed_eq_zero fun sid hs ↦ hr ⟨sid, (hl sid).1 hs⟩]

private theorem routed_le (h : Hub) (cid : UInt64) : h.routed cid ≤ 1 := by
  rw [routed]
  split <;> omega

private theorem Bears.unspent (hb : h.Bears cid sid) : h.unspent cid = 0 := by
  obtain ⟨c, hf, -, he⟩ := hb
  exact if_neg fun hall ↦ he (hall c hf)

private theorem unspent_le (h : Hub) (cid : UInt64) : h.unspent cid ≤ 1 := by
  rw [unspent]
  split <;> omega

/-- A connection that has been given its session is given none again. -/
theorem unspent_mono (hg : h.conns.Grown h'.conns) (cid : UInt64) :
    h'.unspent cid ≤ h.unspent cid := by
  by_cases hall : ∀ c, h'.conns.find? cid = some c → c.Early
  · have hbefore : ∀ c, h.conns.find? cid = some c → c.Early := by
      intro c hf
      obtain ⟨d, hd, hk⟩ := hg cid c hf
      exact hk.early (hall d hd)
    rw [show h.unspent cid = 1 from if_pos hbefore]
    exact h'.unspent_le cid
  · rw [show h'.unspent cid = 0 from if_neg hall]
    exact Nat.zero_le _

end Hub

/-! ### What single operations do to the tally -/

variable {h h' : Hub} {cid : UInt64}

/-- The one route to a connection is used up by the release that takes it away, which is then about
to remove the memberships. -/
theorem Release.tally {r : Release} {o : Option Release}
    (howner : ∀ sid, h.router.lookup sid = some cid → h.Bears cid sid) (hf : r.Founded h)
    (hs : r.step h = (h', o)) :
    (r.event? h).toList.countP (·.unbinds cid) + h'.routed cid = h.routed cid ∧
    (r.event? h).toList.countP (·.clears cid) + o.toList.countP (·.clears cid) =
      [r].countP (·.clears cid) + (r.event? h).toList.countP (·.unbinds cid) ∧
    (r.event? h).toList.countP (·.binds cid) = 0 ∧
    (r.event? h).toList.countP (·.displaces cid) = 0 := by
  cases r with
  | inspect k =>
    have hh : h' = h := by
      simp only [step] at hs
      split at hs <;> cases hs <;> rfl
    have ho : o.toList.countP (·.clears cid) = 0 := by
      simp only [step] at hs
      split at hs
      · cases hs
        rfl
      · split at hs <;> cases hs <;> rfl
    rw [hh, ho]
    simp [event?, clears]
  | unbind k s status =>
    rw [step_unbind] at hs
    by_cases hw : h.router.lookup s = some k
    · rw [if_pos hw, Prod.mk.injEq] at hs
      obtain ⟨hh, rfl⟩ := hs
      have hl : ∀ sid, h'.router.lookup sid = if sid = s then none else h.router.lookup sid := by
        intro sid
        rw [← hh, Router.lookup_unbind]
        by_cases hsid : sid = s <;> simp [hsid, hw]
      by_cases hk : k = cid
      · subst hk
        have hnone : ∀ sid, h'.router.lookup sid ≠ some k := by
          intro sid
          rw [hl]
          split
          · exact (Option.some_ne_none k).symm
          · next hne =>
            intro hsid
            exact hne ((howner sid hsid).eq_of_shutWith hf)
        rw [Hub.routed_of_lookup hw, Hub.routed_eq_zero hnone]
        simp [event?, hw, clears, Event.unbinds, Event.clears, Event.binds, Event.displaces]
      · have hsame : h'.routed cid = h.routed cid := by
          apply Hub.routed_congr
          intro sid
          rw [hl]
          split
          · next he =>
            subst he
            simp [hw, hk]
          · rfl
        rw [hsame]
        simp [event?, hw, clears, Event.unbinds, Event.clears, Event.binds, Event.displaces, hk]
    · rw [if_neg hw] at hs
      cases hs
      simp [event?, hw, clears]
  | clear k s status =>
    have hstep : h'.router = h.router ∧ o = none := by
      simp only [step] at hs
      cases hs
      split <;> exact ⟨rfl, rfl⟩
    obtain ⟨hr, rfl⟩ := hstep
    have hsame : h'.routed cid = h.routed cid := Hub.routed_congr fun sid ↦ by rw [hr]
    rw [hsame]
    simp [event?, clears, Event.unbinds, Event.clears, Event.binds, Event.displaces]

/-- What an operation of an ending does to the tally. -/
theorem Closing.tally {e : Closing} {o : Option Closing}
    (howner : ∀ sid, h.router.lookup sid = some cid → h.Bears cid sid) (hf : e.Founded h)
    (hs : e.step h = (h', o)) :
    (e.event? h).toList.countP (·.unbinds cid) + h'.routed cid = h.routed cid ∧
    (e.event? h).toList.countP (·.clears cid) + o.toList.countP (·.clears cid) =
      [e].countP (·.clears cid) + (e.event? h).toList.countP (·.unbinds cid) ∧
    (e.event? h).toList.countP (·.binds cid) = 0 ∧
    (e.event? h).toList.countP (·.displaces cid) = 0 := by
  cases e with
  | deregister k =>
    have hsame : h'.routed cid = h.routed cid := by
      cases hs
      exact Hub.routed_congr fun _ ↦ .rfl
    rw [hsame]
    cases hs
    simp [event?, clears, Release.clears]
  | release k r =>
    have hclears : ∀ o : Option Release, (o.map (Closing.release k)).toList.countP
        (·.clears cid) = o.toList.countP (·.clears cid) := by
      intro o
      cases o <;> simp [clears]
    simp only [step] at hs
    split at hs <;> cases hs
    · next r' hr =>
      have ht := Release.tally howner hf.1 hr
      rw [← hclears] at ht
      simpa [event?, clears] using ht
    · next hr =>
      have ht := Release.tally howner hf.1 hr
      simpa [event?, clears] using ht
  | retire k =>
    have hsame : h'.routed cid = h.routed cid := by
      cases hs
      exact Hub.routed_congr fun _ ↦ .rfl
    rw [hsame]
    cases hs
    simp [event?, clears]

namespace Downlink

/-- After a plain step no session is about to be routed or taken out of its rooms. -/
theorem tally_of_plain {d d' : Downlink} (hs : d.step h = some (h', .next d')) (hd : d.Plain)
    (cid : UInt64) :
    d'.binds cid = false ∧ d'.clears cid = false := by
  cases d with
  | logon m k uid => cases hd
  | bind m k => cases hd
  | rebind m k displaced => cases hd
  | enter m rid gid k => cases hd
  | release r => cases hd
  | received kind body =>
    obtain ⟨-, ⟨e, he⟩ | ⟨m, d, -, -, he, hb⟩⟩ := begins_of_received hs
    · cases he
    · cases he
      cases hb <;> exact ⟨rfl, rfl⟩
  | judge m ack =>
    simp only [step] at hs
    split at hs <;> cases hs
    split <;> exact ⟨rfl, rfl⟩
  | verify m k =>
    simp only [step] at hs
    split at hs <;> cases hs
    split <;> exact ⟨rfl, rfl⟩
  | fanOut m members =>
    cases members with
    | nil => cases hs
    | cons x members =>
      simp only [step] at hs
      split at hs <;> cases hs <;> exact ⟨rfl, rfl⟩
  | _ =>
    simp only [step, behindNotice] at hs
    repeat' split at hs
    all_goals cases hs
    all_goals exact ⟨rfl, rfl⟩

/-- What the routing of a session does to the tally of one connection. -/
theorem tally_bind {m : Message} {k : UInt64}
    (howner : ∀ sid, h.router.lookup sid = some cid → h.Bears cid sid)
    (hr : h'.router = (h.router.bind m.sid k).2)
    (hfree : h.routed cid + [bind m k].countP (·.binds cid) ≤ 1) :
    [Event.bound m.sid k (h.router.lookup m.sid)].countP (·.displaces cid) + h'.routed cid =
      [Event.bound m.sid k (h.router.lookup m.sid)].countP (·.binds cid) + h.routed cid := by
  have hl : ∀ sid, h'.router.lookup sid =
    if sid = m.sid then some k else h.router.lookup sid := by
    intro sid
    rw [hr, Router.lookup_bind]
  by_cases hk : k = cid
  · subst hk
    have hone : h'.routed k = 1 := Hub.routed_of_lookup ((hl m.sid).trans (if_pos rfl))
    rw [hone]
    simp only [List.countP_singleton, binds, Event.displaces, Event.binds, beq_self_eq_true,
      if_true, bne_self_eq_false, Bool.and_false, Bool.false_eq_true, if_false] at hfree ⊢
    omega
  · by_cases hold : h.router.lookup m.sid = some cid
    · have hnone : ∀ sid, h'.router.lookup sid ≠ some cid := by
        intro sid
        rw [hl]
        split
        · rw [ne_eq, Option.some.injEq]
          exact hk
        · next hne =>
          intro hsid
          exact hne ((howner sid hsid).eq_of_bears (howner m.sid hold))
      rw [Hub.routed_of_lookup hold, Hub.routed_eq_zero hnone]
      simp [Event.displaces, Event.binds, hold, hk]
    · have hsame : h'.routed cid = h.routed cid := by
        apply Hub.routed_congr
        intro sid
        rw [hl]
        split
        · next he =>
          subst he
          simp [hold, hk]
        · rfl
      rw [hsame]
      simp [Event.displaces, Event.binds, hold, hk]

/-- What an operation of a handling does to the tally. -/
theorem tally {d : Downlink} {o : Outcome} (hn : h.conns.Numbered)
    (howner : ∀ sid, h.router.lookup sid = some cid → h.Bears cid sid) (hf : d.Founded h)
    (hs : d.step h = some (h', o)) :
    (d.event? h).toList.countP (·.binds cid) + o.calls.countP (·.binds cid) + h'.unspent cid ≤
      [d].countP (·.binds cid) + h.unspent cid ∧
    (h.routed cid + [d].countP (·.binds cid) ≤ 1 →
      (d.event? h).toList.countP (·.unbinds cid) + (d.event? h).toList.countP (·.displaces cid) +
        h'.routed cid = (d.event? h).toList.countP (·.binds cid) + h.routed cid) ∧
    (d.event? h).toList.countP (·.clears cid) + o.calls.countP (·.clears cid) =
      [d].countP (·.clears cid) + (d.event? h).toList.countP (·.unbinds cid) := by
  have hunspent : h'.unspent cid ≤ h.unspent cid :=
    Hub.unspent_mono ((op_of_step hn hs).grown hn) cid
  cases d with
  | logon m k uid =>
    simp only [step] at hs
    split at hs
    · next c hl =>
      cases hs
      obtain ⟨b, hb, hl⟩ := Option.bind_eq_some_iff.1 hl
      have hsame : Hub.routed { h with conns := h.conns.store c } cid = h.routed cid :=
        Hub.routed_congr fun _ ↦ .rfl
      rw [hsame]
      by_cases hk : k = cid
      · subst hk
        have hbefore : h.unspent k = 1 := by
          apply if_pos
          intro c' hc'
          rw [hb] at hc'
          cases hc'
          exact .inr (Connection.logon_eq_some_iff.1 hl).1
        rw [hbefore, (Hub.bears_of_logon hn hb hl).unspent]
        simp [event?, Outcome.calls, binds, clears]
      · simpa [event?, Outcome.calls, binds, clears, hk] using hunspent
    · cases hs
      simp [event?, Outcome.calls, binds, clears]
  | bind m k =>
    have hrouter : h'.router = (h.router.bind m.sid k).2 := by
      cases hs
      rfl
    have haccount := tally_bind (m := m) (k := k) howner hrouter
    have hcalls : o.calls.countP (·.binds cid) = 0 ∧ o.calls.countP (·.clears cid) = 0 := by
      cases hs
      exact ⟨rfl, rfl⟩
    rw [hcalls.1, hcalls.2]
    simp only [event?, Option.toList_some]
    have hbinds : [Event.bound m.sid k (h.router.lookup m.sid)].countP (·.binds cid) =
        [bind m k].countP (·.binds cid) := rfl
    have hzero : [Event.bound m.sid k (h.router.lookup m.sid)].countP (·.unbinds cid) = 0 ∧
        [Event.bound m.sid k (h.router.lookup m.sid)].countP (·.clears cid) = 0 ∧
        [bind m k].countP (·.clears cid) = 0 := ⟨rfl, rfl, rfl⟩
    omega
  | rebind m k displaced =>
    have hsame : h'.routed cid = h.routed cid := by
      simp only [step] at hs
      split at hs <;> cases hs <;> exact Hub.routed_congr fun _ ↦ .rfl
    have hcalls : o.calls.countP (·.binds cid) = 0 ∧ o.calls.countP (·.clears cid) = 0 := by
      simp only [step] at hs
      split at hs <;> cases hs <;> exact ⟨rfl, rfl⟩
    rw [hsame, hcalls.1, hcalls.2]
    simp only [event?]
    split <;> simpa [binds, clears, Event.unbinds, Event.displaces, Event.binds, Event.clears]
  | enter m rid gid k =>
    have hsame : h'.routed cid = h.routed cid := by
      cases hs
      exact Hub.routed_congr fun _ ↦ .rfl
    rw [hsame]
    cases hs
    simpa [event?, Outcome.calls, binds, clears, Event.unbinds, Event.displaces, Event.binds,
      Event.clears]
  | release r =>
    simp only [step] at hs
    split at hs <;> cases hs
    · next r' hr =>
      obtain ⟨h1, h2, h3, h4⟩ := Release.tally howner hf hr
      simp only [event?, Outcome.calls, List.countP_singleton, binds, clears, Option.toList_some]
        at h1 h2 h3 h4 ⊢
      omega
    · next hr =>
      obtain ⟨h1, h2, h3, h4⟩ := Release.tally howner hf hr
      simp only [event?, Outcome.calls, List.countP_singleton, List.countP_nil, binds, clears,
        Option.toList_none] at h1 h2 h3 h4 ⊢
      omega
  | _ =>
    have hsame : h'.routed cid = h.routed cid := by
      apply Hub.routed_congr
      intro sid
      rw [(changes_of_step hs trivial hn).router]
    have hcalls : o.calls.countP (·.binds cid) = 0 ∧ o.calls.countP (·.clears cid) = 0 := by
      cases o with
      | next d' =>
        have ht := tally_of_plain hs trivial cid
        simp [Outcome.calls, ht.1, ht.2]
      | done e => exact ⟨rfl, rfl⟩
    rw [hsame, hcalls.1, hcalls.2]
    simpa [event?, binds, clears]

end Downlink

/-! ### The tally of a run -/

namespace Crew

/-- How the one route that a connection may have is used up, in a run that began with `start`. -/
structure Ledger (start : Hub) (cid : UInt64) (tr : List Event) (c : Crew) : Prop where
  once : tr.countP (·.binds cid) + c.calls.countP (·.binds cid) + c.hub.unspent cid +
    start.routed cid ≤ 1
  account : tr.countP (·.unbinds cid) + tr.countP (·.displaces cid) + c.hub.routed cid =
    tr.countP (·.binds cid) + start.routed cid
  cleared : tr.countP (·.clears cid) + c.calls.countP (·.clears cid) +
    c.endings.countP (·.clears cid) = tr.countP (·.unbinds cid)

private theorem ledger_start {start : Hub} (hc : start.Coherent) (cid : UInt64) :
    Ledger start cid [] { hub := start } := by
  refine ⟨?_, rfl, rfl⟩
  show 0 + 0 + start.unspent cid + start.routed cid ≤ 1
  by_cases hr : ∃ sid, start.router.lookup sid = some cid
  · obtain ⟨sid, hl⟩ := hr
    obtain ⟨-, c, hf, -, hm⟩ := hc.owner sid cid hl
    have := Hub.Bears.unspent ⟨c, hf, rfl, hm.not_early⟩
    have := start.routed_le cid
    omega
  · have := Hub.routed_eq_zero fun sid hl ↦ hr ⟨sid, hl⟩
    have := start.unspent_le cid
    omega

variable {feed : DownlinkKind → Bytes → Prop} {start : Hub} {cid : UInt64} {tr : List Event}

private theorem countP_middle {α : Type} (p : α → Bool) (a b : List α) (x : α) :
    (a ++ x :: b).countP p = a.countP p + [x].countP p + b.countP p := by
  rw [List.append_cons, List.countP_append, List.countP_append]

private theorem Ledger.call {h h' : Hub} {d : Downlink} {o : Downlink.Outcome}
    {a b : List Downlink} {es : List Closing} (hl : Ledger start cid tr ⟨h, a ++ d :: b, es⟩)
    (hc : Sound ⟨h, a ++ d :: b, es⟩) (hs : d.step h = some (h', o)) :
    Ledger start cid (tr ++ (d.event? h).toList) ⟨h', a ++ o.calls ++ b, es⟩ := by
  have hd : d ∈ a ++ d :: b := List.mem_append_right _ List.mem_cons_self
  obtain ⟨honce, haccount, hcleared⟩ := hl
  have howner : ∀ sid, h.router.lookup sid = some cid → h.Bears cid sid :=
    fun sid hr ↦ hc.owner sid cid hr
  have hn : h.conns.Numbered := hc.numbered
  have hfounded : d.Founded h := hc.calls d hd
  obtain ⟨h1, h2, h3⟩ := Downlink.tally hn howner hfounded hs
  simp only [countP_middle] at honce haccount hcleared
  refine ⟨?_, ?_, ?_⟩
  · simp only [List.countP_append]
    omega
  · have := h2 (by omega)
    simp only [List.countP_append]
    omega
  · simp only [List.countP_append]
    omega

private theorem Ledger.ending {h h' : Hub} {e : Closing} {o : Option Closing}
    {ds : List Downlink} {a b : List Closing} (hl : Ledger start cid tr ⟨h, ds, a ++ e :: b⟩)
    (hc : Sound ⟨h, ds, a ++ e :: b⟩) (hs : e.step h = (h', o)) :
    Ledger start cid (tr ++ (e.event? h).toList) ⟨h', ds, a ++ o.toList ++ b⟩ := by
  have he : e ∈ a ++ e :: b := List.mem_append_right _ List.mem_cons_self
  obtain ⟨honce, haccount, hcleared⟩ := hl
  have howner : ∀ sid, h.router.lookup sid = some cid → h.Bears cid sid :=
    fun sid hr ↦ hc.owner sid cid hr
  have hfounded : e.Founded h := hc.endings e he
  obtain ⟨h1, h2, h3, h4⟩ := Closing.tally howner hfounded hs
  have hunspent : h'.unspent cid ≤ h.unspent cid := by
    rcases Closing.op_of_step hs with hop | ⟨k, -, rfl, -⟩
    · exact Hub.unspent_mono (hop.grown hc.numbered) cid
    · exact Hub.unspent_mono (.refl _) cid
  simp only [countP_middle] at honce haccount hcleared
  refine ⟨?_, ?_, ?_⟩
  · simp only [List.countP_append]
    omega
  · simp only [List.countP_append]
    omega
  · simp only [List.countP_append]
    omega

/-- No act uses up more than the one route of a connection. -/
theorem Ledger.act {c c' : Crew} {e : Option Event} (hl : Ledger start cid tr c) (hc : c.Sound)
    (ha : Act feed c e c') : Ledger start cid (tr ++ e.toList) c' := by
  cases ha with
  | @change c h hch =>
    obtain ⟨honce, haccount, hcleared⟩ := hl
    have hrouted : h.routed cid = c.hub.routed cid :=
      Hub.routed_congr fun sid ↦ by rw [hch.router]
    have hunspent :=
      Hub.unspent_mono ((hch.evolves hc.numbered).grown fun _ _ hk ↦ hk.grows) cid
    rw [Option.toList_none, List.append_nil]
    refine ⟨?_, ?_, hcleared⟩
    · show _ + c.calls.countP (·.binds cid) + h.unspent cid + _ ≤ 1
      omega
    · show _ + h.routed cid = _
      omega
  | receive hnamed =>
    rw [Option.toList_none, List.append_nil]
    exact ⟨hl.once, hl.account, hl.cleared⟩
  | call hs => exact hl.call hc hs
  | depart hf hcl hlive hno =>
    rw [Option.toList_none, List.append_nil]
    exact ⟨hl.once, hl.account, hl.cleared⟩
  | ending hs => exact hl.ending hc hs

/-- A run from coherent tables uses up no more than the one route of a connection. -/
theorem Run.ledger {c : Crew} (hr : Run feed { hub := start } tr c) (hc : start.Coherent)
    (cid : UInt64) : Ledger start cid tr c := by
  refine hr.kept (P := Ledger start cid) hc (ledger_start hc cid) ?_
  intro tr c e c' hs hl ha
  exact hl.act hs ha

end Crew

/-! ### When everybody has finished -/

/-- The connection that a verdict is about, as long as it is being handled. -/
def Downlink.subject? : Downlink → Option UInt64
  | judge _ ack => some ack.cid
  | logon _ cid _ | bind _ cid | rebind _ cid _ | displace _ cid _ | verify _ cid => some cid
  | evict _ after | waiting _ after => after.map (·.2)
  | release r => some r.cid
  | _ => none

private theorem Downlink.Minds.subject {d : Downlink} (hd : d.Minds cid) :
    d.subject? = some cid := by
  cases d with
  | rebind m k displaced => exact congrArg some hd
  | displace m k old => exact congrArg some hd
  | verify m k => exact congrArg some hd
  | evict old after =>
    cases after with
    | none => cases hd
    | some p => exact congrArg some hd
  | waiting ticket after =>
    cases after with
    | none => cases hd
    | some p => exact congrArg some hd
  | release r =>
    cases r with
    | clear k sid status => cases hd
    | _ => exact congrArg some hd
  | _ => cases hd

private theorem Release.cid_of_clears {r : Release} (hr : r.clears cid = true) : r.cid = cid := by
  cases r with
  | clear k sid status => exact eq_of_beq hr
  | _ => cases hr

private theorem Downlink.subject_of_clears {d : Downlink} (hd : d.clears cid = true) :
    d.subject? = some cid := by
  cases d with
  | release r => exact congrArg some (Release.cid_of_clears hd)
  | _ => cases hd

private theorem Release.Seeks.cid_eq {r : Release} (hr : r.Seeks cid) : r.cid = cid := by
  cases r with
  | clear k sid status => cases hr
  | _ => exact hr

private theorem Closing.Seeks.cid_eq {e : Closing} (he : e.Seeks cid) (hf : e.Founded h) :
    e.cid = cid := by
  cases e with
  | release k r => exact hf.2.symm.trans (Release.Seeks.cid_eq he)
  | _ => cases he

private theorem Closing.cid_of_clears {e : Closing} (he : e.clears cid = true) (hf : e.Founded h) :
    e.cid = cid := by
  cases e with
  | release k r => exact hf.2.symm.trans (Release.cid_of_clears he)
  | _ => cases he

namespace Crew

/-- However the handling of verdicts, the ends of connections and everything else interleave: once a
connection has ended and no verdict on it is being handled any more, no route leads to it, at most
one of its releases has taken its route away, and that one has removed the memberships; there was
one if the connection had been routed and no other took its session over. -/
theorem race_leaves_no_route {start : Hub} {tr : List Event} {c : Crew}
    (hc : start.Coherent) (hr : Run Naming { hub := start } tr c)
    (hqueue : c.hub.sweeper.queue.closed = false)
    (hcalls : ∀ d ∈ c.calls, d.subject? ≠ some cid)
    (hlive : c.hub.conns.isLive cid = false) (hendings : ∀ e ∈ c.endings, e.cid ≠ cid) :
    (∀ sid, c.hub.router.lookup sid ≠ some cid) ∧
    tr.countP (·.unbinds cid) ≤ 1 ∧
    tr.countP (·.clears cid) = tr.countP (·.unbinds cid) ∧
    ((∃ sid, start.router.lookup sid = some cid) ∨ (∃ e ∈ tr, e.binds cid) →
      (∀ e ∈ tr, ¬ e.displaces cid) → tr.countP (·.unbinds cid) = 1) := by
  have hsound := hr.sound hc
  obtain ⟨honce, haccount, hcleared⟩ := hr.ledger hc cid
  have hfree : ∀ sid, c.hub.router.lookup sid ≠ some cid := by
    intro sid hl
    rcases hr.minded hc with hu | hm
    · rw [Hub.Unattended, hqueue] at hu
      cases hu
    · rcases hm sid cid hl with hl | ⟨d, hd, hk⟩ | ⟨e, he, hk⟩
      · rw [hlive] at hl
        cases hl
      · exact hcalls d hd hk.subject
      · exact hendings e he (hk.cid_eq (hsound.endings e he))
  have hpending : c.calls.countP (·.clears cid) = 0 ∧ c.endings.countP (·.clears cid) = 0 := by
    rw [List.countP_eq_zero, List.countP_eq_zero]
    refine ⟨?_, ?_⟩
    · intro d hd hk
      exact hcalls d hd (Downlink.subject_of_clears hk)
    · intro e he hk
      exact hendings e he (Closing.cid_of_clears hk (hsound.endings e he))
  refine ⟨hfree, by omega, by omega, ?_⟩
  intro hbound hkept
  have hnone := Hub.routed_eq_zero hfree
  have hdisplaced : tr.countP (·.displaces cid) = 0 := List.countP_eq_zero.2 hkept
  have hmade : 1 ≤ tr.countP (·.binds cid) + start.routed cid := by
    rcases hbound with ⟨sid, hl⟩ | ⟨e, he, hk⟩
    · rw [Hub.routed_of_lookup hl]
      omega
    · have : 0 < tr.countP (·.binds cid) := List.countP_pos_iff.2 ⟨e, he, hk⟩
      omega
  omega

/-- A connection is given session 42, closed, and routed after its end has looked up its session;
both sides release it. -/
def contested : List Deed :=
  [.connect, .request 1, .receive .verdict (Message.opening 42 1).bytes, .call 0, .call 0, .call 0,
    .close 1, .depart 1, .ending 0, .ending 0, .call 0, .ending 0, .call 0, .call 0, .ending 0,
    .call 0, .call 0, .ending 0]

/-- When both sides of the race come to release the session, the first to look for the route takes
it away. -/
theorem race_leaves_no_route_contested :
    ∃ tr c, Run Naming { hub := Hub.empty 1 1 4 1000 } tr c ∧ c.calls = [] ∧
      c.endings = [] ∧
      tr = [.bound 42 1 none, .unbound 42 1, .cleared 42 1 none []] ∧
      (∀ sid, c.hub.router.lookup sid ≠ some 1) ∧ tr.countP (·.unbinds 1) = 1 := by
  have hview : (run? { hub := Hub.empty 1 1 4 1000 } contested).map (fun r ↦
      (r.1, r.2.calls, r.2.endings, r.2.hub.sweeper.queue.closed, r.2.hub.conns.isLive 1)) =
      some ([.bound 42 1 none, .unbound 42 1, .cleared 42 1 none []], [], [], false, false) := by
    decide +kernel
  obtain ⟨⟨tr, c⟩, hrun, hview⟩ := Option.map_eq_some_iff.1 hview
  simp only [Prod.mk.injEq] at hview
  obtain ⟨htr, hcalls, hendings, hqueue, hlive⟩ := hview
  have hr : Run Naming { hub := Hub.empty 1 1 4 1000 } tr c := run_of_run? .start hrun
  obtain ⟨hfree, -, -, hone⟩ := race_leaves_no_route (Hub.coherent_empty 1 1 4 1000) hr hqueue
    (by simp [hcalls]) hlive (by simp [hendings])
  refine ⟨tr, c, hr, hcalls, hendings, htr, hfree, ?_⟩
  apply hone
  · rw [htr]
    exact .inr ⟨_, List.mem_cons_self, rfl⟩
  · rw [htr]
    decide

end Crew

end EdgeGateway
