import EdgeGateway.Proofs.Gateway.Trail

/-!
# Statuses move forward, but for late ends of sessions

A connection is ready, then a session is checked, accepted, ended by its client, ended by others,
and the connection is gone. It may leave out some of this, but does it ever go back? The listener
that has passed on the end of a session marks the connection without looking at it again, so it does
if the session was ended by others while the listener waited. `statuses_forward_iff` says that
nothing else takes a connection back.
-/

namespace EdgeGateway

/-- How far a status is along the way. -/
def Status.rank : Status → Nat
  | ready => 0
  | check => 1
  | logon => 2
  | logout => 3
  | kick => 4
  | close => 5

/-- One status may come after another, if late ends of sessions are allowed for. -/
def Status.MayPrecede (a b : Status) : Prop := a.rank ≤ b.rank ∨ a = .kick ∧ b = .logout

namespace Status

private theorem MayPrecede.refl (a : Status) : a.MayPrecede a := .inl (Nat.le_refl _)

private theorem MayPrecede.trans {a b c : Status} (h : a.MayPrecede b) (k : b.MayPrecede c) :
    a.MayPrecede c := by
  rcases h with h | ⟨rfl, rfl⟩
  · rcases k with k | ⟨rfl, rfl⟩
    · exact .inl (Nat.le_trans h k)
    · cases a with
      | kick => exact .inr ⟨rfl, rfl⟩
      | close => exact absurd h (by decide)
      | _ => exact .inl (by decide)
  · rcases k with k | ⟨hk, -⟩
    · cases c with
      | logout => exact .inr ⟨rfl, rfl⟩
      | kick | close => exact .inl (by decide)
      | _ => exact absurd k (by decide)
    · cases hk

end Status

namespace Gateway

variable {s : Settings} {t : List (Gateway × Move)} {g g' : Gateway} {m : Move} {cid : UInt64}

/-- A connection whose session was ended by others while its listener waited to pass on that the
client ends it. -/
def LogsOutLate (g : Gateway) (cid : UInt64) : Prop :=
  g.status? cid = some .kick ∧ ∃ e, g.ear? cid = some e ∧ e.listener.LogsOut

private theorem status_of_step {nid : UInt32} {x y : Standing}
    {said : Option (SocketEvent × Message)} {noticed : Option Message} (hx : x.Fit)
    (h : x.Step nid cid m said noticed y) : x.status.rank ≤ y.status.rank ∨
      m = .resumeListener cid ∧ x.listener.LogsOut ∧ x.status = .kick ∧
      y.status = .logout := by
  cases h with
  | close | listen | relay | offline | lose | release => exact .inl (Nat.le_refl _)
  | request _ he =>
    rcases he with he | he <;> exact .inl (by simp [he, Status.rank])
  | logOff _ _ hs | accept _ hs => exact .inl (by simp [hs, Status.rank])
  | logOut _ hl =>
    rcases (hx.logsOut hl).2 with hs | hs
    · exact .inl (by simp [hs, Status.rank])
    · exact .inr ⟨rfl, hl, hs, rfl⟩
  | kick _ hv =>
    have hne : x.status ≠ .close := by
      rw [Ne, ← hx.finished_iff]
      simpa [hx.live_eq] using hv
    show x.status.rank ≤ Status.kick.rank ∨ _
    cases hs : x.status with
    | close => exact absurd hs hne
    | _ => exact .inl (by decide)
  | finish =>
    show x.status.rank ≤ Status.close.rank ∨ _
    cases x.status <;> exact .inl (by decide)

private theorem pairwise_statuses {R : Status → Status → Prop} (hrefl : ∀ a, R a a)
    (htrans : ∀ {a b c}, R a b → R b c → R a c) (ht : Trail s t g)
    (hstep : ∀ {b : Gateway} {m x y}, (b, m) ∈ t → b.standing? cid = some x → x.Fit →
      x.Step s.nid cid m (b.relayed? cid m) (b.noticed? cid m) y → R x.status y.status) :
    (statuses t g cid).Pairwise R := by
  suffices (statuses t g cid).Pairwise R ∧
      (g.standing? cid = none → statuses t g cid = []) ∧
      ∀ x, g.standing? cid = some x → ∀ a ∈ statuses t g cid, R a x.status from this.1
  induction ht with
  | fresh => exact ⟨.nil, fun _ ↦ rfl, by rintro x ⟨⟩⟩
  | @move t b g m ht hc hm ih =>
    obtain ⟨hpair, hnone, hall⟩ := ih fun hb ↦ hstep (List.mem_append_left _ hb)
    rw [statuses_append, (ht.sound.move hc hm).status?_eq]
    rcases standing_of_move? ht.sound hc hm cid with ⟨x, hx, y, hy, hxy⟩ | ⟨hx, -, -, hy⟩
    · rw [ht.nid] at hxy
      have hR := hstep (List.mem_append_right _ (List.mem_singleton_self _)) hx (ht.fit hx) hxy
      have hbefore : ∀ a ∈ statuses t b cid, R a y.status :=
        fun a ha ↦ htrans (hall x hx a ha) hR
      rw [hy, Option.map_some, Option.toList_some]
      refine ⟨List.pairwise_append.2 ⟨hpair, List.pairwise_singleton _ _, ?_⟩,
        by rintro ⟨⟩, ?_⟩
      · intro a ha c hc
        rw [List.mem_singleton.1 hc]
        exact hbefore a ha
      · rintro z ⟨⟩ a ha
        rcases List.mem_append.1 ha with ha | ha
        · exact hbefore a ha
        · rw [List.mem_singleton.1 ha]
          exact hrefl _
    · rw [hnone hx, List.nil_append]
      rcases hy with hy | hy <;> rw [hy]
      · exact ⟨.nil, fun _ ↦ rfl, by rintro x ⟨⟩⟩
      · refine ⟨List.pairwise_singleton _ _, by rintro ⟨⟩, ?_⟩
        rintro z ⟨⟩ a ha
        rw [List.mem_singleton.1 ha]
        exact hrefl _

private theorem status?_of_logsOutLate (hg : g.Sound) (hl : g.LogsOutLate cid)
    (h : g.move? (.resumeListener cid) = some g') : g'.status? cid = some .logout := by
  obtain ⟨hs, e, he, hlis⟩ := hl
  obtain ⟨c, hc, -⟩ := Option.map_eq_some_iff.1 hs
  cases turn_of_move? hg.tables.numbered hg.calls h with
  | idle hm => exact hm.elim
  | resumeListener hx _ _ _ hh =>
    rw [he, Option.some.injEq] at hx
    subst hx
    rcases hh with ⟨hlis', -⟩ | ⟨-, hq⟩
    · exact absurd hlis hlis'
    · have hb := hq.bearing cid
      rw [Hub.bearing?_setStatus, Hub.bearing?, Hub.bearing?, hc, Option.map_some, Option.map_some,
        if_pos rfl] at hb
      obtain ⟨d, hd, hb⟩ := Option.map_eq_some_iff.1 hb
      rw [status?, hd, Option.map_some, show d.status = .logout from congrArg Bearing.status hb]

private theorem rel_of_pairwise {R : Status → Status → Prop} (ht : Trail s t g)
    (hp : (statuses t g cid).Pairwise R) {b b' : Gateway} {a c : Status} (hb : (b, m) ∈ t)
    (hm : b.move? m = some b') (ha : b.status? cid = some a)
    (hc : b'.status? cid = some c) : R a c := by
  induction ht with
  | fresh => cases hb
  | @move t k h m' ht _ hm' ih =>
    rw [statuses_append, List.pairwise_append] at hp
    rcases List.mem_append.1 hb with hb | hb
    · exact ih hp.1 hb
    · cases List.mem_singleton.1 hb
      rw [hm, Option.some.injEq] at hm'
      subst hm'
      refine hp.2.2 a ?_ c (by rw [hc]; exact List.mem_singleton_self c)
      simp [statuses, ha]

/-- The statuses of a connection never go back just when no listener ends a session late; otherwise
they go back only from a session that others have ended to one that the client has ended. A session
is given to a connection once at most, after it has asked for one, and a connection that is gone
stays gone. -/
theorem statuses_forward_iff (ht : Trail s t g) (cid : UInt64) :
    ((statuses t g cid).Pairwise (fun a b ↦ a.rank ≤ b.rank) ↔
      ∀ b, (b, .resumeListener cid) ∈ t → ¬ b.LogsOutLate cid) ∧
    (statuses t g cid).Pairwise Status.MayPrecede ∧
    (logons t cid).length ≤ 1 ∧
    (∀ b m, (b, m) ∈ t → (b.granted? cid m).isSome → b.status? cid = some .check) ∧
    (statuses t g cid).Pairwise (fun a b ↦ a = .close → b = .close) := by
  have hmay : (statuses t g cid).Pairwise Status.MayPrecede :=
    pairwise_statuses .refl (fun h k ↦ h.trans k) ht fun _ _ hx hstep ↦
      (status_of_step hx hstep).imp id fun h ↦ h.2.2
  refine ⟨⟨?_, ?_⟩, hmay, ht.length_logons_le cid, ?_, ?_⟩
  · intro hp b hb hl
    obtain ⟨_, _, b', _, htb, _, hm⟩ := ht.split_of_mem hb
    have hle := rel_of_pairwise ht hp hb hm hl.1 (status?_of_logsOutLate htb.sound hl hm)
    exact absurd hle (by decide)
  · intro hlate
    refine pairwise_statuses (fun _ ↦ Nat.le_refl _) (fun h k ↦ Nat.le_trans h k) ht ?_
    intro b m x y hb hbx hx hstep
    rcases status_of_step hx hstep with hle | ⟨rfl, hl, hs, -⟩
    · exact hle
    · obtain ⟨_, _, _, _, htb, _⟩ := ht.split_of_mem hb
      obtain ⟨-, inbox, he⟩ := standing?_eq_some_iff.1 hbx
      refine absurd ⟨?_, _, he, hl⟩ (hlate b hb)
      rw [htb.sound.status?_eq, hbx, Option.map_some, hs]
  · intro b m hb hs
    obtain ⟨_, _, _, _, htb, hc, _⟩ := ht.split_of_mem hb
    obtain ⟨sid, hs⟩ := Option.isSome_iff_exists.1 hs
    exact htb.check_of_granted hc hs
  · refine hmay.imp ?_
    rintro a b hab rfl
    rcases hab with hle | ⟨hk, -⟩
    · cases b with
      | close => rfl
      | _ => exact absurd hle (by decide)
    · cases hk

/-- A session that is taken over leaves its first connection behind, whose statuses have moved
forward. -/
theorem statuses_forward_takeover :
    ∃ t g, Trail Takeover.settings t g ∧ t.map Prod.snd = Takeover.moves ∧
      g.status? 1 = some .kick ∧ (statuses t g 1).Pairwise (fun a b ↦ a.rank ≤ b.rank) := by
  have hview : ((fresh Takeover.settings).trail? Takeover.moves).map (fun r ↦ r.2.status? 1) =
      some (some .kick) := by decide +kernel
  obtain ⟨⟨t, g⟩, hrun, hs⟩ := Option.map_eq_some_iff.1 hview
  obtain ⟨ht, hmoves⟩ := trail_of_trail? hrun
  refine ⟨t, g, ht, hmoves, hs, (statuses_forward_iff ht 1).1.2 ?_⟩
  intro b hb
  have hm : Move.resumeListener 1 ∈ Takeover.moves := hmoves ▸ List.mem_map_of_mem hb
  exact absurd hm (by decide +kernel)

namespace LateEnd

/-- A gateway whose outbound queue has room for one message. -/
def settings : Settings :=
  { Takeover.settings with link := { Takeover.settings.link with outboundCapacity := 1 } }

/-- A client ends session 42, for which there is no room in the outbound queue before the backend
has ended the session, too. -/
def moves : List Move :=
  Takeover.opened ++ [.say 1 (.binary (Message.make .offline 0 0 []).bytes), .hear 1] ++
    Takeover.handling Takeover.expulsion ++
    [.link (.fetchOutbound 0), .resumeListener 1]

end LateEnd

/-- Then the connection goes back from a session that was ended by others to one that the client has
ended. -/
theorem statuses_backward_late :
    ∃ t g, Trail LateEnd.settings t g ∧ t.map Prod.snd = LateEnd.moves ∧
      (statuses t g 1).drop 9 = [.logon, .kick, .kick, .logout] ∧
      ¬ (statuses t g 1).Pairwise (fun a b ↦ a.rank ≤ b.rank) := by
  have hview : ((fresh LateEnd.settings).trail? LateEnd.moves).map (fun r ↦
      (statuses r.1 r.2 1).drop 9) = some [.logon, .kick, .kick, .logout] := by decide +kernel
  obtain ⟨⟨t, g⟩, hrun, hs⟩ := Option.map_eq_some_iff.1 hview
  obtain ⟨ht, hmoves⟩ := trail_of_trail? hrun
  refine ⟨t, g, ht, hmoves, hs, ?_⟩
  intro hp
  have hlast := hp.sublist (List.drop_sublist 9 _)
  rw [hs] at hlast
  exact absurd hlast (by decide)

end Gateway

end EdgeGateway
