import EdgeGateway.Proofs.Gateway.Trail

/-!
# How often the backend is told that a session has ended

The backend is told by the client's own message, which is passed on, and by the release of the
connection that owns the session. A release tells nothing if the client has ended the session, but
it goes by the status, which may say something else by then. `ended_twice_iff` says when the backend
is told twice, that it is told no more than that, and that it is told whenever a connection is let
go that still owns its session.
-/

namespace EdgeGateway.Gateway

variable {s : Settings} {t u v : List (Gateway × Move)} {g g' b : Gateway} {m : Move}
  {cid : UInt64} {x y : Standing}

/-- The messages by which a client ends its session, as they have been passed on. -/
def partings (t : List (Gateway × Move)) (cid : UInt64) : List Message :=
  ((relays t cid).map Prod.snd).filter (·.cmd == .offline)

/-- The messages by which the backend has been told that the session of a connection has ended:
those of the client and those of releases, be they in the outbound queue or on their way to it. -/
def endings (t : List (Gateway × Move)) (cid : UInt64) : List Message :=
  partings t cid ++ notices t cid

/-- A connection has a session, which is routed to it. -/
def Owns (g : Gateway) (cid : UInt64) : Prop :=
  ∃ c, g.hub.conns.find? cid = some c ∧ c.sid ≠ 0 ∧ g.hub.router.lookup c.sid = some cid

/-- Does the listener of a connection wait to pass on that the client ends its session? -/
def Parting (g : Gateway) (cid : UInt64) : Prop := ∃ e, g.ear? cid = some e ∧ e.listener.LogsOut

/-- A release tells the backend what the client has told it before, though others have ended the
session since or the listener still waits, or what the client tells it afterwards, as the release
was a worker's and the connection is not let go yet. -/
def EndedTwice (t : List (Gateway × Move)) (cid : UInt64) : Prop :=
  ∃ u b m v, t = u ++ (b, m) :: v ∧ (b.noticed? cid m).isSome ∧
    (partings u cid ≠ [] ∧ (b.status? cid = some .kick ∨ b.Parting cid) ∨
      partings v cid ≠ [] ∧ ∃ i w, m = .resumeCall i w)

/-! ### What is added to the histories -/

-- What is passed on in a move by which the client ends its session.
private def partingOf (said : Option (SocketEvent × Message)) : List Message :=
  (said.toList.map Prod.snd).filter (·.cmd == .offline)

private theorem partingOf_eq_nil {e : SocketEvent} {w : Message} (hw : w.cmd ≠ .offline) :
    partingOf (some (e, w)) = [] := by simp [partingOf, hw]

private theorem partings_append (t : List (Gateway × Move)) (b : Gateway) (m : Move) :
    partings (t ++ [(b, m)]) cid = partings t cid ++ partingOf (b.relayed? cid m) := by
  rw [partings, relays_append, List.map_append, List.filter_append]
  rfl

private theorem partings_ne_nil (h : u.Sublist v) (hu : partings u cid ≠ []) :
    partings v cid ≠ [] := by
  have hs : (partings u cid).Sublist (partings v cid) := ((h.filterMap _).map _).filter _
  intro hv
  rw [hv] at hs
  exact hu (List.sublist_nil.1 hs)

/-- What has been told stays told. -/
theorem endings_ne_nil (h : u.Sublist v) (hu : endings u cid ≠ []) : endings v cid ≠ [] := by
  have hs : (endings u cid).Sublist (endings v cid) :=
    (((h.filterMap _).map _).filter _).append (h.filterMap _)
  intro hv
  rw [hv] at hs
  exact hu (List.sublist_nil.1 hs)

private theorem EndedTwice.append (h : EndedTwice t cid) (p : Gateway × Move) :
    EndedTwice (t ++ [p]) cid := by
  obtain ⟨u, b, m, v, rfl, hn, h⟩ := h
  refine ⟨u, b, m, v ++ [p], by simp, hn, h.imp id fun h ↦ ⟨?_, h.2⟩⟩
  exact partings_ne_nil (List.sublist_append_left v [p]) h.1

private theorem EndedTwice.told (h : EndedTwice t cid) :
    partings t cid ≠ [] ∧ notices t cid ≠ [] := by
  obtain ⟨u, b, m, v, rfl, hn, h⟩ := h
  obtain ⟨w, hw⟩ := Option.isSome_iff_exists.1 hn
  refine ⟨?_, ?_⟩
  · rcases h with ⟨hu, -⟩ | ⟨hv, -⟩
    · exact partings_ne_nil (List.sublist_append_left u _) hu
    · refine partings_ne_nil ?_ hv
      exact (List.sublist_cons_self _ v).trans (List.sublist_append_right u _)
  · exact List.ne_nil_of_mem (List.mem_filterMap.2 ⟨(b, m), by simp, hw⟩)

/-! ### What has been told as long as a connection stands somewhere -/

/-- What has been told about the session of a connection, by where the connection stands. -/
structure Told (t : List (Gateway × Move)) (cid : UInt64) (x : Standing) : Prop where
  parted_once : (partings t cid).length ≤ 1
  noticed_once : (notices t cid).length ≤ 1
  parted : partings t cid ≠ [] → ¬ x.Early ∧ (x.status = .logon → x.listener.LogsOut)
  logout : x.status = .logout ∨ x.listener.LogsOut → partings t cid ≠ []
  noticed : notices t cid ≠ [] → ¬ x.Early ∧ x.routed = false
  /-- The release was a worker's, unless the connection has been let go. -/
  worker : notices t cid ≠ [] → x.finished = false →
    ∃ u b i w v, t = u ++ (b, .resumeCall i w) :: v ∧ (b.noticed? cid (.resumeCall i w)).isSome
  twice : partings t cid ≠ [] → notices t cid ≠ [] → EndedTwice t cid

private theorem Told.silent (h : Told t cid x) (hr : partingOf (b.relayed? cid m) = [])
    (hn : b.noticed? cid m = none)
    (hparted : partings t cid ≠ [] → ¬ y.Early ∧ (y.status = .logon → y.listener.LogsOut))
    (hlogout : y.status = .logout ∨ y.listener.LogsOut → partings t cid ≠ [])
    (hnoticed : notices t cid ≠ [] → ¬ y.Early ∧ y.routed = false)
    (hf : y.finished = false → x.finished = false) : Told (t ++ [(b, m)]) cid y := by
  have hp : partings (t ++ [(b, m)]) cid = partings t cid := by
    rw [partings_append, hr, List.append_nil]
  have hq : notices (t ++ [(b, m)]) cid = notices t cid := by
    rw [notices_append, hn, Option.toList_none, List.append_nil]
  rw [← hp] at hparted hlogout
  rw [← hq] at hnoticed
  refine ⟨?_, ?_, hparted, hlogout, hnoticed, ?_, ?_⟩
  · rw [hp]
    exact h.parted_once
  · rw [hq]
    exact h.noticed_once
  · rw [hq]
    intro hne hy
    obtain ⟨u, b', i, w, v, rfl, hs⟩ := h.worker hne (hf hy)
    exact ⟨u, b', i, w, v ++ [(b, m)], by simp, hs⟩
  · rw [hp, hq]
    exact fun hp hq ↦ (h.twice hp hq).append _

private theorem Told.part (h : Told t cid x) {e : SocketEvent} {w : Message}
    (hr : b.relayed? cid m = some (e, w)) (hn : b.noticed? cid m = none) (hw : w.cmd = .offline)
    (hx : x.status = .logon ∧ ¬ x.listener.LogsOut ∧ x.finished = false)
    (hy : ¬ y.Early ∧ (y.status = .logon → y.listener.LogsOut))
    (hrouted : y.routed = x.routed) : Told (t ++ [(b, m)]) cid y := by
  have hnone : partings t cid = [] := by
    rw [← not_not (a := partings t cid = [])]
    exact fun hne ↦ hx.2.1 ((h.parted hne).2 hx.1)
  have hp : partings (t ++ [(b, m)]) cid = [w] := by
    rw [partings_append, hnone, hr, partingOf]
    simp [hw]
  have hq : notices (t ++ [(b, m)]) cid = notices t cid := by
    rw [notices_append, hn, Option.toList_none, List.append_nil]
  have worker : notices t cid ≠ [] →
    ∃ u b' i w' v, t ++ [(b, m)] = u ++ (b', .resumeCall i w') :: v ∧
      (b'.noticed? cid (.resumeCall i w')).isSome ∧ partings v cid ≠ [] := by
    intro hne
    obtain ⟨u, b', i, w', v, rfl, hs⟩ := h.worker hne hx.2.2
    refine ⟨u, b', i, w', v ++ [(b, m)], by simp, hs, ?_⟩
    rw [partings_append, hr, partingOf]
    simp [hw]
  refine ⟨by rw [hp]; exact Nat.le_refl 1, by rw [hq]; exact h.noticed_once, fun _ ↦ hy,
    fun _ ↦ by rw [hp]; exact List.cons_ne_nil w [], ?_, ?_, ?_⟩
  · rw [hq]
    exact fun hne ↦ ⟨hy.1, hrouted.trans (h.noticed hne).2⟩
  · rw [hq]
    intro hne _
    obtain ⟨u, b', i, w', v, ht, hs, -⟩ := worker hne
    exact ⟨u, b', i, w', v, ht, hs⟩
  · rw [hq]
    intro _ hne
    obtain ⟨u, b', i, w', v, ht, hs, hv⟩ := worker hne
    exact ⟨u, b', _, v, ht, hs, .inr ⟨hv, i, w', rfl⟩⟩

private theorem Told.release {nid : UInt32} (h : Told t cid x) (hb : b.Sound)
    (hbx : b.standing? cid = some x) (hx : x.Fit) (hr : b.relayed? cid m = none)
    (hn : b.noticed? cid m = x.parting? nid) (hearly : ¬ x.Early → ¬ y.Early)
    (hlogon : y.status = .logon → x.status = .logon)
    (hlogout : y.status = .logout → x.status = .logout) (hlis : y.listener = x.listener)
    (hrouted : y.routed = (x.routed && x.sid == 0))
    (hf : y.finished = false → x.finished = false ∧ ∃ i w, m = .resumeCall i w) :
    Told (t ++ [(b, m)]) cid y := by
  have hp' : partingOf (b.relayed? cid m) = [] := by rw [hr]; rfl
  have hparted : partings t cid ≠ [] → ¬ y.Early ∧
    (y.status = .logon → y.listener.LogsOut) := by
    intro hne
    obtain ⟨he, hl⟩ := h.parted hne
    rw [hlis]
    exact ⟨hearly he, fun hy ↦ hl (hlogon hy)⟩
  have hlogout : y.status = .logout ∨ y.listener.LogsOut → partings t cid ≠ [] := by
    rw [hlis]
    exact fun hy ↦ h.logout (hy.imp_left hlogout)
  by_cases ho : x.Owner ∧ x.status ≠ .logout
  · rw [Standing.parting?, if_pos ho] at hn
    have hnone : notices t cid = [] := by
      rw [← not_not (a := notices t cid = [])]
      exact fun hne ↦ absurd ho.1.2 (by simp [(h.noticed hne).2])
    have hp : partings (t ++ [(b, m)]) cid = partings t cid := by
      rw [partings_append, hp', List.append_nil]
    have hq : notices (t ++ [(b, m)]) cid = [.make .offline nid x.sid []] := by
      rw [notices_append, hnone, hn]
      rfl
    have hsome : (b.noticed? cid m).isSome := by rw [hn]; rfl
    rw [← hp] at hparted hlogout
    refine ⟨?_, ?_, hparted, hlogout, fun _ ↦ ⟨hearly (hx.routed ho.1.2), ?_⟩, ?_, ?_⟩
    · rw [hp]
      exact h.parted_once
    · rw [hq]
      exact Nat.le_refl 1
    · rw [hrouted, beq_false_of_ne ho.1.1, Bool.and_false]
    · intro _ hy
      obtain ⟨-, i, w, rfl⟩ := hf hy
      exact ⟨t, b, i, w, [], rfl, hsome⟩
    · rw [hp]
      intro hne _
      refine ⟨t, b, m, [], rfl, hsome, .inl ⟨hne, ?_⟩⟩
      obtain ⟨he, hl⟩ := h.parted hne
      rw [hb.status?_eq, hbx, Option.map_some]
      obtain ⟨-, inbox, hear⟩ := standing?_eq_some_iff.1 hbx
      cases hs : x.status with
      | ready => exact absurd (.inl hs) he
      | check => exact absurd (.inr hs) he
      | logon => exact .inr ⟨_, hear, hl hs⟩
      | logout => exact absurd hs ho.2
      | kick => exact .inl rfl
      | close => exact absurd ho.1 (hx.gone (hx.finished_iff.2 hs))
  · rw [Standing.parting?, if_neg ho] at hn
    refine h.silent hp' hn hparted hlogout ?_ fun hy ↦ (hf hy).1
    intro hne
    obtain ⟨he, hr⟩ := h.noticed hne
    exact ⟨hearly he, by rw [hrouted, hr, Bool.false_and]⟩

private theorem told_fresh (hp : partings t cid = [])
    (hq : notices t cid = []) : Told t cid .fresh := by
  refine ⟨by simp [hp], by simp [hq], absurd hp, ?_, absurd hq, absurd hq, absurd hp⟩
  rintro (h | ⟨ticket, h⟩) <;> cases h

private theorem Told.step (ht : Trail s t b) (h : Told t cid x) (hbx : b.standing? cid = some x)
    (hx : x.Fit) (hs : x.Step s.nid cid m (b.relayed? cid m) (b.noticed? cid m) y) :
    Told (t ++ [(b, m)]) cid y := by
  have late : ∀ {z : Standing}, z.status = .logout ∨ z.status = .kick ∨ z.status = .close →
    ¬ z.Early := by
    rintro z (h | h | h) (he | he) <;> cases h.symm.trans he
  generalize hr : b.relayed? cid m = said, hn : b.noticed? cid m = noticed at hs
  have hsilent := h.silent (b := b) (m := m) (y := y)
  have hnil : said = none → partingOf (b.relayed? cid m) = [] := by
    rintro rfl
    rw [hr]
    rfl
  cases hs with
  | close => exact hsilent (hnil rfl) hn h.parted h.logout h.noticed id
  | listen _ hl hl' =>
    refine hsilent (hnil rfl) hn ?_ ?_ h.noticed id
    · exact fun hne ↦ ⟨(h.parted hne).1, fun hs ↦ absurd ((h.parted hne).2 hs) hl⟩
    · exact fun hy ↦ h.logout (hy.imp_right (absurd · hl'))
  | request _ he hw hl' =>
    refine hsilent ?_ hn (fun hne ↦ absurd he (h.parted hne).1) ?_
      (fun hne ↦ absurd he (h.noticed hne).1) id
    · rw [hr]
      exact partingOf_eq_nil (by rw [hw]; decide)
    · rintro (hy | hy)
      · cases hy
      · exact absurd hy hl'
  | relay _ hl hs _ _ hw hl' =>
    refine hsilent ?_ hn (fun hne ↦ absurd ((h.parted hne).2 hs) hl) ?_ h.noticed id
    · rw [hr]
      exact partingOf_eq_nil hw
    · exact fun hy ↦ h.logout (hy.imp_right (absurd · hl'))
  | offline hf hl hs _ hw hl' =>
    refine h.part hr hn hw ⟨hs, hl, hf⟩ ⟨?_, fun _ ↦ hl'⟩ rfl
    rintro (he | he) <;> cases hs.symm.trans he
  | logOff hf hl hs _ hw =>
    exact h.part hr hn hw ⟨hs, hl, hf⟩ ⟨late (.inl rfl), by rintro ⟨⟩⟩ rfl
  | logOut _ hl hl' =>
    refine hsilent (hnil rfl) hn (fun _ ↦ ⟨late (.inl rfl), by rintro ⟨⟩⟩)
      (fun _ ↦ h.logout (.inr hl)) ?_ id
    exact fun hne ↦ ⟨late (.inl rfl), (h.noticed hne).2⟩
  | accept _ hs =>
    refine hsilent (hnil rfl) hn (fun hne ↦ absurd (.inr hs) (h.parted hne).1) ?_
      (fun hne ↦ absurd (.inr hs) (h.noticed hne).1) id
    rintro (hy | hy)
    · cases hy
    · exact h.logout (.inr hy)
  | lose keeps =>
    refine hsilent (hnil rfl) hn h.parted h.logout (fun hne ↦ ⟨(h.noticed hne).1, ?_⟩) id
    rw [(h.noticed hne).2, Bool.false_and]
  | kick keeps =>
    refine hsilent (hnil rfl) hn (fun _ ↦ ⟨late (.inr (.inl rfl)), by rintro ⟨⟩⟩) ?_ ?_ id
    · rintro (hy | hy)
      · cases hy
      · exact h.logout (.inr hy)
    · intro hne
      exact ⟨late (.inr (.inl rfl)), by rw [(h.noticed hne).2, Bool.false_and]⟩
  | release i w =>
    exact h.release ht.sound hbx hx hr hn id id id rfl rfl fun hf ↦ ⟨hf, i, w, rfl⟩
  | finish =>
    exact h.release ht.sound hbx hx hr hn (fun _ ↦ late (.inr (.inr rfl))) (by rintro ⟨⟩)
      (by rintro ⟨⟩) rfl rfl (by rintro ⟨⟩)

/-- What has been told in a run, by where a connection stands at its end. -/
theorem told_of_trail (ht : Trail s t g) (cid : UInt64) :
    (g.standing? cid = none → partings t cid = [] ∧ notices t cid = []) ∧
      ∀ x, g.standing? cid = some x → Told t cid x := by
  refine ht.follow cid
    (P := fun t o ↦ (o = none → partings t cid = [] ∧ notices t cid = []) ∧
      ∀ x, o = some x → Told t cid x) ⟨fun _ ↦ ⟨rfl, rfl⟩, by rintro x ⟨⟩⟩ ?_ ?_
  · rintro t b m y ⟨ht, -⟩ hr hn - hy
    obtain ⟨hp, hq⟩ := ht rfl
    have hp : partings (t ++ [(b, m)]) cid = [] := by
      rw [partings_append, hp, hr]
      rfl
    have hq : notices (t ++ [(b, m)]) cid = [] := by
      rw [notices_append, hq, hn]
      rfl
    refine ⟨fun _ ↦ ⟨hp, hq⟩, ?_⟩
    rintro x rfl
    rcases hy with hy | hy <;> cases hy
    exact told_fresh hp hq
  · rintro t b m b' x y htb ⟨-, ht⟩ hx - - hfit hstep
    refine ⟨by rintro ⟨⟩, ?_⟩
    rintro z ⟨⟩
    exact (ht x rfl).step htb hx hfit hstep

/-- A release of a session that is the connection's to end has its end told by then. -/
theorem told_of_releasing (ht : Trail s u b) (hr : b.releasing? m = some cid) (ho : b.Owns cid) :
    endings (u ++ [(b, m)]) cid ≠ [] := by
  obtain ⟨c, hc, h0, hl⟩ := ho
  have hbear : b.hub.bearing? cid = some (b.hub.bearingOf cid c) := by rw [Hub.bearing?, hc]; rfl
  rw [endings, Ne, List.append_eq_nil_iff]
  rintro ⟨hp, hq⟩
  cases hx : b.standing? cid with
  | none => cases (ht.sound.absent hx).1.symm.trans hbear
  | some x =>
    have hbx := (standing?_eq_some_iff.1 hx).1.symm.trans hbear
    rw [Option.some.injEq] at hbx
    by_cases hs : x.status = .logout
    · have hu := ((told_of_trail ht cid).2 x hx).logout (.inl hs)
      exact partings_ne_nil (List.sublist_append_left u _) hu hp
    · have howner : x.Owner := by
        refine ⟨?_, ?_⟩
        · rw [hbx]
          exact h0
        · rw [hbx]
          exact beq_iff_eq.2 hl
      have hn : b.noticed? cid m = some (.make .offline b.hub.nid x.sid []) := by
        rw [noticed?, if_pos hr, parting?_eq hx, Standing.parting?, if_pos ⟨howner, hs⟩]
      exact List.ne_nil_of_mem (List.mem_filterMap.2 ⟨(b, m), by simp, hn⟩) hq

private theorem told_of_owner (ht : Trail s t g) (hb : (b, .finishSocket cid) ∈ t)
    (ho : b.Owns cid) : endings t cid ≠ [] := by
  obtain ⟨u, v, -, rfl, htb, -⟩ := ht.split_of_mem hb
  have hu := told_of_releasing htb (m := .finishSocket cid) rfl ho
  rw [← List.singleton_append, ← List.append_assoc]
  exact endings_ne_nil (List.sublist_append_left _ v) hu

/-- The backend is told at most twice that the session of a connection has ended: once by the client
and once by a release. It is told twice just when a release takes no notice of what the client says,
and it is told whenever a connection is let go that owns its session. -/
theorem ended_twice_iff (ht : Trail s t g) (cid : UInt64) :
    (partings t cid).length ≤ 1 ∧ (notices t cid).length ≤ 1 ∧
    (∀ b, (b, .finishSocket cid) ∈ t → b.Owns cid → endings t cid ≠ []) ∧
    ((endings t cid).length = 2 ↔ EndedTwice t cid) := by
  obtain ⟨hp, hq, htwice⟩ : (partings t cid).length ≤ 1 ∧ (notices t cid).length ≤ 1 ∧
      (partings t cid ≠ [] → notices t cid ≠ [] → EndedTwice t cid) := by
    obtain ⟨hnone, hsome⟩ := told_of_trail ht cid
    cases hx : g.standing? cid with
    | none => simp [hnone hx]
    | some x =>
      have h := hsome x hx
      exact ⟨h.parted_once, h.noticed_once, h.twice⟩
  refine ⟨hp, hq, fun b hb ho ↦ told_of_owner ht hb ho, ?_⟩
  rw [endings, List.length_append]
  constructor
  · intro h
    exact htwice (List.ne_nil_of_length_pos (by omega)) (List.ne_nil_of_length_pos (by omega))
  · intro h
    obtain ⟨hp', hq'⟩ := h.told
    have := List.length_pos_of_ne_nil hp'
    have := List.length_pos_of_ne_nil hq'
    omega

/-- A client with session 42 goes away. -/
def Takeover.leaving : List Move :=
  opened ++ [.say 1 .close, .hear 1, .takeMessage 1, .failWrite 1, .closeSocket 1, .finishSocket 1]

/-- Then the backend is told once, by the release. -/
theorem ended_once_leaving :
    ∃ t g, Trail Takeover.settings t g ∧ t.map Prod.snd = Takeover.leaving ∧
      partings t 1 = [] ∧ (endings t 1).length = 1 := by
  have hview : ((fresh Takeover.settings).trail? Takeover.leaving).map (fun r ↦
      (partings r.1 1, r.1.getLast?.map fun p ↦
        (p.2, (p.1.hub.conns.find? 1).map (·.sid), p.1.hub.router.lookup 42))) =
      some ([], some (.finishSocket 1, some 42, some 1)) := by decide +kernel
  obtain ⟨⟨t, g⟩, hrun, hv⟩ := Option.map_eq_some_iff.1 hview
  obtain ⟨ht, hmoves⟩ := trail_of_trail? hrun
  obtain ⟨hp, hlast⟩ := Prod.mk.injEq .. ▸ hv
  obtain ⟨⟨b, m⟩, hb, hlast⟩ := Option.map_eq_some_iff.1 hlast
  simp only [Prod.mk.injEq] at hlast
  obtain ⟨rfl, hsid, hl⟩ := hlast
  obtain ⟨c, hc, hsid⟩ := Option.map_eq_some_iff.1 hsid
  obtain ⟨-, hq, htold, -⟩ := ended_twice_iff ht 1
  have hne :=
    htold b (List.mem_of_getLast? hb) ⟨c, hc, by rw [hsid]; decide, by rw [hsid]; exact hl⟩
  have hpos := List.length_pos_of_ne_nil hne
  refine ⟨t, g, ht, hmoves, hp, ?_⟩
  rw [endings, hp, List.nil_append] at hpos ⊢
  omega

/-- A client ends session 42, and then the backend does, too. The connection is closed when its
notice is due, and let go. -/
def Takeover.kicking : List Move :=
  opened ++ [.say 1 (.binary (Message.make .offline 0 0 []).bytes), .hear 1] ++
    handling expulsion ++
    [.sweepTake, .wait 1000, .sweepExpire, .heed 1, .takeMessage 1, .failWrite 1, .finishSocket 1]

/-- Then the backend is told twice, by the client and by the release. -/
theorem ended_twice_kicking :
    ∃ t g, Trail Takeover.settings t g ∧ t.map Prod.snd = Takeover.kicking ∧
      logons t 1 = [42] ∧ endings t 1 = [.make .offline 1 42 [], .make .offline 1 42 []] ∧
      ¬ (endings t 1).length ≤ 1 := by
  have hview : ((fresh Takeover.settings).trail? Takeover.kicking).map (fun r ↦
      (logons r.1 1, endings r.1 1)) =
      some ([42], [.make .offline 1 42 [], .make .offline 1 42 []]) := by decide +kernel
  obtain ⟨⟨t, g⟩, hrun, hv⟩ := Option.map_eq_some_iff.1 hview
  obtain ⟨ht, hmoves⟩ := trail_of_trail? hrun
  obtain ⟨hl, he⟩ := Prod.mk.injEq .. ▸ hv
  exact ⟨t, g, ht, hmoves, hl, he, by rw [he]; decide⟩

end EdgeGateway.Gateway
