import EdgeGateway.Proofs.Channel.Log
import EdgeGateway.Proofs.Journal
import EdgeGateway.Proofs.Link.Loads
import EdgeGateway.Proofs.Link.Writing

/-!
# Frames that go out are conserved

Account is kept of a run: of the outbound queue by its log, and of every frame that a writer takes
by a load. In every run the account agrees with the queue, with what the writers hold and with what
stands on the connections, so a frame that was accepted is in the queue or is one load, which is
held, written or lost.

Main statement: `outbound_conserved`.
-/

namespace EdgeGateway

variable {η κ : Type}

/-- The account of the frames that go out. -/
structure Freight where
  log : Channel.Log Frame := {}
  loads : List Load := []

namespace Freight

/-- A writer takes a frame, or what it holds has a fate now. -/
def pen (o : Freight) : Pen → Freight
  | .takes w true f =>
    { o with log := o.log.receive, loads := o.loads ++ [⟨w, o.log.next?, f, .held⟩] }
  | .takes w false f => { o with loads := o.loads ++ [⟨w, none, f, .held⟩] }
  | .finishes w => { o with loads := o.loads.map (Load.settle w .written) }
  | .fails w => { o with loads := o.loads.map (Load.settle w .lost) }

/-- What a move of the links does to the account. -/
def penMove (o : Freight) (e : Option Pen) : Freight :=
  match e with
  | some e => o.pen e
  | none => o

/-- What a move does to the account. -/
def note (o : Freight) (p : Forwarder η κ) : Forwarder.Move η κ → Freight
  | .send f => { o with log := o.log.send f }
  | .withdraw k => { o with log := o.log.withdraw p.pool.outbound k }
  | .link m => o.penMove (p.pool.penned? m)
  | _ => o

/-- The account of a run. -/
def of (t : List (Forwarder η κ × Forwarder.Move η κ)) : Freight := Journal.account note {} t

/-! ### The account agrees with the pool -/

/-- What stands on a connection agrees with the account of it and with its writer. -/
def Kept (o : Freight) (p : Pool κ) (w : Nat) (z : Option Writer) : Prop :=
  ∀ sheet, p.sheets[w]? = some sheet → Page w (onWire Load.wire w o.loads) sheet z

/-- The account agrees with the outbound queue, with what the writers are doing and with what stands
on the connections. -/
structure Agrees (o : Freight) (p : Pool κ) : Prop where
  closed : p.outbound.closed = false
  log : o.log.Tells p.outbound
  taken : o.loads.filterMap (·.ticket) = o.log.taken
  named : ∀ x ∈ o.loads, ∀ k, x.ticket = some k → o.log.sent[k]? = some x.frame
  within : ∀ x ∈ o.loads, x.wire < p.sheets.length
  manned : Manned p.desks p.sheets.length (o.Kept p)

variable {o o' : Freight} {p q : Pool κ} {i w v : Nat} {d : Option (Nat × Writer)} {x : Writer}
  {f : Frame} {e : Option Pen}

private theorem Agrees.same (h : o.Agrees p) (hq : p.SameDesks q) : o.Agrees q := by
  obtain ⟨hd, hs, ho⟩ := hq
  constructor
  · rw [ho]
    exact h.closed
  · rw [ho]
    exact h.log
  · exact h.taken
  · exact h.named
  · rw [hs]
    exact h.within
  · rw [hd, hs]
    exact h.manned.mono fun w _ z hz ↦ by rwa [Kept, hs]

private theorem Agrees.at_desk (h : o.Agrees p) (hi : p.desks[i]? = some (some (w, x)))
    (hdesks : q.desks = p.desks.set i d) (hd : ∀ v y, d = some (v, y) → v = w)
    (hlength : q.sheets.length = p.sheets.length)
    (hsheets : ∀ v, v ≠ w → q.sheets[v]? = p.sheets[v]?) (hclosed : q.outbound.closed = false)
    (hlog : o'.log.Tells q.outbound) (htaken : o'.loads.filterMap (·.ticket) = o'.log.taken)
    (hnamed : ∀ x ∈ o'.loads, ∀ k, x.ticket = some k → o'.log.sent[k]? = some x.frame)
    (hwithin : ∀ x ∈ o'.loads, x.wire < p.sheets.length)
    (hothers : ∀ v, v ≠ w → onWire Load.wire v o'.loads = onWire Load.wire v o.loads)
    (hpage : ∀ s, p.sheets[w]? = some s → Page w (onWire Load.wire w o.loads) s (some x) →
      ∀ s', q.sheets[w]? = some s' → Page w (onWire Load.wire w o'.loads) s' (d.map Prod.snd)) :
    o'.Agrees q := by
  refine ⟨hclosed, hlog, htaken, hnamed, by rw [hlength]; exact hwithin, ?_⟩
  rw [hdesks, hlength]
  refine h.manned.set hi hd ?_ ?_
  · intro v _ hv z hz
    rw [Kept, hsheets v hv, hothers v hv]
    exact hz
  · intro hx s' hs'
    have hs := List.getElem?_eq_getElem (h.manned.known i w x hi)
    exact hpage _ hs (hx _ hs) s' hs'

private theorem settle_ticket (xs : List Load) (w : Nat) (y : Fate) :
    (xs.map (Load.settle w y)).filterMap (·.ticket) = xs.filterMap (·.ticket) := by
  rw [List.filterMap_map]
  congr 1
  funext x
  exact Load.ticket_settle

private theorem Agrees.settle (h : o.Agrees p) {left : Bytes} {y : Fate}
    (hi : p.desks[i]? = some (some (w, .writing f left))) (hdesks : q.desks = p.desks.set i d)
    (hd : ∀ v y, d = some (v, y) → v = w) (hlength : q.sheets.length = p.sheets.length)
    (hsheets : ∀ v, v ≠ w → q.sheets[v]? = p.sheets[v]?) (ho : q.outbound = p.outbound)
    (hpage : ∀ s xs, p.sheets[w]? = some s → Page w xs s (some (.writing f left)) →
      ∀ s', q.sheets[w]? = some s' → Page w (xs.map (Load.settle w y)) s' (d.map Prod.snd)) :
    ({ o with loads := o.loads.map (Load.settle w y) } : Freight).Agrees q := by
  refine h.at_desk hi hdesks hd hlength hsheets (by rw [ho]; exact h.closed)
    (by rw [ho]; exact h.log)
    ((settle_ticket o.loads w y).trans h.taken) ?_ ?_ (fun v hv ↦ Load.onWire_settle_of_ne hv) ?_
  · intro z hz k hk
    obtain ⟨u, hu, rfl⟩ := List.mem_map.1 hz
    rw [Load.frame_settle]
    exact h.named u hu k (by rwa [Load.ticket_settle] at hk)
  · intro z hz
    obtain ⟨u, hu, rfl⟩ := List.mem_map.1 hz
    rw [Load.wire_settle]
    exact h.within u hu
  · intro s hs hp s' hs'
    simp only
    rw [Load.onWire_settle]
    exact hpage s _ hs hp s' hs'

private theorem Agrees.take (h : o.Agrees p) {k : Option Nat}
    (hi : p.desks[i]? = some (some (w, .idle)))
    (hdesks : q.desks = p.desks.set i (some (w, .writing f f.bytes)))
    (hsheets : q.sheets = p.sheets) (hclosed : q.outbound.closed = false)
    (hlog : o'.log.Tells q.outbound) (hloads : o'.loads = o.loads ++ [⟨w, k, f, .held⟩])
    (htaken : o'.log.taken = o.log.taken ++ k.toList) (hsent : o'.log.sent = o.log.sent)
    (hk : ∀ j, k = some j → o.log.sent[j]? = some f) : o'.Agrees q := by
  refine h.at_desk hi hdesks ?_ (by rw [hsheets]) (fun v _ ↦ by rw [hsheets]) hclosed hlog ?_ ?_
    ?_ ?_ ?_
  · rintro v y ⟨⟩
    rfl
  · rw [hloads, htaken, ← h.taken, List.filterMap_append]
    cases k <;> rfl
  · intro z hz j hj
    rw [hsent]
    rw [hloads] at hz
    rcases List.mem_append.1 hz with hz | hz
    · exact h.named z hz j hj
    · cases List.mem_singleton.1 hz
      exact hk j hj
  · intro z hz
    rw [hloads] at hz
    rcases List.mem_append.1 hz with hz | hz
    · exact h.within z hz
    · cases List.mem_singleton.1 hz
      exact h.manned.known i w .idle hi
  · intro v hv
    rw [hloads, onWire_append]
    simp [onWire, Ne.symm hv]
  · intro s hs hp s' hs'
    rw [hsheets, hs] at hs'
    cases hs'
    rw [hloads, onWire_append]
    simpa [onWire] using hp.take k f

private theorem Agrees.connect (h : o.Agrees p) (hi : p.desks[i]? = some none)
    (hdesks : q.desks = p.desks.set i (some (p.wires.length, .writing f f.bytes)))
    (hsheets : q.sheets = p.sheets ++ [([], [])]) (ho : q.outbound = p.outbound) :
    (o.pen (.takes p.wires.length false f)).Agrees q := by
  have hlen : p.wires.length = p.sheets.length := (List.length_map ..).symm
  have hnext : q.sheets.length = p.sheets.length + 1 := by rw [hsheets, List.length_append]; rfl
  rw [hlen] at hdesks ⊢
  constructor
  · rw [ho]
    exact h.closed
  · rw [ho]
    exact h.log
  · rw [pen, List.filterMap_append]
    simp [h.taken]
  · intro z hz k hk
    rcases List.mem_append.1 hz with hz | hz
    · exact h.named z hz k hk
    · cases List.mem_singleton.1 hz
      cases hk
  · intro z hz
    rw [hnext]
    rcases List.mem_append.1 hz with hz | hz
    · exact Nat.lt_succ_of_lt (h.within z hz)
    · cases List.mem_singleton.1 hz
      exact Nat.lt_succ_self _
  · rw [hdesks, hnext]
    refine h.manned.enter hi ?_ ?_
    · intro v hv z hz s hs
      rw [hsheets, List.getElem?_append_left hv] at hs
      rw [pen, onWire_append]
      simpa [onWire, Nat.ne_of_gt hv] using hz s hs
    · intro s hs
      rw [hsheets, List.getElem?_append_right (Nat.le_refl _), Nat.sub_self] at hs
      cases hs
      have hnone : onWire Load.wire p.sheets.length o.loads = [] := by
        rw [onWire, List.filter_eq_nil_iff]
        intro z hz hw
        exact Nat.lt_irrefl _ (of_decide_eq_true hw ▸ h.within z hz)
      rw [pen, onWire_append, hnone]
      simpa [onWire] using Page.fresh p.sheets.length none f

private theorem Agrees.writes (h : o.Agrees p) (hw : p.Writes q e) : (o.penMove e).Agrees q := by
  cases hw with
  | rests hq => exact h.same hq
  | leaves hi hx hd hdesks hs ho =>
    refine h.at_desk hi hdesks ?_ (by rw [hs]) (fun v _ ↦ by rw [hs]) (by rw [ho]; exact h.closed)
      (by rw [ho]; exact h.log) h.taken h.named h.within (fun _ _ ↦ rfl) ?_
    · rintro v y rfl
      rcases hd with hd | hd <;> cases hd
      rfl
    · intro s hps hp s' hs'
      rw [hs, hps] at hs'
      cases hs'
      refine hp.leave hx ?_
      rcases hd with rfl | rfl
      · exact .inl rfl
      · exact .inr rfl
  | connects hi hdesks hs ho => exact h.connect hi hdesks hs ho
  | @takes i w shared f hi hdesks hs ho =>
    cases shared with
    | false =>
      simp only [Bool.false_eq_true, if_false] at ho
      refine h.take hi hdesks hs (by rw [ho]; exact h.closed)
        (by rw [ho]; exact h.log) rfl ?_ rfl nofun
      simp [penMove, pen]
    | true =>
      simp only [if_true] at ho
      obtain ⟨k, hk, hf⟩ := h.log.front ho
      refine h.take (k := o.log.next?) hi hdesks hs ((Channel.closed_of_receive ho).trans h.closed)
        (h.log.receive ho) rfl rfl rfl ?_
      intro j hj
      rw [hk] at hj
      cases hj
      exact hf
  | @writes i w n f left hi hn hdesks hs ho =>
    refine h.at_desk hi hdesks ?_ (by rw [hs, List.length_modify])
      (fun v hv ↦ by rw [hs, Posts.getElem?_modify_of_ne hv]) (by rw [ho]; exact h.closed)
      (by rw [ho]; exact h.log) h.taken h.named h.within (fun _ _ ↦ rfl) ?_
    · rintro v y ⟨⟩
      rfl
    · intro s hps hp s' hs'
      rw [hs] at hs'
      cases Posts.eq_of_getElem?_modify hps hs'
      exact hp.write n
  | @finishes i w f left hi hdesks hs ho =>
    refine h.settle hi hdesks ?_ (by rw [hs, List.length_modify])
      (fun v hv ↦ by rw [hs, Posts.getElem?_modify_of_ne hv]) ho ?_
    · rintro v y ⟨⟩
      rfl
    · intro s xs hps hp s' hs'
      rw [hs] at hs'
      cases Posts.eq_of_getElem?_modify hps hs'
      exact hp.finish
  | fails hi hd hdesks hs ho =>
    refine h.settle hi hdesks ?_ (by rw [hs]) (fun v _ ↦ by rw [hs]) ho ?_
    · rintro v y rfl
      rcases hd with hd | hd <;> cases hd
      rfl
    · intro s xs hps hp s' hs'
      rw [hs, hps] at hs'
      cases hs'
      refine hp.fail ?_
      rcases hd with rfl | rfl
      · exact .inl rfl
      · exact .inr rfl

private theorem Agrees.queue (h : o.Agrees p) {l : Channel.Log Frame} (hd : q.desks = p.desks)
    (hs : q.sheets = p.sheets) (hclosed : q.outbound.closed = p.outbound.closed)
    (hl : l.Tells q.outbound) (htaken : l.taken = o.log.taken)
    (hsent : ∀ (k : Nat) f, o.log.sent[k]? = some f → l.sent[k]? = some f) :
    ({ o with log := l } : Freight).Agrees q := by
  refine ⟨hclosed.trans h.closed, hl, h.taken.trans htaken.symm,
    fun x hx k hk ↦ hsent k _ (h.named x hx k hk), ?_, ?_⟩
  · rw [hs]
    exact h.within
  · rw [hd, hs]
    exact h.manned.mono fun w _ z hz ↦ by rwa [Kept, hs]

end Freight

namespace Forwarder

variable {p q : Forwarder η κ} {m : Move η κ} {o : Freight}

/-- Only what is sent, what is withdrawn and the links do anything to the frames that go out. -/
theorem sameDesks_of_move? (hs : p.pool.Slept) (hm : p.move? m = some q) :
    (p.pool.SameDesks q.pool ∧ ∀ o : Freight, o.note p m = o) ∨
      (∃ f, m = .send f) ∨ (∃ k, m = .withdraw k) ∨ ∃ n, m = .link n := by
  cases m with
  | send f => exact .inr (.inl ⟨f, rfl⟩)
  | withdraw k => exact .inr (.inr (.inl ⟨k, rfl⟩))
  | link n => exact .inr (.inr (.inr ⟨n, rfl⟩))
  | register | wait =>
    cases hm
    exact .inl ⟨⟨rfl, rfl, rfl⟩, fun _ ↦ rfl⟩
  | launch =>
    cases hm
    exact .inl ⟨hs.sameDesks_launch p.now, fun _ ↦ rfl⟩
  | shutdown =>
    cases hm
    exact .inl ⟨p.pool.sameDesks_signal, fun _ ↦ rfl⟩
  | backendSays w b =>
    cases hm
    exact .inl ⟨p.pool.sameDesks_deliver w b, fun _ ↦ rfl⟩
  | backendEnds w =>
    cases hm
    exact .inl ⟨p.pool.sameDesks_finishInflow w, fun _ ↦ rfl⟩
  | fetch i w x =>
    obtain ⟨⟨f, pool⟩, hf, hm⟩ := Option.bind_eq_some_iff.1 hm
    have hpool := Pool.sameDesks_fetchInbound hf
    simp only at hm
    split at hm <;> cases hm
    · obtain ⟨hd, hsheets, ho⟩ := pool.sameDesks_setWorker i w x
      exact .inl
        ⟨⟨hd.trans hpool.desks, hsheets.trans hpool.sheets, ho.trans hpool.outbound⟩,
          fun _ ↦ rfl⟩
    · exact .inl ⟨hpool, fun _ ↦ rfl⟩
  | resume i w x =>
    obtain ⟨y, -, hm⟩ := Option.bind_eq_some_iff.1 hm
    split at hm <;> cases hm
    exact .inl ⟨p.pool.sameDesks_setWorker i w _, fun _ ↦ rfl⟩

/-- Every move is in the account. -/
theorem agrees_of_move? (h : o.Agrees p.pool) (hs : p.pool.Slept) (hm : p.move? m = some q) :
    (o.note p m).Agrees q.pool := by
  rcases sameDesks_of_move? hs hm with ⟨hsame, hnote⟩ | ⟨f, rfl⟩ | ⟨k, rfl⟩
    | ⟨n, rfl⟩
  · rw [hnote o]
    exact h.same hsame
  · cases hm
    refine h.queue rfl rfl ?_ (h.log.send h.closed f) rfl ?_
    · exact Channel.closed_send p.pool.outbound f
    · intro k g hk
      rw [Channel.Log.send, List.getElem?_append_left (List.getElem?_eq_some_iff.1 hk).1, hk]
  · cases hm
    refine h.queue rfl rfl rfl (h.log.withdraw k) ?_ ?_
    · rw [Channel.Log.withdraw]
      split <;> rfl
    · intro j g hj
      rw [Channel.Log.withdraw]
      split <;> exact hj
  · obtain ⟨pool, hp, rfl⟩ := Option.map_eq_some_iff.1 hm
    exact h.writes (Pool.writes_of_move? hp)

end Forwarder

/-! ### Whole runs -/

namespace Freight

variable {p q : Forwarder η κ} {m : Forwarder.Move η κ} {o : Freight} {s : LinkSettings}
  {t : List (Forwarder η κ × Forwarder.Move η κ)}

/-- What the account of a run says. -/
structure Conserved (t : List (Forwarder η κ × Forwarder.Move η κ)) (o : Freight)
    (p : Pool κ) : Prop where
  /-- Every accepted frame is one load or one item of the queue, and they are in the order of the
  tickets. -/
  accepted : ∃ queued, o.log.accepted p.outbound = o.loads.filterMap (·.ticket) ++ queued ∧
    queued.map (o.log.sent[·]?) = p.outbound.items.map some
  /-- Every ticket is there once, and tickets are let into the queue in ascending order. -/
  ascending : (o.log.accepted p.outbound).Pairwise (· < ·) ∧
    ∀ j ∈ o.log.accepted p.outbound, ∀ w ∈ p.outbound.waiting, j < w.1
  /-- A load with a ticket is the frame that was sent with it. -/
  named : ∀ x ∈ o.loads, ∀ k, x.ticket = some k → o.log.sent[k]? = some x.frame
  /-- The frames that were finished on a connection are the loads written on it, one for one. -/
  written : ∀ w wire, p.wires[w]? = some wire →
    wire.written = ((onWire Load.wire w o.loads).filter (·.fate = .written)).map (·.frame)
  /-- On a connection stand the bytes of those frames, and behind them perhaps a part of one other
  load. -/
  bytes : ∀ w wire, p.wires[w]? = some wire →
    ∃ cut, wire.bytes = wire.written.flatMap (·.bytes) ++ cut ∧
      (cut = [] ∨ ∃ x ∈ onWire Load.wire w o.loads, x.fate ≠ .written ∧
        cut <+: x.frame.bytes)
  /-- On each connection at most one load has not been written. -/
  single : ∀ w wire, p.wires[w]? = some wire →
    ((onWire Load.wire w o.loads).filter (·.fate ≠ .written)).length ≤ 1
  /-- Every load is on a connection. -/
  within : ∀ x ∈ o.loads, x.wire < p.wires.length
  /-- On each connection the tickets are in ascending order. -/
  ordered : ∀ w, ((onWire Load.wire w o.loads).filterMap (·.ticket)).Pairwise (· < ·)
  /-- What is held is held by a writer. -/
  held : ∀ w f, (∃ x ∈ onWire Load.wire w o.loads, x.frame = f ∧ x.fate = .held) ↔
    ∃ i left, p.held? i = some (w, f, left)
  /-- No two links write on one connection. -/
  apart : ∀ i j w f f' left left', p.held? i = some (w, f, left) →
    p.held? j = some (w, f', left') → i = j
  /-- What is lost was held when a write failed. -/
  lost : ∀ x ∈ o.loads, x.fate = .lost → ∃ b i left, (b, .link (.failWrite i)) ∈ t ∧
    b.pool.held? i = some (x.wire, x.frame, left)

private theorem agrees_start (s : LinkSettings) :
    ({} : Freight).Agrees (Pool.fresh s : Pool κ) := by
  have hdesks : ∀ (i w : Nat) x, (Pool.fresh s : Pool κ).desks[i]? ≠ some (some (w, x)) := by
    intro i w x h
    rw [Pool.desks, List.getElem?_map] at h
    obtain ⟨l, hl, h⟩ := Option.map_eq_some_iff.1 h
    rw [List.eq_of_mem_replicate (List.mem_of_getElem? hl)] at h
    cases h
  exact ⟨rfl, Channel.Log.tells_empty _, rfl, List.forall_mem_nil _, List.forall_mem_nil _,
    .of_absent hdesks⟩

/-- In every run the account agrees with the pool. -/
theorem agrees_of_journal (h : Journal Forwarder.move? (Forwarder.start s) t p) :
    (of t).Agrees p.pool ∧ p.pool.Slept := by
  induction h with
  | start => exact ⟨agrees_start s, Pool.slept_fresh s⟩
  | move _ hm ih =>
    rw [of, Journal.account_append]
    exact ⟨Forwarder.agrees_of_move? ih.1 ih.2 hm, Forwarder.slept_of_move? ih.2 hm⟩

private theorem Agrees.page_of_held {p : Pool κ} (h : o.Agrees p) {i w : Nat} {f : Frame}
    {left : Bytes} (hi : p.held? i = some (w, f, left)) :
    ∃ sheet, Page w (onWire Load.wire w o.loads) sheet (some (.writing f left)) := by
  have hi := Pool.held?_eq_some_iff.1 hi
  exact ⟨_, h.manned.at_post hi _ (List.getElem?_eq_getElem (h.manned.known i w _ hi))⟩

/-- What is lost was lost before, or a write fails now. -/
theorem lost_of_note (h : o.Agrees p.pool) {x : Load} (hx : x ∈ (o.note p m).loads)
    (hl : x.fate = .lost) : x ∈ o.loads ∨
      ∃ i left, m = .link (.failWrite i) ∧ p.pool.held? i = some (x.wire, x.frame, left) := by
  cases m with
  | link m =>
    simp only [note] at hx
    cases he : p.pool.penned? m with
    | none =>
      rw [he] at hx
      exact .inl hx
    | some e =>
      rw [he] at hx
      cases e with
      | takes w shared f =>
        have hnew : x ∈ o.loads ∨ x.fate = .held := by
          cases shared with
          | true | false =>
            rcases List.mem_append.1 hx with hx | hx
            · exact .inl hx
            · rw [List.mem_singleton.1 hx]
              exact .inr rfl
        rcases hnew with hx | hx
        · exact .inl hx
        · cases hl.symm.trans hx
      | finishes w =>
        obtain ⟨y, hy, rfl⟩ := List.mem_map.1 hx
        rw [Load.settle] at hl ⊢
        split at hl
        · cases hl
        · next hn =>
          rw [if_neg hn]
          exact .inl hy
      | fails w =>
        obtain ⟨y, hy, rfl⟩ := List.mem_map.1 hx
        rw [Load.settle] at hl ⊢
        split
        · next hn =>
          -- Only the frame that the writer is writing is held on its connection.
          obtain ⟨i, f, left, rfl, hh⟩ := Pool.held?_of_fails he
          obtain ⟨sheet, hp⟩ := h.page_of_held hh
          obtain ⟨left', hw⟩ := (hp.held_iff y.frame).1
            ⟨y, List.mem_filter.2 ⟨hy, decide_eq_true hn.1⟩, rfl, hn.2⟩
          cases hw
          refine .inr ⟨i, left, rfl, ?_⟩
          rw [hh, ← hn.1]
        · exact .inl hy
  | _ => exact .inl hx

/-- What is lost was held when a write failed. -/
theorem failed_of_lost (h : Journal Forwarder.move? (Forwarder.start s) t p) {x : Load}
    (hx : x ∈ (of t).loads) (hl : x.fate = .lost) :
    ∃ b i left, (b, .link (.failWrite i)) ∈ t ∧
      b.pool.held? i = some (x.wire, x.frame, left) := by
  induction h with
  | start => cases hx
  | @move t p q m ht hm ih =>
    rw [of, Journal.account_append] at hx
    rcases lost_of_note (agrees_of_journal ht).1 hx hl with hx | ⟨i, left, rfl, hh⟩
    · obtain ⟨b, i, left, hb, hh⟩ := ih hx
      exact ⟨b, i, left, List.mem_append_left _ hb, hh⟩
    · exact ⟨p, i, left, List.mem_append_right _ (List.mem_singleton_self _), hh⟩

/-- Whatever the links, their writers and the backend do: every frame that was accepted is in the
outbound queue or in the hands of one writer, or it was written to its end on one connection, or it
was in the hands of a writer when a write failed, and no frame is anywhere twice. Each connection
loses one frame at most, and has its frames in the order in which they entered the queue. -/
theorem outbound_conserved (h : Journal Forwarder.move? (Forwarder.start s) t p) :
    Conserved t (of t) p.pool := by
  obtain ⟨hag, -⟩ := agrees_of_journal h
  have hpages : ∀ w wire, p.pool.wires[w]? = some wire → ∃ z, Posts.At p.pool.desks w z ∧
      Page w (onWire Load.wire w (of t).loads) (wire.portions, wire.finished) z := by
    intro w wire hw
    have hs : p.pool.sheets[w]? = some (wire.portions, wire.finished) := by
      rw [Pool.sheets, List.getElem?_map, hw]
      rfl
    obtain ⟨z, hz, hp⟩ := hag.manned.holds w (List.getElem?_eq_some_iff.1 hs).1
    exact ⟨z, hz, hp _ hs⟩
  obtain ⟨queued, hacc, hq⟩ := hag.log.accepted
  rw [← hag.taken] at hacc
  have hasc : ((of t).log.accepted p.pool.outbound).Pairwise (· < ·) :=
    (of t).log.pairwise_standing.filter _
  constructor
  · exact ⟨queued, hacc, hq⟩
  · exact ⟨hasc, fun j hj w hw ↦ hag.log.lt_waiting hj hw⟩
  · exact hag.named
  · intro w wire hw
    obtain ⟨z, -, hp⟩ := hpages w wire hw
    exact hp.written.1
  · intro w wire hw
    obtain ⟨z, -, hp⟩ := hpages w wire hw
    exact hp.bytes
  · intro w wire hw
    obtain ⟨z, -, hp⟩ := hpages w wire hw
    exact hp.written.2
  · intro x hx
    have := hag.within x hx
    rwa [Pool.sheets, List.length_map] at this
  · intro w
    rw [hacc] at hasc
    exact (List.pairwise_append.1 hasc).1.sublist (List.filter_sublist.filterMap _)
  · intro w f
    constructor
    · rintro ⟨x, hx, hf, hheld⟩
      have hlt := hag.within x (List.mem_filter.1 hx).1
      rw [of_decide_eq_true (List.mem_filter.1 hx).2] at hlt
      obtain ⟨z, hz, hp⟩ := hag.manned.holds w hlt
      obtain ⟨left, rfl⟩ :=
        ((hp _ (List.getElem?_eq_getElem hlt)).held_iff f).1 ⟨x, hx, hf, hheld⟩
      obtain ⟨i, hi⟩ := hz
      exact ⟨i, left, Pool.held?_eq_some_iff.2 hi⟩
    · rintro ⟨i, left, hi⟩
      obtain ⟨sheet, hp⟩ := hag.page_of_held hi
      exact (hp.held_iff f).2 ⟨left, rfl⟩
  · intro i j w f f' left left' hi hj
    exact hag.manned.apart i j w _ _ (Pool.held?_eq_some_iff.1 hi) (Pool.held?_eq_some_iff.1 hj)
  · exact fun x ↦ failed_of_lost h

/-! ### A run with a broken connection -/

/-- Two links and an outbound queue that is short. -/
def Broken.settings : LinkSettings :=
  { links := 2, workers := 1, outboundCapacity := 1, inboundCapacity := 1 }

/-- Three frames are sent, of which two have to wait. The write of the first one fails on one
connection, the second one is written on another, and the third one stays in the queue. -/
def Broken.moves : List (Forwarder.Move Unit Unit) :=
  [.launch, .send (.make .ping 1 .user [0]), .send (.make .ping 1 .user [1]),
    .send (.make .ping 1 .user [2])] ++
  [.connect 0, .connect 1, .transmit 0 1000, .transmit 1 1000, .fetchOutbound 0, .fetchOutbound 1,
    .transmit 0 3, .failWrite 0, .transmit 1 1000].map .link

/-- Then one frame is lost with its connection, one is written on the other, and one is still
queued. -/
theorem outbound_conserved_broken :
    ∃ t p, Journal Forwarder.move? (Forwarder.start Broken.settings) t p ∧
      t.map Prod.snd = Broken.moves ∧
      (of t).loads.map (fun x ↦ (x.wire, x.ticket, x.fate)) =
        [(0, none, .written), (1, none, .written), (0, some 0, .lost), (1, some 1, .written)] ∧
      (of t).log.accepted p.pool.outbound = [0, 1, 2] ∧ p.pool.outbound.items.length = 1 ∧
      Conserved t (of t) p.pool := by
  have hview : (Journal.write? Forwarder.move? (Forwarder.start Broken.settings) Broken.moves).map
      (fun r ↦ ((of r.1).loads.map (fun x ↦ (x.wire, x.ticket, x.fate)),
        (of r.1).log.accepted r.2.pool.outbound, r.2.pool.outbound.items.length)) =
      some ([(0, none, .written), (1, none, .written), (0, some 0, .lost), (1, some 1, .written)],
        [0, 1, 2], 1) := by decide +kernel
  obtain ⟨⟨t, p⟩, hrun, hv⟩ := Option.map_eq_some_iff.1 hview
  simp only [Prod.mk.injEq] at hv
  obtain ⟨hj, hmoves⟩ := Journal.of_write? hrun
  exact ⟨t, p, hj, hmoves, hv.1, hv.2.1, hv.2.2, outbound_conserved hj⟩

end Freight

end EdgeGateway
