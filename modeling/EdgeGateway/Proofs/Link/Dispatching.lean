import EdgeGateway.Proofs.Channel.Log
import EdgeGateway.Proofs.Journal
import EdgeGateway.Proofs.Link.Arrivals
import EdgeGateway.Proofs.Link.Reading

/-!
# Every frame that comes in is dispatched once

Account is kept of a run: of what the backend wrote on each connection and what was read there, of
the inbound queue by its log, and of every frame for the workers that was read by an arrival. In
every run the account agrees with the queue and with what the readers are doing, so an arrival is
with its reader, in the queue, with one worker, or it has been dropped by a reader that was told to
stop.

Main statement: `inbound_dispatched`.
-/

namespace EdgeGateway

variable {η κ : Type}

/-- The account of the frames that come in. -/
structure Intake where
  log : Channel.Log Frame := {}
  /-- What the backend wrote on each connection. -/
  heard : Nat → Bytes := fun _ ↦ []
  /-- What was read on each connection, piece by piece. -/
  read : Nat → List Bytes := fun _ ↦ []
  /-- The frames for the workers, in the order in which they were read. -/
  arrivals : List Arrival := []

/-- Where a frame for the workers is. -/
inductive Stage where
  /-- Its reader waits for room in the inbound queue. -/
  | offered
  | queued
  | taken
  | dropped
  deriving Repr, DecidableEq

/-- A frame that a worker took, and the call that came of it. -/
structure Taking (η : Type) where
  link : Nat
  worker : Nat
  frame : Frame
  call : Option (Call η)

namespace Intake

/-- Adds something to what there is on a connection. -/
def put {α : Type} (w : Nat) (xs : List α) (f : Nat → List α) : Nat → List α :=
  fun v ↦ if v = w then f v ++ xs else f v

/-- What a reader does with a frame, where `c` is the inbound queue. -/
def glance (o : Intake) (c : Channel Frame) : Glance → Intake
  | .skips w b => { o with read := put w [b] o.read }
  | .offers w f =>
    { o with
      log := o.log.send f
      read := put w [f.bytes] o.read
      arrivals := o.arrivals ++ [⟨w, f, some o.log.sent.length⟩] }
  | .drops w f =>
    { o with read := put w [f.bytes] o.read, arrivals := o.arrivals ++ [⟨w, f, none⟩] }
  | .withdraws _ k => { o with log := o.log.withdraw c k }

/-- What a move of the links does to the account. -/
def glanceMove (o : Intake) (c : Channel Frame) (e : Option Glance) : Intake :=
  match e with
  | some e => o.glance c e
  | none => o

/-- What a move does to the account. What the backend writes before there is a connection does not
count. -/
def note (o : Intake) (p : Forwarder η κ) : Forwarder.Move η κ → Intake
  | .backendSays w b => if w < p.pool.wires.length then { o with heard := put w b o.heard } else o
  | .link m => o.glanceMove p.pool.inbound (p.pool.glanced? m)
  | .fetch .. => { o with log := o.log.receive }
  | _ => o

/-- The account of a run. -/
def of (t : List (Forwarder η κ × Forwarder.Move η κ)) : Intake := Journal.account note {} t

/-- Where an arrival is, where `c` is the inbound queue. -/
def stage (o : Intake) (c : Channel Frame) (a : Arrival) : Stage :=
  if a.dropped o.log.withdrawn then .dropped
  else if a.ticket.any (· ∈ o.log.taken) then .taken
  else if a.ticket.any (c.delivery · = .accepted) then .queued
  else .offered

/-! ### The account agrees with the pool -/

/-- What is known of a connection agrees with its reader. -/
def Kept (o : Intake) (p : Pool κ) (w : Nat) (z : Option (Reader × Bool)) : Prop :=
  ∀ inflow, p.inflows[w]? = some inflow →
    Roll (o.heard w) (o.read w) (onWire Arrival.wire w o.arrivals) o.log.withdrawn inflow z

/-- The account agrees with the inbound queue and with what the readers are doing. -/
structure Agrees (o : Intake) (p : Pool κ) : Prop where
  closed : p.inbound.closed = false
  log : o.log.Tells p.inbound
  tickets : o.arrivals.filterMap (·.ticket) = List.range o.log.sent.length
  named : ∀ a ∈ o.arrivals, ∀ k, a.ticket = some k → o.log.sent[k]? = some a.frame
  beyond : ∀ w, p.inflows.length ≤ w → o.heard w = [] ∧ o.read w = [] ∧
    onWire Arrival.wire w o.arrivals = []
  waiting : ∀ x ∈ p.inbound.waiting, ∃ (i w : Nat) (stop : Bool),
    p.seats[i]? = some (some (w, .offering x.1, stop))
  manned : Manned p.seats p.inflows.length (o.Kept p)

variable {o o' : Intake} {p q : Pool κ} {i w v k : Nat} {d : Option (Nat × Reader × Bool)}
  {r : Reader} {stop : Bool} {f : Frame} {b : Bytes} {e : Option Glance}

private theorem put_self {α : Type} {xs : List α} {g : Nat → List α} :
    put w xs g w = g w ++ xs := if_pos rfl

private theorem put_of_ne {α : Type} {xs : List α} {g : Nat → List α}
    (h : v ≠ w) : put w xs g v = g v :=
  if_neg h

private theorem waits_set {c : List (Nat × Frame)} {ds : List (Option (Nat × Reader × Bool))}
    (hi : ds[i]? = some (some (w, r, stop)))
    (h : ∀ x ∈ c, ∃ (i w : Nat) (stop : Bool), ds[i]? = some (some (w, .offering x.1, stop)))
    (hr : ∀ x ∈ c, r = .offering x.1 → ∃ (v : Nat) (stop : Bool),
      d = some (v, .offering x.1, stop)) :
    ∀ x ∈ c, ∃ (j v : Nat) (stop : Bool),
      (ds.set i d)[j]? = some (some (v, .offering x.1, stop)) := by
  intro x hx
  obtain ⟨j, v, stop', hj⟩ := h x hx
  by_cases hij : i = j
  · subst hij
    cases hi.symm.trans hj
    obtain ⟨u, stop'', rfl⟩ := hr x hx rfl
    exact ⟨i, u, stop'', List.getElem?_set_self (List.getElem?_eq_some_iff.1 hi).1⟩
  · exact ⟨j, v, stop', by rw [List.getElem?_set_ne hij, hj]⟩

private theorem Agrees.same (h : o.Agrees p) (hq : p.SameSeats q) : o.Agrees q := by
  obtain ⟨hs, hw, hi⟩ := hq
  refine ⟨by rw [hi]; exact h.closed, by rw [hi]; exact h.log, h.tickets, h.named,
    by rw [hw]; exact h.beyond, by rw [hi, hs]; exact h.waiting, ?_⟩
  rw [hs, hw]
  exact h.manned.mono fun w _ z hz ↦ by rwa [Kept, hw]

private theorem Agrees.at_seat (h : o.Agrees p) (hi : p.seats[i]? = some (some (w, r, stop)))
    (hseats : q.seats = p.seats.set i d) (hd : ∀ v y, d = some (v, y) → v = w)
    (hlength : q.inflows.length = p.inflows.length)
    (hinflows : ∀ v, v ≠ w → q.inflows[v]? = p.inflows[v]?) (hinbound : q.inbound = p.inbound)
    (hr : ∀ x ∈ p.inbound.waiting, r = .offering x.1 →
      ∃ (v : Nat) (stop : Bool), d = some (v, .offering x.1, stop))
    (hlog : o'.log = o.log)
    (htickets : o'.arrivals.filterMap (·.ticket) = o.arrivals.filterMap (·.ticket))
    (hnamed : ∀ a ∈ o'.arrivals, ∀ k, a.ticket = some k → a ∈ o.arrivals)
    (hothers : ∀ v, v ≠ w → o'.heard v = o.heard v ∧ o'.read v = o.read v ∧
      onWire Arrival.wire v o'.arrivals = onWire Arrival.wire v o.arrivals)
    (hroll : ∀ x, p.inflows[w]? = some x →
      Roll (o.heard w) (o.read w) (onWire Arrival.wire w o.arrivals) o.log.withdrawn x
      (some (r, stop)) → ∀ y, q.inflows[w]? = some y →
        Roll (o'.heard w) (o'.read w) (onWire Arrival.wire w o'.arrivals) o.log.withdrawn y
        (d.map Prod.snd)) : o'.Agrees q := by
  have hw : w < p.inflows.length := h.manned.known i w _ hi
  refine ⟨by rw [hinbound]; exact h.closed, by rw [hlog, hinbound]; exact h.log, ?_, ?_, ?_, ?_,
    ?_⟩
  · rw [htickets, hlog]
    exact h.tickets
  · intro a ha k hk
    rw [hlog]
    exact h.named a (hnamed a ha k hk) k hk
  · intro v hv
    rw [hlength] at hv
    obtain ⟨h₁, h₂, h₃⟩ := hothers v (by omega)
    rw [h₁, h₂, h₃]
    exact h.beyond v hv
  · rw [hinbound, hseats]
    exact waits_set hi h.waiting hr
  · rw [hseats, hlength]
    refine h.manned.set hi hd ?_ ?_
    · intro v _ hv z hz
      obtain ⟨h₁, h₂, h₃⟩ := hothers v hv
      rw [Kept, hinflows v hv, h₁, h₂, h₃, hlog]
      exact hz
    · intro hx y hy
      have hin := List.getElem?_eq_getElem hw
      rw [hlog]
      exact hroll _ hin (hx _ hin) y hy

private theorem Agrees.offer (h : o.Agrees p) (hi : p.seats[i]? = some (some (w, .reading, stop)))
    (hwhole : WholeFrame f.bytes) (huser : userFrame? f.bytes = some f)
    (hr : r = if (p.inbound.send f).2.delivery p.inbound.issued = .accepted then .reading
      else .offering p.inbound.issued)
    (hseats : q.seats = p.seats.set i (some (w, r, stop)))
    (hinflows : Pool.Took w f.bytes p.inflows q.inflows)
    (hinbound : q.inbound = (p.inbound.send f).2) :
    (o.glance p.inbound (.offers w f)).Agrees q := by
  obtain ⟨x, rest, hx, hrest, hb⟩ := hinflows
  have hissued := h.log.issued
  have hlength : q.inflows.length = p.inflows.length := by rw [hrest, List.length_modify]
  have hw : w < p.inflows.length := h.manned.known i w _ hi
  have hnew : o.log.sent.length ∉ o.log.withdrawn := fun hm ↦ Nat.lt_irrefl _ (h.log.gone _ hm)
  constructor
  · rw [hinbound, Channel.closed_send]
    exact h.closed
  · rw [hinbound]
    exact h.log.send h.closed f
  · rw [glance, List.filterMap_append, h.tickets, Channel.Log.send, List.length_append,
      List.length_singleton, List.range_succ]
    rfl
  · intro a ha k hk
    rcases List.mem_append.1 ha with ha | ha
    · have hn := h.named a ha k hk
      rw [glance, Channel.Log.send, List.getElem?_append_left (List.getElem?_eq_some_iff.1 hn).1,
        hn]
    · cases List.mem_singleton.1 ha
      cases hk
      simp [glance, Channel.Log.send]
  · intro v hv
    rw [hlength] at hv
    have hvw : v ≠ w := by omega
    obtain ⟨h₁, h₂, h₃⟩ := h.beyond v hv
    simp only [glance, put_of_ne hvw, onWire_append, onWire_singleton, if_neg (Ne.symm hvw)]
    exact ⟨h₁, h₂, by rw [h₃, List.append_nil]⟩
  · -- Either nobody new waits or it is this reader.
    rw [hinbound, hseats]
    have hold := waits_set (d := some (w, r, stop)) hi h.waiting (by rintro x - ⟨⟩)
    intro x hx
    by_cases hroom : p.inbound.HasRoom
    · rw [Channel.send, if_pos hroom] at hx
      exact hold x hx
    · have hwaiting : (p.inbound.send f).2.waiting =
        p.inbound.waiting ++ [(p.inbound.issued, f)] := by
        rw [Channel.send, if_neg hroom]
      rw [hwaiting] at hx
      rcases List.mem_append.1 hx with hx | hx
      · exact hold x hx
      · cases List.mem_singleton.1 hx
        have hd : ¬ (p.inbound.send f).2.delivery p.inbound.issued = .accepted := by
          rw [Channel.delivery_eq_accepted_iff, hwaiting]
          simp
        rw [if_neg hd] at hr
        subst hr
        exact ⟨i, w, stop, List.getElem?_set_self (List.getElem?_eq_some_iff.1 hi).1⟩
  · rw [hseats, hlength]
    refine h.manned.set hi (by rintro v y ⟨⟩; rfl) ?_ ?_
    · intro v _ hv z hz
      simp only [Kept, hrest, Posts.getElem?_modify_of_ne hv, glance, put_of_ne hv, onWire_append,
        onWire_singleton, if_neg (Ne.symm hv), List.append_nil]
      exact hz
    · intro hroll y hy
      rw [hrest] at hy
      cases Posts.eq_of_getElem?_modify hx hy
      simp only [glance, put_self, onWire_append, onWire_singleton, if_true]
      refine (hroll x hx).offer hb hwhole huser hnew ?_
      rw [hr, hissued]
      split
      · exact .inl rfl
      · exact .inr rfl

private theorem Agrees.nodup_tickets (h : o.Agrees p) :
    (o.arrivals.filterMap (·.ticket)).Nodup := by
  rw [h.tickets]
  exact List.nodup_range

private theorem Agrees.wire_of_offering (h : o.Agrees p)
    (hi : p.seats[i]? = some (some (w, .offering k, stop))) {a : Arrival} (ha : a ∈ o.arrivals)
    (hk : a.ticket = some k) : a.wire = w := by
  have hroll := h.manned.at_post hi _ (List.getElem?_eq_getElem (h.manned.known i w _ hi))
  obtain ⟨c, hc, hck⟩ := hroll.offering k stop rfl
  obtain ⟨hc, hcw⟩ := List.mem_filter.1 hc
  rw [Arrival.eq_of_ticket h.nodup_tickets ha hc hk hck, of_decide_eq_true hcw]

private theorem Agrees.withdraw (h : o.Agrees p)
    (hi : p.seats[i]? = some (some (w, .offering k, true)))
    (hseats : q.seats = p.seats.set i (some (w, .ended, true))) (hinflows : q.inflows = p.inflows)
    (hinbound : q.inbound = p.inbound.withdraw k) :
    (o.glance p.inbound (.withdraws w k)).Agrees q := by
  have hsent : (o.log.withdraw p.inbound k).sent = o.log.sent := by
    rw [Channel.Log.withdraw]
    split <;> rfl
  refine ⟨by rw [hinbound]; exact h.closed, by rw [hinbound]; exact h.log.withdraw k, ?_, ?_,
    by rw [hinflows]; exact h.beyond, ?_, ?_⟩
  · rw [glance, hsent]
    exact h.tickets
  · intro a ha j hj
    rw [glance, hsent]
    exact h.named a ha j hj
  · rw [hinbound, hseats]
    refine waits_set hi (fun x hx ↦ h.waiting x (List.mem_filter.1 hx).1) fun x hx hk ↦ ?_
    cases hk
    simpa using (List.mem_filter.1 hx).2
  · rw [hseats, hinflows]
    refine h.manned.set hi (by rintro v y ⟨⟩; rfl) ?_ ?_
    · intro v _ hv z hz x hx
      rw [hinflows] at hx
      rw [glance, Channel.Log.withdraw]
      split
      · exact hz x hx
      · refine (hz x hx).elsewhere fun a ha hak ↦ hv ?_
        obtain ⟨ha, hav⟩ := List.mem_filter.1 ha
        rw [← of_decide_eq_true hav, h.wire_of_offering hi ha hak]
    · intro hroll x hx
      rw [hinflows] at hx
      rw [glance, Channel.Log.withdraw]
      split
      · exact (hroll x hx).leave (.inr rfl)
      · exact (hroll x hx).withdraw (h.nodup_tickets.sublist (List.filter_sublist.filterMap _))

private theorem Agrees.enter (h : o.Agrees p) (hi : p.seats[i]? = some none)
    (hseats : q.seats = p.seats.set i (some (p.wires.length, .reading, false)))
    (hinflows : q.inflows = p.inflows ++ [Inflow.mk [] false]) (hinbound : q.inbound = p.inbound) :
    o.Agrees q := by
  have hwires : p.wires.length = p.inflows.length := (List.length_map ..).symm
  have hnext : q.inflows.length = p.inflows.length + 1 := by
    rw [hinflows, List.length_append]
    rfl
  rw [hwires] at hseats
  refine ⟨?_, ?_, h.tickets, h.named, ?_, ?_, ?_⟩
  · rw [hinbound]
    exact h.closed
  · rw [hinbound]
    exact h.log
  · intro w hw
    exact h.beyond w (by omega)
  · rw [hinbound, hseats]
    intro x hx
    obtain ⟨j, w, stop, hj⟩ := h.waiting x hx
    refine ⟨j, w, stop, ?_⟩
    rw [List.getElem?_set_ne, hj]
    rintro rfl
    cases hi.symm.trans hj
  · rw [hseats, hnext]
    refine h.manned.enter hi ?_ ?_
    · intro w hw z hz x hx
      rw [hinflows, List.getElem?_append_left hw] at hx
      exact hz x hx
    · intro x hx
      rw [hinflows, List.getElem?_append_right (Nat.le_refl _), Nat.sub_self] at hx
      cases hx
      obtain ⟨h₁, h₂, h₃⟩ := h.beyond _ (Nat.le_refl _)
      rw [h₁, h₂, h₃]
      exact .fresh _

private theorem Agrees.reads (h : o.Agrees p) (hq : p.Reads q e) :
    (o.glanceMove p.inbound e).Agrees q := by
  cases hq with
  | rests hq => exact h.same hq
  | connects hi hseats hinflows hinbound => exact h.enter hi hseats hinflows hinbound
  | @leaves i w r stop d hi hr hd hseats hinflows hinbound =>
    obtain ⟨g, hg⟩ := hinflows
    refine h.at_seat hi hseats ?_ (by rw [hg, List.length_modify])
      (fun v hv ↦ by rw [hg, Posts.getElem?_modify_of_ne hv]) hinbound ?_ rfl rfl
      (fun a ha _ _ ↦ ha)
      (fun _ _ ↦ ⟨rfl, rfl, rfl⟩) ?_
    · rintro v y rfl
      rcases hd with hd | hd <;> cases hd
      rfl
    · rintro x - rfl
      rcases hr with hr | hr <;> cases hr
    · intro x _ hroll y _
      have hgone : d.map Prod.snd = none ∨ d.map Prod.snd = some (.ended, stop) := by
        rcases hd with rfl | rfl
        · exact .inl rfl
        · exact .inr rfl
      exact hroll.leave hgone
  | stops hi hseats hinflows hinbound =>
    refine h.at_seat hi hseats ?_ (by rw [hinflows]) (fun v _ ↦ by rw [hinflows]) hinbound
      ?_ rfl rfl
      (fun a ha _ _ ↦ ha) (fun _ _ ↦ ⟨rfl, rfl, rfl⟩) ?_
    · rintro v y ⟨⟩
      rfl
    · rintro x - rfl
      exact ⟨_, _, rfl⟩
    · intro x hx hroll y hy
      rw [hinflows, hx] at hy
      cases hy
      exact hroll.told
  | @skips i w b stop hi hwhole huser hseats hinflows hinbound =>
    obtain ⟨x, rest, hx, hrest, hb⟩ := hinflows
    refine h.at_seat hi (d := some (w, .reading, stop)) ?_ ?_ (by rw [hrest, List.length_modify])
      (fun v hv ↦ by rw [hrest, Posts.getElem?_modify_of_ne hv]) hinbound nofun rfl rfl
      (fun a ha _ _ ↦ ha)
      (fun v hv ↦ ⟨rfl, put_of_ne hv, rfl⟩) ?_
    · rw [hseats, Posts.set_of_getElem? hi]
    · rintro v y ⟨⟩
      rfl
    · intro x' hx' hroll y hy
      rw [hrest] at hy
      cases Posts.eq_of_getElem?_modify hx hy
      cases hx.symm.trans hx'
      simp only [glanceMove, glance, put_self]
      exact hroll.skip hb hwhole huser
  | offers hi hwhole huser hr hseats hinflows hinbound =>
    exact h.offer hi hwhole huser hr hseats hinflows hinbound
  | @drops i w f hi hwhole huser hseats hinflows hinbound =>
    obtain ⟨x, rest, hx, hrest, hb⟩ := hinflows
    refine h.at_seat hi hseats ?_ (by rw [hrest, List.length_modify])
      (fun v hv ↦ by rw [hrest, Posts.getElem?_modify_of_ne hv]) hinbound nofun rfl ?_ ?_ ?_ ?_
    · rintro v y ⟨⟩
      rfl
    · rw [glanceMove, glance, List.filterMap_append]
      exact List.append_nil _
    · intro a ha k hk
      rcases List.mem_append.1 ha with ha | ha
      · exact ha
      · cases List.mem_singleton.1 ha
        cases hk
    · intro v hv
      simp only [glanceMove, glance, put_of_ne hv, onWire_append,
        onWire_singleton, if_neg (Ne.symm hv), List.append_nil, and_self]
    · intro x' hx' hroll y hy
      rw [hrest] at hy
      cases Posts.eq_of_getElem?_modify hx hy
      cases hx.symm.trans hx'
      simp only [glanceMove, glance, put_self, onWire_append, onWire_singleton, if_true]
      exact hroll.drop hb hwhole huser
  | goesOn hi hk hseats hinflows hinbound =>
    refine h.at_seat hi hseats ?_ (by rw [hinflows]) (fun v _ ↦ by rw [hinflows]) hinbound
      ?_ rfl rfl
      (fun a ha _ _ ↦ ha) (fun _ _ ↦ ⟨rfl, rfl, rfl⟩) ?_
    · rintro v y ⟨⟩
      rfl
    · rintro x hx ⟨⟩
      exact absurd (List.mem_map_of_mem hx) (Channel.delivery_eq_accepted_iff.1 hk)
    · intro x hx hroll y hy
      rw [hinflows, hx] at hy
      cases hy
      exact hroll.goOn
  | withdraws hi hseats hinflows hinbound => exact h.withdraw hi hseats hinflows hinbound

private theorem Agrees.receive (h : o.Agrees p) (hr : p.inbound.receive = some (f, q.inbound))
    (hs : q.seats = p.seats) (hw : q.inflows = p.inflows) :
    ({ o with log := o.log.receive } : Intake).Agrees q := by
  refine ⟨(Channel.closed_of_receive hr).trans h.closed, h.log.receive hr, h.tickets, h.named,
    by rw [hw]; exact h.beyond, ?_, ?_⟩
  · rw [hs]
    intro x hx
    apply h.waiting
    obtain ⟨rest, -, hq | ⟨y, ys, hy, hq⟩⟩ := Channel.receive_cases hr
    · rwa [hq] at hx
    · rw [hq] at hx
      rw [hy]
      exact List.mem_cons_of_mem y hx
  · rw [hs, hw]
    exact h.manned.mono fun w _ z hz ↦ by rwa [Kept, hw]

private theorem Agrees.backend (h : o.Agrees p) {g : Inflow → Inflow} (hs : q.seats = p.seats)
    (hw : q.inflows = p.inflows.modify w g) (hi : q.inbound = p.inbound) (hlog : o'.log = o.log)
    (harrivals : o'.arrivals = o.arrivals) (hread : o'.read = o.read)
    (hothers : ∀ v, v ≠ w ∨ p.inflows.length ≤ v → o'.heard v = o.heard v)
    (hroll : ∀ x z, p.inflows[w]? = some x →
      Roll (o.heard w) (o.read w) (onWire Arrival.wire w o.arrivals) o.log.withdrawn x z →
      Roll (o'.heard w) (o.read w) (onWire Arrival.wire w o.arrivals) o.log.withdrawn
      (g x) z) : o'.Agrees q := by
  have hlength : q.inflows.length = p.inflows.length := by rw [hw, List.length_modify]
  refine ⟨by rw [hi]; exact h.closed, by rw [hi, hlog]; exact h.log,
    by rw [harrivals, hlog]; exact h.tickets, by rw [harrivals, hlog]; exact h.named, ?_,
    by rw [hi, hs]; exact h.waiting, ?_⟩
  · intro v hv
    rw [hlength] at hv
    rw [harrivals, hread, hothers v (.inr hv)]
    exact h.beyond v hv
  · rw [hs, hlength]
    refine h.manned.mono fun v _ z hz y hy ↦ ?_
    rw [harrivals, hread, hlog]
    by_cases hv : v = w
    · subst hv
      obtain ⟨x, hx⟩ : ∃ x, p.inflows[v]? = some x :=
        ⟨_, List.getElem?_eq_getElem (by assumption)⟩
      rw [hw] at hy
      cases Posts.eq_of_getElem?_modify hx hy
      exact hroll x z hx (hz x hx)
    · rw [hw, Posts.getElem?_modify_of_ne hv] at hy
      rw [hothers v (.inl hv)]
      exact hz y hy

end Intake

namespace Forwarder

variable {p q : Forwarder η κ} {m : Move η κ} {o : Intake} {i w : Nat}

/-- What a worker takes in a move. -/
def taking? (p : Forwarder η κ) : Move η κ → Option (Taking η)
  | .fetch i w _ => (p.pool.fetchInbound i w).map fun (f, _) ↦ ⟨i, w, f, p.call? f⟩
  | _ => none

/-- What the workers took in a run. -/
def takings (t : List (Forwarder η κ × Move η κ)) : List (Taking η) :=
  t.filterMap fun x ↦ x.1.taking? x.2

private theorem takings_append (t u : List (Forwarder η κ × Move η κ)) :
    takings (t ++ u) = takings t ++ takings u := List.filterMap_append ..

private theorem sameSeats_of_fetch {x : Worker κ} (h : p.move? (.fetch i w x) = some q) :
    ∃ f pool, p.pool.fetchInbound i w = some (f, pool) ∧ pool.SameSeats q.pool := by
  obtain ⟨⟨f, pool⟩, hf, h⟩ := Option.bind_eq_some_iff.1 h
  refine ⟨f, pool, hf, ?_⟩
  simp only at h
  split at h <;> cases h
  · exact pool.sameSeats_setWorker i w x
  · exact ⟨rfl, rfl, rfl⟩

private theorem sameSeats_of_resume {x : Option κ} (h : p.move? (.resume i w x) = some q) :
    p.pool.SameSeats q.pool := by
  obtain ⟨y, -, h⟩ := Option.bind_eq_some_iff.1 h
  split at h <;> cases h
  exact p.pool.sameSeats_setWorker i w _

private theorem intake_of_move? (h : o.Agrees p.pool) (hs : p.pool.Slept)
    (hm : p.move? m = some q) : (o.note p m).Agrees q.pool := by
  cases m with
  | register | wait =>
    cases hm
    exact h
  | send | withdraw =>
    cases hm
    exact h.same ⟨rfl, rfl, rfl⟩
  | launch =>
    cases hm
    exact h.same (hs.sameSeats_launch p.now)
  | shutdown =>
    cases hm
    exact h.same p.pool.sameSeats_signal
  | backendSays w b =>
    cases hm
    rw [Intake.note]
    split
    · next hw =>
      have hlength : p.pool.inflows.length = p.pool.wires.length := List.length_map ..
      refine h.backend rfl (p.pool.inflows_deliver w b) rfl rfl rfl rfl ?_ ?_
      · intro v hv
        refine Intake.put_of_ne fun hvw ↦ ?_
        rcases hv with hv | hv
        · exact hv hvw
        · omega
      · intro x z _ hz
        simp only [Intake.put_self]
        exact hz.hear b
    · next hw =>
      refine h.backend rfl (p.pool.inflows_deliver w b) rfl rfl rfl rfl (fun _ _ ↦ rfl) ?_
      intro x z hx
      have := (List.getElem?_eq_some_iff.1 hx).1
      rw [Pool.inflows, List.length_map] at this
      exact absurd this hw
  | backendEnds w =>
    cases hm
    exact h.backend rfl (p.pool.inflows_finishInflow w) rfl rfl rfl rfl (fun _ _ ↦ rfl)
      fun x z _ hz ↦ hz.finish
  | link m =>
    obtain ⟨pool, hp, rfl⟩ := Option.map_eq_some_iff.1 hm
    exact h.reads (Pool.reads_of_move? hp)
  | fetch i w x =>
    obtain ⟨f, pool, hf, hsame⟩ := sameSeats_of_fetch hm
    obtain ⟨-, hr, hseats, hinflows⟩ := Pool.receive_of_fetchInbound hf
    exact (h.receive hr hseats hinflows).same hsame
  | resume i w x => exact h.same (sameSeats_of_resume hm)

end Forwarder

/-! ### Whole runs -/

namespace Intake

variable {p q : Forwarder η κ} {m : Forwarder.Move η κ} {o : Intake} {s : LinkSettings}
  {a : Arrival} {t : List (Forwarder η κ × Forwarder.Move η κ)} {c : Channel Frame} {k : Nat}

private theorem stage_of_ticket (h : a.ticket = some k) :
    o.stage c a = if k ∈ o.log.withdrawn then .dropped else if k ∈ o.log.taken then .taken
      else if c.delivery k = .accepted then .queued else .offered := by
  rw [stage, Arrival.dropped_of_ticket h, h]
  simp only [Option.any_some, decide_eq_true_eq]

private theorem stage_of_unoffered (h : a.ticket = none) : o.stage c a = .dropped := by
  rw [stage, if_pos (Arrival.dropped_of_unoffered h)]

private theorem stage_eq_dropped_iff :
    o.stage c a = .dropped ↔ a.dropped o.log.withdrawn = true := by
  rw [stage]
  split
  · next h => simp [h]
  · next h =>
    repeat' split
    all_goals simp [h]

private theorem Agrees.taken {p : Pool κ} (h : o.Agrees p) :
    (o.arrivals.filter (o.stage p.inbound · = .taken)).map (·.frame) = o.log.received := by
  have hmap := Arrival.map_frame_filter (P := (o.stage p.inbound · = .taken))
    (Q := fun k ↦ k ∈ o.log.taken && k ∉ o.log.withdrawn) h.named
    (fun a ha ↦ by rw [stage_of_unoffered ha]; rfl)
    (fun a k ha ↦ by
      rw [stage_of_ticket ha]
      by_cases hw : k ∈ o.log.withdrawn <;> by_cases ht : k ∈ o.log.taken <;> simp [hw, ht]
      split <;> nofun)
  have hstanding : (List.range o.log.sent.length).filter
      (fun k ↦ k ∈ o.log.taken && k ∉ o.log.withdrawn) = o.log.taken := by
    rw [← List.filter_filter]
    exact h.log.filter_taken
  rw [h.tickets, hstanding] at hmap
  exact (Channel.filterMap_of_map_eq hmap.symm).symm

private theorem Agrees.queued {p : Pool κ} (h : o.Agrees p) :
    (o.arrivals.filter (o.stage p.inbound · = .queued)).map (·.frame) = p.inbound.items := by
  have hmap := Arrival.map_frame_filter (P := (o.stage p.inbound · = .queued))
    (Q := fun k ↦
      k ∉ o.log.taken && (p.inbound.delivery k = .accepted && k ∉ o.log.withdrawn)) h.named
    (fun a ha ↦ by rw [stage_of_unoffered ha]; rfl)
    (fun a k ha ↦ by
      rw [stage_of_ticket ha]
      by_cases hw : k ∈ o.log.withdrawn <;> by_cases ht : k ∈ o.log.taken <;> simp [hw, ht])
  have hstanding : (List.range o.log.sent.length).filter
      (fun k ↦ k ∉ o.log.taken && (p.inbound.delivery k = .accepted && k ∉ o.log.withdrawn)) =
      (o.log.accepted p.inbound).filter (· ∉ o.log.taken) := by
    rw [← List.filter_filter, ← List.filter_filter]
    rfl
  rw [h.tickets, hstanding, h.log.filter_queued] at hmap
  exact List.map_inj_right (fun _ _ ↦ Option.some.inj) |>.1 hmap

private theorem Agrees.offered {p : Pool κ} (h : o.Agrees p) (ha : a ∈ o.arrivals)
    (hs : o.stage p.inbound a = .offered) :
    ∃ i l s k, p.service? i = some (l, s) ∧ s.wire = a.wire ∧ a.ticket = some k ∧
      s.reader = .offering k := by
  cases ht : a.ticket with
  | none =>
    rw [stage_of_unoffered ht] at hs
    cases hs
  | some k =>
    rw [stage_of_ticket ht] at hs
    split at hs
    · cases hs
    · split at hs
      · cases hs
      · split at hs
        · cases hs
        · next hd =>
          rw [Channel.delivery_eq_accepted_iff, Decidable.not_not] at hd
          obtain ⟨x, hx, rfl⟩ := List.mem_map.1 hd
          obtain ⟨i, w, stop, hi⟩ := h.waiting x hx
          obtain ⟨l, s, hl, rfl, hr⟩ := Pool.service?_of_offering hi
          exact ⟨i, l, s, x.1, hl, (h.wire_of_offering hi ha ht).symm, rfl, hr⟩

/-- What the account of a run says. -/
structure Dispatched (t : List (Forwarder η κ × Forwarder.Move η κ)) (o : Intake)
    (p : Forwarder η κ) : Prop where
  /-- What was read on a connection are whole frames, one behind the other, off the front of what
  the backend wrote on it. -/
  read : ∀ w, (∀ b ∈ o.read w, WholeFrame b) ∧ (o.read w).flatten <+: o.heard w
  /-- As long as its reader has not ended nothing else is taken off a connection. -/
  unread : ∀ i l s wire, p.pool.service? i = some (l, s) → s.reader ≠ .ended →
    p.pool.wires[s.wire]? = some wire →
    o.heard s.wire = (o.read s.wire).flatten ++ wire.inflow.bytes
  /-- The arrivals on a connection are the frames for the workers among those read on it, one for
  one. -/
  arrived : ∀ w, (onWire Arrival.wire w o.arrivals).map (·.frame) =
    (o.read w).filterMap userFrame?
  /-- No frame of the transport's own is among them, and none with a wrong checksum. -/
  genuine : ∀ a ∈ o.arrivals, a.frame.header.flag = .user ∧
    a.frame.header.checksum = protocolChecksum
  /-- What the workers took are the arrivals that have been taken, one for one. -/
  taken : (Forwarder.takings t).map (·.frame) =
    (o.arrivals.filter (o.stage p.pool.inbound · = .taken)).map (·.frame)
  /-- What is in the inbound queue are the arrivals that are queued, one for one. -/
  queued : p.pool.inbound.items =
    (o.arrivals.filter (o.stage p.pool.inbound · = .queued)).map (·.frame)
  /-- An arrival that waits for room is with the reader of its connection. -/
  offered : ∀ a ∈ o.arrivals, o.stage p.pool.inbound a = .offered →
    ∃ i l s k, p.pool.service? i = some (l, s) ∧ s.wire = a.wire ∧ a.ticket = some k ∧
      s.reader = .offering k
  /-- On each connection at most one arrival has been dropped. -/
  single : ∀ w,
    ((onWire Arrival.wire w o.arrivals).filter (o.stage p.pool.inbound · = .dropped)).length ≤ 1
  /-- What has been dropped was in the hands of a reader that was told to stop. -/
  stopped : ∀ a ∈ o.arrivals, o.stage p.pool.inbound a = .dropped → ∃ b i l s,
    ((b, .link (.readLast i)) ∈ t ∨ (b, .link (.stopReader i)) ∈ t) ∧
    b.pool.service? i = some (l, s) ∧ s.wire = a.wire ∧ s.stopping = true
  /-- A frame that a worker takes is handed, as it is, to a handler that was registered for its
  command, if there is one. -/
  called : ∀ u b i w x v f q, t = u ++ (b, .fetch i w x) :: v →
    b.pool.fetchInbound i w = some (f, q) →
    (∀ c, b.call? f = some c → (∃ d, (d, .register c.cmd c.handler) ∈ u) ∧
      c.cmd = f.cmd ∧ c.nid = f.header.nid ∧ c.body = f.body) ∧
    (b.call? f = none → ∀ d h, (d, .register f.cmd h) ∉ u)
  /-- What is in the inbound queue is what the workers take next, whatever becomes of the links. -/
  kept : ∀ u q, Journal Forwarder.move? p u q →
    p.pool.inbound.items <+: (Forwarder.takings u).map (·.frame) ++ q.pool.inbound.items
  /-- An idle worker can take a frame if there is one in the queue. -/
  served : ∀ i w x, p.pool.worker? i w = some .idle → p.pool.inbound.items ≠ [] →
    ∃ q, p.move? (.fetch i w x) = some q

private theorem agrees_start (s : LinkSettings) :
    ({} : Intake).Agrees (Pool.fresh s : Pool κ) := by
  have hseats : ∀ (i w : Nat) x, (Pool.fresh s : Pool κ).seats[i]? ≠ some (some (w, x)) := by
    intro i w x h
    rw [Pool.seats, List.getElem?_map] at h
    obtain ⟨l, hl, h⟩ := Option.map_eq_some_iff.1 h
    rw [List.eq_of_mem_replicate (List.mem_of_getElem? hl)] at h
    cases h
  exact ⟨rfl, Channel.Log.tells_empty _, rfl, List.forall_mem_nil _,
    fun _ _ ↦ ⟨rfl, rfl, rfl⟩, List.forall_mem_nil _, .of_absent hseats⟩

private theorem intake_of_journal (h : Journal Forwarder.move? (Forwarder.start s) t p) :
    (of t).Agrees p.pool ∧ p.pool.Slept := by
  induction h with
  | start => exact ⟨agrees_start s, Pool.slept_fresh s⟩
  | move _ hm ih =>
    rw [of, Journal.account_append]
    exact ⟨Forwarder.intake_of_move? ih.1 ih.2 hm, Forwarder.slept_of_move? ih.2 hm⟩

private theorem items_of_reads {p q : Pool κ} {e : Option Glance} (h : p.Reads q e) :
    p.inbound.items <+: q.inbound.items := by
  have keep : q.inbound.items = p.inbound.items → p.inbound.items <+: q.inbound.items := by
    intro hq
    exact hq ▸ List.prefix_refl _
  cases h with
  | offers _ _ _ _ _ _ hinbound =>
    rw [hinbound, Channel.send]
    split
    · exact List.prefix_append _ _
    · exact List.prefix_refl _
  | rests hq => exact keep (congrArg Channel.items hq.inbound)
  | withdraws _ _ _ hinbound =>
    have hitems := congrArg Channel.items hinbound
    exact keep hitems
  | connects _ _ _ hinbound | leaves _ _ _ _ _ hinbound | stops _ _ _ hinbound
  | skips _ _ _ _ _ hinbound | drops _ _ _ _ _ hinbound | goesOn _ _ _ _ hinbound =>
    exact keep (congrArg Channel.items hinbound)

private theorem items_of_move? (hs : p.pool.Slept) (hm : p.move? m = some q) :
    p.pool.inbound.items <+:
      ((p.taking? m).map (·.frame)).toList ++ q.pool.inbound.items := by
  cases m with
  | register | wait | send | withdraw | backendSays | backendEnds =>
    cases hm
    exact List.prefix_refl _
  | launch =>
    cases hm
    rw [(hs.sameSeats_launch p.now).inbound]
    exact List.prefix_refl _
  | shutdown =>
    cases hm
    rw [p.pool.sameSeats_signal.inbound]
    exact List.prefix_refl _
  | link m =>
    obtain ⟨pool, hp, rfl⟩ := Option.map_eq_some_iff.1 hm
    exact items_of_reads (Pool.reads_of_move? hp)
  | resume i w x =>
    rw [(Forwarder.sameSeats_of_resume hm).inbound]
    exact List.prefix_refl _
  | fetch i w x =>
    obtain ⟨f, pool, hf, hsame⟩ := Forwarder.sameSeats_of_fetch hm
    obtain ⟨-, hr, -, -⟩ := Pool.receive_of_fetchInbound hf
    rw [Forwarder.taking?, hf, hsame.inbound]
    obtain ⟨rest, hi, hq | ⟨y, ys, -, hq⟩⟩ := Channel.receive_cases hr
    · rw [hi, hq]
      exact List.prefix_refl _
    · rw [hi, hq]
      exact ⟨[y.2], by simp⟩

private theorem takings_concat (u : List (Forwarder η κ × Forwarder.Move η κ)) :
    (Forwarder.takings (u ++ [(p, m)])).map (·.frame) =
      (Forwarder.takings u).map (·.frame) ++ ((p.taking? m).map (·.frame)).toList := by
  rw [Forwarder.takings_append, List.map_append]
  congr 1
  rw [Forwarder.takings, List.filterMap_cons]
  cases p.taking? m <;> rfl

private theorem items_of_journal {u : List (Forwarder η κ × Forwarder.Move η κ)}
    (hs : p.pool.Slept) (h : Journal Forwarder.move? p u q) :
    p.pool.inbound.items <+: (Forwarder.takings u).map (·.frame) ++ q.pool.inbound.items ∧
      q.pool.Slept := by
  induction h with
  | start => exact ⟨List.prefix_refl _, hs⟩
  | @move u b c m _ hm ih =>
    refine ⟨?_, Forwarder.slept_of_move? ih.2 hm⟩
    rw [takings_concat, List.append_assoc]
    exact ih.1.trans ((List.prefix_append_right_inj _).2 (items_of_move? ih.2 hm))

private theorem received_of_journal (h : Journal Forwarder.move? (Forwarder.start s) t p) :
    (Forwarder.takings t).map (·.frame) = (of t).log.received := by
  induction h with
  | start => rfl
  | @move t p q m ht hm ih =>
    have hag := (intake_of_journal ht).1
    rw [of, Journal.account_append, ← of, takings_concat, ih]
    cases m with
    | fetch i w x =>
      obtain ⟨f, pool, hf, -⟩ := Forwarder.sameSeats_of_fetch hm
      obtain ⟨-, hr, -, -⟩ := Pool.receive_of_fetchInbound hf
      rw [Forwarder.taking?, hf, note, hag.log.received_receive hr]
      rfl
    | link m =>
      refine (List.append_nil _).trans ?_
      rw [note]
      cases p.pool.glanced? m with
      | none => rfl
      | some e =>
        cases e with
        | skips | drops => rfl
        | offers w f => exact (hag.log.received_send f).symm
        | withdraws w k =>
          simp only [glanceMove, glance, Channel.Log.withdraw]
          split <;> rfl
    | backendSays w b =>
      refine (List.append_nil _).trans ?_
      rw [note]
      split <;> rfl
    | _ => exact List.append_nil _

private theorem dropped_of_note (h : o.Agrees p.pool) (hm : p.move? m = some q)
    (ha : a ∈ (o.note p m).arrivals) (hd : a.dropped (o.note p m).log.withdrawn = true) :
    (a ∈ o.arrivals ∧ a.dropped o.log.withdrawn = true) ∨ ∃ i l s,
      (m = .link (.readLast i) ∨ m = .link (.stopReader i)) ∧
      p.pool.service? i = some (l, s) ∧ s.wire = a.wire ∧ s.stopping = true := by
  cases m with
  | link m =>
    obtain ⟨pool, hp, -⟩ := Option.map_eq_some_iff.1 hm
    rw [note] at ha hd
    cases he : p.pool.glanced? m with
    | none =>
      rw [he] at ha hd
      exact .inl ⟨ha, hd⟩
    | some e =>
      rw [he] at ha hd
      cases e with
      | skips w b => exact .inl ⟨ha, hd⟩
      | offers w f =>
        rcases List.mem_append.1 ha with ha | ha
        · exact .inl ⟨ha, hd⟩
        · cases List.mem_singleton.1 ha
          rw [Arrival.dropped_of_ticket rfl] at hd
          exact absurd (h.log.gone _ (of_decide_eq_true hd)) (Nat.lt_irrefl _)
      | drops w f =>
        rcases List.mem_append.1 ha with ha | ha
        · exact .inl ⟨ha, hd⟩
        · cases List.mem_singleton.1 ha
          obtain ⟨i, l, s, rfl, hs, hw, hstop⟩ := Pool.stopping_of_drops hp he
          exact .inr ⟨i, l, s, .inl rfl, hs, hw, hstop⟩
      | withdraws w k =>
        obtain ⟨i, l, s, rfl, hs, rfl, hr, hstop⟩ := Pool.stopping_of_withdraws hp he
        simp only [glanceMove, glance, Channel.Log.withdraw] at ha hd
        split at hd
        · exact .inl ⟨ha, hd⟩
        · by_cases hk : a.ticket = some k
          · refine .inr ⟨i, l, s, .inr rfl, hs, ?_, hstop⟩
            have hi := Pool.getElem?_seats_of_service hs
            rw [hr] at hi
            exact (h.wire_of_offering hi ha hk).symm
          · rw [Arrival.dropped_append_of_ne hk] at hd
            exact .inl ⟨ha, hd⟩
  | backendSays w b =>
    rw [note] at ha hd
    split at ha
    · next hw =>
      rw [if_pos hw] at hd
      exact .inl ⟨ha, hd⟩
    · next hw =>
      rw [if_neg hw] at hd
      exact .inl ⟨ha, hd⟩
  | _ => exact .inl ⟨ha, hd⟩

private theorem stopped_of_journal (h : Journal Forwarder.move? (Forwarder.start s) t p)
    (ha : a ∈ (of t).arrivals) (hd : a.dropped (of t).log.withdrawn = true) : ∃ b i l s,
    ((b, .link (.readLast i)) ∈ t ∨ (b, .link (.stopReader i)) ∈ t) ∧
    b.pool.service? i = some (l, s) ∧ s.wire = a.wire ∧ s.stopping = true := by
  induction h with
  | start => cases ha
  | @move t p q m ht hm ih =>
    rw [of, Journal.account_append] at ha hd
    rcases dropped_of_note (intake_of_journal ht).1 hm ha hd with ⟨ha, hd⟩
      | ⟨i, l, s, hmi, hs, hw, hstop⟩
    · obtain ⟨b, i, l, s, hb, h⟩ := ih ha hd
      exact ⟨b, i, l, s, hb.imp (List.mem_append_left _) (List.mem_append_left _), h⟩
    · refine ⟨p, i, l, s, ?_, hs, hw, hstop⟩
      refine hmi.imp ?_ ?_
      all_goals
        rintro rfl
        exact List.mem_append_right _ (List.mem_singleton_self _)

private theorem handlers_of_journal (h : Journal Forwarder.move? (Forwarder.start s) t p)
    (cmd : Command) : (∀ x, p.handlers.lookup cmd = some x →
      ∃ d, (d, .register cmd x) ∈ t) ∧
      (p.handlers.lookup cmd = none → ∀ d x, (d, .register cmd x) ∉ t) := by
  induction h with
  | start => exact ⟨nofun, fun _ _ _ h ↦ by cases h⟩
  | @move t p q m _ hm ih =>
    have hold : q.handlers.lookup cmd = p.handlers.lookup cmd → (∀ x, m ≠ .register cmd x) →
        (∀ x, q.handlers.lookup cmd = some x →
          ∃ d, (d, .register cmd x) ∈ t ++ [(p, m)]) ∧
          (q.handlers.lookup cmd = none → ∀ d x, (d, .register cmd x) ∉ t ++ [(p, m)]) := by
      intro hq hne
      rw [hq]
      refine ⟨fun x hx ↦ ?_, fun hnone d x hd ↦ ?_⟩
      · obtain ⟨d, hd⟩ := ih.1 x hx
        exact ⟨d, List.mem_append_left _ hd⟩
      · rcases List.mem_append.1 hd with hd | hd
        · exact ih.2 hnone d x hd
        · cases List.mem_singleton.1 hd
          exact hne x rfl
    cases m with
    | register c y =>
      cases hm
      have hlookup := Dispatch.lookup_register p.handlers c cmd y
      by_cases hc : cmd = c
      · subst hc
        rw [if_pos rfl] at hlookup
        simp only [hlookup]
        refine ⟨?_, nofun⟩
        rintro x ⟨⟩
        exact ⟨p, List.mem_append_right _ (List.mem_singleton_self _)⟩
      · rw [if_neg hc] at hlookup
        exact hold hlookup fun x hx ↦ hc (by cases hx; rfl)
    | link m =>
      obtain ⟨pool, -, rfl⟩ := Option.map_eq_some_iff.1 hm
      exact hold rfl nofun
    | fetch i w x =>
      obtain ⟨⟨f, pool⟩, -, hm⟩ := Option.bind_eq_some_iff.1 hm
      simp only at hm
      split at hm <;> cases hm
      all_goals exact hold rfl nofun
    | resume i w x =>
      obtain ⟨y, -, hm⟩ := Option.bind_eq_some_iff.1 hm
      split at hm <;> cases hm
      exact hold rfl nofun
    | _ =>
      cases hm
      exact hold rfl nofun

private theorem called_of_journal {b : Forwarder η κ}
    (h : Journal Forwarder.move? (Forwarder.start s) t b) (f : Frame) :
    (∀ c, b.call? f = some c → (∃ d, (d, .register c.cmd c.handler) ∈ t) ∧
      c.cmd = f.cmd ∧ c.nid = f.header.nid ∧ c.body = f.body) ∧
    (b.call? f = none → ∀ d h, (d, .register f.cmd h) ∉ t) := by
  obtain ⟨hsome, hnone⟩ := handlers_of_journal h f.cmd
  refine ⟨fun c hc ↦ ?_, fun hc ↦ hnone (Option.map_eq_none_iff.1 hc)⟩
  obtain ⟨x, hx, rfl⟩ := Option.map_eq_some_iff.1 hc
  exact ⟨hsome x hx, rfl, rfl, rfl⟩

/-- Whatever the links, their readers, the workers and the backend do: every frame for the workers
that is read is offered to them once and taken by one worker, who hands it as it is to the handler
of its command, except that a reader that is told to stop may drop one frame. Nothing else ever
reaches a handler. -/
theorem inbound_dispatched (h : Journal Forwarder.move? (Forwarder.start s) t p) :
    Dispatched t (of t) p := by
  obtain ⟨hag, hslept⟩ := intake_of_journal h
  have hroll : ∀ w, ∃ inflow z,
    Roll ((of t).heard w) ((of t).read w) (onWire Arrival.wire w (of t).arrivals)
      (of t).log.withdrawn inflow z := by
    intro w
    by_cases hw : w < p.pool.inflows.length
    · obtain ⟨z, -, hz⟩ := hag.manned.holds w hw
      exact ⟨_, z, hz _ (List.getElem?_eq_getElem hw)⟩
    · obtain ⟨h₁, h₂, h₃⟩ := hag.beyond w (Nat.le_of_not_lt hw)
      rw [h₁, h₂, h₃]
      exact ⟨_, _, .fresh _⟩
  constructor
  · intro w
    obtain ⟨_, _, hw⟩ := hroll w
    exact ⟨hw.whole, hw.front⟩
  · intro i l s wire hs hr hw
    have hin : p.pool.inflows[s.wire]? = some wire.inflow := by
      rw [Pool.inflows, List.getElem?_map, hw]
      rfl
    exact ((hag.manned.at_post (Pool.getElem?_seats_of_service hs) _ hin).live
      ⟨_, _, rfl, hr⟩).1
  · intro w
    obtain ⟨_, _, hw⟩ := hroll w
    exact hw.frames
  · intro a ha
    obtain ⟨_, _, hw⟩ := hroll a.wire
    have hmem : a.frame ∈ (onWire Arrival.wire a.wire (of t).arrivals).map (·.frame) :=
      List.mem_map_of_mem (List.mem_filter.2 ⟨ha, decide_eq_true rfl⟩)
    rw [hw.frames] at hmem
    obtain ⟨b, -, hb⟩ := List.mem_filterMap.1 hmem
    exact ⟨(of_userFrame? hb).1, (of_userFrame? hb).2.1⟩
  · rw [received_of_journal h, hag.taken]
  · exact hag.queued.symm
  · exact fun a ha hs ↦ hag.offered ha hs
  · intro w
    obtain ⟨_, _, hw⟩ := hroll w
    have hsame : (onWire Arrival.wire w (of t).arrivals).filter
      ((of t).stage p.pool.inbound · = .dropped) =
        (onWire Arrival.wire w (of t).arrivals).filter (·.dropped (of t).log.withdrawn) :=
      List.filter_congr fun a _ ↦ by rw [Bool.eq_iff_iff, decide_eq_true_eq, stage_eq_dropped_iff]
    rw [hsame]
    exact hw.single
  · exact fun a ha hs ↦ stopped_of_journal h ha (stage_eq_dropped_iff.1 hs)
  · rintro u b i w x v f q rfl -
    exact called_of_journal h.split.1 f
  · exact fun u q hu ↦ (items_of_journal hslept hu).1
  · intro i w x hw hi
    obtain ⟨f, rest, hi⟩ := List.exists_cons_of_ne_nil hi
    have hf : p.pool.fetchInbound i w =
        some (f, { p.pool with inbound := ({ p.pool.inbound with items := rest }).refill }) := by
      rw [Pool.fetchInbound, hw, Channel.receive, hi]
      rfl
    rw [Forwarder.move?, Forwarder.fetch, hf]
    simp only [Option.bind_eq_bind, Option.bind_some]
    split
    · exact ⟨_, rfl⟩
    · exact ⟨_, rfl⟩

/-! ### A run with a link that is stopped -/

/-- One link with one worker, and an inbound queue with room for one frame. -/
def Stopped.settings : LinkSettings := { links := 1, workers := 1, inboundCapacity := 1 }

/-- What the backend writes: a frame of the transport's own, one with a wrong checksum and three for
the workers. -/
def Stopped.bytes : Bytes :=
  let ping (n : UInt8) : Frame := .make .ping 1 .user [n]
  let wrong : Frame := ⟨{ (ping 9).header with checksum := 0 }, [9]⟩
  [.make .keepaliveRequest 1 .system [], wrong, ping 1, ping 2, ping 3].flatMap Packet.bytes

/-- The first frame for the workers is taken and makes room for the second one. The third one still
waits for room when the link is told to stop. -/
def Stopped.moves : List (Forwarder.Move Unit Unit) :=
  [.register .ping (), .launch, .link (.connect 0), .link (.transmit 0 1000),
    .backendSays 0 (Stopped.bytes.take 30), .backendSays 0 (Stopped.bytes.drop 30)] ++
  [.read 0, .read 0, .read 0, .read 0].map .link ++
  [.fetch 0 0 .idle, .link (.readOn 0), .link (.read 0), .shutdown, .link (.supervise 0 true),
    .link (.stopReader 0)]

/-- Then one frame has been taken, one is queued, and the one that waited for room is dropped. -/
theorem inbound_dispatched_stopped :
    ∃ t p, Journal Forwarder.move? (Forwarder.start Stopped.settings) t p ∧
      t.map Prod.snd = Stopped.moves ∧ ((of t).read 0).length = 5 ∧
      (of t).arrivals.map (fun a ↦ (a.frame.body, a.ticket, (of t).stage p.pool.inbound a)) =
        [([1], some 0, .taken), ([2], some 1, .queued), ([3], some 2, .dropped)] ∧
      Dispatched t (of t) p := by
  have hview : (Journal.write? Forwarder.move? (Forwarder.start Stopped.settings) Stopped.moves).map
      (fun r ↦ (((of r.1).read 0).length, (of r.1).arrivals.map
        (fun a ↦ (a.frame.body, a.ticket, (of r.1).stage r.2.pool.inbound a)))) =
      some (5, [([1], some 0, .taken), ([2], some 1, .queued), ([3], some 2, .dropped)]) := by
    decide +kernel
  obtain ⟨⟨t, p⟩, hrun, hv⟩ := Option.map_eq_some_iff.1 hview
  simp only [Prod.mk.injEq] at hv
  obtain ⟨hj, hmoves⟩ := Journal.of_write? hrun
  exact ⟨t, p, hj, hmoves, hv.1, hv.2, inbound_dispatched hj⟩

end Intake

end EdgeGateway
