import EdgeGateway.Proofs.Link.Launching
import EdgeGateway.Proofs.Link.Posts
import EdgeGateway.Proofs.Wire.Reading

/-!
# What the readers of the links do

All that matters of a pool to the frames that come in is where its readers stand, what has arrived
on each connection and the inbound queue. A move changes this in few ways: `reads_of_move?` says in
which.
-/

namespace EdgeGateway

variable {κ : Type}

/-- What was taken off a stream of which some is left. -/
def Inflow.consumed (s rest : Inflow) : Bytes := s.bytes.take (s.bytes.length - rest.bytes.length)

/-- What was read is what is no longer there. -/
theorem Inflow.consumed_of_append {s rest : Inflow} {b : Bytes} (h : s.bytes = b ++ rest.bytes) :
    s.consumed rest = b := by
  rw [consumed, h, List.length_append, Nat.add_sub_cancel, List.take_left]

/-- On which connection a link reads, what its reader is doing, and whether it is told to stop. A
link that introduces itself is going to read. -/
def Link.seat? (l : Link κ) : Option (Nat × Reader × Bool) :=
  match l.phase with
  | .greeting wire _ => some (wire, .reading, false)
  | .serving s => some (s.wire, s.reader, s.stopping)
  | _ => none

/-- What a reader does with a frame. -/
inductive Glance where
  /-- It reads a frame that is not for the workers. -/
  | skips (wire : Nat) (b : Bytes)
  /-- It reads a frame and offers it to the workers. -/
  | offers (wire : Nat) (f : Frame)
  /-- It reads a frame for the workers and drops it. -/
  | drops (wire : Nat) (f : Frame)
  /-- It takes back a frame for which there was no room. -/
  | withdraws (wire ticket : Nat)
  deriving Repr, DecidableEq

namespace Pool

variable {p q : Pool κ} {i w n now : Nat} {l k : Link κ} {s : Service κ} {f : Frame} {b : Bytes}

/-- Where the reader of each link stands. -/
def seats (p : Pool κ) : List (Option (Nat × Reader × Bool)) := p.links.map Link.seat?

/-- What has arrived on each connection and not been read. -/
def inflows (p : Pool κ) : List Inflow := p.wires.map (·.inflow)

/-- What a reader does in a move. -/
def glanced? (p : Pool κ) : Move → Option Glance
  | .read i => do
    let (_, s) ← p.service? i
    let x ← p.wires[s.wire]?
    match x.inflow.readFrame with
    | .frame f _ =>
      if f.header.flag = .system then return .skips s.wire f.bytes else return .offers s.wire f
    | .dropped rest => return .skips s.wire (x.inflow.consumed rest)
    | _ => none
  | .readLast i => do
    let (_, s) ← p.service? i
    let x ← p.wires[s.wire]?
    match x.inflow.readFrame with
    | .frame f _ => return .drops s.wire f
    | _ => none
  | .stopReader i => do
    let (_, s) ← p.service? i
    match s.reader with
    | .offering ticket => return .withdraws s.wire ticket
    | _ => none
  | _ => none

/-- Nothing is changed of all that matters to the frames that come in. -/
structure SameSeats (p q : Pool κ) : Prop where
  seats : q.seats = p.seats
  inflows : q.inflows = p.inflows
  inbound : q.inbound = p.inbound

/-- Some bytes have been taken off the stream of a connection. -/
structure Took (w : Nat) (b : Bytes) (xs ys : List Inflow) : Prop where
  taken : ∃ x rest, xs[w]? = some x ∧ ys = xs.modify w (fun _ ↦ rest) ∧
    x.bytes = b ++ rest.bytes

/-- What a move does to the frames that come in. -/
inductive Reads (p q : Pool κ) : Option Glance → Prop where
  | rests : p.SameSeats q → Reads p q none
  /-- There is a new connection. -/
  | connects {i : Nat} (hi : p.seats[i]? = some none)
    (seats : q.seats = p.seats.set i (some (p.wires.length, .reading, false)))
    (inflows : q.inflows = p.inflows ++ [Inflow.mk [] false]) (inbound : q.inbound = p.inbound) :
    Reads p q none
  /-- A reader that has nothing in its hands leaves its connection, whose stream it may have spoilt.
  -/
  | leaves {i w : Nat} {r : Reader} {stop : Bool} {d : Option (Nat × Reader × Bool)}
    (hi : p.seats[i]? = some (some (w, r, stop))) (hr : r = .reading ∨ r = .ended)
    (hd : d = none ∨ d = some (w, .ended, stop)) (seats : q.seats = p.seats.set i d)
    (inflows : ∃ g, q.inflows = p.inflows.modify w g) (inbound : q.inbound = p.inbound) :
    Reads p q none
  /-- The tasks of a link are told to stop. -/
  | stops {i w : Nat} {r : Reader} (hi : p.seats[i]? = some (some (w, r, false)))
    (seats : q.seats = p.seats.set i (some (w, r, true))) (inflows : q.inflows = p.inflows)
    (inbound : q.inbound = p.inbound) : Reads p q none
  /-- A frame is read that is not for the workers. -/
  | skips {i w : Nat} {b : Bytes} {stop : Bool} (hi : p.seats[i]? = some (some (w, .reading, stop)))
    (whole : WholeFrame b) (user : userFrame? b = none) (seats : q.seats = p.seats)
    (inflows : Took w b p.inflows q.inflows) (inbound : q.inbound = p.inbound) :
    Reads p q (some (.skips w b))
  /-- A frame for the workers is read, and offered to them. -/
  | offers {i w : Nat} {f : Frame} {stop : Bool} {r : Reader}
    (hi : p.seats[i]? = some (some (w, .reading, stop))) (whole : WholeFrame f.bytes)
    (user : userFrame? f.bytes = some f)
    (hr : r = if (p.inbound.send f).2.delivery p.inbound.issued = .accepted then .reading
      else .offering p.inbound.issued)
    (seats : q.seats = p.seats.set i (some (w, r, stop)))
    (inflows : Took w f.bytes p.inflows q.inflows) (inbound : q.inbound = (p.inbound.send f).2) :
    Reads p q (some (.offers w f))
  /-- A frame for the workers is read, and dropped because the reader is told to stop. -/
  | drops {i w : Nat} {f : Frame} (hi : p.seats[i]? = some (some (w, .reading, true)))
    (whole : WholeFrame f.bytes) (user : userFrame? f.bytes = some f)
    (seats : q.seats = p.seats.set i (some (w, .ended, true)))
    (inflows : Took w f.bytes p.inflows q.inflows) (inbound : q.inbound = p.inbound) :
    Reads p q (some (.drops w f))
  /-- A reader learns that its frame has been let in. -/
  | goesOn {i w k : Nat} {stop : Bool} (hi : p.seats[i]? = some (some (w, .offering k, stop)))
    (hk : p.inbound.delivery k = .accepted)
    (seats : q.seats = p.seats.set i (some (w, .reading, stop))) (inflows : q.inflows = p.inflows)
    (inbound : q.inbound = p.inbound) : Reads p q none
  /-- A reader takes its frame back because it is told to stop. -/
  | withdraws {i w k : Nat} (hi : p.seats[i]? = some (some (w, .offering k, true)))
    (seats : q.seats = p.seats.set i (some (w, .ended, true))) (inflows : q.inflows = p.inflows)
    (inbound : q.inbound = p.inbound.withdraw k) : Reads p q (some (.withdraws w k))

/-! ### Seats and streams -/

private theorem getElem?_seats (hl : p.links[i]? = some l) : p.seats[i]? = some l.seat? := by
  rw [seats, List.getElem?_map, hl]
  rfl

private theorem seats_of_links {d : Option (Nat × Reader × Bool)}
    (hlinks : q.links = p.links.set i k) (hd : k.seat? = d) : q.seats = p.seats.set i d := by
  rw [seats, hlinks, List.map_set, hd]
  rfl

private theorem inflows_of_same {g : Wire → Wire} (hw : q.wires = p.wires.modify w g)
    (hg : ∀ x : Wire, (g x).inflow = x.inflow) : q.inflows = p.inflows := by
  rw [inflows, hw]
  exact Posts.map_modify_of_same hg _ _

private theorem inflows_of_wires (g : Inflow → Inflow)
    (hw : q.wires = p.wires.modify w fun x ↦ { x with inflow := g x.inflow }) :
    q.inflows = p.inflows.modify w g := by
  rw [inflows, hw]
  exact Posts.map_modify (f := fun x : Wire ↦ x.inflow) (fun _ ↦ rfl) _ _

private theorem seat?_of_serving (h : l.phase = .serving s) :
    l.seat? = some (s.wire, s.reader, s.stopping) := by rw [Link.seat?, h]

/-- The seat of a link that is served. -/
theorem getElem?_seats_of_service (h : p.service? i = some (l, s)) :
    p.seats[i]? = some (some (s.wire, s.reader, s.stopping)) := by
  obtain ⟨hl, hp⟩ := serving_of_service? h
  rw [getElem?_seats hl, seat?_of_serving hp]

/-- The link whose reader has offered a frame is served. -/
theorem service?_of_offering {k : Nat} {stop : Bool}
    (h : p.seats[i]? = some (some (w, .offering k, stop))) :
    ∃ l s, p.service? i = some (l, s) ∧ s.wire = w ∧ s.reader = .offering k := by
  rw [seats, List.getElem?_map] at h
  obtain ⟨l, hl, h⟩ := Option.map_eq_some_iff.1 h
  rw [Link.seat?] at h
  split at h
  · cases h
  · next s hp =>
    simp only [Option.some.injEq, Prod.mk.injEq] at h
    refine ⟨l, s, ?_, h.1, h.2.1⟩
    rw [service?, hl]
    simp [Link.service?, hp]
  · cases h

private theorem took_of_modify {x : Wire} {rest : Inflow} (hx : p.wires[w]? = some x)
    (hw : q.wires = p.wires.modify w fun w ↦ { w with inflow := rest })
    (hb : x.inflow.bytes = b ++ rest.bytes) : Took w b p.inflows q.inflows := by
  refine ⟨x.inflow, rest, ?_, ?_, hb⟩
  · rw [inflows, List.getElem?_map, hx]
    rfl
  · exact inflows_of_wires (fun _ ↦ rest) hw

/-! ### The moves -/

private theorem SameSeats.of_seat?_eq (hl : p.links[i]? = some l)
    (hlinks : q.links = p.links.set i k) (hk : k.seat? = l.seat?) (hs : q.inflows = p.inflows)
    (hi : q.inbound = p.inbound) : p.SameSeats q := by
  refine ⟨?_, hs, hi⟩
  rw [seats_of_links hlinks hk, Posts.set_of_getElem? (getElem?_seats hl)]

private theorem SameSeats.of_service (hs : p.service? i = some (l, s)) {t : Service κ}
    (hlinks : q.links = p.links.set i k) (hk : k.phase = .serving t)
    (ht : (t.wire, t.reader, t.stopping) = (s.wire, s.reader, s.stopping))
    (hw : q.inflows = p.inflows) (hi : q.inbound = p.inbound) : p.SameSeats q := by
  obtain ⟨hl, hs⟩ := serving_of_service? hs
  refine .of_seat?_eq hl hlinks ?_ hw hi
  rw [seat?_of_serving hs, seat?_of_serving hk, ht]

/-- A worker is not a reader. -/
theorem sameSeats_setWorker (p : Pool κ) (i w : Nat) (x : Worker κ) :
    p.SameSeats (p.setWorker i w x) := by
  rw [setWorker]
  split
  · next l s hs => exact .of_service hs rfl rfl rfl rfl rfl
  · exact ⟨rfl, rfl, rfl⟩

/-- When a pool is launched there is no reader yet. -/
theorem Slept.sameSeats_launch (hp : p.Slept) (now : Nat) : p.SameSeats (p.launch now) := by
  rw [Pool.launch]
  split
  · next ht =>
    refine ⟨?_, rfl, rfl⟩
    rw [seats, seats, List.map_map]
    refine List.map_congr_left fun l hl ↦ ?_
    rw [Function.comp, Link.seat?, Link.seat?, hp ht l hl]
  · exact ⟨rfl, rfl, rfl⟩

/-- The shutdown signal does nothing by itself. -/
theorem sameSeats_signal (p : Pool κ) : p.SameSeats p.signal := by
  rw [signal]
  split <;> exact ⟨rfl, rfl, rfl⟩

/-- What arrives on a connection goes behind what has arrived on it. -/
theorem inflows_deliver (p : Pool κ) (w : Nat) (b : Bytes) :
    (p.deliver w b).inflows = p.inflows.modify w fun x ↦ x.push b :=
  inflows_of_wires (fun x ↦ x.push b) rfl

/-- That a connection has come to its end matters to it alone. -/
theorem inflows_finishInflow (p : Pool κ) (w : Nat) :
    (p.finishInflow w).inflows = p.inflows.modify w Inflow.finish :=
  inflows_of_wires Inflow.finish rfl

/-- A worker that takes a frame takes the first one of the inbound queue. -/
theorem receive_of_fetchInbound (h : p.fetchInbound i w = some (f, q)) :
    p.worker? i w = some .idle ∧ p.inbound.receive = some (f, q.inbound) ∧ q.seats = p.seats ∧
      q.inflows = p.inflows := by
  obtain ⟨x, hx, h⟩ := Option.bind_eq_some_iff.1 h
  split at h
  · obtain ⟨⟨g, inbound⟩, hr, h⟩ := Option.bind_eq_some_iff.1 h
    cases h
    exact ⟨hx, hr, rfl, rfl⟩
  · cases h

private theorem reads_connect (h : p.connect i = some q) : p.Reads q none := by
  obtain ⟨l, hl, h⟩ := Option.bind_eq_some_iff.1 h
  split at h <;> cases h
  next hp =>
  have hd : p.seats[i]? = some none := by rw [getElem?_seats hl, Link.seat?, hp]
  exact .connects hd (seats_of_links rfl rfl) List.map_append rfl

private theorem seat?_afterWrite (p : Pool κ) (l : Link κ) (left : Bytes) :
    (p.afterWrite l left).seat? = l.seat? := by
  rw [afterWrite]
  split
  · next wire left' hp =>
    have hl : l.seat? = some (wire, .reading, false) := by rw [Link.seat?, hp]
    rw [hl]
    split <;> rfl
  · next hp =>
    split
    · rw [seat?_of_serving hp]
      rfl
    · rfl
  · rfl

private theorem reads_transmit (h : p.transmit i n = some q) : p.Reads q none := by
  obtain ⟨⟨w, f, left⟩, hh, h⟩ := Option.bind_eq_some_iff.1 h
  obtain ⟨l, hl, h⟩ := Option.bind_eq_some_iff.1 h
  split at h <;> cases h
  refine .rests
    (.of_seat?_eq hl rfl (p.seat?_afterWrite l _) (inflows_of_same rfl fun x ↦ ?_) rfl)
  rfl

private theorem reads_failWrite (h : p.failWrite now i = some q) : p.Reads q none := by
  obtain ⟨⟨w, f, left⟩, -, h⟩ := Option.bind_eq_some_iff.1 h
  obtain ⟨l, hl, h⟩ := Option.bind_eq_some_iff.1 h
  have hw : ∀ q : Pool κ, q.wires = p.wires.modify w (fun w ↦ { w with shut := true }) →
      q.inflows = p.inflows := fun q hq ↦ inflows_of_same hq fun _ ↦ rfl
  simp only at h
  split at h
  · next v left' hp =>
    cases h
    have hi := getElem?_seats hl
    rw [Link.seat?, hp] at hi
    exact .leaves hi (.inl rfl) (.inl rfl) (seats_of_links rfl rfl)
      ⟨id, (hw _ rfl).trans (List.modify_id _ _).symm⟩ rfl
  · next s hp =>
    cases h
    refine .rests (.of_seat?_eq hl rfl ?_ (hw _ rfl) rfl)
    rw [seat?_of_serving hp]
    rfl
  · cases h

private theorem accept_of_system (hs : p.service? i = some (l, s)) (hf : f.header.flag = .system) :
    p.SameSeats (p.accept i l s f) ∧ (p.accept i l s f).wires = p.wires := by
  rw [accept, if_pos hf]
  split
  · exact ⟨.of_seat?_eq (serving_of_service? hs).1 rfl rfl rfl rfl, rfl⟩
  · exact ⟨⟨rfl, rfl, rfl⟩, rfl⟩

private theorem reads_read (h : p.read i = some q) : p.Reads q (p.glanced? (.read i)) := by
  obtain ⟨⟨l, s⟩, hs, h⟩ := Option.bind_eq_some_iff.1 h
  have hi := getElem?_seats_of_service hs
  simp only at h
  split at h
  · cases h
  · next hr =>
    rw [Decidable.not_not.1 hr] at hi
    obtain ⟨x, hx, h⟩ := Option.bind_eq_some_iff.1 h
    rw [glanced?, hs]
    simp only [Option.bind_eq_bind, Option.bind_some, hx]
    split at h
    · cases h
    · next inflow hread =>
      cases h
      rw [hread]
      exact .leaves hi (.inl rfl) (.inr rfl) (seats_of_links rfl rfl)
        ⟨fun _ ↦ inflow, inflows_of_wires (fun _ ↦ inflow) rfl⟩ rfl
    · next inflow hread =>
      cases h
      obtain ⟨b, hb, hwhole, huser⟩ := Inflow.bytes_of_dropped hread
      rw [hread]
      simp only [Inflow.consumed_of_append hb]
      exact .skips hi hwhole huser rfl (took_of_modify hx rfl hb) rfl
    · next f inflow hread =>
      cases h
      obtain ⟨hb, hwhole, hparse⟩ := Inflow.bytes_of_readFrame hread
      rw [hread]
      by_cases hf : f.header.flag = .system
      · simp only [if_pos hf]
        have huser : userFrame? f.bytes = none := by
          rw [userFrame?, hparse]
          exact if_pos hf
        obtain ⟨hsame, hwires⟩ := accept_of_system
          (p := p.modifyWire s.wire fun w ↦ { w with inflow }) hs hf
        refine .skips hi hwhole huser hsame.seats (took_of_modify hx hwires hb) hsame.inbound
      · simp only [if_neg hf]
        have huser : userFrame? f.bytes = some f := by
          rw [userFrame?, hparse]
          exact if_neg hf
        rw [accept, if_neg hf]
        exact .offers hi hwhole huser rfl (seats_of_links rfl rfl) (took_of_modify hx rfl hb) rfl

private theorem reads_readLast (h : p.readLast i = some q) :
    p.Reads q (p.glanced? (.readLast i)) := by
  obtain ⟨⟨l, s⟩, hs, h⟩ := Option.bind_eq_some_iff.1 h
  have hi := getElem?_seats_of_service hs
  simp only at h
  split at h
  · cases h
  · next hr =>
    rw [not_or, Decidable.not_not, Decidable.not_not] at hr
    rw [hr.1, hr.2] at hi
    obtain ⟨x, hx, h⟩ := Option.bind_eq_some_iff.1 h
    split at h
    · next f inflow hread =>
      split at h
      · cases h
      next hf =>
      cases h
      have hglance : p.glanced? (.readLast i) = some (.drops s.wire f) := by
        simp [glanced?, hs, hx, hread]
      obtain ⟨hb, hwhole, hparse⟩ := Inflow.bytes_of_readFrame hread
      have huser : userFrame? f.bytes = some f := by
        rw [userFrame?, hparse]
        exact if_neg hf
      rw [hglance]
      exact .drops hi hwhole huser
        (seats_of_links rfl (by simp only [Link.seat?, Link.serve, hr.2]))
        (took_of_modify hx rfl hb) rfl
    · cases h

private theorem reads_readOn (h : p.readOn i = some q) : p.Reads q none := by
  obtain ⟨⟨l, s⟩, hs, h⟩ := Option.bind_eq_some_iff.1 h
  have hi := getElem?_seats_of_service hs
  simp only at h
  split at h
  · next hr =>
    rw [hr] at hi
    split at h <;> cases h
    next hk =>
    exact .goesOn hi hk (seats_of_links rfl rfl) rfl rfl
  · cases h

private theorem reads_stopReader (h : p.stopReader i = some q) :
    p.Reads q (p.glanced? (.stopReader i)) := by
  obtain ⟨⟨l, s⟩, hs, h⟩ := Option.bind_eq_some_iff.1 h
  have hi := getElem?_seats_of_service hs
  simp only at h
  split at h
  · cases h
  · next hstop =>
    rw [Decidable.not_not] at hstop
    rw [hstop] at hi
    rw [glanced?, hs]
    simp only [Option.bind_eq_bind, Option.bind_some]
    have hended : ∀ q : Pool κ, q.links = p.links.set i (l.serve { s with reader := .ended }) →
        q.seats = p.seats.set i (some (s.wire, .ended, true)) := fun q hq ↦
      seats_of_links hq (by simp only [Link.seat?, Link.serve, hstop])
    split at h
    · cases h
    · next hr =>
      cases h
      rw [hr] at hi ⊢
      exact .leaves hi (.inl rfl) (.inr rfl) (hended _ rfl) ⟨id, (List.modify_id _ _).symm⟩ rfl
    · next ticket hr =>
      cases h
      rw [hr] at hi ⊢
      exact .withdraws hi (hended _ rfl) rfl rfl

private theorem reads_supervise {final : Bool} (h : p.supervise i final = some q) :
    p.Reads q none := by
  obtain ⟨⟨l, s⟩, hs, h⟩ := Option.bind_eq_some_iff.1 h
  have hi := getElem?_seats_of_service hs
  simp only at h
  split at h
  · cases h
  · next hstop =>
    rw [Bool.not_eq_true] at hstop
    rw [hstop] at hi
    repeat' split at h
    all_goals cases h
    all_goals exact .stops hi (seats_of_links rfl rfl) rfl rfl

private theorem reads_conclude (h : p.conclude now i = some q) : p.Reads q none := by
  obtain ⟨⟨l, s⟩, hs, h⟩ := Option.bind_eq_some_iff.1 h
  have hi := getElem?_seats_of_service hs
  simp only at h
  split at h
  · next hended =>
    rw [hended.2.1] at hi
    split at h <;> cases h
    · exact .leaves hi (.inr rfl) (.inl rfl) (seats_of_links rfl rfl)
        ⟨id, (List.modify_id _ _).symm⟩ rfl
    · exact .leaves hi (.inr rfl) (.inl rfl) (seats_of_links rfl rfl)
        ⟨id, (List.modify_id _ _).symm⟩ rfl
  · cases h

private theorem sameSeats_fetchOutbound (h : p.fetchOutbound i = some q) : p.SameSeats q := by
  obtain ⟨⟨l, s⟩, hs, h⟩ := Option.bind_eq_some_iff.1 h
  simp only at h
  split at h
  · cases h
  · split at h
    · cases h
      exact .of_service hs rfl rfl rfl rfl rfl
    · obtain ⟨⟨f, outbound⟩, -, h⟩ := Option.bind_eq_some_iff.1 h
      cases h
      exact .of_service hs rfl rfl rfl rfl rfl

private theorem sameSeats_stopWriter (h : p.stopWriter i = some q) : p.SameSeats q := by
  obtain ⟨⟨l, s⟩, hs, h⟩ := Option.bind_eq_some_iff.1 h
  simp only at h
  split at h <;> cases h
  exact .of_service hs rfl rfl rfl (inflows_of_same rfl fun _ ↦ rfl) rfl

private theorem sameSeats_stopWorker (h : p.stopWorker i w = some q) : p.SameSeats q := by
  obtain ⟨⟨l, s⟩, -, h⟩ := Option.bind_eq_some_iff.1 h
  obtain ⟨x, -, h⟩ := Option.bind_eq_some_iff.1 h
  split at h
  · split at h <;> cases h
    exact p.sameSeats_setWorker i w .ended
  · cases h

private theorem sameSeats_tick (h : p.tick now = some q) : p.SameSeats q := by
  rw [tick] at h
  split at h
  · split at h <;> cases h
    refine ⟨?_, rfl, rfl⟩
    rw [seats, seats, List.map_map]
    refine List.map_congr_left fun l _ ↦ ?_
    rw [Function.comp, question]
    split <;> rfl
  · cases h

/-- What the links do to the frames that come in. -/
theorem reads_of_move? {m : Move} (h : p.move? now m = some q) : p.Reads q (p.glanced? m) := by
  cases m with
  | connect i => exact reads_connect h
  | transmit i n => exact reads_transmit h
  | failWrite i => exact reads_failWrite h
  | read i => exact reads_read h
  | readLast i => exact reads_readLast h
  | readOn i => exact reads_readOn h
  | stopReader i => exact reads_stopReader h
  | supervise i final => exact reads_supervise h
  | conclude i => exact reads_conclude h
  | fetchOutbound i => exact .rests (sameSeats_fetchOutbound h)
  | stopWriter i => exact .rests (sameSeats_stopWriter h)
  | stopWorker i w => exact .rests (sameSeats_stopWorker h)
  | tick => exact .rests (sameSeats_tick h)
  | refuse i | wake i | halt i =>
    obtain ⟨l, hl, h⟩ := Option.bind_eq_some_iff.1 h
    repeat' split at h
    all_goals cases h
    all_goals exact .rests (.of_seat?_eq hl rfl (by simp only [Link.seat?, *]) rfl rfl)
  | stopTicker =>
    simp only [move?, stopTicker] at h
    split at h
    · split at h <;> cases h
      exact .rests ⟨rfl, rfl, rfl⟩
    · cases h

/-- A reader drops a frame only if it is told to stop. -/
theorem stopping_of_drops {m : Move} (h : p.move? now m = some q)
    (hg : p.glanced? m = some (.drops w f)) :
    ∃ i l s, m = .readLast i ∧ p.service? i = some (l, s) ∧ s.wire = w ∧
      s.stopping = true := by
  cases m with
  | readLast i =>
    obtain ⟨⟨l, s⟩, hs, h⟩ := Option.bind_eq_some_iff.1 h
    obtain ⟨r, hr, hg⟩ := Option.bind_eq_some_iff.1 hg
    cases hs.symm.trans hr
    obtain ⟨x, -, hg⟩ := Option.bind_eq_some_iff.1 hg
    refine ⟨i, l, s, rfl, hs, ?_, ?_⟩
    · split at hg <;> cases hg
      rfl
    · simp only at h
      split at h
      · cases h
      · next hn => simpa using (not_or.1 hn).2
  | read i =>
    obtain ⟨⟨l, s⟩, -, hg⟩ := Option.bind_eq_some_iff.1 hg
    obtain ⟨x, -, hg⟩ := Option.bind_eq_some_iff.1 hg
    repeat' split at hg
    all_goals cases hg
  | stopReader i =>
    obtain ⟨⟨l, s⟩, -, hg⟩ := Option.bind_eq_some_iff.1 hg
    simp only at hg
    split at hg <;> cases hg
  | _ => cases hg

/-- A reader takes its frame back only if it is told to stop. -/
theorem stopping_of_withdraws {m : Move} {k : Nat} (h : p.move? now m = some q)
    (hg : p.glanced? m = some (.withdraws w k)) :
    ∃ i l s, m = .stopReader i ∧ p.service? i = some (l, s) ∧ s.wire = w ∧
      s.reader = .offering k ∧ s.stopping = true := by
  cases m with
  | stopReader i =>
    obtain ⟨⟨l, s⟩, hs, h⟩ := Option.bind_eq_some_iff.1 h
    obtain ⟨r, hr, hg⟩ := Option.bind_eq_some_iff.1 hg
    cases hs.symm.trans hr
    have hstop : s.stopping = true := by
      simp only at h
      split at h
      · cases h
      · next hn => simpa using hn
    simp only at hg
    split at hg <;> cases hg
    exact ⟨i, l, s, rfl, hs, rfl, by assumption, hstop⟩
  | read i | readLast i =>
    obtain ⟨⟨l, s⟩, -, hg⟩ := Option.bind_eq_some_iff.1 hg
    obtain ⟨x, -, hg⟩ := Option.bind_eq_some_iff.1 hg
    repeat' split at hg
    all_goals cases hg
  | _ => cases hg

end Pool

end EdgeGateway
