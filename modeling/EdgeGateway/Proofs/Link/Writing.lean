import EdgeGateway.Proofs.Link.Launching
import EdgeGateway.Proofs.Link.Posts

/-!
# What the writers of the links do

All that matters of a pool to the frames that go out is where its writers stand, what has been
written on each connection and the outbound queue. A move changes this in few ways:
`writes_of_move?` says in which.
-/

namespace EdgeGateway

variable {κ : Type}

/-- On which connection a link writes, and what its writer is doing. Before a connection is served
the link writes its introduction. -/
def Link.desk? (introduction : Frame) (l : Link κ) : Option (Nat × Writer) :=
  match l.phase with
  | .greeting wire left => some (wire, .writing introduction left)
  | .serving s => some (s.wire, s.writer)
  | _ => none

/-- A step in the life of a frame that a writer has. -/
inductive Pen where
  /-- A writer takes a frame, which may be one of those that all links share. -/
  | takes (wire : Nat) (shared : Bool) (f : Frame)
  | finishes (wire : Nat)
  | fails (wire : Nat)
  deriving Repr, DecidableEq

namespace Pool

variable {p q : Pool κ} {i w n now : Nat} {l k : Link κ} {s : Service κ} {f : Frame}
  {left : Bytes}

/-- Where the writer of each link stands. -/
def desks (p : Pool κ) : List (Option (Nat × Writer)) :=
  p.links.map fun l ↦ l.desk? p.settings.introduction

/-- The portions that were written on each connection and the frames that were finished, latest
first. -/
def sheets (p : Pool κ) : List (List Bytes × List Frame) :=
  p.wires.map fun x ↦ (x.portions, x.finished)

/-- What happens to a frame of a writer in a move. -/
def penned? (p : Pool κ) : Move → Option Pen
  | .connect _ => some (.takes p.wires.length false p.settings.introduction)
  | .fetchOutbound i => do
    let (l, s) ← p.service? i
    match l.system.receive with
    | some (f, _) => return .takes s.wire false f
    | none => do
      let (f, _) ← p.outbound.receive
      return .takes s.wire true f
  | .transmit i n => do
    let (wire, _, left) ← p.held? i
    if (left.drop n).isEmpty then return .finishes wire else none
  | .failWrite i => (p.held? i).map fun h ↦ .fails h.1
  | _ => none

/-- Nothing is changed of all that matters to the frames that go out. -/
structure SameDesks (p q : Pool κ) : Prop where
  desks : q.desks = p.desks
  sheets : q.sheets = p.sheets
  outbound : q.outbound = p.outbound

/-- What a move does to the frames that go out. -/
inductive Writes (p q : Pool κ) : Option Pen → Prop where
  | rests : p.SameDesks q → Writes p q none
  /-- A writer that holds nothing leaves its connection. -/
  | leaves {i w : Nat} {x : Writer} {d : Option (Nat × Writer)}
    (hi : p.desks[i]? = some (some (w, x))) (hx : x = .idle ∨ x = .ended)
    (hd : d = none ∨ d = some (w, .ended)) (desks : q.desks = p.desks.set i d)
    (sheets : q.sheets = p.sheets) (outbound : q.outbound = p.outbound) : Writes p q none
  /-- There is a new connection, on which a link introduces itself. -/
  | connects {i : Nat} (hi : p.desks[i]? = some none)
    (desks : q.desks = p.desks.set i (some (p.wires.length,
      .writing p.settings.introduction p.settings.introduction.bytes)))
    (sheets : q.sheets = p.sheets ++ [([], [])]) (outbound : q.outbound = p.outbound) :
    Writes p q (some (.takes p.wires.length false p.settings.introduction))
  | takes {i w : Nat} {shared : Bool} {f : Frame} (hi : p.desks[i]? = some (some (w, .idle)))
    (desks : q.desks = p.desks.set i (some (w, .writing f f.bytes))) (sheets : q.sheets = p.sheets)
    (outbound : if shared then p.outbound.receive = some (f, q.outbound)
      else q.outbound = p.outbound) : Writes p q (some (.takes w shared f))
  /-- A portion of a frame is written. -/
  | writes {i w n : Nat} {f : Frame} {left : Bytes}
    (hi : p.desks[i]? = some (some (w, .writing f left))) (hn : (left.drop n).isEmpty = false)
    (desks : q.desks = p.desks.set i (some (w, .writing f (left.drop n))))
    (sheets : q.sheets = p.sheets.modify w fun s ↦ (left.take n :: s.1, s.2))
    (outbound : q.outbound = p.outbound) : Writes p q none
  /-- The rest of a frame is written. -/
  | finishes {i w : Nat} {f : Frame} {left : Bytes}
    (hi : p.desks[i]? = some (some (w, .writing f left)))
    (desks : q.desks = p.desks.set i (some (w, .idle)))
    (sheets : q.sheets = p.sheets.modify w fun s ↦ (left :: s.1, f :: s.2))
    (outbound : q.outbound = p.outbound) : Writes p q (some (.finishes w))
  /-- A write fails, and the writer leaves its connection. -/
  | fails {i w : Nat} {f : Frame} {left : Bytes} {d : Option (Nat × Writer)}
    (hi : p.desks[i]? = some (some (w, .writing f left))) (hd : d = none ∨ d = some (w, .ended))
    (desks : q.desks = p.desks.set i d) (sheets : q.sheets = p.sheets)
    (outbound : q.outbound = p.outbound) : Writes p q (some (.fails w))

/-! ### Desks and sheets -/

private theorem getElem?_desks (hl : p.links[i]? = some l) :
    p.desks[i]? = some (l.desk? p.settings.introduction) := by
  rw [desks, List.getElem?_map, hl]
  rfl

private theorem desks_of_links {d : Option (Nat × Writer)} (hset : q.settings = p.settings)
    (hlinks : q.links = p.links.set i k) (hd : k.desk? p.settings.introduction = d) :
    q.desks = p.desks.set i d := by
  rw [desks, hset, hlinks, List.map_set, hd]
  rfl

private theorem sheets_of_same {g : Wire → Wire} (hw : q.wires = p.wires.modify w g)
    (hg : ∀ x : Wire, ((g x).portions, (g x).finished) = (x.portions, x.finished)) :
    q.sheets = p.sheets := by
  rw [sheets, hw]
  exact Posts.map_modify_of_same hg _ _

private theorem desk?_of_serving {intro : Frame} (h : l.phase = .serving s) :
    l.desk? intro = some (s.wire, s.writer) := by rw [Link.desk?, h]

/-- What a link holds is what its writer is writing. -/
theorem held?_eq_some_iff :
    p.held? i = some (w, f, left) ↔ p.desks[i]? = some (some (w, .writing f left)) := by
  rw [held?, desks, List.getElem?_map]
  cases p.links[i]? with
  | none => simp
  | some l =>
    simp only [Option.bind_eq_bind, Option.bind_some, Option.map_some, Link.desk?]
    cases l.phase with
    | greeting wire rest => simp [eq_comm]
    | serving s =>
      cases hs : s.writer <;> simp [hs, eq_comm]
    | _ => simp

/-- A write fails only on the connection on which a link writes. -/
theorem held?_of_fails {m : Move} (h : p.penned? m = some (.fails w)) :
    ∃ i f left, m = .failWrite i ∧ p.held? i = some (w, f, left) := by
  cases m with
  | failWrite i =>
    obtain ⟨⟨v, f, left⟩, hh, h⟩ := Option.map_eq_some_iff.1 h
    cases h
    exact ⟨i, f, left, rfl, hh⟩
  | fetchOutbound i =>
    obtain ⟨⟨l, s⟩, -, h⟩ := Option.bind_eq_some_iff.1 h
    simp only at h
    split at h
    · cases h
    · obtain ⟨r, -, h⟩ := Option.bind_eq_some_iff.1 h
      cases h
  | transmit i n =>
    obtain ⟨⟨v, f, left⟩, -, h⟩ := Option.bind_eq_some_iff.1 h
    simp only at h
    split at h <;> cases h
  | _ => cases h

/-! ### The moves -/

private theorem SameDesks.of_desk?_eq (hset : q.settings = p.settings) (hl : p.links[i]? = some l)
    (hlinks : q.links = p.links.set i k)
    (hk : k.desk? p.settings.introduction = l.desk? p.settings.introduction)
    (hs : q.sheets = p.sheets) (ho : q.outbound = p.outbound) : p.SameDesks q := by
  refine ⟨?_, hs, ho⟩
  rw [desks_of_links hset hlinks hk, Posts.set_of_getElem? (getElem?_desks hl)]

private theorem SameDesks.of_service (hset : q.settings = p.settings)
    (hs : p.service? i = some (l, s)) {t : Service κ} (hlinks : q.links = p.links.set i k)
    (hk : k.phase = .serving t) (ht : (t.wire, t.writer) = (s.wire, s.writer))
    (hsheets : q.sheets = p.sheets) (ho : q.outbound = p.outbound) : p.SameDesks q := by
  obtain ⟨hl, hs⟩ := serving_of_service? hs
  refine .of_desk?_eq hset hl hlinks ?_ hsheets ho
  rw [desk?_of_serving hs, desk?_of_serving hk, ht]

/-- A worker is not a writer. -/
theorem sameDesks_setWorker (p : Pool κ) (i w : Nat) (x : Worker κ) :
    p.SameDesks (p.setWorker i w x) := by
  rw [setWorker]
  split
  · next l s hs => exact .of_service rfl hs rfl rfl rfl rfl rfl
  · exact ⟨rfl, rfl, rfl⟩

/-- A worker that takes a frame off the inbound queue takes nothing off another. -/
theorem sameDesks_fetchInbound (h : p.fetchInbound i w = some (f, q)) : p.SameDesks q := by
  obtain ⟨x, -, h⟩ := Option.bind_eq_some_iff.1 h
  split at h
  · obtain ⟨⟨g, inbound⟩, -, h⟩ := Option.bind_eq_some_iff.1 h
    cases h
    exact ⟨rfl, rfl, rfl⟩
  · cases h

/-- When a pool is launched there is no writer yet. -/
theorem Slept.sameDesks_launch (hp : p.Slept) (now : Nat) : p.SameDesks (p.launch now) := by
  rw [Pool.launch]
  split
  · next ht =>
    refine ⟨?_, rfl, rfl⟩
    rw [desks, desks, List.map_map]
    refine List.map_congr_left fun l hl ↦ ?_
    rw [Function.comp, Link.desk?, Link.desk?, hp ht l hl]
  · exact ⟨rfl, rfl, rfl⟩

/-- The shutdown signal does nothing by itself. -/
theorem sameDesks_signal (p : Pool κ) : p.SameDesks p.signal := by
  rw [signal]
  split <;> exact ⟨rfl, rfl, rfl⟩

/-- What arrives on a connection has not been written on it. -/
theorem sameDesks_deliver (p : Pool κ) (w : Nat) (b : Bytes) : p.SameDesks (p.deliver w b) :=
  ⟨rfl, sheets_of_same rfl fun _ ↦ rfl, rfl⟩

/-- The end of what arrives has not been written either. -/
theorem sameDesks_finishInflow (p : Pool κ) (w : Nat) : p.SameDesks (p.finishInflow w) :=
  ⟨rfl, sheets_of_same rfl fun _ ↦ rfl, rfl⟩

private theorem sameDesks_accept (hs : p.service? i = some (l, s)) (f : Frame) :
    p.SameDesks (p.accept i l s f) := by
  rw [accept]
  split
  · split
    · exact .of_desk?_eq rfl (serving_of_service? hs).1 rfl rfl rfl rfl
    · exact ⟨rfl, rfl, rfl⟩
  · exact .of_service rfl hs rfl rfl rfl rfl rfl

private theorem sameDesks_read (h : p.read i = some q) : p.SameDesks q := by
  obtain ⟨⟨l, s⟩, hs, h⟩ := Option.bind_eq_some_iff.1 h
  simp only at h
  split at h
  · cases h
  · obtain ⟨w, -, h⟩ := Option.bind_eq_some_iff.1 h
    split at h <;> cases h
    · exact .of_service rfl hs rfl rfl rfl (sheets_of_same rfl fun _ ↦ rfl) rfl
    · exact ⟨rfl, sheets_of_same rfl fun _ ↦ rfl, rfl⟩
    · next _ f inflow _ _ =>
      -- The bytes are taken off first, which no writer sees.
      have hp : p.SameDesks (p.modifyWire s.wire fun w ↦ { w with inflow }) :=
        ⟨rfl, sheets_of_same rfl fun _ ↦ rfl, rfl⟩
      have hq := sameDesks_accept (p := p.modifyWire s.wire fun w ↦ { w with inflow }) hs f
      exact ⟨hq.desks.trans hp.desks, hq.sheets.trans hp.sheets, hq.outbound.trans hp.outbound⟩

private theorem sameDesks_readLast (h : p.readLast i = some q) : p.SameDesks q := by
  obtain ⟨⟨l, s⟩, hs, h⟩ := Option.bind_eq_some_iff.1 h
  simp only at h
  split at h
  · cases h
  · obtain ⟨w, -, h⟩ := Option.bind_eq_some_iff.1 h
    split at h
    · split at h <;> cases h
      exact .of_service rfl hs rfl rfl rfl (sheets_of_same rfl fun _ ↦ rfl) rfl
    · cases h

private theorem sameDesks_stopWorker (h : p.stopWorker i w = some q) : p.SameDesks q := by
  obtain ⟨⟨l, s⟩, hs, h⟩ := Option.bind_eq_some_iff.1 h
  obtain ⟨x, -, h⟩ := Option.bind_eq_some_iff.1 h
  split at h
  · split at h <;> cases h
    exact p.sameDesks_setWorker i w .ended
  · cases h

private theorem sameDesks_tick (h : p.tick now = some q) : p.SameDesks q := by
  rw [tick] at h
  split at h
  · split at h <;> cases h
    refine ⟨?_, rfl, rfl⟩
    rw [desks, desks, List.map_map]
    refine List.map_congr_left fun l _ ↦ ?_
    rw [Function.comp, question]
    split <;> rfl
  · cases h

private theorem writes_connect (h : p.connect i = some q) :
    p.Writes q (p.penned? (.connect i)) := by
  obtain ⟨l, hl, h⟩ := Option.bind_eq_some_iff.1 h
  split at h <;> cases h
  next hp =>
  have hd : p.desks[i]? = some none := by rw [getElem?_desks hl, Link.desk?, hp]
  exact .connects hd (desks_of_links rfl rfl rfl) List.map_append rfl

private theorem desk?_afterWrite (hh : p.held? i = some (w, f, left)) (hl : p.links[i]? = some l)
    (rest : Bytes) : (p.afterWrite l rest).desk? p.settings.introduction =
      some (w, if rest.isEmpty then .idle else .writing f rest) := by
  rw [held?, hl] at hh
  simp only [Option.bind_eq_bind, Option.bind_some] at hh
  rw [afterWrite]
  split at hh
  · cases hh
    split <;> rfl
  · split at hh
    · cases hh
      rfl
    · cases hh
  · cases hh

private theorem writes_transmit (h : p.transmit i n = some q) :
    p.Writes q (p.penned? (.transmit i n)) := by
  obtain ⟨⟨w, f, left⟩, hh, h⟩ := Option.bind_eq_some_iff.1 h
  obtain ⟨l, hl, h⟩ := Option.bind_eq_some_iff.1 h
  have hi := held?_eq_some_iff.1 hh
  have hpen : p.penned? (.transmit i n) =
      if (left.drop n).isEmpty then some (.finishes w) else none := by
    rw [penned?, hh]
    rfl
  split at h <;> cases h
  have hdesk := desk?_afterWrite hh hl (left.drop n)
  rw [hpen]
  cases hn : (left.drop n).isEmpty with
  | false =>
    rw [hn] at hdesk
    refine .writes hi hn (desks_of_links rfl rfl hdesk) (Posts.map_modify (fun x ↦ ?_) _ _) rfl
    rw [Wire.write, hn]
    rfl
  | true =>
    rw [hn] at hdesk
    have hleft : left.take n = left := by
      have := List.take_append_drop n left
      rwa [List.isEmpty_iff.1 hn, List.append_nil] at this
    refine .finishes hi (desks_of_links rfl rfl hdesk) (Posts.map_modify (fun x ↦ ?_) _ _) rfl
    rw [Wire.write, hn, hleft]
    rfl

private theorem writes_failWrite (h : p.failWrite now i = some q) :
    p.Writes q (p.penned? (.failWrite i)) := by
  obtain ⟨⟨w, f, left⟩, hh, h⟩ := Option.bind_eq_some_iff.1 h
  obtain ⟨l, hl, h⟩ := Option.bind_eq_some_iff.1 h
  have hi := held?_eq_some_iff.1 hh
  have hpen : p.penned? (.failWrite i) = some (.fails w) := by
    rw [penned?, hh]
    rfl
  have hdesk := getElem?_desks hl
  rw [hi] at hdesk
  rw [hpen]
  simp only at h
  split at h
  · cases h
    exact .fails hi (.inl rfl) (desks_of_links rfl rfl rfl) (sheets_of_same rfl fun _ ↦ rfl) rfl
  · next s hs =>
    cases h
    rw [desk?_of_serving hs, Option.some.injEq, Option.some.injEq, Prod.mk.injEq] at hdesk
    rw [hdesk.1] at hi ⊢
    exact .fails hi (.inr rfl) (desks_of_links rfl rfl rfl) (sheets_of_same rfl fun _ ↦ rfl) rfl
  · cases h

private theorem writes_fetchOutbound (h : p.fetchOutbound i = some q) :
    p.Writes q (p.penned? (.fetchOutbound i)) := by
  obtain ⟨⟨l, s⟩, hs, h⟩ := Option.bind_eq_some_iff.1 h
  obtain ⟨hl, hp⟩ := serving_of_service? hs
  simp only at h
  split at h
  · cases h
  · next hw =>
    have hidle : s.writer = .idle := Decidable.not_not.1 fun hne ↦ hw (.inl hne)
    have hi := getElem?_desks hl
    rw [desk?_of_serving hp, hidle] at hi
    split at h
    · next f system hr =>
      cases h
      have hpen : p.penned? (.fetchOutbound i) = some (.takes s.wire false f) := by
        simp [penned?, hs, hr]
      rw [hpen]
      exact .takes hi (desks_of_links rfl rfl rfl) rfl rfl
    · next hr =>
      obtain ⟨⟨f, outbound⟩, ho, h⟩ := Option.bind_eq_some_iff.1 h
      cases h
      have hpen : p.penned? (.fetchOutbound i) = some (.takes s.wire true f) := by
        simp [penned?, hs, hr, ho]
      rw [hpen]
      exact .takes hi (desks_of_links rfl rfl rfl) rfl ho

private theorem writes_stopWriter (h : p.stopWriter i = some q) : p.Writes q none := by
  obtain ⟨⟨l, s⟩, hs, h⟩ := Option.bind_eq_some_iff.1 h
  obtain ⟨hl, hp⟩ := serving_of_service? hs
  have hi := getElem?_desks hl
  rw [desk?_of_serving hp] at hi
  simp only at h
  split at h <;> cases h
  next hw =>
  exact .leaves hi (.inl hw.1) (.inr rfl) (desks_of_links rfl rfl rfl)
    (sheets_of_same rfl fun _ ↦ rfl)
    rfl

private theorem writes_conclude (h : p.conclude now i = some q) : p.Writes q none := by
  obtain ⟨⟨l, s⟩, hs, h⟩ := Option.bind_eq_some_iff.1 h
  obtain ⟨hl, hp⟩ := serving_of_service? hs
  have hi := getElem?_desks hl
  rw [desk?_of_serving hp] at hi
  simp only at h
  split at h
  · next hended =>
    split at h <;> cases h
    · exact .leaves hi (.inr hended.2.2.1) (.inl rfl) (desks_of_links rfl rfl rfl) rfl rfl
    · exact .leaves hi (.inr hended.2.2.1) (.inl rfl) (desks_of_links rfl rfl rfl) rfl rfl
  · cases h

/-- What the links do to the frames that go out. -/
theorem writes_of_move? {m : Move} (h : p.move? now m = some q) : p.Writes q (p.penned? m) := by
  cases m with
  | connect i => exact writes_connect h
  | transmit i n => exact writes_transmit h
  | failWrite i => exact writes_failWrite h
  | fetchOutbound i => exact writes_fetchOutbound h
  | stopWriter i => exact writes_stopWriter h
  | conclude i => exact writes_conclude h
  | read i => exact .rests (sameDesks_read h)
  | readLast i => exact .rests (sameDesks_readLast h)
  | stopWorker i w => exact .rests (sameDesks_stopWorker h)
  | tick => exact .rests (sameDesks_tick h)
  | refuse i | wake i | halt i =>
    obtain ⟨l, hl, h⟩ := Option.bind_eq_some_iff.1 h
    repeat' split at h
    all_goals cases h
    all_goals exact .rests (.of_desk?_eq rfl hl rfl (by simp only [Link.desk?, *]) rfl rfl)
  | readOn i | stopReader i | supervise i final =>
    obtain ⟨⟨l, s⟩, hs, h⟩ := Option.bind_eq_some_iff.1 h
    simp only at h
    repeat' split at h
    all_goals cases h
    all_goals exact .rests (.of_service rfl hs rfl rfl rfl rfl rfl)
  | stopTicker =>
    simp only [move?, stopTicker] at h
    split at h
    · split at h <;> cases h
      exact .rests ⟨rfl, rfl, rfl⟩
    · cases h

end Pool

end EdgeGateway
