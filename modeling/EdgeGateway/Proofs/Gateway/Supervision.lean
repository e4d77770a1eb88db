import EdgeGateway.Gateway.Supervision

/-!
# What comes of supervision

Whatever the handler, the client, the socket and those who hold a connection do, its history has a
certain shape. `Leads` says once what every event asks for and does. From it come four things that
every event keeps: the milestones of a history are those up to the stage that is reached
(`milestones_eq`), so are the steps of the closing (`closings_eq`), the tasks are at work only while
the connection is served (`Staffed`), and what was accepted is what was handed to the socket and
behind it what is queued, as long as the writer has not ended (`Flow`). `supervised_of_run` puts
them together.

A connection may accept a message although a call that closes it has returned: whoever comes second
does not wait for the first (`accepted_after_close`). `Supervised.late_iff` says when that happens.
-/

namespace EdgeGateway

namespace Supervision

/-! ### Events -/

/-- The reader or the writer does this. -/
def Event.ByTask : Event → Prop
  | .called _ | .returned _ | .readerEnded | .handed _ | .written | .writerEnded => True
  | _ => False

/-- The connection comes to another stage. -/
def Event.isMilestone : Event → Bool
  | .created | .registered | .deregistered | .notified | .retired => true
  | _ => false

/-- The milestones on the way to a stage. -/
def Stage.course : Stage → List Event
  | made => []
  | created => [.created]
  | serving => [.created, .registered]
  | deregistered => [.created, .registered, .deregistered]
  | parted => [.created, .registered, .deregistered, .notified]
  | retired => [.created, .registered, .deregistered, .notified, .retired]

/-- The connection is closed a step further, by whoever is the first to do so. -/
def Event.isClosing : Event → Bool
  | .marked | .sealed | .signalled | .closed true => true
  | _ => false

/-- What has been done by somebody who has come so far with closing. -/
def Closure.course : Closure → List Event
  | unmarked => []
  | marked => [.marked]
  | sealed => [.marked, .sealed]
  | signalled => [.marked, .sealed, .signalled]
  | done => [.marked, .sealed, .signalled, .closed true]

/-- The tasks do not run yet. -/
def Stage.Early (a : Stage) : Prop := a = .made ∨ a = .created

/-- What was given to the socket. -/
def given (es : List Event) : List Outgoing :=
  es.filterMap fun
    | .handed o => some o
    | _ => none

/-- What an event asks for and what it does. -/
inductive Leads (s : Supervision) : Event → Supervision → Prop
  | created : s.stage = .made → Leads s .created { s with stage := .created }
  | registered : s.stage = .created → Leads s .registered { s with stage := .serving }
  | called (m : Message) : s.stage = .serving → s.reader = .listening →
    Leads s (.called m) { s with reader := .handling }
  | returned (v : Verdict) : s.reader = .handling →
    Leads s (.returned v) { s with reader := v.reader }
  | readerEnded : s.stage = .serving → s.reader = .listening →
    Leads s .readerEnded { s with reader := .ended }
  | accepted (m : Message) : ¬ s.closure.Sealed → s.conn.abandoned = false →
    s.conn.queue.length < s.conn.capacity →
    Leads s (.accepted m) { s with conn := { s.conn with queue := s.conn.queue ++ [m] } }
  | marked : s.conn.closed = false →
    Leads s .marked { s with conn := s.conn.close, closure := .marked }
  | sealed : s.closure = .marked → Leads s .sealed { s with closure := .sealed }
  | signalled : s.closure = .sealed → Leads s .signalled { s with closure := .signalled }
  | closedFirst : s.closure = .signalled → Leads s (.closed true) { s with closure := .done }
  | closedAgain : s.conn.closed = true → Leads s (.closed false) s
  | session (sid uid : UInt64) (status : Status) :
    Leads s (.session sid uid status) { s with conn := { s.conn with sid, uid, status } }
  | handed {o : Outgoing} {c : Connection} {w : Writer} : s.stage = .serving →
    s.writer = .idle → s.give? o = some (c, w) →
    Leads s (.handed o) { s with conn := c, writer := w, handed := s.handed ++ [o] }
  | written : s.writer = .writing → Leads s .written { s with writer := .idle }
  | writerEnded : s.writer = .writing ∨ s.writer = .closing →
    Leads s .writerEnded { s with writer := .ended, conn := s.conn.abandon }
  | deregistered : s.stage = .serving → s.reader = .ended → s.writer = .ended →
    s.conn.closed = true → Leads s .deregistered { s with stage := .deregistered }
  | notified : s.stage = .deregistered → Leads s .notified { s with stage := .parted }
  | retired : s.stage = .parted →
    Leads s .retired { s with stage := .retired, conn := s.conn.setStatus .close }

variable {s t : Supervision} {e : Event} {es l r : List Event} {cid : UInt64} {capacity : Nat}

/-- A message is queued unless the queue has been shut, nobody takes from it or it is full. -/
theorem send_eq_ok_iff {m : Message} :
    s.send m = .ok t ↔ ¬ s.closure.Sealed ∧ s.conn.abandoned = false ∧
      s.conn.queue.length < s.conn.capacity ∧
      t = { s with conn := { s.conn with queue := s.conn.queue ++ [m] } } := by
  constructor
  · intro h
    unfold send at h
    split at h
    · cases h
    · next hs =>
      split at h <;> cases h
      next hq =>
      obtain ⟨hs, ha⟩ := not_or.1 hs
      exact ⟨hs, Bool.not_eq_true _ ▸ ha, hq, rfl⟩
  · rintro ⟨hs, ha, hq, rfl⟩
    rw [send, if_neg (not_or.2 ⟨hs, by rw [ha]; rintro ⟨⟩⟩), if_pos hq]

/-- As long as nobody is in the middle of closing it, a connection takes what an open one does. -/
theorem send_of_settled (h : s.conn.closed = true ↔ s.closure.Sealed) (m : Message) :
    s.send m = (s.conn.send m).map fun conn ↦ { s with conn } := by
  simp only [send, Connection.send, h]
  split
  · rfl
  · split <;> rfl

/-- An event that happens finds what it asks for and does what it does. -/
theorem leads_of_step (h : s.step? e = some t) : s.Leads e t := by
  cases e with
  | marked =>
    simp only [step?] at h
    split at h <;> cases h
    next hc => exact .marked (Bool.not_eq_true _ ▸ hc)
  | sealed =>
    obtain ⟨hc, h⟩ := Option.ite_none_right_eq_some.1 h
    cases h
    exact .sealed hc
  | signalled =>
    obtain ⟨hc, h⟩ := Option.ite_none_right_eq_some.1 h
    cases h
    exact .signalled hc
  | closed first =>
    cases first with
    | true =>
      obtain ⟨hc, h⟩ := Option.ite_none_right_eq_some.1 h
      cases h
      exact .closedFirst hc
    | false =>
      obtain ⟨hc, h⟩ := Option.ite_none_right_eq_some.1 h
      cases h
      exact .closedAgain hc
  | session sid uid status =>
    cases h
    exact .session sid uid status
  | accepted m =>
    simp only [step?] at h
    split at h <;> cases h
    next hs =>
    obtain ⟨hopen, ha, hroom, rfl⟩ := send_eq_ok_iff.1 hs
    exact .accepted m hopen ha hroom
  | handed o =>
    obtain ⟨⟨hs, hw⟩, h⟩ := Option.ite_none_right_eq_some.1 h
    obtain ⟨⟨c, w⟩, hg, rfl⟩ := Option.map_eq_some_iff.1 h
    exact .handed hs hw hg
  | created =>
    obtain ⟨hs, h⟩ := Option.ite_none_right_eq_some.1 h
    cases h
    exact .created hs
  | registered =>
    obtain ⟨hs, h⟩ := Option.ite_none_right_eq_some.1 h
    cases h
    exact .registered hs
  | called m =>
    obtain ⟨⟨hs, hr⟩, h⟩ := Option.ite_none_right_eq_some.1 h
    cases h
    exact .called m hs hr
  | returned v =>
    obtain ⟨hr, h⟩ := Option.ite_none_right_eq_some.1 h
    cases h
    exact .returned v hr
  | readerEnded =>
    obtain ⟨⟨hs, hr⟩, h⟩ := Option.ite_none_right_eq_some.1 h
    cases h
    exact .readerEnded hs hr
  | written =>
    obtain ⟨hw, h⟩ := Option.ite_none_right_eq_some.1 h
    cases h
    exact .written hw
  | writerEnded =>
    obtain ⟨hw, h⟩ := Option.ite_none_right_eq_some.1 h
    cases h
    exact .writerEnded hw
  | deregistered =>
    obtain ⟨⟨hs, hr, hw, hc⟩, h⟩ := Option.ite_none_right_eq_some.1 h
    cases h
    exact .deregistered hs hr hw hc
  | notified =>
    obtain ⟨hs, h⟩ := Option.ite_none_right_eq_some.1 h
    cases h
    exact .notified hs
  | retired =>
    obtain ⟨hs, h⟩ := Option.ite_none_right_eq_some.1 h
    cases h
    exact .retired hs

/-- What can be given to the socket: the message in front of the queue, a ping, or a close when
nothing is queued and nothing will be. -/
theorem give?_eq_some_iff {d : Connection} {o : Outgoing} {w : Writer} :
    s.give? o = some (d, w) ↔
      (∃ m, o = .message m ∧ s.conn.queue = m :: d.queue ∧
        d = { s.conn with queue := d.queue } ∧
        w = .writing) ∨
      (o = .ping ∧ d = s.conn ∧ w = .writing) ∨
      (o = .close ∧ s.closure.Sealed ∧ s.conn.queue = [] ∧ d = s.conn ∧ w = .closing) := by
  constructor
  · intro h
    cases o with
    | message m =>
      simp only [give?, Connection.pop] at h
      split at h
      · next hp =>
        split at hp <;> cases hp
        split at h <;> cases h
        next hq hm => exact .inl ⟨m, rfl, hm ▸ hq, rfl, rfl⟩
      · cases h
    | ping =>
      cases h
      exact .inr (.inl ⟨rfl, rfl, rfl⟩)
    | close =>
      obtain ⟨⟨hc, hq⟩, h⟩ := Option.ite_none_right_eq_some.1 h
      cases h
      exact .inr (.inr ⟨rfl, hc, hq, rfl, rfl⟩)
  · rintro (⟨m, rfl, hq, hd, rfl⟩ | ⟨rfl, rfl, rfl⟩ | ⟨rfl, hc, hq, rfl, rfl⟩)
    · simp only [give?, Connection.pop, hq, if_true]
      rw [← hd]
    · rfl
    · simp [give?, hc, hq]

private theorem ne_ended_of_give {d : Connection} {o : Outgoing} {w : Writer}
    (h : s.give? o = some (d, w)) : w ≠ .ended := by
  rcases give?_eq_some_iff.1 h with ⟨m, -, -, -, rfl⟩ | ⟨-, -, rfl⟩
    | ⟨-, -, -, -, rfl⟩ <;> rintro ⟨⟩

/-! ### Stages -/

/-- The supervisor passes its stages in order, each once. -/
theorem milestones_eq (h : (start cid capacity).run? es = some s) :
    es.filter Event.isMilestone = s.stage.course := by
  refine run_induction (P := fun es s ↦ es.filter Event.isMilestone = s.stage.course) rfl ?_ h
  intro es s e t ih hstep
  rw [List.filter_append, ih]
  cases leads_of_step hstep with
  | created hs | registered hs | deregistered hs | notified hs | retired hs =>
    rw [hs]
    rfl
  | _ => exact List.append_nil _

private theorem mem_of_mem_course (h : (start cid capacity).run? es = some s)
    (he : e ∈ s.stage.course) : e ∈ es := by
  rw [← milestones_eq h] at he
  exact (List.mem_filter.1 he).1

private theorem count_notified (h : (start cid capacity).run? es = some s) :
    es.count .notified = s.stage.course.count .notified := by
  rw [← milestones_eq h]
  exact (List.count_filter rfl).symm

/-! ### The closing -/

/-- A connection counts as closed once somebody has marked it, and whoever did takes the further
steps in order, each once. -/
structure Closing (es : List Event) (s : Supervision) : Prop where
  marked_iff : s.conn.closed = true ↔ s.closure ≠ .unmarked
  course : es.filter Event.isClosing = s.closure.course

private theorem Closing.step (hc : Closing es s) (h : s.step? e = some t) :
    Closing (es ++ [e]) t := by
  obtain ⟨hm, hcourse⟩ := hc
  have other : e.isClosing = false → (es ++ [e]).filter Event.isClosing = s.closure.course := by
    intro he
    rw [List.filter_append, hcourse, List.filter_cons_of_neg (by rw [he]; rintro ⟨⟩)]
    exact List.append_nil _
  have more {a : Closure} (ha : s.closure = a) (he : e.isClosing = true) :
      (es ++ [e]).filter Event.isClosing = a.course ++ [e] := by
    rw [List.filter_append, hcourse, ha, List.filter_cons_of_pos he]
    rfl
  cases leads_of_step h with
  | marked hc =>
    have hu : s.closure = .unmarked := Decidable.not_not.1 fun hne ↦ by
      rw [hm.2 hne] at hc
      cases hc
    exact ⟨⟨fun _ ↦ by rintro ⟨⟩, fun _ ↦ rfl⟩, more hu rfl⟩
  | sealed hc | signalled hc | closedFirst hc =>
    exact ⟨⟨fun _ ↦ by rintro ⟨⟩, fun _ ↦ hm.2 (by rw [hc]; rintro ⟨⟩)⟩,
      more hc rfl⟩
  | handed _ _ hg =>
    refine ⟨?_, other rfl⟩
    rcases give?_eq_some_iff.1 hg with ⟨m, -, -, hd, -⟩ | ⟨-, rfl, -⟩
      | ⟨-, -, -, rfl, -⟩
    · rw [hd]
      exact hm
    · exact hm
    · exact hm
  | _ => exact ⟨hm, other rfl⟩

private theorem closing_start (cid : UInt64) (capacity : Nat) : Closing [] (start cid capacity) :=
  ⟨⟨by rintro ⟨⟩, fun hne ↦ absurd rfl hne⟩, rfl⟩

/-- How far the closing has come is what its history says. -/
theorem closing (h : (start cid capacity).run? es = some s) : Closing es s :=
  run_induction (closing_start cid capacity) Closing.step h

private theorem Closing.mem_iff (hc : Closing es s) (he : e.isClosing = true) :
    e ∈ es ↔ e ∈ s.closure.course := by
  rw [← hc.course, List.mem_filter, and_iff_left he]

private theorem Closing.sealed_iff (hc : Closing es s) : .sealed ∈ es ↔ s.closure.Sealed := by
  rw [hc.mem_iff rfl]
  cases s.closure <;> decide

private theorem Closing.sealed_of_first (hc : Closing es s) (hmem : .closed true ∈ es) :
    s.closure.Sealed := by
  rw [hc.mem_iff rfl] at hmem
  revert hmem
  cases s.closure <;> decide

private theorem Closing.marked_mem (hc : Closing es s)
    (hcl : s.conn.closed = true) : .marked ∈ es := by
  have hne := hc.marked_iff.1 hcl
  rw [hc.mem_iff rfl]
  revert hne
  cases s.closure <;> decide

private theorem unsealed_of_accepted {m : Message}
    (h : (start cid capacity).run? (l ++ .accepted m :: r) = some s) :
    .sealed ∉ l ∧ .closed true ∉ l := by
  obtain ⟨b, c, hb, hstep, -⟩ := run_split h
  cases leads_of_step hstep with
  | accepted _ hopen =>
    exact ⟨mt (closing hb).sealed_iff.1 hopen, mt (closing hb).sealed_of_first hopen⟩

private theorem marked_of_again (h : (start cid capacity).run? (l ++ .closed false :: r) = some s) :
    .marked ∈ l := by
  obtain ⟨b, c, hb, hstep, -⟩ := run_split h
  cases leads_of_step hstep with
  | closedAgain hc => exact (closing hb).marked_mem hc

/-- A message has been accepted although a call that closes the connection had returned. -/
def AcceptedLate (es : List Event) : Prop :=
  ∃ l r first m, es = l ++ .closed first :: r ∧ .accepted m ∈ r

/-- That happens just when a call that was not the first returns after the connection was marked,
and the message is accepted before whoever marked it has shut the queue. -/
theorem acceptedLate_iff (h : (start cid capacity).run? es = some s) :
    AcceptedLate es ↔
      ∃ l u r m, es = l ++ .marked :: (u ++ .accepted m :: r) ∧ .closed false ∈ u ∧
        .sealed ∉ u := by
  constructor
  · rintro ⟨l, r, first, m, rfl, hm⟩
    obtain ⟨u, r, rfl⟩ := List.append_of_mem hm
    have hno := unsealed_of_accepted (l := l ++ .closed first :: u) (by simpa using h)
    cases first with
    | true => exact absurd (by simp) hno.2
    | false =>
      obtain ⟨k, v, rfl⟩ := List.append_of_mem (marked_of_again h)
      refine ⟨k, v ++ .closed false :: u, r, m, by simp, by simp, fun hs ↦ hno.1 ?_⟩
      rw [List.append_assoc]
      exact List.mem_append_right _ (List.mem_cons_of_mem _ hs)
  · rintro ⟨l, u, r, m, rfl, hc, -⟩
    obtain ⟨v, w, rfl⟩ := List.append_of_mem hc
    exact ⟨l ++ .marked :: v, w ++ .accepted m :: r, false, m, by simp, by simp⟩

/-- What is said to the members of a room. -/
def broadcast : Message := .make .roomBroadcast 3 42 []

/-- The client leaves while somebody else is closing the connection. The supervisor finds it closed
already, a worker still has a message for the client, and only then is the queue shut. -/
def overlap : List Event :=
  [.created, .registered, .readerEnded, .marked, .closed false, .accepted broadcast, .sealed,
    .signalled, .closed true, .handed (.message broadcast), .written, .handed .close, .writerEnded,
    .deregistered, .notified, .retired]

/-- A call that closes the connection has returned, and a message is accepted nevertheless. -/
theorem accepted_after_close :
    (∃ s, (start 1 1).run? overlap = some s ∧ s.stage = .retired ∧
      s.handed = [.message broadcast, .close]) ∧
    ∃ l r, overlap = l ++ .closed false :: r ∧ .accepted broadcast ∈ r := by
  refine ⟨⟨_, rfl, rfl, rfl⟩, [.created, .registered, .readerEnded, .marked], _, rfl, ?_⟩
  exact List.mem_cons_self

/-! ### Tasks -/

/-- The tasks are at work only while the connection is served, and have ended by something that
happened. -/
structure Staffed (es : List Event) (s : Supervision) : Prop where
  early : s.stage.Early → s.reader = .listening ∧ s.writer = .idle
  reader : s.reader = .ended → ∃ e ∈ es, e.EndsReader
  writer : s.writer = .ended → .writerEnded ∈ es

private theorem Staffed.step (hs : Staffed es s) (h : s.step? e = some t) :
    Staffed (es ++ [e]) t := by
  have reader : s.reader = .ended → ∃ x ∈ es ++ [e], x.EndsReader := by
    intro hr
    obtain ⟨x, hx, he⟩ := hs.reader hr
    exact ⟨x, List.mem_append_left _ hx, he⟩
  have writer : s.writer = .ended → .writerEnded ∈ es ++ [e] :=
    fun hw ↦ List.mem_append_left _ (hs.writer hw)
  have last : e.EndsReader → ∃ x ∈ es ++ [e], x.EndsReader := fun he ↦ ⟨e, by simp, he⟩
  have served : s.stage = .serving → ¬ s.stage.Early := by
    rintro hv (he | he) <;> cases hv.symm.trans he
  cases leads_of_step h with
  | created hm => exact ⟨fun _ ↦ hs.early (.inl hm), reader, writer⟩
  | registered | deregistered | notified | retired =>
    refine ⟨?_, reader, writer⟩
    rintro (he | he) <;> cases he
  | called m hv => exact ⟨fun he ↦ absurd he (served hv), nofun, writer⟩
  | returned v hr =>
    refine ⟨fun he ↦ ?_, fun hv ↦ last ?_, writer⟩
    · cases hr.symm.trans (hs.early he).1
    · cases v with
      | goOn => cases hv
      | disconnect => exact .inr (.inl rfl)
      | panic => exact .inr (.inr rfl)
  | readerEnded hv =>
    exact ⟨fun he ↦ absurd he (served hv), fun _ ↦ last (.inl rfl), writer⟩
  | handed hv hw hg =>
    exact ⟨fun he ↦ absurd he (served hv), reader, fun hx ↦ absurd hx (ne_ended_of_give hg)⟩
  | written hw => exact ⟨fun he ↦ ⟨(hs.early he).1, rfl⟩, reader, nofun⟩
  | writerEnded hw =>
    refine ⟨fun he ↦ ?_, reader, fun _ ↦ by simp⟩
    obtain ⟨-, hi⟩ := hs.early he
    rcases hw with hw | hw <;> cases hw.symm.trans hi
  | accepted | marked | sealed | signalled | closedFirst | closedAgain | session =>
    exact ⟨hs.early, reader, writer⟩

/-- In every run the tasks are at work only while the connection is served. -/
theorem staffed (h : (start cid capacity).run? es = some s) : Staffed es s :=
  run_induction ⟨fun _ ↦ ⟨rfl, rfl⟩, by rintro ⟨⟩, by rintro ⟨⟩⟩ Staffed.step h

/-- Tasks that have ended do nothing any more. -/
theorem rest_of_ended (hr : s.reader = .ended) (hw : s.writer = .ended) (h : s.run? es = some t) :
    t.reader = .ended ∧ t.writer = .ended ∧ ∀ e ∈ es, ¬ e.ByTask := by
  refine run_induction
    (P := fun es t ↦ t.reader = .ended ∧ t.writer = .ended ∧ ∀ e ∈ es, ¬ e.ByTask)
    ⟨hr, hw, List.forall_mem_nil _⟩ ?_ h
  rintro es s e t ⟨hr, hw, hes⟩ hstep
  have rest : ¬ e.ByTask → ∀ x ∈ es ++ [e], ¬ x.ByTask :=
    fun he ↦ List.forall_mem_append.2 ⟨hes, List.forall_mem_singleton.2 he⟩
  cases leads_of_step hstep with
  | called m hv hl | readerEnded hv hl | returned v hl => cases hl.symm.trans hr
  | handed hv hi | written hi => cases hi.symm.trans hw
  | writerEnded hi => rcases hi with hi | hi <;> cases hi.symm.trans hw
  | _ => exact ⟨hr, hw, rest id⟩

private theorem returned_of_handling (hr : s.reader = .handling) (h : s.run? es = some t) :
    t.reader = .handling ∨ ∃ v, .returned v ∈ es := by
  refine run_induction (P := fun es t ↦ t.reader = .handling ∨ ∃ v, .returned v ∈ es)
    (.inl hr) ?_ h
  rintro es s e t ih hstep
  rcases ih with ih | ⟨v, hv⟩
  · cases leads_of_step hstep with
    | called m hv hl | readerEnded hv hl => cases hl.symm.trans ih
    | returned v => exact .inr ⟨v, by simp⟩
    | _ => exact .inl ih
  · exact .inr ⟨v, List.mem_append_left _ hv⟩

/-! ### The queue -/

private theorem given_append (l r : List Event) : given (l ++ r) = given l ++ given r :=
  List.filterMap_append

private theorem accepted_append (l r : List Event) : accepted (l ++ r) = accepted l ++ accepted r :=
  List.filterMap_append

private theorem messages_append (l r : List Outgoing) :
    messages (l ++ r) = messages l ++ messages r :=
  List.filterMap_append

/-- What is given to the socket is what was accepted, in order, and a close comes behind all of it.
-/
structure Flow (es : List Event) (s : Supervision) : Prop where
  given_eq : given es = s.handed
  whole : s.writer ≠ .ended → accepted es = messages s.handed ++ s.conn.queue
  prefixed : messages s.handed <+: accepted es
  abandoned : s.writer = .ended → s.conn.abandoned = true
  unclosed : s.writer = .idle ∨ s.writer = .writing → .close ∉ s.handed
  flushed : .close ∈ s.handed → s.closure.Sealed ∧ messages s.handed = accepted es ∧
    ∃ l, s.handed = l ++ [.close] ∧ .close ∉ l

private theorem Flow.keep (hf : Flow es s) (ha : accepted [e] = []) (hg : given [e] = [])
    (hh : t.handed = s.handed) (hq : t.conn.queue = s.conn.queue)
    (hb : t.conn.abandoned = s.conn.abandoned) (hc : s.closure.Sealed → t.closure.Sealed)
    (hw : t.writer = s.writer ∨ s.writer = .writing ∧ t.writer = .idle) :
    Flow (es ++ [e]) t := by
  have hacc : accepted (es ++ [e]) = accepted es := by
    rw [accepted_append, ha, List.append_nil]
  have hended : t.writer = .ended ↔ s.writer = .ended := by
    rcases hw with hw | ⟨hw, hw'⟩
    · rw [hw]
    · rw [hw, hw']
      exact ⟨by rintro ⟨⟩, by rintro ⟨⟩⟩
  refine ⟨?_, ?_, ?_, ?_, ?_, ?_⟩
  · rw [given_append, hg, hf.given_eq, hh, List.append_nil]
  · intro hne
    rw [hacc, hh, hq]
    exact hf.whole (mt hended.2 hne)
  · rw [hacc, hh]
    exact hf.prefixed
  · intro he
    rw [hb]
    exact hf.abandoned (hended.1 he)
  · intro hi
    rw [hh]
    rcases hw with hw | ⟨hw, -⟩
    · exact hf.unclosed (hw ▸ hi)
    · exact hf.unclosed (.inr hw)
  · intro hx
    rw [hh] at hx ⊢
    rw [hacc]
    obtain ⟨h₁, h₂, h₃⟩ := hf.flushed hx
    exact ⟨hc h₁, h₂, h₃⟩

private theorem Flow.accept (hf : Flow es s) (m : Message) (hopen : ¬ s.closure.Sealed)
    (ha : s.conn.abandoned = false) :
    Flow (es ++ [.accepted m]) { s with conn := { s.conn with queue := s.conn.queue ++ [m] } } := by
  have hw : s.writer ≠ .ended := by
    intro hw
    rw [hf.abandoned hw] at ha
    cases ha
  refine ⟨?_, ?_, ?_, ?_, hf.unclosed, ?_⟩
  · rw [given_append, hf.given_eq]
    exact List.append_nil _
  · intro _
    rw [accepted_append, hf.whole hw, List.append_assoc]
    rfl
  · rw [accepted_append]
    exact hf.prefixed.trans (List.prefix_append _ _)
  · exact fun he ↦ absurd he hw
  · exact fun hx ↦ absurd (hf.flushed hx).1 hopen

private theorem Flow.hand {o : Outgoing} {c : Connection} {w : Writer} (hf : Flow es s)
    (hi : s.writer = .idle) (hg : s.give? o = some (c, w)) :
    Flow (es ++ [.handed o]) { s with conn := c, writer := w, handed := s.handed ++ [o] } := by
  have hacc : accepted (es ++ [.handed o]) = accepted es := by
    rw [accepted_append]
    exact List.append_nil _
  have hgiven : given (es ++ [.handed o]) = s.handed ++ [o] := by
    rw [given_append, hf.given_eq]
    rfl
  have hwhole : accepted es = messages s.handed ++ s.conn.queue :=
    hf.whole (by rw [hi]; rintro ⟨⟩)
  have hno : .close ∉ s.handed := hf.unclosed (.inl hi)
  -- A message goes from the queue to what is handed out, a ping leaves both alone, and a close
  -- finds the queue empty.
  rcases give?_eq_some_iff.1 hg with ⟨m, rfl, hq, -, rfl⟩ | ⟨rfl, rfl, rfl⟩
    | ⟨rfl, hc, hq, rfl, rfl⟩
  · have hno' : .close ∉ s.handed ++ [.message m] := by simp [hno]
    have hmore : accepted es = messages (s.handed ++ [.message m]) ++ c.queue := by
      rw [hwhole, hq, messages_append, List.append_assoc]
      rfl
    refine ⟨hgiven, fun _ ↦ ?_, ?_, by rintro ⟨⟩, fun _ ↦ hno',
      fun hx ↦ absurd hx hno'⟩
    · rw [hacc, hmore]
    · rw [hacc, hmore]
      exact List.prefix_append _ _
  · have hno' : .close ∉ s.handed ++ [.ping] := by simp [hno]
    have hsame : messages (s.handed ++ [.ping]) = messages s.handed := by
      rw [messages_append]
      exact List.append_nil _
    refine ⟨hgiven, fun _ ↦ ?_, ?_, by rintro ⟨⟩, fun _ ↦ hno',
      fun hx ↦ absurd hx hno'⟩
    · rw [hacc, hsame, hwhole]
    · rw [hacc, hsame]
      exact hf.prefixed
  · have hsame : messages (s.handed ++ [.close]) = messages s.handed := by
      rw [messages_append]
      exact List.append_nil _
    refine ⟨hgiven, fun _ ↦ ?_, ?_, by rintro ⟨⟩, ?_,
      fun _ ↦ ⟨hc, ?_, s.handed, rfl, hno⟩⟩
    · rw [hacc, hsame, hwhole]
    · rw [hacc, hsame]
      exact hf.prefixed
    · rintro (hx | hx) <;> cases hx
    · rw [hacc, hsame, hwhole, hq, List.append_nil]

private theorem Flow.finish (hf : Flow es s) :
    Flow (es ++ [.writerEnded]) { s with writer := .ended, conn := s.conn.abandon } := by
  have hacc : accepted (es ++ [.writerEnded]) = accepted es := by
    rw [accepted_append]
    exact List.append_nil _
  refine ⟨?_, fun hne ↦ absurd rfl hne, ?_, fun _ ↦ rfl, ?_, ?_⟩
  · rw [given_append, hf.given_eq]
    exact List.append_nil _
  · rw [hacc]
    exact hf.prefixed
  · rintro (hx | hx) <;> cases hx
  · rw [hacc]
    exact hf.flushed

private theorem Flow.step (hf : Flow es s) (hc : Closing es s) (h : s.step? e = some t) :
    Flow (es ++ [e]) t := by
  cases leads_of_step h with
  | accepted m hopen ha => exact hf.accept m hopen ha
  | handed _ hi hg => exact hf.hand hi hg
  | writerEnded => exact hf.finish
  | written hw => exact hf.keep rfl rfl rfl rfl rfl id (.inr ⟨hw, rfl⟩)
  | marked hopen =>
    refine hf.keep rfl rfl rfl rfl rfl (fun hs ↦ ?_) (.inl rfl)
    cases hopen.symm.trans (hc.marked_iff.2 hs.1)
  | sealed | signalled | closedFirst =>
    exact hf.keep rfl rfl rfl rfl rfl (fun _ ↦ ⟨by rintro ⟨⟩, by rintro ⟨⟩⟩)
      (.inl rfl)
  | _ => exact hf.keep rfl rfl rfl rfl rfl id (.inl rfl)

private theorem flow_start (cid : UInt64) (capacity : Nat) : Flow [] (start cid capacity) := by
  refine ⟨rfl, fun _ ↦ rfl, List.prefix_rfl, by rintro ⟨⟩, fun _ ↦ List.not_mem_nil, ?_⟩
  intro hx
  cases hx

/-- In every run what was accepted is what was handed out and what is queued. -/
theorem flow (h : (start cid capacity).run? es = some s) : Flow es s := by
  refine (run_induction (P := fun es s ↦ Closing es s ∧ Flow es s)
    ⟨closing_start cid capacity, flow_start cid capacity⟩ ?_ h).2
  rintro es s e t ⟨hc, hf⟩ hstep
  exact ⟨hc.step hstep, hf.step hc hstep⟩

/-! ### The whole -/

/-- What is asked of the supervision of a connection, by its history and the state to which that
leads. -/
structure Supervised (es : List Event) (s : Supervision) : Prop where
  /-- The handler knows of a connection before it is registered. -/
  created_first : ∀ {l r}, es = l ++ .registered :: r → .created ∈ l
  /-- The handler is called with messages of registered connections only. -/
  registered_first : ∀ {l r m}, es = l ++ .called m :: r → .registered ∈ l
  /-- One call returns before the next one. -/
  one_call : ∀ {l u r m m'}, es = l ++ .called m :: (u ++ .called m' :: r) →
    ∃ v, .returned v ∈ u
  /-- A connection is deregistered when both tasks have ended, and they do nothing from then on. -/
  ended_first : ∀ {l r}, es = l ++ .deregistered :: r →
    (∃ e ∈ l, e.EndsReader) ∧ .writerEnded ∈ l ∧ ∀ e ∈ r, ¬ e.ByTask
  deregistered_first : ∀ {l r}, es = l ++ .notified :: r → .deregistered ∈ l
  /-- The handler is not called any more once it knows of the end. -/
  uncalled : ∀ {l r m}, es = l ++ .notified :: r → .called m ∉ r
  /-- The handler hears of the end once: never twice, and by the time the supervisor is done. -/
  count_le : es.count .notified ≤ 1
  count_of_retired : s.stage = .retired → es.count .notified = 1
  /-- Once both tasks have ended nothing but the supervisor is needed for the rest. -/
  completes : s.reader = .ended → s.writer = .ended →
    ∃ fs t, (∀ e ∈ fs, e.BySupervisor) ∧ s.run? fs = some t ∧ t.stage = .retired ∧
      (es ++ fs).count .notified = 1
  /-- The messages given to the socket are the first of those that were accepted, in order. -/
  in_order : messages (given es) <+: accepted es
  /-- The others are still queued, unless the writer has ended. -/
  kept : s.writer ≠ .ended → accepted es = messages (given es) ++ s.conn.queue
  /-- A close is the last that is given to the socket, and every message that was accepted comes
  before it. -/
  flushed : ∀ {l r}, given es = l ++ .close :: r → r = [] ∧ .close ∉ l ∧
    messages l = accepted es
  /-- Nothing is accepted once the queue has been shut. -/
  refused : ∀ {l r m}, es = l ++ .sealed :: r → .accepted m ∉ r
  /-- Nor is it once the first call that closes the connection has returned. There is only one. -/
  refused_first : ∀ {l r m}, es = l ++ .closed true :: r → .accepted m ∉ r
  count_first_le : es.count (.closed true) ≤ 1
  /-- Any other returns only after the connection was marked. -/
  marked_first : ∀ {l r}, es = l ++ .closed false :: r → .marked ∈ l
  /-- Something is accepted after a call has returned just when that was not the first one, and the
  first one had not shut the queue by then. -/
  late_iff : AcceptedLate es ↔
    ∃ l u r m, es = l ++ .marked :: (u ++ .accepted m :: r) ∧ .closed false ∈ u ∧
      .sealed ∉ u

/-- Nothing but the supervisor is needed for the rest. -/
def Retires (s : Supervision) : Prop :=
  ∃ fs t, (∀ e ∈ fs, e.BySupervisor) ∧ s.run? fs = some t ∧ t.stage = .retired

private theorem Retires.cons (ht : t.Retires) (he : e.BySupervisor)
    (h : s.step? e = some t) : s.Retires := by
  obtain ⟨fs, u, hfs, hrun, hu⟩ := ht
  refine ⟨e :: fs, u, List.forall_mem_cons.2 ⟨he, hfs⟩, ?_, hu⟩
  exact Option.bind_eq_some_iff.2 ⟨t, h, hrun⟩

private theorem retires_of_parted (hs : s.stage = .parted) : s.Retires := by
  have hdone : Retires { s with stage := .retired, conn := s.conn.setStatus .close } :=
    ⟨[], _, List.forall_mem_nil _, rfl, rfl⟩
  exact hdone.cons (e := .retired) trivial (if_pos hs)

private theorem retires_of_deregistered (hs : s.stage = .deregistered) : s.Retires := by
  have hp : Retires { s with stage := .parted } := retires_of_parted rfl
  exact hp.cons (e := .notified) trivial (if_pos hs)

private theorem retires_of_closed (hs : s.stage = .serving) (hr : s.reader = .ended)
    (hw : s.writer = .ended) (hc : s.conn.closed = true) : s.Retires := by
  have hd : Retires { s with stage := .deregistered } := retires_of_deregistered rfl
  exact hd.cons (e := .deregistered) trivial (if_pos ⟨hs, hr, hw, hc⟩)

-- Where nobody has closed the connection the supervisor does, and where somebody has it need not
-- wait for whoever did.
private theorem retires_of_serving (hs : s.stage = .serving) (hr : s.reader = .ended)
    (hw : s.writer = .ended) : s.Retires := by
  cases hc : s.conn.closed with
  | true =>
    have hd := retires_of_closed hs hr hw hc
    exact hd.cons (e := .closed false) trivial (if_pos hc)
  | false =>
    have hd : Retires { s with conn := s.conn.close, closure := .done } :=
      retires_of_closed hs hr hw rfl
    have hr : Retires { s with conn := s.conn.close, closure := .signalled } :=
      hd.cons (e := .closed true) trivial rfl
    have hq : Retires { s with conn := s.conn.close, closure := .sealed } :=
      hr.cons (e := .signalled) trivial rfl
    have hm : Retires { s with conn := s.conn.close, closure := .marked } :=
      hq.cons (e := .sealed) trivial rfl
    exact hm.cons (e := .marked) trivial (if_neg (by rw [hc]; rintro ⟨⟩))

/-- The supervisor can finish what it does once both tasks have ended. -/
theorem retires_of_ended (h : (start cid capacity).run? es = some s) (hr : s.reader = .ended)
    (hw : s.writer = .ended) : s.Retires := by
  cases hs : s.stage with
  | made => cases hr.symm.trans ((staffed h).early (.inl hs)).1
  | created => cases hr.symm.trans ((staffed h).early (.inr hs)).1
  | serving => exact retires_of_serving hs hr hw
  | deregistered => exact retires_of_deregistered hs
  | parted => exact retires_of_parted hs
  | retired => exact ⟨[], s, List.forall_mem_nil _, rfl, hs⟩

private theorem ended_of_deregistered
    (h : (start cid capacity).run? (l ++ .deregistered :: r) = some s) :
    (∃ e ∈ l, e.EndsReader) ∧ .writerEnded ∈ l ∧ ∀ e ∈ r, ¬ e.ByTask := by
  obtain ⟨b, c, hb, hstep, hc⟩ := run_split h
  cases leads_of_step hstep with
  | deregistered hs hr hw =>
    have hrest : ∀ e ∈ r, ¬ e.ByTask :=
      (rest_of_ended (s := { b with stage := .deregistered }) hr hw hc).2.2
    exact ⟨(staffed hb).reader hr, (staffed hb).writer hw, hrest⟩

private theorem deregistered_of_notified
    (h : (start cid capacity).run? (l ++ .notified :: r) = some s) : .deregistered ∈ l := by
  obtain ⟨b, c, hb, hstep, -⟩ := run_split h
  cases leads_of_step hstep with
  | notified hs => exact mem_of_mem_course hb (by rw [hs]; decide)

private theorem uncalled_of_notified {m : Message}
    (h : (start cid capacity).run? (l ++ .notified :: r) = some s) : .called m ∉ r := by
  obtain ⟨u, v, rfl⟩ := List.append_of_mem (deregistered_of_notified h)
  rw [List.append_assoc] at h
  intro hm
  exact (ended_of_deregistered h).2.2 (.called m) (by simp [hm]) trivial

private theorem returned_of_called {u : List Event} {m m' : Message}
    (h : (start cid capacity).run? (l ++ .called m :: (u ++ .called m' :: r)) = some s) :
    ∃ v, .returned v ∈ u := by
  obtain ⟨b, c, -, hstep, h⟩ := run_split h
  obtain ⟨b', c', hu, hstep', -⟩ := run_split h
  have hc : c.reader = .handling := by
    cases leads_of_step hstep
    rfl
  have hl : b'.reader = .listening := by
    cases leads_of_step hstep' with
    | called _ _ hl => exact hl
  refine (returned_of_handling hc hu).resolve_left ?_
  rw [hl]
  rintro ⟨⟩

private theorem flushed_of_close {x y : List Outgoing} (h : (start cid capacity).run? es = some s)
    (he : given es = x ++ .close :: y) : y = [] ∧ .close ∉ x ∧ messages x = accepted es := by
  rw [(flow h).given_eq] at he
  obtain ⟨-, hm, k, hk, hno⟩ := (flow h).flushed (by rw [he]; simp)
  rw [he] at hk hm
  rcases List.eq_nil_or_concat y with rfl | ⟨y', o, rfl⟩
  · obtain ⟨rfl, -⟩ := List.append_inj' hk rfl
    rw [messages_append] at hm
    exact ⟨rfl, hno, (List.append_nil _).symm.trans hm⟩
  · -- A second thing behind the close would put that close among what comes before the last.
    rw [List.concat_eq_append, ← List.cons_append, ← List.append_assoc] at hk
    obtain ⟨rfl, -⟩ := List.append_inj' hk rfl
    exact absurd (by simp) hno

/-- Whatever comes before, between and behind, a history of a connection is as asked. -/
theorem supervised_of_run (h : (start cid capacity).run? es = some s) : Supervised es s := by
  refine ⟨?_, ?_, ?_, ?_, ?_, ?_, ?_, ?_, ?_, ?_, ?_, flushed_of_close h, ?_, ?_, ?_, ?_,
    acceptedLate_iff h⟩
  · rintro l r rfl
    obtain ⟨b, c, hb, hstep, -⟩ := run_split h
    cases leads_of_step hstep with
    | registered hs => exact mem_of_mem_course hb (by rw [hs]; decide)
  · rintro l r m rfl
    obtain ⟨b, c, hb, hstep, -⟩ := run_split h
    cases leads_of_step hstep with
    | called m hs => exact mem_of_mem_course hb (by rw [hs]; decide)
  · rintro l u r m m' rfl
    exact returned_of_called h
  · rintro l r rfl
    exact ended_of_deregistered h
  · rintro l r rfl
    exact deregistered_of_notified h
  · rintro l r m rfl
    exact uncalled_of_notified h
  · rw [count_notified h]
    cases s.stage <;> decide
  · intro hs
    rw [count_notified h, hs]
    decide
  · intro hr hw
    obtain ⟨fs, t, hfs, hrun, ht⟩ := retires_of_ended h hr hw
    have hall : (start cid capacity).run? (es ++ fs) = some t := by
      rw [run?_append, h]
      exact hrun
    refine ⟨fs, t, hfs, hrun, ht, ?_⟩
    rw [count_notified hall, ht]
    decide
  · rw [(flow h).given_eq]
    exact (flow h).prefixed
  · rw [(flow h).given_eq]
    exact (flow h).whole
  · rintro l r m rfl hm
    obtain ⟨u, r, rfl⟩ := List.append_of_mem hm
    have hno := unsealed_of_accepted (l := l ++ .sealed :: u) (by simpa using h)
    exact absurd (by simp) hno.1
  · rintro l r m rfl hm
    obtain ⟨u, r, rfl⟩ := List.append_of_mem hm
    have hno := unsealed_of_accepted (l := l ++ .closed true :: u) (by simpa using h)
    exact absurd (by simp) hno.2
  · rw [← List.count_filter (p := Event.isClosing) rfl, (closing h).course]
    cases s.closure <;> decide
  · rintro l r rfl
    exact marked_of_again h

end Supervision

end EdgeGateway
