import EdgeGateway.Proofs.Calls
import EdgeGateway.Connection.Basic

/-!
# Closing is final and loses nothing

All that is ever done to a connection is calls: a status is set, a session is given, messages are
queued, the connection is closed, the writer takes a message. They come from different tasks in any
order, and a close can fall between any two of them. `Connection.Orderly` says what the answers are,
whatever has been called before.
-/

namespace EdgeGateway

/-- What can be asked of a connection. -/
inductive ConnectionCall where
  | transition (before : List Status) (after : Status)
  | setStatus (status : Status)
  | logon (sid uid : UInt64)
  | send (m : Message)
  | close
  /-- The writer asks for the next message. -/
  | receive
  deriving Repr, DecidableEq

/-- What a connection answers. -/
inductive ConnectionAnswer where
  | done
  | failed (cause : Fault)
  | told (b : Bool)
  | taken (m : Message)
  /-- Nothing is queued, but there may be something later. -/
  | waiting
  /-- Nothing is queued, and nothing will be. -/
  | over
  deriving Repr, DecidableEq

namespace Connection

/-- A connection answers a call. What it refuses leaves it as it is. -/
def perform (c : Connection) : ConnectionCall → ConnectionAnswer × Connection
  | .transition before after =>
    match c.transition before after with
    | some d => (.told true, d)
    | none => (.told false, c)
  | .setStatus status => (.done, c.setStatus status)
  | .logon sid uid =>
    match c.logon sid uid with
    | some d => (.told true, d)
    | none => (.told false, c)
  | .send m =>
    match c.send m with
    | .ok d => (.done, d)
    | .error cause => (.failed cause, c)
  | .close => (.told (!c.closed), c.close)
  | .receive =>
    match c.pop with
    | some (m, d) => (.taken m, d)
    | none => (if c.closed then .over else .waiting, c)

/-! ### What has been called -/

/-- A new connection after some calls. -/
def after (cid : UInt64) (n : Nat) (calls : List ConnectionCall) : Connection :=
  (Calls.answers perform (.fresh cid n) calls).2

/-- The calls to a new connection, each with its answer. -/
def history (cid : UInt64) (n : Nat) (calls : List ConnectionCall) :
    List (ConnectionCall × ConnectionAnswer) :=
  Calls.log perform (.fresh cid n) calls

/-- The message that was queued by a call. -/
def accepted? : ConnectionCall × ConnectionAnswer → Option Message
  | (.send m, .done) => some m
  | _ => none

/-- The message that the writer got by a call. -/
def received? : ConnectionCall × ConnectionAnswer → Option Message
  | (.receive, .taken m) => some m
  | _ => none

variable {c : Connection} {cid sid uid : UInt64} {n : Nat} {calls : List ConnectionCall}
  {m : Message}

/-- Later calls go on from where the earlier ones have left the connection. -/
theorem after_append (cid : UInt64) (n : Nat) (l r : List ConnectionCall) :
    after cid n (l ++ r) = (Calls.answers perform (after cid n l) r).2 := by
  rw [after, Calls.answers_append]
  rfl

/-- One more call adds itself and its answer to the history. -/
theorem history_append_singleton (cid : UInt64) (n : Nat) (calls : List ConnectionCall)
    (call : ConnectionCall) : history cid n (calls ++ [call]) =
      history cid n calls ++ [(call, ((after cid n calls).perform call).1)] :=
  Calls.log_append ..

/-! ### One call -/

-- What a call can come to: the call with its answer, and the connection then.
private inductive Comes (c : Connection) :
    ConnectionCall × ConnectionAnswer → Connection → Prop
  /-- Nothing but the status changes, if anything does. -/
  | status {e : ConnectionCall × ConnectionAnswer} (status : Status) (hc : e.1 ≠ .close)
    (ha : accepted? e = none) (hr : received? e = none) : Comes c e (c.setStatus status)
  | logon (sid uid : UInt64) (hc : c.closed = false) :
    Comes c (.logon sid uid, .told true) { c with sid, uid, status := .logon }
  | send (m : Message) (hq : c.queue.length < c.capacity) :
    Comes c (.send m, .done) { c with queue := c.queue ++ [m] }
  | close : Comes c (.close, .told (!c.closed)) c.close
  | receive (m : Message) (rest : List Message) (hq : c.queue = m :: rest) :
    Comes c (.receive, .taken m) { c with queue := rest }

private theorem comes_perform (c : Connection) (call : ConnectionCall) :
    c.Comes (call, (c.perform call).1) (c.perform call).2 := by
  cases call with
  | transition before after =>
    cases ht : c.transition before after with
    | none =>
      simp only [perform, ht]
      exact .status c.status nofun rfl rfl
    | some d =>
      obtain ⟨-, hd⟩ := Option.ite_none_right_eq_some.1 ht
      cases hd
      simp only [perform, ht]
      exact .status after nofun rfl rfl
  | setStatus status => exact .status status nofun rfl rfl
  | logon sid uid =>
    cases hl : c.logon sid uid with
    | none =>
      simp only [perform, hl]
      exact .status c.status nofun rfl rfl
    | some d =>
      obtain ⟨-, hc, rfl⟩ := logon_eq_some_iff.1 hl
      simp only [perform, hl]
      exact .logon sid uid hc
  | send m =>
    cases hs : c.send m with
    | error cause =>
      simp only [perform, hs]
      exact .status c.status nofun rfl rfl
    | ok d =>
      obtain ⟨-, -, hq, rfl⟩ := send_eq_ok_iff.1 hs
      simp only [perform, hs]
      exact .send m hq
  | close => exact .close
  | receive =>
    cases hq : c.queue with
    | nil =>
      simp only [perform, pop, hq]
      refine .status c.status nofun rfl ?_
      split <;> rfl
    | cons m rest =>
      simp only [perform, pop, hq]
      exact .receive m rest hq

private theorem Comes.session {e : ConnectionCall × ConnectionAnswer} {d : Connection}
    (he : c.Comes e d) (h : c.closed = true) :
    d.closed = true ∧ d.sid = c.sid ∧ d.uid = c.uid := by
  cases he with
  | logon sid uid hc => cases h.symm.trans hc
  | close => exact ⟨rfl, rfl, rfl⟩
  | _ => exact ⟨h, rfl, rfl⟩

/-! ### All calls so far -/

-- What a connection has become, in terms of all that has been called.
private structure Records (cid : UInt64) (n : Nat) (c : Connection) (calls : List ConnectionCall)
    (log : List (ConnectionCall × ConnectionAnswer)) : Prop where
  number : c.cid = cid
  capacity : c.capacity = max n 1
  attended : c.abandoned = false
  closed_iff : c.closed = true ↔ .close ∈ calls
  room : c.queue.length ≤ max n 1
  lossless : log.filterMap accepted? = log.filterMap received? ++ c.queue

private theorem records_fresh (cid : UInt64) (n : Nat) : Records cid n (.fresh cid n) [] [] where
  number := rfl
  capacity := rfl
  attended := rfl
  closed_iff := by simp [fresh]
  room := Nat.zero_le _
  lossless := rfl

private theorem filterMap_of_none {log : List (ConnectionCall × ConnectionAnswer)}
    {e : ConnectionCall × ConnectionAnswer} {q : List Message}
    (h : log.filterMap accepted? = log.filterMap received? ++ q)
    (ha : accepted? e = none) (hr : received? e = none) :
    (log ++ [e]).filterMap accepted? = (log ++ [e]).filterMap received? ++ q := by
  rw [List.filterMap_append, List.filterMap_append, List.filterMap_cons_none ha,
    List.filterMap_cons_none hr]
  simpa using h

private theorem Records.comes {log : List (ConnectionCall × ConnectionAnswer)}
    {e : ConnectionCall × ConnectionAnswer} {d : Connection} (h : Records cid n c calls log)
    (he : c.Comes e d) : Records cid n d (calls ++ [e.1]) (log ++ [e]) := by
  have hclosed := h.closed_iff
  cases he with
  | status status hc ha hr =>
    refine ⟨h.number, h.capacity, h.attended, ?_, h.room, filterMap_of_none h.lossless ha hr⟩
    rw [List.mem_append, List.mem_singleton, or_iff_left hc.symm]
    exact hclosed
  | logon sid uid =>
    exact ⟨h.number, h.capacity, h.attended, by simpa using hclosed, h.room,
      filterMap_of_none h.lossless rfl rfl⟩
  | send m hq =>
    rw [h.capacity] at hq
    refine ⟨h.number, h.capacity, h.attended, by simpa using hclosed, ?_, ?_⟩
    · rw [List.length_append, List.length_singleton]
      exact hq
    · simp [List.filterMap_append, h.lossless, accepted?, received?]
  | close =>
    exact ⟨h.number, h.capacity, h.attended, by simp [Connection.close], h.room,
      filterMap_of_none h.lossless rfl rfl⟩
  | receive m rest hq =>
    have hroom := h.room
    rw [hq, List.length_cons] at hroom
    refine ⟨h.number, h.capacity, h.attended,
      by simpa using hclosed, Nat.le_of_succ_le hroom, ?_⟩
    simp [List.filterMap_append, h.lossless, hq, accepted?, received?]

private theorem records (cid : UInt64) (n : Nat) (calls : List ConnectionCall) :
    Records cid n (after cid n calls) calls (history cid n calls) :=
  Calls.log_induction (records_fresh cid n)
    (fun c _ _ call h ↦ h.comes (c.comes_perform call)) calls

private theorem session_of_closed (h : c.closed = true) (calls : List ConnectionCall) :
    (Calls.answers perform c calls).2.closed = true ∧
      (Calls.answers perform c calls).2.sid = c.sid ∧
      (Calls.answers perform c calls).2.uid = c.uid := by
  refine Calls.log_induction (P := fun (d : Connection) _ _ ↦
    d.closed = true ∧ d.sid = c.sid ∧ d.uid = c.uid) ⟨h, rfl, rfl⟩ ?_ calls
  rintro d - - call ⟨hd, hsid, huid⟩
  obtain ⟨hc, hs, hu⟩ := (d.comes_perform call).session hd
  exact ⟨hc, hs.trans hsid, hu.trans huid⟩

private theorem answers_receive (c : Connection) :
    (Calls.answers perform c (List.replicate (c.queue.length + 1) .receive)).1 =
      c.queue.map .taken ++ [if c.closed then .over else .waiting] := by
  induction hq : c.queue generalizing c with
  | nil => simp [Calls.answers, perform, pop, hq]
  | cons m rest ih =>
    rw [List.length_cons, List.replicate_succ, Calls.answers_cons]
    simp only [perform, pop, hq]
    rw [ih { c with queue := rest } rfl]
    rfl

/-! ### Any calls -/

/-- A new connection with room for `n` messages has got these calls, and may get one more: what it
has become and what it answers. -/
structure Orderly (cid : UInt64) (n : Nat) (calls : List ConnectionCall) : Prop where
  /-- Whoever closes the connection is told whether it was open. -/
  answer_close : ((after cid n calls).perform .close).1 = .told (.close ∉ calls)
  /-- If it has been closed at all, exactly one was told so. -/
  count_closings : (history cid n calls).count (.close, .told true) =
    if .close ∈ calls then 1 else 0
  answer_send (m : Message) : ((after cid n calls).perform (.send m)).1 =
    if .close ∈ calls then .failed (.queueClosed .connectionSend)
    else if (after cid n calls).queue.length < max n 1 then .done
    else .failed (.sendQueueFull cid)
  answer_logon (sid uid : UInt64) : .close ∈ calls →
    ((after cid n calls).perform (.logon sid uid)).1 = .told false
  /-- Once it is closed, no further calls change its session. -/
  session_final : .close ∈ calls → ∀ more,
    (after cid n (calls ++ more)).sid = (after cid n calls).sid ∧
      (after cid n (calls ++ more)).uid = (after cid n calls).uid
  room : (after cid n calls).queue.length ≤ max n 1
  failed_send (m : Message) : ((after cid n calls).perform (.send m)).1 ≠ .done →
    ((after cid n calls).perform (.send m)).2 = after cid n calls
  failed_logon (sid uid : UInt64) :
    ((after cid n calls).perform (.logon sid uid)).1 ≠ .told true →
      ((after cid n calls).perform (.logon sid uid)).2 = after cid n calls
  /-- The writer has got the messages that were accepted, in order and each once, but for those that
  are still queued. -/
  lossless : (history cid n calls).filterMap accepted? =
    (history cid n calls).filterMap received? ++ (after cid n calls).queue
  /-- A writer that goes on asking gets these too, and after them it learns whether there can be
  more. -/
  drain : (Calls.answers perform (after cid n calls)
      (List.replicate ((after cid n calls).queue.length + 1) .receive)).1 =
    (after cid n calls).queue.map .taken ++ [if .close ∈ calls then .over else .waiting]

private theorem answer_close (cid : UInt64) (n : Nat) (calls : List ConnectionCall) :
    ((after cid n calls).perform .close).1 = .told (.close ∉ calls) := by
  have h := (records cid n calls).closed_iff
  by_cases hc : .close ∈ calls
  · simp [perform, h.2 hc, hc]
  · simp [perform, Bool.eq_false_iff.2 (mt h.1 hc), hc]

private theorem count_closings (cid : UInt64) (n : Nat) (calls : List ConnectionCall) :
    (history cid n calls).count (.close, .told true) = if .close ∈ calls then 1 else 0 := by
  induction calls using List.reverseRecOn with
  | nil => rfl
  | append_singleton calls call ih =>
    rw [history_append_singleton, List.count_append, ih]
    -- A close counts unless there was one before, and no other call counts.
    by_cases hcall : call = .close
    · subst hcall
      rw [answer_close]
      by_cases hc : .close ∈ calls <;> simp [hc]
    · simp [hcall, Ne.symm hcall]

private theorem Records.answer_send {log : List (ConnectionCall × ConnectionAnswer)}
    (h : Records cid n c calls log) (m : Message) : (c.perform (.send m)).1 =
      if .close ∈ calls then .failed (.queueClosed .connectionSend)
      else if c.queue.length < max n 1 then .done
      else .failed (.sendQueueFull cid) := by
  by_cases hc : .close ∈ calls
  · simp [perform, send, h.closed_iff.2 hc, hc]
  · have hopen : c.closed = false := Bool.eq_false_iff.2 (mt h.closed_iff.1 hc)
    rw [if_neg hc, ← h.capacity, ← h.number]
    by_cases hq : c.queue.length < c.capacity
    · simp [perform, send, hopen, h.attended, hq]
    · simp [perform, send, hopen, h.attended, hq]

end Connection

open Connection in
/-- Whatever is called, a connection is closed by the first close and stays closed, and its writer
gets every message that was accepted. -/
theorem closing_final (cid : UInt64) (n : Nat) (calls : List ConnectionCall) :
    Orderly cid n calls where
  answer_close := answer_close cid n calls
  count_closings := count_closings cid n calls
  answer_send := (records cid n calls).answer_send
  answer_logon sid uid h := by
    have hc := (records cid n calls).closed_iff.2 h
    simp [perform, logon, hc]
  session_final h more := by
    rw [after_append]
    exact (session_of_closed ((records cid n calls).closed_iff.2 h) more).2
  room := (records cid n calls).room
  failed_send m h := by
    cases hs : (after cid n calls).send m with
    | ok d => simp [perform, hs] at h
    | error cause => simp only [perform, hs]
  failed_logon sid uid h := by
    cases hl : (after cid n calls).logon sid uid with
    | some d => simp [perform, hl] at h
    | none => simp only [perform, hl]
  lossless := (records cid n calls).lossless
  drain := by
    rw [answers_receive]
    simp only [(records cid n calls).closed_iff]

/-- A queue without room takes one message all the same, and that one is still written after the
close. -/
example (m : Message) :
    (Calls.answers Connection.perform (.fresh 1 0)
        [.receive, .send m, .send m, .close, .close, .send m, .receive, .receive]).1 =
      [.waiting, .done, .failed (.sendQueueFull 1), .told true, .told false,
        .failed (.queueClosed .connectionSend), .taken m, .over] := rfl

end EdgeGateway
