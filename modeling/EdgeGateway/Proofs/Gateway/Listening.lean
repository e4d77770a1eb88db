import EdgeGateway.Client.Reader
import EdgeGateway.Proofs.Gateway.Trail
import EdgeGateway.Proofs.Wire.Relay

/-!
# Listening to a client

A reader calls its handler with the messages of a client, in order and each once, up to the first
event that ends it, and for nothing else. `GoesOn` says that no event of a script ends the reader,
each event being judged in the state to which those before it have led, and `Reads` what the loop
over the script comes to. The listener of a connection is such a reader, whatever the rest of the
gateway does between two of its steps: it is followed through whole runs by what its handling of
each message wanted. The main statement is `reads_up_to_ending`.
-/

namespace EdgeGateway

namespace SocketEvent

variable {σ : Type} {handle : σ → Message → σ × Flow} {s s' : σ} {e : SocketEvent}
  {es rest : List SocketEvent} {r : Except Fault Unit} {L L' : Message → Prop}

/-- How an event ends a reader, where `Leaves` says after which messages the handler wants no more.
-/
inductive Ends (Leaves : Message → Prop) : SocketEvent → Except Fault Unit → Prop
  | closed : Ends Leaves .close (.ok ())
  | failed {cause : SocketFault} : Ends Leaves (.failed cause) (.error (.socketRead cause))
  | tooLong {data : Bytes} : maxMessageLength < data.length →
    Ends Leaves (.binary data) (.error (.messageTooLarge data.length maxMessageLength))
  | malformed {data : Bytes} {cause : Malformed} : data.length ≤ maxMessageLength →
    Packet.parse (H := SessionHeader) data = .error cause →
    Ends Leaves (.binary data) (.error (.malformedFrame cause))
  /-- The handler has been called with the message, and wants no more. -/
  | dismissed {data : Bytes} {m : Message} : Packet.parse data = .ok m → Leaves m →
    Ends Leaves (.binary data) (.ok ())

/-- The state of a handler that has been called with the messages among some events, one after the
other. -/
def dispatch (handle : σ → Message → σ × Flow) (s : σ) (es : List SocketEvent) : σ :=
  (es.filterMap message?).foldl (fun s m ↦ (handle s m).1) s

/-- The handler wants no more after a message that it is called with in a state. -/
def Dismisses (handle : σ → Message → σ × Flow) (s : σ) (m : Message) : Prop :=
  (handle s m).2 = .disconnect

/-- A handler that notes what it is called with, and wants what it has been told to want. -/
def rehearse (s : List Flow × List Message) (m : Message) : (List Flow × List Message) × Flow :=
  ((s.1.tail, s.2 ++ [m]), s.1.headD .proceed)

/-- None of the events ends the reader. -/
def GoesOn (handle : σ → Message → σ × Flow) (s : σ) (es : List SocketEvent) : Prop :=
  ∀ u e v r, es = u ++ e :: v → ¬ e.Ends (Dismisses handle (dispatch handle s u)) r

/-- What becomes of a reader that is given some events. -/
inductive Reads (handle : σ → Message → σ × Flow) (s : σ) (es : List SocketEvent) :
    σ → Except Fault Unit → List SocketEvent → Prop
  /-- It has come to the end of the socket. -/
  | exhausted : GoesOn handle s es → Reads handle s es (dispatch handle s es) (.ok ()) []
  /-- An event has ended it, and none before. -/
  | ended (pre : List SocketEvent) {rest : List SocketEvent} {e : SocketEvent}
    {r : Except Fault Unit} :
    es = pre ++ e :: rest →
    GoesOn handle s pre → e.Ends (Dismisses handle (dispatch handle s pre)) r →
    Reads handle s es (dispatch handle s (pre ++ [e])) r rest

private theorem message?_of_parse {data : Bytes} {m : Message} (hp : Packet.parse data = .ok m) :
    (binary data).message? = some m := by
  rw [message?, received?_of_parse hp]
  simp only [hp]
  rfl

private theorem Ends.congr (h : ∀ m, e.message? = some m → L m → L' m)
    (he : e.Ends L r) : e.Ends L' r := by
  cases he with
  | closed => exact .closed
  | failed => exact .failed
  | tooLong hl => exact .tooLong hl
  | malformed hl hp => exact .malformed hl hp
  | dismissed hp hm => exact .dismissed hp (h _ (message?_of_parse hp) hm)

private theorem ends_iff_of_parse {data : Bytes} {m : Message} (hp : Packet.parse data = .ok m) :
    (∃ r, (binary data).Ends L r) ↔ L m := by
  constructor
  · rintro ⟨r, h⟩
    cases h with
    | tooLong hl =>
      have hr := received?_of_parse hp
      rw [received?, if_pos hl] at hr
      cases hr
    | malformed _ hm => cases hm.symm.trans hp
    | dismissed hm hw =>
      cases hm.symm.trans hp
      exact hw
  · exact fun hw ↦ ⟨_, .dismissed hp hw⟩

private theorem dispatch_append (handle : σ → Message → σ × Flow) (s : σ)
    (es fs : List SocketEvent) :
    dispatch handle s (es ++ fs) = dispatch handle (dispatch handle s es) fs := by
  rw [dispatch, List.filterMap_append, List.foldl_append]
  rfl

private theorem dispatch_message {data : Bytes} {m : Message} (hp : Packet.parse data = .ok m) :
    dispatch handle s [.binary data] = (handle s m).1 := by
  rw [dispatch, List.filterMap_cons, message?_of_parse hp]
  rfl

private theorem goesOn_nil : GoesOn handle s [] := by
  intro u e v r h
  simp at h

private theorem goesOn_cons (he : ∀ r, ¬ e.Ends (Dismisses handle s) r)
    (h : GoesOn handle (dispatch handle s [e]) es) : GoesOn handle s (e :: es) := by
  intro u f v r hu
  cases u with
  | nil =>
    cases hu
    exact he r
  | cons f' u =>
    cases hu
    rw [← List.singleton_append, dispatch_append]
    exact h u f v r rfl

private theorem GoesOn.head (h : GoesOn handle s (e :: es)) (r : Except Fault Unit) :
    ¬ e.Ends (Dismisses handle s) r := h [] e es r rfl

private theorem GoesOn.tail (h : GoesOn handle s (e :: es)) :
    GoesOn handle (dispatch handle s [e]) es := by
  intro u f v r hu
  rw [← dispatch_append]
  exact h (e :: u) f v r (by rw [hu]; rfl)

private theorem GoesOn.message_of_binary (h : GoesOn handle s es) {data : Bytes}
    (hd : .binary data ∈ es) :
    ∃ m, Packet.parse data = .ok m ∧ (binary data).message? = some m := by
  obtain ⟨u, v, hes⟩ := List.append_of_mem hd
  have hl : data.length ≤ maxMessageLength :=
    Nat.le_of_not_lt fun hl ↦ h u _ v _ hes (.tooLong hl)
  cases hp : Packet.parse (H := SessionHeader) data with
  | error cause => exact absurd (.malformed hl hp) (h u _ v _ hes)
  | ok m => exact ⟨m, rfl, message?_of_parse hp⟩

private theorem GoesOn.snoc (h : GoesOn handle s es)
    (he : ∀ r, ¬ e.Ends (Dismisses handle (dispatch handle s es)) r) :
    GoesOn handle s (es ++ [e]) := by
  intro u f v r hu
  rcases v.eq_nil_or_concat with rfl | ⟨v, x, rfl⟩
  · obtain ⟨rfl, hf⟩ := List.append_inj' hu rfl
    cases hf
    exact he r
  · rw [List.concat_eq_append, ← List.cons_append, ← List.append_assoc] at hu
    exact h u f v r (List.append_inj' hu rfl).1

/-! ### Reading event after event -/

private theorem receive_cons (e : SocketEvent) (es : List SocketEvent) :
    receive (e :: es) = match e.received? with
      | some r => (some r, es)
      | none => receive es := rfl

private theorem readAll_of_ends (he : e.Ends (Dismisses handle s) r) (es : List SocketEvent) :
    readAll handle s (e :: es) = (dispatch handle s [e], r, es) := by
  rw [readAll_eq, receive_cons]
  cases he with
  | closed | failed => rfl
  | @tooLong data hl =>
    have hr : (binary data).received? =
      some (.broken (.messageTooLarge data.length maxMessageLength)) :=
      if_pos hl
    simp [hr, dispatch, message?]
  | @malformed data cause hl hp =>
    have hr : (binary data).received? = some (.message data) := if_neg (Nat.not_lt.2 hl)
    simp [hr, hp, dispatch, message?, Except.toOption]
  | @dismissed data m hp hm =>
    have hr := received?_of_parse hp
    rw [dispatch_message hp]
    simp only [hr, hp]
    split
    · next h => rw [h]
    · next h =>
      rw [Dismisses, h] at hm
      cases hm

private theorem readAll_of_not_ends (he : ∀ r, ¬ e.Ends (Dismisses handle s) r)
    (es : List SocketEvent) :
    readAll handle s (e :: es) = readAll handle (dispatch handle s [e]) es := by
  cases e with
  | text | ping | pong =>
    rw [readAll_eq, readAll_eq handle (dispatch _ _ _)]
    rfl
  | close => exact absurd .closed (he _)
  | failed cause => exact absurd .failed (he _)
  | binary data =>
    have hl : ¬ maxMessageLength < data.length := fun hl ↦ he _ (.tooLong hl)
    cases hp : Packet.parse (H := SessionHeader) data with
    | error cause => exact absurd (.malformed (Nat.le_of_not_lt hl) hp) (he _)
    | ok m =>
      have hr := received?_of_parse hp
      rw [dispatch_message hp, readAll_eq, receive_cons]
      simp only [hr, hp]
      split
      · next h => exact absurd (.dismissed hp (by rw [Dismisses, h])) (he (.ok ()))
      · next h => rw [h]

private theorem readAll_append {pre : List SocketEvent} (h : GoesOn handle s pre)
    (es : List SocketEvent) :
    readAll handle s (pre ++ es) = readAll handle (dispatch handle s pre) es := by
  induction pre generalizing s with
  | nil => rfl
  | cons e pre ih =>
    rw [List.cons_append, readAll_of_not_ends h.head, ih h.tail, ← dispatch_append,
      List.singleton_append]

private theorem exists_reads (handle : σ → Message → σ × Flow) (s : σ)
    (es : List SocketEvent) : ∃ s' r rest, Reads handle s es s' r rest := by
  induction es generalizing s with
  | nil => exact ⟨_, _, _, .exhausted goesOn_nil⟩
  | cons e es ih =>
    by_cases he : ∃ r, e.Ends (Dismisses handle s) r
    · obtain ⟨r, he⟩ := he
      exact ⟨_, _, _, .ended [] rfl goesOn_nil he⟩
    · have he : ∀ r, ¬ e.Ends (Dismisses handle s) r := fun r h ↦ he ⟨r, h⟩
      obtain ⟨s', r, rest, h⟩ := ih (dispatch handle s [e])
      cases h with
      | exhausted h => exact ⟨_, _, _, .exhausted (goesOn_cons he h)⟩
      | @ended pre _ f _ hes h hf =>
        refine ⟨_, r, rest, .ended (e :: pre) (by rw [hes]; rfl) (goesOn_cons he h) ?_⟩
        rwa [← List.singleton_append, dispatch_append]

private theorem readAll_eq_iff :
    readAll handle s es = (s', r, rest) ↔ Reads handle s es s' r rest := by
  have spec : ∀ {s' r rest}, Reads handle s es s' r rest →
    readAll handle s es = (s', r, rest) := by
    intro s' r rest h
    cases h with
    | exhausted h =>
      have hr := readAll_append h []
      rw [List.append_nil] at hr
      rw [hr, readAll_eq]
      rfl
    | ended _ hes h he => rw [hes, readAll_append h, readAll_of_ends he, ← dispatch_append]
  refine ⟨fun h ↦ ?_, spec⟩
  obtain ⟨s'', r', rest', h'⟩ := exists_reads handle s es
  cases h.symm.trans (spec h')
  exact h'

end SocketEvent

open SocketEvent (Dismisses GoesOn Reads dispatch readAll rehearse)

/-- What handling a message wants of the listener. -/
def UplinkStep.flow : UplinkStep → Flow
  | .disconnect => .disconnect
  | _ => .proceed

namespace Gateway

variable {s : Settings} {t : List (Gateway × Move)} {g g' b : Gateway} {m : Move} {cid : UInt64}

/-- The message that a listener is about to handle, with what its handling wants of the listener. -/
def called? (g : Gateway) (cid : UInt64) : Move → Option (Message × Flow)
  | .hear k =>
    if k = cid then
      (g.heard? cid).map fun x ↦ (x.2.2, (Uplink.handle g.hub x.2.1 x.2.2).2.flow)
    else none
  | _ => none

/-- The messages that the listener of a connection has handled. -/
def called (t : List (Gateway × Move)) (cid : UInt64) : List (Message × Flow) :=
  t.filterMap fun p ↦ p.1.called? cid p.2

/-- What comes out of the socket of a connection because of a move. -/
def reached? (g : Gateway) (cid : UInt64) : Move → Option SocketEvent
  | .say k e => if k = cid ∧ (g.ear? cid).isSome then some e else none
  | _ => none

/-- Everything that has come out of the socket of a connection. -/
def script (t : List (Gateway × Move)) (cid : UInt64) : List SocketEvent :=
  t.filterMap fun p ↦ p.1.reached? cid p.2

private theorem ear?_onMessage {c : Connection} {w : Message} {inbox : List SocketEvent}
    (he : g.ear? cid = some ⟨inbox, .listening, false⟩) :
    ∃ l, (g.onMessage cid c w).ear? cid = some ⟨inbox, l, false⟩ ∧
      (l = .ended ↔ (Uplink.handle g.hub c w).2.flow = .disconnect) := by
  simp only [onMessage]
  generalize Uplink.handle g.hub c w = x
  obtain ⟨hub, u⟩ := x
  have he : ({ g with hub } : Gateway).ear? cid = some ⟨inbox, .listening, false⟩ := he
  cases u with
  | proceed | failed => exact ⟨.listening, he, by rintro ⟨⟩, by rintro ⟨⟩⟩
  | disconnect =>
    refine ⟨.ended, ?_, fun _ ↦ rfl, fun _ ↦ rfl⟩
    rw [ear?_setListener, he, Option.map_some, if_pos rfl]
  | forward v after =>
    obtain ⟨l, hl, hf⟩ := forwards { g with hub } cid v after
    refine ⟨l, ?_, fun h ↦ absurd h hl, by rintro ⟨⟩⟩
    rw [hf.ear, he, Option.map_some, if_pos rfl]

private theorem ear?_hear (h : g.hear cid = some g') :
    ∃ e c inbox l, g.ear? cid = some ⟨e :: inbox, .listening, false⟩ ∧
      g.heard? cid = e.message?.map (fun w ↦ (e, c, w)) ∧
      g'.ear? cid = some ⟨inbox, l, false⟩ ∧
      (l = .ended ↔
        ∃ r, e.Ends (fun w ↦ (Uplink.handle g.hub c w).2.flow = .disconnect) r) := by
  obtain ⟨⟨k, c⟩, hs, h⟩ := Option.bind_eq_some_iff.1 h
  simp only at h
  split at h
  · next e inbox hl hi =>
    have hear : g.ear? cid = some ⟨e :: inbox, .listening, false⟩ := by
      rw [ear?_of_socket? hs, hl, hi]
    have hheard : g.heard? cid = e.message?.map fun w ↦ (e, c, w) := by
      simp only [heard?, hs, Option.bind_eq_bind, Option.bind_some, hl, hi]
    have hear₁ : (g.modifySocket cid fun s ↦ { s with inbox }).ear? cid =
        some ⟨inbox, .listening, false⟩ := by
      rw [ear?_modifyInbox hs, hl]
    have ended : ∀ l,
      ((g.modifySocket cid fun s ↦ { s with inbox }).setListener cid l).ear? cid =
        some ⟨inbox, l, false⟩ := by
      intro l
      rw [ear?_setListener, hear₁, Option.map_some, if_pos rfl]
    refine ⟨e, c, inbox, ?_⟩
    cases e with
    | text | ping | pong =>
      cases h
      refine ⟨.listening, hear, hheard, hear₁, by rintro ⟨⟩, ?_⟩
      rintro ⟨r, ⟨⟩⟩
    | close =>
      cases h
      exact ⟨.ended, hear, hheard, ended .ended, fun _ ↦ ⟨_, .closed⟩, fun _ ↦ rfl⟩
    | failed cause =>
      cases h
      exact ⟨.ended, hear, hheard, ended .ended, fun _ ↦ ⟨_, .failed⟩, fun _ ↦ rfl⟩
    | binary data =>
      cases hp : Packet.parse (H := SessionHeader) data with
      | ok w =>
        simp only [received?_of_parse hp, hp] at h
        cases h
        obtain ⟨l, hl, hwants⟩ := ear?_onMessage (c := c) (w := w) hear₁
        have hends := SocketEvent.ends_iff_of_parse hp
          (L := fun w ↦ (Uplink.handle g.hub c w).2.flow = .disconnect)
        exact ⟨l, hear, hheard, hl, hwants.trans hends.symm⟩
      | error cause =>
        simp only [SocketEvent.received?] at h
        by_cases hlong : maxMessageLength < data.length
        · rw [if_pos hlong] at h
          cases h
          exact ⟨.ended, hear, hheard, ended .ended, fun _ ↦ ⟨_, .tooLong hlong⟩,
            fun _ ↦ rfl⟩
        · rw [if_neg hlong] at h
          simp only [hp] at h
          cases h
          exact ⟨.ended, hear, hheard, ended .ended,
            fun _ ↦ ⟨_, .malformed (Nat.le_of_not_lt hlong) hp⟩, fun _ ↦ rfl⟩
  · cases h

private theorem ear?_resumeListener (h : g.resumeListener cid = some g') :
    ∃ x l, g.ear? cid = some x ∧ x.listener ≠ .ended ∧ l ≠ .ended ∧
      g'.ear? cid = some { x with listener := l } := by
  obtain ⟨⟨k, c⟩, hs, h⟩ := Option.bind_eq_some_iff.1 h
  have he := ear?_of_socket? hs
  simp only at h
  split at h
  · next ticket after hl =>
    split at h <;> cases h
    obtain ⟨l, -, hended, -, hears, -⟩ := g.afterForward_cases cid after
    refine ⟨_, l, he, by rw [hl]; rintro ⟨⟩, hended, ?_⟩
    rw [hears, he, Option.map_some, if_pos rfl]
  · next ticket hl =>
    split at h <;> cases h
    refine ⟨_, .listening, he, by rw [hl]; rintro ⟨⟩, by rintro ⟨⟩, ?_⟩
    rw [ear?_setListener, he, Option.map_some, if_pos rfl]
  · cases h

/-! ### Whole runs -/

-- What the listener of a connection has done is what a reader does, where `calls` are the
-- messages that it has handled and `events` all that has come out of its socket. The handler is
-- to want what the handling of the messages wanted, and may be told more than that.
private inductive Follows (calls : List (Message × Flow))
    (events : List SocketEvent) : Option Ear → Prop
  | absent : calls = [] → events = [] → Follows calls events none
  | listens (heard : List SocketEvent) {x : Ear} : events = heard ++ x.inbox →
    x.listener ≠ .ended → (∀ fs, GoesOn rehearse (calls.map Prod.snd ++ fs, []) heard ∧
      dispatch rehearse (calls.map Prod.snd ++ fs, []) heard = (fs, calls.map Prod.fst)) →
    Follows calls events (some x)
  | ended {heard : List SocketEvent} {e : SocketEvent} {r : Except Fault Unit} {x : Ear} :
    events = heard ++ e :: x.inbox → x.listener = .ended →
    (∀ fs, GoesOn rehearse (calls.map Prod.snd ++ fs, []) heard ∧
      e.Ends (Dismisses rehearse (dispatch rehearse (calls.map Prod.snd ++ fs, []) heard)) r ∧
      dispatch rehearse (calls.map Prod.snd ++ fs, []) (heard ++ [e]) =
      (fs, calls.map Prod.fst)) →
    Follows calls events (some x)

namespace Follows

variable {calls : List (Message × Flow)} {events : List SocketEvent} {x y : Ear}

private theorem said (h : Follows calls events (some x)) (e : SocketEvent) :
    Follows calls (events ++ [e]) (some { x with inbox := x.inbox ++ [e] }) := by
  cases h with
  | listens _ he hl hh => exact .listens _ (by rw [he, List.append_assoc]) hl hh
  | ended he hl hh => exact .ended (by rw [he, List.append_assoc, List.cons_append]) hl hh

private theorem left (h : Follows calls events (some x)) (hi : y.inbox = x.inbox)
    (hl : y.listener = .ended ↔ x.listener = .ended) : Follows calls events (some y) := by
  cases h with
  | listens _ he hx hh => exact .listens _ (by rw [he, hi]) (fun h ↦ hx (hl.1 h)) hh
  | ended he hx hh => exact .ended (by rw [he, hi]) (hl.2 hx) hh

private theorem hear {e : SocketEvent} {inbox : List SocketEvent} {l : Listener}
    {wants : Message → Flow} (h : Follows calls events (some ⟨e :: inbox, .listening, false⟩))
    (hl : l = .ended ↔ ∃ r, e.Ends (fun w ↦ wants w = .disconnect) r) :
    Follows (calls ++ (e.message?.map fun w ↦ (w, wants w)).toList) events
      (some ⟨inbox, l, false⟩) := by
  generalize hc : (e.message?.map fun w ↦ (w, wants w)).toList = new
  cases h with
  | ended _ hx => cases hx
  | listens heard he _ hh =>
    have told : ∀ fs, GoesOn rehearse ((calls ++ new).map Prod.snd ++ fs, []) heard ∧
        dispatch rehearse ((calls ++ new).map Prod.snd ++ fs, []) heard =
          (new.map Prod.snd ++ fs, calls.map Prod.fst) := by
      intro fs
      rw [List.map_append, List.append_assoc]
      exact hh (new.map Prod.snd ++ fs)
    have called : ∀ fs, dispatch rehearse ((calls ++ new).map Prod.snd ++ fs, []) (heard ++ [e]) =
        (fs, (calls ++ new).map Prod.fst) := by
      intro fs
      rw [SocketEvent.dispatch_append, (told fs).2, ← hc]
      cases hm : e.message? <;> simp [dispatch, hm, rehearse]
    have wanted : ∀ fs w, e.message? = some w →
        (Dismisses rehearse (dispatch rehearse ((calls ++ new).map Prod.snd ++ fs, []) heard) w ↔
          wants w = .disconnect) := by
      intro fs w hw
      rw [(told fs).2, ← hc, hw]
      rfl
    by_cases hended : l = .ended
    · obtain ⟨r, hr⟩ := hl.1 hended
      exact .ended (r := r) he hended fun fs ↦
        ⟨(told fs).1, hr.congr fun w hw ↦ (wanted fs w hw).2, called fs⟩
    · refine .listens (heard ++ [e]) (by rw [he, List.append_assoc]; rfl) hended fun fs ↦
        ⟨(told fs).1.snoc fun r hr ↦ ?_, called fs⟩
      exact hended (hl.2 ⟨r, hr.congr fun w hw ↦ (wanted fs w hw).1⟩)

end Follows

private theorem called?_eq_none {k : UInt64} (hk : k ≠ cid) : g.called? cid (.hear k) = none :=
  if_neg hk

private theorem called?_hear (g : Gateway) (cid : UInt64) : g.called? cid (.hear cid) =
    (g.heard? cid).map fun x ↦ (x.2.2, (Uplink.handle g.hub x.2.1 x.2.2).2.flow) := if_pos rfl

private theorem ear?_next (hg : g.Sound) (hn : g.hub.conns.next ≠ 0) :
    g.ear? g.hub.conns.next = none := by
  have hp := hg.paired g.hub.conns.next
  rw [Hub.bearing?, hg.tables.numbered.find?_next hn] at hp
  exact Option.not_isSome_iff_eq_none.1 (by rw [hp]; rintro ⟨⟩)

-- In a move a listener goes on following what its reader does, unless it heeds that its
-- connection has been closed.
private theorem follows_of_move? {calls : List (Message × Flow)} {events : List SocketEvent}
    (hg : g.Sound) (hc : m = .connect → g.hub.conns.next ≠ 0) (hm : m ≠ .heed cid)
    (h : g.move? m = some g') (hf : Follows calls events (g.ear? cid)) :
    Follows (calls ++ (g.called? cid m).toList) (events ++ (g.reached? cid m).toList)
      (g'.ear? cid) := by
  -- In all moves but two nothing is handled and nothing comes out of the socket.
  have still : g.called? cid m = none → g.reached? cid m = none →
    Follows calls events (g'.ear? cid) →
      Follows (calls ++ (g.called? cid m).toList) (events ++ (g.reached? cid m).toList)
      (g'.ear? cid) := by
    intro hcalled hreached hf
    rw [hcalled, hreached]
    simpa using hf
  have same : g.called? cid m = none → g.reached? cid m = none → g'.ear? cid = g.ear? cid →
      Follows (calls ++ (g.called? cid m).toList) (events ++ (g.reached? cid m).toList)
      (g'.ear? cid) :=
    fun hcalled hreached he ↦ still hcalled hreached (by rwa [he])
  cases turn_of_move? hg.tables.numbered hg.calls h with
  | idle hm _ he =>
    cases m with
    | connect | say | hear | heed | resumeListener | fetchCall | resumeCall | finishSocket
    | sendFarewell => exact hm.elim
    | _ => exact same rfl rfl (he cid)
  | fetchCall _ he | resumeCall _ he | sendFarewell _ _ he => exact same rfl rfl (he cid)
  | @hear k _ _ _ _ _ _ _ _ hothers =>
    by_cases hk : k = cid
    · subst hk
      obtain ⟨e, c, inbox, l, he, hheard, he', hl⟩ := ear?_hear h
      rw [he] at hf
      have hreached : g.reached? k (.hear k) = none := rfl
      rw [called?_hear, hheard, Option.map_map, hreached, he', Option.toList_none, List.append_nil]
      exact hf.hear hl
    · exact same (called?_eq_none hk) rfl (hothers cid (Ne.symm hk))
  | @heed k _ _ _ _ _ _ he =>
    have hk : cid ≠ k := fun hk ↦ hm (by rw [hk])
    exact same rfl rfl (by simp only [he, if_neg hk, Option.map_id'])
  | @resumeListener k _ _ _ _ _ _ hears =>
    by_cases hk : k = cid
    · subst hk
      obtain ⟨x, l, he, hx, hl, he'⟩ := ear?_resumeListener h
      rw [he] at hf
      refine still rfl rfl ?_
      rw [he']
      exact hf.left rfl (iff_of_false hl hx)
    · exact same rfl rfl (by simp only [hears, if_neg (Ne.symm hk), Option.map_id'])
  | @finishSocket k c x _ hx _ _ _ _ _ he =>
    by_cases hk : cid = k
    · subst hk
      rw [hx] at hf
      refine still rfl rfl ?_
      rw [he, hx, Option.map_some, if_pos rfl]
      exact hf.left rfl Iff.rfl
    · exact same rfl rfl (by simp only [he, if_neg hk, Option.map_id'])
  | connect _ _ he =>
    by_cases hk : cid = g.hub.conns.next
    · rw [hk, ear?_next hg (hc rfl)] at hf
      cases hf with
      | absent hcalls hevents =>
        refine still rfl rfl ?_
        rw [he, if_pos hk, hcalls, hevents]
        exact .listens [] rfl (by rintro ⟨⟩) fun fs ↦ ⟨SocketEvent.goesOn_nil, rfl⟩
    · exact same rfl rfl (by rw [he, if_neg hk])
  | @say k e _ _ he =>
    by_cases hk : k = cid
    · subst hk
      rw [he]
      cases hx : g.ear? k with
      | none =>
        rw [hx] at hf
        simpa [called?, reached?, hx] using hf
      | some x =>
        rw [hx] at hf
        simpa [called?, reached?, hx] using hf.said e
    · refine same rfl (if_neg fun h ↦ hk h.1) ?_
      simp only [he, if_neg (Ne.symm hk), Option.map_id']

private theorem follows_of_trail (ht : Trail s t g) (hheed : ∀ b, (b, .heed cid) ∉ t) :
    Follows (called t cid) (script t cid) (g.ear? cid) := by
  induction ht with
  | fresh => exact .absent rfl rfl
  | @move t g h m ht hc hm ih =>
    have hstays : m ≠ .heed cid := by
      rintro rfl
      exact hheed g (by simp)
    have hf :=
      follows_of_move? ht.sound hc hstays hm (ih fun b hb ↦ hheed b (List.mem_append_left _ hb))
    have hcalled : called (t ++ [(g, m)]) cid = called t cid ++ (g.called? cid m).toList := by
      cases hx : g.called? cid m <;> simp [called, hx]
    have hscript : script (t ++ [(g, m)]) cid = script t cid ++ (g.reached? cid m).toList := by
      cases hx : g.reached? cid m <;> simp [script, hx]
    rwa [hcalled, hscript]

/-- A listener is a reader that is told what the handling of each message wanted, where `x` is what
it has before it. -/
structure ReadsOn (t : List (Gateway × Move)) (cid : UInt64) (g : Gateway) (x : Ear) : Prop where
  /-- Nothing that it has taken ends the reader, and it has handled the messages among that. -/
  going : x.listener ≠ .ended → ∃ heard, script t cid = heard ++ x.inbox ∧
    GoesOn rehearse ((called t cid).map Prod.snd, []) heard ∧
    dispatch rehearse ((called t cid).map Prod.snd, []) heard = ([], (called t cid).map Prod.fst)
  /-- It takes what comes next. -/
  ready : x.listener = .listening → x.finished = false → x.inbox ≠ [] →
    ∃ g', g.move? (.hear cid) = some g'
  /-- The last event that it has taken ends the reader, and it has handled what the reader handles
  and left what the reader leaves. -/
  ended : x.listener = .ended → ∃ heard e r, script t cid = heard ++ e :: x.inbox ∧
    GoesOn rehearse ((called t cid).map Prod.snd, []) heard ∧
    e.Ends (Dismisses rehearse (dispatch rehearse ((called t cid).map Prod.snd, []) heard)) r ∧
    readAll rehearse ((called t cid).map Prod.snd, []) (script t cid) =
      (([], (called t cid).map Prod.fst), r, x.inbox)

private theorem exists_hear_of_ear? {x : Ear} (hg : g.Sound) (hx : g.ear? cid = some x)
    (hl : x.listener = .listening) (hf : x.finished = false) (hi : x.inbox ≠ []) :
    ∃ g', g.hear cid = some g' := by
  have hp := hg.paired cid
  obtain ⟨k, hk, rfl⟩ := Option.map_eq_some_iff.1 hx
  rw [hx, Option.isSome_some, Hub.bearing?, Option.isSome_map] at hp
  obtain ⟨c, hc⟩ := Option.isSome_iff_exists.1 hp.symm
  obtain ⟨e, inbox, hi⟩ := List.exists_cons_of_ne_nil hi
  exact exists_hear (socket?_eq_some_iff.2 ⟨hk, hc, hf⟩) hl hi

/-- A reader calls its handler with the messages up to the first event that ends it, in order and
each once, and with nothing else. A socket message above the limit is never a message, so the limit
refuses nothing that would have been read. In every run a listener that has not been told that its
connection is closed is such a reader of what comes out of its socket. -/
theorem reads_up_to_ending :
    (∀ (σ : Type) (handle : σ → Message → σ × Flow) (s s' : σ)
      (es rest : List SocketEvent)
      (r : Except Fault Unit),
        (readAll handle s es = (s', r, rest) ↔ Reads handle s es s' r rest) ∧
      (GoesOn handle s es → ∀ data, .binary data ∈ es →
        ∃ m, Packet.parse data = .ok m ∧ (SocketEvent.binary data).message? = some m)) ∧
    (∀ data : Bytes, maxMessageLength < data.length →
      ∃ cause, Packet.parse (H := SessionHeader) data = .error cause) ∧
    ∀ s t g cid x, Trail s t g → (∀ b, (b, .heed cid) ∉ t) → g.ear? cid = some x →
    ReadsOn t cid g x := by
  refine ⟨fun σ handle s s' es rest r ↦
    ⟨SocketEvent.readAll_eq_iff, fun h _ ↦ h.message_of_binary⟩, ?_, ?_⟩
  · intro data hlong
    cases hp : Packet.parse (H := SessionHeader) data with
    | error cause => exact ⟨cause, rfl⟩
    | ok m =>
      have hr := received?_of_parse hp
      rw [SocketEvent.received?, if_pos hlong] at hr
      cases hr
  · intro s t g cid x ht hheed hx
    have hready := exists_hear_of_ear? ht.sound hx
    have hf := follows_of_trail ht hheed
    rw [hx] at hf
    cases hf with
    | listens _ he hl hh =>
      have hh := hh []
      rw [List.append_nil] at hh
      exact ⟨fun _ ↦ ⟨_, he, hh⟩, hready, fun h ↦ absurd h hl⟩
    | ended he hl hh =>
      have hh := hh []
      rw [List.append_nil] at hh
      obtain ⟨hgo, hends, hd⟩ := hh
      refine ⟨fun h ↦ absurd hl h, hready, fun _ ↦ ⟨_, _, _, he, hgo, hends, ?_⟩⟩
      rw [← hd]
      exact SocketEvent.readAll_eq_iff.2 (.ended _ he hgo hends)

/-- The message with which a client leaves. -/
def Takeover.leave : Message := .make .offline 0 0 []

/-- A client asks for a session and leaves before it has one, with other things said in between and
afterwards. -/
def Takeover.hurrying : List Move :=
  [.start ⟨.four 127 0 0 1, 8080⟩, .link (.connect 0), .link (.transmit 0 1000), .connect] ++
    [.say 1 .text, .say 1 (.binary request.bytes), .say 1 (.ping []),
     .say 1 (.binary leave.bytes)] ++
    [.say 1 (.binary request.bytes), .hear 1, .hear 1, .hear 1, .hear 1]

/-- Both messages are handled, and what comes behind them is not. -/
theorem reads_up_to_ending_hurrying :
    (∃ t g r, Trail Takeover.settings t g ∧ t.map Prod.snd = Takeover.hurrying ∧
      readAll rehearse ([.proceed, .disconnect], []) (script t 1) =
        (([], [Takeover.request, Takeover.leave]), r, [.binary Takeover.request.bytes])) ∧
    ∃ cause, Packet.parse (H := SessionHeader) (List.replicate 1048610 0) = .error cause := by
  obtain ⟨-, hlimit, hruns⟩ := reads_up_to_ending
  refine ⟨?_, hlimit _ (by rw [List.length_replicate]; decide)⟩
  have hview : ((fresh Takeover.settings).trail? Takeover.hurrying).map (fun r ↦
      (called r.1 1, r.2.ear? 1)) =
      some ([(Takeover.request, .proceed), (Takeover.leave, .disconnect)],
        some ⟨[.binary Takeover.request.bytes], .ended, false⟩) := by decide +kernel
  obtain ⟨⟨t, g⟩, hrun, hview⟩ := Option.map_eq_some_iff.1 hview
  obtain ⟨hcalled, hear⟩ := Prod.mk.injEq .. ▸ hview
  obtain ⟨ht, hmoves⟩ := trail_of_trail? hrun
  have hheed : ∀ b, (b, .heed 1) ∉ t := by
    intro b hb
    have h : Move.heed 1 ∈ Takeover.hurrying := hmoves ▸ List.mem_map_of_mem hb
    exact absurd h (by decide)
  obtain ⟨heard, e, r, -, -, -, hr⟩ := (hruns _ t g 1 _ ht hheed hear).ended rfl
  rw [show called t 1 = _ from hcalled] at hr
  exact ⟨t, g, r, ht, hmoves, hr⟩

end Gateway

end EdgeGateway
