import EdgeGateway.Proofs.Journal
import EdgeGateway.Proofs.Link.Stalling

/-!
# The course of a link

A link dials, introduces itself, is served, and pauses before it dials again. `Pool.Passes` lists
the ways in which a move takes a link from one stage to the next, and `turn_of_move?` says that
there are no others. What can be seen of a link goes with its stage (`LinkStage.Shows`), and a link
has one connection at a time: `underway_of_journal` says that all connections that it had before the
present one have ended.
-/

namespace EdgeGateway

variable {η κ : Type}

/-- How far a link has come, whatever its tasks are doing. -/
inductive LinkStage where
  | asleep
  | dialing
  | greeting (wire : Nat)
  | serving (wire : Nat) (stopping final : Bool)
  | resting
  | stopped
  deriving Repr, DecidableEq

namespace LinkStage

/-- What can be seen of a link at a stage. -/
def Shows : LinkStage → LinkState → Prop
  | asleep, x | dialing, x => x = .dialing
  | greeting _, x => x = .connected
  | serving _ stopping _, x => x = if stopping then .draining else .connected
  | resting, x => x = .dialing ∨ x = .draining
  | stopped, x => x = .stopped

/-- The connection that a link has. -/
def wire? : LinkStage → Option Nat
  | greeting w | serving w _ _ => some w
  | _ => none

/-- The link has heard the shutdown signal. -/
def Final : LinkStage → Prop
  | serving _ _ final => final = true
  | stopped => True
  | _ => False

/-- A link that is seen to have stopped has stopped. -/
theorem Shows.eq_stopped {a : LinkStage} (h : a.Shows .stopped) : a = .stopped := by
  cases a with
  | stopped => rfl
  | serving _ stopping => cases stopping <;> cases h
  | resting => rcases h with h | h <;> cases h
  | _ => cases h

end LinkStage

/-- How what can be seen of a link changes, which it no longer does once the link has stopped. -/
inductive LinkState.Leads : LinkState → LinkState → Prop
  | connects : Leads .dialing .connected
  | drains : Leads .connected .draining
  | redials : Leads .draining .dialing
  | concludes : Leads .draining .stopped
  | halts : Leads .dialing .stopped

/-- How far a link has come. -/
def Link.stage (l : Link κ) : LinkStage :=
  match l.phase with
  | .unlaunched => .asleep
  | .dialing => .dialing
  | .greeting w _ => .greeting w
  | .serving s => .serving s.wire s.stopping s.final
  | .resting _ => .resting
  | .stopped => .stopped

namespace Pool

variable {p q : Pool κ} {m : Move} {i j now : Nat} {l k : Link κ} {s : Service κ}

/-- The connection that a link gets in a move. -/
def dialled? (p : Pool κ) (i : Nat) : Move → Option Nat
  | .connect j => if j = i then some p.wires.length else none
  | _ => none

/-- The connection of a link that ends in a move: its introduction fails, before anybody serves it,
or its reader, its writer and all of its workers have ended. -/
def ended? (p : Pool κ) (i : Nat) : Move → Option Nat
  | .failWrite j =>
    if j = i then do
      match (← p.links[i]?).phase with
      | .greeting w _ => return w
      | _ => none
    else none
  | .conclude j =>
    if j = i then do
      let (_, s) ← p.service? i
      if s.AllEnded then return s.wire else none
    else none
  | _ => none

/-- How a move takes a link from one stage to another. -/
inductive Passes (p : Pool κ) (i : Nat) (l k : Link κ) : Move → Prop
  | stays {m : Move} (stage : k.stage = l.stage) (state : k.state = l.state)
    (dialled : p.dialled? i m = none) (ended : p.ended? i m = none) : Passes p i l k m
  | connects (was : l.stage = .dialing) (stage : k.stage = .greeting p.wires.length)
    (state : k.state = .connected) : Passes p i l k (.connect i)
  | refuses (was : l.stage = .dialing) (stage : k.stage = .resting) (state : k.state = l.state) :
    Passes p i l k (.refuse i)
  | wakes (was : l.stage = .resting) (stage : k.stage = .dialing) (state : k.state = .dialing) :
    Passes p i l k (.wake i)
  | halts (was : l.stage = .dialing ∨ l.stage = .resting) (stopping : p.stopping = true)
    (stage : k.stage = .stopped) (state : k.state = .stopped) : Passes p i l k (.halt i)
  | introduces {n w : Nat} (was : l.stage = .greeting w) (stage : k.stage = .serving w false false)
    (state : k.state = l.state) : Passes p i l k (.transmit i n)
  | abandons {w : Nat} (was : l.stage = .greeting w) (ended : p.ended? i (.failWrite i) = some w)
    (stage : k.stage = .resting) (state : k.state = .draining) : Passes p i l k (.failWrite i)
  | tells {w : Nat} {before final : Bool} (was : l.stage = .serving w false before)
    (signalled : final = true → p.stopping = true) (stage : k.stage = .serving w true final)
    (state : k.state = .draining) : Passes p i l k (.supervise i final)
  | pauses {w : Nat} (was : l.stage = .serving w true false)
    (ended : p.ended? i (.conclude i) = some w) (stage : k.stage = .resting)
    (state : k.state = l.state) :
    Passes p i l k (.conclude i)
  | concludes {w : Nat} (was : l.stage = .serving w true true)
    (ended : p.ended? i (.conclude i) = some w) (stage : k.stage = .stopped)
    (state : k.state = .stopped) :
    Passes p i l k (.conclude i)

/-- What a move does to one link. -/
structure Turn (p : Pool κ) (m : Move) (i : Nat) (l k : Link κ) : Prop where
  passes : p.Passes i l k m
  /-- Only a writer takes something off the link's own queue. -/
  own : m = .fetchOutbound i ∨ l.system.items <+: k.system.items

-- What a move of one link does, which is nothing to the others.
private inductive Turned (p : Pool κ) (m : Move) (i : Nat) (l : Link κ) (q : Pool κ) : Prop
  | intro (k : Link κ) (links : q.links = p.links.set i k) (settings : q.settings = p.settings)
    (turn : p.Turn m i l k)

/-! ### The moves -/

/-- A link that is served is at the stage of its service. -/
theorem stage_of_serving (h : l.phase = .serving s) :
    l.stage = .serving s.wire s.stopping s.final := by rw [Link.stage, h]

private theorem items_prefix_offer {α : Type} (c : Channel α) (a : α) :
    c.items <+: (c.offer a).items := by
  rw [Channel.offer]
  split
  · exact List.prefix_append _ _
  · exact List.prefix_rfl

private theorem Turn.serve {t : Service κ} (hs : p.service? i = some (l, s))
    (hk : k.phase = .serving t) (ht : (t.wire, t.stopping, t.final) = (s.wire, s.stopping, s.final))
    (hstate : k.state = l.state) (hd : p.dialled? i m = none) (he : p.ended? i m = none)
    (hown : m = .fetchOutbound i ∨ l.system.items <+: k.system.items) : p.Turn m i l k := by
  obtain ⟨-, hp⟩ := serving_of_service? hs
  refine ⟨.stays ?_ hstate hd he, hown⟩
  rw [stage_of_serving hk, stage_of_serving hp]
  simp only [Prod.mk.injEq] at ht
  rw [ht.1, ht.2.1, ht.2.2]

private theorem turn_connect (h : p.connect i = some q) (hl : p.links[i]? = some l) :
    p.Turned (.connect i) i l q := by
  obtain ⟨l', hl', h⟩ := Option.bind_eq_some_iff.1 h
  cases hl.symm.trans hl'
  split at h <;> cases h
  next hp =>
    exact ⟨_, rfl, rfl, .connects (by rw [Link.stage, hp]) rfl rfl, .inr List.prefix_rfl⟩

private theorem turn_refuse (h : p.refuse now i = some q) (hl : p.links[i]? = some l) :
    p.Turned (.refuse i) i l q := by
  obtain ⟨l', hl', h⟩ := Option.bind_eq_some_iff.1 h
  cases hl.symm.trans hl'
  split at h <;> cases h
  next hp =>
    exact ⟨_, rfl, rfl, .refuses (by rw [Link.stage, hp]) rfl rfl, .inr List.prefix_rfl⟩

private theorem turn_wake (h : p.wake now i = some q) (hl : p.links[i]? = some l) :
    p.Turned (.wake i) i l q := by
  obtain ⟨l', hl', h⟩ := Option.bind_eq_some_iff.1 h
  cases hl.symm.trans hl'
  split at h
  · next hp =>
    split at h <;> cases h
    exact ⟨_, rfl, rfl, .wakes (by rw [Link.stage, hp]) rfl rfl, .inr List.prefix_rfl⟩
  · cases h

private theorem turn_halt (h : p.halt i = some q) (hl : p.links[i]? = some l) :
    p.Turned (.halt i) i l q := by
  obtain ⟨l', hl', h⟩ := Option.bind_eq_some_iff.1 h
  cases hl.symm.trans hl'
  split at h
  · cases h
  · next hstop =>
    have hstop := Decidable.not_not.1 hstop
    split at h <;> cases h
    · next hp =>
      have hwas : l.stage = .dialing := by rw [Link.stage, hp]
      exact ⟨_, rfl, rfl, .halts (.inl hwas) hstop rfl rfl, .inr List.prefix_rfl⟩
    · next hp =>
      have hwas : l.stage = .resting := by rw [Link.stage, hp]
      exact ⟨_, rfl, rfl, .halts (.inr hwas) hstop rfl rfl, .inr List.prefix_rfl⟩

private theorem turn_transmit {n : Nat} (h : p.transmit i n = some q) (hl : p.links[i]? = some l) :
    p.Turned (.transmit i n) i l q := by
  obtain ⟨⟨w, f, left⟩, hh, h⟩ := Option.bind_eq_some_iff.1 h
  obtain ⟨l', hl', h⟩ := Option.bind_eq_some_iff.1 h
  cases hl.symm.trans hl'
  split at h <;> cases h
  refine ⟨p.afterWrite l (left.drop n), rfl, rfl, ?_⟩
  rw [afterWrite]
  split
  · next wire _ hp =>
    have hg : l.stage = .greeting wire := by rw [Link.stage, hp]
    split
    · exact ⟨.introduces hg rfl rfl, .inr List.prefix_rfl⟩
    · exact ⟨.stays hg.symm rfl rfl rfl, .inr List.prefix_rfl⟩
  · next s hp =>
    have hs : p.service? i = some (l, s) := by simp [service?, Link.service?, hl, hp]
    split
    · exact .serve hs rfl rfl rfl rfl rfl (.inr List.prefix_rfl)
    · exact .serve hs hp rfl rfl rfl rfl (.inr List.prefix_rfl)
  · exact ⟨.stays rfl rfl rfl rfl, .inr List.prefix_rfl⟩

private theorem turn_failWrite (h : p.failWrite now i = some q) (hl : p.links[i]? = some l) :
    p.Turned (.failWrite i) i l q := by
  obtain ⟨⟨w, f, left⟩, hh, h⟩ := Option.bind_eq_some_iff.1 h
  obtain ⟨l', hl', h⟩ := Option.bind_eq_some_iff.1 h
  cases hl.symm.trans hl'
  simp only at h
  split at h
  · next wire _ hp =>
    cases h
    have he : p.ended? i (.failWrite i) = some wire := by simp [ended?, hl, hp]
    exact ⟨_, rfl, rfl, .abandons (by rw [Link.stage, hp]) he rfl rfl, .inr List.prefix_rfl⟩
  · next s hp =>
    cases h
    have hs : p.service? i = some (l, s) := by simp [service?, Link.service?, hl, hp]
    have he : p.ended? i (.failWrite i) = none := by simp [ended?, hl, hp]
    exact ⟨_, rfl, rfl, .serve hs rfl rfl rfl rfl he (.inr List.prefix_rfl)⟩
  · cases h

private theorem turn_fetchOutbound (h : p.fetchOutbound i = some q) (hl : p.links[i]? = some l) :
    p.Turned (.fetchOutbound i) i l q := by
  obtain ⟨⟨l', s⟩, hs, h⟩ := Option.bind_eq_some_iff.1 h
  cases hl.symm.trans (serving_of_service? hs).1
  simp only at h
  split at h
  · cases h
  · split at h
    · cases h
      exact ⟨_, rfl, rfl, .serve hs rfl rfl rfl rfl rfl (.inl rfl)⟩
    · obtain ⟨⟨f, outbound⟩, -, h⟩ := Option.bind_eq_some_iff.1 h
      cases h
      exact ⟨_, rfl, rfl, .serve hs rfl rfl rfl rfl rfl (.inl rfl)⟩

private theorem links_accept (hs : p.service? i = some (l, s)) (f : Frame) :
    ∃ k, (p.accept i l s f).links = p.links.set i k ∧
      (p.accept i l s f).settings = p.settings ∧ k.stage = l.stage ∧ k.state = l.state ∧
      l.system.items <+: k.system.items := by
  obtain ⟨hl, hp⟩ := serving_of_service? hs
  rw [accept]
  split
  · split
    · exact ⟨_, rfl, rfl, rfl, rfl, items_prefix_offer _ _⟩
    · exact ⟨l, (Posts.set_of_getElem? hl).symm, rfl, rfl, rfl, List.prefix_rfl⟩
  · exact ⟨_, rfl, rfl, (stage_of_serving hp).symm, rfl, List.prefix_rfl⟩

private theorem turn_read (h : p.read i = some q) (hl : p.links[i]? = some l) :
    p.Turned (.read i) i l q := by
  obtain ⟨⟨l', s⟩, hs, h⟩ := Option.bind_eq_some_iff.1 h
  obtain ⟨hl', hp⟩ := serving_of_service? hs
  cases hl.symm.trans hl'
  simp only at h
  split at h
  · cases h
  · obtain ⟨w, -, h⟩ := Option.bind_eq_some_iff.1 h
    split at h <;> cases h
    · exact ⟨_, rfl, rfl, .serve hs rfl rfl rfl rfl rfl (.inr List.prefix_rfl)⟩
    · exact ⟨l, (Posts.set_of_getElem? hl).symm, rfl,
        .serve hs hp rfl rfl rfl rfl (.inr List.prefix_rfl)⟩
    · obtain ⟨k, hk, hset, hstage, hstate, hown⟩ :=
        links_accept (p := p.modifyWire s.wire _) hs _
      exact ⟨k, hk, hset, .stays hstage hstate rfl rfl, .inr hown⟩

private theorem turn_readLast (h : p.readLast i = some q) (hl : p.links[i]? = some l) :
    p.Turned (.readLast i) i l q := by
  obtain ⟨⟨l', s⟩, hs, h⟩ := Option.bind_eq_some_iff.1 h
  cases hl.symm.trans (serving_of_service? hs).1
  simp only at h
  split at h
  · cases h
  · obtain ⟨w, -, h⟩ := Option.bind_eq_some_iff.1 h
    split at h
    · split at h <;> cases h
      exact ⟨_, rfl, rfl, .serve hs rfl rfl rfl rfl rfl (.inr List.prefix_rfl)⟩
    · cases h

private theorem turn_supervise {final : Bool} (h : p.supervise i final = some q)
    (hl : p.links[i]? = some l) : p.Turned (.supervise i final) i l q := by
  obtain ⟨⟨l', s⟩, hs, h⟩ := Option.bind_eq_some_iff.1 h
  obtain ⟨hl', hp⟩ := serving_of_service? hs
  cases hl.symm.trans hl'
  simp only at h
  split at h
  · cases h
  · next hstop =>
    obtain ⟨hf, h⟩ := Option.ite_none_right_eq_some.1 h
    cases h
    have hwas : l.stage = .serving s.wire false s.final := by
      rw [stage_of_serving hp, Bool.eq_false_iff.2 hstop]
    refine ⟨_, rfl, rfl, .tells hwas ?_ rfl rfl, .inr List.prefix_rfl⟩
    rintro rfl
    simpa using hf

private theorem turn_conclude (h : p.conclude now i = some q) (hl : p.links[i]? = some l) :
    p.Turned (.conclude i) i l q := by
  obtain ⟨⟨l', s⟩, hs, h⟩ := Option.bind_eq_some_iff.1 h
  obtain ⟨hl', hp⟩ := serving_of_service? hs
  cases hl.symm.trans hl'
  simp only at h
  split at h
  · next hended =>
    have he : p.ended? i (.conclude i) = some s.wire := by simp [ended?, hs, hended.2]
    have hwas : l.stage = .serving s.wire true s.final := by rw [stage_of_serving hp, hended.1]
    split at h <;> cases h
    · next hf => exact ⟨_, rfl, rfl, .concludes (hf ▸ hwas) he rfl rfl, .inr List.prefix_rfl⟩
    · next hf =>
      rw [Bool.eq_false_iff.2 hf] at hwas
      exact ⟨_, rfl, rfl, .pauses hwas he rfl rfl, .inr List.prefix_rfl⟩
  · cases h

private theorem links_setWorker (p : Pool κ) (j w : Nat) (x : Worker κ)
    (hl : p.links[i]? = some l) : ∃ k, (p.setWorker j w x).links[i]? = some k ∧
      k.stage = l.stage ∧ k.state = l.state ∧ k.system = l.system := by
  rw [setWorker]
  split
  · next l' s hs =>
    obtain ⟨hl', hp⟩ := serving_of_service? hs
    show ∃ k, (p.links.set j _)[i]? = some k ∧ _
    by_cases hij : j = i
    · subst hij
      cases hl.symm.trans hl'
      rw [List.getElem?_set_self (List.getElem?_eq_some_iff.1 hl).1]
      exact ⟨_, rfl, (stage_of_serving hp).symm, rfl, rfl⟩
    · rw [List.getElem?_set_ne hij]
      exact ⟨l, hl, rfl, rfl, rfl⟩
  · exact ⟨l, hl, rfl, rfl, rfl⟩

private theorem turn_of_own (h : p.move? now m = some q) (hi : m.link? = some i)
    (hl : p.links[i]? = some l) : p.Turned m i l q := by
  cases m with
  | connect j =>
    cases hi
    exact turn_connect h hl
  | refuse j =>
    cases hi
    exact turn_refuse h hl
  | wake j =>
    cases hi
    exact turn_wake h hl
  | halt j =>
    cases hi
    exact turn_halt h hl
  | transmit j n =>
    cases hi
    exact turn_transmit h hl
  | failWrite j =>
    cases hi
    exact turn_failWrite h hl
  | fetchOutbound j =>
    cases hi
    exact turn_fetchOutbound h hl
  | read j =>
    cases hi
    exact turn_read h hl
  | readLast j =>
    cases hi
    exact turn_readLast h hl
  | supervise j final =>
    cases hi
    exact turn_supervise h hl
  | conclude j =>
    cases hi
    exact turn_conclude h hl
  | stopWriter j | readOn j | stopReader j =>
    cases hi
    obtain ⟨⟨l', s⟩, hs, h⟩ := Option.bind_eq_some_iff.1 h
    cases hl.symm.trans (serving_of_service? hs).1
    simp only at h
    repeat' split at h
    all_goals cases h
    all_goals exact ⟨_, rfl, rfl, .serve hs rfl rfl rfl rfl rfl (.inr List.prefix_rfl)⟩
  | stopWorker j w =>
    cases hi
    obtain ⟨⟨l', s⟩, hs, h⟩ := Option.bind_eq_some_iff.1 h
    cases hl.symm.trans (serving_of_service? hs).1
    obtain ⟨x, -, h⟩ := Option.bind_eq_some_iff.1 h
    split at h
    · split at h <;> cases h
      simp only [setWorker, hs]
      exact ⟨_, rfl, rfl, .serve hs rfl rfl rfl rfl rfl (.inr List.prefix_rfl)⟩
    · cases h
  | tick | stopTicker => cases hi

private theorem dialled?_of_ne (h : m.link? ≠ some i) : p.dialled? i m = none := by
  cases m with
  | connect j => exact if_neg fun hj ↦ h (congrArg some hj)
  | _ => rfl

private theorem ended?_of_ne (h : m.link? ≠ some i) : p.ended? i m = none := by
  cases m with
  | failWrite j | conclude j => exact if_neg fun hj ↦ h (congrArg some hj)
  | _ => rfl

/-- Every move is a turn of every link, and most leave it where it was. -/
theorem turn_of_move? (h : p.move? now m = some q) (hl : p.links[i]? = some l) :
    ∃ k, q.links[i]? = some k ∧ p.Turn m i l k := by
  by_cases hi : m.link? = some i
  · obtain ⟨k, hk, -, ht⟩ := turn_of_own h hi hl
    rw [hk, List.getElem?_set_self (List.getElem?_eq_some_iff.1 hl).1]
    exact ⟨k, rfl, ht⟩
  · have hd : p.dialled? i m = none := dialled?_of_ne hi
    have he : p.ended? i m = none := ended?_of_ne hi
    cases hj : m.link? with
    | some j =>
      obtain ⟨_, _, hm⟩ := moves_of_move? h hj
      have hne : j ≠ i := fun hji ↦ hi (hj.trans (congrArg some hji))
      rw [hm.links, List.getElem?_set_ne hne]
      exact ⟨l, hl, .stays rfl rfl hd he, .inr List.prefix_rfl⟩
    | none =>
      obtain ⟨hq | hq, -⟩ := clock_of_move? h hj
      · rw [hq]
        exact ⟨l, hl, .stays rfl rfl hd he, .inr List.prefix_rfl⟩
      · rw [hq, List.getElem?_map, hl]
        refine ⟨p.question l, rfl, ?_⟩
        rw [question]
        split
        · exact ⟨.stays rfl rfl hd he, .inr (items_prefix_offer _ _)⟩
        · exact ⟨.stays rfl rfl hd he, .inr List.prefix_rfl⟩

/-- No link comes or goes. -/
theorem length_links_of_move? (h : p.move? now m = some q) : q.links.length = p.links.length := by
  cases hi : m.link? with
  | some i =>
    obtain ⟨_, _, hm⟩ := moves_of_move? h hi
    rw [hm.links, List.length_set]
  | none =>
    obtain ⟨hq | hq, -⟩ := clock_of_move? h hi
    · rw [hq]
    · rw [hq, List.length_map]

/-- No move changes the settings. -/
theorem settings_of_move? (h : p.move? now m = some q) : q.settings = p.settings := by
  cases hi : m.link? with
  | some i =>
    obtain ⟨_, _, hm⟩ := moves_of_move? h hi
    obtain ⟨_, -, hset, -⟩ := turn_of_own h hi hm.at_link
    exact hset
  | none =>
    cases m with
    | tick | stopTicker =>
      simp only [move?, tick, stopTicker] at h
      repeat' split at h
      all_goals cases h
      all_goals rfl
    | _ => cases hi

/-! ### What every way has in common -/

/-- What can be seen of a link keeps going with its stage, and changes only as it may. -/
theorem Passes.shows (h : p.Passes i l k m) (hl : l.stage.Shows l.state) :
    k.stage.Shows k.state ∧ (k.state = l.state ∨ l.state.Leads k.state) := by
  cases h with
  | stays hs hst => exact ⟨by rwa [hs, hst], .inl hst⟩
  | connects hwas hs hst =>
    rw [hwas] at hl
    rw [hs, hst, show l.state = .dialing from hl]
    exact ⟨rfl, .inr .connects⟩
  | refuses hwas hs hst =>
    rw [hwas] at hl
    rw [hs, hst]
    exact ⟨.inl hl, .inl rfl⟩
  | wakes hwas hs hst =>
    rw [hwas] at hl
    rw [hs, hst]
    refine ⟨rfl, ?_⟩
    rcases hl with hl | hl <;> rw [hl]
    · exact .inl rfl
    · exact .inr .redials
  | halts hwas _ hs hst =>
    rw [hs, hst]
    refine ⟨rfl, .inr ?_⟩
    have hl' : l.state = .dialing ∨ l.state = .draining := by
      rcases hwas with hwas | hwas <;> rw [hwas] at hl
      · exact .inl hl
      · exact hl
    rcases hl' with hl' | hl' <;> rw [hl']
    · exact .halts
    · exact .concludes
  | introduces hwas hs hst =>
    rw [hwas] at hl
    rw [hs, hst]
    exact ⟨hl, .inl rfl⟩
  | abandons hwas _ hs hst | tells hwas _ hs hst =>
    rw [hwas] at hl
    rw [hs, hst, show l.state = .connected from hl]
    exact ⟨by simp [LinkStage.Shows], .inr .drains⟩
  | pauses hwas _ hs hst =>
    rw [hwas] at hl
    rw [hs, hst]
    exact ⟨.inr hl, .inl rfl⟩
  | concludes hwas _ hs hst =>
    rw [hwas] at hl
    rw [hs, hst, show l.state = .draining from hl]
    exact ⟨rfl, .inr .concludes⟩

/-- A link that has heard the shutdown signal heard it before, or it has been raised. -/
theorem Passes.final (h : p.Passes i l k m) (hk : k.stage.Final) :
    l.stage.Final ∨ p.stopping = true := by
  cases h with
  | stays hs => exact .inl (hs ▸ hk)
  | halts _ hst => exact .inr hst
  | concludes hwas =>
    rw [hwas]
    exact .inl rfl
  | tells _ hst hs =>
    rw [hs] at hk
    exact .inr (hst hk)
  | introduces _ hs =>
    rw [hs] at hk
    cases hk
  | connects _ hs | refuses _ hs | wakes _ hs | abandons _ _ hs | pauses _ _ hs =>
    rw [hs] at hk
    exact hk.elim

/-- A link gets a connection only when it has none, and has it until the connection ends. -/
theorem Passes.wires (h : p.Passes i l k m) :
    l.stage.wire?.toList ++ (p.dialled? i m).toList =
      (p.ended? i m).toList ++ k.stage.wire?.toList := by
  cases h with
  | stays hs _ hd he => rw [hs, hd, he, Option.toList_none, List.append_nil, List.nil_append]
  | connects hwas hs => simp [hwas, hs, dialled?, ended?, LinkStage.wire?]
  | abandons hwas he hs | pauses hwas he hs | concludes hwas he hs =>
    rw [hwas, hs, he]
    rfl
  | halts hwas _ hs =>
    rw [hs]
    rcases hwas with hwas | hwas <;> rw [hwas] <;> rfl
  | refuses hwas hs | wakes hwas hs | introduces hwas hs | tells hwas _ hs =>
    rw [hwas, hs]
    rfl

end Pool

namespace Forwarder

variable {p q : Forwarder η κ} {m : Move η κ} {i : Nat} {l k : Link κ}

/-- The connection that a link gets in a move. -/
def dialled? (p : Forwarder η κ) (i : Nat) : Move η κ → Option Nat
  | .link m => p.pool.dialled? i m
  | _ => none

/-- The connection of a link that ends in a move. -/
def ended? (p : Forwarder η κ) (i : Nat) : Move η κ → Option Nat
  | .link m => p.pool.ended? i m
  | _ => none

/-- What any move does to a link. -/
structure Turn (p : Forwarder η κ) (m : Move η κ) (i : Nat) (l k : Link κ) : Prop where
  shows : l.stage.Shows l.state →
    k.stage.Shows k.state ∧ (k.state = l.state ∨ l.state.Leads k.state)
  final : k.stage.Final → l.stage.Final ∨ p.pool.stopping = true
  wires : l.stage.wire?.toList ++ (p.dialled? i m).toList =
    (p.ended? i m).toList ++ k.stage.wire?.toList
  own : m = .link (.fetchOutbound i) ∨ l.system.items <+: k.system.items

private theorem Turn.rest (hs : k.stage = l.stage) (hst : k.state = l.state)
    (hown : k.system = l.system) (hd : p.dialled? i m = none)
    (he : p.ended? i m = none) : p.Turn m i l k where
  shows hl := ⟨by rwa [hs, hst], .inl hst⟩
  final hk := .inl (hs ▸ hk)
  wires := by rw [hs, hd, he, Option.toList_none, List.append_nil, List.nil_append]
  own := .inr (hown ▸ List.prefix_rfl)

/-- What any move does to the links, of which there are always as many. -/
structure Turns (p : Forwarder η κ) (m : Move η κ) (q : Forwarder η κ) : Prop where
  length : q.pool.links.length = p.pool.links.length
  settings : q.pool.settings = p.pool.settings
  stopping : q.pool.stopping = p.pool.stopping ∨ q.pool.stopping = true ∧ m = .shutdown
  turn : ∀ i l, p.pool.links[i]? = some l → ∃ k, q.pool.links[i]? = some k ∧ p.Turn m i l k

private theorem Turns.rest (hl : q.pool.links = p.pool.links)
    (hset : q.pool.settings = p.pool.settings)
    (hstop : q.pool.stopping = p.pool.stopping ∨ q.pool.stopping = true ∧ m = .shutdown)
    (hd : ∀ i, p.dialled? i m = none) (he : ∀ i, p.ended? i m = none) : p.Turns m q where
  length := congrArg _ hl
  settings := hset
  stopping := hstop
  turn i l h := ⟨l, by rw [hl, h], .rest rfl rfl rfl (hd i) (he i)⟩

private theorem Turns.setWorker {pool : Pool κ} (hl : pool.links = p.pool.links)
    (hset : pool.settings = p.pool.settings) (hstop : pool.stopping = p.pool.stopping) (j w : Nat)
    (x : Worker κ) (hd : ∀ i, p.dialled? i m = none) (he : ∀ i, p.ended? i m = none) :
    p.Turns m { p with pool := pool.setWorker j w x } where
  length := by
    rw [← hl]
    simp only [Pool.setWorker]
    split
    · exact List.length_set
    · rfl
  settings := by
    rw [← hset]
    simp only [Pool.setWorker]
    split <;> rfl
  stopping := by
    rw [← hstop]
    simp only [Pool.setWorker]
    split <;> exact .inl rfl
  turn i l h := by
    obtain ⟨k, hk, hstage, hstate, hown⟩ := pool.links_setWorker j w x (by rwa [hl])
    exact ⟨k, hk, .rest hstage hstate hown (hd i) (he i)⟩

private theorem turns_launch (hs : p.pool.Slept) :
    p.Turns .launch { p with pool := p.pool.launch p.now } := by
  rw [Pool.launch]
  split
  · next ht =>
    refine ⟨List.length_map _, rfl, .inl rfl, fun i l hl ↦ ?_⟩
    have hasleep : l.stage = .asleep := by rw [Link.stage, hs ht l (List.mem_of_getElem? hl)]
    refine ⟨{ l with phase := .dialing }, by rw [List.getElem?_map, hl]; rfl, ?_, False.elim, ?_,
      .inr List.prefix_rfl⟩
    · intro hshow
      rw [hasleep] at hshow
      exact ⟨hshow, .inl rfl⟩
    · rw [hasleep]
      rfl
  · exact .rest rfl rfl (.inl rfl) (fun _ ↦ rfl) fun _ ↦ rfl

/-- Every move is a turn of every link. -/
theorem turns_of_move? (hs : p.pool.Slept) (hm : p.move? m = some q) : p.Turns m q := by
  cases m with
  | register | wait | send | withdraw | backendSays | backendEnds =>
    cases hm
    exact .rest rfl rfl (.inl rfl) (fun _ ↦ rfl) fun _ ↦ rfl
  | launch =>
    cases hm
    exact turns_launch hs
  | shutdown =>
    cases hm
    rw [Pool.signal]
    split
    · exact .rest rfl rfl (.inl rfl) (fun _ ↦ rfl) fun _ ↦ rfl
    · exact .rest rfl rfl (.inr ⟨rfl, rfl⟩) (fun _ ↦ rfl) fun _ ↦ rfl
  | link m =>
    obtain ⟨pool, hp, rfl⟩ := Option.map_eq_some_iff.1 hm
    refine ⟨Pool.length_links_of_move? hp, Pool.settings_of_move? hp,
      .inl (Pool.onward_of_move? hp).2, fun i l hl ↦ ?_⟩
    obtain ⟨k, hk, hpass, hown⟩ := Pool.turn_of_move? hp hl
    exact ⟨k, hk, hpass.shows, hpass.final, hpass.wires, hown.imp_left (congrArg _)⟩
  | fetch j w x =>
    obtain ⟨⟨f, pool⟩, hf, hm⟩ := Option.bind_eq_some_iff.1 hm
    obtain ⟨hl, hset, hstop⟩ : pool.links = p.pool.links ∧ pool.settings = p.pool.settings ∧
        pool.stopping = p.pool.stopping := by
      obtain ⟨y, -, hf⟩ := Option.bind_eq_some_iff.1 hf
      split at hf
      · obtain ⟨⟨g, inbound⟩, -, hf⟩ := Option.bind_eq_some_iff.1 hf
        cases hf
        exact ⟨rfl, rfl, rfl⟩
      · cases hf
    simp only at hm
    split at hm <;> cases hm
    · exact .setWorker hl hset hstop j w x (fun _ ↦ rfl) fun _ ↦ rfl
    · exact .rest hl hset (.inl hstop) (fun _ ↦ rfl) fun _ ↦ rfl
  | resume j w x =>
    obtain ⟨y, -, hm⟩ := Option.bind_eq_some_iff.1 hm
    split at hm <;> cases hm
    exact Turns.setWorker (p := p) rfl rfl rfl j w _ (fun _ ↦ rfl) fun _ ↦ rfl

/-! ### Whole runs -/

variable {s : LinkSettings} {t : List (Forwarder η κ × Move η κ)}

/-- The connections that a link has had, in the order in which it got them. -/
def dialled (t : List (Forwarder η κ × Move η κ)) (i : Nat) : List Nat :=
  t.filterMap fun x ↦ x.1.dialled? i x.2

/-- The connections of a link that have ended, in the order in which they did. -/
def ended (t : List (Forwarder η κ × Move η κ)) (i : Nat) : List Nat :=
  t.filterMap fun x ↦ x.1.ended? i x.2

/-- One more move adds the connection that is dialled in it. -/
theorem dialled_append (t : List (Forwarder η κ × Move η κ)) (p : Forwarder η κ)
    (m : Move η κ) (i : Nat) :
    dialled (t ++ [(p, m)]) i = dialled t i ++ (p.dialled? i m).toList := by
  cases h : p.dialled? i m <;> simp [dialled, h]

/-- One more move adds the connection that ends in it. -/
theorem ended_append (t : List (Forwarder η κ × Move η κ)) (p : Forwarder η κ)
    (m : Move η κ) (i : Nat) : ended (t ++ [(p, m)]) i = ended t i ++ (p.ended? i m).toList := by
  cases h : p.ended? i m <;> simp [ended, h]

/-- What is known of the links in every run. -/
structure Underway (s : LinkSettings) (t : List (Forwarder η κ × Move η κ))
    (p : Forwarder η κ) : Prop where
  slept : p.pool.Slept
  length : p.pool.links.length = max s.links 1
  settings : p.pool.settings = s
  signalled : p.pool.stopping = true → ∃ b, (b, .shutdown) ∈ t
  shows : ∀ (i : Nat) l, p.pool.links[i]? = some l → l.stage.Shows l.state
  final : ∀ (i : Nat) l, p.pool.links[i]? = some l → l.stage.Final → p.pool.stopping = true
  /-- All connections of a link have ended but the one that it has. -/
  dialled : ∀ (i : Nat) l, p.pool.links[i]? = some l →
    dialled t i = ended t i ++ l.stage.wire?.toList

private theorem underway_start (s : LinkSettings) :
    Underway s [] (start s : Forwarder η κ) := by
  have hfresh : ∀ (i : Nat) l, (Pool.fresh s : Pool κ).links[i]? = some l → l = .fresh :=
    fun i l hl ↦
    List.eq_of_mem_replicate (List.mem_of_getElem? hl)
  refine ⟨Pool.slept_fresh s, List.length_replicate, rfl, nofun, ?_, ?_, ?_⟩
  · intro i l hl
    rw [hfresh i l hl]
    rfl
  · intro i l hl hf
    rw [hfresh i l hl] at hf
    exact hf.elim
  · intro i l hl
    rw [hfresh i l hl]
    rfl

private theorem Underway.move (h : Underway s t p) (hm : p.move? m = some q) :
    Underway s (t ++ [(p, m)]) q := by
  have ht := turns_of_move? h.slept hm
  have back : ∀ (i : Nat) k, q.pool.links[i]? = some k → ∃ l, p.pool.links[i]? = some l ∧
    p.Turn m i l k := by
    intro i k hk
    have hlt := (List.getElem?_eq_some_iff.1 hk).1
    rw [ht.length] at hlt
    obtain ⟨k', hk', hturn⟩ := ht.turn i _ (List.getElem?_eq_getElem hlt)
    cases hk.symm.trans hk'
    exact ⟨_, List.getElem?_eq_getElem hlt, hturn⟩
  refine ⟨slept_of_move? h.slept hm, ht.length.trans h.length, ht.settings.trans h.settings, ?_,
    ?_, ?_, ?_⟩
  · intro hstop
    rcases ht.stopping with he | ⟨-, rfl⟩
    · obtain ⟨b, hb⟩ := h.signalled (he ▸ hstop)
      exact ⟨b, List.mem_append_left _ hb⟩
    · exact ⟨p, List.mem_append_right _ (List.mem_singleton_self _)⟩
  · intro i k hk
    obtain ⟨l, hl, hturn⟩ := back i k hk
    exact (hturn.shows (h.shows i l hl)).1
  · intro i k hk hf
    obtain ⟨l, hl, hturn⟩ := back i k hk
    have hstop : p.pool.stopping = true := (hturn.final hf).elim (h.final i l hl) id
    rcases ht.stopping with he | ⟨he, -⟩
    · rw [he, hstop]
    · exact he
  · intro i k hk
    obtain ⟨l, hl, hturn⟩ := back i k hk
    rw [dialled_append, ended_append, h.dialled i l hl, List.append_assoc, hturn.wires,
      List.append_assoc]

/-- In every run every link has one connection at a time. -/
theorem underway_of_journal (h : Journal move? (start s) t p) : Underway s t p := by
  induction h with
  | start => exact underway_start s
  | move _ hm ih => exact ih.move hm

end Forwarder

end EdgeGateway
