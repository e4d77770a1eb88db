import EdgeGateway.Proofs.Link.Conservation
import EdgeGateway.Proofs.Link.Course

/-!
# The life of a link

A link has one connection after another. On each stands its introduction first and then one whole
frame after the other, and the last one may be cut off only where a write failed. Once a connection
has ended nothing more is written on it, and only then the link dials again. The main statement is
`lifecycle`.
-/

namespace EdgeGateway

variable {η κ : Type}

/-! ### What is written on a connection -/

namespace Pool

variable {p q : Pool κ} {e : Option Pen} {w : Nat}

private theorem Writes.length_le (h : p.Writes q e) : p.sheets.length ≤ q.sheets.length := by
  cases h with
  | rests hq => exact Nat.le_of_eq (congrArg _ hq.sheets.symm)
  | leaves _ _ _ _ hs | takes _ _ hs | fails _ _ _ hs => exact Nat.le_of_eq (congrArg _ hs.symm)
  | connects _ _ hs =>
    rw [hs, List.length_append]
    exact Nat.le_add_right ..
  | writes _ _ _ hs | finishes _ _ hs =>
    exact Nat.le_of_eq (by rw [hs, List.length_modify])

private theorem Writes.absent (h : p.Writes q e) (hw : w < p.sheets.length)
    (ha : Posts.At p.desks w none) : q.sheets[w]? = p.sheets[w]? := by
  cases h with
  | rests hq => rw [hq.sheets]
  | leaves _ _ _ _ hs | takes _ _ hs | fails _ _ _ hs => rw [hs]
  | connects _ _ hs => rw [hs, List.getElem?_append_left hw]
  | @writes i v _ _ _ hi _ _ hs | @finishes i v _ _ hi _ hs =>
    have hne : w ≠ v := by
      rintro rfl
      exact ha i _ hi
    rw [hs, Posts.getElem?_modify_of_ne hne]

end Pool

namespace Forwarder

variable {p q : Forwarder η κ} {m : Move η κ}

private theorem writes_or_rests (hs : p.pool.Slept) (hm : p.move? m = some q) :
    (∃ n, m = .link n ∧ p.pool.Writes q.pool (p.pool.penned? n)) ∨
      q.pool.sheets = p.pool.sheets ∧ ∀ o : Freight, (o.note p m).loads = o.loads := by
  rcases sameDesks_of_move? hs hm with ⟨hsame, hnote⟩ | ⟨f, rfl⟩ | ⟨k, rfl⟩
    | ⟨n, rfl⟩
  · exact .inr ⟨hsame.sheets, fun o ↦ congrArg Freight.loads (hnote o)⟩
  · cases hm
    exact .inr ⟨rfl, fun _ ↦ rfl⟩
  · cases hm
    exact .inr ⟨rfl, fun _ ↦ rfl⟩
  · obtain ⟨pool, hp, rfl⟩ := Option.map_eq_some_iff.1 hm
    exact .inl ⟨n, rfl, Pool.writes_of_move? hp⟩

end Forwarder

namespace Freight

variable {o : Freight} {p q : Pool κ} {e : Option Pen} {s : LinkSettings} {w v : Nat}

-- The first frame that is taken for every connection is the introduction.
private def Introduced (s : LinkSettings) (o : Freight) (n : Nat) : Prop :=
  ∀ w < n, ((onWire Load.wire w o.loads).map (·.frame)).head? = some s.introduction

private theorem frames_settle (xs : List Load) (x : Fate) :
    (onWire Load.wire w (xs.map (Load.settle v x))).map (·.frame) =
      (onWire Load.wire w xs).map (·.frame) := by
  rw [Load.onWire_settle, List.map_map]
  exact List.map_congr_left fun y _ ↦ Load.frame_settle

private theorem head?_on_append {xs : List Load} {x : Load} {f : Frame}
    (h : ((onWire Load.wire w xs).map (·.frame)).head? = some f) :
    ((onWire Load.wire w (xs ++ [x])).map (·.frame)).head? = some f := by
  rw [onWire_append, List.map_append, List.head?_append, h]
  rfl

private theorem Introduced.writes (h : o.Introduced s p.sheets.length) (ha : o.Agrees p)
    (hset : p.settings = s) (hw : p.Writes q e) : (o.penMove e).Introduced s q.sheets.length := by
  cases hw with
  | rests hq =>
    rw [hq.sheets]
    exact h
  | leaves _ _ _ _ hs =>
    rw [hs]
    exact h
  | writes _ _ _ hs =>
    rw [hs, List.length_modify]
    exact h
  | connects _ _ hs =>
    intro w hw
    rw [hs, List.length_append, List.length_singleton] at hw
    by_cases hlt : w < p.sheets.length
    · exact head?_on_append (h w hlt)
    · have hw' : p.wires.length = w := by
        have : p.sheets.length = p.wires.length := List.length_map _
        omega
      have hnone : onWire Load.wire w o.loads = [] := by
        refine List.filter_eq_nil_iff.2 fun x hx hxw ↦ hlt ?_
        exact of_decide_eq_true hxw ▸ ha.within x hx
      rw [penMove, pen, onWire_append, hnone, hw', hset]
      simp [onWire]
  | @takes _ _ shared _ _ _ hs =>
    rw [hs]
    cases shared <;> exact fun w hw ↦ head?_on_append (h w hw)
  | finishes _ _ hs =>
    intro w hw
    rw [hs, List.length_modify] at hw
    rw [penMove, pen, frames_settle]
    exact h w hw
  | fails _ _ _ hs =>
    intro w hw
    rw [hs] at hw
    rw [penMove, pen, frames_settle]
    exact h w hw

variable {a b : Forwarder η κ} {t : List (Forwarder η κ × Forwarder.Move η κ)}

private theorem introduced_of_journal (h : Journal Forwarder.move? (Forwarder.start s) t a) :
    (of t).Introduced s a.pool.sheets.length := by
  induction h with
  | start => exact nofun
  | @move t a b m ht hm ih =>
    rw [of, Journal.account_append]
    have hu := Forwarder.underway_of_journal ht
    rcases Forwarder.writes_or_rests hu.slept hm with ⟨n, rfl, hw⟩ | ⟨hsheets, hloads⟩
    · exact ih.writes (agrees_of_journal ht).1 hu.settings hw
    · rw [hsheets]
      intro w hw
      rw [hloads]
      exact ih w hw

end Freight

namespace Forwarder

variable {p q b : Forwarder η κ} {m : Move η κ} {s : LinkSettings}
  {t u v : List (Forwarder η κ × Move η κ)} {i w : Nat}

/-- On a connection stand the introduction, then whole frames, and behind them perhaps the beginning
of one more, which a writer is writing or of which no more was written because a write failed. -/
def Legible (s : LinkSettings) (t : List (Forwarder η κ × Move η κ)) (p : Forwarder η κ)
    (w : Nat) (x : Wire) : Prop :=
  ∃ f cut left, (x.written ++ [f]).head? = some s.introduction ∧ f.bytes = cut ++ left ∧
    x.bytes = x.written.flatMap (·.bytes) ++ cut ∧
    (cut = [] ∨ (∃ i, p.pool.held? i = some (w, f, left)) ∨
      ∃ b i rest, (b, .link (.failWrite i)) ∈ t ∧ b.pool.held? i = some (w, f, rest))

private theorem legible_of_journal (h : Journal move? (start s) t p) {x : Wire}
    (hx : p.pool.wires[w]? = some x) : Legible s t p w x := by
  have hs : p.pool.sheets[w]? = some (x.portions, x.finished) := by
    rw [Pool.sheets, List.getElem?_map, hx]
    rfl
  have hw : w < p.pool.sheets.length := (List.getElem?_eq_some_iff.1 hs).1
  obtain ⟨z, hz, hp⟩ := (Freight.agrees_of_journal h).1.manned.holds w hw
  have hintro := Freight.introduced_of_journal h w hw
  cases hp _ hs with
  | clean _ hf =>
    refine ⟨s.introduction, [], s.introduction.bytes, ?_, rfl, hf.bytes.trans ?_, .inl rfl⟩
    · rw [← hf.frames] at hintro
      rw [List.head?_append, Wire.written, hintro]
      rfl
    · rw [Wire.written, hf.frames, List.flatMap_map]
  | @held ys k f cut left hxs hfb hf =>
    refine ⟨f, cut, left, ?_, hfb, hf.bytes.trans ?_, .inr (.inl ?_)⟩
    · rw [hxs, List.map_append, ← hf.frames] at hintro
      exact hintro
    · rw [Wire.written, hf.frames, List.flatMap_map]
    · obtain ⟨i, hi⟩ := hz
      exact ⟨i, Pool.held?_eq_some_iff.2 hi⟩
  | @lost ys k f cut left _ _ hxs hfb hf =>
    refine ⟨f, cut, left, ?_, hfb, hf.bytes.trans ?_, .inr (.inr ?_)⟩
    · rw [hxs, List.map_append, ← hf.frames] at hintro
      exact hintro
    · rw [Wire.written, hf.frames, List.flatMap_map]
    · have hmem : (⟨w, k, f, .lost⟩ : Load) ∈ onWire Load.wire w (Freight.of t).loads := by
        rw [hxs]
        exact List.mem_append_right _ (List.mem_singleton_self _)
      exact Freight.failed_of_lost h (List.mem_filter.1 hmem).1 rfl

/-! ### Connections of one's own -/

private theorem connect_of_dialled? (h : p.dialled? i m = some w) :
    m = .link (.connect i) ∧ w = p.pool.sheets.length := by
  cases m with
  | link m =>
    cases m with
    | connect j =>
      rw [dialled?, Pool.dialled?, Option.ite_none_right_eq_some] at h
      obtain ⟨rfl, h⟩ := h
      cases h
      exact ⟨rfl, (List.length_map _).symm⟩
    | _ => cases h
  | _ => cases h

private theorem length_sheets_of_move? (hs : p.pool.Slept) (hm : p.move? m = some q) :
    p.pool.sheets.length ≤ q.pool.sheets.length ∧
      ∀ i w, p.dialled? i m = some w → w = p.pool.sheets.length ∧
      w < q.pool.sheets.length := by
  refine ⟨?_, fun i w hd ↦ ?_⟩
  · rcases writes_or_rests hs hm with ⟨n, -, hw⟩ | ⟨hsheets, -⟩
    · exact hw.length_le
    · exact Nat.le_of_eq (congrArg _ hsheets.symm)
  · obtain ⟨rfl, rfl⟩ := connect_of_dialled? hd
    obtain ⟨pool, hp, rfl⟩ := Option.map_eq_some_iff.1 hm
    obtain ⟨l, -, hp⟩ := Option.bind_eq_some_iff.1 hp
    split at hp <;> cases hp
    simp [Pool.sheets, Pool.setLink]

/-- No connection is had by two links, or by one link twice. -/
structure Distinct (t : List (Forwarder η κ × Move η κ)) (p : Forwarder η κ) : Prop where
  known : ∀ i, ∀ w ∈ dialled t i, w < p.pool.sheets.length
  nodup : ∀ i, (dialled t i).Nodup
  apart : ∀ i j w, w ∈ dialled t i → w ∈ dialled t j → i = j

private theorem distinct_of_journal (h : Journal move? (start s) t p) : Distinct t p := by
  induction h with
  | start => exact ⟨nofun, fun _ ↦ List.nodup_nil, nofun⟩
  | @move t p q m ht hm ih =>
    obtain ⟨hle, hnew⟩ := length_sheets_of_move? (underway_of_journal ht).slept hm
    have hmem : ∀ i w, w ∈ dialled (t ++ [(p, m)]) i ↔
      w ∈ dialled t i ∨ p.dialled? i m = some w := by
      intro i w
      rw [dialled_append, List.mem_append, Option.mem_toList]
    have hout : ∀ i j w, w ∈ dialled t i → p.dialled? j m ≠ some w := by
      intro i j w hw hd
      have := ih.known i w hw
      have := (hnew j w hd).1
      omega
    refine ⟨fun i w hw ↦ ?_, fun i ↦ ?_, fun i j w hi hj ↦ ?_⟩
    · rcases (hmem i w).1 hw with hw | hd
      · exact Nat.lt_of_lt_of_le (ih.known i w hw) hle
      · exact (hnew i w hd).2
    · rw [dialled_append, List.nodup_append]
      refine ⟨ih.nodup i, ?_, ?_⟩
      · cases p.dialled? i m <;> simp
      · rintro w hw v hv rfl
        exact hout i i w hw (Option.mem_toList.1 hv)
    · rcases (hmem i w).1 hi with hi | hi <;> rcases (hmem j w).1 hj with hj | hj
      · exact ih.apart i j w hi hj
      · exact absurd hj (hout i j w hi)
      · exact absurd hi (hout j i w hj)
      · obtain ⟨hm, -⟩ := connect_of_dialled? hi
        obtain ⟨hm', -⟩ := connect_of_dialled? hj
        cases hm.symm.trans hm'
        rfl

private theorem exists_link_of_desk {w : Nat} {x : Writer} {p : Pool κ}
    (h : p.desks[i]? = some (some (w, x))) :
    ∃ l, p.links[i]? = some l ∧ l.stage.wire? = some w := by
  rw [Pool.desks, List.getElem?_map] at h
  obtain ⟨l, hl, h⟩ := Option.map_eq_some_iff.1 h
  refine ⟨l, hl, ?_⟩
  rw [Link.desk?] at h
  rw [Link.stage]
  split at h <;> cases h <;> simp [LinkStage.wire?, *]

private theorem exists_link_of_ended (h : Journal move? (start s) t p) (hw : w ∈ ended t i) :
    ∃ l, p.pool.links[i]? = some l := by
  obtain ⟨⟨b, m⟩, hb, he⟩ := List.mem_filterMap.1 hw
  obtain ⟨u, v, d, -, hu, -⟩ := h.split_of_mem hb
  have hlt : i < b.pool.links.length := by
    cases m with
    | link m =>
      cases m with
      | failWrite j =>
        obtain ⟨rfl, he⟩ := Option.ite_none_right_eq_some.1 he
        obtain ⟨l, hl, -⟩ := Option.bind_eq_some_iff.1 he
        exact (List.getElem?_eq_some_iff.1 hl).1
      | conclude j =>
        obtain ⟨rfl, he⟩ := Option.ite_none_right_eq_some.1 he
        obtain ⟨⟨l, x⟩, hs, -⟩ := Option.bind_eq_some_iff.1 he
        exact (List.getElem?_eq_some_iff.1 (Pool.serving_of_service? hs).1).1
      | _ => cases he
    | _ => cases he
  rw [(underway_of_journal hu).length, ← (underway_of_journal h).length] at hlt
  exact ⟨_, List.getElem?_eq_getElem hlt⟩

private theorem absent_of_ended (h : Journal move? (start s) t p) (hw : w ∈ ended t i) :
    w < p.pool.sheets.length ∧ Posts.At p.pool.desks w none := by
  have hu := underway_of_journal h
  have hd := distinct_of_journal h
  obtain ⟨l, hl⟩ := exists_link_of_ended h hw
  have hall := hu.dialled i l hl
  have hmem : w ∈ dialled t i := by
    rw [hall]
    exact List.mem_append_left _ hw
  refine ⟨hd.known i w hmem, fun j x hj ↦ ?_⟩
  obtain ⟨k, hk, hkw⟩ := exists_link_of_desk hj
  have hother : w ∈ dialled t j := by
    rw [hu.dialled j k hk, hkw]
    exact List.mem_append_right _ (List.mem_singleton_self _)
  cases hd.apart i j w hmem hother
  cases hl.symm.trans hk
  have hnodup := hd.nodup i
  rw [hall, hkw] at hnodup
  exact (List.nodup_append.1 hnodup).2.2 w hw w (List.mem_singleton_self _) rfl

private theorem sheet_of_ended (h : Journal move? (start s) t p) (hw : w ∈ ended t i)
    (hm : p.move? m = some q) : q.pool.sheets[w]? = p.pool.sheets[w]? := by
  obtain ⟨hlt, ha⟩ := absent_of_ended h hw
  rcases writes_or_rests (underway_of_journal h).slept hm with ⟨n, -, hwrites⟩
    | ⟨hsheets, -⟩
  · exact hwrites.absent hlt ha
  · rw [hsheets]

private theorem bytes_of_ended (h : Journal move? (start s) (u ++ (b, m) :: v) p)
    (hw : w ∈ ended u i) {x : Wire} (hx : b.pool.wires[w]? = some x) :
    ∃ y, p.pool.wires[w]? = some y ∧ y.bytes = x.bytes := by
  have hsheet : p.pool.sheets[w]? = b.pool.sheets[w]? := by
    refine h.onward (P := fun d ↦ d.pool.sheets[w]? = b.pool.sheets[w]?) ?_ ?_
    · intro d hm
      exact sheet_of_ended h.split.1 hw hm
    · intro v' d n e hj hd he
      refine (sheet_of_ended (i := i) hj ?_ he).trans hd
      rw [ended, List.filterMap_append]
      exact List.mem_append_left _ hw
  simp only [Pool.sheets, List.getElem?_map, hx] at hsheet
  obtain ⟨y, hy, he⟩ := Option.map_eq_some_iff.1 hsheet
  refine ⟨y, hy, ?_⟩
  rw [Wire.bytes, Wire.bytes, (Prod.mk.inj he).1]

/-! ### The life of a link -/

/-- How the links of a run live. -/
structure Lifecycle (s : LinkSettings) (t : List (Forwarder η κ × Move η κ))
    (p : Forwarder η κ) : Prop where
  /-- What can be seen of a link changes only as it may. -/
  states : ∀ u b m v c (i : Nat) x, t = u ++ (b, m) :: v → b.move? m = some c →
    b.pool.states[i]? = some x → ∃ y, c.pool.states[i]? = some y ∧ (y = x ∨ x.Leads y)
  /-- After dialling has failed a link is seen to dial, as before. -/
  refused : ∀ u b v c (i : Nat), t = u ++ (b, .link (.refuse i)) :: v →
    b.move? (.link (.refuse i)) = some c → b.pool.states[i]? = some .dialing ∧
    c.pool.states[i]? = some .dialing
  /-- A link stops only if the shutdown signal has been raised. -/
  stopped : ∀ i : Nat, p.pool.states[i]? = some .stopped → ∃ b, (b, .shutdown) ∈ t
  /-- All connections of a link have ended but the one that it has now, if it has one. -/
  alone : ∀ (i : Nat) l, p.pool.links[i]? = some l →
    dialled t i = ended t i ++ l.stage.wire?.toList
  /-- No connection is had by two links, or by one link twice. -/
  distinct : Distinct t p
  /-- A link dials only when all that it has had have ended. -/
  dials : ∀ (i : Nat) l, p.pool.links[i]? = some l → l.phase = .dialing →
    dialled t i = ended t i
  /-- Whoever takes a frame off the queue of a link, or one that all links share, is the writer of
  the only connection of the link that has not ended. -/
  takes : ∀ u b i v, t = u ++ (b, .link (.fetchOutbound i)) :: v →
    ∃ l x, b.pool.service? i = some (l, x) ∧ dialled u i = ended u i ++ [x.wire]
  /-- Nobody else takes anything off the queue of a link. -/
  own : ∀ u b m v c (i : Nat) l, t = u ++ (b, m) :: v → b.move? m = some c →
    b.pool.links[i]? = some l → ∃ k, c.pool.links[i]? = some k ∧
      (m = .link (.fetchOutbound i) ∨ l.system.items <+: k.system.items)
  /-- Nothing is written on a connection that has ended. -/
  settled : ∀ u b m v i w x, t = u ++ (b, m) :: v → w ∈ ended u i →
    b.pool.wires[w]? = some x → ∃ y, p.pool.wires[w]? = some y ∧ y.bytes = x.bytes
  /-- What is written on a connection can be read as frames, the introduction first. -/
  legible : ∀ w x, p.pool.wires[w]? = some x → Legible s t p w x

private theorem states_eq (p : Pool κ) (i : Nat) : p.states[i]? = p.links[i]?.map (·.state) :=
  List.getElem?_map

/-- Every link lives like this in every run, whatever comes of dialling, writing and reading, and
whenever the shutdown signal is raised. -/
theorem lifecycle (h : Journal move? (start s) t p) : Lifecycle s t p where
  states := by
    rintro u b m v c i x rfl hm hx
    have hu := underway_of_journal h.split.1
    rw [states_eq] at hx
    obtain ⟨l, hl, rfl⟩ := Option.map_eq_some_iff.1 hx
    obtain ⟨k, hk, hturn⟩ := (turns_of_move? hu.slept hm).turn i l hl
    exact ⟨k.state, by rw [states_eq, hk]; rfl, (hturn.shows (hu.shows i l hl)).2⟩
  refused := by
    rintro u b v c i rfl hm
    have hu := underway_of_journal h.split.1
    obtain ⟨pool, hp, rfl⟩ := Option.map_eq_some_iff.1 hm
    obtain ⟨l, hl, hp⟩ := Option.bind_eq_some_iff.1 hp
    split at hp <;> cases hp
    next hphase =>
    have hshow := hu.shows i l hl
    rw [Link.stage, hphase] at hshow
    simp only [states_eq, Pool.setLink, List.getElem?_set_self (List.getElem?_eq_some_iff.1 hl).1,
      hl]
    exact ⟨congrArg some hshow, congrArg some hshow⟩
  stopped := by
    intro i hi
    have hu := underway_of_journal h
    rw [states_eq] at hi
    obtain ⟨l, hl, hst⟩ := Option.map_eq_some_iff.1 hi
    have hstage : l.stage = .stopped := (hst ▸ hu.shows i l hl).eq_stopped
    exact hu.signalled (hu.final i l hl (by rw [hstage]; trivial))
  alone := (underway_of_journal h).dialled
  distinct := distinct_of_journal h
  dials := by
    intro i l hl hphase
    have hall := (underway_of_journal h).dialled i l hl
    rwa [show l.stage.wire? = none by rw [Link.stage, hphase]; rfl, Option.toList_none,
      List.append_nil] at hall
  takes := by
    rintro u b i v rfl
    obtain ⟨hj, c, hm, -⟩ := h.split
    obtain ⟨pool, hp, -⟩ := Option.map_eq_some_iff.1 hm
    obtain ⟨⟨l, x⟩, hs, -⟩ := Option.bind_eq_some_iff.1 hp
    obtain ⟨hl, hphase⟩ := Pool.serving_of_service? hs
    have hall := (underway_of_journal hj).dialled i l hl
    rw [Pool.stage_of_serving hphase] at hall
    exact ⟨l, x, hs, hall⟩
  own := by
    rintro u b m v c i l rfl hm hl
    obtain ⟨k, hk, hturn⟩ :=
      (turns_of_move? (underway_of_journal h.split.1).slept hm).turn i l hl
    exact ⟨k, hk, hturn.own⟩
  settled := by
    rintro u b m v i w x rfl hw hx
    exact bytes_of_ended h hw hx
  legible := fun w x hx ↦ legible_of_journal h hx

/-! ### A run with three connections -/

/-- One link with one worker. -/
def Reconnecting.settings : LinkSettings :=
  { links := 1, workers := 1, outboundCapacity := 2, inboundCapacity := 2, reconnectInterval := 10,
    keepalivePeriod := 10 }

/-- The backend cannot be reached at first. On the first connection the introduction cannot be
written, and on the second one a frame cannot, while a liveness question waits. It is written on the
third one, which lasts until the shutdown. -/
def Reconnecting.moves : List (Move Unit Unit) :=
  [.launch, .link (.refuse 0), .wait 10, .link (.wake 0)] ++
  [.link (.connect 0), .link (.transmit 0 3), .link (.failWrite 0), .wait 10, .link (.wake 0)] ++
  [.link (.connect 0), .link (.transmit 0 1000), .send (.make .ping 1 .user [1]),
    .link (.fetchOutbound 0), .link .tick, .link (.transmit 0 5), .link (.failWrite 0),
    .link (.supervise 0 false), .link (.stopReader 0), .link (.stopWorker 0 0),
    .link (.conclude 0), .wait 10, .link (.wake 0)] ++
  [.link (.connect 0), .link (.transmit 0 1000), .link (.fetchOutbound 0), .link (.transmit 0 1000),
    .shutdown, .link (.supervise 0 true), .link (.stopReader 0), .link (.stopWriter 0),
    .link (.stopWorker 0 0), .link (.conclude 0)]

/-- The states in which the links are seen one after the other. -/
def seen (t : List (Forwarder η κ × Move η κ)) : List (List LinkState) :=
  ((t.map fun x ↦ x.1.pool.states).splitBy (· == ·)).filterMap List.head?

/-- Two of the connections are cut off, the first one in its introduction. -/
theorem lifecycle_reconnecting :
    ∃ t p, Journal move? (start Reconnecting.settings) t p ∧
      t.map Prod.snd = Reconnecting.moves ∧
      seen t =
        [[.dialing], [.connected], [.draining], [.dialing], [.connected], [.draining], [.dialing],
          [.connected], [.draining]] ∧
      p.pool.states = [.stopped] ∧ dialled t 0 = [0, 1, 2] ∧ ended t 0 = [0, 1, 2] ∧
      p.pool.wires.map (fun x ↦ x.written.map (·.cmd)) =
        [[], [.linkAuthRequest], [.linkAuthRequest, .keepaliveRequest]] ∧
      p.pool.wires.map (fun x ↦ x.bytes.length - (x.written.flatMap (·.bytes)).length) =
        [3, 5, 0] ∧
      Lifecycle Reconnecting.settings t p := by
  have hview : (Journal.write? move? (start Reconnecting.settings) Reconnecting.moves).map
    (fun r ↦ decide (seen r.1 =
        [[.dialing], [.connected], [.draining], [.dialing], [.connected], [.draining], [.dialing],
          [.connected], [.draining]] ∧
      r.2.pool.states = [.stopped] ∧ dialled r.1 0 = [0, 1, 2] ∧ ended r.1 0 = [0, 1, 2] ∧
      r.2.pool.wires.map (fun x ↦ x.written.map (·.cmd)) =
        [[], [.linkAuthRequest], [.linkAuthRequest, .keepaliveRequest]] ∧
      r.2.pool.wires.map (fun x ↦ x.bytes.length - (x.written.flatMap (·.bytes)).length) =
        [3, 5, 0])) =
    some true := by decide +kernel
  obtain ⟨⟨t, p⟩, hrun, hv⟩ := Option.map_eq_some_iff.1 hview
  obtain ⟨hj, hmoves⟩ := Journal.of_write? hrun
  obtain ⟨hseen, hstates, hdialled, hended, hwritten, hcut⟩ := of_decide_eq_true hv
  exact ⟨t, p, hj, hmoves, hseen, hstates, hdialled, hended, hwritten, hcut, lifecycle hj⟩

end Forwarder

end EdgeGateway
