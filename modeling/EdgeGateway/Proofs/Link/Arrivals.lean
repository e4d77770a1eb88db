import EdgeGateway.Link.Basic
import EdgeGateway.Proofs.Link.Posts
import EdgeGateway.Proofs.Wire.Reading

/-!
# What becomes of the frames that the readers read

Every frame for the workers that is read is an arrival: its reader offers it to the workers or drops
it. What has been read on a connection is what the backend wrote on it, and the arrivals are the
frames for the workers in it, one for one (`Roll`). A reader that has dropped a frame reads no
other.
-/

namespace EdgeGateway

/-- A frame for the workers that was read. -/
structure Arrival where
  wire : Nat
  frame : Frame
  /-- The ticket with which its reader offered it, if it did. -/
  ticket : Option Nat
  deriving Repr, DecidableEq

namespace Arrival

/-- Has the frame been dropped, if the offers with the tickets in `gone` have been taken back? -/
def dropped (gone : List Nat) (a : Arrival) : Bool := a.ticket.all (· ∈ gone)

variable {gone : List Nat} {a : Arrival} {xs ys : List Arrival} {k w : Nat}

/-- No two arrivals have one ticket if no ticket is there twice. -/
theorem eq_of_ticket {b : Arrival} (hn : (xs.filterMap (·.ticket)).Nodup) (ha : a ∈ xs)
    (hb : b ∈ xs) (hak : a.ticket = some k) (hbk : b.ticket = some k) : a = b := by
  induction xs with
  | nil => cases ha
  | cons x xs ih =>
    have hin : ∀ y ∈ xs, y.ticket = some k → k ∈ xs.filterMap (·.ticket) :=
      fun y hy hyk ↦
      List.mem_filterMap.2 ⟨y, hy, hyk⟩
    rcases List.mem_cons.1 ha with rfl | ha'
    · rcases List.mem_cons.1 hb with rfl | hb'
      · rfl
      · rw [List.filterMap_cons_some hak] at hn
        exact absurd (hin b hb' hbk) (List.nodup_cons.1 hn).1
    · rcases List.mem_cons.1 hb with rfl | hb'
      · rw [List.filterMap_cons_some hbk] at hn
        exact absurd (hin a ha' hak) (List.nodup_cons.1 hn).1
      · exact ih (hn.sublist ((List.sublist_cons_self x xs).filterMap _)) ha' hb'

/-- The frames of some arrivals are what was sent with their tickets. -/
theorem map_frame_filter {sent : List Frame} {P : Arrival → Bool} {Q : Nat → Bool}
    (hs : ∀ a ∈ xs, ∀ k, a.ticket = some k → sent[k]? = some a.frame)
    (hnone : ∀ a, a.ticket = none → P a = false)
    (hsome : ∀ a k, a.ticket = some k → P a = Q k) : ((xs.filter P).map (·.frame)).map some =
      ((xs.filterMap (·.ticket)).filter Q).map (sent[·]?) := by
  induction xs with
  | nil => rfl
  | cons a xs ih =>
    have ih := ih fun b hb ↦ hs b (List.mem_cons_of_mem a hb)
    cases ht : a.ticket with
    | none => rw [List.filter_cons_of_neg (by simp [hnone a ht]), List.filterMap_cons_none ht, ih]
    | some k =>
      rw [List.filterMap_cons_some ht]
      cases hk : Q k with
      | false =>
        rw [List.filter_cons_of_neg (by simp [hsome a k ht, hk]),
          List.filter_cons_of_neg (by simp [hk]), ih]
      | true =>
        rw [List.filter_cons_of_pos (by rw [hsome a k ht, hk]), List.filter_cons_of_pos hk,
          List.map_cons, List.map_cons, List.map_cons, ih, hs a List.mem_cons_self k ht]

/-- A frame that was offered is dropped just when the offer has been taken back. -/
theorem dropped_of_ticket (h : a.ticket = some k) : a.dropped gone = decide (k ∈ gone) := by
  rw [dropped, h]
  rfl

/-- A frame that was never offered is dropped. -/
theorem dropped_of_unoffered (h : a.ticket = none) : a.dropped gone = true := by
  rw [dropped, h]
  rfl

/-- Taking back an offer drops the frame that was offered and no other. -/
theorem dropped_append_of_ne (h : a.ticket ≠ some k) :
    a.dropped (gone ++ [k]) = a.dropped gone := by
  rw [dropped, dropped]
  cases ht : a.ticket with
  | none => rfl
  | some j =>
    have hj : j ≠ k := fun he ↦ h (by rw [ht, he])
    simp [hj]

end Arrival

/-- Is somebody there who may go on reading? -/
def Live (z : Option (Reader × Bool)) : Prop := ∃ r stop, z = some (r, stop) ∧ r ≠ .ended

/-- What has been read on a connection agrees with what the backend wrote on it, with the arrivals
and with its reader, if it has one. -/
structure Roll (heard : Bytes) (read : List Bytes) (xs : List Arrival) (gone : List Nat)
    (inflow : Inflow) (z : Option (Reader × Bool)) : Prop where
  whole : ∀ b ∈ read, WholeFrame b
  front : read.flatten <+: heard
  frames : xs.map (·.frame) = read.filterMap userFrame?
  live : Live z → heard = read.flatten ++ inflow.bytes ∧ xs.filter (·.dropped gone) = []
  single : (xs.filter (·.dropped gone)).length ≤ 1
  offering : ∀ k stop, z = some (.offering k, stop) → ∃ a ∈ xs, a.ticket = some k

namespace Roll

variable {heard b : Bytes} {read : List Bytes} {xs : List Arrival} {gone : List Nat}
  {inflow rest : Inflow}
  {r : Reader} {stop stop' : Bool} {z : Option (Reader × Bool)} {f : Frame} {w k : Nat}

/-- A reader that reads may go on. -/
theorem live_reading : Live (some (.reading, stop)) := ⟨_, _, rfl, nofun⟩

/-- A reader that waits for room may go on. -/
theorem live_offering : Live (some (.offering k, stop)) := ⟨_, _, rfl, nofun⟩

/-- Where nobody is nobody goes on. -/
theorem not_live_none : ¬ Live none := by
  rintro ⟨r, stop, hz, -⟩
  cases hz

/-- A reader that has ended does not go on. -/
theorem not_live_ended : ¬ Live (some (.ended, stop)) := by
  rintro ⟨r, stop, hz, hr⟩
  cases hz
  exact hr rfl

/-- On a new connection nothing has been written. -/
theorem fresh (gone : List Nat) : Roll [] [] [] gone {} (some (.reading, false)) :=
  ⟨nofun, List.prefix_refl _, rfl, fun _ ↦ ⟨rfl, rfl⟩, Nat.zero_le _, nofun⟩

/-- The backend writes something. -/
theorem hear (h : Roll heard read xs gone inflow z) (b : Bytes) :
    Roll (heard ++ b) read xs gone (inflow.push b) z := by
  refine ⟨h.whole, h.front.trans (List.prefix_append _ _), h.frames, fun hz ↦ ?_, h.single,
    h.offering⟩
  obtain ⟨hb, hd⟩ := h.live hz
  refine ⟨?_, hd⟩
  rw [hb, List.append_assoc, Inflow.push, Inflow.bytes, Inflow.bytes, List.flatten_append]
  simp

/-- The backend will write no more. -/
theorem finish (h : Roll heard read xs gone inflow z) : Roll heard read xs gone inflow.finish z :=
  ⟨h.whole, h.front, h.frames, h.live, h.single, h.offering⟩

/-- The reader leaves the connection. -/
theorem leave (h : Roll heard read xs gone inflow z) {y : Option (Reader × Bool)}
    (hy : y = none ∨ y = some (.ended, stop)) : Roll heard read xs gone rest y := by
  refine ⟨h.whole, h.front, h.frames, fun hl ↦ ?_, h.single, ?_⟩
  · rcases hy with rfl | rfl
    · exact absurd hl not_live_none
    · exact absurd hl not_live_ended
  · rintro k s rfl
    rcases hy with hy | hy <;> cases hy

/-- The reader is told to stop. -/
theorem told (h : Roll heard read xs gone inflow (some (r, stop))) :
    Roll heard read xs gone inflow (some (r, stop')) := by
  refine ⟨h.whole, h.front, h.frames, ?_, h.single, ?_⟩
  · rintro ⟨r', s, hz, hr⟩
    cases hz
    exact h.live ⟨_, _, rfl, hr⟩
  · rintro k s hz
    cases hz
    exact h.offering k stop rfl

/-- The reader learns that there was room for the frame it offered. -/
theorem goOn (h : Roll heard read xs gone inflow (some (.offering k, stop))) :
    Roll heard read xs gone inflow (some (.reading, stop)) :=
  ⟨h.whole, h.front, h.frames, fun _ ↦ h.live live_offering, h.single, nofun⟩

private theorem front_of_reading (h : Roll heard read xs gone inflow (some (.reading, stop)))
    (hb : inflow.bytes = b ++ rest.bytes) : heard = (read ++ [b]).flatten ++ rest.bytes := by
  rw [(h.live live_reading).1, hb]
  simp

private theorem whole_append (h : Roll heard read xs gone inflow z) (hb : WholeFrame b) :
    ∀ c ∈ read ++ [b], WholeFrame c := by
  intro c hc
  rcases List.mem_append.1 hc with hc | hc
  · exact h.whole c hc
  · rw [List.mem_singleton.1 hc]
    exact hb

/-- A frame is read that is not for the workers. -/
theorem skip (h : Roll heard read xs gone inflow (some (.reading, stop)))
    (hb : inflow.bytes = b ++ rest.bytes) (hw : WholeFrame b) (hu : userFrame? b = none) :
    Roll heard (read ++ [b]) xs gone rest (some (.reading, stop)) := by
  have hfront := h.front_of_reading hb
  refine ⟨h.whole_append hw, ?_, ?_, fun _ ↦ ⟨hfront, (h.live live_reading).2⟩,
    h.single, nofun⟩
  · rw [hfront]
    exact List.prefix_append _ _
  · rw [h.frames, List.filterMap_append]
    simp [hu]

private theorem frames_append (h : Roll heard read xs gone inflow z)
    (hu : userFrame? f.bytes = some f) (t : Option Nat) :
    (xs ++ [(⟨w, f, t⟩ : Arrival)]).map (·.frame) =
      (read ++ [f.bytes]).filterMap userFrame? := by
  rw [List.map_append, h.frames, List.filterMap_append]
  simp [hu]

/-- A frame for the workers is read and offered to them. -/
theorem offer (h : Roll heard read xs gone inflow (some (.reading, stop)))
    (hb : inflow.bytes = f.bytes ++ rest.bytes) (hw : WholeFrame f.bytes)
    (hu : userFrame? f.bytes = some f) (hk : k ∉ gone) (hr : r = .reading ∨ r = .offering k) :
    Roll heard (read ++ [f.bytes]) (xs ++ [⟨w, f, some k⟩]) gone rest (some (r, stop)) := by
  have hfront := h.front_of_reading hb
  have hdropped : (xs ++ [(⟨w, f, some k⟩ : Arrival)]).filter (·.dropped gone) = [] := by
    rw [List.filter_append, (h.live live_reading).2]
    simp [Arrival.dropped, hk]
  refine ⟨h.whole_append hw, ?_, h.frames_append hu _, fun _ ↦ ⟨hfront, hdropped⟩, ?_, ?_⟩
  · rw [hfront]
    exact List.prefix_append _ _
  · rw [hdropped]
    exact Nat.zero_le _
  · intro j s hz
    refine ⟨_, List.mem_append_right _ (List.mem_singleton_self _), ?_⟩
    rcases hr with rfl | rfl <;> cases hz
    rfl

/-- A frame for the workers is read and dropped. -/
theorem drop (h : Roll heard read xs gone inflow (some (.reading, stop)))
    (hb : inflow.bytes = f.bytes ++ rest.bytes) (hw : WholeFrame f.bytes)
    (hu : userFrame? f.bytes = some f) :
    Roll heard (read ++ [f.bytes]) (xs ++ [⟨w, f, none⟩]) gone rest (some (.ended, stop')) := by
  have hfront := h.front_of_reading hb
  refine ⟨h.whole_append hw, ?_, h.frames_append hu _, fun hl ↦ absurd hl not_live_ended,
    ?_, nofun⟩
  · rw [hfront]
    exact List.prefix_append _ _
  · rw [List.filter_append, (h.live live_reading).2]
    simp [Arrival.dropped]

private theorem length_le_one (hn : (xs.filterMap (·.ticket)).Nodup)
    (hk : ∀ a ∈ xs, a.ticket = some k) : xs.length ≤ 1 := by
  rcases xs with _ | ⟨a, _ | ⟨b, ys⟩⟩
  · exact Nat.zero_le _
  · exact Nat.le_refl _
  · have ha := hk a (by simp)
    have hb := hk b (by simp)
    rw [List.filterMap_cons_some ha, List.filterMap_cons_some hb] at hn
    simp at hn

/-- The reader takes its offer back. -/
theorem withdraw (h : Roll heard read xs gone inflow (some (.offering k, stop)))
    (hn : (xs.filterMap (·.ticket)).Nodup) :
    Roll heard read xs (gone ++ [k]) inflow (some (.ended, stop')) := by
  refine ⟨h.whole, h.front, h.frames, fun hl ↦ absurd hl not_live_ended, ?_, nofun⟩
  -- Only the frame that was offered is dropped.
  refine length_le_one (k := k) (hn.sublist (List.filter_sublist.filterMap _)) fun a ha ↦ ?_
  obtain ⟨ha, hd⟩ := List.mem_filter.1 ha
  by_cases hk : a.ticket = some k
  · exact hk
  · rw [Arrival.dropped_append_of_ne hk] at hd
    have hin := List.mem_filter.2 ⟨ha, hd⟩
    rw [(h.live live_offering).2] at hin
    cases hin

/-- Somebody else takes an offer back. -/
theorem elsewhere (h : Roll heard read xs gone inflow z) (hk : ∀ a ∈ xs, a.ticket ≠ some k) :
    Roll heard read xs (gone ++ [k]) inflow z := by
  have hsame : xs.filter (·.dropped (gone ++ [k])) = xs.filter (·.dropped gone) :=
    List.filter_congr fun a ha ↦ Arrival.dropped_append_of_ne (hk a ha)
  refine ⟨h.whole, h.front, h.frames, ?_, ?_, h.offering⟩
  · rw [hsame]
    exact h.live
  · rw [hsame]
    exact h.single

end Roll

end EdgeGateway
