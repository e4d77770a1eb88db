import EdgeGateway.Link.Basic
import EdgeGateway.Proofs.Link.Posts

/-!
# What becomes of the frames that the writers take

Every frame that a writer takes is a load: its writer holds it, it is written to its end, or it is
lost when a write fails. What stands on a connection is what its loads say, byte for byte (`Page`),
and a writer has one load at a time.
-/

namespace EdgeGateway

/-- What has become of a frame that a writer took. -/
inductive Fate where
  | held
  | written
  | lost
  deriving Repr, DecidableEq

/-- A frame that a writer took. -/
structure Load where
  wire : Nat
  /-- The ticket with which the frame was sent, unless it is one of the transport's own. -/
  ticket : Option Nat
  frame : Frame
  fate : Fate := .held
  deriving Repr, DecidableEq

namespace Load

/-- What is held on a connection has a fate now. -/
def settle (w : Nat) (x : Fate) (y : Load) : Load :=
  if y.wire = w ∧ y.fate = .held then { y with fate := x } else y

variable {xs ys : List Load} {x : Fate} {y : Load} {w v : Nat}

/-- To settle a load leaves it on its connection. -/
@[simp] theorem wire_settle : (y.settle w x).wire = y.wire := by
  rw [settle]
  split <;> rfl

/-- To settle a load leaves it its ticket. -/
@[simp] theorem ticket_settle : (y.settle w x).ticket = y.ticket := by
  rw [settle]
  split <;> rfl

/-- To settle a load leaves it its frame. -/
@[simp] theorem frame_settle : (y.settle w x).frame = y.frame := by
  rw [settle]
  split <;> rfl

/-- To settle what is held leaves every load on its connection. -/
theorem onWire_settle :
    onWire wire w (xs.map (settle v x)) = (onWire wire w xs).map (settle v x) := by
  rw [onWire, onWire, List.filter_map]
  congr 1
  exact List.filter_congr fun y _ ↦ by simp

private theorem map_settle_of_forall (h : ∀ y ∈ xs, y.wire ≠ w ∨ y.fate ≠ .held) :
    xs.map (settle w x) = xs := by
  rw [List.map_congr_left (g := id), List.map_id]
  intro y hy
  rw [settle, if_neg]
  · rfl
  · rintro ⟨hw, hf⟩
    rcases h y hy with hn | hn
    · exact hn hw
    · exact hn hf

/-- What happens on a connection does not touch the loads of another. -/
theorem onWire_settle_of_ne (h : w ≠ v) :
    onWire wire w (xs.map (settle v x)) = onWire wire w xs := by
  rw [onWire_settle]
  refine map_settle_of_forall fun y hy ↦ .inl ?_
  rw [of_decide_eq_true (List.mem_filter.1 hy).2]
  exact h

end Load

/-! ### One connection -/

/-- A connection has been written full with loads, and `cut` behind them. -/
structure Filled (xs : List Load) (sheet : List Bytes × List Frame) (cut : Bytes) : Prop where
  done : ∀ x ∈ xs, x.fate = .written
  frames : sheet.2.reverse = xs.map (·.frame)
  bytes : sheet.1.reverse.flatten = xs.flatMap (·.frame.bytes) ++ cut

/-- What stands on a connection, from what its writer is doing, if it has one. -/
inductive Page (w : Nat) (xs : List Load) (sheet : List Bytes × List Frame) :
    Option Writer → Prop where
  /-- All loads have been written. -/
  | clean {x : Option Writer} (hx : ∀ f left, x ≠ some (.writing f left))
    (h : Filled xs sheet []) :
    Page w xs sheet x
  /-- The writer holds the last load, of which `left` is still to be written. -/
  | held {ys : List Load} {k : Option Nat} {f : Frame} {cut left : Bytes}
    (hxs : xs = ys ++ [⟨w, k, f, .held⟩]) (hf : f.bytes = cut ++ left)
    (h : Filled ys sheet cut) :
    Page w xs sheet (some (.writing f left))
  /-- The last load is lost, and the writer is gone. -/
  | lost {ys : List Load} {k : Option Nat} {f : Frame} {cut left : Bytes} {x : Option Writer}
    (hx : x = none ∨ x = some .ended) (hxs : xs = ys ++ [⟨w, k, f, .lost⟩])
    (hf : f.bytes = cut ++ left)
    (h : Filled ys sheet cut) : Page w xs sheet x

namespace Page

variable {w n : Nat} {xs : List Load} {sheet : List Bytes × List Frame} {f : Frame} {left : Bytes}
  {x : Writer} {d : Option Writer}

/-- On a new connection nothing has been written. -/
theorem fresh (w : Nat) (k : Option Nat) (f : Frame) :
    Page w [⟨w, k, f, .held⟩] ([], []) (some (.writing f f.bytes)) := by
  have hblank : Filled [] ([], []) [] := ⟨nofun, rfl, rfl⟩
  exact .held rfl rfl hblank

/-- A writer that has nothing to write takes a load. -/
theorem take (h : Page w xs sheet (some .idle)) (k : Option Nat) (f : Frame) :
    Page w (xs ++ [⟨w, k, f, .held⟩]) sheet (some (.writing f f.bytes)) := by
  cases h with
  | clean _ h => exact .held rfl rfl h
  | lost hx => rcases hx with hx | hx <;> cases hx

private theorem of_writing (h : Page w xs sheet (some (.writing f left))) :
    ∃ ys k cut, xs = ys ++ [⟨w, k, f, .held⟩] ∧ f.bytes = cut ++ left ∧
      Filled ys sheet cut := by
  cases h with
  | clean hx => exact absurd rfl (hx f left)
  | held hxs hf h => exact ⟨_, _, _, hxs, hf, h⟩
  | lost hx => rcases hx with hx | hx <;> cases hx

/-- A portion of a load is written. -/
theorem write (h : Page w xs sheet (some (.writing f left))) (n : Nat) :
    Page w xs (left.take n :: sheet.1, sheet.2) (some (.writing f (left.drop n))) := by
  obtain ⟨ys, k, cut, hxs, hf, hd, hfr, hb⟩ := h.of_writing
  have hcut : f.bytes = (cut ++ left.take n) ++ left.drop n := by
    rw [hf, List.append_assoc, List.take_append_drop]
  refine .held hxs hcut ⟨hd, hfr, ?_⟩
  rw [List.reverse_cons, List.flatten_append, hb]
  simp

private theorem settle_held {ys : List Load} {k : Option Nat} {y : Fate}
    (hd : ∀ x ∈ ys, x.fate = .written) :
    (ys ++ [(⟨w, k, f, .held⟩ : Load)]).map (Load.settle w y) = ys ++ [⟨w, k, f, y⟩] := by
  rw [List.map_append, Load.map_settle_of_forall]
  · simp [Load.settle]
  · intro x hx
    exact .inr (by rw [hd x hx]; decide)

/-- The rest of a load is written. -/
theorem finish (h : Page w xs sheet (some (.writing f left))) :
    Page w (xs.map (Load.settle w .written)) (left :: sheet.1, f :: sheet.2) (some .idle) := by
  obtain ⟨ys, k, cut, rfl, hf, hd, hfr, hb⟩ := h.of_writing
  rw [settle_held hd]
  refine .clean nofun ⟨?_, ?_, ?_⟩
  · intro x hx
    rcases List.mem_append.1 hx with hx | hx
    · exact hd x hx
    · rw [List.mem_singleton.1 hx]
  · rw [List.reverse_cons, hfr, List.map_append]
    rfl
  · rw [List.reverse_cons, List.flatten_append, hb, List.flatMap_append]
    simp [hf]

/-- A write fails, and the writer is gone. -/
theorem fail (h : Page w xs sheet (some (.writing f left))) (hd : d = none ∨ d = some .ended) :
    Page w (xs.map (Load.settle w .lost)) sheet d := by
  obtain ⟨ys, k, cut, rfl, hf, h⟩ := h.of_writing
  rw [settle_held h.done]
  exact .lost hd rfl hf h

/-- A writer that holds nothing is gone. -/
theorem leave (h : Page w xs sheet (some x)) (hx : x = .idle ∨ x = .ended)
    (hd : d = none ∨ d = some .ended) : Page w xs sheet d := by
  have hnot : ∀ f left, d ≠ some (.writing f left) := by
    rcases hd with rfl | rfl <;> exact nofun
  cases h with
  | clean _ h => exact .clean hnot h
  | held => rcases hx with hx | hx <;> cases hx
  | lost _ hxs hf h => exact .lost hd hxs hf h

variable {z : Option Writer}

-- All loads but perhaps the last one have been written, and of the last one perhaps a part.
private theorem split (h : Page w xs sheet z) : ∃ ys rest cut, xs = ys ++ rest ∧
    Filled ys sheet cut ∧ (rest = [] ∧ cut = [] ∨
      ∃ y left, rest = [y] ∧ y.fate ≠ .written ∧ y.frame.bytes = cut ++ left) := by
  cases h with
  | clean _ h => exact ⟨xs, [], [], (List.append_nil _).symm, h, .inl ⟨rfl, rfl⟩⟩
  | held hxs hf h => exact ⟨_, _, _, hxs, h, .inr ⟨_, _, rfl, nofun, hf⟩⟩
  | lost _ hxs hf h => exact ⟨_, _, _, hxs, h, .inr ⟨_, _, rfl, nofun, hf⟩⟩

private theorem filter_written {ys rest : List Load} (hd : ∀ x ∈ ys, x.fate = .written)
    (hr : ∀ x ∈ rest, x.fate ≠ .written) : (ys ++ rest).filter (·.fate = .written) = ys ∧
      (ys ++ rest).filter (·.fate ≠ .written) = rest := by
  rw [List.filter_append, List.filter_append,
    List.filter_eq_self.2 fun x hx ↦ decide_eq_true (hd x hx),
    List.filter_eq_self.2 fun x hx ↦ decide_eq_true (hr x hx),
    List.filter_eq_nil_iff.2 fun x hx ↦ by simpa using hr x hx,
    List.filter_eq_nil_iff.2 fun x hx ↦ by simpa using hd x hx]
  exact ⟨List.append_nil _, List.nil_append _⟩

/-- What has been written to its end on a connection, and that at most one load has not. -/
theorem written (h : Page w xs sheet z) :
    sheet.2.reverse = (xs.filter (·.fate = .written)).map (·.frame) ∧
      (xs.filter (·.fate ≠ .written)).length ≤ 1 := by
  obtain ⟨ys, rest, cut, rfl, hfilled, hrest⟩ := h.split
  have hr : ∀ x ∈ rest, x.fate ≠ .written := by
    rcases hrest with ⟨rfl, -⟩ | ⟨y, left, rfl, hy, -⟩
    · exact nofun
    · intro x hx
      rw [List.mem_singleton.1 hx]
      exact hy
  obtain ⟨hw, hn⟩ := filter_written hfilled.done hr
  rw [hw, hn]
  refine ⟨hfilled.frames, ?_⟩
  rcases hrest with ⟨rfl, -⟩ | ⟨y, left, rfl, -⟩
  · exact Nat.zero_le _
  · exact Nat.le_refl _

/-- What stands on a connection are the bytes of the frames that have been written to their end and,
behind them, perhaps a part of one that has not. -/
theorem bytes (h : Page w xs sheet z) :
    ∃ cut, sheet.1.reverse.flatten = sheet.2.reverse.flatMap (·.bytes) ++ cut ∧
      (cut = [] ∨ ∃ x ∈ xs, x.fate ≠ .written ∧ cut <+: x.frame.bytes) := by
  obtain ⟨ys, rest, cut, rfl, hfilled, hrest⟩ := h.split
  refine ⟨cut, ?_, ?_⟩
  · rw [hfilled.bytes, hfilled.frames, List.flatMap_map]
  · rcases hrest with ⟨-, hcut⟩ | ⟨y, left, rfl, hy, hb⟩
    · exact .inl hcut
    · exact .inr ⟨y, List.mem_append_right _ (List.mem_singleton_self y), hy, left, hb.symm⟩

/-- A load is held exactly as long as the writer is writing it. -/
theorem held_iff (h : Page w xs sheet z) (f : Frame) :
    (∃ x ∈ xs, x.frame = f ∧ x.fate = .held) ↔ ∃ left, z = some (.writing f left) := by
  have hnot : ∀ {ys cut x}, Filled ys sheet cut → x ∈ ys → x.fate ≠ .held := by
    intro ys cut x hf hx
    rw [hf.done x hx]
    decide
  constructor
  · rintro ⟨x, hx, rfl, hheld⟩
    cases h with
    | clean _ h => exact absurd hheld (hnot h hx)
    | held hxs _ h =>
      rw [hxs] at hx
      rcases List.mem_append.1 hx with hx | hx
      · exact absurd hheld (hnot h hx)
      · rw [List.mem_singleton.1 hx]
        exact ⟨_, rfl⟩
    | lost _ hxs _ h =>
      rw [hxs] at hx
      rcases List.mem_append.1 hx with hx | hx
      · exact absurd hheld (hnot h hx)
      · rw [List.mem_singleton.1 hx] at hheld
        cases hheld
  · rintro ⟨left, rfl⟩
    obtain ⟨ys, k, cut, rfl, -, -⟩ := h.of_writing
    exact ⟨_, List.mem_append_right _ (List.mem_singleton_self _), rfl, rfl⟩

end Page

end EdgeGateway
