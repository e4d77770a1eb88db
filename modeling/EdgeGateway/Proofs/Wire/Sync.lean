import EdgeGateway.Proofs.Wire.Reading

/-!
# A stream that stays in step

A reader takes as many bytes for a frame as its header announces, whatever its checksum, so behind
any number of frames it stands where the next one starts. `frames_in_sync` says so for every
sequence of frames, whatever comes behind them and wherever the cuts between the chunks are, and how
a stream ends that breaks off or goes on with something that is no header.
-/

namespace EdgeGateway

/-- What a reader makes of a frame: one with a wrong checksum is dropped. -/
def Frame.verdict (f : Frame) : Option Frame :=
  if f.header.checksum = protocolChecksum then some f else none

/-! ### Bytes that are no frame -/

namespace Bytes

/-- The bytes end within a header, or within the body that a header announces. -/
def EndsWithin (b : Bytes) : Prop :=
  b.length < FrameHeader.size ∨
    ∃ h, FrameHeader.decode b = .ok h ∧ b.length < FrameHeader.size + h.length.toNat

/-- There are bytes enough for a header, but they carry an unknown flag or announce too long a body.
-/
def Unreadable (b : Bytes) : Prop :=
  FrameHeader.size ≤ b.length ∧ (maxBodyLength < b.field 9 4 ∨ 1 < b.field 8 1)

/-- What is wrong with bytes that are no header. -/
def malformation (b : Bytes) : Malformed :=
  if maxBodyLength < b.field 9 4 then .oversized (b.field 9 4) maxBodyLength
  else .unknownFlag (UInt8.ofNat (b.field 8 1))

private theorem field_take (b : Bytes) {offset width n : Nat} (h : offset + width ≤ n) :
    field (b.take n) offset width = field b offset width := by
  rw [field, field, List.drop_take, List.take_take, Nat.min_eq_left (by omega)]

private theorem ofByte_of_lt {b : Bytes} (h : 1 < b.field 8 1) :
    Flag.ofByte (UInt8.ofNat (b.field 8 1)) =
      .error (.unknownFlag (UInt8.ofNat (b.field 8 1))) := by
  have hv : (UInt8.ofNat (b.field 8 1)).toNat = b.field 8 1 :=
    UInt8.toNat_ofNat_of_lt' (b.field_lt 8 1)
  unfold Flag.ofByte
  split
  · next h0 =>
    rw [h0] at hv
    exact absurd (hv ▸ h) (by decide)
  · next h1 =>
    rw [h1] at hv
    exact absurd (hv ▸ h) (by decide)
  · rfl

/-- Bytes that are no header are refused for what is wrong with them. -/
theorem decode_of_unreadable {b : Bytes} (h : b.Unreadable) :
    FrameHeader.decode b = .error b.malformation := by
  obtain ⟨hl, hbad⟩ := h
  rw [FrameHeader.decode, if_neg (Nat.not_lt.2 hl), FrameHeader.ofFields, malformation]
  split
  · rfl
  · next hsize =>
    rw [ofByte_of_lt (hbad.resolve_left hsize)]
    rfl

/-- A header is read from the first bytes alone. -/
theorem decode_take {b : Bytes} (h : FrameHeader.size ≤ b.length) :
    FrameHeader.decode (b.take FrameHeader.size) = FrameHeader.decode b := by
  have hl : (b.take FrameHeader.size).length = FrameHeader.size := by
    rw [List.length_take, Nat.min_eq_left h]
  rw [FrameHeader.decode, FrameHeader.decode, if_neg (by omega), if_neg (by omega),
    FrameHeader.ofFields, FrameHeader.ofFields, field_take b (by decide), field_take b (by decide),
    field_take b (by decide), field_take b (by decide), field_take b (by decide)]

end Bytes

/-! ### Reading one frame -/

namespace Inflow

/-- The same bytes are left of both streams, and neither has ended or both have. -/
structure SameBytes (s t : Inflow) : Prop where
  bytes : s.bytes = t.bytes
  ended : s.ended = t.ended

/-- Streams with the bytes of a third have the same bytes. -/
theorem SameBytes.trans {s t u : Inflow} (h : s.SameBytes t) (k : t.SameBytes u) : s.SameBytes u :=
  ⟨h.bytes.trans k.bytes, h.ended.trans k.ended⟩

/-- What is left of a stream without its first bytes. -/
def skip (s : Inflow) (n : Nat) : Inflow := { s with chunks := [s.bytes.drop n] }

/-- To pass bytes drops them in front. -/
@[simp] theorem bytes_skip (s : Inflow) (n : Nat) : (s.skip n).bytes = s.bytes.drop n := by
  simp [skip, bytes]

/-- A stream that is drained has no bytes. -/
@[simp] theorem bytes_drain (s : Inflow) : s.drain.bytes = [] := rfl

/-- Bytes are taken off the front, wherever the cuts are. -/
theorem take?_of_le {s : Inflow} {n : Nat} (h : n ≤ s.bytes.length) :
    ∃ rest, s.take? n = some (s.bytes.take n, rest) ∧ rest.SameBytes (s.skip n) := by
  have hl : (s.bytes.take n).length = n := by rw [List.length_take, Nat.min_eq_left h]
  obtain ⟨rest, hr, hb, he⟩ := take?_of_append (List.take_append_drop n s.bytes).symm
  rw [hl] at hr
  exact ⟨rest, hr, ⟨hb.trans (s.bytes_skip n).symm, he⟩⟩

variable {s t : Inflow}

/-- Where the bytes end within a frame the reader has to wait, or to give up. -/
theorem readFrame_of_endsWithin (h : s.bytes.EndsWithin) : s.readFrame = s.short := by
  rw [readFrame]
  by_cases hl : s.bytes.length < FrameHeader.size
  · rw [take?_eq_none_iff.2 hl]
  · obtain ⟨header, hd, hlt⟩ := h.resolve_left hl
    obtain ⟨behind, hb, hs⟩ := take?_of_le (Nat.not_lt.1 hl)
    have hnone : behind.take? header.length.toNat = none := by
      rw [take?_eq_none_iff, hs.bytes, bytes_skip, List.length_drop]
      omega
    rw [hb]
    simp only [Bytes.decode_take (Nat.not_lt.1 hl), hd, hnone]

/-- What is no header breaks the stream, and nothing behind it is taken. -/
theorem readFrame_of_unreadable (h : s.bytes.Unreadable) :
    ∃ rest, s.readFrame = .broken (.malformedFrame s.bytes.malformation) rest ∧
      rest.SameBytes (s.skip FrameHeader.size) := by
  obtain ⟨behind, hb, hs⟩ := take?_of_le h.1
  refine ⟨behind, ?_, hs⟩
  rw [readFrame, hb]
  simp only [Bytes.decode_take h.1, Bytes.decode_of_unreadable h]

end Inflow

/-- What two readings of one frame come to is the same. -/
inductive FrameRead.Alike : FrameRead → FrameRead → Prop
  | waiting : Alike .waiting .waiting
  | frame (f : Frame) {s t : Inflow} : s.SameBytes t → Alike (.frame f s) (.frame f t)
  | dropped {s t : Inflow} : s.SameBytes t → Alike (.dropped s) (.dropped t)
  | broken (cause : Fault) {s t : Inflow} : s.SameBytes t →
    Alike (.broken cause s) (.broken cause t)

namespace Inflow

variable {s t : Inflow}

private theorem SameBytes.take? (h : s.SameBytes t) (n : Nat) :
    s.take? n = none ∧ t.take? n = none ∨
      ∃ b s' t', s.take? n = some (b, s') ∧ t.take? n = some (b, t') ∧ s'.SameBytes t' := by
  by_cases hn : n ≤ s.bytes.length
  · obtain ⟨s', hs, hs'⟩ := take?_of_le hn
    obtain ⟨t', ht, ht'⟩ := take?_of_le (h.bytes ▸ hn)
    rw [← h.bytes] at ht
    refine .inr ⟨_, s', t', hs, ht, ?_, ?_⟩
    · rw [hs'.bytes, ht'.bytes, bytes_skip, bytes_skip, h.bytes]
    · rw [hs'.ended, ht'.ended]
      exact h.ended
  · have hlt : t.bytes.length < n := h.bytes ▸ Nat.not_le.1 hn
    exact .inl ⟨take?_eq_none_iff.2 (Nat.not_le.1 hn), take?_eq_none_iff.2 hlt⟩

private theorem SameBytes.short (h : s.SameBytes t) : s.short.Alike t.short := by
  rw [Inflow.short, Inflow.short, h.ended]
  split
  · exact .broken _ ⟨rfl, h.ended⟩
  · exact .waiting

/-- What reading a frame comes to depends on the bytes alone, not on the cuts between the chunks. -/
theorem SameBytes.readFrame (h : s.SameBytes t) : s.readFrame.Alike t.readFrame := by
  rw [Inflow.readFrame, Inflow.readFrame]
  obtain ⟨hs, ht⟩ | ⟨head, s₁, t₁, hs, ht, h₁⟩ := h.take? FrameHeader.size
  · rw [hs, ht]
    exact h.short
  · rw [hs, ht]
    simp only
    split
    · exact .broken _ h₁
    · next header _ =>
      obtain ⟨hs, ht⟩ | ⟨body, s₂, t₂, hs, ht, h₂⟩ := h₁.take? header.length.toNat
      · rw [hs, ht]
        exact h.short
      · rw [hs, ht]
        simp only
        split
        · exact .frame _ h₂
        · exact .dropped h₂

/-! ### Reading one frame after the other -/

/-- What the readings of two streams come to is the same: what was read, the fault that ended it,
and the bytes that are left. -/
structure Agree (r r' : List (Option Frame) × Option Fault × Inflow) : Prop where
  read : r.1 = r'.1
  fault : r.2.1 = r'.2.1
  left : r.2.2.SameBytes r'.2.2

/-- What a reading comes to when some frames have been read before. -/
def after (fs : List Frame) (r : List (Option Frame) × Option Fault × Inflow) :
    List (Option Frame) × Option Fault × Inflow :=
  (fs.map Frame.verdict ++ r.1, r.2)

/-- Readings that agree with a third agree. -/
theorem Agree.trans {r r' r'' : List (Option Frame) × Option Fault × Inflow} (h : Agree r r')
    (k : Agree r' r'') : Agree r r'' :=
  ⟨h.read.trans k.read, h.fault.trans k.fault, h.left.trans k.left⟩

/-- What comes after the same frames agrees if it agrees without them. -/
theorem Agree.after {r r' : List (Option Frame) × Option Fault × Inflow} (h : Agree r r')
    (fs : List Frame) : Agree (after fs r) (after fs r') :=
  ⟨congrArg (fs.map Frame.verdict ++ ·) h.read, h.fault, h.left⟩

/-- What any number of calls of the reader come to depends on the bytes alone. -/
theorem SameBytes.readFrames (h : s.SameBytes t) (n : Nat) :
    Agree (s.readFrames n) (t.readFrames n) := by
  induction n generalizing s t with
  | zero => exact ⟨rfl, rfl, h⟩
  | succ n ih =>
    have ha := h.readFrame
    rw [Inflow.readFrames, Inflow.readFrames]
    generalize s.readFrame = x at ha
    generalize t.readFrame = y at ha
    cases ha with
    | waiting => exact ⟨rfl, rfl, h⟩
    | broken cause hl => exact ⟨rfl, rfl, hl⟩
    | frame f hl => exact ⟨congrArg (some f :: ·) (ih hl).read, (ih hl).fault, (ih hl).left⟩
    | dropped hl => exact ⟨congrArg (none :: ·) (ih hl).read, (ih hl).fault, (ih hl).left⟩

/-- As many calls as there are frames in front read these, and the reader stands behind them. -/
theorem readFrames_of_sized {fs : List Frame} (hfs : ∀ f ∈ fs, f.Sized)
    (hb : s.bytes = (fs.map Packet.bytes).flatten ++ t.bytes) (he : s.ended = t.ended) (n : Nat) :
    Agree (s.readFrames (fs.length + n)) (after fs (t.readFrames n)) := by
  induction fs generalizing s with
  | nil =>
    rw [List.length_nil, Nat.zero_add]
    exact SameBytes.readFrames ⟨hb, he⟩ n
  | cons f fs ih =>
    have hb' : s.bytes = f.bytes ++ ((fs.map Packet.bytes).flatten ++ t.bytes) := by
      rw [hb, List.map_cons, List.flatten_cons, List.append_assoc]
    obtain ⟨rest, hr, hrest, hended⟩ := readFrame_of_sized hb' (hfs f List.mem_cons_self)
    have hrec :=
      ih (s := rest) (fun f hf ↦ hfs f (List.mem_cons_of_mem _ hf)) hrest (hended.trans he)
    rw [List.length_cons, Nat.add_right_comm, readFrames, hr]
    by_cases hc : f.header.checksum = protocolChecksum
    · rw [if_pos hc]
      refine ⟨?_, hrec.fault, hrec.left⟩
      simpa [after, Frame.verdict, hc] using hrec.read
    · rw [if_neg hc]
      refine ⟨?_, hrec.fault, hrec.left⟩
      simpa [after, Frame.verdict, hc] using hrec.read

private theorem WholeFrame.length_pos {b : Bytes} (h : WholeFrame b) : 0 < b.length := by
  obtain ⟨header, -, hl⟩ := h
  have hs : FrameHeader.size = 17 := rfl
  omega

private theorem readFrames_eq_of_lt {m n : Nat} (hm : s.bytes.length < m)
    (hn : s.bytes.length < n) : s.readFrames m = s.readFrames n := by
  induction m generalizing s n with
  | zero => omega
  | succ m ih =>
    obtain ⟨n, rfl⟩ : ∃ k, n = k + 1 := ⟨n - 1, by omega⟩
    rw [readFrames, readFrames]
    cases hr : s.readFrame with
    | waiting => rfl
    | broken cause rest => rfl
    | frame f rest =>
      obtain ⟨hb, hw, -⟩ := bytes_of_readFrame hr
      have hpos := WholeFrame.length_pos hw
      rw [hb, List.length_append] at hm hn
      simp only [ih (show rest.bytes.length < m by omega) (show rest.bytes.length < n by omega)]
    | dropped rest =>
      obtain ⟨b, hb, hw, -⟩ := bytes_of_dropped hr
      have hpos := WholeFrame.length_pos hw
      rw [hb, List.length_append] at hm hn
      simp only [ih (show rest.bytes.length < m by omega) (show rest.bytes.length < n by omega)]

private theorem length_le_length_flatten (fs : List Frame) :
    fs.length ≤ (fs.map Packet.bytes).flatten.length := by
  induction fs with
  | nil => exact Nat.zero_le _
  | cons f fs ih =>
    have hpos : 17 ≤ f.bytes.length := by
      rw [Packet.length_bytes, Packet.size]
      exact Nat.le_add_right 17 _
    rw [List.map_cons, List.flatten_cons, List.length_cons, List.length_append]
    omega

/-- Reading all frames of a stream gives those in front, and then comes to what it comes to behind
them. -/
theorem frames_of_sized {fs : List Frame} (hfs : ∀ f ∈ fs, f.Sized)
    (hb : s.bytes = (fs.map Packet.bytes).flatten ++ t.bytes) (he : s.ended = t.ended) :
    Agree s.frames (after fs t.frames) := by
  have hl := congrArg List.length hb
  have hfl := length_le_length_flatten fs
  rw [List.length_append] at hl
  obtain ⟨n, hn, hlt⟩ : ∃ n, s.bytes.length + 1 = fs.length + n ∧ t.bytes.length < n :=
    ⟨s.bytes.length + 1 - fs.length, by omega, by omega⟩
  rw [frames, frames, hn, readFrames_eq_of_lt (Nat.lt_succ_self _) hlt]
  exact readFrames_of_sized hfs hb he n

private theorem frames_of_broken {cause : Fault} {rest : Inflow}
    (h : s.readFrame = .broken cause rest) : s.frames = ([], some cause, rest) := by
  rw [frames, readFrames, h]

/-- Whatever frames come one after the other in a stream are read in their order, byte for byte, but
those with a wrong checksum are dropped; then the reader stands where the first byte behind them is,
as it would at the start of a fresh stream, and finds the stream cut short or goes no further than
the header that it cannot read. The cuts between the chunks do not matter. -/
theorem frames_in_sync {fs : List Frame} (hfs : ∀ f ∈ fs, f.Sized) {s t : Inflow}
    (hb : s.bytes = (fs.map Packet.bytes).flatten ++ t.bytes) (he : s.ended = t.ended) :
    (∀ n, Agree (s.readFrames (fs.length + n)) (after fs (t.readFrames n))) ∧
    Agree s.frames (after fs t.frames) ∧
    (t.ended = true → t.bytes.EndsWithin →
      Agree s.frames (after fs ([], some (.input .unexpectedEnd), t.drain))) ∧
    (t.bytes.Unreadable →
      Agree s.frames
      (after fs ([], some (.malformedFrame t.bytes.malformation), t.skip FrameHeader.size))) ∧
    ∀ s', s.SameBytes s' → (∀ n, Agree (s.readFrames n) (s'.readFrames n)) ∧
    Agree s.frames s'.frames := by
  have hall := frames_of_sized hfs hb he
  refine ⟨readFrames_of_sized hfs hb he, hall, ?_, ?_, ?_⟩
  · intro hend hcut
    have hr : t.readFrame = .broken (.input .unexpectedEnd) t.drain := by
      rw [readFrame_of_endsWithin hcut, short, if_pos hend]
    rw [frames_of_broken hr] at hall
    exact hall
  · intro hbad
    obtain ⟨rest, hr, hrest⟩ := readFrame_of_unreadable hbad
    rw [frames_of_broken hr] at hall
    have hk : Agree ([], some (.malformedFrame t.bytes.malformation), rest)
        ([], some (.malformedFrame t.bytes.malformation), t.skip FrameHeader.size) :=
          ⟨rfl, rfl, hrest⟩
    exact hall.trans (hk.after fs)
  · intro s' hs
    have hnil : ∀ f ∈ ([] : List Frame), f.Sized := fun f hf ↦ absurd hf List.not_mem_nil
    have h : Agree s.frames (after [] s'.frames) := frames_of_sized hnil hs.bytes hs.ended
    exact ⟨hs.readFrames, h⟩

/-- An empty frame with a wrong checksum and a good frame, cut within a header and within a body,
and behind them what has an unknown flag. -/
def disturbed : Inflow where
  chunks := [[0, 0, 0, 5, 0, 0, 0, 9, 0, 0, 0], [0, 0, 0, 0, 0, 0, 0, 0, 0, 7, 0, 0, 0, 0, 1],
    [0, 0, 0, 2, 0x1E, 0xD9, 0x52, 0xB1, 1], [],
    [2, 0, 0, 0, 3, 0, 0, 0, 0, 2, 0, 0, 0, 0, 0, 0, 0, 0, 8]]

/-- The empty frame is dropped, the good one is read, and one byte is left behind the bad header. -/
theorem frames_in_sync_disturbed :
    Agree disturbed.frames
      ([none, some ⟨⟨7, 0, .user, 2, protocolChecksum⟩, [1, 2]⟩],
        some (.malformedFrame (.unknownFlag 2)), ⟨[[8]], false⟩) := by
  let fs : List Frame :=
    [⟨⟨5, 9, .system, 0, 0⟩, []⟩, ⟨⟨7, 0, .user, 2, protocolChecksum⟩, [1, 2]⟩]
  let tail : Inflow := ⟨[[0, 0, 0, 3, 0, 0, 0, 0, 2, 0, 0, 0, 0, 0, 0, 0, 0, 8]], false⟩
  have hfs : ∀ f ∈ fs, f.Sized := by
    simp only [fs, List.forall_mem_cons, List.not_mem_nil, false_imp_iff, implies_true, and_true]
    exact ⟨⟨rfl, by decide⟩, ⟨rfl, by decide⟩⟩
  have hbad : tail.bytes.Unreadable := ⟨by decide, .inr (by decide)⟩
  have hb : disturbed.bytes = (fs.map Packet.bytes).flatten ++ tail.bytes := by decide +kernel
  have hr : after fs
    ([], some (.malformedFrame tail.bytes.malformation), tail.skip FrameHeader.size) =
      ([none, some ⟨⟨7, 0, .user, 2, protocolChecksum⟩, [1, 2]⟩],
        some (.malformedFrame (.unknownFlag 2)), ⟨[[8]], false⟩) := by decide +kernel
  rw [← hr]
  exact (frames_in_sync hfs hb rfl).2.2.2.1 hbad

end Inflow
end EdgeGateway
