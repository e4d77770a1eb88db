import EdgeGateway.Cbor.Head
import EdgeGateway.Cbor.Text

/-!
# String contents

A byte or text string of indefinite length is a run of definite chunks up to a break. Runs may be
nested. A number beyond 64 bits is a byte string under a tag; its content is read 16 bytes at a time
and may have at most 16 bytes behind its leading zeros.
-/

namespace EdgeGateway.Cbor

/-- The next thing in a run of chunks that is `depth` runs deep. -/
inductive Chunk where
  | piece (length : Nat)
  | deeper
  | stop

namespace Chunk

/-- A chunk of a byte string. -/
def ofBytesHead : Head → Option Chunk
  | .bytes (some n) => some (piece n)
  | .bytes none => some deeper
  | .stop => some stop
  | _ => none

/-- A chunk of a text. -/
def ofTextHead : Head → Option Chunk
  | .text (some n) => some (piece n)
  | .text none => some deeper
  | .stop => some stop
  | _ => none

end Chunk

/-- Reads the rest of an indefinite text, `depth + 1` runs deep, of which `s` is known. -/
def readTextRun (depth : Nat) (s : String) (input : Bytes) : Except CodecFault (String × Bytes) :=
  match hh : Head.read input with
  | .error e => .error e
  | .ok (head, rest) =>
    have := Head.length_lt_of_read hh
    match Chunk.ofTextHead head with
    | none => .error .illFormed
    | some .deeper => readTextRun (depth + 1) s rest
    | some .stop => if depth = 0 then .ok (s, rest) else readTextRun (depth - 1) s rest
    | some (.piece n) =>
      match ht : Text.read n rest with
      | .error e => .error e
      | .ok (t, rest') =>
        have := Text.length_le_of_read ht
        readTextRun depth (s ++ t) rest'
termination_by input.length

/-- Reads a text whose head announced this length. -/
def readText (length : Option Nat) (input : Bytes) : Except CodecFault (String × Bytes) :=
  match length with
  | some n => Text.read n input
  | none => readTextRun 0 "" input

/-- Passes the rest of an indefinite byte string, `depth + 1` runs deep. -/
def skipBytesRun (depth : Nat) (input : Bytes) : Except CodecFault Bytes :=
  match hh : Head.read input with
  | .error e => .error e
  | .ok (head, rest) =>
    have := Head.length_lt_of_read hh
    match Chunk.ofBytesHead head with
    | none => .error .illFormed
    | some .deeper => skipBytesRun (depth + 1) rest
    | some .stop => if depth = 0 then .ok rest else skipBytesRun (depth - 1) rest
    | some (.piece n) =>
      match hs : rest.split? n with
      | none => .error .endOfInput
      | some (_, rest') =>
        have : rest'.length ≤ rest.length := by simp [(Bytes.split?_eq_some.1 hs).1]
        skipBytesRun depth rest'
termination_by input.length

/-- Passes a byte string whose head announced this length. -/
def skipBytes (length : Option Nat) (input : Bytes) : Except CodecFault Bytes :=
  match length with
  | some n =>
    match input.split? n with
    | none => .error .endOfInput
    | some (_, rest) => .ok rest
  | none => skipBytesRun 0 input

/-- A number under construction: its value and the count of digits behind the leading zeros. -/
structure Digits where
  value : Nat := 0
  count : Nat := 0

namespace Digits

/-- Takes in more base-256 digits, of which there may be 16 behind the leading zeros. -/
def absorb (d : Digits) : Bytes → Except CodecFault Digits
  | [] => .ok d
  | b :: bs =>
    if d.count = 16 then .error .unsuitable
    else if d.count = 0 ∧ b = 0 then absorb d bs
    else absorb ⟨d.value * 256 + b.toNat, d.count + 1⟩ bs

/-- Takes in the `n` bytes in front, in pieces of at most 16. -/
def readPieces (d : Digits) (n : Nat) (input : Bytes) : Except CodecFault (Digits × Bytes) :=
  if _h : n = 0 then .ok (d, input)
  else
    match input.split? (min 16 n) with
    | none => .error .endOfInput
    | some (piece, rest) =>
      match d.absorb piece with
      | .error e => .error e
      | .ok d => readPieces d (n - min 16 n) rest
termination_by n

/-- Reading digits piece by piece gives back no more than there was. -/
theorem length_le_of_readPieces {d d' : Digits} {n : Nat} {input rest : Bytes}
    (h : d.readPieces n input = .ok (d', rest)) : rest.length ≤ input.length := by
  fun_induction readPieces d n input with
  | case1 => simp_all
  | case2 => simp at h
  | case3 => simp at h
  | case4 d n input hn piece rest' hs d₁ ha ih =>
    have h1 := ih h
    have h2 := (Bytes.split?_eq_some.1 hs).1
    subst h2
    simp
    omega

end Digits

/-- Reads the digits in the rest of an indefinite byte string, `depth + 1` runs deep. -/
def readDigitsRun (depth : Nat) (d : Digits) (input : Bytes) : Except CodecFault (Nat × Bytes) :=
  match hh : Head.read input with
  | .error e => .error e
  | .ok (head, rest) =>
    have := Head.length_lt_of_read hh
    match Chunk.ofBytesHead head with
    | none => .error .illFormed
    | some .deeper => readDigitsRun (depth + 1) d rest
    | some .stop => if depth = 0 then .ok (d.value, rest) else readDigitsRun (depth - 1) d rest
    | some (.piece n) =>
      match hp : d.readPieces n rest with
      | .error e => .error e
      | .ok (d', rest') =>
        have := Digits.length_le_of_readPieces hp
        readDigitsRun depth d' rest'
termination_by input.length

/-- Reads the digits in a byte string whose head announced this length. -/
def readDigits (length : Option Nat) (input : Bytes) : Except CodecFault (Nat × Bytes) :=
  match length with
  | some n => (Digits.readPieces {} n input).map fun (d, rest) ↦ (d.value, rest)
  | none => readDigitsRun 0 {} input

/-! ### What is left is no longer than what was there -/

/-- Reading the pieces of a text gives back no more than there was. -/
theorem length_le_of_readTextRun {depth : Nat} {s t : String} {input rest : Bytes}
    (h : readTextRun depth s input = .ok (t, rest)) : rest.length ≤ input.length := by
  fun_induction readTextRun depth s input generalizing t with
  | case1 => simp at h
  | case2 => simp at h
  | case3 _ _ _ _ _ _ hlt _ ih => have := ih h; omega
  | case4 => simp_all; omega
  | case5 _ _ _ _ _ _ hlt _ _ ih => have := ih h; omega
  | case6 => simp at h
  | case7 _ _ _ _ _ _ hlt _ _ _ _ _ hle ih => have := ih h; omega

/-- Reading a text in either form gives back no more than there was. -/
theorem length_le_of_readText {length : Option Nat} {s : String} {input rest : Bytes}
    (h : readText length input = .ok (s, rest)) : rest.length ≤ input.length := by
  unfold readText at h
  split at h
  · exact Text.length_le_of_read h
  · exact length_le_of_readTextRun h

/-- Passing the pieces of a byte string gives back no more than there was. -/
theorem length_le_of_skipBytesRun {depth : Nat} {input rest : Bytes}
    (h : skipBytesRun depth input = .ok rest) : rest.length ≤ input.length := by
  fun_induction skipBytesRun depth input with
  | case1 => simp at h
  | case2 => simp at h
  | case3 _ _ _ _ _ hlt _ ih => have := ih h; omega
  | case4 => simp_all; omega
  | case5 _ _ _ _ _ hlt _ _ ih => have := ih h; omega
  | case6 => simp at h
  | case7 _ _ _ _ _ hlt _ _ _ _ _ hle ih => have := ih h; omega

/-- Passing a byte string in either form gives back no more than there was. -/
theorem length_le_of_skipBytes {length : Option Nat} {input rest : Bytes}
    (h : skipBytes length input = .ok rest) : rest.length ≤ input.length := by
  unfold skipBytes at h
  split at h
  · split at h
    · simp at h
    · next hs =>
      have := (Bytes.split?_eq_some.1 hs).1
      simp only [Except.ok.injEq] at h
      subst h this
      simp
  · exact length_le_of_skipBytesRun h

/-- Reading the pieces of a large number gives back no more than there was. -/
theorem length_le_of_readDigitsRun {depth n : Nat} {d : Digits} {input rest : Bytes}
    (h : readDigitsRun depth d input = .ok (n, rest)) : rest.length ≤ input.length := by
  fun_induction readDigitsRun depth d input generalizing n with
  | case1 => simp at h
  | case2 => simp at h
  | case3 _ _ _ _ _ _ hlt _ ih => have := ih h; omega
  | case4 => simp_all; omega
  | case5 _ _ _ _ _ _ hlt _ _ ih => have := ih h; omega
  | case6 => simp at h
  | case7 _ _ _ _ _ _ hlt _ _ _ _ _ hle ih => have := ih h; omega

/-- Reading a large number in either form gives back no more than there was. -/
theorem length_le_of_readDigits {length : Option Nat} {n : Nat} {input rest : Bytes}
    (h : readDigits length input = .ok (n, rest)) : rest.length ≤ input.length := by
  unfold readDigits at h
  split at h
  · next m =>
    cases hp : Digits.readPieces {} m input with
    | error e => simp [hp, Except.map] at h
    | ok p =>
      obtain ⟨d, r⟩ := p
      simp only [hp, Except.map, Except.ok.injEq, Prod.mk.injEq] at h
      have := Digits.length_le_of_readPieces hp
      simpa [h.2] using this
  · exact length_le_of_readDigitsRun h

end EdgeGateway.Cbor
