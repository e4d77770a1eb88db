import EdgeGateway.Cbor.Item
import EdgeGateway.Cbor.Skip

/-!
# Records

A record is a map with text keys, each a field of a known kind. It is written with its fields in
order. It is read in any order; entries under other keys are passed over, a field may occur once,
and only an optional field may be absent.
-/

namespace EdgeGateway.Cbor

/-- What a field holds. -/
inductive Kind where
  /-- A number up to and including `max`. -/
  | number (max : Nat)
  | text
  deriving Repr, DecidableEq

/-- The content of a field. -/
inductive Value where
  | number (n : Nat)
  | text (s : String)
  deriving Repr, DecidableEq

/-- A field of a record. -/
structure Field where
  name : String
  kind : Kind
  optional : Bool := false
  deriving Repr, DecidableEq

namespace Value

/-- The item that a value is written as. -/
def toItem : Value → Item
  | number n => .unsigned (UInt64.ofNat n)
  | text s => .text s

end Value

/-- The content of an optional field that is absent. -/
def Kind.absent : Kind → Value
  | number _ => .number 0
  | text => .text ""

/-- Reads a number from 0 to `max`. Tags before it are passed; the number is read in full before its
range is looked at. -/
def readNumber (max : Nat) (input : Bytes) : Except CodecFault (Nat × Bytes) :=
  match hh : Head.read input with
  | .error e => .error e
  | .ok (head, rest) =>
    have := Head.length_lt_of_read hh
    match head with
    | .unsigned n => if n ≤ max then .ok (n, rest) else .error .unsuitable
    | .tag tag =>
      if tag = bigPositive ∨ tag = bigNegative then
        match Head.read rest with
        | .error e => .error e
        | .ok (.bytes length, rest) =>
          match readDigits length rest with
          | .error e => .error e
          | .ok (n, rest) =>
            if tag = bigPositive ∧ n ≤ max then .ok (n, rest) else .error .unsuitable
        | .ok _ => .error .unsuitable
      else readNumber max rest
    | _ => .error .unsuitable
termination_by input.length

/-- Reads a text. Tags before it are passed. -/
def readString (input : Bytes) : Except CodecFault (String × Bytes) :=
  match hh : Head.read input with
  | .error e => .error e
  | .ok (head, rest) =>
    have := Head.length_lt_of_read hh
    match head with
    | .text length => readText length rest
    | .tag _ => readString rest
    | _ => .error .unsuitable
termination_by input.length

/-- Reads the content of a field. -/
def readValue (kind : Kind) (input : Bytes) : Except CodecFault (Value × Bytes) :=
  match kind with
  | .number max => (readNumber max input).map fun (n, rest) ↦ (.number n, rest)
  | .text => (readString input).map fun (s, rest) ↦ (.text s, rest)

/-- The longest key, in bytes. -/
def maxKeyLength : Nat := 4096

/-- Reads the bytes of a key, a short text or byte string of definite length. Tags before it are
passed; a text must be UTF-8. -/
def readKey (input : Bytes) : Except CodecFault (Bytes × Bytes) :=
  match hh : Head.read input with
  | .error e => .error e
  | .ok (head, rest) =>
    have := Head.length_lt_of_read hh
    match head with
    | .text (some n) =>
      if n ≤ maxKeyLength then
        match rest.split? n with
        | none => .error .endOfInput
        | some (key, rest) =>
          if (Text.decode? key).isSome then .ok (key, rest) else .error .illFormed
      else .error .unsuitable
    | .bytes (some n) =>
      if n ≤ maxKeyLength then
        match rest.split? n with
        | none => .error .endOfInput
        | some (key, rest) => .ok (key, rest)
      else .error .unsuitable
    | .tag _ => readKey rest
    | _ => .error .unsuitable
termination_by input.length

private theorem length_lt_of_split {front rest rest' : Bytes} {n m : Nat}
    (hs : rest'.split? n = some (front, rest)) (hlt : rest'.length < m) : rest.length < m := by
  have := (Bytes.split?_eq_some.1 hs).1
  subst this
  simp only [List.length_append] at hlt
  omega

/-- Reading a key takes at least one byte. -/
theorem length_lt_of_readKey {input key rest : Bytes} (h : readKey input = .ok (key, rest)) :
    rest.length < input.length := by
  fun_induction readKey input with
  | case3 _ _ _ _ _ _ _ hs _ _ hlt =>
    simp only [Except.ok.injEq, Prod.mk.injEq] at h
    exact h.2 ▸ length_lt_of_split hs hlt
  | case7 _ _ _ _ _ _ _ hs _ hlt =>
    simp only [Except.ok.injEq, Prod.mk.injEq] at h
    exact h.2 ▸ length_lt_of_split hs hlt
  | case9 _ _ _ _ _ hlt ih => exact Nat.lt_trans (ih h) hlt
  | _ => simp at h

/-- Reading a number gives back no more than there was. -/
theorem length_le_of_readNumber {max n : Nat} {input rest : Bytes}
    (h : readNumber max input = .ok (n, rest)) : rest.length ≤ input.length := by
  fun_induction readNumber max input generalizing n with
  | case2 => simp_all; omega
  | case6 _ _ _ _ _ _ _ hr _ _ hd _ _ hlt =>
    have h1 := Head.length_lt_of_read hr
    have h2 := length_le_of_readDigits hd
    simp only [Except.ok.injEq, Prod.mk.injEq] at h
    rw [← h.2]
    omega
  | case9 _ _ _ _ _ _ hlt ih => exact Nat.le_trans (ih h) (Nat.le_of_lt hlt)
  | _ => simp at h

/-- Reading a text gives back no more than there was. -/
theorem length_le_of_readString {s : String} {input rest : Bytes}
    (h : readString input = .ok (s, rest)) : rest.length ≤ input.length := by
  fun_induction readString input generalizing s with
  | case2 _ _ _ _ _ hlt => exact Nat.le_trans (length_le_of_readText h) (Nat.le_of_lt hlt)
  | case3 _ _ _ _ _ hlt ih => exact Nat.le_trans (ih h) (Nat.le_of_lt hlt)
  | _ => simp at h

/-- Reading the value of a field gives back no more than there was. -/
theorem length_le_of_readValue {kind : Kind} {v : Value} {input rest : Bytes}
    (h : readValue kind input = .ok (v, rest)) : rest.length ≤ input.length := by
  unfold readValue at h
  split at h
  · next max =>
    cases hn : readNumber max input with
    | error e => simp [hn, Except.map] at h
    | ok p =>
      obtain ⟨n, r⟩ := p
      simp only [hn, Except.map, Except.ok.injEq, Prod.mk.injEq] at h
      have := length_le_of_readNumber hn
      simpa [h.2] using this
  · cases hn : readString input with
    | error e => simp [hn, Except.map] at h
    | ok p =>
      obtain ⟨n, r⟩ := p
      simp only [hn, Except.map, Except.ok.injEq, Prod.mk.injEq] at h
      have := length_le_of_readString hn
      simpa [h.2] using this

/-- What is known of a record that is being read: the content of each field met so far. -/
abbrev Found := List (String × Value)

/-- Whether another entry begins: by the count that is left, or up to a break. -/
def entryBegins (left : Option Nat) (input : Bytes) : Except CodecFault (Bool × Bytes) :=
  match left with
  | some n => .ok (n != 0, input)
  | none =>
    match Head.read input with
    | .error e => .error e
    | .ok (.stop, rest) => .ok (false, rest)
    | .ok _ => .ok (true, input)

/-- Where an entry begins nothing has been read of it. -/
theorem entryBegins_true {left : Option Nat} {input rest : Bytes}
    (h : entryBegins left input = .ok (true, rest)) : rest = input := by
  unfold entryBegins at h
  split at h
  · simp_all
  · split at h <;> simp_all

/-- Reads the entries of a record. -/
def readEntries (fields : List Field) (left : Option Nat) (found : Found) (input : Bytes) :
    Except CodecFault Found :=
  match hb : entryBegins left input with
  | .error e => .error e
  | .ok (false, _) => .ok found
  | .ok (true, start) =>
    match hk : readKey start with
    | .error e => .error e
    | .ok (key, rest) =>
      have : rest.length < input.length := entryBegins_true hb ▸ length_lt_of_readKey hk
      match fields.find? (fun f ↦ Text.encode f.name == key) with
      | none =>
        match hs : skipItem rest with
        | .error e => .error e
        | .ok rest' =>
          have := length_le_of_skipPending hs
          readEntries fields (left.map (· - 1)) found rest'
      | some f =>
        if (found.lookup f.name).isSome then .error .unsuitable
        else
          match hv : readValue f.kind rest with
          | .error e => .error e
          | .ok (v, rest') =>
            have := length_le_of_readValue hv
            readEntries fields (left.map (· - 1)) ((f.name, v) :: found) rest'
termination_by input.length

/-- The content of a field, given what was found in the record. -/
def Field.pick (found : Found) (f : Field) : Except CodecFault Value :=
  match found.lookup f.name with
  | some v => .ok v
  | none => if f.optional then .ok f.kind.absent else .error .unsuitable

/-- Reads the head of a map. Tags before it are passed. -/
def readMapHead (input : Bytes) : Except CodecFault (Option Nat × Bytes) :=
  match hh : Head.read input with
  | .error e => .error e
  | .ok (head, rest) =>
    have := Head.length_lt_of_read hh
    match head with
    | .map length => .ok (length, rest)
    | .tag _ => readMapHead rest
    | _ => .error .unsuitable
termination_by input.length

/-- Reads a record and gives the contents of its fields in order. What follows the record is not
looked at. -/
def readRecord (fields : List Field) (input : Bytes) : Except CodecFault (List Value) := do
  let (left, rest) ← readMapHead input
  let found ← readEntries fields left [] rest
  fields.mapM (Field.pick found)

/-- The item that a record is written as. -/
def recordItem (fields : List Field) (values : List Value) : Item :=
  .map (List.zipWith (fun f v ↦ (.text f.name, v.toItem)) fields values)

end EdgeGateway.Cbor
