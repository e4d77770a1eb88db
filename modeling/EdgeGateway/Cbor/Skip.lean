import EdgeGateway.Cbor.Strings

/-!
# Passing over items

An unknown entry of a record is read in full and dropped. What is open at a moment, containers and
tags, is a stack; its height is the depth of nesting, which has a limit.
-/

namespace EdgeGateway.Cbor

/-- The number of containers and tags that may be open at once. -/
def maxDepth : Nat := 256

/-- What is still to come in an open container. -/
inductive Pending where
  /-- So many more items. -/
  | count (n : Nat)
  /-- Items up to a break. -/
  | items
  /-- Entries up to a break, which may stand in the place of a key only. -/
  | entries (atKey : Bool)
  deriving Repr, DecidableEq

namespace Pending

/-- What is to come once one more item has begun. -/
def advance : Pending → Pending
  | count n => count (n - 1)
  | items => items
  | entries atKey => entries (!atKey)

/-- Whether a break may stand here. -/
def closable : Pending → Bool
  | count _ => false
  | items => true
  | entries atKey => atKey

end Pending

/-- The tags of numbers beyond 64 bits: positive and negative. -/
def bigPositive : Nat := 2

/-- The tag of a large negative number. -/
def bigNegative : Nat := 3

/-- Passes the string under a number tag if it is definite and has at most 16 bytes; gives nothing
if something else stands there. The number must fit 128 bits with its sign. -/
def skipBignum (tag : Nat) (input : Bytes) : Except CodecFault (Option Bytes) :=
  if tag = bigPositive ∨ tag = bigNegative then
    match Head.read input with
    | .error e => .error e
    | .ok (.bytes (some n), rest) =>
      if n ≤ 16 then
        match rest.split? n with
        | none => .error .endOfInput
        | some (b, rest) =>
          if tag = bigNegative ∧ 1 <<< 127 ≤ b.ofBigEndian then .error .unsuitable
          else .ok (some rest)
      else .ok none
    | .ok _ => .ok none
  else .ok none

/-- Passing a large number gives back no more than there was. -/
theorem length_le_of_skipBignum {tag : Nat} {input rest : Bytes}
    (h : skipBignum tag input = .ok (some rest)) : rest.length ≤ input.length := by
  unfold skipBignum at h
  split at h
  · split at h
    · simp at h
    · next n r hr =>
      split at h
      · split at h
        · simp at h
        · next b r' hs =>
          split at h
          · simp at h
          · simp only [Except.ok.injEq, Option.some.injEq] at h
            have h1 := (Bytes.split?_eq_some.1 hs).1
            have h2 := Head.length_lt_of_read hr
            subst h h1
            simp only [List.length_append] at h2
            omega
      · simp at h
    · simp at h
  · simp at h

/-- Passes everything that is pending, the innermost container first. -/
def skipPending (stack : List Pending) (input : Bytes) : Except CodecFault Bytes :=
  match stack with
  | [] => .ok input
  | .count 0 :: outer => skipPending outer input
  | top :: outer =>
    match hh : Head.read input with
    | .error e => .error e
    | .ok (head, rest) =>
      have := Head.length_lt_of_read hh
      let opened (inner : Pending) : List Pending := inner :: top.advance :: outer
      match head with
      | .unsigned _ | .negative _ | .float _ _ => skipPending (top.advance :: outer) rest
      | .simple n =>
        if 20 ≤ n ∧ n ≤ 23 then
          skipPending (top.advance :: outer) rest
        else .error .unsuitable
      | .stop => if top.closable then skipPending outer rest else .error .unsuitable
      | .bytes length =>
        match hs : skipBytes length rest with
        | .error e => .error e
        | .ok rest' =>
          have := length_le_of_skipBytes hs
          skipPending (top.advance :: outer) rest'
      | .text length =>
        match hs : readText length rest with
        | .error e => .error e
        | .ok (_, rest') =>
          have := length_le_of_readText hs
          skipPending (top.advance :: outer) rest'
      | .array length =>
        if maxDepth ≤ outer.length + 1 then .error .tooDeep
        else skipPending (opened ((length.map .count).getD .items)) rest
      | .map length =>
        if maxDepth ≤ outer.length + 1 then .error .tooDeep
        else skipPending (opened ((length.map fun n ↦ .count (2 * n)).getD (.entries true))) rest
      | .tag tag =>
        match hb : skipBignum tag rest with
        | .error e => .error e
        | .ok (some rest') =>
          have := length_le_of_skipBignum hb
          skipPending (top.advance :: outer) rest'
        | .ok none =>
          if maxDepth ≤ outer.length + 1 then .error .tooDeep
          else skipPending (opened (.count 1)) rest
termination_by (input.length, stack.length)

/-- Passes one item that stands inside one container. -/
def skipItem (input : Bytes) : Except CodecFault Bytes := skipPending [.count 1] input

/-- Passing what is open gives back no more than there was. -/
theorem length_le_of_skipPending {stack : List Pending} {input rest : Bytes}
    (h : skipPending stack input = .ok rest) : rest.length ≤ input.length := by
  fun_induction skipPending stack input <;> simp_all <;> omega

end EdgeGateway.Cbor
