/-!
# Internet addresses

An address of four octets is written in decimal with points, one of eight groups in hexadecimal with
colons. Of the zero groups the longest run is left out in writing, the first of several, unless it
is a single group; an address that only wraps four octets shows them as such. Reading is more
lenient: any run of zero groups may be left out, and the last two groups may always be given as
octets.
-/

namespace EdgeGateway

/-- An address of the internet. -/
inductive Address where
  | four (a b c d : UInt8)
  | six (groups : List UInt16)
  deriving Repr, DecidableEq

/-- An address and a port. -/
structure SocketAddress where
  host : Address
  port : UInt16
  deriving Repr, DecidableEq

namespace Address

/-! ### Reading -/

/-- The parts of a text between separators. There is at least one. -/
def parts (separator : Char) : List Char → List (List Char)
  | [] => [[]]
  | c :: cs =>
    if c = separator then [] :: parts separator cs
    else match parts separator cs with
      | p :: ps => (c :: p) :: ps
      | [] => [[c]]

/-- The value of a hexadecimal digit. -/
def digit? (c : Char) : Option Nat :=
  if c.isDigit then some (c.toNat - '0'.toNat)
  else if 'a' ≤ c ∧ c ≤ 'f' then some (c.toNat - 'a'.toNat + 10)
  else if 'A' ≤ c ∧ c ≤ 'F' then some (c.toNat - 'A'.toNat + 10)
  else none

/-- The number that one or more digits stand for, if it is below `bound`. -/
def number? (base bound : Nat) (cs : List Char) : Option Nat :=
  if cs.isEmpty then none
  else do
    let n ← cs.foldlM (fun n c ↦ do
      let d ← digit? c
      if d < base then some (n * base + d) else none) 0
    if n < bound then some n else none

/-- An octet is written without zeros in front. -/
def octet? (cs : List Char) : Option UInt8 :=
  if 1 < cs.length ∧ cs.head? = some '0' then none
  else (number? 10 256 cs).map UInt8.ofNat

/-- Reads four octets. -/
def four? (cs : List Char) : Option (UInt8 × UInt8 × UInt8 × UInt8) :=
  match parts '.' cs with
  | [a, b, c, d] => do return (← octet? a, ← octet? b, ← octet? c, ← octet? d)
  | _ => none

/-- A group has up to four digits. -/
def group? (cs : List Char) : Option UInt16 :=
  if 4 < cs.length then none else (number? 16 0x10000 cs).map UInt16.ofNat

/-- The group that two octets make up. -/
def pair (a b : UInt8) : UInt16 := a.toUInt16 * 256 + b.toUInt16

/-- Reads groups, the last two of which may be given as octets if `mixed`. -/
def groups? (mixed : Bool) : List (List Char) → Option (List UInt16)
  | [] => some []
  | [p] =>
    match if mixed then four? p else none with
    | some (a, b, c, d) => some [pair a b, pair c d]
    | none => (group? p).map ([·])
  | p :: ps => do return (← group? p) :: (← groups? mixed ps)

/-- Reads any number of groups. -/
def groupsOf? (mixed : Bool) (cs : List Char) : Option (List UInt16) :=
  if cs.isEmpty then some [] else groups? mixed (parts ':' cs)

/-- What stands before and behind the mark of a gap. -/
def splitGap : List Char → Option (List Char × List Char)
  | ':' :: ':' :: cs => some ([], cs)
  | c :: cs => (splitGap cs).map fun (before, behind) ↦ (c :: before, behind)
  | [] => none

/-- Reads eight groups, or fewer with a gap between them that stands for at least one. -/
def six? (cs : List Char) : Option (List UInt16) :=
  match splitGap cs with
  | none => do
    let gs ← groupsOf? true cs
    if gs.length = 8 then some gs else none
  | some (before, behind) => do
    let front ← groupsOf? false before
    let back ← groupsOf? true behind
    if front.length + back.length < 8 then
      some (front ++ List.replicate (8 - front.length - back.length) 0 ++ back)
    else none

/-! ### Writing -/

/-- The text of four octets. -/
def octetsText (a b c d : UInt8) : String := s!"{a}.{b}.{c}.{d}"

/-- The text of some groups. -/
def groupsText (gs : List UInt16) : String :=
  ":".intercalate (gs.map fun g ↦ String.ofList (Nat.toDigits 16 g.toNat))

/-- The number of zero groups at the front. -/
def zerosAtFront (gs : List UInt16) : Nat := (gs.takeWhile (· = 0)).length

/-- Where the longest run of zero groups starts, and how long it is. -/
def longestGap (gs : List UInt16) : Nat × Nat :=
  ((List.range gs.length).map fun i ↦ (i, zerosAtFront (gs.drop i))).foldl
    (fun best run ↦ if best.2 < run.2 then run else best) (0, 0)

/-- The text of an address. -/
def text : Address → String
  | four a b c d => octetsText a b c d
  | six [0, 0, 0, 0, 0, 0xffff, x, y] =>
    "::ffff:" ++ octetsText (x / 256).toUInt8 x.toUInt8 (y / 256).toUInt8 y.toUInt8
  | six gs =>
    match longestGap gs with
    | (start, length) =>
      if 1 < length then
        groupsText (gs.take start) ++ "::" ++ groupsText (gs.drop (start + length))
      else groupsText gs

end Address

namespace SocketAddress

/-- Reads a colon and a port. -/
def port? : List Char → Option UInt16
  | ':' :: cs => (Address.number? 10 0x10000 cs).map UInt16.ofNat
  | _ => none

/-- Reads the inside of square brackets: eight groups, and perhaps the number of a zone. -/
def bracketed? (cs : List Char) : Option Address :=
  match cs.span (· ≠ '%') with
  | (gs, []) => (Address.six? gs).map .six
  | (gs, _ :: zone) => do
    let _ ← Address.number? 10 0x100000000 zone
    (Address.six? gs).map .six

/-- Reads an address and a port with a colon between them. An address of eight groups stands in
square brackets. -/
def ofText? (s : String) : Option SocketAddress :=
  match s.toList with
  | '[' :: cs =>
    match cs.span (· ≠ ']') with
    | (inside, _ :: rest) => do return ⟨← bracketed? inside, ← port? rest⟩
    | (_, []) => none
  | cs =>
    match cs.span (· ≠ ':') with
    | (octets, rest) => do
      let (a, b, c, d) ← Address.four? octets
      return ⟨.four a b c d, ← port? rest⟩

end SocketAddress

end EdgeGateway
