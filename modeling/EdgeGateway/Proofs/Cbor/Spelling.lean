import EdgeGateway.Cbor.Record

/-!
# The ways to write an item

An item can be written in many ways: a head may be wider than it has to be, a string may come in
pieces, and an array or a map may announce its length or end with a break. A spelling is an item
with all these choices made. It has no tags. `read_opening` says what every reader finds first.
-/

namespace EdgeGateway.Cbor

/-- The width that the argument of a head gets, if the argument fits it: none of its own, or one to
eight bytes behind the head's first. -/
inductive Width where
  | inner
  | one
  | two
  | four
  | eight
  deriving Repr, DecidableEq

namespace Head

/-- The head of a major type with the argument `n` in the width `w`, or in the least width that
does. -/
def spell (w : Width) (major n : Nat) : Bytes :=
  match w with
  | .inner => write major n
  | .one =>
    if n < UInt8.size then UInt8.ofNat (major * 32 + 24) :: Bytes.toBigEndian 1 n else write major n
  | .two =>
    if n < UInt16.size then
      UInt8.ofNat (major * 32 + 25) :: Bytes.toBigEndian 2 n
    else write major n
  | .four =>
    if n < UInt32.size then
      UInt8.ofNat (major * 32 + 26) :: Bytes.toBigEndian 4 n
    else write major n
  | .eight => UInt8.ofNat (major * 32 + 27) :: Bytes.toBigEndian 8 n

/-- The head of a container with `n` elements, which announces them in some width or not at all. -/
def announce (form : Option Width) (major n : Nat) : Bytes :=
  match form with
  | some w => spell w major n
  | none => [UInt8.ofNat (major * 32 + 31)]

/-- Whether a container can have `n` elements in this form. -/
def Announces : (form : Option Width) → (n : Nat) → Prop
  | some _, n => n < UInt64.size
  | none, _ => True

/-- What ends a container that does not announce its length. -/
def closing : Option Width → Bytes
  | some _ => []
  | none => [0xff]

/-- A head is read back in whatever width it is written. -/
theorem read_spell (w : Width) (major n : Nat) (t : Bytes) (hm : major < 7) (hn : n < UInt64.size) :
    ∃ width, read (spell w major n ++ t) =
      (ofArgument major (.value width n)).map (fun h ↦ (h, t)) := by
  cases w with
  | inner => exact read_write major n t hm hn
  | one =>
    rw [spell]
    split
    · next h => exact ⟨1, read_wide major 24 n 1 t (by omega) (by omega) (by omega) rfl h⟩
    · exact read_write major n t hm hn
  | two =>
    rw [spell]
    split
    · next h => exact ⟨2, read_wide major 25 n 2 t (by omega) (by omega) (by omega) rfl h⟩
    · exact read_write major n t hm hn
  | four =>
    rw [spell]
    split
    · next h => exact ⟨4, read_wide major 26 n 4 t (by omega) (by omega) (by omega) rfl h⟩
    · exact read_write major n t hm hn
  | eight => exact ⟨8, read_wide major 27 n 8 t (by omega) (by omega) (by omega) rfl hn⟩

/-- The head of an array is read from the bytes that announce one. -/
theorem read_announce_array (form : Option Width) (n : Nat) (t : Bytes) (hn : Announces form n) :
    read (announce form 4 n ++ t) = .ok (array (form.map fun _ ↦ n), t) := by
  cases form with
  | none => rfl
  | some w =>
    obtain ⟨_, h⟩ := read_spell w 4 n t (by decide) hn
    exact h

/-- The head of a map is read from the bytes that announce one. -/
theorem read_announce_map (form : Option Width) (n : Nat) (t : Bytes) (hn : Announces form n) :
    read (announce form 5 n ++ t) = .ok (map (form.map fun _ ↦ n), t) := by
  cases form with
  | none => rfl
  | some w =>
    obtain ⟨_, h⟩ := read_spell w 5 n t (by decide) hn
    exact h

end Head

/-- A string: as a whole, or in pieces up to a break. -/
inductive Run (α : Type) where
  | whole (w : Width) (a : α)
  | pieces (ps : List (Width × α))
  deriving Repr, DecidableEq

namespace Run

variable {α : Type} (major : Nat) (spell : α → Bytes)

/-- The length that the head announces. -/
def length? : Run α → Option Nat
  | whole _ a => some (spell a).length
  | pieces _ => none

/-- The head. -/
def opening : Run α → Bytes
  | whole w a => Head.spell w major (spell a).length
  | pieces _ => Head.announce none major 0

/-- What stands behind the head. -/
def body : Run α → Bytes
  | whole _ a => spell a
  | pieces ps =>
    ps.flatMap (fun p ↦ Head.spell p.1 major (spell p.2).length ++ spell p.2) ++ Head.closing none

/-- Every length is one that a head can announce. -/
def Sized : Run α → Prop
  | whole _ a => (spell a).length < UInt64.size
  | pieces ps => ∀ p ∈ ps, (spell p.2).length < UInt64.size

end Run

/-- The text that pieces make up. -/
def joined : List (Width × String) → String
  | [] => ""
  | p :: ps => p.2 ++ joined ps

/-- The text of a run. -/
def Run.text : Run String → String
  | whole _ s => s
  | pieces ps => joined ps

/-- A way to write an item. Containers announce their length in some width or not at all. -/
inductive Spelling where
  | unsigned (w : Width) (n : UInt64)
  /-- The number `-1 - n`. -/
  | negative (w : Width) (n : UInt64)
  | bytes (r : Run Bytes)
  | text (r : Run String)
  | array (form : Option Width) (items : List Spelling)
  | map (form : Option Width) (entries : List (Spelling × Spelling))
  | bool (b : Bool)
  | null
  /-- Floating-point numbers by their bits. -/
  | half (bits : UInt16)
  | single (bits : UInt32)
  | double (bits : UInt64)

namespace Spelling

/-- The head. -/
def opening : Spelling → Bytes
  | unsigned w n => Head.spell w 0 n.toNat
  | negative w n => Head.spell w 1 n.toNat
  | bytes r => r.opening 2 id
  | text r => r.opening 3 Text.encode
  | array form items => Head.announce form 4 items.length
  | map form entries => Head.announce form 5 entries.length
  | bool false => [0xf4]
  | bool true => [0xf5]
  | null => [0xf6]
  | half bits => 0xf9 :: Bytes.toBigEndian 2 bits.toNat
  | single bits => 0xfa :: Bytes.toBigEndian 4 bits.toNat
  | double bits => 0xfb :: Bytes.toBigEndian 8 bits.toNat

/-- What the head says. -/
def head : Spelling → Head
  | unsigned _ n => .unsigned n.toNat
  | negative _ n => .negative n.toNat
  | bytes r => .bytes (r.length? id)
  | text r => .text (r.length? Text.encode)
  | array form items => .array (form.map fun _ ↦ items.length)
  | map form entries => .map (form.map fun _ ↦ entries.length)
  | bool false => .simple 20
  | bool true => .simple 21
  | null => .simple 22
  | half bits => .float 2 bits.toNat
  | single bits => .float 4 bits.toNat
  | double bits => .float 8 bits.toNat

mutual
/-- What stands behind the head. -/
def body : Spelling → Bytes
  | bytes r => r.body 2 id
  | text r => r.body 3 Text.encode
  | array form items => encodeItems items ++ Head.closing form
  | map form entries => encodeEntries entries ++ Head.closing form
  | _ => []

/-- Items, one after the other. -/
def encodeItems : List Spelling → Bytes
  | [] => []
  | i :: is => i.opening ++ body i ++ encodeItems is

/-- Entries, each key before its value. -/
def encodeEntries : List (Spelling × Spelling) → Bytes
  | [] => []
  | (k, v) :: es => k.opening ++ body k ++ (v.opening ++ body v) ++ encodeEntries es
end

/-- The bytes of a spelling. -/
def encode (i : Spelling) : Bytes := i.opening ++ i.body

mutual
/-- How many containers are open at once within an item. -/
def depth : Spelling → Nat
  | array _ items => depthItems items + 1
  | map _ entries => depthEntries entries + 1
  | _ => 0

/-- How deep the deepest of several items is nested. -/
def depthItems : List Spelling → Nat
  | [] => 0
  | i :: is => max (depth i) (depthItems is)

/-- How deep the deepest of several entries is nested. -/
def depthEntries : List (Spelling × Spelling) → Nat
  | [] => 0
  | (k, v) :: es => max (max (depth k) (depth v)) (depthEntries es)
end

mutual
/-- Every length and every count that is announced is one that a head can announce. -/
def Sized : Spelling → Prop
  | bytes r => r.Sized id
  | text r => r.Sized Text.encode
  | array form items => Head.Announces form items.length ∧ SizedItems items
  | map form entries => Head.Announces form entries.length ∧ SizedEntries entries
  | _ => True

/-- All sizes in several items fit in what announces them. -/
def SizedItems : List Spelling → Prop
  | [] => True
  | i :: is => Sized i ∧ SizedItems is

/-- All sizes in several entries fit in what announces them. -/
def SizedEntries : List (Spelling × Spelling) → Prop
  | [] => True
  | (k, v) :: es => Sized k ∧ Sized v ∧ SizedEntries es
end

/-! ### What a reader finds first -/

/-- Whoever reads an item finds its head first. -/
theorem read_opening (i : Spelling) (t : Bytes) (hs : i.Sized) :
    Head.read (i.opening ++ t) = .ok (i.head, t) := by
  cases i with
  | unsigned w n =>
    obtain ⟨_, h⟩ := Head.read_spell w 0 n.toNat t (by decide) n.toNat_lt
    exact h
  | negative w n =>
    obtain ⟨_, h⟩ := Head.read_spell w 1 n.toNat t (by decide) n.toNat_lt
    exact h
  | bytes r =>
    cases r with
    | whole w b =>
      obtain ⟨_, h⟩ := Head.read_spell w 2 b.length t (by decide) hs
      exact h
    | pieces ps => rfl
  | text r =>
    cases r with
    | whole w s =>
      obtain ⟨_, h⟩ := Head.read_spell w 3 (Text.encode s).length t (by decide) hs
      exact h
    | pieces ps => rfl
  | array form items => exact Head.read_announce_array form _ t hs.1
  | map form entries => exact Head.read_announce_map form _ t hs.1
  | bool b => cases b <;> rfl
  | null => rfl
  | half bits =>
    exact Head.read_wide 7 25 bits.toNat 2 t (by omega) (by omega) (by omega) rfl bits.toNat_lt
  | single bits =>
    exact Head.read_wide 7 26 bits.toNat 4 t (by omega) (by omega) (by omega) rfl bits.toNat_lt
  | double bits =>
    exact Head.read_wide 7 27 bits.toNat 8 t (by omega) (by omega) (by omega) rfl bits.toNat_lt

end Spelling

end EdgeGateway.Cbor
