import EdgeGateway.Toml.Text
import EdgeGateway.Toml.Value

/-!
# Numbers, points in time and truth values of TOML

Whole numbers have 64 bits with a sign. Digits may be grouped by single underscores, and a decimal
number does not start with a zero that says nothing. A fraction that is too large for a double is
refused; all else about it is forgotten.
-/

namespace EdgeGateway.Toml

/-- Reads further digits, each of which may follow an underscore. -/
def moreDigits (isDigit : Char → Bool) : Reader (List Char)
  | '_' :: c :: cs =>
    if isDigit c then (moreDigits isDigit cs).map fun (ds, rest) ↦ (c :: ds, rest) else none
  | c :: cs =>
    if isDigit c then (moreDigits isDigit cs).map fun (ds, rest) ↦ (c :: ds, rest)
    else if c = '_' then none
    else some ([], c :: cs)
  | [] => some ([], [])

/-- Reads one or more digits. -/
def digits (isDigit : Char → Bool) : Reader (List Char)
  | c :: cs =>
    if isDigit c then (moreDigits isDigit cs).map fun (ds, rest) ↦ (c :: ds, rest) else none
  | [] => none

/-- The number that digits spell in a base. -/
def ofDigits (base : Nat) (ds : List Char) : Nat :=
  ds.foldl (fun n c ↦ n * base + (hexDigit? c).getD 0) 0

/-- Reads a sign, which may be missing. `true` stands for minus. -/
def sign : List Char → Bool × List Char
  | '+' :: cs => (false, cs)
  | '-' :: cs => (true, cs)
  | cs => (false, cs)

/-- Reads the digits of a decimal whole number. -/
def decimalDigits : Reader (List Char)
  | '0' :: cs => some (['0'], cs)
  | cs => digits Char.isDigit cs

/-- Is `m` times ten to the power `e` too large for a double? Numbers that round to 2 to the power
1024 or more are. -/
def overflowsDouble (m : Nat) (e : Int) : Bool :=
  let limit := 1 <<< 1024 - 1 <<< 970
  let size := (Nat.toDigits 10 m).length + e
  if m = 0 ∨ size < 300 then false
  else if 310 < size then true
  else if 0 ≤ e then limit ≤ m * Nat.pow 10 e.toNat
  else limit * Nat.pow 10 (-e).toNat ≤ m

/-- Reads the part of a fraction behind its point. -/
def afterPoint : Reader (List Char)
  | '.' :: cs => digits Char.isDigit cs
  | cs => some ([], cs)

/-- Reads an exponent, which may be missing. -/
def exponent : Reader Int
  | [] => some (0, [])
  | c :: cs =>
    if c = 'e' ∨ c = 'E' then do
      let (minus, cs) := sign cs
      let (ds, cs) ← digits Char.isDigit cs
      let n : Int := ofDigits 10 ds
      return (if minus then -n else n, cs)
    else some (0, c :: cs)

/-- Is there a point or an exponent at the front? -/
def startsFraction : List Char → Bool
  | c :: _ => c = '.' || c = 'e' || c = 'E'
  | [] => false

/-- The whole number with a given sign and size, if 64 bits hold it. -/
def integer? (minus : Bool) (n : Nat) : Option Value :=
  if minus then if n ≤ 1 <<< 63 then some (.integer (-n)) else none
  else if n < 1 <<< 63 then some (.integer n) else none

/-- Reads a whole number in another base than ten, behind its mark. -/
def based (base : Nat) (isDigit : Char → Bool) (cs : List Char) : Option (Value × List Char) :=
  do
  let (ds, cs) ← digits isDigit cs
  let v ← integer? false (ofDigits base ds)
  return (v, cs)

/-- Reads a decimal number. -/
def decimal (cs : List Char) : Option (Value × List Char) := do
  let (minus, cs) := sign cs
  match cs with
  | 'i' :: 'n' :: 'f' :: cs => return (.fraction, cs)
  | 'n' :: 'a' :: 'n' :: cs => return (.fraction, cs)
  | cs =>
    let (whole, cs) ← decimalDigits cs
    if startsFraction cs then
      let (places, cs) ← afterPoint cs
      let (e, cs) ← exponent cs
      if ¬ minus ∧ overflowsDouble (ofDigits 10 (whole ++ places)) (e - places.length) then none
      else return (.fraction, cs)
    else
      let v ← integer? minus (ofDigits 10 whole)
      return (v, cs)

/-- Reads a number. -/
def number : Reader Value
  | '0' :: 'x' :: cs => based 16 (fun c ↦ (hexDigit? c).isSome) cs
  | '0' :: 'o' :: cs => based 8 (fun c ↦ '0' ≤ c && c ≤ '7') cs
  | '0' :: 'b' :: cs => based 2 (fun c ↦ c = '0' || c = '1') cs
  | cs => decimal cs

/-- Reads a number of exactly `n` decimal digits. -/
def fixedDigits (n : Nat) (cs : List Char) : Option (Nat × List Char) :=
  if (cs.take n).length = n ∧ (cs.take n).all Char.isDigit then
    some (ofDigits 10 (cs.take n), cs.drop n)
  else none

/-- Reads a number of two digits within bounds. -/
def twoDigits (low high : Nat) (cs : List Char) : Option (Nat × List Char) :=
  match fixedDigits 2 cs with
  | some (n, cs) => if low ≤ n ∧ n ≤ high then some (n, cs) else none
  | none => none

/-- What stands behind one given character. -/
def after? (c : Char) : List Char → Option (List Char)
  | d :: cs => if d = c then some cs else none
  | [] => none

/-- The number of days of a month. -/
def daysOfMonth (year month : Nat) : Nat :=
  if month = 2 then if year % 4 = 0 ∧ (year % 100 ≠ 0 ∨ year % 400 = 0) then 29 else 28
  else if month = 4 ∨ month = 6 ∨ month = 9 ∨ month = 11 then 30
  else 31

/-- What stands behind a day of the calendar. -/
def day? (cs : List Char) : Option (List Char) := do
  let (year, cs) ← fixedDigits 4 cs
  let cs ← after? '-' cs
  let (month, cs) ← twoDigits 1 12 cs
  let cs ← after? '-' cs
  let (day, cs) ← twoDigits 1 (daysOfMonth year month) cs
  let _ := day
  return cs

/-- What stands behind the fraction of a second, which may be missing. -/
def afterSeconds : List Char → List Char
  | '.' :: c :: cs => if c.isDigit then cs.dropWhile Char.isDigit else '.' :: c :: cs
  | cs => cs

/-- What stands behind a time of the day. -/
def time? (cs : List Char) : Option (List Char) := do
  let (_, cs) ← twoDigits 0 23 cs
  let cs ← after? ':' cs
  let (_, cs) ← twoDigits 0 59 cs
  let cs ← after? ':' cs
  let (_, cs) ← twoDigits 0 60 cs
  return afterSeconds cs

/-- What stands behind the difference to universal time, which may be missing. -/
def zone? : List Char → Option (List Char)
  | [] => some []
  | c :: cs =>
    if c = 'Z' ∨ c = 'z' then some cs
    else if c = '+' ∨ c = '-' then do
      let (_, cs) ← twoDigits 0 23 cs
      let cs ← after? ':' cs
      let (_, cs) ← twoDigits 0 59 cs
      return cs
    else some (c :: cs)

/-- Is there a time of the day at the front? -/
def startsTime (cs : List Char) : Bool :=
  match twoDigits 0 23 cs with
  | some (_, ':' :: _) => true
  | _ => false

/-- Is there a day at the front? -/
def startsDay (cs : List Char) : Bool :=
  match fixedDigits 4 cs with
  | some (_, '-' :: _) => true
  | _ => false

/-- What stands behind a time of the day and its zone, which may be missing behind a day. -/
def timeOfDay? : List Char → Option (List Char)
  | [] => some []
  | c :: cs =>
    if (c = 'T' ∨ c = 't' ∨ c = ' ') ∧ startsTime cs then (time? cs).bind zone?
    else some (c :: cs)

/-- Reads a value that has no parts. -/
def scalar (cs : List Char) : Option (Value × List Char) :=
  match cs with
  | '"' :: _ | '\'' :: _ => (text cs).map fun (s, rest) ↦ (.text s, rest)
  | 't' :: 'r' :: 'u' :: 'e' :: rest => some (.boolean true, rest)
  | 'f' :: 'a' :: 'l' :: 's' :: 'e' :: rest => some (.boolean false, rest)
  | _ =>
    if startsDay cs then ((day? cs).bind timeOfDay?).map fun rest ↦ (.moment, rest)
    else if startsTime cs then (time? cs).map fun rest ↦ (.moment, rest)
    else number cs

end EdgeGateway.Toml
