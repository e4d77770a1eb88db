import EdgeGateway.Toml.Lexical

/-!
# Texts of TOML

A text stands in double quotes, where a backslash escapes, or in single quotes, where nothing does.
In three quotes it may have several lines; a line end right behind the opening quotes does not
belong to it, and up to two quotes may stand before the closing ones.
-/

namespace EdgeGateway.Toml

/-- The value of a hexadecimal digit. -/
def hexDigit? (c : Char) : Option Nat :=
  if '0' ≤ c ∧ c ≤ '9' then some (c.toNat - 48)
  else if 'a' ≤ c ∧ c ≤ 'f' then some (c.toNat - 87)
  else if 'A' ≤ c ∧ c ≤ 'F' then some (c.toNat - 55)
  else none

/-- The character with the code point that the digits spell. -/
def codePoint? (digits : List Char) : Option Char := do
  let n ← digits.foldlM (fun n c ↦ do return n * 16 + (← hexDigit? c)) 0
  if n.isValidChar then some (Char.ofNat n) else none

/-- The character that a letter stands for behind a backslash. -/
def escaped? : Char → Option Char
  | 'b' => some '\x08'
  | 't' => some '\t'
  | 'n' => some '\n'
  | 'f' => some '\x0c'
  | 'r' => some '\r'
  | '"' => some '"'
  | '\\' => some '\\'
  | _ => none

-- Puts a character in front of what is read.
private def followed (c : Char) (r : Option (List Char × List Char)) :
    Option (List Char × List Char) := r.map fun (cs, rest) ↦ (c :: cs, rest)

/-- Reads the rest of a text in double quotes. -/
def quotedBody : Reader (List Char)
  | '"' :: rest => some ([], rest)
  | '\\' :: 'u' :: a :: b :: c :: d :: rest =>
    (codePoint? [a, b, c, d]).bind (followed · (quotedBody rest))
  | '\\' :: 'U' :: a :: b :: c :: d :: e :: f :: g :: h :: rest =>
    (codePoint? [a, b, c, d, e, f, g, h]).bind (followed · (quotedBody rest))
  | '\\' :: c :: rest => (escaped? c).bind (followed · (quotedBody rest))
  | c :: rest => if isVisible c ∧ c ≠ '\\' then followed c (quotedBody rest) else none
  | [] => none

/-- Reads the rest of a text in three double quotes. A backslash at the end of a line takes the
blanks and line ends behind it away; `joining` is true among them. -/
def quotedLines (joining : Bool) : Reader (List Char)
  | [] => none
  | '\n' :: rest =>
    if joining then quotedLines true rest else followed '\n' (quotedLines false rest)
  | '\r' :: '\n' :: rest =>
    if joining then quotedLines true rest else followed '\n' (quotedLines false rest)
  | '"' :: '"' :: '"' :: '"' :: '"' :: rest => some (['"', '"'], rest)
  | '"' :: '"' :: '"' :: '"' :: rest => some (['"'], rest)
  | '"' :: '"' :: '"' :: rest => some ([], rest)
  | '\\' :: 'u' :: a :: b :: c :: d :: rest =>
    (codePoint? [a, b, c, d]).bind (followed · (quotedLines false rest))
  | '\\' :: 'U' :: a :: b :: c :: d :: e :: f :: g :: h :: rest =>
    (codePoint? [a, b, c, d, e, f, g, h]).bind (followed · (quotedLines false rest))
  | '\\' :: c :: rest =>
    if (lineEnd? (skipBlank (c :: rest))).isSome then quotedLines true (c :: rest)
    else (escaped? c).bind (followed · (quotedLines false rest))
  | c :: rest =>
    if joining && isBlank c then quotedLines true rest
    else if isVisible c ∧ c ≠ '\\' then followed c (quotedLines false rest)
    else none

/-- Reads the rest of a text in single quotes. -/
def literalBody (cs : List Char) : Option (List Char × List Char) :=
  match cs.dropWhile fun c ↦ isVisible c && c ≠ '\'' with
  | '\'' :: rest => some (cs.takeWhile fun c ↦ isVisible c && c ≠ '\'', rest)
  | _ => none

/-- Reads the rest of a text in three single quotes. -/
def literalLines : Reader (List Char)
  | [] => none
  | '\n' :: rest => followed '\n' (literalLines rest)
  | '\r' :: '\n' :: rest => followed '\n' (literalLines rest)
  | '\'' :: '\'' :: '\'' :: '\'' :: '\'' :: rest => some (['\'', '\''], rest)
  | '\'' :: '\'' :: '\'' :: '\'' :: rest => some (['\''], rest)
  | '\'' :: '\'' :: '\'' :: rest => some ([], rest)
  | c :: rest => if isVisible c then followed c (literalLines rest) else none

-- Drops a line end at the front.
private def afterLineEnd (cs : List Char) : List Char := (lineEnd? cs).getD cs

/-- Reads a text of one line. -/
def shortText : Reader String
  | '"' :: cs => (quotedBody cs).map fun (s, rest) ↦ (String.ofList s, rest)
  | '\'' :: cs => (literalBody cs).map fun (s, rest) ↦ (String.ofList s, rest)
  | _ => none

/-- Reads a text. -/
def text : Reader String
  | '"' :: '"' :: '"' :: cs =>
    (quotedLines false (afterLineEnd cs)).map fun (s, rest) ↦ (String.ofList s, rest)
  | '\'' :: '\'' :: '\'' :: cs =>
    (literalLines (afterLineEnd cs)).map fun (s, rest) ↦ (String.ofList s, rest)
  | cs => shortText cs

/-- May `c` stand in a key without quotes? -/
def isBare (c : Char) : Bool := c.isAlphanum || c = '-' || c = '_'

/-- Reads one part of a key, with the blanks around it. -/
def keyPart (cs : List Char) : Option (String × List Char) := do
  let cs := skipBlank cs
  let (key, cs) ← match cs with
    | '"' :: _ | '\'' :: _ => shortText cs
    | _ =>
      if (cs.takeWhile isBare).isEmpty then none
      else some (String.ofList (cs.takeWhile isBare), cs.dropWhile isBare)
  return (key, skipBlank cs)

/-- A key may have fewer parts, and values fewer levels, than this. -/
def nestingLimit : Nat := 80

/-- Reads a key: the path to its table and its own name. -/
def key (cs : List Char) : Option ((List String × String) × List Char) := do
  let (parts, cs) ← separated '.' keyPart (cs.length + 1) cs
  let name ← parts.getLast?
  if parts.length < nestingLimit then return ((parts.dropLast, name), cs) else none

end EdgeGateway.Toml
