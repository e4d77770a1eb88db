/-!
# Blanks, comments and line ends of TOML

A reader takes a list of characters and gives what it read with the characters behind it, or nothing
if it cannot read.
-/

namespace EdgeGateway.Toml

/-- Reads something off the front of a text. -/
abbrev Reader (α : Type) := List Char → Option (α × List Char)

/-- Blanks are spaces and tabs. -/
def isBlank (c : Char) : Bool := c = ' ' || c = '\t'

/-- Is `c` neither a control character nor a line end? A tab is allowed. -/
def isVisible (c : Char) : Bool := c = '\t' || (' ' ≤ c && c ≠ '\x7f')

/-- Drops blanks at the front. -/
def skipBlank (cs : List Char) : List Char := cs.dropWhile isBlank

/-- What stands behind a line end. -/
def lineEnd? : List Char → Option (List Char)
  | '\n' :: cs => some cs
  | '\r' :: '\n' :: cs => some cs
  | _ => none

/-- What stands behind blanks, a comment and a line end, of which all but the end may be missing.
The end of the text ends a line as well. -/
def restOfLine? (cs : List Char) : Option (List Char) :=
  let cs := match skipBlank cs with
    | '#' :: cs => cs.dropWhile isVisible
    | cs => cs
  match cs with
  | [] => some []
  | cs => lineEnd? cs

/-- What stands behind any blanks, line ends and comments; within one of these, if `comment`. -/
def skipGap (comment : Bool) : List Char → List Char
  | [] => []
  | c :: cs =>
    if comment && isVisible c then skipGap true cs
    else if isBlank c || c = '\n' then skipGap false cs
    else if c = '\r' && cs.head? = some '\n' then skipGap false cs
    else if c = '#' then skipGap true cs
    else c :: cs

/-- Reads one or more things with a separator between them. -/
def separated {α : Type} (separator : Char) (item : Reader α) : (fuel : Nat) → Reader (List α)
  | 0, _ => none
  | fuel + 1, cs => do
    let (a, cs) ← item cs
    match cs with
    | c :: rest =>
      if c = separator then do
        let (as, cs) ← separated separator item fuel rest
        return (a :: as, cs)
      else return ([a], cs)
    | [] => return ([a], [])

end EdgeGateway.Toml
