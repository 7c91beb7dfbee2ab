import Mathlib

namespace Chahua.Markdown

/-- A region `[start, stop)` of the source. -/
structure TextRegion where
  start : Nat
  stop : Nat
  deriving DecidableEq, Repr

def isSpace (c : Char) : Bool := c == ' ' || c == '\t'

def isMarker (c : Char) : Bool := c == '*' || c == '~' || c == '_'

def isBreak (c : Char) : Bool := c == '\r' || c == '\n'

def isDigit (c : Char) : Bool := '0' ≤ c && c ≤ '9'

def isAlphanumeric (c : Char) : Bool :=
  ('A' ≤ c && c ≤ 'Z') || ('a' ≤ c && c ≤ 'z') || isDigit c

def inRegions (regions : List TextRegion) (k : Nat) : Bool :=
  regions.any fun region => decide (region.start ≤ k) && decide (k < region.stop)

structure MarkerRun where
  start : Nat
  ch : Char
  deriving DecidableEq, Repr

/-- The content of a pair. -/
def middle (out : List Char) (openStart closeStart : Nat) : List Char :=
  (out.take closeStart).drop (openStart + 2)

def leadOf (mid : List Char) : Nat := (mid.takeWhile isSpace).length

def trailOf (mid : List Char) : Nat := ((mid.drop (leadOf mid)).reverse.takeWhile isSpace).length

/-- Digits next to a pair, and letters next to an underscore, keep it as it is. -/
def bounded (out : List Char) (openStart closeStart : Nat) : Bool :=
  let prevChar := if 0 < openStart then out[openStart - 1]? else none
  let nextChar := out[closeStart + 2]?
  prevChar.any isDigit || nextChar.any isDigit ||
    (out[openStart]? == some '_' && (prevChar.any isAlphanumeric || nextChar.any isAlphanumeric))

/-- The numbers of spaces a pair moves out in front and behind, if it moves any. -/
def looseSpaces (out : List Char) (pair : Nat × Nat) : Option (Nat × Nat) :=
  let mid := middle out pair.1 pair.2
  if pair.2 ≤ pair.1 + 2 then none
  else if mid.contains '\n' then none
  else if mid.length - leadOf mid - trailOf mid = 0 then none
  else if leadOf mid = 0 ∧ trailOf mid = 0 then none
  else if bounded out pair.1 pair.2 then none
  else some (leadOf mid, trailOf mid)

def reflowPair (out : List Char) (pair : Nat × Nat) : List Char :=
  match looseSpaces out pair with
  | none => out
  | some (lead, trail) =>
      let mid := middle out pair.1 pair.2
      let marker := out[pair.1]?.toList ++ out[pair.1]?.toList
      let inner := (mid.drop lead).take (mid.length - lead - trail)
      out.take pair.1 ++ mid.take lead ++ marker ++ inner ++ marker ++
        mid.drop (mid.length - trail) ++ out.drop (pair.2 + 2)

end Chahua.Markdown
