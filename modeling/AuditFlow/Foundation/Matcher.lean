import AuditFlow.Foundation.Text

/-!
# Regular expressions as matchers

A backtracking matcher maps a position, given as the character before it and the text after it, to
**all the ways to match there, in order of preference**. The combinators are those of the usual
regular expression syntax; greedy repetition stops where an iteration consumes nothing.

`sub` replaces the leftmost matches, each the preferred one at its position, and `search` gives the
text of the leftmost match.
-/

namespace Foundation

/-- The preferred matches at a position: the last character consumed or before, and the rest. -/
abbrev Matcher : Type := Option Char → List Char → List (Option Char × List Char)

namespace Matcher

/-- Match nothing. -/
def empty : Matcher := fun prev s => [(prev, s)]

/-- One character of a class. -/
def satisfy (p : Char → Bool) : Matcher
  | _, c :: s => if p c then [(some c, s)] else []
  | _, [] => []

/-- One after the other. -/
def seq (m n : Matcher) : Matcher := fun prev s => (m prev s).flatMap fun r => n r.1 r.2

/-- `m|n`. -/
def alt (m n : Matcher) : Matcher := fun prev s => m prev s ++ n prev s

/-- `m?`. -/
def opt (m : Matcher) : Matcher := alt m empty

/-- `m*` with at most `fuel` iterations. -/
def manyUpTo (m : Matcher) : (fuel : ℕ) → Matcher
  | 0, prev, s => [(prev, s)]
  | fuel + 1, prev, s =>
    (((m prev s).filter fun r => r.2.length < s.length).flatMap fun r =>
      manyUpTo m fuel r.1 r.2) ++ [(prev, s)]

/-- `m*`. -/
def many (m : Matcher) : Matcher := fun prev s => manyUpTo m s.length prev s

/-- `m+`. -/
def many1 (m : Matcher) : Matcher := seq m (many m)

/-- `m{n}`. -/
def times (m : Matcher) : ℕ → Matcher
  | 0 => empty
  | n + 1 => seq m (times m n)

/-- `m{0,n}?`: as few iterations as possible. -/
def lazyUpTo (m : Matcher) : ℕ → Matcher
  | 0 => empty
  | n + 1 => alt empty (seq m (lazyUpTo m n))

/-- All of them, one after the other. -/
def all (ms : List Matcher) : Matcher := ms.foldr seq empty

/-- The first of them that leads to a match. -/
def any (ms : List Matcher) : Matcher := ms.foldr alt fun _ _ => []

/-- `\b`. -/
def wordBoundary (isWord : Char → Bool) : Matcher := fun prev s =>
  if prev.any isWord != s.head?.any isWord then [(prev, s)] else []

/-- `(?<!…)`. -/
def notBehind (p : Char → Bool) : Matcher := fun prev s => if prev.any p then [] else [(prev, s)]

/-- `(?!…)`. -/
def notAhead (p : Char → Bool) : Matcher := fun prev s =>
  if s.head?.any p then [] else [(prev, s)]

/-- `$`. -/
def atEnd : Matcher := fun prev s => if s = [] ∨ s = ['\n'] then [(prev, s)] else []

/-- `m.search(s).group(0)` from a position on. -/
def searchFrom (m : Matcher) : Option Char → List Char → Option (List Char)
  | prev, [] => (m prev []).head?.map fun _ => []
  | prev, c :: s =>
    match m prev (c :: s) with
    | [] => searchFrom m (some c) s
    | (_, rest) :: _ => some ((c :: s).take ((c :: s).length - rest.length))

/-- `m.search(s).group(0)`. -/
def search (m : Matcher) (s : List Char) : Option (List Char) := searchFrom m none s

/-- `re.sub(m, r, s)` from a position on. -/
def subFrom (m : Matcher) (r : List Char) : (fuel : ℕ) → Option Char → List Char → List Char
  | 0, _, s => s
  | fuel + 1, prev, s =>
    let copy := match s with
      | [] => []
      | c :: s' => c :: subFrom m r fuel (some c) s'
    match m prev s with
    | [] => copy
    | (prev', rest) :: _ =>
      if rest.length < s.length then r ++ subFrom m r fuel prev' rest else r ++ copy

/-- `re.sub(m, r, s)`. -/
def sub (m : Matcher) (r s : List Char) : List Char := subFrom m r (s.length + 1) none s

end Matcher

end Foundation
