/-!
# Sets of characters as ranges of code points

The character classes of this library are tables of closed ranges of code points in ascending
order. A look-up walks the table and stops at the first range that does not lie below the
character, so it never reads further than it must.
-/

set_option autoImplicit false

namespace MarkupTemplate

/-- Closed ranges of code points, in ascending order. Nothing enforces the order: a table that lacks
it still gives an answer, and a wrong one. -/
abbrev CodeRanges := List (Nat × Nat)

namespace CodeRanges

def covers : CodeRanges → Nat → Bool
  | [], _ => false
  | (first, last) :: ranges, n => if n ≤ last then first ≤ n else covers ranges n

end CodeRanges

end MarkupTemplate
