/-!
# Sets of characters, written as ranges

The character classes of the Unicode standard are unions of a few hundred intervals of code
points.  A `CharSet` lists the intervals in ascending order, both ends included, and `CharSet.mem`
says whether a character lies in one of them.
-/

namespace MaterialBinding.Text

/-- A set of characters: intervals of code points, both ends included. -/
abbrev CharSet := List (Nat × Nat)

/-- Some interval of the set covers the character. -/
def CharSet.mem (set : CharSet) (c : Char) : Bool :=
  set.any fun (first, last) => first ≤ c.toNat && c.toNat ≤ last

end MaterialBinding.Text
