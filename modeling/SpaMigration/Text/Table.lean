/-!
# Tables of character ranges

A property of characters given by the inclusive ranges of scalar values that have it.
-/
namespace SpaMigration.Text

/-- Inclusive ranges of scalar values. -/
structure Table where
  ranges : Array (Nat × Nat)

namespace Table

/-- Some range of the table holds the character. -/
def contains (table : Table) (c : Char) : Bool :=
  table.ranges.any fun range => decide (range.1 ≤ c.toNat) && decide (c.toNat ≤ range.2)

end Table

end SpaMigration.Text
