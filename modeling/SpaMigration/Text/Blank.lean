import SpaMigration.Text.Table

/-!
# White space

The Unicode property `White_Space`, the line terminators of program text, and trimming.
-/
namespace SpaMigration.Text

/-- `White_Space` above the ASCII range. -/
def blankTable : Table :=
  ⟨#[(133, 133), (160, 160), (5760, 5760), (8192, 8202), (8232, 8233), (8239, 8239), (8287, 8287),
    (12288, 12288)]⟩

/-- A character of white space. -/
def isBlank (c : Char) : Bool :=
  if c.val < 128 then c == ' ' || (decide (9 ≤ c.toNat) && decide (c.toNat ≤ 13))
  else blankTable.contains c

/-- A character that ends a line of program text. -/
def isLineTerminator (c : Char) : Bool :=
  c == '\n' || c == '\r' || c.toNat == 0x2028 || c.toNat == 0x2029

/-- The text without the white space at its two ends. -/
def trim (s : List Char) : List Char :=
  ((s.dropWhile isBlank).reverse.dropWhile isBlank).reverse

end SpaMigration.Text
