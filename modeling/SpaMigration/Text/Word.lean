import SpaMigration.Text.Identifier

/-!
# Word characters

The characters that count as part of a word when a word boundary is looked for: letters, marks,
decimal digits, connectors and the two joiners. They are the identifier characters but for a few.
-/
namespace SpaMigration.Text

/-- Word characters that no identifier contains: enclosing marks, joiners, enclosed letters. -/
def wordOnlyTable : Table :=
  ⟨#[
    (1160, 1161), (6846, 6846), (8204, 8205), (8413, 8416), (8418, 8420), (9398, 9449), (11823,
    11823), (42608, 42610), (127280, 127305), (127312, 127337), (127344, 127369)]⟩

/-- Identifier characters that are no word characters. -/
def identifierOnlyTable : Table :=
  ⟨#[
    (183, 183), (903, 903), (4969, 4977), (6618, 6618), (8472, 8472), (8494, 8494), (12443,
    12444)]⟩

/-- A letter, mark, digit or connector. -/
def isWordChar (c : Char) : Bool :=
  if c.val < 128 then c.isAlphanum || c == '_'
  else wordOnlyTable.contains c || (idContinueTable.contains c && !identifierOnlyTable.contains c)

end SpaMigration.Text
