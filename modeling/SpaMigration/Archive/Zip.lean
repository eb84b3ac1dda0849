import SpaMigration.Archive.Basic
import SpaMigration.Archive.Checksum
import SpaMigration.Archive.Inflate

/-!
# Archives as bytes

Each entry has a header of its own in front of its data; a directory behind all entries repeats the headers
and tells where the entries start, and a last record tells where the directory starts. Entries are written
as they are; packed ones can be read.
-/
namespace SpaMigration.Zip


/-! ## Writing -/

/-- A number in so many bytes, the lowest first. -/
def number : (width n : Nat) → List UInt8
  | 0, _ => []
  | width + 1, n => n.toUInt8 :: number width (n / 256)

/-- Numbers one after another, each given by its width. -/
def numbers (fields : List (Nat × Nat)) : ByteArray :=
  ⟨(fields.flatMap fun (width, n) => number width n).toArray⟩

/-- The marks that records start with. -/
def entryMark : Nat := 0x04034B50

@[inherit_doc entryMark]
def directoryMark : Nat := 0x02014B50

@[inherit_doc entryMark]
def endMark : Nat := 0x06054B50

/-- What the header of an entry and its copy in the directory have in common: the version that reads it,
names in UTF-8, data as it is, the first day there is, checksum, both sizes and the size of the name. -/
def commonFields (entry : ArchiveEntry) : List (Nat × Nat) :=
  [(2, 20), (2, 0x0800), (2, 0), (2, 0), (2, 0x0021), (4, (Checksum.of entry.bytes).toNat),
   (4, entry.bytes.size), (4, entry.bytes.size), (2, entry.name.utf8ByteSize), (2, 0)]

/-- An entry with its header. -/
def entryRecord (entry : ArchiveEntry) : ByteArray :=
  numbers ((4, entryMark) :: commonFields entry) ++ entry.name.toUTF8 ++ entry.bytes

/-- The copy of a header in the directory; the entry starts at `offset` and everyone may read it. -/
def directoryRecord (entry : ArchiveEntry) (offset : Nat) : ByteArray :=
  numbers ([(4, directoryMark), (2, 0x0314)] ++ commonFields entry
    ++ [(2, 0), (2, 0), (2, 0), (4, 0o100644 <<< 16), (4, offset)]) ++ entry.name.toUTF8

/-- Entries and directory from some offset on. -/
def records : List ArchiveEntry → Nat → ByteArray × ByteArray
  | [], _ => (.empty, .empty)
  | entry :: rest, offset =>
    let first := entryRecord entry
    let (entries, directory) := records rest (offset + first.size)
    (first ++ entries, directoryRecord entry offset ++ directory)

/-- The bytes of an archive. -/
def encode (entries : List ArchiveEntry) : ByteArray :=
  let (body, directory) := records entries 0
  body ++ directory ++ numbers
    [(4, endMark), (2, 0), (2, 0), (2, entries.length), (2, entries.length), (4, directory.size),
     (4, body.size), (2, 0)]

/-! ## Reading -/

/-- The number in so many bytes from an offset on. -/
def number? (bytes : ByteArray) : (width offset : Nat) → Option Nat
  | 0, _ => some 0
  | width + 1, offset => do
    let low ← bytes.data[offset]?
    return low.toNat + 256 * (← number? bytes width (offset + 1))

/-- The bytes of a stretch that lies inside. -/
def stretch? (bytes : ByteArray) (offset size : Nat) : Option ByteArray :=
  if offset + size ≤ bytes.size then some (bytes.extract offset (offset + size)) else none

/-- The last offset below a bound at which the last record may start. -/
def findEnd? (bytes : ByteArray) : Nat → Option Nat
  | 0 => none
  | n + 1 => if number? bytes 4 n == some endMark then some n else findEnd? bytes n

/-- The data of the entry that starts at an offset. -/
def entryData? (bytes : ByteArray) (method packedSize offset : Nat) : Option ByteArray := do
  if (← number? bytes 4 offset) != entryMark then none
  let nameSize ← number? bytes 2 (offset + 26)
  let extraSize ← number? bytes 2 (offset + 28)
  let packed ← stretch? bytes (offset + 30 + nameSize + extraSize) packedSize
  match method with
  | 0 => some packed
  | 8 => Inflate.unpack? packed
  | _ => none

/-- The entry whose record in the directory starts at an offset, and where the next record starts. -/
def readEntry? (bytes : ByteArray) (offset : Nat) : Option (ArchiveEntry × Nat) := do
  if (← number? bytes 4 offset) != directoryMark then none
  let method ← number? bytes 2 (offset + 10)
  let checksum ← number? bytes 4 (offset + 16)
  let packedSize ← number? bytes 4 (offset + 20)
  let nameSize ← number? bytes 2 (offset + 28)
  let extraSize ← number? bytes 2 (offset + 30)
  let commentSize ← number? bytes 2 (offset + 32)
  let start ← number? bytes 4 (offset + 42)
  let name ← String.fromUTF8? (← stretch? bytes (offset + 46) nameSize)
  let data ← entryData? bytes method packedSize start
  if (Checksum.of data).toNat != checksum then none
  return (⟨name, data⟩, offset + 46 + nameSize + extraSize + commentSize)

/-- So many entries of the directory from an offset on. -/
def readEntries? (bytes : ByteArray) : (count offset : Nat) → Option (List ArchiveEntry)
  | 0, _ => some []
  | count + 1, offset => do
    let (entry, next) ← readEntry? bytes offset
    return entry :: (← readEntries? bytes count next)

/-- The entries of an archive; `none` when the bytes are none or cannot be read. -/
def decode? (bytes : ByteArray) : Option (List ArchiveEntry) := do
  let last ← findEnd? bytes (bytes.size - 21)
  let count ← number? bytes 2 (last + 10)
  let offset ← number? bytes 4 (last + 16)
  readEntries? bytes count offset

end SpaMigration.Zip
