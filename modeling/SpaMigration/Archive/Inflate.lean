/-!
# Deflated data

Unpacks data that was packed with literals, references to earlier data and codes of varying length. Bits are
taken from the low end of each byte; the bits of a code word come with the highest first.
-/
namespace SpaMigration.Inflate

/-- A place in a stream of bits. -/
structure Bits where
  bytes : ByteArray
  position : Nat

namespace Bits

/-- The next bit. -/
def next? (bits : Bits) : Option (Nat × Bits) :=
  bits.bytes.data[bits.position / 8]?.map fun byte =>
    ((byte.toNat >>> (bits.position % 8)) % 2, { bits with position := bits.position + 1 })

/-- A number of so many bits, the lowest first. -/
def number? : Nat → Bits → Option (Nat × Bits)
  | 0, bits => some (0, bits)
  | n + 1, bits => do
    let (bit, bits) ← bits.next?
    let (rest, bits) ← number? n bits
    return (bit + 2 * rest, bits)

/-- The start of the next byte, unless a byte starts here. -/
def aligned (bits : Bits) : Bits := { bits with position := (bits.position + 7) / 8 * 8 }

/-- An upper bound for the number of steps from here to the end. -/
def budget (bits : Bits) : Nat := 8 * bits.bytes.size + 1 - bits.position

end Bits

/-- A code given by the lengths of its words: words of one length are consecutive, in order of their
symbols, and shorter ones come first. -/
structure Code where
  /-- How many words have the lengths one, two, and so on. -/
  counts : List Nat
  /-- The symbols, by length. -/
  symbols : Array Nat

namespace Code

/-- The greatest length of a word. -/
def maxLength : Nat := 15

/-- The code in which each symbol has a length; zero means that it has no word. -/
def ofLengths (lengths : List Nat) : Code where
  counts := (List.range maxLength).map fun n => lengths.countP (· == n + 1)
  symbols := ((List.range maxLength).flatMap fun n =>
    (lengths.zipIdx.filter (·.1 == n + 1)).map (·.2)).toArray

/-- Reads a word. `word` are the bits so far, `first` is the first word of their number of bits, and `index`
tells how many words are shorter. -/
def readWord (symbols : Array Nat) : List Nat → (word first index : Nat) → Bits → Option (Nat × Bits)
  | [], _, _, _, _ => none
  | count :: counts, word, first, index, bits => do
    let (bit, bits) ← bits.next?
    let word := 2 * word + bit
    if word < first + count then
      return (← symbols[index + (word - first)]?, bits)
    else readWord symbols counts word (2 * (first + count)) (index + count) bits

/-- The symbol whose word comes next. -/
def symbol? (code : Code) (bits : Bits) : Option (Nat × Bits) := readWord code.symbols code.counts 0 0 0 bits

end Code

/-- For each symbol of a length: the least length and the number of further bits. -/
def lengthClasses : Array (Nat × Nat) :=
  #[(3, 0), (4, 0), (5, 0), (6, 0), (7, 0), (8, 0), (9, 0), (10, 0), (11, 1), (13, 1), (15, 1), (17, 1),
    (19, 2), (23, 2), (27, 2), (31, 2), (35, 3), (43, 3), (51, 3), (59, 3), (67, 4), (83, 4), (99, 4),
    (115, 4), (131, 5), (163, 5), (195, 5), (227, 5), (258, 0)]

/-- For each symbol of a distance: the least distance and the number of further bits. -/
def distanceClasses : Array (Nat × Nat) :=
  #[(1, 0), (2, 0), (3, 0), (4, 0), (5, 1), (7, 1), (9, 2), (13, 2), (17, 3), (25, 3), (33, 4), (49, 4),
    (65, 5), (97, 5), (129, 6), (193, 6), (257, 7), (385, 7), (513, 8), (769, 8), (1025, 9), (1537, 9),
    (2049, 10), (3073, 10), (4097, 11), (6145, 11), (8193, 12), (12289, 12), (16385, 13), (24577, 13)]

/-- A number by its class and the bits that follow. -/
def classed? (classes : Array (Nat × Nat)) (index : Nat) (bits : Bits) : Option (Nat × Bits) := do
  let (least, further) ← classes[index]?
  let (offset, bits) ← bits.number? further
  return (least + offset, bits)

/-- Repeats data from some distance back. -/
def repeatBack (distance : Nat) : Nat → ByteArray → Option ByteArray
  | 0, out => some out
  | n + 1, out =>
    if distance = 0 || out.size < distance then none
    else (out.data[out.size - distance]?).bind fun byte => repeatBack distance n (out.push byte)

/-- The symbols of one block, up to the one that ends it. -/
def readSymbols (literals distances : Code) : Nat → Bits → ByteArray → Option (Bits × ByteArray)
  | 0, _, _ => none
  | fuel + 1, bits, out => do
    let (symbol, bits) ← literals.symbol? bits
    if symbol < 256 then readSymbols literals distances fuel bits (out.push symbol.toUInt8)
    else if symbol = 256 then return (bits, out)
    else
      let (length, bits) ← classed? lengthClasses (symbol - 257) bits
      let (symbol, bits) ← distances.symbol? bits
      let (distance, bits) ← classed? distanceClasses symbol bits
      readSymbols literals distances fuel bits (← repeatBack distance length out)

/-- A block of plain bytes: their number, its complement, and the bytes. -/
def readPlain (bits : Bits) (out : ByteArray) : Option (Bits × ByteArray) := do
  let (length, bits) ← bits.aligned.number? 16
  let (complement, bits) ← bits.number? 16
  let start := bits.position / 8
  if length + complement != 0xFFFF || bits.bytes.size < start + length then none
  else
    return ({ bits with position := bits.position + 8 * length },
      out ++ bits.bytes.extract start (start + length))

/-- The lengths of the fixed code for literals. -/
def fixedLengths : List Nat :=
  List.replicate 144 8 ++ List.replicate 112 9 ++ List.replicate 24 7 ++ List.replicate 8 8

/-- The order in which the lengths of the code for lengths are written. -/
def lengthOrder : List Nat := [16, 17, 18, 0, 8, 7, 9, 6, 10, 5, 11, 4, 12, 3, 13, 2, 14, 1, 15]

/-- Reads lengths that are themselves coded, with repetitions, until there are `total`; the latest first. -/
def readLengths (code : Code) (total : Nat) : Nat → List Nat → Bits → Option (List Nat × Bits)
  | 0, _, _ => none
  | fuel + 1, found, bits =>
    if found.length = total then some (found, bits)
    else if total < found.length then none
    else do
      let (symbol, bits) ← code.symbol? bits
      if symbol < 16 then readLengths code total fuel (symbol :: found) bits
      else
        let (least, further) := if symbol = 16 then (3, 2) else if symbol = 17 then (3, 3) else (11, 7)
        let (offset, bits) ← bits.number? further
        let length ← if symbol = 16 then found.head? else some 0
        readLengths code total fuel (List.replicate (least + offset) length ++ found) bits

/-- The three-bit lengths of the code for lengths. -/
def readCodeLengths : List Nat → Bits → Option (List (Nat × Nat) × Bits)
  | [], bits => some ([], bits)
  | symbol :: rest, bits => do
    let (length, bits) ← bits.number? 3
    let (lengths, bits) ← readCodeLengths rest bits
    return ((symbol, length) :: lengths, bits)

/-- A block that brings its own codes. -/
def readCoded (bits : Bits) (out : ByteArray) : Option (Bits × ByteArray) := do
  let (literals, bits) ← bits.number? 5
  let (distances, bits) ← bits.number? 5
  let (codeLengths, bits) ← bits.number? 4
  let (lengths, bits) ← readCodeLengths (lengthOrder.take (codeLengths + 4)) bits
  let code := Code.ofLengths ((List.range 19).map fun symbol => (lengths.lookup symbol).getD 0)
  let total := literals + 257 + (distances + 1)
  let (found, bits) ← readLengths code total (total + 1) [] bits
  let all := found.reverse
  readSymbols (Code.ofLengths (all.take (literals + 257))) (Code.ofLengths (all.drop (literals + 257)))
    bits.budget bits out

/-- One block after another, up to the last one. -/
def readBlocks : Nat → Bits → ByteArray → Option ByteArray
  | 0, _, _ => none
  | fuel + 1, bits, out => do
    let (last, bits) ← bits.number? 1
    let (kind, bits) ← bits.number? 2
    let (bits, out) ← match kind with
      | 0 => readPlain bits out
      | 1 =>
        readSymbols (.ofLengths fixedLengths) (.ofLengths (List.replicate 30 5)) bits.budget bits out
      | 2 => readCoded bits out
      | _ => none
    if last = 1 then return out else readBlocks fuel bits out

/-- The data that was packed; `none` when the packed form is invalid. -/
def unpack? (packed : ByteArray) : Option ByteArray :=
  let bits : Bits := ⟨packed, 0⟩
  readBlocks bits.budget bits .empty

end SpaMigration.Inflate
