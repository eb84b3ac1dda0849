/-!
# Checksums of archive entries

The cyclic redundancy check of 32 bits, with the reflected polynomial `0xEDB88320`.
-/
namespace SpaMigration.Checksum

/-- Takes one bit out of the remainder. -/
def shift (remainder : UInt32) : UInt32 :=
  if remainder &&& 1 = 0 then remainder >>> 1 else (remainder >>> 1) ^^^ 0xEDB88320

/-- Takes in one byte. -/
def step (remainder : UInt32) (byte : UInt8) : UInt32 :=
  Nat.repeat shift 8 (remainder ^^^ byte.toUInt32)

/-- The checksum of some bytes. -/
def of (bytes : ByteArray) : UInt32 := bytes.foldl step 0xFFFFFFFF ^^^ 0xFFFFFFFF

end SpaMigration.Checksum
