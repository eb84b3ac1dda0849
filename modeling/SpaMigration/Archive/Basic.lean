/-!
# Entries of archives
-/
namespace SpaMigration

/-- One entry of an archive. -/
structure ArchiveEntry where
  name : String
  bytes : ByteArray

/-- Entries are equal when their names and their bytes, one by one, are. -/
instance : DecidableEq ArchiveEntry := fun a b =>
  decidable_of_iff (a.name = b.name ∧ a.bytes.data = b.bytes.data) (by
    cases a
    cases b
    simp [ByteArray.ext_iff])

end SpaMigration
