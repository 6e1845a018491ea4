import Rulebook.Digest.Blake3
import Rulebook.Rule.Canonical

/-!
# Checksums

The version of a rule set is the BLAKE3 hash of its canonical bytes.
-/
namespace Rulebook

structure Checksum where
  bytes : Bytes
deriving DecidableEq

/-- The 64 hexadecimal digits of a checksum. -/
def Checksum.text (checksum : Checksum) : String :=
  Bytes.hex checksum.bytes

def RuleSet.checksum (set : RuleSet) : Checksum :=
  ⟨Blake3.digest set.bytes⟩

end Rulebook
