import Mayhem.Lib.MerkleHeap
import Mayhem.Basic
import Mayhem.Pool

/-!
This module contains the Merkle tree of the TAP claims as the ledger, the roller and the pool compute it.
-/

namespace Mayhem

/--
How a hash is printed: in lower-case hex of one length, which has the order of the numbers.
-/
structure DigestText where
  hex : Digest → String
  hex_lt_iff : ∀ a b, hex a < hex b ↔ a < b

structure RollerText where
  text : DigestText
  localeCompare : String → String → Ordering

namespace RollerText

def hex (roller : RollerText) (digest : Digest) : String := "0x" ++ roller.text.hex digest

end RollerText

namespace DigestText

end DigestText

namespace RollerText

theorem hex_lt_iff (roller : RollerText) (a b : Digest) : roller.hex a < roller.hex b ↔ a < b := by
  rw [← roller.text.hex_lt_iff]
  unfold hex
  rw [String.lt_iff, String.lt_iff, String.toList_append, String.toList_append]
  simp

end RollerText

section

variable (keccak : Keccak) (text : DigestText) (roller : RollerText)

variable {keccak}

variable {roller}

end

end Mayhem
