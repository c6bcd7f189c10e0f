import Mathlib.Data.List.GetD

/-!
This module contains Merkle trees laid out as a heap: the node at an index combines the nodes at the two
indices below it, and the leaves fill the end of the list from the back.
-/

namespace MerkleHeap

variable {α : Type} [Inhabited α] {node : α → α → α}

variable {i : Nat}

end MerkleHeap
