import Mayhem.Host

namespace Mayhem

namespace Crypto

/--
The hashes of nodes are free of collisions, and neither a leaf nor the empty root is the hash of a node.
-/
structure SeparatesDomains (crypto : Crypto) (kind : MerkleKind) (leaf : Digest → Prop) : Prop where
  node_inj : ∀ left right left' right',
    crypto.merkleNode kind left right = crypto.merkleNode kind left' right' → left = left' ∧ right = right'
  node_not_leaf : ∀ left right, ¬ leaf (crypto.merkleNode kind left right)
  empty_not_leaf : ¬ leaf (crypto.merkleEmptyRoot kind)
  empty_ne_node : ∀ left right, crypto.merkleEmptyRoot kind ≠ crypto.merkleNode kind left right

inductive Height (crypto : Crypto) (kind : MerkleKind) (leaf : Digest → Prop) : Nat → Digest → Prop
  | leaf {digest : Digest} (hleaf : leaf digest) : Height crypto kind leaf 0 digest
  | node {n : Nat} {left right : Digest} (hleft : Height crypto kind leaf n left)
      (hright : Height crypto kind leaf n right) :
        Height crypto kind leaf (n + 1) (crypto.merkleNode kind left right)

def AtHeight (crypto : Crypto) (kind : MerkleKind) (leaf : Digest → Prop) (n : Nat)
    (level : List Digest) : Prop :=
  ∀ digest ∈ level, crypto.Height kind leaf n digest

variable {crypto : Crypto} {kind : MerkleKind} {leaf : Digest → Prop}

namespace SeparatesDomains

variable (hs : crypto.SeparatesDomains kind leaf)

include hs

theorem height_unique {n m : Nat} {digest : Digest} (h : crypto.Height kind leaf n digest)
    (h' : crypto.Height kind leaf m digest) : n = m := by
  induction h generalizing m with
  | leaf hleaf =>
    cases h' with
    | leaf _ => rfl
    | node _ _ => exact absurd hleaf (hs.node_not_leaf _ _)
  | node _ _ ihleft _ =>
    generalize hdigest : crypto.merkleNode kind _ _ = digest at h'
    cases h' with
    | leaf hleaf => exact absurd (hdigest ▸ hleaf) (hs.node_not_leaf _ _)
    | node hleft' _ =>
      obtain ⟨rfl, -⟩ := hs.node_inj _ _ _ _ hdigest
      rw [ihleft hleft']

theorem height_ne_empty {n : Nat} {digest : Digest} (h : crypto.Height kind leaf n digest) :
    digest ≠ crypto.merkleEmptyRoot kind := by
  cases h with
  | leaf hleaf =>
    rintro rfl
    exact hs.empty_not_leaf hleaf
  | node _ _ => exact (hs.empty_ne_node _ _).symm

end SeparatesDomains

theorem mem_merkleLevel {level : List Digest} {digest : Digest} (h : digest ∈ crypto.merkleLevel kind level) :
    ∃ left ∈ level, ∃ right ∈ level, digest = crypto.merkleNode kind left right := by
  fun_induction crypto.merkleLevel kind level with
  | case1 left right _ ih =>
    rcases List.mem_cons.mp h with rfl | h
    . exact ⟨left, by simp, right, by simp, rfl⟩
    . obtain ⟨left', hleft, right', hright, rfl⟩ := ih h
      exact ⟨left', by simp [hleft], right', by simp [hright], rfl⟩
  | case2 left => exact ⟨left, by simp, left, by simp, List.mem_singleton.mp h⟩
  | case3 => cases h

theorem exists_node_of_mem (crypto : Crypto) (kind : MerkleKind) {level : List Digest} {digest : Digest}
    (h : digest ∈ level) :
    ∃ left right, crypto.merkleNode kind left right ∈ crypto.merkleLevel kind level ∧
      (digest = left ∨ digest = right) := by
  fun_induction crypto.merkleLevel kind level with
  | case1 left right _ ih =>
    rcases List.mem_cons.mp h with rfl | h
    . exact ⟨digest, right, by simp, .inl rfl⟩
    . rcases List.mem_cons.mp h with rfl | h
      . exact ⟨left, digest, by simp, .inr rfl⟩
      . obtain ⟨left', right', hnode, hside⟩ := ih h
        exact ⟨left', right', List.mem_cons_of_mem _ hnode, hside⟩
  | case2 left => exact ⟨left, left, by simp, .inl (List.mem_singleton.mp h)⟩
  | case3 => cases h

theorem length_merkleLevel (level : List Digest) :
    (crypto.merkleLevel kind level).length = (level.length + 1) / 2 := by
  fun_induction crypto.merkleLevel kind level with
  | case1 left _ _ ih =>
    simp only [List.length_cons, ih]
    omega
  | case2 left => simp
  | case3 => simp

structure Agree (level level' : List Digest) : Prop where
  comparable : level <+: level' ∨ level' <+: level
  mem_iff : ∀ digest, digest ∈ level ↔ digest ∈ level'

theorem SeparatesDomains.comparable (hs : crypto.SeparatesDomains kind leaf) :
    ∀ {level level' : List Digest}, crypto.merkleLevel kind level <+: crypto.merkleLevel kind level' →
      level <+: level' ∨ level' <+: level
  | [], _, _ => .inl List.nil_prefix
  | _, [], _ => .inr List.nil_prefix
  | [a], [b], h => by
    obtain ⟨rfl, -⟩ := hs.node_inj _ _ _ _ (List.cons_prefix_cons.mp h).1
    exact .inl (List.prefix_refl _)
  | [a], b :: c :: rest, h => by
    obtain ⟨rfl, -⟩ := hs.node_inj _ _ _ _ (List.cons_prefix_cons.mp h).1
    exact .inl ⟨c :: rest, rfl⟩
  | a :: b :: rest, [c], h => by
    obtain ⟨rfl, -⟩ := hs.node_inj _ _ _ _ (List.cons_prefix_cons.mp h).1
    exact .inr ⟨b :: rest, rfl⟩
  | a :: b :: rest, c :: d :: rest', h => by
    obtain ⟨hnode, hrest⟩ := List.cons_prefix_cons.mp h
    obtain ⟨rfl, rfl⟩ := hs.node_inj _ _ _ _ hnode
    simpa using hs.comparable hrest

theorem SeparatesDomains.agree_of_merkleLevel (hs : crypto.SeparatesDomains kind leaf)
    {level level' : List Digest}
    (h : Agree (crypto.merkleLevel kind level) (crypto.merkleLevel kind level')) : Agree level level' := by
  have hmem {level level' : List Digest} (hsub : ∀ digest, digest ∈ crypto.merkleLevel kind level →
      digest ∈ crypto.merkleLevel kind level') (digest : Digest)
        (hdigest : digest ∈ level) : digest ∈ level' := by
    obtain ⟨_, _, hnode, hside⟩ := exists_node_of_mem crypto kind hdigest
    obtain ⟨_, hleft, _, hright, heq⟩ := mem_merkleLevel (hsub _ hnode)
    obtain ⟨rfl, rfl⟩ := hs.node_inj _ _ _ _ heq
    rcases hside with rfl | rfl
    . exact hleft
    . exact hright
  constructor
  case comparable =>
    rcases h.comparable with hbegins | hbegins
    . exact hs.comparable hbegins
    . exact (hs.comparable hbegins).symm
  case mem_iff =>
    intro digest
    exact ⟨hmem (fun node => (h.mem_iff node).mp) digest, hmem (fun node => (h.mem_iff node).mpr) digest⟩

theorem AtHeight.merkleLevel {n : Nat} {level : List Digest} (hlevel : crypto.AtHeight kind leaf n level) :
    crypto.AtHeight kind leaf (n + 1) (crypto.merkleLevel kind level) := by
  intro _ hmem
  obtain ⟨_, hleft, _, hright, rfl⟩ := mem_merkleLevel hmem
  exact .node (hlevel _ hleft) (hlevel _ hright)

theorem merkleUp_height {n fuel : Nat} {level : List Digest} (hlevel : crypto.AtHeight kind leaf n level)
    (hne : level ≠ []) (hfuel : level.length ≤ fuel) :
    ∃ m, crypto.Height kind leaf m (crypto.merkleUp kind fuel level) ∧ n ≤ m ∧ (1 < level.length → n < m) := by
  induction fuel generalizing n level with
  | zero => exact absurd (List.length_eq_zero_iff.mp (Nat.le_zero.mp hfuel)) hne
  | succ fuel ih =>
    match level with
    | [] => exact absurd rfl hne
    | [root] => exact ⟨n, hlevel root (by simp), Nat.le_refl n, by simp⟩
    | left :: right :: rest =>
      have hlength := @length_merkleLevel crypto kind (left :: right :: rest)
      simp only [List.length_cons] at hlength hfuel
      obtain ⟨m, hm, _, -⟩ := ih hlevel.merkleLevel (List.cons_ne_nil _ _) (by omega)
      exact ⟨m, hm, by omega, fun _ => by omega⟩

@[simp]
theorem merkleUp_nil (fuel : Nat) : crypto.merkleUp kind fuel [] = crypto.merkleEmptyRoot kind := by
  cases fuel <;> rfl

@[simp]
theorem merkleUp_singleton (fuel : Nat) (root : Digest) : crypto.merkleUp kind fuel [root] = root := by
  cases fuel <;> rfl

theorem exists_pair {level : List Digest} (h : ¬ level.length ≤ 1) :
    ∃ left right rest, level = left :: right :: rest := by
  match level with
  | [] => simp at h
  | [_] => simp at h
  | left :: right :: rest => exact ⟨left, right, rest, rfl⟩

section

variable (hs : crypto.SeparatesDomains kind leaf) {n fuel fuel' : Nat} {level level' : List Digest}

include hs

theorem SeparatesDomains.merkleUp_ne (hlevel : crypto.AtHeight kind leaf n level)
    (hlevel' : crypto.AtHeight kind leaf n level') (hfuel' : level'.length ≤ fuel')
    (hshort : level.length ≤ 1) (hlong : 1 < level'.length) :
    crypto.merkleUp kind fuel level ≠ crypto.merkleUp kind fuel' level' := by
  intro hroot
  obtain ⟨_, hm, -, hlt⟩ := merkleUp_height hlevel' (List.length_pos_iff.mp (by omega)) hfuel'
  rw [← hroot] at hm
  match level with
  | [] => exact hs.height_ne_empty hm (merkleUp_nil fuel)
  | [root] =>
    rw [merkleUp_singleton] at hm
    have := hs.height_unique (hlevel root (by simp)) hm
    have := hlt hlong
    omega

theorem SeparatesDomains.agree_of_short (hlevel : crypto.AtHeight kind leaf n level)
    (hlevel' : crypto.AtHeight kind leaf n level') (hshort : level.length ≤ 1) (hshort' : level'.length ≤ 1)
    (hroot : crypto.merkleUp kind fuel level = crypto.merkleUp kind fuel' level') : Agree level level' := by
  have hsame : level = level' := by
    match level, level' with
    | [], [] => rfl
    | [], [root] =>
      rw [merkleUp_nil, merkleUp_singleton] at hroot
      exact absurd hroot.symm (hs.height_ne_empty (hlevel' root (by simp)))
    | [root], [] =>
      rw [merkleUp_nil, merkleUp_singleton] at hroot
      exact absurd hroot (hs.height_ne_empty (hlevel root (by simp)))
    | [root], [root'] =>
      rw [merkleUp_singleton, merkleUp_singleton] at hroot
      rw [hroot]
  rw [hsame]
  exact ⟨.inl (List.prefix_refl _), fun _ => Iff.rfl⟩

end

theorem SeparatesDomains.agree_of_merkleUp (hs : crypto.SeparatesDomains kind leaf) {n fuel fuel' : Nat}
    {level level' : List Digest} (hlevel : crypto.AtHeight kind leaf n level)
    (hlevel' : crypto.AtHeight kind leaf n level') (hfuel : level.length ≤ fuel)
    (hfuel' : level'.length ≤ fuel')
    (hroot : crypto.merkleUp kind fuel level = crypto.merkleUp kind fuel' level') : Agree level level' := by
  by_cases hshort : level.length ≤ 1
  . by_cases hshort' : level'.length ≤ 1
    . exact hs.agree_of_short hlevel hlevel' hshort hshort' hroot
    . exact absurd hroot (hs.merkleUp_ne hlevel hlevel' hfuel' hshort (by omega))
  . by_cases hshort' : level'.length ≤ 1
    . exact absurd hroot.symm (hs.merkleUp_ne hlevel' hlevel hfuel hshort' (by omega))
    . -- both lists have a level above, on which the roots are the same
      obtain ⟨left, right, rest, rfl⟩ := exists_pair hshort
      obtain ⟨left', right', rest', rfl⟩ := exists_pair hshort'
      have hlength := @length_merkleLevel crypto kind (left :: right :: rest)
      have hlength' := @length_merkleLevel crypto kind (left' :: right' :: rest')
      simp only [List.length_cons] at hfuel hfuel' hlength hlength'
      obtain ⟨fuel, rfl⟩ := Nat.exists_eq_add_of_le' (by omega : 1 ≤ fuel)
      obtain ⟨fuel', rfl⟩ := Nat.exists_eq_add_of_le' (by omega : 1 ≤ fuel')
      apply hs.agree_of_merkleLevel
      exact hs.agree_of_merkleUp hlevel.merkleLevel hlevel'.merkleLevel (by omega) (by omega) hroot
termination_by fuel

theorem Agree.symm {level level' : List Digest} (h : Agree level level') : Agree level' level :=
  ⟨h.comparable.symm, fun digest => (h.mem_iff digest).symm⟩

theorem count_eq_or_greatest {level level' : List Digest} (hbegins : level <+: level')
    (hsorted : level'.Pairwise (· ≤ ·)) (hmem : ∀ digest, digest ∈ level ↔ digest ∈ level') (digest : Digest) :
    level.count digest = level'.count digest ∨ ∀ other ∈ level', other ≤ digest := by
  obtain ⟨rest, rfl⟩ := hbegins
  by_cases hrest : digest ∈ rest
  . right
    intro other hother
    exact (List.pairwise_append.mp hsorted).2.2 other ((hmem other).mpr hother) digest hrest
  . left
    rw [List.count_append, List.count_eq_zero_of_not_mem hrest, Nat.add_zero]

/--
Lists of leaves with the same root have the same leaves, and all but the greatest one equally often. Lists of one
length and lists without repetitions are the same up to their order.
-/
theorem merkleRoot_binds (hs : crypto.SeparatesDomains kind leaf) {leaves leaves' : List Digest}
    (hleaves : ∀ digest ∈ leaves, leaf digest) (hleaves' : ∀ digest ∈ leaves', leaf digest)
    (hroot : crypto.merkleRoot kind leaves = crypto.merkleRoot kind leaves') :
    (∀ digest, digest ∈ leaves ↔ digest ∈ leaves') ∧
    (∀ digest, leaves.count digest = leaves'.count digest ∨ ∀ other ∈ leaves, other ≤ digest) ∧
    (leaves.length = leaves'.length ∨ (leaves.Nodup ∧ leaves'.Nodup) → leaves.Perm leaves') := by
  have hsort (leaves : List Digest) := List.perm_insertionSort (· ≤ ·) leaves
  have hheight {leaves : List Digest} (h : ∀ digest ∈ leaves, leaf digest) :
      crypto.AtHeight kind leaf 0 (leaves.insertionSort (· ≤ ·)) :=
    fun digest hmem => .leaf (h digest ((hsort leaves).mem_iff.mp hmem))
  have hlength (leaves : List Digest) : (leaves.insertionSort (· ≤ ·)).length ≤ leaves.length :=
    (hsort leaves).length_eq.le
  have hagree := hs.agree_of_merkleUp (hheight hleaves) (hheight hleaves') (hlength _) (hlength _) hroot
  have hmem : ∀ digest, digest ∈ leaves ↔ digest ∈ leaves' := by
    intro digest
    rw [← (hsort leaves).mem_iff, ← (hsort leaves').mem_iff]
    exact hagree.mem_iff digest
  have hsorted (leaves : List Digest) := List.pairwise_insertionSort (· ≤ ·) leaves
  refine ⟨hmem, ?_, ?_⟩
  . intro digest
    rw [← (hsort leaves).count_eq, ← (hsort leaves').count_eq]
    rcases hagree.comparable with hbegins | hbegins
    . rcases count_eq_or_greatest hbegins (hsorted leaves') hagree.mem_iff digest with hcount | hgreatest
      . exact .inl hcount
      . exact .inr fun other hother => hgreatest other ((hsort leaves').mem_iff.mpr ((hmem other).mp hother))
    . rcases count_eq_or_greatest hbegins (hsorted leaves) hagree.symm.mem_iff digest with hcount | hgreatest
      . exact .inl hcount.symm
      . exact .inr fun other hother => hgreatest other ((hsort leaves).mem_iff.mpr hother)
  . rintro (hsame | ⟨hnodup, hnodup'⟩)
    . have hsame : (leaves.insertionSort (· ≤ ·)).length = (leaves'.insertionSort (· ≤ ·)).length := by
        rw [(hsort leaves).length_eq, (hsort leaves').length_eq, hsame]
      have heq : leaves.insertionSort (· ≤ ·) = leaves'.insertionSort (· ≤ ·) := by
        rcases hagree.comparable with hbegins | hbegins
        . exact hbegins.eq_of_length hsame
        . exact (hbegins.eq_of_length hsame.symm).symm
      exact (hsort leaves).symm.trans (heq ▸ hsort leaves')
    . exact (List.perm_ext_iff_of_nodup hnodup hnodup').mpr hmem

def pairingHost : Crypto :=
  { plainHost with
    merkleEmptyRoot := fun _ => 1
    merkleNode := fun _ left right => 2 * Nat.pair left right + 3 }

theorem pairingHost_separatesDomains (kind : MerkleKind) : pairingHost.SeparatesDomains kind (2 ∣ ·) where
  node_inj left right left' right' h := by
    change 2 * Nat.pair left right + 3 = 2 * Nat.pair left' right' + 3 at h
    exact Nat.pair_eq_pair.mp (by omega)
  node_not_leaf left right := by
    change ¬ 2 ∣ 2 * Nat.pair left right + 3
    omega
  empty_not_leaf := by
    change ¬ 2 ∣ 1
    decide
  empty_ne_node left right := by
    change 1 ≠ 2 * Nat.pair left right + 3
    omega

theorem merkleRoot_binds_reordered :
    pairingHost.merkleRoot .use [6, 2, 4] = pairingHost.merkleRoot .use [4, 6, 2] ∧
    List.Perm [6, 2, 4] [4, 6, 2] := by
  have hroot : pairingHost.merkleRoot .use [6, 2, 4] = pairingHost.merkleRoot .use [4, 6, 2] := by decide +kernel
  exact ⟨hroot, (merkleRoot_binds (pairingHost_separatesDomains .use) (by decide) (by decide) hroot).2.2
    (.inl rfl)⟩

theorem greatest_leaf_repeated : pairingHost.SeparatesDomains .use (2 ∣ ·) ∧
    (∀ digest ∈ [2, 4, 6, 6], 2 ∣ digest) ∧
    pairingHost.merkleRoot .use [2, 4, 6] = pairingHost.merkleRoot .use [2, 4, 6, 6] ∧
    ¬ List.Perm [2, 4, 6] [2, 4, 6, 6] :=
  ⟨pairingHost_separatesDomains .use, by decide, by decide +kernel, by decide⟩

end Crypto

end Mayhem
