import Mayhem.Lib.Table

namespace Table

variable {K L V M : Type}

structure Locked (records : Table K V) (locks : Table L M) (uses : V → List L) : Prop where
  held : ∀ k v, records.get k = some v → ∀ l ∈ uses v, (locks.get l).isSome
  apart : ∀ k k' v v', records.get k = some v → records.get k' = some v' → ∀ l ∈ uses v, l ∈ uses v' → k = k'

namespace Locked

variable {records : Table K V} {locks locks' : Table L M} {uses : V → List L}

theorem empty : Locked (.empty : Table K V) locks uses := by
  constructor
  . intro k v h
    simp at h
  . intro k _ v _ h
    simp at h

theorem mono (h : Locked records locks uses) (hgrow : ∀ l, (locks.get l).isSome → (locks'.get l).isSome) :
    Locked records locks' uses :=
  ⟨fun k v hv l hl => hgrow l (h.held k v hv l hl), h.apart⟩

theorem put [DecidableEq K] (h : Locked records locks uses) {k : K} {v : V}
    (hfree : ∀ l ∈ uses v, (∃ old, records.get k = some old ∧ l ∈ uses old) ∨ locks.get l = none)
    (hgrow : ∀ l, (locks.get l).isSome → (locks'.get l).isSome)
    (hheld : ∀ l ∈ uses v, (locks'.get l).isSome) : Locked (records.put k v) locks' uses := by
  -- nobody else uses what the record uses
  have hown : ∀ other w, other ≠ k → records.get other = some w → ∀ l ∈ uses v, l ∉ uses w := by
    intro other w hne hw l hl hlw
    rcases hfree l hl with ⟨old, hold, hlold⟩ | hnone
    . exact hne (h.apart other k w old hw hold l hlw hlold)
    . have hsome := h.held other w hw l hlw
      rw [hnone] at hsome
      cases hsome
  constructor
  . intro other w hw l hl
    obtain ⟨-, rfl⟩ | ⟨-, hw⟩ := get_put_eq_some.mp hw
    . exact hheld l hl
    . exact hgrow l (h.held other w hw l hl)
  . intro a b v₁ v₂ h₁ h₂ l hl₁ hl₂
    obtain ⟨rfl, rfl⟩ | ⟨ha, h₁⟩ := get_put_eq_some.mp h₁
    . obtain ⟨rfl, -⟩ | ⟨hb, h₂⟩ := get_put_eq_some.mp h₂
      . rfl
      . exact absurd hl₂ (hown b v₂ hb h₂ l hl₁)
    . obtain ⟨-, rfl⟩ | ⟨hb, h₂⟩ := get_put_eq_some.mp h₂
      . exact absurd hl₁ (hown a v₁ ha h₁ l hl₂)
      . exact h.apart a b v₁ v₂ h₁ h₂ l hl₁ hl₂

theorem update [DecidableEq K] (h : Locked records locks uses) {k : K} {v old : V}
    (hold : records.get k = some old) (huses : ∀ l ∈ uses v, l ∈ uses old) :
    Locked (records.put k v) locks uses :=
  h.put (fun l hl => .inl ⟨old, hold, huses l hl⟩) (fun _ hl => hl)
    fun l hl => h.held k old hold l (huses l hl)

end Locked

theorem isSome_get_putAll [DecidableEq L] (t : Table L M) (entries : List (L × M)) {l : L}
    (h : (t.get l).isSome) : ((t.putAll entries).get l).isSome := by
  rcases get_putAll_cases t entries l with heq | ⟨_, -, heq⟩
  . rw [heq]
    exact h
  . rw [heq]
    rfl

theorem isSome_get_putAll_of_mem [DecidableEq L] (t : Table L M) (entries : List (L × M)) {l : L}
    (h : l ∈ entries.map Prod.fst) : ((t.putAll entries).get l).isSome := by
  induction entries generalizing t with
  | nil => simp at h
  | cons e entries ih =>
    rw [putAll_cons]
    by_cases hrest : l ∈ entries.map Prod.fst
    . exact ih _ hrest
    . rw [get_putAll_of_not_mem _ _ _ hrest]
      have hself : l = e.1 := by simpa [hrest] using h
      rw [hself, get_put_self]
      rfl

end Table
