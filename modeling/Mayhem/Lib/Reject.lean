import Mathlib

/-!
This module contains the control flow of a handler that checks its input.
-/

def rejectIf (p : Prop) [Decidable p] (msg : String) : Except String Unit :=
  if p then .error msg else .ok ()

def requireSome {α : Type} (o : Option α) (msg : String) : Except String α :=
  match o with
  | some a => .ok a
  | none => .error msg

@[simp]
theorem exists_unit_iff {p : Unit → Prop} : (∃ u, p u) ↔ p () := ⟨fun ⟨_, h⟩ => h, fun h => ⟨(), h⟩⟩

theorem List.Forall₂.exists_of_mem_left {α β : Type} {R : α → β → Prop} {xs : List α} {ys : List β}
    (h : List.Forall₂ R xs ys) {x : α} (hx : x ∈ xs) : ∃ y ∈ ys, R x y := by
  induction h with
  | nil => cases hx
  | cons hfirst _ ih =>
    rcases List.mem_cons.mp hx with rfl | hx
    . exact ⟨_, List.mem_cons_self, hfirst⟩
    . obtain ⟨y, hy, hrel⟩ := ih hx
      exact ⟨y, List.mem_cons_of_mem _ hy, hrel⟩

theorem List.Forall₂.exists_of_mem_right {α β : Type} {R : α → β → Prop} {xs : List α} {ys : List β}
    (h : List.Forall₂ R xs ys) {y : β} (hy : y ∈ ys) : ∃ x ∈ xs, R x y :=
  h.flip.exists_of_mem_left hy

namespace Except

variable {α β ε : Type}

@[simp]
theorem bind_accepts_iff (x : Except ε α) (f : α → Except ε β) (b : β) :
    x >>= f = .ok b ↔ ∃ a, x = .ok a ∧ f a = .ok b := by
  rcases x with _ | a
  · constructor
    · rintro ⟨⟩
    · rintro ⟨a, ⟨⟩, -⟩
  · constructor
    · exact fun h => ⟨a, rfl, h⟩
    · rintro ⟨_, ⟨⟩, h⟩
      exact h

@[simp]
theorem pure_accepts_iff (a b : α) : (pure a : Except ε α) = .ok b ↔ a = b :=
  ⟨fun h => Except.ok.inj h, fun h => congrArg Except.ok h⟩

@[simp]
theorem map_accepts_iff (x : Except ε α) (f : α → β) (b : β) : f <$> x = .ok b ↔ ∃ a, x = .ok a ∧ f a = b := by
  rcases x with _ | a
  · constructor
    · rintro ⟨⟩
    · rintro ⟨a, ⟨⟩, -⟩
  · constructor
    · exact fun h => ⟨a, rfl, Except.ok.inj h⟩
    · rintro ⟨_, ⟨⟩, rfl⟩
      rfl

@[simp]
theorem bind_of_ok (a : α) (f : α → Except ε β) : (Except.ok a : Except ε α) >>= f = f a := rfl

@[simp]
theorem bind_of_error (e : ε) (f : α → Except ε β) : (Except.error e : Except ε α) >>= f = .error e := rfl

theorem bind_rejects_iff (x : Except ε α) (f : α → Except ε β) (e : ε) :
    x >>= f = .error e ↔ x = .error e ∨ ∃ a, x = .ok a ∧ f a = .error e := by
  cases x with
  | error | ok => simp

theorem pure_ne_error (a : α) (e : ε) : (pure a : Except ε α) ≠ .error e := fun h => nomatch h

@[simp]
theorem mapError_accepts_iff {ε' : Type} (x : Except ε α) (f : ε → ε') (a : α) :
    x.mapError f = .ok a ↔ x = .ok a := by
  cases x with
  | error | ok => simp [Except.mapError]

theorem mapM_accepts_iff (f : α → Except ε β) (xs : List α) (ys : List β) :
    xs.mapM f = .ok ys ↔ List.Forall₂ (fun x y => f x = .ok y) xs ys := by
  induction xs generalizing ys with
  | nil =>
    rw [List.mapM_nil, pure_accepts_iff, List.forall₂_nil_left_iff]
    exact eq_comm
  | cons x xs ih =>
    simp only [List.mapM_cons, bind_accepts_iff, pure_accepts_iff, List.forall₂_cons_left_iff, ih]
    constructor
    . rintro ⟨y, hy, ys, hys, rfl⟩
      exact ⟨y, ys, hy, hys, rfl⟩
    . rintro ⟨y, ys, hy, hys, rfl⟩
      exact ⟨y, hy, ys, hys, rfl⟩

theorem exists_mapM_iff {f : α → Except ε β} {xs : List α} :
    (∃ ys, xs.mapM f = .ok ys) ↔ ∀ x ∈ xs, ∃ y, f x = .ok y := by
  induction xs with
  | nil => simp
  | cons x xs ih =>
    simp only [List.mapM_cons, bind_accepts_iff, pure_accepts_iff, List.forall_mem_cons, ← ih]
    constructor
    . rintro ⟨_, y, hy, ys, hys, -⟩
      exact ⟨⟨y, hy⟩, ys, hys⟩
    . rintro ⟨⟨y, hy⟩, ys, hys⟩
      exact ⟨_, y, hy, ys, hys, rfl⟩

theorem map_eq_of_mapM {γ : Type} {f : α → Except ε β} {xs : List α} {ys : List β}
    (h : xs.mapM f = .ok ys) {p : β → γ} {q : α → γ} (hf : ∀ x y, f x = .ok y → p y = q x) :
    ys.map p = xs.map q := by
  rw [mapM_accepts_iff] at h
  induction h with
  | nil => rfl
  | cons hx _ ih => rw [List.map_cons, List.map_cons, hf _ _ hx, ih]

theorem exists_of_mem_mapM {f : α → Except ε β} {xs : List α} {ys : List β}
    (h : xs.mapM f = .ok ys) {x : α} (hx : x ∈ xs) : ∃ y ∈ ys, f x = .ok y :=
  ((mapM_accepts_iff f xs ys).mp h).exists_of_mem_left hx

theorem exists_of_mem_mapM_result {f : α → Except ε β} {xs : List α} {ys : List β}
    (h : xs.mapM f = .ok ys) {y : β} (hy : y ∈ ys) : ∃ x ∈ xs, f x = .ok y :=
  ((mapM_accepts_iff f xs ys).mp h).exists_of_mem_right hy

theorem forall_of_foldlM {f : β → α → Except ε β} {P : α → Prop} (hstep : ∀ b a b', f b a = .ok b' → P a)
    {xs : List α} {b b' : β} (h : xs.foldlM f b = .ok b') : ∀ a ∈ xs, P a := by
  induction xs generalizing b with
  | nil => exact fun a hmem => absurd hmem List.not_mem_nil
  | cons x xs ih =>
    rw [List.foldlM_cons, bind_accepts_iff] at h
    obtain ⟨next, hfirst, hrest⟩ := h
    exact List.forall_mem_cons.mpr ⟨hstep b x next hfirst, ih hrest⟩

theorem foldlM_invariant {f : β → α → Except ε β} (inv : β → Prop) {xs : List α}
    (hstep : ∀ b a b', a ∈ xs → inv b → f b a = .ok b' → inv b') {b b' : β} (hstart : inv b)
    (h : xs.foldlM f b = .ok b') : inv b' := by
  induction xs generalizing b with
  | nil =>
    rw [List.foldlM_nil, pure_accepts_iff] at h
    exact h ▸ hstart
  | cons x xs ih =>
    rw [List.foldlM_cons, bind_accepts_iff] at h
    obtain ⟨next, hfirst, hrest⟩ := h
    refine ih (fun b a b' ha => hstep b a b' (List.mem_cons_of_mem _ ha)) ?_ hrest
    exact hstep b x next List.mem_cons_self hstart hfirst

theorem forM_accepts_iff {f : α → Except ε PUnit} {xs : List α} {u : PUnit} :
    xs.forM f = .ok u ↔ ∀ x ∈ xs, f x = .ok () := by
  induction xs with
  | nil => exact ⟨fun _ x hx => absurd hx List.not_mem_nil, fun _ => rfl⟩
  | cons x xs ih =>
    rw [List.forM, bind_accepts_iff, List.forall_mem_cons, ih]
    exact ⟨fun ⟨_, hx, hxs⟩ => ⟨hx, hxs⟩, fun ⟨hx, hxs⟩ => ⟨(), hx, hxs⟩⟩

def message {α : Type} : Except String α → Option String
  | .error msg => some msg
  | .ok _ => none

theorem message_eq_some_iff {α : Type} {x : Except String α} : x.message = some msg ↔ x = .error msg := by
  cases x with
  | error | ok => simp [message]

theorem message_eq_none_iff {α : Type} {x : Except String α} : x.message = none ↔ ∃ a, x = .ok a := by
  cases x with
  | error | ok => simp [message]

end Except

variable {p : Prop} {msg : String}

@[simp]
theorem rejectIf_accepts_iff [Decidable p] {u : Unit} : rejectIf p msg = .ok u ↔ ¬ p := by
  unfold rejectIf
  split
  . next h => simp [h]
  . next h => simp [h]

theorem rejectIf_rejects_iff [Decidable p] {e : String} : rejectIf p msg = .error e ↔ p ∧ msg = e := by
  unfold rejectIf
  split
  . next h => simp [h]
  . next h => simp [h]

theorem rejectIf_of_not [Decidable p] (h : ¬ p) : rejectIf p msg = .ok () := by
  simp [h]

@[simp]
theorem requireSome_accepts_iff {α : Type} {o : Option α} {a : α} : requireSome o msg = .ok a ↔ o = some a := by
  cases o with
  | none | some => simp [requireSome]

theorem requireSome_rejects_iff {α : Type} {o : Option α} {e : String} :
    requireSome o msg = .error e ↔ o = none ∧ msg = e := by
  cases o with
  | none | some => simp [requireSome]

/--
What an accepted handler says about the checks it is made of, under one name for `simp only`.
-/
theorem checks_iff : (∀ {α β ε : Type} (x : Except ε α) (f : α → Except ε β) (b : β),
      x >>= f = .ok b ↔ ∃ a, x = .ok a ∧ f a = .ok b) ∧
    (∀ {α ε : Type} (a b : α), (pure a : Except ε α) = .ok b ↔ a = b) ∧
    (∀ {p : Unit → Prop}, (∃ u, p u) ↔ p ()) ∧
    (∀ {p : Prop} [Decidable p] {msg : String} {u : Unit}, rejectIf p msg = .ok u ↔ ¬ p) ∧
    (∀ {α : Type} {o : Option α} {msg : String} {a : α}, requireSome o msg = .ok a ↔ o = some a) :=
  ⟨Except.bind_accepts_iff, Except.pure_accepts_iff, exists_unit_iff, rejectIf_accepts_iff,
    requireSome_accepts_iff⟩
