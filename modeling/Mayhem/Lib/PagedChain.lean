import Mathlib.Data.List.Range
import Mathlib.Tactic.Common

/-!
This module contains a chain of rounds that are finished one after the other.
-/

namespace PagedChain

variable {τ : Type}

structure State (τ : Type) where
  finished : Nat
  lastTime : Option Nat
  pending : Option (Nat × Nat × τ)

inductive Mark (τ : Type) where
  | page (number : Nat) (tag : τ) (last : Bool)
  | whole

structure Event (τ : Type) where
  mark : Mark τ
  round : Nat
  time : Nat
  spacing : Nat
  fresh : Bool

namespace Event

def IsPage (event : Event τ) : Prop := ∃ number tag last, event.mark = .page number tag last

def opens (event : Event τ) : Bool :=
  event.fresh && match event.mark with
  | .page number _ _ => number == 0
  | .whole => true

def completes (event : Event τ) : Bool :=
  event.fresh && match event.mark with
  | .page _ _ last => last
  | .whole => true

def page? (round : Nat) (event : Event τ) : Option (Nat × Nat × τ) :=
  match event.mark with
  | .page number tag _ => if event.fresh ∧ event.round = round then some (number, event.time, tag) else none
  | .whole => none

def Before (first second : Event τ) : Prop :=
  first.round ≤ second.round ∧ (first.mark = .whole → second.fresh = true → first.round < second.round)

end Event

def pages (log : List (Event τ)) (round : Nat) : List (Nat × Nat × τ) :=
  log.filterMap (Event.page? round)

def Numbered (found : List (Nat × Nat × τ)) : Prop :=
  found.map Prod.fst = List.range found.length ∧ ∀ a ∈ found, ∀ b ∈ found, a.2 = b.2

namespace State

variable (state : State τ)

def Spaced (time spacing : Nat) : Prop := ∀ last ∈ state.lastTime, last + spacing ≤ time

def Placed (number time spacing : Nat) (tag : τ) : Prop :=
  match state.pending with
  | none => number = 0 ∧ state.Spaced time spacing
  | some next => (number, time, tag) = next

def reach : Nat :=
  match state.pending with
  | none => state.finished
  | some _ => state.finished + 1

end State

inductive Step : State τ → List (Event τ) → State τ → Prop
  | idle (state : State τ) : Step state [] state
  | repeated (state : State τ) (event : Event τ) (hfresh : event.fresh = false)
      (hround : event.round = state.reach) (hpage : state.pending.isSome = true → event.IsPage) :
      Step state [event] state
  | page (state : State τ) (number time spacing : Nat) (tag : τ)
      (hplaced : state.Placed number time spacing tag) :
      Step state [⟨.page number tag false, state.finished + 1, time, spacing, true⟩]
        { state with pending := some (number + 1, time, tag) }
  | lastPage (state : State τ) (number time spacing : Nat) (tag : τ)
      (hplaced : state.Placed number time spacing tag) :
      Step state [⟨.page number tag true, state.finished + 1, time, spacing, true⟩]
        ⟨state.finished + 1, some time, none⟩
  | whole (state : State τ) (time spacing : Nat) (hnone : state.pending = none)
      (hspaced : state.Spaced time spacing) :
      Step state [⟨.whole, state.finished + 1, time, spacing, true⟩]
        ⟨state.finished + 1, some time, none⟩

theorem Step.finished {state state' : State τ} {events : List (Event τ)} (hstep : Step state events state') :
    state'.finished = state.finished ∨ state'.finished = state.finished + 1 := by
  cases hstep with
  | idle | repeated | page => exact .inl rfl
  | lastPage | whole => exact .inr rfl

structure Sound (state : State τ) (log : List (Event τ)) : Prop where
  pending_pos : ∀ next ∈ state.pending, 0 < next.1
  round_le : ∀ event ∈ log, event.round ≤ state.reach
  whole_le : ∀ event ∈ log, event.mark = .whole → event.round ≤ state.finished
  ordered : log.Pairwise Event.Before
  numbered : ∀ round, Numbered (pages log round)
  pending_pages : ∀ next ∈ state.pending, (pages log (state.finished + 1)).length = next.1 ∧
    ∀ page ∈ pages log (state.finished + 1), page.2 = next.2
  completions : (log.filter Event.completes).map Event.round = List.range' 1 state.finished
  lastTime_eq : ∀ event ∈ log, event.completes = true → event.round = state.finished →
    state.lastTime = some event.time
  spaced : ∀ first ∈ log, ∀ second ∈ log, first.completes = true → second.opens = true →
    second.round = first.round + 1 → first.time + second.spacing ≤ second.time

theorem pages_append (log : List (Event τ)) (event : Event τ) (round : Nat) :
    pages (log ++ [event]) round = pages log round ++ (event.page? round).toList := by
  unfold pages
  rw [List.filterMap_append, List.filterMap_cons, List.filterMap_nil]
  cases event.page? round with
  | none | some => rfl

theorem page?_eq_none_of_repeated {event : Event τ} (hfresh : event.fresh = false) (round : Nat) :
    event.page? round = none := by
  unfold Event.page?
  split
  . rw [if_neg]
    simp [hfresh]
  . rfl

theorem page?_fresh (number round time spacing : Nat) (tag : τ) (last : Bool) :
    Event.page? round (⟨.page number tag last, round, time, spacing, true⟩ : Event τ) =
      some (number, time, tag) := if_pos ⟨rfl, rfl⟩

theorem pages_eq_nil {log : List (Event τ)} {round : Nat} (h : ∀ event ∈ log, event.round < round) :
    pages log round = [] := by
  unfold pages
  rw [List.filterMap_eq_nil_iff]
  intro event hevent
  have hlt := h event hevent
  unfold Event.page?
  split
  . rw [if_neg]
    omega
  . rfl

theorem Numbered.append {found : List (Nat × Nat × τ)} {page : Nat × Nat × τ} (h : Numbered found)
    (hnumber : page.1 = found.length) (hshared : ∀ old ∈ found, old.2 = page.2) :
    Numbered (found ++ [page]) := by
  constructor
  . rw [List.map_append, h.1, List.map_singleton, hnumber, List.length_append, List.length_singleton,
      List.range_succ]
  . have hall : ∀ a ∈ found ++ [page], a.2 = page.2 := by
      intro a ha
      rcases List.mem_append.mp ha with ha | ha
      . exact hshared a ha
      . rw [List.mem_singleton.mp ha]
    intro a ha b hb
    rw [hall a ha, hall b hb]

theorem Numbered.nil : Numbered ([] : List (Nat × Nat × τ)) := ⟨rfl, by simp⟩

theorem forall_mem_snoc {α : Type} {p : α → Prop} {l : List α} {a : α} :
    (∀ x ∈ l ++ [a], p x) ↔ (∀ x ∈ l, p x) ∧ p a := by
  simp [or_imp, forall_and]

theorem pairwise_append_singleton {α : Type} {r : α → α → Prop} {l : List α} {a : α}
    (h : l.Pairwise r) (hlast : ∀ x ∈ l, r x a) : (l ++ [a]).Pairwise r := by
  rw [List.pairwise_append]
  refine ⟨h, List.pairwise_singleton _ _, ?_⟩
  intro x hx _ hy
  rw [List.mem_singleton.mp hy]
  exact hlast x hx

namespace Sound

variable {state : State τ} {log : List (Event τ)} {event : Event τ}

theorem start : Sound (⟨0, none, none⟩ : State τ) [] where
  pending_pos := by simp
  round_le := by simp
  whole_le := by simp
  ordered := .nil
  numbered _ := .nil
  pending_pages := by simp
  completions := rfl
  lastTime_eq := by simp
  spaced := by simp

theorem round_le_succ (h : Sound state log) : ∀ event ∈ log, event.round ≤ state.finished + 1 := by
  intro event hevent
  have hle := h.round_le event hevent
  unfold State.reach at hle
  split at hle <;> omega

theorem ordered_append (h : Sound state log) (hround : event.round = state.finished + 1) :
    (log ++ [event]).Pairwise Event.Before := by
  apply pairwise_append_singleton h.ordered
  intro old hold
  constructor
  . rw [hround]
    exact h.round_le_succ old hold
  . intro hwhole _
    have hle := h.whole_le old hold hwhole
    omega

theorem spaced_append (h : Sound state log) (hround : event.round = state.finished + 1)
    (hspaced : event.opens = true → state.Spaced event.time event.spacing) :
    ∀ first ∈ log ++ [event], ∀ second ∈ log ++ [event], first.completes = true →
      second.opens = true → second.round = first.round + 1 → first.time + second.spacing ≤ second.time := by
  simp only [forall_mem_snoc]
  constructor
  . intro first hfirst
    refine ⟨h.spaced first hfirst, ?_⟩
    intro hcompletes hopens hnext
    have hlast := h.lastTime_eq first hfirst hcompletes (by omega)
    exact hspaced hopens _ hlast
  . constructor
    . -- nothing of a round after this one was taken in before
      intro second hsecond _ _ hnext
      have hle := h.round_le_succ second hsecond
      omega
    . intro _ _ hnext
      omega

theorem numbered_append (h : Sound state log) (hround : event.round = state.finished + 1)
    (hpage : ∀ page ∈ event.page? (state.finished + 1), page.1 = (pages log (state.finished + 1)).length ∧
        ∀ old ∈ pages log (state.finished + 1), old.2 = page.2) (round : Nat) :
    Numbered (pages (log ++ [event]) round) := by
  rw [pages_append]
  cases hfound : event.page? round with
  | none =>
    rw [Option.toList_none, List.append_nil]
    exact h.numbered round
  | some page =>
    have heq : round = state.finished + 1 := by
      unfold Event.page? at hfound
      split at hfound
      . split at hfound
        . next hthis => rw [← hround, hthis.2]
        . cases hfound
      . cases hfound
    subst heq
    obtain ⟨hnumber, hshared⟩ := hpage page hfound
    exact (h.numbered _).append hnumber hshared

variable {number time spacing : Nat}

theorem pages_of_placed {tag : τ} (h : Sound state log) (hplaced : state.Placed number time spacing tag) :
    number = (pages log (state.finished + 1)).length ∧
      ∀ old ∈ pages log (state.finished + 1), old.2 = (time, tag) := by
  unfold State.Placed at hplaced
  split at hplaced
  . next hnone =>
    have hnil : pages log (state.finished + 1) = [] := by
      apply pages_eq_nil
      intro event hevent
      have hle := h.round_le event hevent
      rw [State.reach, hnone] at hle
      exact Nat.lt_succ_of_le hle
    rw [hnil]
    exact ⟨hplaced.1, by simp⟩
  . next next hnext =>
    subst hplaced
    obtain ⟨hlength, hshared⟩ := h.pending_pages _ hnext
    exact ⟨hlength.symm, hshared⟩

theorem spaced_of_placed {tag : τ} (h : Sound state log) (hplaced : state.Placed number time spacing tag)
    (hzero : number = 0) : state.Spaced time spacing := by
  unfold State.Placed at hplaced
  split at hplaced
  . exact hplaced.2
  . next next hnext =>
    have hpos := h.pending_pos _ hnext
    rw [← hplaced, hzero] at hpos
    cases hpos

theorem filter_completes_append (log : List (Event τ)) (event : Event τ) :
    ((log ++ [event]).filter Event.completes).map Event.round = (log.filter Event.completes).map Event.round ++
        if event.completes = true then [event.round] else [] := by
  rw [List.filter_append, List.map_append, List.filter_singleton]
  cases event.completes with
  | true | false => rfl

theorem repeated (h : Sound state log) (hfresh : event.fresh = false)
    (hround : event.round = state.reach) (hpage : state.pending.isSome = true → event.IsPage) :
    Sound state (log ++ [event]) := by
  have hcompletes : event.completes = false := by simp [Event.completes, hfresh]
  have hopens : event.opens = false := by simp [Event.opens, hfresh]
  have hpages : ∀ round, pages (log ++ [event]) round = pages log round := by
    intro round
    rw [pages_append, page?_eq_none_of_repeated hfresh, Option.toList_none, List.append_nil]
  constructor
  case pending_pos => exact h.pending_pos
  case round_le => exact forall_mem_snoc.mpr ⟨h.round_le, hround.le⟩
  case whole_le =>
    refine forall_mem_snoc.mpr ⟨h.whole_le, ?_⟩
    intro hwhole
    cases hpending : state.pending with
    | none => rw [hround, State.reach, hpending]
    | some =>
      -- between pages, only pages are repeated
      obtain ⟨_, _, _, hmark⟩ := hpage (by rw [hpending]; rfl)
      rw [hwhole] at hmark
      cases hmark
  case ordered =>
    apply pairwise_append_singleton h.ordered
    intro old hold
    refine ⟨hround ▸ h.round_le old hold, ?_⟩
    intro _ hnew
    rw [hfresh] at hnew
    cases hnew
  case numbered => exact fun round => (hpages round).symm ▸ h.numbered round
  case pending_pages =>
    rw [hpages]
    exact h.pending_pages
  case completions =>
    rw [filter_completes_append, hcompletes, if_neg Bool.false_ne_true, List.append_nil]
    exact h.completions
  case lastTime_eq =>
    refine forall_mem_snoc.mpr ⟨h.lastTime_eq, ?_⟩
    intro hnew
    rw [hcompletes] at hnew
    cases hnew
  case spaced =>
    simp only [forall_mem_snoc, hcompletes, hopens, Bool.false_eq_true, false_implies, implies_true, and_true]
    exact fun first hfirst => h.spaced first hfirst

theorem page {tag : τ} (h : Sound state log) (hplaced : state.Placed number time spacing tag) :
    Sound { state with pending := some (number + 1, time, tag) }
      (log ++ [⟨.page number tag false, state.finished + 1, time, spacing, true⟩]) := by
  obtain ⟨hnumber, hshared⟩ := h.pages_of_placed hplaced
  constructor
  case pending_pos =>
    rintro _ ⟨⟩
    exact Nat.succ_pos number
  case round_le => exact forall_mem_snoc.mpr ⟨h.round_le_succ, le_refl _⟩
  case whole_le => exact forall_mem_snoc.mpr ⟨h.whole_le, by rintro ⟨⟩⟩
  case ordered => exact h.ordered_append rfl
  case numbered =>
    refine h.numbered_append rfl ?_
    rw [page?_fresh]
    rintro _ ⟨⟩
    exact ⟨hnumber, hshared⟩
  case pending_pages =>
    rintro _ ⟨⟩
    dsimp only
    rw [pages_append, page?_fresh]
    refine ⟨?_, forall_mem_snoc.mpr ⟨hshared, rfl⟩⟩
    rw [List.length_append, ← hnumber]
    rfl
  case completions =>
    rw [filter_completes_append, if_neg (by simp [Event.completes]), List.append_nil]
    exact h.completions
  case lastTime_eq =>
    refine forall_mem_snoc.mpr ⟨h.lastTime_eq, ?_⟩
    intro hcompletes
    cases hcompletes
  case spaced =>
    refine h.spaced_append rfl ?_
    intro hopens
    exact h.spaced_of_placed hplaced (by simpa [Event.opens] using hopens)

theorem finish (h : Sound state log) (event : Event τ) (hcompletes : event.completes = true)
    (hround : event.round = state.finished + 1)
    (hspaced : event.opens = true → state.Spaced event.time event.spacing)
    (hpage : ∀ page ∈ event.page? (state.finished + 1), page.1 = (pages log (state.finished + 1)).length ∧
        ∀ old ∈ pages log (state.finished + 1), old.2 = page.2) :
    Sound ⟨state.finished + 1, some event.time, none⟩ (log ++ [event]) := by
  constructor
  case pending_pos => rintro _ ⟨⟩
  case round_le => exact forall_mem_snoc.mpr ⟨h.round_le_succ, hround.le⟩
  case whole_le =>
    refine forall_mem_snoc.mpr ⟨?_, fun _ => hround.le⟩
    exact fun old hold _ => h.round_le_succ old hold
  case ordered => exact h.ordered_append hround
  case numbered => exact h.numbered_append hround hpage
  case pending_pages => rintro _ ⟨⟩
  case completions =>
    rw [filter_completes_append, if_pos hcompletes, h.completions, hround, List.range'_concat]
    simp [Nat.add_comm]
  case lastTime_eq =>
    refine forall_mem_snoc.mpr ⟨?_, fun _ _ => rfl⟩
    -- the rounds that were finished before are those up to `finished`
    intro old hold hold_completes hold_round
    have hmem : old.round ∈ (log.filter Event.completes).map Event.round :=
      List.mem_map_of_mem (List.mem_filter.mpr ⟨hold, hold_completes⟩)
    rw [h.completions, List.mem_range'_1, hold_round] at hmem
    dsimp only at hmem
    omega
  case spaced => exact h.spaced_append hround hspaced

theorem step {events : List (Event τ)} {state' : State τ} (h : Sound state log)
    (hstep : Step state events state') : Sound state' (log ++ events) := by
  cases hstep with
  | idle =>
    rw [List.append_nil]
    exact h
  | repeated _ hfresh hround hpage => exact h.repeated hfresh hround hpage
  | page number time spacing tag hplaced => exact h.page hplaced
  | lastPage number time spacing tag hplaced =>
    refine h.finish ⟨.page number tag true, state.finished + 1, time, spacing, true⟩ rfl rfl ?_ ?_
    . intro hopens
      exact h.spaced_of_placed hplaced (by simpa [Event.opens] using hopens)
    . rw [page?_fresh]
      rintro _ ⟨⟩
      exact h.pages_of_placed hplaced
  | whole time spacing _ hspaced =>
    refine h.finish ⟨.whole, state.finished + 1, time, spacing, true⟩ rfl rfl (fun _ => hspaced) ?_
    rintro _ ⟨⟩

theorem between (h : Sound state log) {before middle after : List (Event τ)} {first second : Event τ}
    (hlog : log = before ++ first :: middle ++ second :: after) (hround : second.round = first.round)
    (hfresh : second.fresh = true) : ∀ event ∈ middle, event.round = first.round ∧ event.IsPage := by
  have hordered := h.ordered
  rw [hlog, List.append_assoc, List.pairwise_append, List.cons_append, List.pairwise_cons,
    List.pairwise_append] at hordered
  obtain ⟨-, ⟨hfirst, -, -, hmiddle⟩, -⟩ := hordered
  intro event hevent
  obtain ⟨_, -⟩ := hfirst event (List.mem_append_left _ hevent)
  obtain ⟨_, hwhole⟩ := hmiddle event hevent second List.mem_cons_self
  refine ⟨by omega, ?_⟩
  cases hmark : event.mark with
  | page number tag last => exact ⟨number, tag, last, hmark⟩
  | whole =>
    have hlt := hwhole hmark hfresh
    omega

end Sound

end PagedChain
