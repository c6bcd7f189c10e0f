import Mathlib.Data.List.MinMax
import Mayhem.Lib.Markers

namespace Mayhem

namespace Gateway

open Markers

def reasoningMarkers : List (List Char) :=
  ["<think>".toList, "</think>".toList, "<|channel>thought\n".toList, "<channel|>".toList]

def EndsReasoning (marker : List Char) : Prop := marker = "</think>".toList ∨ marker = "<channel|>".toList

instance : DecidablePred EndsReasoning := fun _ => inferInstanceAs (Decidable (_ ∨ _))

def firstMarker (pending : List Char) : Option (Nat × List Char) :=
  (reasoningMarkers.filterMap fun marker => (find marker pending).map (·, marker)).argmin Prod.fst

def partialMarkers : List (List Char) :=
  reasoningMarkers.flatMap fun marker => (List.range' 1 (marker.length - 1)).map marker.take

def retained (pending : List Char) : Nat :=
  ((partialMarkers.filter (· <:+ pending)).map List.length).max?.getD 0

theorem reasoningMarkers_separate : Separate reasoningMarkers := ⟨by decide, by decide⟩

variable {pending marker : List Char} {index : Nat}

theorem firstMarker_eq_some (h : firstMarker pending = some (index, marker)) :
    marker ∈ reasoningMarkers ∧ find marker pending = some index ∧
      ∀ other ∈ reasoningMarkers, ∀ place ∈ find other pending, index ≤ place := by
  have hmem := List.argmin_mem h
  simp only [List.mem_filterMap, Option.map_eq_some_iff, Prod.mk.injEq] at hmem
  obtain ⟨_, hmarker, _, hfind, rfl, rfl⟩ := hmem
  refine ⟨hmarker, hfind, ?_⟩
  intro other hother place hplace
  exact List.le_of_mem_argmin (f := Prod.fst) (a := (place, other))
    (List.mem_filterMap.mpr ⟨other, hother, by rw [hplace]; rfl⟩) h

theorem firstMarker_eq_none_iff :
    firstMarker pending = none ↔ ∀ marker ∈ reasoningMarkers, find marker pending = none := by
  simp [firstMarker, List.argmin_eq_none, List.filterMap_eq_nil_iff]

theorem firstMarker_of_least (hmem : marker ∈ reasoningMarkers) (hfind : find marker pending = some index)
    (hleast : ∀ other ∈ reasoningMarkers, ∀ place ∈ find other pending, index ≤ place) :
    firstMarker pending = some (index, marker) := by
  cases hfirst : firstMarker pending with
  | none => simp [firstMarker_eq_none_iff.mp hfirst marker hmem] at hfind
  | some found =>
    obtain ⟨hother, hplace, hle⟩ := firstMarker_eq_some hfirst
    have hindex : found.1 = index := le_antisymm (hle marker hmem index hfind) (hleast _ hother _ hplace)
    have hmarker := reasoningMarkers_separate.eq_of_starts hother hmem (prefix_drop_of_find hplace)
      (hindex ▸ prefix_drop_of_find hfind)
    rw [← hindex, ← hmarker]

theorem firstMarker_cons {a : Char} (hnone : ∀ marker ∈ reasoningMarkers, ¬ marker <+: a :: pending) :
    firstMarker (a :: pending) = (firstMarker pending).map fun found => (found.1 + 1, found.2) := by
  cases hfirst : firstMarker pending with
  | none =>
    rw [firstMarker_eq_none_iff] at hfirst
    refine firstMarker_eq_none_iff.mpr fun marker hmem => ?_
    rw [find_cons_of_not (hnone marker hmem), hfirst marker hmem]
    rfl
  | some found =>
    obtain ⟨hmem, hfind, hleast⟩ := firstMarker_eq_some hfirst
    refine firstMarker_of_least hmem (by rw [find_cons_of_not (hnone _ hmem), hfind]; rfl) ?_
    intro other hother place hplace
    rw [find_cons_of_not (hnone _ hother), Option.mem_map] at hplace
    obtain ⟨place, hplace, rfl⟩ := hplace
    exact Nat.succ_le_succ (hleast other hother place hplace)

theorem firstMarker_of_held (hnone : ∀ marker ∈ reasoningMarkers, ¬ marker <+: pending)
    (hmem : marker ∈ reasoningMarkers) (hheld : pending <+: marker) : firstMarker pending = none := by
  refine firstMarker_eq_none_iff.mpr fun other hother =>
    Option.eq_none_iff_forall_ne_some.mpr fun place hplace => ?_
  have hpart : other <:+: pending := (prefix_drop_of_find hplace).isInfix.trans (List.drop_suffix _ _).isInfix
  obtain rfl := reasoningMarkers_separate.eq_of_infix _ hother _ hmem (hpart.trans hheld.isInfix)
  rw [hheld.eq_of_length_le hpart.length_le] at hnone
  exact hnone other hother List.prefix_rfl

theorem retained_le : retained pending ≤ pending.length := by
  rw [retained]
  cases hmax : ((partialMarkers.filter (· <:+ pending)).map List.length).max? with
  | none => exact Nat.zero_le _
  | some length =>
    obtain ⟨part, hpart, rfl⟩ := List.mem_map.mp (List.max?_mem hmax)
    have hsuffix : part <:+ pending := by simpa using List.of_mem_filter hpart
    exact hsuffix.length_le

theorem retained_cons {a : Char} (hheld : ∀ marker ∈ reasoningMarkers, ¬ a :: pending <+: marker) :
    retained (a :: pending) = retained pending := by
  have hsame : partialMarkers.filter (· <:+ a :: pending) = partialMarkers.filter (· <:+ pending) := by
    refine List.filter_congr fun part hpart => decide_eq_decide.mpr ?_
    obtain ⟨marker, hmem, n, -, rfl⟩ : ∃ marker ∈ reasoningMarkers, ∃ n ∈ List.range' 1 (marker.length - 1),
        marker.take n = part := by simpa [partialMarkers] using hpart
    rw [List.suffix_cons_iff, or_iff_right]
    intro heq
    exact hheld marker hmem (heq ▸ List.take_prefix n marker)
  rw [retained, retained, hsame]

theorem retained_of_held (hnone : ∀ marker ∈ reasoningMarkers, ¬ marker <+: pending)
    (hmem : marker ∈ reasoningMarkers) (hheld : pending <+: marker) : retained pending = pending.length := by
  by_cases hnil : pending = []
  . rw [hnil]
    rfl
  have hlt : pending.length < marker.length := by
    refine lt_of_le_of_ne hheld.length_le fun heq => hnone marker hmem ?_
    rw [hheld.eq_of_length heq]
  have hpart : pending ∈ partialMarkers := by
    refine List.mem_flatMap.mpr ⟨marker, hmem, List.mem_map.mpr ⟨pending.length, ?_, ?_⟩⟩
    . have hpos := List.length_pos_of_ne_nil hnil
      rw [List.mem_range'_1]
      omega
    . exact (List.prefix_iff_eq_take.mp hheld).symm
  have hmax : ((partialMarkers.filter (· <:+ pending)).map List.length).max? = some pending.length := by
    refine List.max?_eq_some_iff.mpr ⟨List.mem_map_of_mem (List.mem_filter.mpr ⟨hpart, by simp⟩), ?_⟩
    simp only [List.mem_map, List.mem_filter, decide_eq_true_eq, forall_exists_index, and_imp]
    rintro _ _ - hsuffix rfl
    exact hsuffix.length_le
  rw [retained, hmax]
  rfl

structure ReasoningStream where
  pending : List Char
  ended : Bool

def drain (pending : List Char) : List Char × ReasoningStream :=
  match _h : firstMarker pending with
  | some (index, marker) =>
    if EndsReasoning marker then (pending.take index, ⟨[], true⟩)
    else
      let rest := drain (pending.drop (index + marker.length))
      (pending.take index ++ rest.1, rest.2)
  | none =>
    (pending.take (pending.length - retained pending), ⟨pending.drop (pending.length - retained pending), false⟩)
termination_by pending.length
decreasing_by
  obtain ⟨hmem, hfind, -⟩ := firstMarker_eq_some _h
  have hle := (prefix_drop_of_find hfind).length_le
  have hpos : 0 < marker.length :=
    List.length_pos_of_ne_nil fun hnil => reasoningMarkers_separate.ne_nil (hnil ▸ hmem)
  rw [List.length_drop] at hle ⊢
  omega

namespace ReasoningStream

def empty : ReasoningStream := ⟨[], false⟩

def push (stream : ReasoningStream) (text : List Char) : List Char × ReasoningStream :=
  if stream.ended then ([], stream) else drain (stream.pending ++ text)

def finish (stream : ReasoningStream) : List Char × ReasoningStream :=
  (stream.pending, { stream with pending := [] })

def pushAll (stream : ReasoningStream) : List (List Char) → List Char
  | [] => stream.finish.1
  | text :: texts => (stream.push text).1 ++ (stream.push text).2.pushAll texts

end ReasoningStream

def reasoningText (evidence : List Char) : List Char :=
  let first := ReasoningStream.empty.push evidence
  first.1 ++ first.2.finish.1

theorem drain_of_some (h : firstMarker pending = some (index, marker)) :
    drain pending = if EndsReasoning marker then (pending.take index, ⟨[], true⟩)
      else (pending.take index ++ (drain (pending.drop (index + marker.length))).1,
        (drain (pending.drop (index + marker.length))).2) := by
  rw [drain]
  split
  case h_1 heq =>
    cases heq.symm.trans h
    rfl
  case h_2 heq => cases heq.symm.trans h

theorem drain_of_none (h : firstMarker pending = none) :
    drain pending = (pending.take (pending.length - retained pending),
      ⟨pending.drop (pending.length - retained pending), false⟩) := by
  rw [drain]
  split
  case h_1 heq => cases heq.symm.trans h
  case h_2 => rfl

theorem drain_cons {a : Char} (hnone : ∀ marker ∈ reasoningMarkers, ¬ marker <+: a :: pending)
    (hheld : ∀ marker ∈ reasoningMarkers, ¬ a :: pending <+: marker) :
    drain (a :: pending) = (a :: (drain pending).1, (drain pending).2) := by
  have hcons := firstMarker_cons hnone
  cases hfirst : firstMarker pending with
  | none =>
    rw [hfirst] at hcons
    rw [drain_of_none hcons, drain_of_none hfirst, retained_cons hheld, List.length_cons,
      Nat.succ_sub retained_le]
    rfl
  | some =>
    rw [hfirst] at hcons
    rw [drain_of_some hcons, drain_of_some hfirst, Nat.add_right_comm]
    split
    . rfl
    . rfl

theorem drain_of_starts (hmem : marker ∈ reasoningMarkers) (hp : marker <+: pending) :
    drain pending = if EndsReasoning marker then ([], ⟨[], true⟩) else drain (pending.drop marker.length) := by
  rw [drain_of_some (firstMarker_of_least hmem (find_of_starts hp) (by simp)), Nat.zero_add]
  rfl

theorem drain_of_held (hnone : ∀ marker ∈ reasoningMarkers, ¬ marker <+: pending)
    (hmem : marker ∈ reasoningMarkers) (hheld : pending <+: marker) : drain pending = ([], ⟨pending, false⟩) := by
  rw [drain_of_none (firstMarker_of_held hnone hmem hheld), retained_of_held hnone hmem hheld, Nat.sub_self]
  rfl

theorem drain_append (more pending : List Char) :
    drain (pending ++ more) = if (drain pending).2.ended then ((drain pending).1, ⟨[], true⟩)
      else ((drain pending).1 ++ (drain ((drain pending).2.pending ++ more)).1,
        (drain ((drain pending).2.pending ++ more)).2) := by
  by_cases hstart : ∃ marker ∈ reasoningMarkers, marker <+: pending
  . obtain ⟨marker, hmem, hp⟩ := hstart
    have hlt : (pending.drop marker.length).length < pending.length := by
      have hpos := List.length_pos_of_ne_nil fun hnil => reasoningMarkers_separate.ne_nil (hnil ▸ hmem)
      have hle := hp.length_le
      rw [List.length_drop]
      omega
    rw [drain_of_starts hmem hp, drain_of_starts hmem (hp.trans (List.prefix_append _ _))]
    split
    . rfl
    . rw [List.drop_append_of_le_length hp.length_le]
      exact drain_append more (pending.drop marker.length)
  . have hnone : ∀ marker ∈ reasoningMarkers, ¬ marker <+: pending := by simpa using hstart
    by_cases hheld : ∃ marker ∈ reasoningMarkers, pending <+: marker
    . obtain ⟨marker, hmem, hp⟩ := hheld
      rw [drain_of_held hnone hmem hp]
      rfl
    . have hopen : ∀ marker ∈ reasoningMarkers, ¬ pending <+: marker := by simpa using hheld
      cases pending with
      | nil => exact absurd List.nil_prefix (hopen _ List.mem_cons_self)
      | cons a pending =>
        -- what is neither a marker nor the beginning of one stays so when more follows
        have hnone' : ∀ marker ∈ reasoningMarkers, ¬ marker <+: a :: (pending ++ more) := by
          intro marker hmem hp
          rcases List.prefix_or_prefix_of_prefix hp (List.prefix_append (a :: pending) more) with hle | hle
          . exact hnone marker hmem hle
          . exact hopen marker hmem hle
        have hopen' : ∀ marker ∈ reasoningMarkers, ¬ a :: (pending ++ more) <+: marker :=
          fun marker hmem hp => hopen marker hmem ((List.prefix_append (a :: pending) more).trans hp)
        rw [drain_cons hnone hopen, List.cons_append, drain_cons hnone' hopen', drain_append more pending]
        split
        . rfl
        . rfl
termination_by pending.length
decreasing_by
  . exact hlt
  . exact Nat.lt_succ_self _

theorem pushAll_drain (text : List Char) (texts : List (List Char)) :
    (drain text).1 ++ (drain text).2.pushAll texts =
      (drain (text ++ texts.flatten)).1 ++ (drain (text ++ texts.flatten)).2.pending := by
  induction texts generalizing text with
  | nil => rw [List.flatten_nil, List.append_nil, ReasoningStream.pushAll, ReasoningStream.finish]
  | cons _ texts ih =>
    rw [List.flatten_cons, ← List.append_assoc, ← ih, drain_append, ReasoningStream.pushAll, ReasoningStream.push]
    split
    case isTrue hended =>
      -- nothing is pending after the end
      have hself := drain_append [] text
      rw [if_pos hended, List.append_nil] at hself
      rw [hself]
      rfl
    case isFalse => rw [List.append_assoc]

/--
The reasoning that is shown does not depend on how the evidence is cut into pieces.
-/
theorem reasoning_independent_of_pieces (texts : List (List Char)) :
    ReasoningStream.empty.pushAll texts = reasoningText texts.flatten := by
  have hempty : drain [] = ([], .empty) := by
    rw [drain_of_none (firstMarker_eq_none_iff.mpr (by decide))]
    rfl
  have hrun := pushAll_drain [] texts
  rw [hempty, List.nil_append, List.nil_append] at hrun
  exact hrun

end Gateway

end Mayhem
