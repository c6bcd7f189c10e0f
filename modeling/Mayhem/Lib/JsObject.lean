import Mathlib.Data.List.Sort
import Mathlib.Data.String.Basic
import Mayhem.Lib.Json

/-!
This module contains the order in which a JavaScript object lists its own fields, and what JSON parsing and
sorting by key do to that order.
-/

namespace JsObject

def ByKey {α β : Type} [LinearOrder β] (key : α → β) (a b : α) : Prop := key a ≤ key b

section ByKey

variable {α β : Type} [LinearOrder β] {key : α → β}

instance : DecidableRel (ByKey key) := fun a b => inferInstanceAs (Decidable (key a ≤ key b))

instance : Std.Total (ByKey key) := ⟨fun a b => le_total (key a) (key b)⟩

instance : IsTrans α (ByKey key) := ⟨fun _ _ _ => le_trans⟩

theorem insertionSort_of_perm {l sorted : List α} (hperm : l.Perm sorted)
    (hsorted : sorted.Pairwise fun a b => key a < key b) : l.insertionSort (ByKey key) = sorted := by
  have hinj : (sorted.map key).Nodup := by
    rw [List.Nodup, List.pairwise_map]
    exact hsorted.imp ne_of_lt
  have hunique : ∀ a b, a ∈ l.insertionSort (ByKey key) → b ∈ sorted → ByKey key a b → ByKey key b a → a = b := by
    intro a b ha hb hab hba
    have hmem : a ∈ sorted := hperm.mem_iff.mp ((List.mem_insertionSort _).mp ha)
    exact List.inj_on_of_nodup_map hinj hmem hb (le_antisymm hab hba)
  apply List.Perm.eq_of_pairwise hunique
  . apply List.pairwise_insertionSort
  . exact hsorted.imp le_of_lt
  . exact (List.perm_insertionSort _ l).trans hperm

end ByKey

def arrayIndex (name : String) : Option Nat :=
  let n := Nat.ofDigitChars 10 name.toList 0
  if n < 4294967295 ∧ n.repr = name then some n else none

theorem arrayIndex_inj {a b : String} {n : Nat} (ha : arrayIndex a = some n) (hb : arrayIndex b = some n) :
    a = b := by
  simp only [arrayIndex, Option.ite_none_right_eq_some, Option.some.injEq] at ha hb
  rw [← ha.1.2, ← hb.1.2, ha.2, hb.2]

section Fields

variable {α : Type}

def isIndex (field : String × α) : Bool := (arrayIndex field.1).isSome

def indexKey (field : String × α) : Nat := (arrayIndex field.1).getD 0

def ownOrder (fields : List (String × α)) : List (String × α) :=
  (fields.filter isIndex).insertionSort (ByKey indexKey) ++ fields.filter fun field => !isIndex field

def MayFollow (a b : String) : Prop := ∀ n ∈ arrayIndex b, ∃ m ∈ arrayIndex a, m < n

instance (a b : String) : Decidable (MayFollow a b) :=
  inferInstanceAs (Decidable (∀ n ∈ arrayIndex b, ∃ m ∈ arrayIndex a, m < n))

theorem ownOrder_perm (fields : List (String × α)) : (ownOrder fields).Perm fields := by
  apply List.Perm.trans _ (List.filter_append_perm isIndex fields)
  exact (List.perm_insertionSort _ _).append_right _

theorem ownOrder_mayFollow {fields : List (String × α)} (hnodup : (fields.map Prod.fst).Nodup) :
    (ownOrder fields).Pairwise fun a b => MayFollow a.1 b.1 := by
  have hother : ∀ a, ∀ b ∈ fields.filter (fun field => !isIndex field), MayFollow a b.1 := by
    intro a b hb n hn
    have hnone := (List.mem_filter.mp hb).2
    rw [isIndex, Option.mem_def.mp hn] at hnone
    cases hnone
  rw [ownOrder, List.pairwise_append]
  refine ⟨?_, List.Pairwise.imp_of_mem (fun _ hb _ => hother _ _ hb) (List.pairwise_of_forall fun _ _ => trivial),
    fun a _ b hb => hother a.1 b hb⟩
  -- two different names have different indices
  have hnames : ((fields.filter isIndex).insertionSort (ByKey indexKey)).Pairwise fun a b => a.1 ≠ b.1 := by
    rw [← List.pairwise_map (f := Prod.fst)]
    have hperm := (List.perm_insertionSort (ByKey indexKey) (fields.filter isIndex)).map Prod.fst
    exact hperm.nodup_iff.mpr (hnodup.sublist (List.filter_sublist.map _))
  have hsorted := List.pairwise_insertionSort (ByKey indexKey) (fields.filter isIndex)
  refine (hnames.and hsorted).imp_of_mem ?_
  rintro a b ha - ⟨hne, hle⟩ n hn
  have hindex := (List.mem_filter.mp ((List.mem_insertionSort _).mp ha)).2
  obtain ⟨m, hm⟩ := Option.isSome_iff_exists.mp hindex
  refine ⟨m, hm, lt_of_le_of_ne ?_ ?_⟩
  . rw [ByKey, indexKey, indexKey, hm, Option.mem_def.mp hn] at hle
    exact hle
  . intro heq
    exact hne (arrayIndex_inj hm (heq ▸ hn))

theorem ownOrder_of_mayFollow {fields : List (String × α)}
    (h : fields.Pairwise fun a b => MayFollow a.1 b.1) : ownOrder fields = fields := by
  have hindices : (fields.filter isIndex).Pairwise (ByKey indexKey) := by
    refine (h.sublist List.filter_sublist).imp_of_mem ?_
    intro a b _ hb hfollow
    obtain ⟨n, hn⟩ := Option.isSome_iff_exists.mp (List.mem_filter.mp hb).2
    obtain ⟨m, hm, hlt⟩ := hfollow n hn
    rw [ByKey, indexKey, indexKey, Option.mem_def.mp hm, hn]
    exact hlt.le
  rw [ownOrder, hindices.insertionSort_eq]
  clear hindices
  induction fields with
  | nil => rfl
  | cons field rest ih =>
    rw [List.pairwise_cons] at h
    cases hindex : isIndex field with
    | true =>
      rw [List.filter_cons_of_pos hindex, List.filter_cons_of_neg (by simp [hindex]), List.cons_append, ih h.2]
    | false =>
      -- no index follows a name that is none
      have hnone : ∀ other ∈ field :: rest, isIndex other = false := by
        rw [List.forall_mem_cons]
        refine ⟨hindex, fun other hmem => Option.isSome_eq_false_iff.mpr ?_⟩
        by_contra hother
        obtain ⟨n, hn⟩ := Option.ne_none_iff_exists'.mp (mt Option.isNone_iff_eq_none.mpr hother)
        obtain ⟨m, hm, -⟩ := h.1 other hmem n hn
        rw [isIndex, Option.mem_def.mp hm] at hindex
        cases hindex
      rw [List.filter_eq_nil_iff.mpr (by simpa using hnone), List.filter_eq_self.mpr (by simpa using hnone),
        List.nil_append]

theorem rel_of_sorted {names : List String} {R : String → String → Prop} (hsorted : names.Pairwise (· < ·))
    (h : names.Pairwise R) {a b : String} (ha : a ∈ names) (hb : b ∈ names) (hlt : a < b) : R a b := by
  obtain ⟨i, hi, rfl⟩ := List.getElem_of_mem ha
  obtain ⟨j, hj, rfl⟩ := List.getElem_of_mem hb
  rw [List.pairwise_iff_getElem] at h hsorted
  rcases Nat.lt_trichotomy i j with hij | rfl | hji
  . exact h i j hi hj hij
  . exact absurd hlt (lt_irrefl _)
  . exact absurd hlt (hsorted j i hj hi hji).asymm

theorem ownOrder_eq_self_iff {fields : List (String × α)} (hsorted : (fields.map Prod.fst).Pairwise (· < ·)) :
    ownOrder fields = fields ↔
      ∀ a ∈ fields.map Prod.fst, ∀ b ∈ fields.map Prod.fst, a < b → MayFollow a b := by
  constructor
  . intro h a ha b hb hlt
    have hnodup : (fields.map Prod.fst).Nodup := hsorted.imp ne_of_lt
    have hfollow := ownOrder_mayFollow hnodup
    rw [h, ← List.pairwise_map] at hfollow
    exact rel_of_sorted hsorted hfollow ha hb hlt
  . intro h
    apply ownOrder_of_mayFollow
    rw [← List.pairwise_map]
    exact hsorted.imp_of_mem fun ha hb hlt => h _ ha _ hb hlt

theorem ownOrder_idem (fields : List (String × α)) : ownOrder (ownOrder fields) = ownOrder fields := by
  have hfirst : ∀ field ∈ (fields.filter isIndex).insertionSort (ByKey indexKey), isIndex field = true :=
    fun field hmem => (List.mem_filter.mp ((List.mem_insertionSort _).mp hmem)).2
  have hrest : ∀ field ∈ fields.filter (fun field => !isIndex field), isIndex field = false :=
    fun field hmem => by simpa using (List.mem_filter.mp hmem).2
  have hnone : (fields.filter fun field => !isIndex field).filter isIndex = [] :=
    List.filter_eq_nil_iff.mpr fun field hmem => by simp [hrest field hmem]
  have hindices : (ownOrder fields).filter isIndex = (fields.filter isIndex).insertionSort (ByKey indexKey) := by
    rw [ownOrder, List.filter_append, List.filter_eq_self.mpr hfirst, hnone, List.append_nil]
  have hothers : (ownOrder fields).filter (fun field => !isIndex field) =
      fields.filter fun field => !isIndex field := by
    rw [ownOrder, List.filter_append, List.filter_eq_nil_iff.mpr fun field hmem => by simp [hfirst field hmem],
      List.nil_append, List.filter_eq_self.mpr fun field hmem => by simp [hrest field hmem]]
  rw [ownOrder, hindices, hothers, (List.pairwise_insertionSort (ByKey indexKey) _).insertionSort_eq, ownOrder]

theorem ownOrder_map {β : Type} (f : α → β) (fields : List (String × α)) :
    ownOrder (fields.map (Prod.map id f)) = (ownOrder fields).map (Prod.map id f) := by
  have hindex : (isIndex ∘ Prod.map id f : String × α → Bool) = isIndex := rfl
  have hother : ((fun field => !isIndex field) ∘ Prod.map id f : String × α → Bool) = fun field =>
    !isIndex field := rfl
  rw [ownOrder, ownOrder, List.map_append, List.filter_map, List.filter_map, hindex, hother,
    ← List.map_insertionSort (ByKey indexKey) (ByKey indexKey) (Prod.map id f) _ fun _ _ _ _ => Iff.rfl]

theorem ownOrder_of_not_index {fields : List (String × α)}
    (h : ∀ name ∈ fields.map Prod.fst, arrayIndex name = none) : ownOrder fields = fields := by
  apply ownOrder_of_mayFollow
  rw [← List.pairwise_map]
  refine List.Pairwise.imp_of_mem ?_ (List.pairwise_of_forall fun _ _ => trivial)
  intro _ b _ hb _ _ hn
  rw [h b hb] at hn
  cases hn

end Fields

/--
How a program reads the numbers of a text: exactly up to `2 ^ 53 - 1`.
-/
structure Numbers where
  read : Nat → Nat
  read_of_safe : ∀ n ≤ 9007199254740991, read n = n
  read_read : ∀ n, read (read n) = read n

mutual

def parsed (numbers : Numbers) : Json → Json
  | .nat n => .nat (numbers.read n)
  | .arr items => .arr (parsedItems numbers items)
  | .obj fields => .obj (ownOrder (parsedFields numbers fields))
  | j => j

def parsedItems (numbers : Numbers) : List Json → List Json
  | [] => []
  | item :: rest => parsed numbers item :: parsedItems numbers rest

def parsedFields (numbers : Numbers) : List (String × Json) → List (String × Json)
  | [] => []
  | (name, value) :: rest => (name, parsed numbers value) :: parsedFields numbers rest

end

mutual

def stableValue : Json → Json
  | .arr items => .arr (stableItems items)
  | .obj fields => .obj (ownOrder ((stableFields fields).insertionSort (ByKey Prod.fst)))
  | j => j

def stableItems : List Json → List Json
  | [] => []
  | item :: rest => stableValue item :: stableItems rest

def stableFields : List (String × Json) → List (String × Json)
  | [] => []
  | (name, value) :: rest => (name, stableValue value) :: stableFields rest

end

section Parsed

variable (numbers : Numbers)

theorem parsedItems_eq (items : List Json) : parsedItems numbers items = items.map (parsed numbers) := by
  induction items with
  | nil => rfl
  | cons _ _ ih => rw [parsedItems, List.map_cons, ih]

theorem parsedFields_eq (fields : List (String × Json)) :
    parsedFields numbers fields = fields.map (Prod.map id (parsed numbers)) := by
  induction fields with
  | nil => rfl
  | cons _ _ ih => rw [parsedFields, List.map_cons, ih, Prod.map, id]

theorem stableFields_eq (fields : List (String × Json)) :
    stableFields fields = fields.map (Prod.map id stableValue) := by
  induction fields with
  | nil => rfl
  | cons _ _ ih => rw [stableFields, List.map_cons, ih, Prod.map, id]

theorem parsed_parsed (j : Json) : parsed numbers (parsed numbers j) = parsed numbers j := by
  induction j using Json.induct with
  | hnat => simp [parsed, numbers.read_read]
  | harr _ ih =>
    simp only [parsed, parsedItems_eq, List.map_map]
    exact congrArg Json.arr (List.map_congr_left ih)
  | hobj fields ih =>
    have hvalues : (fields.map (Prod.map id (parsed numbers))).map (Prod.map id (parsed numbers)) =
        fields.map (Prod.map id (parsed numbers)) := by
      rw [List.map_map]
      exact List.map_congr_left fun field hmem => Prod.ext rfl (ih field hmem)
    simp only [parsed, parsedFields_eq]
    rw [← ownOrder_map, hvalues, ownOrder_idem]
  | _ => rfl

end Parsed

abbrev Entries := List (String × Option Json)

def present (entries : Entries) : List (String × Json) :=
  entries.filterMap fun entry => entry.2.map (Prod.mk entry.1)

def record (entries : Entries) : Json := .obj (present entries)

def get : Json → String → Option Json
  | .obj fields, name => fields.lookup name
  | _, _ => none

section Record

variable {entries : Entries}

theorem mem_names_of_present {field : String × Json} (h : field ∈ present entries) :
    field.1 ∈ entries.map Prod.fst := by
  obtain ⟨_, hmem, hsome⟩ := List.mem_filterMap.mp h
  obtain ⟨_, -, rfl⟩ := Option.map_eq_some_iff.mp hsome
  exact List.mem_map_of_mem hmem

theorem lookup_of_not_mem {fields : List (String × Json)} {name : String}
    (h : ∀ field ∈ fields, field.1 ≠ name) : fields.lookup name = none := by
  apply List.lookup_eq_none_iff.mpr
  intro field hmem
  simpa using (h field hmem).symm

theorem get_record (hnodup : (entries.map Prod.fst).Nodup) {entry : String × Option Json}
    (hmem : entry ∈ entries) : get (record entries) entry.1 = entry.2 := by
  rw [record, get]
  induction entries with
  | nil => cases hmem
  | cons first rest ih =>
    rw [List.map_cons, List.nodup_cons] at hnodup
    rcases List.mem_cons.mp hmem with rfl | hrest
    . obtain ⟨name, value⟩ := entry
      cases value with
      | some value => simp [present]
      | none =>
        apply lookup_of_not_mem
        intro field hfield heq
        have hpresent : field ∈ present rest := by simpa [present] using hfield
        exact hnodup.1 (heq ▸ mem_names_of_present hpresent)
    . have hne : entry.1 ≠ first.1 := fun heq => hnodup.1 (heq ▸ List.mem_map_of_mem hrest)
      obtain ⟨name, value⟩ := first
      cases value with
      | none => simpa [present] using ih hnodup.2 hrest
      | some value => simpa [present, List.lookup_cons, beq_eq_false_iff_ne.mpr hne] using ih hnodup.2 hrest

theorem entries_eq (hnodup : (entries.map Prod.fst).Nodup) :
    entries = (entries.map Prod.fst).map fun name => (name, get (record entries) name) := by
  rw [List.map_map]
  nth_rewrite 1 [← List.map_id entries]
  apply List.map_congr_left
  intro _ hmem
  exact Prod.ext rfl (get_record hnodup hmem).symm

theorem record_inj {entries' : Entries} (hnodup : (entries.map Prod.fst).Nodup)
    (hnames : entries.map Prod.fst = entries'.map Prod.fst) (h : record entries = record entries') :
    entries = entries' := by
  have hnodup' : (entries'.map Prod.fst).Nodup := hnames ▸ hnodup
  rw [entries_eq hnodup, entries_eq hnodup', hnames, h]

def pick (f : String → Option Json → Option Json) (names : List String) (source : Json) : Json :=
  record (names.map fun name => (name, f name (get source name)))

variable {f g : String → Option Json → Option Json} {names : List String}

theorem get_pick (hnodup : names.Nodup) {name : String} (hmem : name ∈ names) (source : Json) :
    get (pick f names source) name = f name (get source name) := by
  refine @get_record (names.map fun name => (name, f name (get source name))) ?_
    (name, f name (get source name)) ?_
  . simpa only [List.map_map, Function.comp_def, List.map_id'] using hnodup
  . exact List.mem_map_of_mem hmem

theorem pick_pick {names' : List String} (hnodup : names.Nodup) (hsub : names' ⊆ names) (source : Json) :
    pick g names' (pick f names source) = pick (fun name value => g name (f name value)) names' source := by
  apply congrArg record
  apply List.map_congr_left
  intro name hmem
  rw [get_pick hnodup (hsub hmem)]

theorem pick_record (hnodup : (entries.map Prod.fst).Nodup) :
    pick f (entries.map Prod.fst) (record entries) =
      record (entries.map fun entry => (entry.1, f entry.1 entry.2)) := by
  rw [pick, List.map_map]
  apply congrArg record
  apply List.map_congr_left
  intro entry hmem
  rw [Function.comp_apply, get_record hnodup hmem]

theorem parsed_record (numbers : Numbers) (h : ∀ name ∈ entries.map Prod.fst, arrayIndex name = none) :
    parsed numbers (record entries) = record (entries.map (Prod.map id (Option.map (parsed numbers)))) := by
  have hvalues : (present entries).map (Prod.map id (parsed numbers)) =
      present (entries.map (Prod.map id (Option.map (parsed numbers)))) := by
    rw [present, present, List.map_filterMap, List.filterMap_map]
    apply List.filterMap_congr
    rintro ⟨name, value⟩ -
    cases value <;> rfl
  rw [record, parsed, parsedFields_eq, hvalues, ownOrder_of_not_index, record]
  intro name hname
  obtain ⟨field, hfield, rfl⟩ := List.mem_map.mp hname
  have hmem := mem_names_of_present hfield
  rw [List.map_map] at hmem
  exact h field.1 hmem

theorem pick_parsed_eq_iff (numbers : Numbers) (hentries : entries.map Prod.fst = names) (hnodup : names.Nodup)
    (hindex : ∀ name ∈ names, arrayIndex name = none) :
    pick f names (parsed numbers (record entries)) = record entries ↔
      ∀ entry ∈ entries, f entry.1 (entry.2.map (parsed numbers)) = entry.2 := by
  subst hentries
  have hnames : (entries.map (Prod.map id (Option.map (parsed numbers)))).map Prod.fst =
    entries.map Prod.fst := by
    rw [List.map_map]
    rfl
  rw [parsed_record numbers hindex, ← hnames, pick_record (hnames ▸ hnodup), List.map_map]
  constructor
  . intro h entry hmem
    have hsame := record_inj (by rw [List.map_map]; exact hnodup) (by rw [List.map_map]; rfl) h
    have hentry := List.map_inj_left.mp (hsame.trans (List.map_id entries).symm) entry hmem
    exact congrArg Prod.snd hentry
  . intro h
    apply congrArg record
    nth_rewrite 2 [← List.map_id entries]
    exact List.map_congr_left fun entry hmem => Prod.ext rfl (h entry hmem)

end Record

def counts (entries : List (String × Nat)) : Json := .obj (entries.map (Prod.map id Json.nat))

section Counts

variable {entries : List (String × Nat)}

theorem counts_inj {entries' : List (String × Nat)} (h : counts entries = counts entries') :
    entries = entries' := by
  have hnat : Function.Injective Json.nat := fun _ _ => Json.nat.inj
  exact List.map_injective_iff.mpr (Function.injective_id.prodMap hnat) (Json.obj.inj h)

theorem parsed_counts (numbers : Numbers) (h : ∀ entry ∈ entries, entry.2 ≤ 9007199254740991) :
    parsed numbers (counts entries) = counts (ownOrder entries) := by
  have hvalues : (entries.map (Prod.map id Json.nat)).map (Prod.map id (parsed numbers)) =
      entries.map (Prod.map id Json.nat) := by
    rw [List.map_map]
    apply List.map_congr_left
    rintro ⟨_, n⟩ hmem
    rw [Function.comp_apply, Prod.map, Prod.map, parsed, numbers.read_of_safe n (h _ hmem)]
    rfl
  rw [counts, parsed, parsedFields_eq, hvalues, ownOrder_map, counts]

theorem stableValue_counts (hsorted : (entries.map Prod.fst).Pairwise (· < ·)) :
    stableValue (counts (ownOrder entries)) = counts (ownOrder entries) := by
  have hvalues : ((ownOrder entries).map (Prod.map id Json.nat)).map (Prod.map id stableValue) =
      (ownOrder entries).map (Prod.map id Json.nat) := by
    rw [List.map_map]
    rfl
  have hperm : ((ownOrder entries).map (Prod.map id Json.nat)).Perm (entries.map (Prod.map id Json.nat)) :=
    (ownOrder_perm entries).map _
  have hnames : (entries.map (Prod.map id Json.nat)).Pairwise fun a b => a.1 < b.1 := by
    rw [List.pairwise_map] at hsorted ⊢
    exact hsorted
  rw [counts, stableValue, stableFields_eq, hvalues, insertionSort_of_perm hperm hnames, ownOrder_map]

end Counts

end JsObject
