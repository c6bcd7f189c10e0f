import Mayhem.Lib.Table
import Mathlib.Data.List.Nodup

namespace VersionLog

variable {K V : Type} (ver : V → Nat)

def Ascending (log : List (K × V)) : Prop :=
  log.Pairwise fun earlier later => earlier.1 = later.1 → ver earlier.2 < ver later.2

def Below (log : List (K × V)) (k : K) (bound : Nat) : Prop :=
  ∀ entry ∈ log, entry.1 = k → ver entry.2 < bound

variable {ver} {log writes : List (K × V)}

theorem ascending_nil : Ascending ver ([] : List (K × V)) := List.Pairwise.nil

theorem ascending_of_nodup (h : (writes.map Prod.fst).Nodup) : Ascending ver writes := by
  rw [List.Nodup, List.pairwise_map] at h
  apply h.imp
  intro _ _ hne heq
  exact absurd heq hne

theorem Ascending.append (hlog : Ascending ver log) (hwrites : Ascending ver writes)
    (hbelow : ∀ write ∈ writes, Below ver log write.1 (ver write.2)) : Ascending ver (log ++ writes) := by
  rw [Ascending, List.pairwise_append]
  refine ⟨hlog, hwrites, ?_⟩
  intro earlier hearlier later hlater heq
  exact hbelow later hlater earlier hearlier heq

variable {k : K}

theorem Below.append {bound : Nat} (hlog : Below ver log k bound) (hwrites : Below ver writes k bound) :
    Below ver (log ++ writes) k bound := by
  intro entry hentry
  rcases List.mem_append.mp hentry with h | h
  . exact hlog entry h
  . exact hwrites entry h

theorem Below.mono {bound bound' : Nat} (h : Below ver log k bound) (hle : bound ≤ bound') :
    Below ver log k bound' :=
  fun entry hentry heq => Nat.lt_of_lt_of_le (h entry hentry heq) hle

variable (ver)

def stored (log : List (K × V)) : List ((K × Nat) × V) :=
  log.map fun entry => ((entry.1, ver entry.2), entry.2)

variable {ver}

theorem stored_append (log writes : List (K × V)) :
    stored ver (log ++ writes) = stored ver log ++ stored ver writes :=
  List.map_append

theorem nodup_of_ascending (h : Ascending ver log) : ((stored ver log).map Prod.fst).Nodup := by
  rw [stored, List.map_map, List.Nodup, List.pairwise_map]
  apply h.imp
  intro _ _ hrise heq
  obtain ⟨hkey, hver⟩ := Prod.mk.inj heq
  exact absurd hver (Nat.ne_of_lt (hrise hkey))

variable [DecidableEq K]

theorem get_iff_of_ascending (h : Ascending ver log) {n : Nat} {v : V} :
    (Table.empty.putAll (stored ver log)).get (k, n) = some v ↔ (k, v) ∈ log ∧ ver v = n := by
  rw [Table.get_putAll_empty_iff (nodup_of_ascending h), stored, List.mem_map]
  constructor
  . rintro ⟨_, hentry, heq⟩
    obtain ⟨⟨rfl, rfl⟩, rfl⟩ := Prod.mk.inj heq |>.imp Prod.mk.inj id
    exact ⟨hentry, rfl⟩
  . rintro ⟨hentry, rfl⟩
    exact ⟨(k, v), hentry, rfl⟩

end VersionLog
