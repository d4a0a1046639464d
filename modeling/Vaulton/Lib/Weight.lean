import Mathlib

/-! Totals that change in one place: the weight of a finite table when a key is
inserted or erased (a missing key weighs nothing), and a sum over a finite family when
one member changes. -/

namespace Vaulton.Lib

variable {α β : Type} [DecidableEq α] (weight : β → Nat)

abbrev Table (α β : Type) [DecidableEq α] := AList fun _ : α => β

def total (table : Table α β) : Nat := (table.entries.map fun entry => weight entry.2).sum

def weightAt (table : Table α β) (key : α) : Nat := ((table.lookup key).map weight).getD 0

variable {weight}

@[simp] theorem weightAt_insert (table : Table α β) (key : α) (value : β) :
    weightAt weight (table.insert key value) key = weight value := by
  simp [weightAt]

theorem weightAt_insert_of_ne (table : Table α β) {key other : α} (value : β) (different : other ≠ key) :
    weightAt weight (table.insert key value) other = weightAt weight table other := by
  simp [weightAt, AList.lookup_insert_ne different]

@[simp] theorem weightAt_erase (weight : β → Nat) (table : Table α β) (key : α) : weightAt weight (table.erase key) key = 0 := by
  simp [weightAt]

theorem weightAt_erase_of_ne (table : Table α β) {key other : α} (different : other ≠ key) :
    weightAt weight (table.erase key) other = weightAt weight table other := by
  simp [weightAt, AList.lookup_erase_ne different]

theorem weightAt_of_notMem {table : Table α β} {key : α} (absent : key ∉ table) : weightAt weight table key = 0 := by
  simp [weightAt, AList.lookup_eq_none.mpr absent]

theorem total_erase (weight : β → Nat) (table : Table α β) (key : α) :
    total weight (table.erase key) + weightAt weight table key = total weight table := by
  by_cases member : key ∈ table
  · obtain ⟨value, front, back, absent, split, removed⟩ := List.exists_of_kerase (AList.mem_keys.mp member)
    have found : table.lookup key = some value := by
      rw [← Option.mem_def, AList.mem_lookup_iff, split]
      simp
    have erased : (table.erase key).entries = front ++ back := removed
    simp only [total, weightAt, found, erased, split, List.map_append, List.map_cons, List.sum_append,
      List.sum_cons, Option.map_some, Option.getD_some]
    omega
  · have unchanged : (table.erase key).entries = table.entries :=
      List.kerase_of_notMem_keys (fun inside => member (AList.mem_keys.mpr inside))
    simp [total, unchanged, weightAt_of_notMem member]

theorem total_insert (weight : β → Nat) (table : Table α β) (key : α) (value : β) :
    total weight (table.insert key value) + weightAt weight table key = total weight table + weight value := by
  have shape : total weight (table.insert key value) = weight value + total weight (table.erase key) := by
    simp [total, AList.entries_insert, AList.erase]
  have removed := total_erase weight table key
  omega

theorem weightAt_le_total (weight : β → Nat) (table : Table α β) (key : α) : weightAt weight table key ≤ total weight table := by
  have removed := total_erase weight table key
  omega

theorem total_congr (weight : β → Nat) {first second : Table α β} (same : ∀ key, first.lookup key = second.lookup key) :
    total weight first = total weight second := by
  have perm : first.entries.Perm second.entries :=
    List.lookup_ext first.nodupKeys second.nodupKeys (fun key value => by
      have equal := same key
      simp only [AList.lookup] at equal
      rw [equal])
  exact (perm.map _).sum_eq

/-! ### Tables whose values change at once -/

/-- The entries whose value has the property. -/
def Table.restrict (keep : β → Bool) (table : Table α β) : Table α β where
  entries := table.entries.filter fun entry => keep entry.2
  nodupKeys := table.nodupKeys.sublist List.filter_sublist

def Table.mapValues {γ : Type} (change : β → γ) (table : Table α β) : Table α γ where
  entries := table.entries.map fun entry => ⟨entry.1, change entry.2⟩
  nodupKeys := by
    have keys : (table.entries.map fun entry => (⟨entry.1, change entry.2⟩ : Sigma fun _ : α => γ)).keys = table.entries.keys := by
      simp [List.keys]
    rw [List.NodupKeys, keys]
    exact table.nodupKeys

theorem total_restrict_le (weight : β → Nat) (keep : β → Bool) (table : Table α β) :
    total weight (Table.restrict keep table) ≤ total weight table :=
  (List.filter_sublist.map _).sum_le_sum fun _ _ => Nat.zero_le _

theorem total_mapValues (weight : β → Nat) {change : β → β} (same : ∀ value, weight (change value) = weight value)
    (table : Table α β) : total weight (Table.mapValues change table) = total weight table := by
  simp [total, Table.mapValues, Function.comp_def, same]

open Finset in
theorem sum_update {ι γ : Type} [Fintype ι] [DecidableEq ι] (value : γ → ℤ) (family : ι → γ) (index : ι) (changed : γ) :
    ∑ other, value (Function.update family index changed other) =
      ∑ other, value (family other) - value (family index) + value changed := by
  have split (target : ι → γ) : ∑ other, value (target other) =
      value (target index) + ∑ other ∈ univ.erase index, value (target other) :=
    (add_sum_erase univ (fun other => value (target other)) (mem_univ index)).symm
  have rest : ∑ other ∈ univ.erase index, value (Function.update family index changed other) =
      ∑ other ∈ univ.erase index, value (family other) := by
    apply sum_congr rfl
    intro other member
    rw [Function.update_of_ne (ne_of_mem_erase member)]
  rw [split (Function.update family index changed), split family, rest, Function.update_self]
  omega

end Vaulton.Lib
