import Mathlib.Data.List.Basic
import Mathlib.Logic.Function.Basic

/-! A cache in which every entry stands under a key that fits it, and what is left of it
after invalidations by key. -/

namespace Vaulton.Lib

universe u v

variable {κ : Type u} {ν : Type v}

/-- `fits entry key`: the entry may stand under the key. -/
structure Cache (fits : ν → κ → Prop) where
  entries : κ → Option ν
  fit : ∀ key entry, entries key = some entry → fits entry key

namespace Cache

variable {fits : ν → κ → Prop}

def empty : Cache fits where
  entries := fun _ => none
  fit := by
    intro key entry found
    cases found

variable [DecidableEq κ]

def insert (cache : Cache fits) (key : κ) (entry : ν) (fitting : fits entry key) : Cache fits where
  entries := Function.update cache.entries key (some entry)
  fit := by
    intro other found member
    by_cases same : other = key
    · subst other
      rw [Function.update_self] at member
      cases member
      exact fitting
    · rw [Function.update_of_ne same] at member
      exact cache.fit other found member

def invalidate (cache : Cache fits) (key : κ) : Cache fits where
  entries := Function.update cache.entries key none
  fit := by
    intro other found member
    by_cases same : other = key
    · subst other
      rw [Function.update_self] at member
      cases member
    · rw [Function.update_of_ne same] at member
      exact cache.fit other found member

def invalidateAll (cache : Cache fits) (keys : List κ) : Cache fits := keys.foldl invalidate cache

variable {cache : Cache fits} {keys : List κ}

theorem invalidateAll_nil (cache : Cache fits) : cache.invalidateAll [] = cache := rfl

@[simp]
theorem invalidateAll_cons (cache : Cache fits) (key : κ) (keys : List κ) :
    cache.invalidateAll (key :: keys) = (cache.invalidate key).invalidateAll keys := rfl

theorem invalidateAll_append (cache : Cache fits) (first second : List κ) :
    cache.invalidateAll (first ++ second) = (cache.invalidateAll first).invalidateAll second :=
  List.foldl_append

theorem invalidateAll_entries (cache : Cache fits) (keys : List κ) (key : κ) :
    (cache.invalidateAll keys).entries key = if key ∈ keys then none else cache.entries key := by
  induction keys generalizing cache with
  | nil => rw [invalidateAll_nil, if_neg List.not_mem_nil]
  | cons first rest ih =>
    rw [invalidateAll_cons, ih]
    by_cases later : key ∈ rest
    · simp [later]
    · by_cases same : key = first
      · subst key
        simp [later, invalidate]
      · simp [later, same, invalidate]

theorem invalidateAll_gone {entry : ν} (covered : ∀ key, fits entry key → key ∈ keys) (key : κ) :
    (cache.invalidateAll keys).entries key ≠ some entry := by
  intro found
  have inside : key ∈ keys := covered key ((cache.invalidateAll keys).fit key entry found)
  rw [invalidateAll_entries, if_pos inside] at found
  cases found

theorem invalidateAll_kept {key : κ} (apart : key ∉ keys) :
    (cache.invalidateAll keys).entries key = cache.entries key := by
  rw [invalidateAll_entries, if_neg apart]

end Cache

end Vaulton.Lib
