import Vaulton.Proofs.MountListing

/-! `resolve_path` compares texts and their lengths in bytes. On tables and paths without
empty segments that is the longest mount whose segments begin those of the path, also when
mounts lie in one another. -/

namespace Vaulton.Proofs.MountResolving
open Vaulton.Lib Vaulton.Config Vaulton.Paths Vaulton.MountAccess Vaulton.Proofs.MountAccess Vaulton.Proofs.MountListing
  Vaulton.Proofs.Paths

theorem foldl_max_le {α : Type} {key : α → Nat} {rest : List α} {first : α} :
    key first ≤ key (rest.foldl (fun best item => if key best ≤ key item then item else best) first) ∧
      ∀ item ∈ rest, key item ≤ key (rest.foldl (fun best item => if key best ≤ key item then item else best) first) := by
  induction rest generalizing first with
  | nil => exact ⟨Nat.le_refl _, fun item impossible => absurd impossible List.not_mem_nil⟩
  | cons second rest ih =>
    rw [List.foldl_cons]
    split
    next smaller =>
      refine ⟨Nat.le_trans smaller ih.1, ?_⟩
      intro item member
      rcases List.mem_cons.mp member with rfl | inside
      · exact ih.1
      · exact ih.2 item inside
    next greater =>
      refine ⟨ih.1, ?_⟩
      intro item member
      rcases List.mem_cons.mp member with rfl | inside
      · exact Nat.le_trans (by omega) ih.1
      · exact ih.2 item inside

theorem maxByKey_greatest {α : Type} {key : α → Nat} {items : List α} {best : α} (found : maxByKey key items = some best) :
    ∀ item ∈ items, key item ≤ key best := by
  cases items with
  | nil => cases found
  | cons first rest =>
    cases found
    intro item member
    rcases List.mem_cons.mp member with rfl | inside
    · exact foldl_max_le.1
    · exact foldl_max_le.2 item inside

theorem maxByKey_isSome {α : Type} {key : α → Nat} {items : List α} : (maxByKey key items).isSome = true ↔ items ≠ [] := by
  cases items with
  | nil => exact ⟨fun impossible => absurd impossible Bool.false_ne_true, fun nonempty => absurd rfl nonempty⟩
  | cons first rest => exact ⟨fun _ => List.cons_ne_nil _ _, fun _ => rfl⟩

theorem byteLen_lt {shorter longer : Text} (nested : (shorter ++ ['/']) <+: longer) : byteLen shorter < byteLen longer := by
  obtain ⟨more, rfl⟩ := nested
  simp only [byteLen, List.map_append, List.sum_append, List.map_cons, List.map_nil, List.sum_cons, List.sum_nil]
  have slash : ('/' : Char).utf8Size = 1 := rfl
  omega

section Table

variable {μ : Type} {mounts : Mounts μ} (segmented : Segmented mounts)
include segmented

theorem outer_shorter {outer inner : Text × μ} (outer_mem : outer ∈ mounts) (inner_mem : inner ∈ mounts)
    (front : segments outer.1 <+: segments inner.1) :
    outer = inner ∨ ((segments outer.1).length < (segments inner.1).length ∧ byteLen outer.1 < byteLen inner.1) := by
  have absolute := segmented.absolute outer outer_mem
  have owns := (owns_iff_segments absolute (segmented.proper outer outer_mem) inner.1).mpr front
  rw [segmented.absolute inner inner_mem] at owns
  rcases owns with same | nested
  · left
    obtain ⟨path, mount⟩ := outer
    obtain ⟨other, second⟩ := inner
    cases same
    rw [segmented.sorted.unique outer_mem inner_mem]
  · right
    refine ⟨?_, byteLen_lt nested⟩
    rcases Nat.lt_or_eq_of_le front.length_le with shorter | equal
    · exact shorter
    · have paths := normalize_eq_of_segments (front.eq_of_length equal)
      rw [absolute, segmented.absolute inner inner_mem] at paths
      have fewer := byteLen_lt nested
      rw [paths] at fewer
      exact absurd fewer (Nat.lt_irrefl _)

theorem owner_longest {path : Text} {best : Text × μ}
    (found : maxByKey (fun entry => byteLen entry.1) (owners mounts (normalize path)) = some best) :
    best ∈ mounts ∧ segments best.1 <+: segments path ∧ ∀ entry ∈ mounts, segments entry.1 <+: segments path →
      entry = best ∨ (segments entry.1).length < (segments best.1).length := by
  obtain ⟨member, owns⟩ := segmented.mem_owners.mp (maxByKey_mem found)
  refine ⟨member, owns, ?_⟩
  intro entry entry_mem entry_owns
  have bounded := maxByKey_greatest found entry (segmented.mem_owners.mpr ⟨entry_mem, entry_owns⟩)
  rcases List.prefix_or_prefix_of_prefix entry_owns owns with outer | inner
  · rcases outer_shorter segmented entry_mem member outer with same | ⟨shorter, _⟩
    · exact .inl same
    · exact .inr shorter
  · rcases outer_shorter segmented member entry_mem inner with same | ⟨_, longer⟩
    · exact .inl same.symm
    · exact absurd bounded (Nat.not_le.mpr longer)

end Table

/-! ### The inner path -/

theorem segments_closed {inner : List Text} (separated : Separated '/' inner) (closing : Text) (slashes : ∀ c ∈ closing, c = '/') :
    segments (join '/' inner ++ closing) = inner := by
  have trimmed : trim '/' ([] ++ join '/' inner ++ closing) = join '/' inner :=
    trim_append (fun c impossible => absurd impossible List.not_mem_nil) slashes separated.head? separated.getLast?
  rw [List.nil_append] at trimmed
  by_cases empty : inner = []
  · rw [empty] at trimmed ⊢
    exact parts_eq_nil_iff.mpr trimmed
  · apply parts_of_trim trimmed
    · intro piece member
      exact (separated piece member).2
    · rw [trimmed]
      exact mt separated.join_eq_nil.mp empty

/-- What is left of the path below its mount. -/
theorem relative_segments {mountPath path : Text} (absolute : normalize mountPath = mountPath) (proper : segments mountPath ≠ [])
    (clean : [] ∉ segments path) (owns : segments mountPath <+: segments path) :
    segments mountPath ++ segments (relative mountPath path) = segments path ∧
      (relative mountPath path).head? ≠ some '/' ∧
      ((relative mountPath path).getLast? = some '/' ↔ relative mountPath path ≠ [] ∧ path.getLast? = some '/') := by
  obtain ⟨inner, whole⟩ := owns
  have separated : Separated '/' inner := by
    intro part member
    have inside : part ∈ segments path := whole ▸ List.mem_append_right _ member
    exact parts_separated clean part inside
  by_cases empty : inner = []
  · have same : normalize path = mountPath := by
      rw [normalize_segments, ← whole, empty, List.append_nil, ← normalize_segments, absolute]
    have rel : relative mountPath path = [] := by
      unfold relative
      rw [same, List.drop_length]
      exact if_neg fun both => both.2.1 rfl
    rw [rel, ← whole, empty]
    refine ⟨by rw [show segments [] = [] from rfl], ?_, ?_⟩
    · intro impossible
      cases impossible
    · exact ⟨fun impossible => absurd impossible (by decide), fun both => absurd rfl both.1⟩
  · have shape : normalize path = mountPath ++ '/' :: join '/' inner := by
      rw [normalize_segments, ← whole, join_append '/' proper empty]
      conv_rhs => rw [← absolute, normalize_segments mountPath]
      rfl
    have core : join '/' inner ≠ [] := mt separated.join_eq_nil.mp empty
    have rel := relative_eq shape core separated.head? separated.getLast?
    have slashes : ∀ c ∈ (if path.getLast? = some '/' then ['/'] else []), c = '/' := by
      intro c member
      split at member
      · exact List.mem_singleton.mp member
      · cases member
    refine ⟨?_, ?_, ?_⟩
    · rw [rel, segments_closed separated _ slashes, whole]
    · rw [rel, List.head?_append_of_ne_nil _ core]
      exact separated.head?
    · rw [rel]
      split
      next dir =>
        rw [List.getLast?_concat]
        exact ⟨fun _ => ⟨by simp, dir⟩, fun _ => rfl⟩
      next file =>
        rw [List.append_nil]
        exact ⟨fun slashed => absurd slashed separated.getLast?, fun both => absurd both.2 file⟩

/-- Resolving is by segments: the longest mount that begins the path, and the rest of it. -/
theorem resolving_takes_longest_mount {σ ω : Type} (pending : List (PendingMount σ ω)) (mounts : Mounts (Mount σ ω))
    (built : build pending = .ok mounts) (pending_clean : ∀ mount ∈ pending, [] ∉ segments mount.path) (path : Text)
    (clean : [] ∉ segments path) :
    ((resolvePath mounts path).isSome = true ↔ ∃ entry ∈ mounts, segments entry.1 <+: segments path) ∧
      ∀ mountPath mount rel, resolvePath mounts path = some (mountPath, mount, rel) →
        (mountPath, mount) ∈ mounts ∧ segments mountPath <+: segments path ∧
          (∀ entry ∈ mounts, segments entry.1 <+: segments path →
            entry = (mountPath, mount) ∨ (segments entry.1).length < (segments mountPath).length) ∧
          segments mountPath ++ segments rel = segments path ∧ rel.head? ≠ some '/' ∧
          (rel.getLast? = some '/' ↔ rel ≠ [] ∧ path.getLast? = some '/') := by
  have segmented := build_segmented built pending_clean
  have resolves : resolvePath mounts path =
      (maxByKey (fun entry => byteLen entry.1) (owners mounts (normalize path))).map fun entry =>
        (entry.1, entry.2, relative entry.1 path) := rfl
  rw [resolves]
  constructor
  · rw [Option.isSome_map, maxByKey_isSome]
    constructor
    · intro owned
      obtain ⟨entry, owner⟩ := List.exists_mem_of_ne_nil _ owned
      exact ⟨entry, segmented.mem_owners.mp owner⟩
    · intro ⟨entry, owns⟩
      exact List.ne_nil_of_mem (segmented.mem_owners.mpr owns)
  · intro mountPath mount rel resolved
    obtain ⟨best, found, same⟩ := Option.map_eq_some_iff.mp resolved
    cases same
    obtain ⟨member, owns, longest⟩ := owner_longest segmented found
    exact ⟨member, owns, longest, relative_segments (segmented.absolute best member) (segmented.proper best member) clean owns⟩

/-- One mount in another, and one beside them whose name starts like theirs. -/
def nestedMounts : List (PendingMount Unit Unit) :=
  [⟨"/points/docs".toList, shelf, false⟩, ⟨"points/docs/old/".toList, shelf, true⟩, ⟨"/points/docs-old".toList, shelf, false⟩]

theorem nested_mount_takes_path : ∃ mounts, build nestedMounts = .ok mounts ∧
    ∃ mountPath mount rel, resolvePath mounts "/points/docs/old/a/".toList = some (mountPath, mount, rel) ∧
      mountPath = "/points/docs/old".toList ∧ rel = "a/".toList ∧
      segments mountPath ++ segments rel = segments "/points/docs/old/a/".toList := by
  refine ⟨_, rfl, _, _, _, rfl, rfl, rfl, ?_⟩
  have resolved := resolving_takes_longest_mount nestedMounts _ rfl (by decide) "/points/docs/old/a/".toList (by decide)
  exact (resolved.2 _ _ _ rfl).2.2.2.1

end Vaulton.Proofs.MountResolving
