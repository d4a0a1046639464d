import Vaulton.Lib.Segments
import Vaulton.Proofs.MountAccess

/-! What listings show is what paths resolve to. Mount paths, listed directories and the
paths of entries are compared by their segments: a mount owns the paths that its segments
begin, and a virtual directory is a path whose segments begin those of a mount. -/

namespace Vaulton.Proofs.MountListing
open Vaulton.Lib Vaulton.Config Vaulton.Paths Vaulton.MountAccess Vaulton.Proofs.MountAccess Vaulton.Proofs.Paths

/-! ### Paths as segments -/

abbrev segments (path : Text) : List Text := parts '/' path

theorem normalize_eq_trim (path : Text) : normalize path = '/' :: trim '/' path := by
  change (if trim '/' path = [] then "/".toList else '/' :: trim '/' path) = _
  split_ifs with empty
  · rw [empty]
    rfl
  · rfl

theorem normalize_segments (path : Text) : normalize path = '/' :: join '/' (segments path) := by
  rw [normalize_eq_trim, join_parts]

theorem trim_normalize (path : Text) : trim '/' (normalize path) = trim '/' path := by
  have trimmed : trim '/' (['/'] ++ trim '/' path ++ []) = trim '/' path :=
    trim_append (by simp) (by simp) (head?_trim '/' path) (getLast?_trim '/' path)
  rw [List.append_nil] at trimmed
  rw [normalize_eq_trim]
  exact trimmed

theorem segments_normalize (path : Text) : segments (normalize path) = segments path := by
  unfold segments parts
  rw [trim_normalize]

theorem normalize_eq_of_segments {first second : Text} (same : segments first = segments second) :
    normalize first = normalize second := by
  rw [normalize_segments, same, ← normalize_segments]

theorem normalize_normalize (path : Text) : normalize (normalize path) = normalize path :=
  normalize_eq_of_segments (segments_normalize path)

theorem owns_iff_segments {mountPath : Text} (absolute : normalize mountPath = mountPath) (proper : segments mountPath ≠ [])
    (path : Text) :
    (normalize path = mountPath ∨ (mountPath ++ ['/']) <+: normalize path) ↔ segments mountPath <+: segments path := by
  by_cases root : segments path = []
  · constructor
    · rintro (same | extended)
      · rw [← same, segments_normalize] at proper
        exact absurd root proper
      · have longer := extended.length_le
        rw [← absolute, normalize_segments mountPath, normalize_segments path, root] at longer
        simp at longer
    · intro front
      rw [root, List.prefix_nil] at front
      exact absurd front proper
  · have base := join_prefix_iff (fun _ => parts_free) (fun _ => parts_free) proper root
    rw [← base, normalize_segments path]
    conv_lhs => rw [← absolute, normalize_segments mountPath]
    rw [List.cons_append, List.cons_prefix_cons, List.cons.injEq]
    simp only [true_and]

/-! ### Tables of mounts that do not nest -/

section Table

variable {μ : Type} {mounts : Mounts μ}

/-- What the builder makes of mount paths without empty segments. -/
structure Segmented (mounts : Mounts μ) : Prop where
  sorted : Sorted mounts
  absolute : ∀ entry ∈ mounts, normalize entry.1 = entry.1
  proper : ∀ entry ∈ mounts, segments entry.1 ≠ []
  clean : ∀ entry ∈ mounts, [] ∉ segments entry.1

/-- What is relied on of a table of mounts none of which lies in another. -/
structure Table (mounts : Mounts μ) : Prop where
  sorted : Sorted mounts
  absolute : ∀ entry ∈ mounts, normalize entry.1 = entry.1
  proper : ∀ entry ∈ mounts, segments entry.1 ≠ []
  clean : ∀ entry ∈ mounts, [] ∉ segments entry.1
  apart : ∀ outer ∈ mounts, ∀ inner ∈ mounts, segments outer.1 <+: segments inner.1 → outer = inner

theorem buildMounts_proper {pending : List (Text × μ)} {result : Mounts μ} (built : buildMounts pending mounts = .ok result) :
    ∀ entry ∈ pending, entry.1 ≠ "/".toList := by
  induction pending generalizing mounts with
  | nil => simp
  | cons head rest ih =>
    rw [buildMounts] at built
    split_ifs at built with root
    intro entry member
    cases inserted : insertMount head.1 head.2 mounts with
    | none =>
      rw [inserted] at built
      cases built
    | some table =>
      rw [inserted] at built
      cases member with
      | head => exact root
      | tail _ later => exact ih built entry later

theorem Segmented.mem_owners (segmented : Segmented mounts) {path : Text} {entry : Text × μ} :
    entry ∈ owners mounts (normalize path) ↔ entry ∈ mounts ∧ segments entry.1 <+: segments path := by
  rw [owners, List.mem_filter, decide_eq_true_eq]
  constructor
  · rintro ⟨member, owns⟩
    exact ⟨member, (owns_iff_segments (segmented.absolute entry member) (segmented.proper entry member) path).mp owns⟩
  · rintro ⟨member, front⟩
    exact ⟨member, (owns_iff_segments (segmented.absolute entry member) (segmented.proper entry member) path).mpr front⟩

variable (table : Table mounts)
include table

theorem Table.segmented : Segmented mounts := ⟨table.sorted, table.absolute, table.proper, table.clean⟩

theorem Table.mem_owners {path : Text} {entry : Text × μ} :
    entry ∈ owners mounts (normalize path) ↔ entry ∈ mounts ∧ segments entry.1 <+: segments path :=
  table.segmented.mem_owners

theorem Table.owner_unique {path : Text} {first second : Text × μ} (first_mem : first ∈ mounts) (second_mem : second ∈ mounts)
    (first_owns : segments first.1 <+: segments path) (second_owns : segments second.1 <+: segments path) :
    first = second := by
  rcases List.prefix_or_prefix_of_prefix first_owns second_owns with front | front
  · exact table.apart first first_mem second second_mem front
  · exact (table.apart second second_mem first first_mem front).symm

end Table

variable {σ ω : Type} {mounts : Mounts (Mount σ ω)}

theorem build_segmented {pending : List (PendingMount σ ω)} (built : build pending = .ok mounts)
    (clean : ∀ mount ∈ pending, [] ∉ segments mount.path) : Segmented mounts := by
  have absolute : ∀ entry ∈ mounts, normalize entry.1 = entry.1 := by
    intro entry member
    obtain ⟨mount, -, rfl⟩ := (mem_build built).mp member
    exact normalize_normalize mount.path
  refine ⟨build_sorted built, absolute, ?_, ?_⟩
  · intro entry member root
    obtain ⟨mount, inside, rfl⟩ := (mem_build built).mp member
    have slashed := buildMounts_proper built (normalize mount.path, mount.mount) (List.mem_map_of_mem inside)
    apply slashed
    rw [← absolute _ member, normalize_segments, root]
    rfl
  · intro entry member
    obtain ⟨mount, inside, rfl⟩ := (mem_build built).mp member
    rw [segments_normalize]
    exact clean mount inside

theorem build_table {pending : List (PendingMount σ ω)} (built : build pending = .ok mounts)
    (clean : ∀ mount ∈ pending, [] ∉ segments mount.path)
    (apart : ∀ outer ∈ mounts, ∀ inner ∈ mounts, ¬(outer.1 ++ ['/']) <+: inner.1) : Table mounts := by
  obtain ⟨sorted, absolute, proper, parted⟩ := build_segmented built clean
  refine ⟨sorted, absolute, proper, parted, ?_⟩
  intro outer outer_mem inner inner_mem front
  have owns := (owns_iff_segments (absolute outer outer_mem) (proper outer outer_mem) inner.1).mpr front
  rw [absolute inner inner_mem] at owns
  rcases owns with same | nested
  · obtain ⟨path, mount⟩ := outer
    obtain ⟨other, second⟩ := inner
    cases same
    rw [sorted.unique outer_mem inner_mem]
  · exact absurd nested (apart outer outer_mem inner inner_mem)

/-! ### Resolving -/

/-- The path inside a mount, as `resolve_path` computes it. -/
def relative (mountPath path : Text) : Text :=
  let rel := ((normalize path).drop mountPath.length).dropWhile fun c => c = '/'
  if path.getLast? = some '/' ∧ rel ≠ [] ∧ rel.getLast? ≠ some '/' then rel ++ ['/'] else rel

theorem relative_eq {mountPath path core : Text} (shape : normalize path = mountPath ++ '/' :: core) (nonempty : core ≠ [])
    (head : core.head? ≠ some '/') (last : core.getLast? ≠ some '/') :
    relative mountPath path = core ++ if path.getLast? = some '/' then ['/'] else [] := by
  have rel : ((normalize path).drop mountPath.length).dropWhile (fun c => decide (c = '/')) = core := by
    rw [shape, List.drop_left, List.dropWhile_cons_of_pos (by simp), dropWhile_of_head? head]
  unfold relative
  dsimp only
  rw [rel]
  split_ifs with slashed dir
  · rfl
  · exact absurd slashed.1 dir
  · exact absurd ⟨‹_›, nonempty, last⟩ slashed
  · simp

theorem resolve_eq (path : Text) :
    resolve mounts path = (maxByKey (fun entry => byteLen entry.1) (owners mounts (normalize path))).map fun entry =>
      ⟨entry.1, entry.2, relative entry.1 path⟩ := by
  unfold resolve resolvePath
  rw [Option.map_map]
  rfl

theorem Table.resolve_owner (table : Table mounts) {path : Text} {entry : Text × Mount σ ω} (member : entry ∈ mounts)
    (owns : segments entry.1 <+: segments path) :
    resolve mounts path = some ⟨entry.1, entry.2, relative entry.1 path⟩ := by
  have owner := table.mem_owners.mpr ⟨member, owns⟩
  have only : ∀ other ∈ owners mounts (normalize path), other = entry := by
    intro other owning
    obtain ⟨other_mem, other_owns⟩ := table.mem_owners.mp owning
    exact table.owner_unique other_mem member other_owns owns
  rw [resolve_eq, maxByKey_of_unique (List.ne_nil_of_mem owner) only]
  rfl

theorem Table.resolve_some (table : Table mounts) {path : Text} {target : Target σ ω} (resolved : resolve mounts path = some target) :
    (target.path, target.mount) ∈ mounts ∧ segments target.path <+: segments path ∧ target.rel = relative target.path path := by
  rw [resolve_eq] at resolved
  obtain ⟨entry, greatest, rfl⟩ := Option.map_eq_some_iff.mp resolved
  obtain ⟨member, owns⟩ := table.mem_owners.mp (maxByKey_mem greatest)
  exact ⟨member, owns, rfl⟩

theorem Table.resolve_none_iff (table : Table mounts) {path : Text} :
    resolve mounts path = none ↔ ∀ entry ∈ mounts, ¬segments entry.1 <+: segments path := by
  constructor
  · intro unresolved entry member owns
    rw [table.resolve_owner member owns] at unresolved
    cases unresolved
  · intro unowned
    cases resolved : resolve mounts path with
    | none => rfl
    | some target =>
      obtain ⟨member, owns, -⟩ := table.resolve_some resolved
      exact absurd owns (unowned _ member)

/-! ### Virtual directories -/

theorem childPrefix_eq (path : Text) :
    childPrefix path = '/' :: (join '/' (segments path) ++ if segments path = [] then [] else ['/']) := by
  unfold childPrefix
  dsimp only
  rw [normalize_segments]
  by_cases root : segments path = []
  · rw [root]
    rfl
  · have nonempty : join '/' (segments path) ≠ [] := by
      rw [join_parts]
      exact mt parts_eq_nil_iff.mpr root
    have last : ('/' :: join '/' (segments path)).getLast? ≠ some '/' := by
      rw [List.getLast?_cons_of_ne_nil nonempty, join_parts]
      exact getLast?_trim '/' path
    have longer : '/' :: join '/' (segments path) ≠ "/".toList := by
      intro same
      exact nonempty (List.cons.inj same).2
    rw [if_pos ⟨longer, last⟩, if_neg root, List.cons_append]

theorem childPrefix_append {path mountPath : Text} (absolute : normalize mountPath = mountPath) {rest : List Text}
    (more : rest ≠ []) (shape : segments mountPath = segments path ++ rest) :
    mountPath = childPrefix path ++ join '/' rest := by
  rw [childPrefix_eq]
  conv_lhs => rw [← absolute, normalize_segments, shape]
  split
  next root => simp [root]
  next inner => simp [join_append '/' inner more]

theorem below_of_prefix {path mountPath : Text} (absolute : normalize mountPath = mountPath)
    (starts : childPrefix path <+: mountPath) :
    ∃ rest, segments mountPath = segments path ++ rest ∧ mountPath = childPrefix path ++ join '/' rest := by
  by_cases root : segments path = []
  · refine ⟨segments mountPath, by rw [root, List.nil_append], ?_⟩
    rw [childPrefix_eq, root]
    conv_lhs => rw [← absolute, normalize_segments]
    simp
  · rw [← absolute, normalize_segments mountPath, childPrefix_eq, if_neg root, List.cons_prefix_cons] at starts
    have deeper : segments mountPath ≠ [] := by
      intro empty
      have longer := starts.2.length_le
      rw [empty] at longer
      simp at longer
    have front := (join_prefix_iff (fun _ => parts_free) (fun _ => parts_free) root deeper).mp (.inr starts.2)
    obtain ⟨rest, shape⟩ := front
    have more : rest ≠ [] := by
      rintro rfl
      have same : segments path = segments mountPath := (List.append_nil _).symm.trans shape
      have longer := starts.2.length_le
      rw [← same, List.length_append, List.length_singleton] at longer
      omega
    exact ⟨rest, shape.symm, childPrefix_append absolute more shape.symm⟩

theorem nextSegment_eq_some {path mountPath name : Text} (absolute : normalize mountPath = mountPath)
    (clean : [] ∉ segments mountPath) :
    nextSegment (childPrefix path) mountPath = some name ↔ segments path ++ [name] <+: segments mountPath := by
  have following (rest : List Text) (shape : segments mountPath = segments path ++ rest)
      (text : mountPath = childPrefix path ++ join '/' rest) : nextSegment (childPrefix path) mountPath = rest.head? := by
    have starts : (childPrefix path).isPrefixOf mountPath = true := by
      rw [List.isPrefixOf_iff_prefix]
      exact ⟨join '/' rest, text.symm⟩
    have left : mountPath.drop (childPrefix path).length = join '/' rest := by
      conv_lhs => rw [text]
      exact List.drop_left
    have separated : Separated '/' rest := by
      intro part member
      have inside : part ∈ segments mountPath := by
        rw [shape]
        exact List.mem_append_right _ member
      exact parts_separated clean part inside
    rw [nextSegment, if_pos starts, left]
    cases rest with
    | nil => rfl
    | cons part later =>
      have first := separated.span
      rw [List.span_eq_takeWhile_dropWhile, Prod.mk.injEq] at first
      dsimp only
      rw [first.1, if_neg (separated part List.mem_cons_self).1]
      rfl
  constructor
  · intro found
    have starts : childPrefix path <+: mountPath := by
      rw [← List.isPrefixOf_iff_prefix]
      by_contra apart
      rw [nextSegment, if_neg apart] at found
      cases found
    obtain ⟨rest, shape, text⟩ := below_of_prefix absolute starts
    rw [following rest shape text] at found
    obtain ⟨later, rfl⟩ := List.head?_eq_some_iff.mp found
    exact ⟨later, by rw [shape, List.append_assoc, List.singleton_append]⟩
  · rintro ⟨later, shape⟩
    rw [List.append_assoc, List.singleton_append] at shape
    have text := childPrefix_append absolute (List.cons_ne_nil name later) shape.symm
    rw [following _ shape.symm text]
    rfl

/-- The names below a virtual directory. -/
def Names (mounts : Mounts (Mount σ ω)) (path : Text) (names : List Text) : Prop :=
  names.Nodup ∧ ∀ name, name ∈ names ↔ ∃ entry ∈ mounts, segments path ++ [name] <+: segments entry.1

theorem virtualChildren_eq (table : Table mounts) (path : Text) :
    ∃ names, Names mounts path names ∧
      virtualChildren mounts path = if names = [] ∧ segments path ≠ [] then none else some names := by
  refine ⟨(mounts.filterMap fun entry => nextSegment (childPrefix path) entry.1).dedup.insertionSort (· ≤ ·), ⟨?_, ?_⟩, ?_⟩
  · rw [(List.perm_insertionSort _ _).nodup_iff]
    exact List.nodup_dedup _
  · intro name
    rw [List.mem_insertionSort, List.mem_dedup, List.mem_filterMap]
    refine exists_congr fun entry => and_congr_right fun member => ?_
    exact nextSegment_eq_some (table.absolute entry member) (table.clean entry member)
  · have root : childPrefix path ≠ "/".toList ↔ segments path ≠ [] := by
      rw [childPrefix_eq]
      split
      next empty => simp [empty]
      next inner => simp [inner]
    unfold virtualChildren
    dsimp only
    simp only [root]

theorem Names.eq_nil_iff {path : Text} {names : List Text} (listed : Names mounts path names)
    (unowned : ∀ entry ∈ mounts, ¬segments entry.1 <+: segments path) :
    names = [] ↔ ∀ entry ∈ mounts, ¬segments path <+: segments entry.1 := by
  constructor
  · rintro rfl entry member ⟨rest, shape⟩
    cases rest with
    | nil =>
      rw [List.append_nil] at shape
      exact unowned entry member (shape ▸ List.prefix_rfl)
    | cons name later =>
      have below : segments path ++ [name] <+: segments entry.1 :=
        ⟨later, by rw [List.append_assoc, List.singleton_append, shape]⟩
      exact absurd ((listed.2 name).mpr ⟨entry, member, below⟩) List.not_mem_nil
  · intro none_below
    apply List.eq_nil_iff_forall_not_mem.mpr
    intro name member
    obtain ⟨entry, inside, below⟩ := (listed.2 name).mp member
    exact none_below entry inside ((List.prefix_append _ _).trans below)

/-- What a path that no mount owns is: a virtual directory or nothing. -/
theorem virtualChildren_isSome_iff (table : Table mounts) {path : Text}
    (unowned : ∀ entry ∈ mounts, ¬segments entry.1 <+: segments path) :
    (virtualChildren mounts path).isSome = true ↔
      segments path = [] ∨ ∃ entry ∈ mounts, segments path <+: segments entry.1 := by
  obtain ⟨names, listed, found⟩ := virtualChildren_eq table path
  have empty := listed.eq_nil_iff unowned
  rw [found]
  split_ifs with nothing
  · simp only [Option.isSome_none, Bool.false_eq_true, false_iff, not_or, not_exists, not_and]
    exact ⟨nothing.2, empty.mp nothing.1⟩
  · simp only [Option.isSome_some, true_iff]
    by_contra neither
    obtain ⟨inner, none_below⟩ := not_or.mp neither
    apply nothing
    exact ⟨empty.mpr fun entry member below => none_below ⟨entry, member, below⟩, inner⟩

theorem segments_childPath {path name : Text} (nonempty : name ≠ []) (free : '/' ∉ name) :
    segments (childPath (normalize path) name) = segments path ++ [name] := by
  have shape : childPath (normalize path) name = join '/' (segments path ++ [name]) ++ ['/'] := by
    by_cases root : segments path = []
    · rw [childPath, normalize_segments, root]
      simp
    · have inner : trim '/' path ≠ [] := mt parts_eq_nil_iff.mpr root
      have deeper : normalize path ≠ "/".toList := by
        rw [normalize_eq_trim]
        intro same
        exact inner (List.cons.inj same).2
      rw [childPath, if_neg deeper, normalize_eq_trim, List.dropWhile_cons_of_pos (by simp),
        dropWhile_of_head? (head?_trim '/' path), join_append '/' root (List.cons_ne_nil name []), join_parts]
      simp
  have pieces : ∀ piece ∈ segments path ++ [name], '/' ∉ piece := by
    intro piece member
    rcases List.mem_append.mp member with old | new
    · exact parts_free old
    · rw [List.mem_singleton.mp new]
      exact free
  have last : (join '/' (segments path ++ [name])).getLast? = name.getLast? := by
    by_cases root : segments path = []
    · rw [root, List.nil_append, join_singleton]
    · rw [join_append '/' root (List.cons_ne_nil name []), join_singleton,
        List.getLast?_append_of_ne_nil _ (List.cons_ne_nil '/' name), List.getLast?_cons_of_ne_nil nonempty]
  have head : (join '/' (segments path ++ [name])).head? ≠ some '/' := by
    by_cases root : segments path = []
    · rw [root, List.nil_append, join_singleton]
      exact fun at_head => free (List.mem_of_head? at_head)
    · rw [join_append '/' root (List.cons_ne_nil name []), List.head?_append_of_ne_nil, join_parts]
      · exact head?_trim '/' path
      · rw [join_parts]
        exact mt parts_eq_nil_iff.mpr root
  have trimmed : trim '/' (childPath (normalize path) name) = join '/' (segments path ++ [name]) := by
    have cut : trim '/' ([] ++ join '/' (segments path ++ [name]) ++ ['/']) = join '/' (segments path ++ [name]) := by
      refine trim_append (by simp) (by simp) head ?_
      rw [last]
      exact fun at_end => free (List.mem_of_getLast? at_end)
    rw [shape]
    exact cut
  refine parts_of_trim trimmed pieces ?_
  intro empty
  rw [← trimmed, empty] at last
  exact nonempty (List.getLast?_eq_none_iff.mp last.symm)

/-! ### Metadata -/

def IsNotFound {α : Type} (result : Except Error α) : Prop := ∃ error, result = .error error ∧ error.kind = .notFound

/-- A mount point is a directory, and on other paths in a mount its operator is asked. -/
theorem metadata_owned (table : Table mounts) {path : Text} {target : Target σ ω} (resolved : resolve mounts path = some target)
    (answer : ω) (stores : Stores σ) :
    metadata mounts answer stores path =
      if normalize path = target.path then .ok dirMetadata else target.stat answer stores := by
  obtain ⟨-, -, rel⟩ := table.resolve_some resolved
  have inner_root : normalize path = target.path → target.rel = [] := by
    intro same
    rw [rel, relative, same]
    simp
  rw [metadata, resolved]
  dsimp only
  by_cases same : normalize path = target.path
  · rw [if_pos ⟨same, inner_root same⟩, if_pos same]
  · rw [if_neg fun both => same both.1, if_neg same]

theorem metadata_unowned {path : Text} (unresolved : resolve mounts path = none) (answer : ω) (stores : Stores σ) :
    metadata mounts answer stores path =
      if (virtualChildren mounts path).isSome then .ok dirMetadata else .error pathNotFound := by
  rw [metadata, unresolved]

theorem metadata_notFound_iff (table : Table mounts) (path : Text) (answer : ω) (stores : Stores σ) :
    IsNotFound (metadata mounts answer stores path) ↔
      (∃ target, resolve mounts path = some target ∧ normalize path ≠ target.path ∧ IsNotFound (target.stat answer stores)) ∨
      (∀ entry ∈ mounts, ¬segments entry.1 <+: segments path) ∧ segments path ≠ [] ∧
        ∀ entry ∈ mounts, ¬segments path <+: segments entry.1 := by
  cases resolved : resolve mounts path with
  | some target =>
    obtain ⟨member, owns, -⟩ := table.resolve_some resolved
    rw [metadata_owned table resolved]
    constructor
    · intro missing
      split_ifs at missing with same
      · obtain ⟨error, found, -⟩ := missing
        cases found
      · exact .inl ⟨target, rfl, same, missing⟩
    · rintro (⟨other, found, different, missing⟩ | ⟨unowned, -⟩)
      · cases found
        rw [if_neg different]
        exact missing
      · exact absurd owns (unowned _ member)
  | none =>
    have unowned := table.resolve_none_iff.mp resolved
    have directory := virtualChildren_isSome_iff table unowned
    rw [metadata_unowned resolved]
    constructor
    · intro missing
      refine .inr ⟨unowned, ?_⟩
      split_ifs at missing with listed
      · obtain ⟨error, found, -⟩ := missing
        cases found
      · obtain ⟨inner, none_below⟩ := not_or.mp (mt directory.mpr listed)
        exact ⟨inner, fun entry member below => none_below ⟨entry, member, below⟩⟩
    · rintro (⟨target, found, -⟩ | ⟨-, inner, none_below⟩)
      · cases found
      · have missing : ¬(virtualChildren mounts path).isSome = true := by
          rw [directory]
          rintro (root | ⟨entry, member, below⟩)
          · exact inner root
          · exact none_below entry member below
        rw [if_neg missing]
        exact ⟨pathNotFound, rfl, rfl⟩

theorem metadata_above (table : Table mounts) {path : Text} {entry : Text × Mount σ ω} (member : entry ∈ mounts)
    (above : segments path <+: segments entry.1) (answer : ω) (stores : Stores σ) :
    metadata mounts answer stores path = .ok dirMetadata := by
  cases resolved : resolve mounts path with
  | some target =>
    obtain ⟨inside, owns, -⟩ := table.resolve_some resolved
    have same : (target.path, target.mount) = entry := table.apart _ inside _ member (owns.trans above)
    have whole : segments path = segments target.path := by
      subst same
      exact above.eq_of_length_le owns.length_le
    rw [metadata_owned table resolved, if_pos]
    rw [normalize_eq_of_segments whole, table.absolute _ inside]
  | none =>
    have unowned := table.resolve_none_iff.mp resolved
    have directory := (virtualChildren_isSome_iff table unowned).mpr (.inr ⟨entry, member, above⟩)
    rw [metadata_unowned resolved, if_pos directory]

/-! ### Entries -/

/-- What the calls of `next` yield, up to the end of the listing. -/
def drain : List (ω × Stores σ) → Lister σ ω → List (Except Error Entry)
  | [], _ => []
  | (answer, stores) :: rest, lister =>
    match lister.next answer stores with
    | (.ok none, _) => []
    | (.ok (some entry), lister) => .ok entry :: drain rest lister
    | (.error error, lister) => .error error :: drain rest lister

theorem drain_virtual (calls : List (ω × Stores σ)) (entries : List Entry) :
    drain calls (.virtual entries) = (entries.reverse.take calls.length).map .ok := by
  induction calls generalizing entries with
  | nil => simp [drain]
  | cons call rest ih =>
    rcases List.eq_nil_or_concat entries with rfl | ⟨front, last, rfl⟩
    · simp [drain, Lister.next]
    · rw [List.concat_eq_append]
      simp only [drain, Lister.next, List.getLast?_concat, List.dropLast_concat, ih, List.reverse_append,
        List.reverse_singleton, List.singleton_append, List.length_cons, List.take_succ_cons, List.map_cons]

/-- An entry the mounted file system shows for one of the mount's own. -/
def Shows (target : Target σ ω) (listed entry : Entry) : Prop :=
  trim '/' listed.path ≠ trim '/' target.rel ∧ entry = ⟨rebase target.path listed.path, listed.metadata⟩

theorem nextReal_spec (target : Target σ ω) (entries : List (Except Error Entry)) :
    ∃ rest, rest ⊆ entries ∧ (nextReal target entries).2 = .real target (some rest) ∧
      ∀ entry, (nextReal target entries).1 = .ok (some entry) → ∃ listed, .ok listed ∈ entries ∧ Shows target listed entry := by
  induction entries with
  | nil =>
    refine ⟨[], List.Subset.refl _, rfl, ?_⟩
    intro entry yielded
    cases yielded
  | cons head rest ih =>
    cases head with
    | error error =>
      refine ⟨rest, List.subset_cons_self _ _, rfl, ?_⟩
      intro entry yielded
      cases yielded
    | ok listed =>
      rw [nextReal]
      split_ifs with itself
      · obtain ⟨later, inside, shape, shown⟩ := ih
        refine ⟨later, List.subset_cons_of_subset _ inside, shape, ?_⟩
        intro entry yielded
        obtain ⟨other, member, shows⟩ := shown entry yielded
        exact ⟨other, List.mem_cons_of_mem _ member, shows⟩
      · refine ⟨rest, List.subset_cons_self _ _, rfl, ?_⟩
        intro entry yielded
        cases yielded
        exact ⟨listed, List.mem_cons_self, itself, rfl⟩

/-- Whatever a real directory yields, its mount has listed: `property` is one that all
inner entries have. -/
theorem drain_real (property : Entry → Prop) {target : Target σ ω} {inner : Option (List (Except Error Entry))}
    {calls : List (ω × Stores σ)} {entry : Entry} (yielded : .ok entry ∈ drain calls (.real target inner))
    (opened : ∀ entries, inner = some entries → ∀ listed, .ok listed ∈ entries → property listed)
    (opening : ∀ call ∈ calls, ∀ entries, target.mount.operator.list target.rel call.1 (call.2 target.path) = .ok entries →
      ∀ listed, .ok listed ∈ entries → property listed) :
    ∃ listed, property listed ∧ Shows target listed entry := by
  induction calls generalizing inner with
  | nil => cases yielded
  | cons call rest ih =>
    obtain ⟨answer, stores⟩ := call
    have later : ∀ call ∈ rest, ∀ entries,
        target.mount.operator.list target.rel call.1 (call.2 target.path) = .ok entries →
        ∀ listed, .ok listed ∈ entries → property listed :=
      fun call member => opening call (List.mem_cons_of_mem _ member)
    have follow (entries : List (Except Error Entry)) (known : ∀ listed, .ok listed ∈ entries → property listed)
        (step : (Lister.real target inner).next answer stores = nextReal target entries) :
        ∃ listed, property listed ∧ Shows target listed entry := by
      obtain ⟨left, inside, shape, shown⟩ := nextReal_spec target entries
      have remaining : ∀ more, some left = some more → ∀ listed, .ok listed ∈ more → property listed := by
        intro more same listed member
        cases same
        exact known listed (inside member)
      rw [drain, step] at yielded
      rcases found : nextReal target entries with ⟨result, lister⟩
      rw [found] at shape yielded shown
      cases shape
      cases result with
      | error error =>
        rcases List.mem_cons.mp yielded with same | member
        · cases same
        · exact ih member remaining later
      | ok next =>
        cases next with
        | none => cases yielded
        | some first =>
          rcases List.mem_cons.mp yielded with same | member
          · cases same
            obtain ⟨listed, present, shows⟩ := shown entry rfl
            exact ⟨listed, known listed present, shows⟩
          · exact ih member remaining later
    cases inner with
    | some entries => exact follow entries (opened entries rfl) rfl
    | none =>
      cases answered : target.mount.operator.list target.rel answer (stores target.path) with
      | ok entries =>
        refine follow entries (opening _ List.mem_cons_self entries answered) ?_
        simp only [Lister.next, answered]
      | error error =>
        simp only [drain, Lister.next, answered] at yielded
        rcases List.mem_cons.mp yielded with same | member
        · cases same
        · exact ih member opened later

/-- A path as operators hand it out: without a slash at its beginning, and with at most
one at its end. -/
def EntryPath (path : Text) : Prop :=
  ∃ core, core ≠ [] ∧ core.head? ≠ some '/' ∧ core.getLast? ≠ some '/' ∧ (path = core ∨ path = core ++ ['/'])

/-- Listings hold such paths, besides the listed directory itself. -/
def ListsPaths (operator : Operator σ ω) : Prop :=
  ∀ rel answer store entries, operator.list rel answer store = .ok entries →
    ∀ listed, .ok listed ∈ entries → trim '/' listed.path = trim '/' rel ∨ EntryPath listed.path

theorem PendingMount.lists (mount : PendingMount σ ω) : mount.mount.operator.list = mount.operator.list := by
  unfold PendingMount.mount
  split <;> rfl

theorem rebase_eq {mountPath core closing : Text} (absolute : normalize mountPath = mountPath) (proper : segments mountPath ≠ [])
    (nonempty : core ≠ []) (head : core.head? ≠ some '/') :
    rebase mountPath (core ++ closing) = mountPath ++ '/' :: core ++ closing := by
  have last : mountPath.getLast? ≠ some '/' := by
    rw [← absolute, normalize_eq_trim, List.getLast?_cons_of_ne_nil (mt parts_eq_nil_iff.mpr proper)]
    exact getLast?_trim '/' mountPath
  have starts : (core ++ closing).head? ≠ some '/' := by
    rw [List.head?_append_of_ne_nil _ nonempty]
    exact head
  rw [rebase, rdropWhile_of_getLast? last, dropWhile_of_head? starts, List.append_assoc, List.cons_append]

/-- The path of an entry, rebased, leads back to the mount and the inner path. -/
theorem resolve_rebase (table : Table mounts) {entry : Text × Mount σ ω} (member : entry ∈ mounts) {path : Text}
    (inside : EntryPath path) :
    resolve mounts (rebase entry.1 path) = some ⟨entry.1, entry.2, path⟩ ∧
      ∃ core, trim '/' path = core ∧ core ≠ [] ∧ core.head? ≠ some '/' ∧ core.getLast? ≠ some '/' ∧
        normalize (rebase entry.1 path) = entry.1 ++ '/' :: core := by
  obtain ⟨core, nonempty, head, last, dir⟩ := inside
  obtain ⟨closing, shape, slashes⟩ : ∃ closing : Text, path = core ++ closing ∧ (closing = [] ∨ closing = ['/']) := by
    rcases dir with rfl | rfl
    · exact ⟨[], (List.append_nil _).symm, .inl rfl⟩
    · exact ⟨['/'], rfl, .inr rfl⟩
  have all : ∀ c ∈ closing, c = '/' := by
    rcases slashes with rfl | rfl <;> simp
  have absolute := table.absolute entry member
  have rebased : rebase entry.1 path = entry.1 ++ '/' :: core ++ closing := by
    rw [shape]
    exact rebase_eq absolute (table.proper entry member) nonempty head
  have core_end : (trim '/' entry.1 ++ '/' :: core).getLast? ≠ some '/' := by
    rw [List.getLast?_append_of_ne_nil _ (List.cons_ne_nil _ _), List.getLast?_cons_of_ne_nil nonempty]
    exact last
  have core_start : (trim '/' entry.1 ++ '/' :: core).head? ≠ some '/' := by
    rw [List.head?_append_of_ne_nil _ (mt parts_eq_nil_iff.mpr (table.proper entry member))]
    exact head?_trim '/' entry.1
  have normalized : normalize (rebase entry.1 path) = entry.1 ++ '/' :: core := by
    have cut : trim '/' (['/'] ++ (trim '/' entry.1 ++ '/' :: core) ++ closing) = trim '/' entry.1 ++ '/' :: core :=
      trim_append (by simp) all core_start core_end
    have same : entry.1 ++ '/' :: core ++ closing = ['/'] ++ (trim '/' entry.1 ++ '/' :: core) ++ closing := by
      conv_lhs => rw [← absolute, normalize_eq_trim]
      simp
    rw [normalize_eq_trim, rebased, same, cut]
    conv_rhs => rw [← absolute, normalize_eq_trim]
    rfl
  have owns : segments entry.1 <+: segments (rebase entry.1 path) := by
    apply (owns_iff_segments absolute (table.proper entry member) _).mp
    refine .inr ⟨core, ?_⟩
    rw [normalized, List.append_assoc, List.singleton_append]
  refine ⟨?_, core, ?_, nonempty, head, last, normalized⟩
  · rw [table.resolve_owner member owns, relative_eq normalized nonempty head last, rebased]
    rcases slashes with rfl | rfl
    · rw [List.append_nil, List.getLast?_append_of_ne_nil _ (List.cons_ne_nil _ _), List.getLast?_cons_of_ne_nil nonempty,
        if_neg last, shape]
    · rw [List.getLast?_concat, if_pos rfl, shape]
  · have cut : trim '/' ([] ++ core ++ closing) = core := trim_append (by simp) all head last
    rw [shape]
    exact cut

theorem rebase_ne_directory (table : Table mounts) {path : Text} {target : Target σ ω}
    (resolved : resolve mounts path = some target) {inner : Text} (inside : EntryPath inner)
    (other : trim '/' inner ≠ trim '/' target.rel) : normalize (rebase target.path inner) ≠ normalize path := by
  intro same
  obtain ⟨member, -, rel⟩ := table.resolve_some resolved
  obtain ⟨-, core, trimmed, nonempty, head, last, normalized⟩ := resolve_rebase table member inside
  rw [same] at normalized
  rw [relative_eq normalized nonempty head last] at rel
  have cut (closing : Text) (all : ∀ c ∈ closing, c = '/') : trim '/' (core ++ closing) = core := by
    have whole : trim '/' ([] ++ core ++ closing) = core := trim_append (by simp) all head last
    exact whole
  apply other
  rw [rel, trimmed, cut]
  intro c slash
  split at slash
  · exact List.mem_singleton.mp slash
  · cases slash

theorem list_virtual (table : Table mounts) {path : Text} (unresolved : resolve mounts path = none)
    (directory : segments path = [] ∨ ∃ entry ∈ mounts, segments path <+: segments entry.1) :
    ∃ names, Names mounts path names ∧
      list mounts path = .ok (.virtual (names.map fun name => ⟨childPath (normalize path) name, dirMetadata⟩)) := by
  obtain ⟨names, listed, found⟩ := virtualChildren_eq table path
  have present := (virtualChildren_isSome_iff table (table.resolve_none_iff.mp unresolved)).mpr directory
  refine ⟨names, listed, ?_⟩
  have some_names : ¬(names = [] ∧ segments path ≠ []) := by
    intro nothing
    rw [found, if_pos nothing] at present
    cases present
  rw [list, unresolved, found, if_neg some_names]

theorem Names.separated {path name : Text} {names : List Text} (table : Table mounts) (listed : Names mounts path names)
    (member : name ∈ names) : name ≠ [] ∧ '/' ∉ name := by
  obtain ⟨entry, inside, below⟩ := (listed.2 name).mp member
  have part : name ∈ segments entry.1 := below.subset (List.mem_append_right _ List.mem_cons_self)
  exact parts_separated (table.clean entry inside) name part

theorem virtual_entries (table : Table mounts) {path : Text} (unresolved : resolve mounts path = none)
    (directory : segments path = [] ∨ ∃ entry ∈ mounts, segments path <+: segments entry.1) :
    ∃ (lister : Lister σ ω) (entries : List Entry), list mounts path = .ok lister ∧
      (entries.map fun entry => segments entry.path).Nodup ∧
      (∀ child, child ∈ entries.map (fun entry => segments entry.path) ↔
        ∃ name, child = segments path ++ [name] ∧ ∃ mount ∈ mounts, child <+: segments mount.1) ∧
      ∀ calls, drain calls lister = (entries.take calls.length).map .ok := by
  obtain ⟨names, listed, found⟩ := list_virtual table unresolved directory
  have children : (names.map fun name => (⟨childPath (normalize path) name, dirMetadata⟩ : Entry)).map
      (fun entry => segments entry.path) = names.map fun name => segments path ++ [name] := by
    rw [List.map_map]
    refine List.map_congr_left fun name member => ?_
    obtain ⟨nonempty, free⟩ := listed.separated table member
    exact segments_childPath nonempty free
  refine ⟨_, (names.map fun name => ⟨childPath (normalize path) name, dirMetadata⟩).reverse, found, ?_, ?_, ?_⟩
  · rw [List.map_reverse, children, List.nodup_reverse]
    refine listed.1.map fun first second same => ?_
    exact List.singleton_injective (List.append_cancel_left same)
  · intro child
    rw [List.map_reverse, children, List.mem_reverse, List.mem_map]
    constructor
    · rintro ⟨name, member, rfl⟩
      exact ⟨name, rfl, (listed.2 name).mp member⟩
    · rintro ⟨name, rfl, below⟩
      exact ⟨name, (listed.2 name).mpr below, rfl⟩
  · intro calls
    exact drain_virtual calls _

/-- What is found by listing directories, beginning at the root. -/
inductive Reached (mounts : Mounts (Mount σ ω)) : Text → Prop where
  | root : Reached mounts "/".toList
  | child {path : Text} {lister : Lister σ ω} {entry : Entry} (calls : List (ω × Stores σ)) (reached : Reached mounts path)
    (listed : list mounts path = .ok lister) (yielded : .ok entry ∈ drain calls lister) : Reached mounts entry.path

/-- Every directory above a mount is found, one segment after another. -/
theorem reached_above (table : Table mounts) (answer : ω) (stores : Stores σ) {entry : Text × Mount σ ω} (member : entry ∈ mounts)
    (front : List Text) (above : front <+: segments entry.1) : ∃ path, Reached mounts path ∧ segments path = front := by
  induction front using List.reverseRecOn with
  | nil => exact ⟨"/".toList, .root, rfl⟩
  | append_singleton front name ih =>
    obtain ⟨path, reached, shape⟩ := ih ((List.prefix_append _ _).trans above)
    have unowned : ∀ other ∈ mounts, ¬segments other.1 <+: segments path := by
      intro other other_mem owns
      rw [shape] at owns
      have same := table.apart other other_mem entry member (owns.trans ((List.prefix_append _ _).trans above))
      rw [same] at owns
      have shorter := (above.trans owns).length_le
      rw [List.length_append, List.length_singleton] at shorter
      omega
    have directory : segments path <+: segments entry.1 := by
      rw [shape]
      exact (List.prefix_append _ _).trans above
    obtain ⟨lister, entries, listed, -, children, drained⟩ :=
      virtual_entries table (table.resolve_none_iff.mpr unowned) (.inr ⟨entry, member, directory⟩)
    have shown := (children (front ++ [name])).mpr ⟨name, by rw [shape], entry, member, above⟩
    obtain ⟨found, inside, child⟩ := List.mem_map.mp shown
    refine ⟨found.path, .child (List.replicate entries.length (answer, stores)) reached listed ?_, child⟩
    rw [drained, List.length_replicate, List.take_length]
    exact List.mem_map_of_mem inside

/-- Listing and resolving agree. A virtual directory shows the next segments of the mounts
below it, each once and each a directory; a directory in a mount shows entries whose paths
lead back to the mount and its own paths for them, and never itself; every mount is found
by listing from the root; and a path has no metadata exactly when no mount has it and it
is no directory above a mount. -/
theorem listing_agrees_with_resolving (pending : List (PendingMount σ ω)) (mounts : Mounts (Mount σ ω))
    (built : build pending = .ok mounts) (clean : ∀ mount ∈ pending, [] ∉ segments mount.path)
    (apart : ∀ outer ∈ mounts, ∀ inner ∈ mounts, ¬(outer.1 ++ ['/']) <+: inner.1)
    (lists : ∀ mount ∈ pending, ListsPaths mount.operator) :
    (∀ path, resolve mounts path = none → (segments path = [] ∨ ∃ mount ∈ mounts, segments path <+: segments mount.1) →
      ∃ (lister : Lister σ ω) (entries : List Entry), list mounts path = .ok lister ∧
      (entries.map fun entry => segments entry.path).Nodup ∧
        (∀ child, child ∈ entries.map (fun entry => segments entry.path) ↔
          ∃ name, child = segments path ++ [name] ∧ ∃ mount ∈ mounts, child <+: segments mount.1) ∧
        (∀ calls, drain calls lister = (entries.take calls.length).map .ok) ∧
        ∀ entry ∈ entries, ∀ answer stores, (metadata mounts answer stores entry.path).map Metadata.mode = .ok .dir) ∧
    (∀ path target, resolve mounts path = some target →
      ∃ lister, list mounts path = .ok lister ∧ ∀ (calls : List (ω × Stores σ)) (entry : Entry), .ok entry ∈ drain calls lister →
        normalize entry.path ≠ normalize path ∧
        ∃ call ∈ calls, ∃ inner, target.mount.operator.list target.rel call.1 (call.2 target.path) = .ok inner ∧
          ∃ listed, .ok listed ∈ inner ∧ entry.metadata = listed.metadata ∧
            resolve mounts entry.path = some ⟨target.path, target.mount, listed.path⟩) ∧
    (∀ (_ : ω) (_ : Stores σ), ∀ mount ∈ mounts, ∃ path, Reached mounts path ∧ normalize path = mount.1) ∧
    ∀ path answer stores, IsNotFound (metadata mounts answer stores path) ↔
      (∃ target, resolve mounts path = some target ∧ normalize path ≠ target.path ∧ IsNotFound (target.stat answer stores)) ∨
      resolve mounts path = none ∧ normalize path ≠ "/".toList ∧ ∀ mount ∈ mounts, ¬segments path <+: segments mount.1 := by
  have table := build_table built clean apart
  refine ⟨?_, ?_, ?_, ?_⟩
  · intro path unresolved directory
    obtain ⟨lister, entries, listed, once, children, drained⟩ := virtual_entries table unresolved directory
    refine ⟨lister, entries, listed, once, children, drained, ?_⟩
    intro entry member answer stores
    have child := (children (segments entry.path)).mp (List.mem_map_of_mem member)
    obtain ⟨name, -, mount, inside, above⟩ := child
    rw [metadata_above table inside above]
    rfl
  · intro path target resolved
    refine ⟨.real target none, by rw [list, resolved], ?_⟩
    intro calls entry yielded
    obtain ⟨member, -, -⟩ := table.resolve_some resolved
    have from_mount := drain_real (fun listed => ∃ call ∈ calls, ∃ inner,
      target.mount.operator.list target.rel call.1 (call.2 target.path) = .ok inner ∧ .ok listed ∈ inner) yielded
      (fun entries opened => by cases opened)
      (fun call called entries answered listed present => ⟨call, called, entries, answered, present⟩)
    obtain ⟨listed, ⟨call, called, inner, answered, present⟩, other, rfl⟩ := from_mount
    obtain ⟨mount, pending_mem, same⟩ := (mem_build built).mp member
    have inside : EntryPath listed.path := by
      have operator : target.mount.operator.list = mount.operator.list := by
        rw [← PendingMount.lists mount]
        exact congrArg (fun entry => entry.2.operator.list) same.symm
      rw [operator] at answered
      exact (lists mount pending_mem _ _ _ _ answered listed present).resolve_left other
    refine ⟨rebase_ne_directory table resolved inside other, call, called, inner, answered, listed, present, rfl, ?_⟩
    exact (resolve_rebase table member inside).1
  · intro answer stores mount member
    obtain ⟨path, reached, shape⟩ := reached_above table answer stores member _ List.prefix_rfl
    refine ⟨path, reached, ?_⟩
    rw [normalize_eq_of_segments shape, table.absolute mount member]
  · intro path answer stores
    have root : segments path ≠ [] ↔ normalize path ≠ "/".toList := by
      rw [normalize_eq_trim, ne_eq, parts_eq_nil_iff]
      exact not_congr ⟨fun empty => by rw [empty]; rfl, fun same => (List.cons.inj same).2⟩
    rw [metadata_notFound_iff table, table.resolve_none_iff, root]

/-- A backend in which every directory holds itself and one directory. -/
def shelf : Operator Unit Unit where
  nativeCopy := false
  nativeRename := false
  change := fun _ _ store => (store, .ok ())
  stat := fun _ _ _ => .error pathNotFound
  read := fun _ _ _ => .ok []
  list := fun rel _ _ => .ok [.ok ⟨rel, dirMetadata⟩, .ok ⟨"box/".toList, dirMetadata⟩]

def shelfMounts : List (PendingMount Unit Unit) :=
  [⟨"/points/docs".toList, shelf, false⟩, ⟨"/points/photos/".toList, shelf, false⟩, ⟨"repos/docs".toList, shelf, true⟩]

/-- The directory `box` of a mount leads back to it, and the mount is found from the root. -/
theorem shelf_is_listed_as_resolved : ∃ mounts, build shelfMounts = .ok mounts ∧
    (∃ target lister, resolve mounts "points/photos/".toList = some target ∧
      list mounts "points/photos/".toList = .ok lister ∧
      drain [((), fun _ => ()), ((), fun _ => ())] lister = [.ok ⟨"/points/photos/box/".toList, dirMetadata⟩] ∧
      resolve mounts "/points/photos/box/".toList = some ⟨target.path, target.mount, "box/".toList⟩) ∧
    ∀ mount ∈ mounts, ∃ path, Reached mounts path ∧ normalize path = mount.1 := by
  refine ⟨_, rfl, ⟨_, _, rfl, rfl, rfl, rfl⟩, ?_⟩
  have box : EntryPath "box/".toList := ⟨"box".toList, by decide, by decide, by decide, .inr rfl⟩
  have listing : ListsPaths shelf := by
    intro rel answer store entries answered listed member
    cases answered
    rcases List.mem_cons.mp member with same | later
    · cases same
      exact .inl rfl
    · cases List.mem_singleton.mp later
      exact .inr box
  have agrees := listing_agrees_with_resolving shelfMounts _ rfl (by decide) (by decide) (by
    intro mount member
    simp only [shelfMounts, List.mem_cons, List.not_mem_nil, or_false] at member
    rcases member with rfl | rfl | rfl <;> exact listing)
  exact agrees.2.2.1 () fun _ => ()

end Vaulton.Proofs.MountListing
