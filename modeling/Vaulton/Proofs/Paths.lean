import Vaulton.Paths
import Vaulton.Proofs.Config

/-! The point that `resolve_point_path` finds is the point whose mount `resolve_path`
finds. Every path the server passes on is a slash followed by plain segments joined by
slashes; both resolvers are described on the segments. -/

namespace Vaulton.Proofs.Paths
open Vaulton.Lib Vaulton.Config Vaulton.Paths Vaulton.Proofs.Config

/-! ### Point-relative paths -/

def Plain (segments : List Text) : Prop := ∀ segment ∈ segments, PlainSegment segment

theorem Plain.separated {segments : List Text} (plain : Plain segments) : Separated '/' segments :=
  fun segment member => ⟨(plain segment member).nonempty, (plain segment member).noSlash⟩

theorem Plain.tail {segment : Text} {rest : List Text} (plain : Plain (segment :: rest)) : Plain rest :=
  fun other member => plain other (List.mem_cons_of_mem segment member)

theorem replaceSeparators_self {path : Text} (free : '\\' ∉ path) : replaceSeparators path = path := by
  unfold replaceSeparators
  refine (List.map_congr_left ?_).trans (List.map_id path)
  intro c member
  have different : c ≠ '\\' := by
    rintro rfl
    exact free member
  exact if_neg different

theorem backslash_notMem_replaceSeparators (path : Text) : '\\' ∉ replaceSeparators path := by
  intro member
  obtain ⟨c, -, same⟩ := List.mem_map.mp member
  split at same
  · cases same
  next different => exact different same

theorem Plain.backslash_notMem {segments : List Text} (plain : Plain segments) : '\\' ∉ join '/' segments := by
  induction segments with
  | nil => simp
  | cons segment rest ih =>
    have free := (plain segment (by simp)).noBackslash
    by_cases empty : rest = []
    · simpa [empty] using free
    · rw [join_cons empty]
      simp [free, ih plain.tail]

private theorem innerComponent_plain {path segment value : Text} (free : '\\' ∉ path) (part : segment ∈ path.splitOn '/')
    (found : innerComponent segment = some (.normal value)) : PlainSegment value := by
  unfold innerComponent at found
  split at found
  · cases found
  next visible =>
    split at found
    · cases found
    next notParent =>
      cases found
      obtain ⟨noSlash, inside⟩ := of_mem_splitOn part
      rw [not_or] at visible
      exact ⟨visible.1, noSlash, fun member => free (inside member), visible.2, notParent⟩

theorem components_plain {path value : Text} (free : '\\' ∉ path) (member : .normal value ∈ components path) :
    PlainSegment value := by
  unfold components at member
  split at member
  · cases member
  next first rest parts =>
    rcases List.mem_append.mp member with here | later
    · split at here
      · simp at here
      · split at here
        · simp at here
        · exact innerComponent_plain free (by simp [parts]) (Option.mem_toList.mp here)
    · obtain ⟨segment, inside, found⟩ := List.mem_filterMap.mp later
      exact innerComponent_plain free (by simp [parts, inside]) found

private theorem normalComponents_mem {rest : Text} {parts : List Component} {values : List Text}
    (accepted : normalComponents rest parts = .ok values) : ∀ value ∈ values, .normal value ∈ parts := by
  induction parts generalizing values with
  | nil =>
    cases accepted
    simp
  | cons part later ih =>
    cases part with
    | normal first =>
      obtain ⟨tail, before, last⟩ := bind_eq_ok.mp accepted
      cases last
      intro value member
      rcases List.mem_cons.mp member with rfl | inside
      · simp
      · exact List.mem_cons_of_mem _ (ih before value inside)
    | parentDir => cases accepted
    | _ => exact fun value member => List.mem_cons_of_mem _ (ih accepted value member)

theorem validateRelativePointPath_plain {path result : Text} (accepted : validateRelativePointPath path = .ok result) :
    ∃ segments, Plain segments ∧ result = join '/' segments := by
  obtain ⟨values, found, last⟩ := bind_eq_ok.mp accepted
  cases last
  have plain : Plain values := fun value member =>
    components_plain (backslash_notMem_replaceSeparators path) (normalComponents_mem found value member)
  exact ⟨values, plain, replaceSeparators_self plain.backslash_notMem⟩

theorem innerComponent_of_plain {segment : Text} (plain : PlainSegment segment) :
    innerComponent segment = some (.normal segment) := by
  rw [innerComponent, if_neg (not_or.mpr ⟨plain.nonempty, plain.notDot⟩), if_neg plain.notDotDot]

theorem components_join {segments : List Text} (plain : Plain segments) :
    components (join '/' segments) = segments.map .normal := by
  cases segments with
  | nil => rfl
  | cons first rest =>
    have head := plain first (by simp)
    have later : rest.filterMap innerComponent = rest.map .normal := by
      rw [← List.filterMap_eq_map]
      exact List.filterMap_congr fun segment member => innerComponent_of_plain (plain.tail segment member)
    unfold components
    rw [plain.separated.splitOn (by simp)]
    dsimp only
    rw [if_neg fun both => head.nonempty both.2, if_neg head.notDot, innerComponent_of_plain head, later]
    rfl

theorem normalComponents_map (path : Text) (segments : List Text) :
    normalComponents path (segments.map .normal) = .ok segments := by
  induction segments with
  | nil => rfl
  | cons segment rest ih =>
    rw [List.map_cons, normalComponents, ih]
    rfl

theorem validateRelativePointPath_join {segments : List Text} (plain : Plain segments) :
    validateRelativePointPath (join '/' segments) = .ok (join '/' segments) := by
  have free := plain.backslash_notMem
  unfold validateRelativePointPath
  rw [replaceSeparators_self free, components_join plain, normalComponents_map]
  exact congrArg Except.ok (replaceSeparators_self free)

/-! ### The server's resolver -/

def pointRoot (point : VfsPoint) : Text := if point.isRepo then reposRoot else pointsRoot

theorem pointMountPath_eq (point : VfsPoint) : pointMountPath point = '/' :: join '/' [pointRoot point, point.name] := by
  unfold pointMountPath pointRoot
  split <;> simp [join_cons, repoMountPath, dataMountPath]

theorem pointRoot_plain (point : VfsPoint) : PlainSegment (pointRoot point) := by
  unfold pointRoot
  split <;> exact ⟨by decide, by decide, by decide, by decide, by decide⟩

theorem mount_plain {user : VfsUser} (named : NamedPoints user) {point : VfsPoint} (member : point ∈ user.points) :
    Plain [pointRoot point, point.name] := by
  intro segment inside
  simp only [List.mem_cons, List.not_mem_nil, or_false] at inside
  rcases inside with rfl | rfl
  · exact pointRoot_plain point
  · exact named.plain point member

theorem rootKind_eq_some {root : Text} {isRepo : Bool} :
    rootKind root = some isRepo ↔ root = if isRepo then reposRoot else pointsRoot := by
  unfold rootKind
  have different : reposRoot ≠ pointsRoot := by decide
  cases isRepo <;> split <;> simp_all [different.symm]

theorem findPointId_mem {parseUuid : Text → Option Uuid} {user : VfsUser} {id : Text} {point : VfsPoint}
    (found : findPointId parseUuid user id = .ok point) : point ∈ user.points := by
  unfold findPointId at found
  split at found
  · cases found
  · split at found
    · cases found
    next single =>
      cases found
      have member : point ∈ user.points.filter _ := single ▸ List.mem_singleton_self point
      exact List.mem_of_mem_filter member
    · cases found

/-- Every path the server resolves is absolute and made of plain segments. -/
theorem resolveFilePath_plain {parseUuid : Text → Option Uuid} {user : VfsUser} (named : NamedPoints user)
    {file : FilePath} {path : Text} (resolved : resolveFilePath parseUuid user file = .ok path) :
    ∃ segments, Plain segments ∧ path = '/' :: join '/' segments := by
  cases file with
  | blank => cases resolved
  | virtual requested =>
    obtain ⟨normalized, accepted, last⟩ := bind_eq_ok.mp resolved
    obtain ⟨segments, plain, rfl⟩ := validateRelativePointPath_plain accepted
    cases last
    refine ⟨segments, plain, ?_⟩
    split
    next empty =>
      rw [empty]
      rfl
    next => rfl
  | indexed pointId pointPath =>
    obtain ⟨point, found, later⟩ := bind_eq_ok.mp resolved
    obtain ⟨rel, accepted, last⟩ := bind_eq_ok.mp later
    obtain ⟨segments, plain, rfl⟩ := validateRelativePointPath_plain accepted
    cases last
    have mount := mount_plain named (findPointId_mem found)
    split
    next empty => exact ⟨[pointRoot point, point.name], mount, pointMountPath_eq point⟩
    next more =>
      have nonempty : segments ≠ [] := fun empty => more (by rw [empty]; rfl)
      refine ⟨[pointRoot point, point.name] ++ segments, ?_, ?_⟩
      · intro segment member
        rcases List.mem_append.mp member with inside | inside
        · exact mount segment inside
        · exact plain segment inside
      · rw [join_append _ (by simp) nonempty, pointMountPath_eq]
        rfl

theorem splitOnce_join {part : Text} {rest : List Text} (plain : Plain (part :: rest)) :
    splitOnce (join '/' (part :: rest)) = (part, if rest = [] then none else some (join '/' rest)) := by
  unfold splitOnce
  rw [plain.separated.span]
  split
  next first empty =>
    obtain ⟨rfl, tail⟩ := Prod.mk.inj empty
    split at tail
    next none_left => rw [if_pos none_left]
    next => cases tail
  next first c later more =>
    obtain ⟨rfl, tail⟩ := Prod.mk.inj more
    split at tail
    next => cases tail
    next some_left =>
      cases tail
      rw [if_neg some_left]

theorem dropWhile_slash {segments : List Text} (separated : Separated '/' segments) :
    ('/' :: join '/' segments).dropWhile (fun c => c = '/') = join '/' segments := by
  rw [List.dropWhile_cons_of_pos (by simp)]
  have first := separated.head?
  generalize join '/' segments = text at first
  cases text with
  | nil => rfl
  | cons c rest => exact List.dropWhile_cons_of_neg (by simpa using first)

/-- `resolve_point_path` takes the first segment for the kind, the second for the name
and the others for the path inside the point. -/
theorem resolvePointPath_ok {user : VfsUser} {segments : List Text} (plain : Plain segments) {point : VfsPoint} {rest : Text} :
    resolvePointPath user ('/' :: join '/' segments) = .ok (point, rest) ↔
      ∃ root name inner isRepo, segments = root :: name :: inner ∧ rootKind root = some isRepo ∧
        findPoint user name isRepo = .ok point ∧ rest = join '/' inner := by
  unfold resolvePointPath
  rw [dropWhile_slash plain.separated]
  cases segments with
  | nil =>
    constructor
    · intro resolved
      cases resolved
    · rintro ⟨root, name, inner, isRepo, split, -⟩
      cases split
  | cons first later =>
    rw [splitOnce_join plain]
    dsimp only
    cases kind : rootKind first with
    | none =>
      constructor
      · intro resolved
        cases resolved
      · rintro ⟨root, name, inner, isRepo, split, known, -⟩
        cases split
        rw [kind] at known
        cases known
    | some isRepo =>
      cases later with
      | nil =>
        constructor
        · intro resolved
          cases resolved
        · rintro ⟨root, name, inner, isRepo, split, -⟩
          cases split
      | cons name inner =>
        have inside : (if inner = [] then none else some (join '/' inner)).getD [] = join '/' inner := by
          split
          next empty =>
            rw [empty]
            rfl
          next => rfl
        simp only [List.cons_ne_nil, if_false, Option.map_some, splitOnce_join plain.tail]
        split
        next empty => cases empty
        next second _ missing =>
          cases missing
          exact absurd rfl (plain [] (by simp)).nonempty
        next second rest' _ given =>
          cases given
          rw [inside, validateRelativePointPath_join plain.tail.tail]
          constructor
          · intro resolved
            obtain ⟨-, ⟨⟩, resolved⟩ := bind_eq_ok.mp resolved
            obtain ⟨found_point, found, last⟩ := bind_eq_ok.mp resolved
            cases last
            exact ⟨first, name, inner, isRepo, rfl, kind, found, rfl⟩
          · rintro ⟨root, other, others, known, split, kind', found, rfl⟩
            cases split
            rw [kind] at kind'
            cases kind'
            exact bind_eq_ok.mpr ⟨_, rfl, bind_eq_ok.mpr ⟨point, found, rfl⟩⟩

theorem key_injective {user : VfsUser} (named : NamedPoints user) {first second : VfsPoint} (first_mem : first ∈ user.points)
    (second_mem : second ∈ user.points) (same : VfsPoint.key first = VfsPoint.key second) : first = second :=
  List.inj_on_of_nodup_map named.distinct first_mem second_mem same

theorem findPoint_ok {user : VfsUser} (named : NamedPoints user) {name : Text} {isRepo : Bool} {point : VfsPoint} :
    findPoint user name isRepo = .ok point ↔ point ∈ user.points ∧ point.name = name ∧ point.isRepo = isRepo := by
  unfold findPoint
  constructor
  · intro found
    split at found
    next other first =>
      cases found
      have agrees := List.find?_some first
      exact ⟨List.mem_of_find?_eq_some first, of_decide_eq_true agrees⟩
    next => cases found
  · rintro ⟨member, rfl, rfl⟩
    split
    next other first =>
      have chosen := List.find?_some first
      have agrees : other.name = point.name ∧ other.isRepo = point.isRepo := of_decide_eq_true chosen
      have same : other = point :=
        key_injective named (List.mem_of_find?_eq_some first) member (Prod.ext agrees.2 agrees.1)
      rw [same]
    next missing =>
      have absent := List.find?_eq_none.mp missing point member
      simp at absent

/-! ### The mount table -/

section Mounts

variable {μ : Type}

private theorem trimSlashes_join {segments : List Text} (separated : Separated '/' segments) (closing : Text)
    (slashes : ∀ c ∈ closing, c = '/') : trimSlashes ('/' :: join '/' segments ++ closing) = join '/' segments := by
  have trimmed : trim '/' (['/'] ++ join '/' segments ++ closing) = join '/' segments :=
    trim_append (by simp) slashes separated.head? separated.getLast?
  exact trimmed

theorem normalize_join {segments : List Text} (separated : Separated '/' segments) (closing : Text)
    (slashes : ∀ c ∈ closing, c = '/') :
    normalize ('/' :: join '/' segments ++ closing) = '/' :: join '/' segments := by
  unfold Vaulton.Paths.normalize
  rw [trimSlashes_join separated closing slashes]
  split
  next empty =>
    rw [empty]
    rfl
  next => rfl

theorem getLast_join {segments : List Text} (separated : Separated '/' segments) (nonempty : segments ≠ []) (isDir : Bool) :
    ('/' :: join '/' segments ++ if isDir then ['/'] else []).getLast? = some '/' ↔ isDir = true := by
  cases isDir with
  | true =>
    rw [if_pos rfl, List.getLast?_append]
    simp
  | false =>
    have text : join '/' segments ≠ [] := mt separated.join_eq_nil.mp nonempty
    obtain ⟨c, last⟩ := Option.ne_none_iff_exists'.mp (mt List.getLast?_eq_none_iff.mp text)
    have different := separated.getLast?
    rw [last] at different
    simpa [List.getLast?_cons, last] using different

theorem fixPath_join {segments : List Text} (plain : Plain segments) (nonempty : segments ≠ []) (isDir : Bool) :
    fixPath ('/' :: join '/' segments) isDir = '/' :: join '/' segments ++ if isDir then ['/'] else [] := by
  have last : ('/' :: join '/' segments).getLast? ≠ some '/' := by
    simpa using (getLast_join plain.separated nonempty false).not
  have free : '\\' ∉ '/' :: join '/' segments := by
    simp [plain.backslash_notMem]
  unfold fixPath
  simp only [List.head?_cons, if_true, last, not_false_eq_true, ne_eq, and_true, and_false, if_false]
  cases isDir
  · simpa using replaceSeparators_self free
  · refine (replaceSeparators_self ?_).trans (by simp)
    simpa using free

theorem fixPath_slashed {segments : List Text} (plain : Plain segments) :
    fixPath ('/' :: join '/' segments ++ ['/']) true = '/' :: join '/' segments ++ ['/'] := by
  have free : '\\' ∉ '/' :: join '/' segments ++ ['/'] := by
    simp [plain.backslash_notMem]
  have absolute : ('/' :: join '/' segments ++ ['/']).head? = some '/' := rfl
  have last : ('/' :: join '/' segments ++ ['/']).getLast? = some '/' := by
    rw [List.getLast?_append]
    rfl
  unfold fixPath
  dsimp only
  rw [if_pos absolute, if_neg fun both => both.2 last, if_neg (by simp)]
  exact replaceSeparators_self free

theorem insertMount_some {path : Text} (mount : μ) {mounts : Mounts μ} (fresh : path ∉ mounts.map Prod.fst) :
    ∃ result, insertMount path mount mounts = some result ∧
      ∀ entry, entry ∈ result ↔ entry = (path, mount) ∨ entry ∈ mounts := by
  induction mounts with
  | nil => exact ⟨[(path, mount)], rfl, by simp⟩
  | cons head rest ih =>
    obtain ⟨key, other⟩ := head
    simp only [List.map_cons, List.mem_cons, not_or] at fresh
    unfold insertMount
    rw [if_neg fresh.1]
    split
    · exact ⟨_, rfl, by simp⟩
    · obtain ⟨result, inserted, content⟩ := ih fresh.2
      refine ⟨(key, other) :: result, by rw [inserted]; rfl, ?_⟩
      intro entry
      simp only [List.mem_cons, content]
      tauto

theorem buildMounts_ok {pending : List (Text × μ)} {mounts : Mounts μ} (distinct : (pending.map Prod.fst).Nodup)
    (fresh : ∀ path ∈ pending.map Prod.fst, path ≠ "/".toList ∧ path ∉ mounts.map Prod.fst) :
    ∃ result, buildMounts pending mounts = .ok result ∧ ∀ entry, entry ∈ result ↔ entry ∈ pending ∨ entry ∈ mounts := by
  induction pending generalizing mounts with
  | nil => exact ⟨mounts, rfl, by simp⟩
  | cons head rest ih =>
    obtain ⟨path, mount⟩ := head
    obtain ⟨notRoot, absent⟩ := fresh path (by simp)
    obtain ⟨inserted, step, content⟩ := insertMount_some mount absent
    rw [List.map_cons, List.nodup_cons] at distinct
    have stillFresh : ∀ other ∈ rest.map Prod.fst, other ≠ "/".toList ∧ other ∉ inserted.map Prod.fst := by
      intro other member
      obtain ⟨otherNotRoot, otherAbsent⟩ := fresh other (by simp [member])
      refine ⟨otherNotRoot, ?_⟩
      intro taken
      obtain ⟨entry, inside, same⟩ := List.mem_map.mp taken
      rcases (content entry).mp inside with rfl | old
      · exact distinct.1 (same ▸ member)
      · exact otherAbsent (List.mem_map.mpr ⟨entry, old, same⟩)
    obtain ⟨result, built, whole⟩ := ih distinct.2 stillFresh
    refine ⟨result, ?_, ?_⟩
    · unfold buildMounts
      rw [if_neg notRoot, step]
      exact built
    · intro entry
      rw [whole, content, List.mem_cons]
      tauto

theorem normalize_mount {user : VfsUser} (named : NamedPoints user) {point : VfsPoint} (member : point ∈ user.points) :
    normalize (pointMountPath point) = pointMountPath point := by
  have same := normalize_join (mount_plain named member).separated [] (by simp)
  rw [List.append_nil] at same
  rw [pointMountPath_eq, same]

theorem pointRoot_injective {first second : VfsPoint} (same : pointRoot first = pointRoot second) :
    first.isRepo = second.isRepo := by
  have different : reposRoot ≠ pointsRoot := by decide
  unfold pointRoot at same
  cases one : first.isRepo <;> cases two : second.isRepo <;> simp_all [different.symm]

theorem pointMountPath_injective {user : VfsUser} (named : NamedPoints user) {first second : VfsPoint}
    (first_mem : first ∈ user.points) (second_mem : second ∈ user.points)
    (same : pointMountPath first = pointMountPath second) : first = second := by
  rw [pointMountPath_eq, pointMountPath_eq] at same
  have texts := (List.cons.inj same).2
  have parts : [pointRoot first, first.name] = [pointRoot second, second.name] := by
    rw [← (mount_plain named first_mem).separated.splitOn (by simp), texts,
      (mount_plain named second_mem).separated.splitOn (by simp)]
  simp only [List.cons.injEq, and_true] at parts
  exact key_injective named first_mem second_mem (Prod.ext (pointRoot_injective parts.1) parts.2)

/-- The builder accepts the mounts of any of the points, in any order, and keeps each of them. -/
theorem buildMounts_chosen {user : VfsUser} (named : NamedPoints user) (operator : VfsPoint → μ) {chosen : List VfsPoint}
    (once : chosen.Nodup) (inside : ∀ point ∈ chosen, point ∈ user.points) :
    ∃ mounts, buildMounts (pendingMounts operator chosen) [] = .ok mounts ∧
      ∀ entry, entry ∈ mounts ↔ ∃ point ∈ chosen, entry = (pointMountPath point, operator point) := by
  have paths : (pendingMounts operator chosen).map Prod.fst = chosen.map pointMountPath := by
    rw [pendingMounts, List.map_map]
    exact List.map_congr_left fun point member => normalize_mount named (inside point member)
  have distinct : ((pendingMounts operator chosen).map Prod.fst).Nodup := by
    rw [paths]
    refine List.Nodup.map_on ?_ once
    intro first first_mem second second_mem same
    exact pointMountPath_injective named (inside first first_mem) (inside second second_mem) same
  obtain ⟨mounts, built, content⟩ := @buildMounts_ok μ _ [] distinct (by
    intro path member
    rw [paths] at member
    obtain ⟨point, -, rfl⟩ := List.mem_map.mp member
    refine ⟨?_, by simp⟩
    rw [pointMountPath_eq, join_cons (by simp)]
    intro short
    have lengths := congrArg List.length short
    simp at lengths)
  refine ⟨mounts, built, ?_⟩
  intro entry
  rw [content, pendingMounts, List.mem_map]
  constructor
  · rintro (⟨point, member, rfl⟩ | none)
    · exact ⟨point, member, by rw [normalize_mount named (inside point member)]⟩
    · cases none
  · rintro ⟨point, member, rfl⟩
    exact .inl ⟨point, member, by rw [normalize_mount named (inside point member)]⟩

/-- So it does for the points that could be loaded. -/
theorem buildMounts_points {user : VfsUser} (named : NamedPoints user) (operator : VfsPoint → μ) (loaded : VfsPoint → Bool) :
    ∃ mounts, buildMounts (pendingMounts operator (user.points.filter loaded)) [] = .ok mounts ∧
      ∀ entry, entry ∈ mounts ↔
        ∃ point ∈ user.points, loaded point = true ∧ entry = (pointMountPath point, operator point) := by
  have once : (user.points.filter loaded).Nodup := named.distinct.of_map.filter _
  obtain ⟨mounts, built, content⟩ :=
    buildMounts_chosen named operator once fun point member => List.mem_of_mem_filter member
  refine ⟨mounts, built, ?_⟩
  intro entry
  rw [content]
  constructor
  · intro ⟨point, member, same⟩
    obtain ⟨owned, accepted⟩ := List.mem_filter.mp member
    exact ⟨point, owned, accepted, same⟩
  · intro ⟨point, owned, accepted, same⟩
    exact ⟨point, List.mem_filter.mpr ⟨owned, accepted⟩, same⟩

theorem maxByKey_of_unique {α : Type} {key : α → Nat} {items : List α} {only : α} (nonempty : items ≠ [])
    (unique : ∀ item ∈ items, item = only) : maxByKey key items = some only := by
  obtain ⟨first, rest, rfl⟩ := List.exists_cons_of_ne_nil nonempty
  obtain rfl := unique first (by simp)
  have folded : rest.foldl (fun best item => if key best ≤ key item then item else best) first = first := by
    have others : ∀ item ∈ rest, item = first := fun item member => unique item (by simp [member])
    clear unique nonempty
    induction rest with
    | nil => rfl
    | cons item later ih =>
      obtain rfl := others item (by simp)
      rw [List.foldl_cons, if_pos (Nat.le_refl _)]
      exact ih fun other member => others other (by simp [member])
  rw [maxByKey, folded]

theorem owns_iff {user : VfsUser} (named : NamedPoints user) {point : VfsPoint} (member : point ∈ user.points)
    {segments : List Text} (separated : Separated '/' segments) :
    ('/' :: join '/' segments = pointMountPath point ∨ (pointMountPath point ++ ['/']) <+: '/' :: join '/' segments) ↔
      [pointRoot point, point.name] <+: segments := by
  have mount := mount_plain named member
  rw [pointMountPath_eq, List.cons_append, List.cons_prefix_cons, List.cons.injEq]
  simp only [true_and]
  by_cases empty : segments = []
  · subst segments
    have text : join '/' [pointRoot point, point.name] ≠ [] := mt mount.separated.join_eq_nil.mp (by simp)
    simp [text.symm]
  · exact mount.separated.prefix_iff separated (by simp) empty

theorem normalize_fixPath {segments : List Text} (plain : Plain segments) (isDir : Bool) :
    normalize (fixPath ('/' :: join '/' segments) isDir) = '/' :: join '/' segments := by
  by_cases empty : segments = []
  · subst segments
    cases isDir <;> rfl
  · rw [fixPath_join plain empty]
    exact normalize_join plain.separated _ (by cases isDir <;> simp)

/-- The mounts that own a path, as `resolve_path` filters them. -/
def owners (mounts : Mounts μ) (normalized : Text) : Mounts μ :=
  mounts.filter fun entry => normalized = entry.1 ∨ (entry.1 ++ ['/']) <+: normalized

theorem mem_owners {user : VfsUser} (named : NamedPoints user) {operator : VfsPoint → μ} {loaded : VfsPoint → Bool}
    {mounts : Mounts μ} (content : ∀ entry, entry ∈ mounts ↔
      ∃ point ∈ user.points, loaded point = true ∧ entry = (pointMountPath point, operator point))
    {segments : List Text} (separated : Separated '/' segments) {entry : Text × μ} :
    entry ∈ owners mounts ('/' :: join '/' segments) ↔
      ∃ point ∈ user.points, loaded point = true ∧ [pointRoot point, point.name] <+: segments ∧
        entry = (pointMountPath point, operator point) := by
  rw [owners, List.mem_filter, content, decide_eq_true_eq]
  constructor
  · rintro ⟨⟨point, member, present, rfl⟩, owns⟩
    exact ⟨point, member, present, (owns_iff named member separated).mp owns, rfl⟩
  · rintro ⟨point, member, present, front, rfl⟩
    exact ⟨⟨point, member, present, rfl⟩, (owns_iff named member separated).mpr front⟩

/-- The relative path and its trailing slash. -/
private theorem relative_path {point : VfsPoint} {inner : List Text}
    (separated : Separated '/' (pointRoot point :: point.name :: inner)) (isDir : Bool) (rel : Text)
    (found : rel = (('/' :: join '/' (pointRoot point :: point.name :: inner)).drop
      (pointMountPath point).length).dropWhile fun c => c = '/') :
    (if ('/' :: join '/' (pointRoot point :: point.name :: inner) ++ if isDir then ['/'] else []).getLast? = some '/' ∧
        rel ≠ [] ∧ rel.getLast? ≠ some '/' then rel ++ ['/'] else rel) =
      join '/' inner ++ if isDir = true ∧ join '/' inner ≠ [] then ['/'] else [] := by
  have inside := separated.tail.tail
  have value : rel = join '/' inner := by
    have whole : '/' :: join '/' (pointRoot point :: point.name :: inner) =
        pointMountPath point ++ if inner = [] then [] else '/' :: join '/' inner := by
      rw [pointMountPath_eq]
      split
      next empty => simp [empty]
      next more =>
        have joined := join_append '/' (List.cons_ne_nil (pointRoot point) [point.name]) more
        rw [List.cons_append, ← joined]
        rfl
    rw [found, whole, List.drop_left]
    split
    next empty => simp [empty]
    next => exact dropWhile_slash inside
  simp only [value, getLast_join separated (by simp), inside.getLast?, ne_eq, not_false_eq_true, and_true]
  split <;> simp

/-- On a path under a point, `resolve_path` finds that point's mount when it is loaded. -/
theorem resolvePath_join {user : VfsUser} (named : NamedPoints user) {operator : VfsPoint → μ} {loaded : VfsPoint → Bool}
    {mounts : Mounts μ} (content : ∀ entry, entry ∈ mounts ↔
      ∃ point ∈ user.points, loaded point = true ∧ entry = (pointMountPath point, operator point))
    {point : VfsPoint} (member : point ∈ user.points) {inner : List Text}
    (separated : Separated '/' (pointRoot point :: point.name :: inner)) (isDir : Bool) :
    resolvePath mounts ('/' :: join '/' (pointRoot point :: point.name :: inner) ++ if isDir then ['/'] else []) =
      if loaded point then some (pointMountPath point, operator point,
        join '/' inner ++ if isDir = true ∧ join '/' inner ≠ [] then ['/'] else [])
      else none := by
  have only (other : VfsPoint) (other_mem : other ∈ user.points)
      (front : [pointRoot other, other.name] <+: pointRoot point :: point.name :: inner) : other = point := by
    simp only [List.cons_prefix_cons] at front
    exact key_injective named other_mem member (Prod.ext (pointRoot_injective front.1) front.2.1)
  unfold resolvePath
  dsimp only
  rw [normalize_join separated _ (by cases isDir <;> simp)]
  change (maxByKey _ (owners mounts _)).map _ = _
  cases present : loaded point with
  | false =>
    have none_own : owners mounts ('/' :: join '/' (pointRoot point :: point.name :: inner)) = [] := by
      apply List.eq_nil_iff_forall_not_mem.mpr
      intro entry owner
      obtain ⟨other, other_mem, other_loaded, front, -⟩ := (mem_owners named content separated).mp owner
      rw [only other other_mem front, present] at other_loaded
      cases other_loaded
    rw [none_own]
    rfl
  | true =>
    have own : (pointMountPath point, operator point) ∈ owners mounts ('/' :: join '/' (pointRoot point :: point.name :: inner)) :=
      (mem_owners named content separated).mpr ⟨point, member, present, ⟨inner, rfl⟩, rfl⟩
    have unique : ∀ entry ∈ owners mounts ('/' :: join '/' (pointRoot point :: point.name :: inner)),
        entry = (pointMountPath point, operator point) := by
      intro entry owner
      obtain ⟨other, other_mem, -, front, rfl⟩ := (mem_owners named content separated).mp owner
      rw [only other other_mem front]
    rw [maxByKey_of_unique (List.ne_nil_of_mem own) unique, Option.map_some, if_pos rfl]
    rw [relative_path separated isDir _ rfl]

theorem resolvePath_inside {user : VfsUser} (named : NamedPoints user) {operator : VfsPoint → μ} {loaded : VfsPoint → Bool}
    {mounts : Mounts μ} (content : ∀ entry, entry ∈ mounts ↔
      ∃ point ∈ user.points, loaded point = true ∧ entry = (pointMountPath point, operator point))
    {point : VfsPoint} (member : point ∈ user.points) {inner : List Text}
    (plain : Plain (pointRoot point :: point.name :: inner)) (isDir : Bool) :
    resolvePath mounts (fixPath ('/' :: join '/' (pointRoot point :: point.name :: inner)) isDir) =
      if loaded point then some (pointMountPath point, operator point,
        join '/' inner ++ if isDir = true ∧ join '/' inner ≠ [] then ['/'] else [])
      else none := by
  rw [fixPath_join plain (by simp)]
  exact resolvePath_join named content member plain.separated isDir

theorem resolvePath_outside {user : VfsUser} (named : NamedPoints user) {operator : VfsPoint → μ} {loaded : VfsPoint → Bool}
    {mounts : Mounts μ} (content : ∀ entry, entry ∈ mounts ↔
      ∃ point ∈ user.points, loaded point = true ∧ entry = (pointMountPath point, operator point))
    {segments : List Text} (plain : Plain segments)
    (outside : ∀ point ∈ user.points, ¬[pointRoot point, point.name] <+: segments) (isDir : Bool) :
    resolvePath mounts (fixPath ('/' :: join '/' segments) isDir) = none := by
  have none_own : owners mounts ('/' :: join '/' segments) = [] := by
    apply List.eq_nil_iff_forall_not_mem.mpr
    intro entry owner
    obtain ⟨point, member, -, front, -⟩ := (mem_owners named content plain.separated).mp owner
    exact outside point member front
  unfold resolvePath
  dsimp only
  rw [normalize_fixPath plain]
  change (maxByKey _ (owners mounts _)).map _ = _
  rw [none_own]
  rfl

end Mounts

/-- The point whose permission is checked is the point whose storage is touched. -/
theorem checked_point_is_touched_point {μ : Type} (parseUuid : Text → Option Uuid) (operator : VfsPoint → μ)
    (request users : List VfsUser) (normalized : normalizeVfsUsers request = .ok users) (user : VfsUser)
    (member : user ∈ users) (loaded : VfsPoint → Bool) (file : FilePath) (path : Text)
    (resolved : resolveFilePath parseUuid user file = .ok path) (isDir : Bool) :
    ∃ mounts, buildMounts (pendingMounts operator (user.points.filter loaded)) [] = .ok mounts ∧
      (∀ point rest, resolvePointPath user path = .ok (point, rest) →
        resolvePath mounts (fixPath path isDir) =
          if loaded point then
            some (pointMountPath point, operator point, rest ++ if isDir = true ∧ rest ≠ [] then ['/'] else [])
          else none) ∧
      ∀ error, resolvePointPath user path = .error error → resolvePath mounts (fixPath path isDir) = none := by
  have named := normalizeVfsUsers_named normalized user member
  obtain ⟨mounts, built, content⟩ := buildMounts_points named operator loaded
  obtain ⟨segments, plain, rfl⟩ := resolveFilePath_plain named resolved
  refine ⟨mounts, built, ?_, ?_⟩
  · intro point rest answered
    obtain ⟨root, name, inner, isRepo, rfl, kind, found, rfl⟩ := (resolvePointPath_ok plain).mp answered
    obtain ⟨point_mem, rfl, rfl⟩ := (findPoint_ok named).mp found
    obtain rfl : root = pointRoot point := rootKind_eq_some.mp kind
    exact resolvePath_inside named content point_mem plain isDir
  · intro error failed
    apply resolvePath_outside named content plain
    rintro point point_mem ⟨inner, rfl⟩
    have found : resolvePointPath user ('/' :: join '/' ([pointRoot point, point.name] ++ inner)) =
        .ok (point, join '/' inner) :=
      (resolvePointPath_ok plain).mpr ⟨pointRoot point, point.name, inner, point.isRepo, rfl,
        rootKind_eq_some.mpr rfl, (findPoint_ok named).mpr ⟨point_mem, rfl, rfl⟩, rfl⟩
    rw [found] at failed
    cases failed

def namedPoint (id : Nat) (name : String) (isRepo : Bool) : VfsPoint where
  id := BitVec.ofNat 128 id
  name := name.toList
  maxBytes := none
  readOnly := false
  scheme := "fs".toList
  config := []
  isRepo := isRepo
  repoPassword := if isRepo then some "secret".toList else none

/-- One name is a prefix of another, and one is used for both kinds. -/
def alice : VfsUser := ⟨"alice".toList, [namedPoint 1 "docs" false, namedPoint 2 "docs-old" false, namedPoint 3 "docs" true]⟩

theorem alice_path_touches_docs : ∃ mounts,
    buildMounts (pendingMounts VfsPoint.id (alice.points.filter fun _ => true)) [] = .ok mounts ∧
    resolvePath mounts (fixPath "/points/docs/a".toList true) =
      some ("/points/docs".toList, 1, "a/".toList) := by
  obtain ⟨mounts, built, touched, -⟩ := checked_point_is_touched_point (fun _ => none) VfsPoint.id [alice] [alice] rfl alice
    (by simp) (fun _ => true) (.virtual "points\\docs//./a".toList) "/points/docs/a".toList rfl true
  exact ⟨mounts, built, touched (namedPoint 1 "docs" false) "a".toList rfl⟩

end Vaulton.Proofs.Paths
