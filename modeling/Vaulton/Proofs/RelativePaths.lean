import Vaulton.Proofs.Paths

/-! Client paths relative to a point, for all texts: which are accepted, what is left of
them, and where they lead on the disk. The parts of a text, cut at both separators, decide
all of it. -/

namespace Vaulton.Proofs.RelativePaths
open Vaulton.Lib Vaulton.Config Vaulton.Paths Vaulton.Proofs.Config Vaulton.Proofs.Paths

def dot : Text := ".".toList

def dotDot : Text := "..".toList

/-- The parts between separators. -/
def rawParts (path : Text) : List Text := (replaceSeparators path).splitOn '/'

/-- The parts that name something. -/
def visible (parts : List Text) : List Text := parts.filter fun part => part ≠ [] ∧ part ≠ dot

/-! ### Components -/

/-- The name in a component. -/
def nameOf : Component → Option Text
  | .normal value => some value
  | _ => none

theorem normalComponents_error {rest : Text} {parts : List Component} (climbs : .parentDir ∈ parts) :
    ∃ status, normalComponents rest parts = .error status := by
  induction parts with
  | nil => cases climbs
  | cons part later ih =>
    rcases List.mem_cons.mp climbs with rfl | inside
    · exact ⟨_, rfl⟩
    · obtain ⟨status, failed⟩ := ih inside
      cases part with
      | normal value =>
        refine ⟨status, ?_⟩
        rw [normalComponents, failed]
        rfl
      | curDir => exact ⟨status, failed⟩
      | rootDir => exact ⟨status, failed⟩
      | parentDir => exact ⟨_, rfl⟩

theorem normalComponents_names {rest : Text} {parts : List Component} (stays : .parentDir ∉ parts) :
    normalComponents rest parts = .ok (parts.filterMap nameOf) := by
  induction parts with
  | nil => rfl
  | cons part later ih =>
    have answer := ih fun inside => stays (List.mem_cons_of_mem part inside)
    cases part with
    | normal value =>
      rw [normalComponents, answer]
      rfl
    | curDir => exact answer
    | rootDir => exact answer
    | parentDir => exact absurd List.mem_cons_self stays

theorem innerComponent_parentDir {part : Text} : innerComponent part = some .parentDir ↔ part = dotDot := by
  unfold innerComponent
  split
  next hidden =>
    constructor
    · intro impossible
      cases impossible
    · intro same
      rw [same] at hidden
      revert hidden
      decide
  next =>
    split
    next same => exact ⟨fun _ => same, fun _ => rfl⟩
    next different =>
      constructor
      · intro impossible
        cases impossible
      · intro same
        exact absurd same different

theorem innerComponent_name {part : Text} (stays : part ≠ dotDot) :
    (innerComponent part).bind nameOf = if part ≠ [] ∧ part ≠ dot then some part else none := by
  unfold innerComponent
  split
  next hidden =>
    have unnamed : ¬(part ≠ [] ∧ part ≠ dot) := fun both => hidden.elim both.1 both.2
    rw [if_neg unnamed]
    rfl
  next shown =>
    have named : part ≠ [] ∧ part ≠ dot := not_or.mp shown
    rw [if_neg (show part ≠ "..".toList from stays), if_pos named]
    rfl

theorem filterMap_innerComponent {parts : List Text} (stays : dotDot ∉ parts) :
    (parts.filterMap innerComponent).filterMap nameOf = visible parts := by
  rw [List.filterMap_filterMap, visible, ← List.filterMap_eq_filter]
  apply List.filterMap_congr
  intro part member
  rw [innerComponent_name fun same => stays (same ▸ member), Option.guard]
  simp only [decide_eq_true_eq]

theorem parentDir_mem_innerComponents {parts : List Text} :
    .parentDir ∈ parts.filterMap innerComponent ↔ dotDot ∈ parts := by
  rw [List.mem_filterMap]
  constructor
  · intro ⟨part, member, found⟩
    exact innerComponent_parentDir.mp found ▸ member
  · intro member
    exact ⟨dotDot, member, innerComponent_parentDir.mpr rfl⟩

/-- Only the first part is read in another way: empty it is the root, and a dot stays. -/
theorem components_eq (path : Text) : ∃ front, components path = front ++ ((path.splitOn '/').filterMap innerComponent) ∧
    (front = [] ∨ front = [.rootDir] ∨ front = [.curDir]) := by
  obtain ⟨first, rest, parts⟩ := List.exists_cons_of_ne_nil (List.splitOn_ne_nil '/' path)
  unfold components
  rw [parts]
  by_cases rooted : rest ≠ [] ∧ first = []
  · refine ⟨[.rootDir], ?_, .inr (.inl rfl)⟩
    simp only [if_pos rooted]
    rw [rooted.2]
    rfl
  · by_cases current : first = ".".toList
    · refine ⟨[.curDir], ?_, .inr (.inr rfl)⟩
      simp only [if_neg rooted, if_pos current]
      rw [current]
      rfl
    · refine ⟨[], ?_, .inl rfl⟩
      simp only [if_neg rooted, if_neg current, List.filterMap_cons, List.nil_append]
      cases innerComponent first <;> rfl

theorem parentDir_mem_components (path : Text) : .parentDir ∈ components path ↔ dotDot ∈ path.splitOn '/' := by
  obtain ⟨front, split, kinds⟩ := components_eq path
  have plain : .parentDir ∉ front := by
    rcases kinds with rfl | rfl | rfl <;> decide
  rw [split, List.mem_append, parentDir_mem_innerComponents]
  exact or_iff_right plain

theorem components_names {path : Text} (stays : dotDot ∉ path.splitOn '/') :
    (components path).filterMap nameOf = visible (path.splitOn '/') := by
  obtain ⟨front, split, kinds⟩ := components_eq path
  have unnamed : front.filterMap nameOf = [] := by
    rcases kinds with rfl | rfl | rfl <;> rfl
  rw [split, List.filterMap_append, unnamed, filterMap_innerComponent stays, List.nil_append]

/-! ### Accepted paths -/

theorem visible_plain {path : Text} (stays : dotDot ∉ rawParts path) : Plain (visible (rawParts path)) := by
  intro part member
  obtain ⟨raw, shown⟩ := List.mem_filter.mp member
  obtain ⟨noSlash, inside⟩ := of_mem_splitOn raw
  obtain ⟨nonempty, notDot⟩ := of_decide_eq_true shown
  refine ⟨nonempty, noSlash, ?_, notDot, fun same => stays ((show part = dotDot from same) ▸ raw)⟩
  intro backslash
  exact backslash_notMem_replaceSeparators path (inside backslash)

theorem validateRelativePointPath_error {path : Text} (climbs : dotDot ∈ rawParts path) :
    ∃ status, validateRelativePointPath path = .error status := by
  have found : .parentDir ∈ components (replaceSeparators path) := (parentDir_mem_components _).mpr climbs
  obtain ⟨status, failed⟩ := normalComponents_error found
  refine ⟨status, ?_⟩
  rw [validateRelativePointPath, failed]
  rfl

theorem validateRelativePointPath_visible {path : Text} (stays : dotDot ∉ rawParts path) :
    validateRelativePointPath path = .ok (join '/' (visible (rawParts path))) := by
  have inside : .parentDir ∉ components (replaceSeparators path) := mt (parentDir_mem_components _).mp stays
  have free := (visible_plain stays).backslash_notMem
  rw [validateRelativePointPath, normalComponents_names inside, components_names stays]
  exact congrArg Except.ok (replaceSeparators_self free)

theorem validateRelativePointPath_ok_iff {path result : Text} : validateRelativePointPath path = .ok result ↔
    dotDot ∉ rawParts path ∧ result = join '/' (visible (rawParts path)) := by
  constructor
  · intro accepted
    have stays : dotDot ∉ rawParts path := by
      intro climbs
      obtain ⟨status, failed⟩ := validateRelativePointPath_error climbs
      rw [failed] at accepted
      cases accepted
    rw [validateRelativePointPath_visible stays] at accepted
    cases accepted
    exact ⟨stays, rfl⟩
  · intro ⟨stays, same⟩
    rw [same]
    exact validateRelativePointPath_visible stays

/-! ### On the disk -/

theorem splitOn_free {value : Text} (free : '/' ∉ value) : value.splitOn '/' = [value] := by
  have single : (join '/' [value]).splitOn '/' = [value] := by
    apply List.splitOn_intercalate '/' _ (List.cons_ne_nil _ _)
    intro part member
    rw [List.mem_singleton.mp member]
    exact free
  rwa [join_singleton] at single

theorem components_slash (init : Text) {value : Text} (free : '/' ∉ value) :
    components (init ++ '/' :: value) = components (init ++ ['/']) ++ (innerComponent value).toList := by
  obtain ⟨first, rest, parts⟩ := List.exists_cons_of_ne_nil (List.splitOn_ne_nil '/' init)
  have longer : (init ++ '/' :: value).splitOn '/' = first :: (rest ++ [value]) := by
    rw [List.splitOn_append_cons_self, parts, splitOn_free free, List.cons_append]
  have ended : (init ++ ['/']).splitOn '/' = first :: (rest ++ [[]]) := by
    rw [List.splitOn_append_cons_self, parts, List.splitOn_nil, List.cons_append]
  unfold components
  rw [longer, ended]
  simp only [ne_eq, List.append_eq_nil_iff, List.cons_ne_nil, and_false, not_false_eq_true, true_and, List.filterMap_append,
    List.append_assoc, List.filterMap_cons, List.filterMap_nil]
  congr 2

theorem components_trailing {path : Text} (nonempty : path ≠ []) : components (path ++ ['/']) = components path := by
  obtain ⟨first, rest, parts⟩ := List.exists_cons_of_ne_nil (List.splitOn_ne_nil '/' path)
  have ended : (path ++ ['/']).splitOn '/' = first :: (rest ++ [[]]) := by
    rw [List.splitOn_append_cons_self, parts, List.splitOn_nil, List.cons_append]
  have root_iff : (rest ++ [[]] ≠ [] ∧ first = []) ↔ (rest ≠ [] ∧ first = []) := by
    constructor
    · intro ⟨_, empty⟩
      refine ⟨?_, empty⟩
      intro single
      have whole : join '/' (path.splitOn '/') = path := List.intercalate_splitOn '/'
      rw [parts, single, empty] at whole
      exact nonempty whole.symm
    · intro ⟨_, empty⟩
      exact ⟨by simp, empty⟩
  unfold components
  rw [parts, ended]
  simp only [root_iff, List.filterMap_append, List.filterMap_cons, List.filterMap_nil]
  rw [show innerComponent [] = none from rfl, List.append_nil]

theorem components_push (path : Text) {value : Text} (plain : PlainSegment value) :
    components (push path value) = components path ++ [.normal value] := by
  have inner : (innerComponent value).toList = [.normal value] := by
    rw [innerComponent_of_plain plain]
    rfl
  unfold push
  split
  next separate =>
    rw [components_slash path plain.noSlash, components_trailing separate.1, inner]
  next joined =>
    by_cases empty : path = []
    · have single : components (join '/' [value]) = [value].map .normal :=
        components_join fun part member => List.mem_singleton.mp member ▸ plain
      rw [empty, List.nil_append]
      rw [join_singleton] at single
      exact single
    · have ends : path.getLast? = some '/' := by tauto
      obtain ⟨init, rfl⟩ := List.getLast?_eq_some_iff.mp ends
      rw [List.append_assoc, List.singleton_append, components_slash init plain.noSlash, inner]

theorem safeJoinSteps_ok {files : FileSystem} {rest out result : Text} {segments : List Text} (plain : Plain segments)
    (joined : safeJoinSteps files rest out (segments.map .normal) = .ok result) :
    result = segments.foldl push out ∧ components result = components out ++ segments.map .normal ∧
      ∀ front, front <+: segments → front ≠ [] → files (components out ++ front.map .normal) ≠ .symlink := by
  induction segments generalizing out with
  | nil =>
    cases joined
    refine ⟨rfl, (List.append_nil _).symm, ?_⟩
    intro front short nonempty
    exact absurd (List.prefix_nil.mp short) nonempty
  | cons value later ih =>
    have pushed := components_push out (plain value List.mem_cons_self)
    have checked : files (components (push out value)) ≠ .symlink ∧
        safeJoinSteps files rest (push out value) (later.map .normal) = .ok result := by
      rw [List.map_cons, safeJoinSteps] at joined
      cases answer : files (components (push out value)) with
      | symlink =>
        rw [answer] at joined
        cases joined
      | failed error =>
        rw [answer] at joined
        cases joined
      | other =>
        rw [answer] at joined
        exact ⟨Inspected.noConfusion, joined⟩
      | notFound =>
        rw [answer] at joined
        exact ⟨Inspected.noConfusion, joined⟩
    obtain ⟨path, parts, links⟩ := ih plain.tail checked.2
    refine ⟨path, ?_, ?_⟩
    · rw [parts, pushed, List.append_assoc]
      rfl
    · intro front short nonempty
      obtain ⟨head, tail, rfl⟩ := List.exists_cons_of_ne_nil nonempty
      obtain ⟨rfl, short_tail⟩ := List.cons_prefix_cons.mp short
      by_cases last : tail = []
      · rw [last, List.map_singleton, ← pushed]
        exact checked.1
      · have deeper := links tail short_tail last
        rw [pushed, List.append_assoc] at deeper
        exact deeper

theorem safeJoin_inside {files : FileSystem} {root full : Text} {segments : List Text} (plain : Plain segments)
    (joined : safeJoin files root (join '/' segments) = .ok full) :
    full = segments.foldl push root ∧ components full = components root ++ components (join '/' segments) ∧
      ∀ front, front <+: components full → (components root).length < front.length → files front ≠ .symlink := by
  rw [safeJoin, components_join plain] at joined
  obtain ⟨path, parts, links⟩ := safeJoinSteps_ok plain joined
  refine ⟨path, by rw [parts, components_join plain], ?_⟩
  intro front short longer
  rw [parts] at short
  have below : components root <+: front :=
    List.prefix_of_prefix_length_le (List.prefix_append _ _) short (Nat.le_of_lt longer)
  obtain ⟨inner, rfl⟩ := below
  have inside : inner <+: segments.map .normal := (List.prefix_append_right_inj _).mp short
  have taken : inner = (segments.take inner.length).map .normal := by
    rw [List.map_take]
    exact List.prefix_iff_eq_take.mp inside
  rw [taken]
  apply links _ (List.take_prefix _ _)
  intro none_taken
  rw [none_taken, List.map_nil] at taken
  rw [taken, List.append_nil] at longer
  exact Nat.lt_irrefl _ longer

/-- A path is accepted unless a part of it climbs. What is left of it is accepted again, and
on the disk it leads below the root, across no link. -/
theorem accepted_path_stays_inside (path : Text) :
    ((∃ rest, validateRelativePointPath path = .ok rest) ↔ dotDot ∉ rawParts path) ∧
      ∀ rest, validateRelativePointPath path = .ok rest →
        rest = join '/' (visible (rawParts path)) ∧ '\\' ∉ rest ∧ validateRelativePointPath rest = .ok rest ∧
          ∀ (files : FileSystem) (root full : Text), safeJoin files root rest = .ok full →
            full = (visible (rawParts path)).foldl push root ∧ components full = components root ++ components rest ∧
              ∀ front, front <+: components full → (components root).length < front.length → files front ≠ .symlink := by
  constructor
  · constructor
    · intro ⟨rest, accepted⟩
      exact (validateRelativePointPath_ok_iff.mp accepted).1
    · intro stays
      exact ⟨_, validateRelativePointPath_visible stays⟩
  · intro rest accepted
    obtain ⟨stays, rfl⟩ := validateRelativePointPath_ok_iff.mp accepted
    have plain := visible_plain stays
    refine ⟨rfl, plain.backslash_notMem, validateRelativePointPath_join plain, ?_⟩
    intro files root full joined
    exact safeJoin_inside plain joined

/-- Both separators, dots and empty parts. -/
example : validateRelativePointPath "/./a\\b//..c/.".toList = .ok "a/b/..c".toList := by rfl

/-! ### Jobs and calls -/

theorem rawParts_append (front rest : Text) : rawParts (front ++ '/' :: rest) = rawParts front ++ rawParts rest := by
  have slash : replaceSeparators (front ++ '/' :: rest) = replaceSeparators front ++ '/' :: replaceSeparators rest := by
    unfold replaceSeparators
    rw [List.map_append, List.map_cons]
    rfl
  rw [rawParts, slash, List.splitOn_append_cons_self]
  rfl

theorem rawParts_plain {segment : Text} (plain : PlainSegment segment) : rawParts segment = [segment] := by
  rw [rawParts, replaceSeparators_self plain.noBackslash, splitOn_free plain.noSlash]

theorem visible_dropWhile (path : Text) :
    visible (rawParts (path.dropWhile fun c => c = '/')) = visible (rawParts path) ∧
      (dotDot ∈ rawParts (path.dropWhile fun c => c = '/') ↔ dotDot ∈ rawParts path) := by
  induction path with
  | nil => exact ⟨rfl, Iff.rfl⟩
  | cons c rest ih =>
    by_cases slash : c = '/'
    · rw [List.dropWhile_cons_of_pos (by simpa using slash), slash]
      have parts : rawParts ('/' :: rest) = [] :: rawParts rest := rawParts_append [] rest
      rw [parts]
      refine ⟨ih.1, ih.2.trans ?_⟩
      rw [List.mem_cons]
      exact (or_iff_right (by decide)).symm
    · rw [List.dropWhile_cons_of_neg (by simpa using slash)]
      exact ⟨rfl, Iff.rfl⟩

theorem splitOnce_none {path part : Text} (found : splitOnce path = (part, none)) : path = part := by
  unfold splitOnce at found
  rw [List.span_eq_takeWhile_dropWhile] at found
  split at found
  next first split =>
    cases found
    have whole := List.takeWhile_append_dropWhile (p := fun c : Char => decide (c ≠ '/')) (l := path)
    rw [(Prod.mk.inj split).1, (Prod.mk.inj split).2, List.append_nil] at whole
    exact whole.symm
  next => cases found

theorem splitOnce_some {path part rest : Text} (found : splitOnce path = (part, some rest)) : path = part ++ '/' :: rest := by
  unfold splitOnce at found
  rw [List.span_eq_takeWhile_dropWhile] at found
  split at found
  next => cases found
  next first c later split =>
    cases found
    have whole := List.takeWhile_append_dropWhile (p := fun c : Char => decide (c ≠ '/')) (l := path)
    have stop : c = '/' := by
      have head := List.head?_dropWhile_not (fun c : Char => decide (c ≠ '/')) path
      rw [(Prod.mk.inj split).2] at head
      simpa using head
    rw [(Prod.mk.inj split).1, (Prod.mk.inj split).2, stop] at whole
    exact whole.symm

variable {parseUuid : Text → Option Uuid} {user : VfsUser} {point : VfsPoint}

theorem rawParts_split {after name : Text} {rest : Option Text} (split : splitOnce after = (name, rest))
    (plain : PlainSegment name) : visible (rawParts after) = name :: visible (rawParts (rest.getD [])) ∧
      (dotDot ∈ rawParts after ↔ dotDot ∈ rawParts (rest.getD [])) := by
  have shown (parts : List Text) : visible (name :: parts) = name :: visible parts := by
    have named : decide (name ≠ [] ∧ name ≠ dot) = true := decide_eq_true ⟨plain.nonempty, plain.notDot⟩
    exact List.filter_cons_of_pos named
  have different : dotDot ≠ name := fun same => plain.notDotDot same.symm
  cases rest with
  | none =>
    rw [splitOnce_none split, rawParts_plain plain, shown]
    refine ⟨rfl, ?_⟩
    rw [List.mem_singleton]
    exact ⟨fun same => absurd same different, fun member => absurd member (by decide)⟩
  | some rest =>
    rw [splitOnce_some split, rawParts_append, rawParts_plain plain, List.singleton_append, shown]
    refine ⟨rfl, ?_⟩
    rw [List.mem_cons]
    exact or_iff_right different

theorem points_plain : PlainSegment pointsRoot := ⟨by decide, by decide, by decide, by decide, by decide⟩

theorem resolveDataFilePath_virtual (named : NamedPoints user) {path rest : Text}
    (resolved : resolveDataFilePath parseUuid user (.virtual path) = .ok (point, rest)) :
    point ∈ user.points ∧ point.isRepo = false ∧ dotDot ∉ rawParts path ∧
      ∃ inner, Plain inner ∧ rest = join '/' inner ∧ visible (rawParts path) = [pointsRoot, point.name] ++ inner := by
  unfold resolveDataFilePath at resolved
  cases whole : splitOnce (path.dropWhile fun c => c = '/') with
  | mk root parts =>
    simp only [whole] at resolved
    split at resolved
    · cases resolved
    next points =>
      rw [not_not] at points
      split at resolved
      · cases resolved
      · cases resolved
      next name tail _ given =>
        obtain ⟨after, rfl, split⟩ := Option.map_eq_some_iff.mp given
        obtain ⟨found, located, later⟩ := bind_eq_ok.mp resolved
        obtain ⟨accepted, validated, last⟩ := bind_eq_ok.mp later
        cases last
        obtain ⟨member, rfl, data⟩ := (findPoint_ok named).mp located
        obtain ⟨stays, rfl⟩ := validateRelativePointPath_ok_iff.mp validated
        obtain ⟨first_visible, first_climbs⟩ := rawParts_split whole (points ▸ points_plain)
        obtain ⟨second_visible, second_climbs⟩ := rawParts_split split (named.plain point member)
        obtain ⟨same_visible, same_climbs⟩ := visible_dropWhile path
        refine ⟨member, data, ?_, _, visible_plain stays, rfl, ?_⟩
        · intro climbs
          exact stays (second_climbs.mp (first_climbs.mp (same_climbs.mpr climbs)))
        · rw [← same_visible, first_visible, Option.getD_some, second_visible, points]
          rfl

theorem resolvePointPath_inside (named : NamedPoints user) (member : point ∈ user.points) (data : point.isRepo = false)
    {inner : List Text} (plain : Plain inner) :
    resolvePointPath user ('/' :: join '/' ([pointsRoot, point.name] ++ inner)) = .ok (point, join '/' inner) := by
  have segments : Plain ([pointsRoot, point.name] ++ inner) := by
    intro segment inside
    rcases List.mem_append.mp inside with front | below
    · rcases List.mem_cons.mp front with rfl | last
      · exact points_plain
      · exact List.mem_singleton.mp last ▸ named.plain point member
    · exact plain segment below
  apply (resolvePointPath_ok segments).mpr
  exact ⟨pointsRoot, point.name, inner, false, rfl, rfl, (findPoint_ok named).mpr ⟨member, rfl, data⟩, rfl⟩

/-- What a job accepts names the same point and the same path inside it as in a call. -/
theorem job_path_is_call_path (parseUuid : Text → Option Uuid) (users normalized : List VfsUser)
    (accepted : normalizeVfsUsers users = .ok normalized) (user : VfsUser) (member : user ∈ normalized) (file : FilePath)
    (point : VfsPoint) (rest : Text) (resolved : resolveDataFilePath parseUuid user file = .ok (point, rest)) :
    point.isRepo = false ∧ ∃ path, resolveFilePath parseUuid user file = .ok path ∧
      resolvePointPath user path = .ok (point, rest) := by
  have named := normalizeVfsUsers_named accepted user member
  cases file with
  | blank => cases resolved
  | virtual path =>
    obtain ⟨owned, data, stays, inner, plain, rfl, parts⟩ := resolveDataFilePath_virtual named resolved
    have normalizes := validateRelativePointPath_visible stays
    refine ⟨data, '/' :: join '/' ([pointsRoot, point.name] ++ inner), ?_, resolvePointPath_inside named owned data plain⟩
    rw [resolveFilePath, normalizes, parts]
    apply congrArg Except.ok
    apply if_neg
    rw [List.cons_append, List.cons_append, join_cons (List.cons_ne_nil _ _)]
    intro empty
    exact absurd (List.append_eq_nil_iff.mp empty).2 (List.cons_ne_nil _ _)
  | indexed pointId pointPath =>
    obtain ⟨found, located, later⟩ := bind_eq_ok.mp resolved
    obtain ⟨inside, validated, last⟩ := bind_eq_ok.mp later
    cases last
    obtain ⟨other, identified, kind⟩ := bind_eq_ok.mp located
    split at kind
    · cases kind
    next not_repo =>
      cases kind
      have data : point.isRepo = false := Bool.eq_false_iff.mpr not_repo
      have owned := findPointId_mem identified
      obtain ⟨inner, plain, rfl⟩ := validateRelativePointPath_plain validated
      refine ⟨data, '/' :: join '/' ([pointsRoot, point.name] ++ inner), ?_, resolvePointPath_inside named owned data plain⟩
      have root : pointRoot point = pointsRoot := by
        rw [pointRoot, data]
        rfl
      rw [resolveFilePath, identified]
      apply bind_eq_ok.mpr
      refine ⟨point, rfl, ?_⟩
      apply bind_eq_ok.mpr
      refine ⟨_, validated, ?_⟩
      apply congrArg Except.ok
      rw [pointMountPath_eq, root]
      split
      next empty =>
        rw [plain.separated.join_eq_nil.mp empty]
        rfl
      next more =>
        have nonempty : inner ≠ [] := fun empty => more (empty ▸ rfl)
        rw [join_append _ (List.cons_ne_nil _ _) nonempty]
        rfl

/-- Slashes, dots and backslashes do not tell the two apart. -/
theorem alice_job_path : ∃ path, resolveFilePath (fun _ => none) alice (.virtual "//points/docs//a\\./b".toList) = .ok path ∧
    resolvePointPath alice path = .ok (namedPoint 1 "docs" false, "a/b".toList) :=
  (job_path_is_call_path (fun _ => none) [alice] [alice] rfl alice List.mem_cons_self
    (.virtual "//points/docs//a\\./b".toList) (namedPoint 1 "docs" false) "a/b".toList rfl).2

end Vaulton.Proofs.RelativePaths
