import Vaulton.Lib.Machine
import Vaulton.Proofs.Config
import Vaulton.SetVfs

/-! When a SetVfs call locks nobody out. Phase 1 only adds keys and the old configuration
is still stored; afterwards the new configuration is stored and a key disappears only as
the old password of some rotation of its repository. -/

namespace Vaulton.Proofs.SetVfs
open Vaulton.Config Vaulton.Lib Vaulton.SetVfs Vaulton.Proofs.Config

def KeyOpens (keys : Keys) (target : Target) (password : Text) : Prop :=
  ∃ opened, keys target = some opened ∧ password ∈ opened

/-- The stored password of the point opens its repository. -/
def Opens (keys : Keys) (point : VfsPoint) : Prop :=
  ∃ password, point.repoPassword = some password ∧ KeyOpens keys point.target password

/-- The two points are one repo point on one storage target. -/
def SameRepoPoint (first second : VfsPoint) : Prop :=
  second.isRepo = true ∧ second.id = first.id ∧ second.target = first.target

/-- Every repo point that opened before the call and that the request keeps opens with
the password stored for it. -/
def PointsOpen (oldUsers users : List VfsUser) (before : Keys) (state : SetVfsState) : Prop :=
  ∀ point ∈ allPoints oldUsers, point.isRepo = true → Opens before point →
    (∃ kept ∈ allPoints users, SameRepoPoint point kept) →
      ∃ stored ∈ allPoints state.stored, SameRepoPoint point stored ∧ Opens state.keys stored

/-- The password opens the repository once the rotations of `changes` have added theirs. -/
def Held (before : Keys) (changes : List RepoPasswordChange) (target : Target) (password : Text) : Prop :=
  KeyOpens before target password ∨ ∃ change ∈ changes, change.target = target ∧ change.newPassword = password

/-- Every rotation of an existing repository can add its key after those before it. -/
def Addable (before : Keys) (changes : List RepoPasswordChange) : Prop :=
  ∀ earlier change later, changes = earlier ++ change :: later → before change.target ≠ none →
    Held before earlier change.target change.newPassword ∨
      Held before earlier change.target change.oldPassword ∧ change.allowWrite = true

/-- The password is the old one of no rotation that may write to the repository. -/
def Spared (changes : List RepoPasswordChange) (target : Target) (password : Text) : Prop :=
  ∀ change ∈ changes, change.target = target → change.allowWrite = true → change.oldPassword ≠ password

/-- Every kept point is given a password that opens its repository or that a rotation
adds to it, and that no rotation of the same repository removes. -/
def RotationSafe (oldUsers users : List VfsUser) (before : Keys) : Prop :=
  Addable before (passwordChanges oldUsers users) →
    ∀ point ∈ allPoints oldUsers, point.isRepo = true → Opens before point →
      ∀ kept ∈ allPoints users, SameRepoPoint point kept → ∃ password, kept.repoPassword = some password ∧
        Held before (passwordChanges oldUsers users) point.target password ∧
        Spared (passwordChanges oldUsers users) point.target password

/-! ### The two repository operations -/

section Keys

variable {before keys next : Keys} {change : RepoPasswordChange} {fails : Bool}

/-- The keys once the rotations of `changes` have been added to `before`. -/
structure Grown (before : Keys) (changes : List RepoPasswordChange) (keys : Keys) : Prop where
  absent : ∀ target, keys target = none ↔ before target = none
  opens : ∀ target password, KeyOpens keys target password ↔ before target ≠ none ∧ Held before changes target password

theorem KeyOpens.present {target : Target} {password : Text} (opens : KeyOpens keys target password) :
    keys target ≠ none := by
  obtain ⟨opened, found, -⟩ := opens
  simp [found]

theorem Grown.refl (keys : Keys) : Grown keys [] keys where
  absent _ := Iff.rfl
  opens target password := by
    constructor
    · exact fun opens => ⟨opens.present, .inl opens⟩
    · rintro ⟨-, opens | ⟨change, ⟨⟩, -⟩⟩
      exact opens

theorem held_concat {changes : List RepoPasswordChange} {target : Target} {password : Text} :
    Held before (changes ++ [change]) target password ↔
      Held before changes target password ∨ change.target = target ∧ change.newPassword = password := by
  simp only [Held, List.mem_append, List.mem_singleton, or_and_right, exists_or, exists_eq_left, or_assoc]

/-- Everything `add_repo_key` can do when it succeeds. -/
inductive AddEffect (keys : Keys) (change : RepoPasswordChange) (next : Keys) : Prop where
  | absent (found : keys change.target = none) (same : next = keys)
  | present (opens : KeyOpens keys change.target change.newPassword) (same : next = keys)
  | added (opened : List Text) (found : keys change.target = some opened) (old : change.oldPassword ∈ opened)
      (writable : change.allowWrite = true)
      (update : next = Function.update keys change.target (some (change.newPassword :: opened)))

theorem addRepoKey_effect (succeeded : addRepoKey keys change fails = .ok next) : AddEffect keys change next := by
  unfold addRepoKey at succeeded
  split at succeeded
  · cases succeeded
  · split at succeeded
    next found =>
      cases succeeded
      exact .absent found rfl
    next opened found =>
      split at succeeded
      next known =>
        cases succeeded
        exact .present ⟨opened, found, known⟩ rfl
      next =>
        split at succeeded
        · cases succeeded
        next old =>
          split at succeeded
          · cases succeeded
          next writable =>
            cases succeeded
            exact .added opened found (not_not.mp old) (by simpa using writable) rfl

private theorem Grown.known {changes : List RepoPasswordChange} (grown : Grown before changes keys)
    (known : before change.target ≠ none → KeyOpens keys change.target change.newPassword) :
    Grown before (changes ++ [change]) keys where
  absent := grown.absent
  opens target password := by
    rw [grown.opens, held_concat]
    constructor
    · exact fun ⟨present, held⟩ => ⟨present, .inl held⟩
    · rintro ⟨present, held | ⟨rfl, rfl⟩⟩
      · exact ⟨present, held⟩
      · exact (grown.opens _ _).mp (known present)

theorem keyOpens_update {target other : Target} {opened : List Text} {password : Text} :
    KeyOpens (Function.update keys target (some opened)) other password ↔
      if other = target then password ∈ opened else KeyOpens keys other password := by
  unfold KeyOpens
  split
  next same => simp [same]
  next different => simp [Function.update_of_ne different]

theorem AddEffect.grown {changes : List RepoPasswordChange} (effect : AddEffect keys change next)
    (grown : Grown before changes keys) : Grown before (changes ++ [change]) next := by
  cases effect with
  | absent found same =>
    cases same
    exact grown.known fun present => absurd ((grown.absent _).mp found) present
  | present opens same =>
    cases same
    exact grown.known fun _ => opens
  | added opened found old writable update =>
    cases update
    have present : before change.target ≠ none := by simp [← grown.absent, found]
    constructor
    · intro target
      rw [← grown.absent]
      by_cases same : target = change.target
      · simp [same, found]
      · rw [Function.update_of_ne same]
    · intro target password
      rw [keyOpens_update, held_concat]
      split
      next same =>
        subst same
        have listed : password ∈ opened ↔ Held before changes change.target password := by
          simpa [KeyOpens, found, present] using grown.opens change.target password
        rw [List.mem_cons, listed]
        simp [present, or_comm, eq_comm]
      next different =>
        rw [grown.opens]
        simp [Ne.symm different]

theorem AddEffect.addable {changes : List RepoPasswordChange} (effect : AddEffect keys change next)
    (grown : Grown before changes keys) (present : before change.target ≠ none) :
    Held before changes change.target change.newPassword ∨
      Held before changes change.target change.oldPassword ∧ change.allowWrite = true := by
  cases effect with
  | absent found same => exact absurd ((grown.absent _).mp found) present
  | present opens same => exact .inl ((grown.opens _ _).mp opens).2
  | added opened found old writable update => exact .inr ⟨((grown.opens _ _).mp ⟨opened, found, old⟩).2, writable⟩

theorem addRepoKey_succeeds {changes : List RepoPasswordChange} (grown : Grown before changes keys)
    (addable : before change.target ≠ none → Held before changes change.target change.newPassword ∨
      Held before changes change.target change.oldPassword ∧ change.allowWrite = true) :
    ∃ next, addRepoKey keys change false = .ok next := by
  unfold addRepoKey
  cases found : keys change.target with
  | none => exact ⟨keys, rfl⟩
  | some opened =>
    have present : before change.target ≠ none := by simp [← grown.absent, found]
    have listed (password : Text) (held : Held before changes change.target password) : password ∈ opened := by
      obtain ⟨again, same, member⟩ := (grown.opens _ _).mpr ⟨present, held⟩
      rw [found] at same
      cases same
      exact member
    by_cases known : change.newPassword ∈ opened
    · exact ⟨keys, by simp [known]⟩
    · rcases addable present with held | ⟨held, writable⟩
      · exact absurd (listed _ held) known
      · simp [known, listed _ held, writable]

/-- `remove_old_repo_key` takes away at most the old password, and that only from a
repository it may write to. -/
theorem removeOldRepoKey_keeps (succeeded : removeOldRepoKey keys change fails = .ok next) {target : Target}
    {password : Text} (opens : KeyOpens keys target password)
    (spared : change.target = target → change.allowWrite = true → change.oldPassword ≠ password) :
    KeyOpens next target password := by
  unfold removeOldRepoKey at succeeded
  split at succeeded
  · cases succeeded
  · split at succeeded
    · cases succeeded
      exact opens
    next opened found =>
      split at succeeded
      · cases succeeded
      · split at succeeded
        · cases succeeded
          exact opens
        · split at succeeded
          · cases succeeded
            exact opens
          · split at succeeded
            · cases succeeded
            next writable =>
              cases succeeded
              rw [keyOpens_update]
              split
              next same =>
                subst same
                obtain ⟨again, same, member⟩ := opens
                rw [found] at same
                cases same
                simp [member, Ne.symm (spared rfl (by simpa using writable))]
              next => exact opens

end Keys

/-! ### One call -/

section Call

variable {oldUsers users : List VfsUser} {before : Keys}

/-- Where a call is, with the keys it can have left behind. -/
inductive Stage (oldUsers users : List VfsUser) (before : Keys) : SetVfsState → Prop where
  | adding {done rest : List RepoPasswordChange} {keys : Keys} (all : passwordChanges oldUsers users = done ++ rest)
      (addable : Addable before done) (grown : Grown before done keys) :
      Stage oldUsers users before ⟨oldUsers, keys, .add rest⟩
  | rejected {done : List RepoPasswordChange} {keys : Keys} {error : Option Status} (grown : Grown before done keys) :
      Stage oldUsers users before ⟨oldUsers, keys, .returned error⟩
  | stored {keys : Keys} {pc : SetVfsPc} (addable : Addable before (passwordChanges oldUsers users))
      (removing : ∀ rest, pc = .remove rest → rest ⊆ passwordChanges oldUsers users) (ended : ∀ rest, pc ≠ .add rest)
      (spared : ∀ target password, before target ≠ none →
        Held before (passwordChanges oldUsers users) target password →
        Spared (passwordChanges oldUsers users) target password → KeyOpens keys target password) :
      Stage oldUsers users before ⟨users, keys, pc⟩

theorem Stage.start (oldUsers users : List VfsUser) (before : Keys) :
    Stage oldUsers users before (setVfsStart oldUsers users before) :=
  .adding (List.nil_append _).symm (by rintro earlier change later same; simp at same) (.refl before)

private theorem Addable.concat {changes : List RepoPasswordChange} {change : RepoPasswordChange}
    (addable : Addable before changes)
    (last : before change.target ≠ none → Held before changes change.target change.newPassword ∨
      Held before changes change.target change.oldPassword ∧ change.allowWrite = true) :
    Addable before (changes ++ [change]) := by
  intro earlier other later same
  rcases List.eq_nil_or_concat later with rfl | ⟨rest, final, rfl⟩
  · obtain ⟨rfl, equal⟩ := List.append_inj' same rfl
    cases equal
    exact last
  · rw [List.concat_eq_append, ← List.cons_append, ← List.append_assoc] at same
    obtain ⟨rfl, -⟩ := List.append_inj' same rfl
    exact addable earlier other rest rfl

theorem setVfsStep_stage {state next : SetVfsState} {fails : Bool} (stage : Stage oldUsers users before state)
    (taken : setVfsStep (passwordChanges oldUsers users) users state fails = some next) :
    Stage oldUsers users before next := by
  cases stage with
  | @adding done rest keys all addable grown =>
    cases rest with
    | nil =>
      simp only [setVfsStep] at taken
      split at taken
      · cases taken
        exact .rejected grown
      · cases taken
        rw [List.append_nil] at all
        refine .stored (all ▸ addable) ?_ (by simp) ?_
        · intro rest equal
          cases equal
          exact List.Subset.refl _
        · intro target password present held _
          rw [all] at held
          exact (grown.opens _ _).mpr ⟨present, held⟩
    | cons change rest =>
      simp only [setVfsStep] at taken
      split at taken
      next after succeeded =>
        cases taken
        have effect := addRepoKey_effect succeeded
        exact .adding (by simpa using all) (addable.concat (effect.addable grown)) (effect.grown grown)
      next =>
        cases taken
        exact .rejected grown
  | rejected grown => cases taken
  | @stored keys pc addable removing ended spared =>
    cases pc with
    | add rest => exact absurd rfl (ended rest)
    | returned error => cases taken
    | remove rest =>
      cases rest with
      | nil =>
        cases taken
        exact .stored addable (by simp) (by simp) spared
      | cons change rest =>
        obtain ⟨member, included⟩ := List.cons_subset.mp (removing _ rfl)
        simp only [setVfsStep] at taken
        split at taken
        next after succeeded =>
          cases taken
          refine .stored addable (by rintro _ ⟨⟩; exact included) (by simp) ?_
          intro target password present held kept
          exact removeOldRepoKey_keeps succeeded (spared target password present held kept) (kept change member)
        next =>
          cases taken
          exact .stored addable (by rintro _ ⟨⟩; exact included) (by simp) spared

theorem Stage.pointsOpen {state : SetVfsState} (safe : RotationSafe oldUsers users before)
    (stage : Stage oldUsers users before state) : PointsOpen oldUsers users before state := by
  intro point member repo opens kept
  obtain ⟨password, stored, opened⟩ := opens
  cases stage with
  | adding all addable grown =>
    exact ⟨point, member, ⟨repo, rfl, rfl⟩, password, stored, (grown.opens _ _).mpr ⟨opened.present, .inl opened⟩⟩
  | rejected grown =>
    exact ⟨point, member, ⟨repo, rfl, rfl⟩, password, stored, (grown.opens _ _).mpr ⟨opened.present, .inl opened⟩⟩
  | stored addable removing ended spared =>
    obtain ⟨new, new_mem, same⟩ := kept
    obtain ⟨current, given, held, unremoved⟩ := safe addable point member repo ⟨password, stored, opened⟩ new new_mem same
    exact ⟨new, new_mem, same, current, given, same.2.2 ▸ spared _ _ opened.present held unremoved⟩

/-! ### The schedules of the worst case -/

private theorem adds_all {keys : Keys} (addable : Addable before (passwordChanges oldUsers users))
    {done rest : List RepoPasswordChange} (all : passwordChanges oldUsers users = done ++ rest)
    (grown : Grown before done keys) :
    ∃ events after, Grown before (passwordChanges oldUsers users) after ∧
      run (setVfsStep (passwordChanges oldUsers users) users) ⟨oldUsers, keys, .add rest⟩ events =
        some ⟨users, after, .remove (passwordChanges oldUsers users)⟩ := by
  induction rest generalizing done keys with
  | nil => exact ⟨[false], keys, by rwa [all, List.append_nil], rfl⟩
  | cons change rest ih =>
    obtain ⟨next, succeeded⟩ := addRepoKey_succeeds grown (addable done change rest all)
    obtain ⟨events, after, complete, executed⟩ :=
      ih (by simpa using all) ((addRepoKey_effect succeeded).grown grown)
    refine ⟨false :: events, after, complete, run_cons.mpr ⟨_, ?_, executed⟩⟩
    simp [setVfsStep, succeeded]

/-- Phase 2 can fail for the first rotations. -/
private theorem skips (users : List VfsUser) (changes earlier rest : List RepoPasswordChange) (keys : Keys) :
    ∃ events, run (setVfsStep changes users) ⟨users, keys, .remove (earlier ++ rest)⟩ events =
      some ⟨users, keys, .remove rest⟩ := by
  induction earlier with
  | nil => exact ⟨[], rfl⟩
  | cons change earlier ih =>
    obtain ⟨events, executed⟩ := ih
    exact ⟨true :: events, run_cons.mpr ⟨_, rfl, executed⟩⟩

theorem mem_passwordChanges {change : RepoPasswordChange} : change ∈ passwordChanges oldUsers users ↔
    ∃ oldUser ∈ oldUsers, ∃ newUser, users.find? (fun user => user.username = oldUser.username) = some newUser ∧
      ∃ oldPoint ∈ oldUser.points, oldPoint.isRepo = true ∧ pointChange newUser oldPoint = some change := by
  rw [passwordChanges, List.mem_flatMap]
  constructor
  · intro ⟨oldUser, member, inside⟩
    split at inside
    next => cases inside
    next newUser found =>
      obtain ⟨oldPoint, point_mem, same⟩ := List.mem_filterMap.mp inside
      obtain ⟨listed, repo⟩ := List.mem_filter.mp point_mem
      exact ⟨oldUser, member, newUser, found, oldPoint, listed, repo, same⟩
  · intro ⟨oldUser, member, newUser, found, oldPoint, listed, repo, same⟩
    refine ⟨oldUser, member, ?_⟩
    rw [found]
    exact List.mem_filterMap.mpr ⟨oldPoint, List.mem_filter.mpr ⟨listed, repo⟩, same⟩

theorem pointChange_some {newUser : VfsUser} {oldPoint : VfsPoint} {change : RepoPasswordChange}
    (same : pointChange newUser oldPoint = some change) :
    ∃ newPoint ∈ newUser.points, newPoint.id = oldPoint.id ∧ oldPoint.repoPassword = some change.oldPassword ∧
      newPoint.repoPassword = some change.newPassword ∧ change.oldPassword ≠ change.newPassword ∧
      change.target = oldPoint.target := by
  unfold pointChange at same
  split at same
  next => cases same
  next newPoint found =>
    have chosen := List.find?_some found
    rw [decide_eq_true_eq] at chosen
    split at same
    next oldPassword newPassword before after =>
      split at same
      · cases same
      next different =>
        split at same
        · cases same
        · cases same
          exact ⟨newPoint, List.mem_of_find?_eq_some found, chosen.1, before, after, different, rfl⟩
    next => cases same

theorem passwordChanges_different {change : RepoPasswordChange} (member : change ∈ passwordChanges oldUsers users) :
    change.oldPassword ≠ change.newPassword := by
  obtain ⟨oldUser, -, newUser, -, oldPoint, -, -, made⟩ := mem_passwordChanges.mp member
  obtain ⟨newPoint, -, -, -, -, different, -⟩ := pointChange_some made
  exact different

private theorem removes {keys : Keys} {change : RepoPasswordChange} (opens : KeyOpens keys change.target change.newPassword)
    (different : change.oldPassword ≠ change.newPassword) (writable : change.allowWrite = true) :
    ∃ next, removeOldRepoKey keys change false = .ok next ∧ ¬KeyOpens next change.target change.oldPassword := by
  obtain ⟨opened, found, known⟩ := opens
  by_cases old : change.oldPassword ∈ opened
  · refine ⟨_, by simp only [removeOldRepoKey, found, known, old, different, writable]; rfl, ?_⟩
    rw [keyOpens_update]
    simp
  · refine ⟨keys, by simp [removeOldRepoKey, found, known, old], ?_⟩
    simp [KeyOpens, found, old]

private theorem stored_unique (distinct : ((allPoints users).map VfsPoint.id).Nodup) {point kept other : VfsPoint}
    (kept_mem : kept ∈ allPoints users) (other_mem : other ∈ allPoints users) (kept_same : SameRepoPoint point kept)
    (other_same : SameRepoPoint point other) : other = kept :=
  List.inj_on_of_nodup_map distinct other_mem kept_mem (other_same.2.1.trans kept_same.2.1.symm)

theorem rotationSafe_of_pointsOpen (distinct : ((allPoints users).map VfsPoint.id).Nodup)
    (always : ∀ events state,
      run (setVfsStep (passwordChanges oldUsers users) users) (setVfsStart oldUsers users before) events = some state →
      PointsOpen oldUsers users before state) : RotationSafe oldUsers users before := by
  intro addable point member repo opens kept kept_mem same
  obtain ⟨adding, keys, grown, committed⟩ := adds_all addable (List.nil_append _).symm (.refl before)
  obtain ⟨stored, stored_mem, stored_same, password, given, opened⟩ :=
    always adding _ committed point member repo opens ⟨kept, kept_mem, same⟩
  obtain rfl := stored_unique distinct kept_mem stored_mem same stored_same
  rw [same.2.2] at opened
  refine ⟨password, given, ((grown.opens _ _).mp opened).2, ?_⟩
  -- A rotation with this old password would take it away in the run that fails all removals before it.
  intro change change_mem target writable old
  obtain ⟨earlier, later, all⟩ := List.append_of_mem change_mem
  have present : before change.target ≠ none := target ▸ ((grown.opens _ _).mp opened).1
  have known : KeyOpens keys change.target change.newPassword :=
    (grown.opens _ _).mpr ⟨present, .inr ⟨change, change_mem, rfl, rfl⟩⟩
  obtain ⟨next, removed, gone⟩ := removes known (passwordChanges_different change_mem) writable
  obtain ⟨skipping, skipped⟩ := skips users (passwordChanges oldUsers users) earlier (change :: later) keys
  rw [← all] at skipped
  have last : run (setVfsStep (passwordChanges oldUsers users) users) ⟨users, keys, .remove (change :: later)⟩ [false] =
      some ⟨users, next, .remove later⟩ := by
    simp [run, setVfsStep, removed]
  have executed := run_append.mpr ⟨_, committed, run_append.mpr ⟨_, skipped, last⟩⟩
  obtain ⟨final, final_mem, final_same, again, final_given, final_opens⟩ :=
    always _ _ executed point member repo opens ⟨_, kept_mem, same⟩
  obtain rfl := stored_unique distinct kept_mem final_mem same final_same
  rw [given] at final_given
  cases final_given
  rw [same.2.2, ← target, ← old] at final_opens
  exact gone final_opens

end Call

/-- A SetVfs call leaves every kept repo point open, wherever it fails or stops, exactly
when no rotation takes away a password that is stored for a kept point. -/
theorem set_vfs_keeps_points_open (request oldUsers users : List VfsUser)
    (accepted : normalizeVfsUsers request = .ok users) (before : Keys) :
    (∀ events state,
      run (setVfsStep (passwordChanges oldUsers users) users) (setVfsStart oldUsers users before) events = some state →
      PointsOpen oldUsers users before state) ↔ RotationSafe oldUsers users before := by
  constructor
  · exact rotationSafe_of_pointsOpen (normalizeVfsUsers_ids accepted)
  · intro safe events state executed
    refine Stage.pointsOpen safe ?_
    exact run_invariant _ (fun _ _ _ stage taken => setVfsStep_stage stage taken) (.start oldUsers users before) executed

def repoPoint (id : Nat) (password : String) : VfsPoint where
  id := BitVec.ofNat 128 id
  name := "backup".toList
  maxBytes := none
  readOnly := false
  scheme := "fs".toList
  config := []
  isRepo := true
  repoPassword := some password.toList

/-- One repository, opened by one password. -/
def oneKey (password : String) : Keys :=
  fun target => if target = ("fs".toList, []) then some [password.toList] else none

def aliceWith (password : String) : VfsUser := ⟨"alice".toList, [repoPoint 1 password]⟩

def bobWith (password : String) : VfsUser := ⟨"bob".toList, [repoPoint 2 password]⟩

private theorem alice_changes : passwordChanges [aliceWith "x"] [aliceWith "y"] =
    [⟨"alice".toList, "backup".toList, ("fs".toList, []), "x".toList, "y".toList, true⟩] := by
  decide

/-- A repository of one point: its password can be changed, whatever fails. -/
theorem lone_rotation_keeps_point_open : normalizeVfsUsers [aliceWith "y"] = .ok [aliceWith "y"] ∧
    ∀ events state, run (setVfsStep (passwordChanges [aliceWith "x"] [aliceWith "y"]) [aliceWith "y"])
      (setVfsStart [aliceWith "x"] [aliceWith "y"] (oneKey "x")) events = some state →
      PointsOpen [aliceWith "x"] [aliceWith "y"] (oneKey "x") state := by
  refine ⟨rfl, ?_⟩
  apply (set_vfs_keeps_points_open [aliceWith "y"] [aliceWith "x"] [aliceWith "y"] rfl (oneKey "x")).mpr
  intro _ point member _ _ kept kept_mem _
  obtain rfl : point = repoPoint 1 "x" := by simpa [allPoints, aliceWith] using member
  obtain rfl : kept = repoPoint 1 "y" := by simpa [allPoints, aliceWith] using kept_mem
  rw [alice_changes]
  refine ⟨"y".toList, rfl, .inr ⟨_, List.mem_singleton_self _, rfl, rfl⟩, ?_⟩
  intro change change_mem _ _
  obtain rfl := List.mem_singleton.mp change_mem
  decide

/-- Two users share a repository; after one of them changes its password the other one
is locked out. -/
theorem shared_rotation_locks_out : ∃ state, normalizeVfsUsers [aliceWith "y", bobWith "x"] = .ok [aliceWith "y", bobWith "x"] ∧
    run (setVfsStep (passwordChanges [aliceWith "x", bobWith "x"] [aliceWith "y", bobWith "x"]) [aliceWith "y", bobWith "x"])
      (setVfsStart [aliceWith "x", bobWith "x"] [aliceWith "y", bobWith "x"] (oneKey "x")) [false, false, false, false] =
        some state ∧
    state.pc = .returned none ∧
    ¬PointsOpen [aliceWith "x", bobWith "x"] [aliceWith "y", bobWith "x"] (oneKey "x") state := by
  refine ⟨_, rfl, rfl, rfl, ?_⟩
  intro always
  obtain ⟨stored, member, ⟨-, id, -⟩, password, given, opened, found, known⟩ :=
    always (repoPoint 2 "x") (by simp [allPoints, aliceWith, bobWith]) rfl ⟨"x".toList, rfl, ["x".toList], rfl, by simp⟩
      ⟨repoPoint 2 "x", by simp [allPoints, aliceWith, bobWith], rfl, rfl, rfl⟩
  obtain rfl | rfl : stored = repoPoint 1 "y" ∨ stored = repoPoint 2 "x" := by
    simpa [allPoints, aliceWith, bobWith, setVfsStart] using member
  · revert id
    decide
  · cases given
    have same : some ["y".toList] = some opened := found
    cases same
    revert known
    decide

end Vaulton.Proofs.SetVfs
