import Vaulton.Proofs.SetVfs
import Vaulton.Rotations

/-! When overlapping password changes of one repo point leave it open. Every call removes
the password it read as the old one; that is harmless unless another call has made it the
stored password again, or is about to. -/

namespace Vaulton.Proofs.Rotations
open Vaulton.Config Vaulton.Lib Vaulton.SetVfs Vaulton.Rotations Vaulton.Proofs.Config Vaulton.Proofs.SetVfs

/-- The call is through with phase 1 and has not stored its users. -/
def AboutToStore : Option Call → Prop
  | some ⟨_, .add []⟩ => True
  | _ => False

/-- No point is given this password for the repository. -/
def Unused (users : List VfsUser) (target : Target) (password : Text) : Prop :=
  ∀ kept ∈ allPoints users, kept.target = target → kept.repoPassword ≠ some password

/-- Phase 2 takes the old password of the change away from the repository. -/
def Removes (keys : Keys) (change : RepoPasswordChange) (fails : Bool) : Prop :=
  fails = false ∧ change.allowWrite = true ∧ change.oldPassword ≠ change.newPassword ∧
    KeyOpens keys change.target change.newPassword ∧ KeyOpens keys change.target change.oldPassword

/-- The old password that the next step of the call removes is neither stored nor about
to be. -/
def SparesNext {κ : Type} (users : κ → List VfsUser) (state : RotationsState κ) (fails : Bool) : Option Call → Prop
  | some ⟨_, .remove (change :: _)⟩ => Removes state.keys change fails →
      Unused state.stored change.target change.oldPassword ∧
        ∀ other, AboutToStore (state.calls other) → Unused (users other) change.target change.oldPassword
  | _ => True

def Spares {κ : Type} (users : κ → List VfsUser) (state : RotationsState κ) : RotationsEvent κ → Prop
  | .advance call fails => SparesNext users state fails (state.calls call)
  | .read _ _ => True

instance : (call : Option Call) → Decidable (AboutToStore call)
  | some ⟨_, .add []⟩ => .isTrue trivial
  | none | some ⟨_, .add (_ :: _)⟩ | some ⟨_, .remove _⟩ | some ⟨_, .returned _⟩ => .isFalse id

instance (users : List VfsUser) (target : Target) (password : Text) : Decidable (Unused users target password) :=
  inferInstanceAs (Decidable (∀ _ ∈ _, _))

instance (keys : Keys) (target : Target) (password : Text) : Decidable (KeyOpens keys target password) :=
  inferInstanceAs (Decidable (∃ opened ∈ keys target, password ∈ opened))

instance (keys : Keys) (change : RepoPasswordChange) (fails : Bool) : Decidable (Removes keys change fails) :=
  inferInstanceAs (Decidable (_ ∧ _))

instance {κ : Type} [Fintype κ] (users : κ → List VfsUser) (state : RotationsState κ) (fails : Bool) :
    (call : Option Call) → Decidable (SparesNext users state fails call)
  | some ⟨_, .remove (_ :: _)⟩ => inferInstanceAs (Decidable (_ → _))
  | none | some ⟨_, .add _⟩ | some ⟨_, .remove []⟩ | some ⟨_, .returned _⟩ => .isTrue trivial

instance {κ : Type} [Fintype κ] (users : κ → List VfsUser) (state : RotationsState κ) :
    (event : RotationsEvent κ) → Decidable (Spares users state event)
  | .advance _ _ => inferInstanceAs (Decidable (SparesNext ..))
  | .read _ _ => .isTrue trivial

/-- The password stored for the point opens its repository. -/
def PointOpens {κ : Type} (point : VfsPoint) (state : RotationsState κ) : Prop :=
  ∃ kept ∈ allPoints state.stored, SameRepoPoint point kept ∧ Opens state.keys kept

/-! ### The change a call finds -/

section Changes

variable {base : List VfsUser} {point : VfsPoint} {old new password : Text} {change : RepoPasswordChange}

/-- A point of the users with the password in place. -/
def given (id : Uuid) (password : Text) (point : VfsPoint) : VfsPoint :=
  if point.id = id then { point with repoPassword := some password } else point

theorem given_same (id : Uuid) (password : Text) (point : VfsPoint) :
    (given id password point).id = point.id ∧ (given id password point).isRepo = point.isRepo ∧
      (given id password point).target = point.target := by
  unfold given
  split <;> exact ⟨rfl, rfl, rfl⟩

theorem mem_setPassword {id : Uuid} {user : VfsUser} : user ∈ setPassword id password base ↔
    ∃ owner ∈ base, user = { owner with points := owner.points.map (given id password) } := by
  rw [setPassword, List.mem_map]
  constructor
  · rintro ⟨owner, member, rfl⟩
    exact ⟨owner, member, rfl⟩
  · rintro ⟨owner, member, rfl⟩
    exact ⟨owner, member, rfl⟩

theorem mem_points_setPassword {id : Uuid} (member : point ∈ allPoints base) :
    given id password point ∈ allPoints (setPassword id password base) := by
  obtain ⟨owner, owner_mem, inside⟩ := List.mem_flatMap.mp member
  exact List.mem_flatMap.mpr ⟨_, mem_setPassword.mpr ⟨owner, owner_mem, rfl⟩, List.mem_map_of_mem inside⟩

/-- The only rotation two such configurations differ in is that of the point. -/
theorem change_of_point (ids : ((allPoints base).map VfsPoint.id).Nodup) (member : point ∈ allPoints base)
    (found : change ∈ passwordChanges (setPassword point.id old base) (setPassword point.id new base)) :
    change.target = point.target ∧ change.newPassword = new := by
  obtain ⟨oldUser, old_mem, newUser, new_found, oldPoint, listed, -, same⟩ := mem_passwordChanges.mp found
  obtain ⟨newPoint, new_listed, same_id, before, after, different, target⟩ := pointChange_some same
  obtain ⟨owner, owner_mem, rfl⟩ := mem_setPassword.mp old_mem
  obtain ⟨other, other_mem, rfl⟩ := mem_setPassword.mp (List.mem_of_find?_eq_some new_found)
  obtain ⟨first, first_mem, rfl⟩ := List.mem_map.mp listed
  obtain ⟨second, second_mem, rfl⟩ := List.mem_map.mp new_listed
  rw [(given_same ..).1, (given_same ..).1] at same_id
  obtain ⟨-, rfl⟩ := owner_unique ids other_mem owner_mem second_mem first_mem same_id
  by_cases here : second.id = point.id
  · have inside : second ∈ allPoints base := List.mem_flatMap.mpr ⟨other, other_mem, second_mem⟩
    obtain rfl := List.inj_on_of_nodup_map ids inside member here
    rw [given, if_pos rfl] at after
    exact ⟨target.trans (given_same ..).2.2, (Option.some.inj after).symm⟩
  · rw [given, if_neg here] at before after
    rw [before] at after
    exact absurd (Option.some.inj after) different

theorem change_exists (usernames : (base.map VfsUser.username).Nodup) (ids : ((allPoints base).map VfsPoint.id).Nodup)
    (member : point ∈ allPoints base) (repo : point.isRepo = true) (different : old ≠ new) :
    passwordChanges (setPassword point.id old base) (setPassword point.id new base) ≠ [] := by
  obtain ⟨owner, owner_mem, inside⟩ := List.mem_flatMap.mp member
  have here : { owner with points := owner.points.map (given point.id new) } ∈ setPassword point.id new base :=
    mem_setPassword.mpr ⟨owner, owner_mem, rfl⟩
  cases user_found : (setPassword point.id new base).find? fun user => user.username = owner.username with
  | none =>
    have missed := List.find?_eq_none.mp user_found _ here
    simp at missed
  | some newUser =>
    obtain ⟨other, other_mem, rfl⟩ := mem_setPassword.mp (List.mem_of_find?_eq_some user_found)
    have named := List.find?_some user_found
    rw [decide_eq_true_eq] at named
    obtain rfl := List.inj_on_of_nodup_map usernames other_mem owner_mem named
    have change : (pointChange { other with points := other.points.map (given point.id new) } (given point.id old point)).isSome := by
      unfold pointChange
      cases point_found : (other.points.map (given point.id new)).find? fun listed =>
          listed.id = (given point.id old point).id ∧ listed.isRepo with
      | none =>
        have missed := List.find?_eq_none.mp point_found _ (List.mem_map_of_mem inside)
        simp [given_same, repo] at missed
      | some newPoint =>
        obtain ⟨second, second_mem, rfl⟩ := List.mem_map.mp (List.mem_of_find?_eq_some point_found)
        have chosen := List.find?_some point_found
        rw [decide_eq_true_eq, (given_same ..).1, (given_same ..).1] at chosen
        obtain ⟨-, rfl⟩ := owner_unique ids other_mem other_mem second_mem inside chosen.1
        simp [given, different]
    obtain ⟨found, same⟩ := Option.isSome_iff_exists.mp change
    apply List.ne_nil_of_mem
    apply mem_passwordChanges.mpr
    refine ⟨{ other with points := other.points.map (given point.id old) }, mem_setPassword.mpr ⟨other, other_mem, rfl⟩, ?_⟩
    refine ⟨_, user_found, given point.id old point, List.mem_map_of_mem inside, ?_, same⟩
    rw [(given_same ..).2.1, repo]

end Changes

/-! ### Steps of the calls -/

section Calls

variable {κ : Type} {base : List VfsUser} {point : VfsPoint} {passwords : κ → Text}
  {state next : RotationsState κ}

/-- The stored password opens the repository, and so does every password that is about
to be stored. -/
structure Open (base : List VfsUser) (point : VfsPoint) (passwords : κ → Text) (state : RotationsState κ) : Prop where
  stored : ∃ password, state.stored = setPassword point.id password base ∧ KeyOpens state.keys point.target password
  adding : ∀ call changes rest, state.calls call = some ⟨changes, .add rest⟩ →
    ∀ change ∈ rest, change.target = point.target ∧ change.newPassword = passwords call
  ready : ∀ call, AboutToStore (state.calls call) → KeyOpens state.keys point.target (passwords call)

/-- The call of the users with its own password for the point. -/
abbrev storing (base : List VfsUser) (point : VfsPoint) (passwords : κ → Text) (call : κ) : List VfsUser :=
  setPassword point.id (passwords call) base

theorem Open.pointOpens (isOpen : Open base point passwords state) (member : point ∈ allPoints base)
    (repo : point.isRepo = true) : PointOpens point state := by
  obtain ⟨password, stored, opens⟩ := isOpen.stored
  have kept : given point.id password point ∈ allPoints state.stored := by
    rw [stored]
    exact mem_points_setPassword member
  obtain ⟨id, same, target⟩ := given_same point.id password point
  refine ⟨_, kept, ⟨same.trans repo, id, target⟩, password, ?_, ?_⟩
  · rw [given, if_pos rfl]
  · rw [target]
    exact opens

variable [DecidableEq κ]

/-- A call moves and no password stops opening the repository. -/
private theorem Open.moves {call : κ} {moved : Call} {keys : Keys} (isOpen : Open base point passwords state)
    (kept : ∀ password, KeyOpens state.keys point.target password → KeyOpens keys point.target password)
    (adding : ∀ rest, moved.pc = .add rest →
      ∀ change ∈ rest, change.target = point.target ∧ change.newPassword = passwords call)
    (ready : moved.pc = .add [] → KeyOpens keys point.target (passwords call)) :
    Open base point passwords { state with keys, calls := Function.update state.calls call (some moved) } := by
  obtain ⟨password, stored, opens⟩ := isOpen.stored
  refine ⟨⟨password, stored, kept password opens⟩, ?_, ?_⟩
  · intro other changes rest running
    rcases of_update (· = some (Call.mk changes (.add rest))) running with ⟨rfl, same⟩ | ⟨-, before⟩
    · cases same
      exact adding rest rfl
    · exact isOpen.adding other changes rest before
  · intro other about
    rcases of_update AboutToStore about with ⟨rfl, here⟩ | ⟨-, before⟩
    · obtain ⟨changes, pc⟩ := moved
      unfold AboutToStore at here
      split at here
      next same =>
        cases same
        exact ready rfl
      next => exact here.elim
    · exact kept _ (isOpen.ready other before)

private theorem Open.add_step {call : κ} {change : RepoPasswordChange} {changes rest : List RepoPasswordChange} {keys : Keys}
    {fails : Bool} (isOpen : Open base point passwords state)
    (at_pc : state.calls call = some ⟨changes, .add (change :: rest)⟩)
    (succeeded : addRepoKey state.keys change fails = .ok keys) :
    Open base point passwords { state with keys, calls := Function.update state.calls call (some ⟨changes, .add rest⟩) } := by
  obtain ⟨password, -, opens⟩ := isOpen.stored
  have members := isOpen.adding call changes _ at_pc
  obtain ⟨target, new⟩ := members change (by simp)
  have later : ∀ other ∈ rest, other.target = point.target ∧ other.newPassword = passwords call :=
    fun other member => members other (by simp [member])
  cases addRepoKey_effect succeeded with
  | absent found same =>
    rw [target] at found
    exact absurd found opens.present
  | present known same =>
    cases same
    rw [target, new] at known
    apply isOpen.moves (fun _ => id)
    · intro _ equal
      cases equal
      exact later
    · exact fun _ => known
  | added opened found old writable update =>
    cases update
    apply isOpen.moves
    · intro other ⟨listed, same, member⟩
      rw [target] at found
      rw [found] at same
      cases same
      rw [target, keyOpens_update, if_pos rfl]
      exact List.mem_cons_of_mem _ member
    · intro _ equal
      cases equal
      exact later
    · intro _
      rw [target, new, keyOpens_update, if_pos rfl]
      exact List.mem_cons_self

private theorem Open.store {call : κ} {changes : List RepoPasswordChange} (isOpen : Open base point passwords state)
    (at_pc : state.calls call = some ⟨changes, .add []⟩) :
    Open base point passwords ⟨storing base point passwords call, state.keys,
      Function.update state.calls call (some ⟨changes, .remove changes⟩)⟩ := by
  have about : AboutToStore (state.calls call) := by
    rw [at_pc]
    trivial
  have moved : Open base point passwords { state with
      calls := Function.update state.calls call (some ⟨changes, .remove changes⟩) } :=
    isOpen.moves (fun _ => id) (by simp) (by simp)
  exact ⟨⟨passwords call, rfl, isOpen.ready call about⟩, moved.adding, moved.ready⟩

/-- A removal that is refused, or finds nothing to remove, leaves the keys. -/
theorem removeOldRepoKey_nothing {keys next : Keys} {change : RepoPasswordChange} {fails : Bool}
    (spared : ¬Removes keys change fails) (succeeded : removeOldRepoKey keys change fails = .ok next) : next = keys := by
  unfold removeOldRepoKey at succeeded
  split at succeeded
  · cases succeeded
  next works =>
    split at succeeded
    · cases succeeded
      rfl
    next opened found =>
      split at succeeded
      · cases succeeded
      next added =>
        split at succeeded
        · cases succeeded
          rfl
        next old =>
          split at succeeded
          · cases succeeded
            rfl
          next different =>
            split at succeeded
            · cases succeeded
            next writable =>
              apply absurd _ spared
              refine ⟨by simpa using works, by simpa using writable, different, ?_, ?_⟩
              · exact ⟨opened, found, not_not.mp added⟩
              · exact ⟨opened, found, not_not.mp old⟩

private theorem Open.remove_step {call : κ} {change : RepoPasswordChange} {changes rest : List RepoPasswordChange}
    {keys : Keys} {fails : Bool} (isOpen : Open base point passwords state) (member : point ∈ allPoints base)
    (spared : Removes state.keys change fails → Unused state.stored change.target change.oldPassword ∧
      ∀ other, AboutToStore (state.calls other) →
        Unused (storing base point passwords other) change.target change.oldPassword)
    (succeeded : removeOldRepoKey state.keys change fails = .ok keys) :
    Open base point passwords { state with keys, calls := Function.update state.calls call (some ⟨changes, .remove rest⟩) } := by
  by_cases removes : Removes state.keys change fails
  case neg =>
    obtain rfl := removeOldRepoKey_nothing removes succeeded
    exact isOpen.moves (fun _ => id) (by simp) (by simp)
  obtain ⟨current, pending⟩ := spared removes
  -- The point carries the password in each of these configurations, so the old one is another.
  have apart {password : Text} (unused : Unused (setPassword point.id password base) change.target change.oldPassword)
      (target : change.target = point.target) : change.oldPassword ≠ password := by
    rintro rfl
    apply unused _ (mem_points_setPassword member)
    · rw [target]
      exact (given_same ..).2.2
    · rw [given, if_pos rfl]
  have moved : Open base point passwords { state with
      calls := Function.update state.calls call (some ⟨changes, .remove rest⟩) } :=
    isOpen.moves (fun _ => id) (by simp) (by simp)
  refine ⟨?_, moved.adding, ?_⟩
  · obtain ⟨password, stored, opens⟩ := isOpen.stored
    rw [stored] at current
    exact ⟨password, stored, removeOldRepoKey_keeps succeeded opens fun target _ => apart current target⟩
  · intro other about
    rcases of_update AboutToStore about with ⟨-, here⟩ | ⟨-, before⟩
    · exact here.elim
    · exact removeOldRepoKey_keeps succeeded (isOpen.ready other before) fun target _ => apart (pending other before) target

private theorem Open.advance_step {call : κ} {fails : Bool} (isOpen : Open base point passwords state)
    (member : point ∈ allPoints base) (spared : Spares (storing base point passwords) state (.advance call fails))
    (taken : rotationsStep (storing base point passwords) state (.advance call fails) = some next) :
    Open base point passwords next := by
  simp only [rotationsStep] at taken
  split at taken
  next => cases taken
  next changes pc at_pc =>
    obtain ⟨after, moved, rfl⟩ := Option.map_eq_some_iff.mp taken
    simp only [Spares, at_pc, SparesNext] at spared
    match pc with
    | .add (change :: rest) =>
      simp only [setVfsStep] at moved
      split at moved <;> cases moved
      next keys succeeded => exact isOpen.add_step at_pc succeeded
      next => exact isOpen.moves (fun _ => id) (by simp) (by simp)
    | .add [] =>
      simp only [setVfsStep] at moved
      split at moved <;> cases moved
      next => exact isOpen.moves (fun _ => id) (by simp) (by simp)
      next => exact isOpen.store at_pc
    | .remove (change :: rest) =>
      simp only [setVfsStep] at moved
      split at moved <;> cases moved
      next keys succeeded => exact isOpen.remove_step member spared succeeded
      next => exact isOpen.moves (fun _ => id) (by simp) (by simp)
    | .remove [] =>
      cases moved
      exact isOpen.moves (fun _ => id) (by simp) (by simp)
    | .returned _ => cases moved

/-- A call that finds its own password stored has nothing to add; any other call first
has to add its password. -/
private theorem Open.read_step {call : κ} {fails : Bool} (isOpen : Open base point passwords state)
    (usernames : (base.map VfsUser.username).Nodup) (ids : ((allPoints base).map VfsPoint.id).Nodup)
    (member : point ∈ allPoints base) (repo : point.isRepo = true)
    (taken : rotationsStep (storing base point passwords) state (.read call fails) = some next) :
    Open base point passwords next := by
  obtain ⟨password, stored, opens⟩ := isOpen.stored
  simp only [rotationsStep] at taken
  split at taken
  next => cases taken
  next =>
    split at taken <;> cases taken
    next => exact isOpen.moves (fun _ => id) (by simp) (by simp)
    next =>
      apply isOpen.moves (fun _ => id)
      · intro _ equal change found
        cases equal
        rw [stored] at found
        exact change_of_point ids member found
      · intro nothing
        rw [stored] at nothing
        by_cases same : password = passwords call
        · rw [← same]
          exact opens
        · exact absurd (SetVfsPc.add.inj nothing) (change_exists usernames ids member repo same)

theorem Open.step {event : RotationsEvent κ} (isOpen : Open base point passwords state)
    (usernames : (base.map VfsUser.username).Nodup) (ids : ((allPoints base).map VfsPoint.id).Nodup)
    (member : point ∈ allPoints base) (repo : point.isRepo = true)
    (spared : Spares (storing base point passwords) state event)
    (taken : rotationsStep (storing base point passwords) state event = some next) : Open base point passwords next := by
  cases event with
  | read call fails => exact isOpen.read_step usernames ids member repo taken
  | advance call fails => exact isOpen.advance_step member spared taken

/-- While no call removes a password that is stored or about to be, the stored password
of the point opens its repository, however the calls overlap and fail. -/
theorem spared_rotations_keep_point_open (request base : List VfsUser) (accepted : normalizeVfsUsers request = .ok base)
    (point : VfsPoint) (member : point ∈ allPoints base) (repo : point.isRepo = true) (password : Text)
    (passwords : κ → Text) (keys : Keys) (opens : KeyOpens keys point.target password) (events : List (RotationsEvent κ))
    (final : RotationsState κ)
    (spared : Guarded (rotationsStep (storing base point passwords)) (Spares (storing base point passwords))
      (rotationsStart (setPassword point.id password base) keys) events)
    (executed : run (rotationsStep (storing base point passwords))
      (rotationsStart (setPassword point.id password base) keys) events = some final) : PointOpens point final := by
  have first : Open base point passwords (rotationsStart (setPassword point.id password base) keys) :=
    ⟨⟨password, rfl, opens⟩, by simp [rotationsStart], by simp [rotationsStart, AboutToStore]⟩
  have isOpen : Open base point passwords final := by
    apply guarded_invariant _ first spared executed
    intro state event next holds allowed taken
    exact holds.step (normalizeVfsUsers_usernames accepted) (normalizeVfsUsers_ids accepted) member repo allowed taken
  exact isOpen.pointOpens member repo

end Calls

/-- The calls' passwords for the point of alice. -/
def choices (first second : String) (call : Bool) : Text := if call then second.toList else first.toList

/-- The second call starts from the password that the first one has just stored. -/
def chainedRun : List (RotationsEvent Bool) :=
  [.read false false, .advance false false, .advance false false, .read true false, .advance true false,
    .advance false false, .advance true false, .advance false false, .advance true false, .advance true false]

theorem chained_rotations_keep_point_open : ∃ final : RotationsState Bool,
    run (rotationsStep (storing [aliceWith "x"] (repoPoint 1 "x") (choices "y" "z")))
      (rotationsStart (setPassword 1 "x".toList [aliceWith "x"]) (oneKey "x")) chainedRun = some final ∧
    final.stored = [aliceWith "z"] ∧ PointOpens (repoPoint 1 "x") final := by
  refine ⟨_, rfl, by decide, ?_⟩
  apply spared_rotations_keep_point_open [aliceWith "x"] [aliceWith "x"] rfl (repoPoint 1 "x") (by decide) rfl "x".toList
    (choices "y" "z") (oneKey "x") ⟨["x".toList], rfl, by simp⟩ chainedRun
  · decide
  · rfl

/-- The second call changes the password back before the first one has removed it. -/
def crossingRun : List (RotationsEvent Bool) :=
  [.read false false, .advance false false, .advance false false, .read true false, .advance true false,
    .advance true false, .advance false false, .advance false false, .advance true false, .advance true false]

theorem crossing_rotations_lock_out : ∃ final : RotationsState Bool,
    normalizeVfsUsers [aliceWith "x"] = .ok [aliceWith "x"] ∧
    KeyOpens (oneKey "x") (repoPoint 1 "x").target "x".toList ∧
    run (rotationsStep (storing [aliceWith "x"] (repoPoint 1 "x") (choices "y" "x")))
      (rotationsStart (setPassword 1 "x".toList [aliceWith "x"]) (oneKey "x")) crossingRun = some final ∧
    (∀ call, (final.calls call).map Call.pc = some (.returned none)) ∧ ¬PointOpens (repoPoint 1 "x") final := by
  refine ⟨_, rfl, ⟨["x".toList], rfl, by simp⟩, rfl, by decide, ?_⟩
  rintro ⟨kept, member, -, password, given, opened, found, known⟩
  have inside : kept ∈ [repoPoint 1 "x"] := member
  obtain rfl := List.mem_singleton.mp inside
  cases given
  have same : some ["y".toList] = some opened := found
  cases same
  revert known
  decide

end Vaulton.Proofs.Rotations
