import Vaulton.Config

/-! The two-phase password rotation of SetVfs: new keys are added to the repositories,
the configuration is stored, old keys are removed. A repository is the set of passwords
that open it; one SetVfs call is cut after every access to a repository or the database. -/

namespace Vaulton.SetVfs
open Vaulton.Config

/-- The passwords that open each repository, `none` where there is none yet. -/
abbrev Keys := Target → Option (List Text)

structure RepoPasswordChange where
  user : Text
  point : Text
  target : Target
  oldPassword : Text
  newPassword : Text
  allowWrite : Bool
  deriving DecidableEq

/-- The change of one stored repo point, looked up in the new points of its user. -/
def pointChange (newUser : VfsUser) (oldPoint : VfsPoint) : Option RepoPasswordChange :=
  match newUser.points.find? fun point => point.id = oldPoint.id ∧ point.isRepo with
  | none => none
  | some newPoint =>
    match oldPoint.repoPassword, newPoint.repoPassword with
    | some oldPassword, some newPassword =>
      if oldPassword = newPassword then none
      -- Another storage target is another repository: no rotation.
      else if oldPoint.scheme ≠ newPoint.scheme ∨ oldPoint.config ≠ newPoint.config then none
      else some {
        user := newUser.username
        point := newPoint.name
        target := oldPoint.target
        oldPassword := oldPassword
        newPassword := newPassword
        allowWrite := !newPoint.readOnly }
    | _, _ => none

def passwordChanges (oldUsers users : List VfsUser) : List RepoPasswordChange :=
  oldUsers.flatMap fun oldUser =>
    match users.find? fun user => user.username = oldUser.username with
    | none => []
    | some newUser => (oldUser.points.filter VfsPoint.isRepo).filterMap (pointChange newUser)

def addRepoKey (keys : Keys) (change : RepoPasswordChange) (fails : Bool) : Except String Keys :=
  if fails then .error "backend error"
  else
    match keys change.target with
    | none => .ok keys
    | some opened =>
      if change.newPassword ∈ opened then .ok keys
      else if change.oldPassword ∉ opened then
        .error "cannot open the repository with the old or the new password"
      else if change.allowWrite = false then
        .error "repository point is read-only; cannot add a key for the new password"
      else .ok (Function.update keys change.target (some (change.newPassword :: opened)))

def removeOldRepoKey (keys : Keys) (change : RepoPasswordChange) (fails : Bool) : Except String Keys :=
  if fails then .error "backend error"
  else
    match keys change.target with
    | none => .ok keys
    | some opened =>
      if change.newPassword ∉ opened then .error "cannot open the repository with the new password"
      else if change.oldPassword ∉ opened then .ok keys
      else if change.oldPassword = change.newPassword then .ok keys
      else if change.allowWrite = false then .error "repository point is read-only; cannot remove the old key"
      else .ok (Function.update keys change.target (some (opened.filter fun password => password ≠ change.oldPassword)))

/-- The stored users that the request changes or removes. -/
def changedUsers (oldUsers users : List VfsUser) : List VfsUser :=
  oldUsers.filter fun oldUser =>
    match users.find? fun user => user.username = oldUser.username with
    | some newUser => decide (newUser ≠ oldUser)
    | none => true

inductive SetVfsPc where
  /-- Phase 1; with nothing left to add, the next step stores the configuration. -/
  | add (rest : List RepoPasswordChange)
  | remove (rest : List RepoPasswordChange)
  | returned (error : Option Status)
  deriving DecidableEq

structure SetVfsState where
  stored : List VfsUser
  keys : Keys
  pc : SetVfsPc

def rotationError (change : RepoPasswordChange) (error : String) : Status :=
  ⟨.failedPrecondition,
    s!"failed to change the repository password of point '{change.point.str}' (user '{change.user.str}'): {error}"⟩

/-- One step of a SetVfs call that stores `users`; `fails` is a failure outside the server. -/
def setVfsStep (changes : List RepoPasswordChange) (users : List VfsUser) (state : SetVfsState) (fails : Bool) :
    Option SetVfsState :=
  match state.pc with
  | .add (change :: rest) =>
    match addRepoKey state.keys change fails with
    | .ok keys => some { state with keys, pc := .add rest }
    | .error error => some { state with pc := .returned (some (rotationError change error)) }
  | .add [] =>
    if fails then some { state with pc := .returned (some ⟨.internal, "database error"⟩) }
    else some { state with stored := users, pc := .remove changes }
  | .remove (change :: rest) =>
    -- A failure only leaves the old password valid.
    match removeOldRepoKey state.keys change fails with
    | .ok keys => some { state with keys, pc := .remove rest }
    | .error _ => some { state with pc := .remove rest }
  | .remove [] => some { state with pc := .returned none }
  | .returned _ => none

def setVfsStart (oldUsers users : List VfsUser) (keys : Keys) : SetVfsState :=
  ⟨oldUsers, keys, .add (passwordChanges oldUsers users)⟩

end Vaulton.SetVfs
