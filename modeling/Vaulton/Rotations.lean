import Vaulton.SetVfs

/-! Any number of SetVfs calls in flight together. A call reads the stored users and then
runs the two-phase rotation on the database and the repositories all calls share; the
locks of the storage manager are held within a step only. -/

namespace Vaulton.Rotations
open Vaulton.Config Vaulton.SetVfs

/-- A call that has read the stored users, with the rotations it found. -/
structure Call where
  changes : List RepoPasswordChange
  pc : SetVfsPc
  deriving DecidableEq

structure RotationsState (κ : Type) where
  stored : List VfsUser
  keys : Keys
  /-- `none` until the call has read the stored users. -/
  calls : κ → Option Call

inductive RotationsEvent (κ : Type) where
  | read (call : κ) (fails : Bool)
  | advance (call : κ) (fails : Bool)
  deriving DecidableEq

def rotationsStart {κ : Type} (stored : List VfsUser) (keys : Keys) : RotationsState κ := ⟨stored, keys, fun _ => none⟩

variable {κ : Type} [DecidableEq κ]

/-- One step of the calls, of which `call` stores `users call`. -/
def rotationsStep (users : κ → List VfsUser) (state : RotationsState κ) : RotationsEvent κ → Option (RotationsState κ)
  | .read call fails =>
    match state.calls call with
    | some _ => none
    | none =>
      if fails then
        some { state with calls := Function.update state.calls call (some ⟨[], .returned (some ⟨.internal, "database error"⟩)⟩) }
      else
        let changes := passwordChanges state.stored (users call)
        some { state with calls := Function.update state.calls call (some ⟨changes, .add changes⟩) }
  | .advance call fails =>
    match state.calls call with
    | none => none
    | some ⟨changes, pc⟩ => (setVfsStep changes (users call) ⟨state.stored, state.keys, pc⟩ fails).map fun next =>
        ⟨next.stored, next.keys, Function.update state.calls call (some ⟨changes, next.pc⟩)⟩

/-- The users with another password for the repo point `id`. -/
def setPassword (id : Uuid) (password : Text) (users : List VfsUser) : List VfsUser :=
  users.map fun user => { user with
    points := user.points.map fun point => if point.id = id then { point with repoPassword := some password } else point }

end Vaulton.Rotations
