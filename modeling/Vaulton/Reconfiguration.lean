import Mathlib.Data.List.Sort
import Vaulton.DataOps
import Vaulton.Lib.Cache
import Vaulton.QuotaReset
import Vaulton.WriteHandles

/-! A whole SetVfs request with no other request running (`GrpcServer::set_vfs`, with
`DbManager::set_users` and `StorageManager::invalidate_vfs`): from the conversion of its
message to the removal of the old repository keys. Cached operators and health records are
represented by the user record and the point that they were made from. -/

namespace Vaulton.Reconfiguration
open Vaulton.Config Vaulton.DataOps Vaulton.Lib Vaulton.Quota Vaulton.SetVfs Vaulton.WriteHandles

/-! ### The message -/

structure ProtoPoint where
  scheme : Text
  root : Text
  config : List (Text × Text)
  /-- A map field has every key once. -/
  distinct : (config.map Prod.fst).Nodup

/-- The `src` of a `ProtoVfsPoint`. -/
inductive ProtoSrc where
  | data (point : ProtoPoint)
  | repo (src : Option ProtoPoint) (password : Text)

structure ProtoVfsPoint where
  id : Text
  name : Text
  maxBytes : Nat
  canWrite : Bool
  src : Option ProtoSrc

structure ProtoVfsUser where
  name : Text
  points : List ProtoVfsPoint

def validateRepoPassword (password : Text) : Except Status Unit :=
  if password = [] then .error ⟨.invalidArgument, "repository password must not be empty"⟩
  else if password.any isControl then .error ⟨.invalidArgument, "repository password contains a control character"⟩
  else .ok ()

/-- The options with the root of the point among them, in the order of their keys. -/
def ProtoPoint.options (point : ProtoPoint) : List (Text × Text) :=
  let config := if point.root = [] then point.config
    else ("root".toList, point.root) :: point.config.filter fun option => option.1 ≠ "root".toList
  config.insertionSort fun first second => first.1 ≤ second.1

/-- `VfsPoint::try_from`; `parseUuid` is `Uuid::parse_str`. -/
def pointTryFrom (parseUuid : Text → Option Uuid) (point : ProtoVfsPoint) : Except Status VfsPoint := do
  let (source, isRepo, repoPassword) ←
    match point.src with
    | some (.data source) => Except.ok (source, false, none)
    | some (.repo none _) => .error ⟨.invalidArgument, "VfsPoint[repo].src is required"⟩
    | some (.repo (some source) password) => .ok (source, true, some password)
    | none => .error ⟨.invalidArgument, "VfsPoint.src is required"⟩
  if isRepo then validateRepoPassword (repoPassword.getD [])
  match parseUuid point.id with
  | none => .error ⟨.invalidArgument, "Failed to parse UUID"⟩
  | some id => .ok {
      id := id
      name := point.name
      maxBytes := if point.maxBytes = 0 then none else some point.maxBytes
      readOnly := !point.canWrite
      scheme := source.scheme
      config := source.options
      isRepo := isRepo
      repoPassword := repoPassword }

/-- The options as they are sent back: the root in its own field. A map has every key once. -/
def ProtoPoint.ofOptions (scheme : Text) (config : List (Text × Text)) (distinct : (config.map Prod.fst).Nodup) : ProtoPoint where
  scheme := scheme
  root := ((config.find? fun option => option.1 = "root".toList).map Prod.snd).getD []
  config := config.filter fun option => option.1 ≠ "root".toList
  distinct := distinct.sublist (List.filter_sublist.map Prod.fst)

/-- `ProtoVfsPoint::from`. -/
def protoPointFrom (point : VfsPoint) (distinct : (point.config.map Prod.fst).Nodup) : ProtoVfsPoint :=
  let source := ProtoPoint.ofOptions point.scheme point.config distinct
  { id := point.id.hyphenated
    name := point.name
    maxBytes := point.maxBytes.getD 0
    canWrite := !point.readOnly
    src := some (if point.isRepo then .repo (some source) (point.repoPassword.getD []) else .data source) }

/-- `VfsUser::try_from`. -/
def userTryFrom (parseUuid : Text → Option Uuid) (user : ProtoVfsUser) : Except Status VfsUser := do
  return ⟨user.name, ← user.points.mapM (pointTryFrom parseUuid)⟩

/-- The configuration that a request asks for. -/
def normalizedRequest (parseUuid : Text → Option Uuid) (request : List ProtoVfsUser) : Except Status (List VfsUser) := do
  normalizeVfsUsers (← request.mapM (userTryFrom parseUuid))

/-! ### The database -/

inductive DbError where
  | sql (error : String)
  | serde (error : String)

def DbError.status : DbError → Status
  | .sql error => ⟨.internal, s!"sql error: {error}"⟩
  | .serde error => ⟨.internal, s!"serialization error: {error}"⟩

/-- `get_users` reads the rows in the order of their usernames. -/
def getUsers (table : List VfsUser) : List VfsUser :=
  table.insertionSort fun first second => first.username ≤ second.username

def validateDbUsername (username : Text) : Except Status Unit :=
  if username = [] ∨ username = ".".toList ∨ username = "..".toList then
    .error ⟨.internal, "internal error: invalid username"⟩
  else if username.any illegalChar then
    .error ⟨.internal, "internal error: username contains an illegal character"⟩
  else .ok ()

def checkUsernames : List Text → List VfsUser → Except Status Unit
  | _, [] => .ok ()
  | usernames, user :: rest => do
    validateDbUsername user.username
    if user.username ∈ usernames then throw ⟨.internal, s!"internal error: duplicate username '{user.username.str}'"⟩
    checkUsernames (user.username :: usernames) rest

/-- `set_users` replaces all rows in one transaction, so a failure leaves the old ones. -/
def setUsers (fails : Option DbError) (users : List VfsUser) : Except Status (List VfsUser) := do
  checkUsernames [] users
  validatePointIds users
  match fails with
  | some error => .error error.status
  | none => .ok users

/-! ### What the server holds -/

structure RepoSource where
  scheme : Text
  config : List (Text × Text)
  password : Text
  deriving DecidableEq

/-- What names the repository in the caches; data points have none. -/
def pointSource (point : VfsPoint) : Option RepoSource :=
  if point.isRepo then point.repoPassword.map fun password => ⟨point.scheme, point.config, password⟩ else none

structure OwnedPoint where
  user : VfsUser
  point : VfsPoint
  owned : point ∈ user.points

inductive PointHealth where
  | healthy
  | failed (error : String)

structure HealthRecord where
  of : OwnedPoint
  health : PointHealth

structure StorageManager where
  repos : Cache fun (record : OwnedPoint) source => pointSource record.point = some source
  repoVfsOps : Cache fun (record : OwnedPoint) source => pointSource record.point = some source
  dataOps : Cache fun (record : OwnedPoint) id => record.point.id = id
  vfsOps : Cache fun (user : VfsUser) username => user.username = username
  degradedOps : Cache fun (user : VfsUser) username => user.username = username
  health : Cache fun (record : HealthRecord) id => record.of.point.id = id
  vfsGeneration : Text → Option Nat

structure JobHandle where
  user : Text
  cancelled : Bool

structure Server where
  /-- The rows of the table `users`. -/
  users : List VfsUser
  keys : Keys
  /-- The cells of the quota ids in use; a cell stays empty when its load has failed. -/
  buckets : String → Option (Option QuotaCounter)
  /-- The bytes stored for each quota id. -/
  tracker : String → Option Nat
  jobs : List (Uuid × JobHandle)
  writeHandles : List (Uuid × Handle)
  /-- The handles given to `close_write_handle`. -/
  closing : List (Uuid × Handle)
  readHandles : List (Text × Handle)
  /-- The handles taken out of `read_handles`. -/
  expired : List (Text × Handle)
  storage : StorageManager

/-! ### The differences of two configurations -/

/-- The quota of a stored point of a user that the request keeps but changes. -/
def removedQuota (username : Text) (newUser : VfsUser) (oldPoint : VfsPoint) : Option Text :=
  match newUser.points.find? fun point => point.id = oldPoint.id with
  | none => some (quotaId username oldPoint.id)
  | some newPoint =>
    -- Another storage target under the same id must not inherit the accounting.
    if oldPoint.scheme ≠ newPoint.scheme ∨ oldPoint.config ≠ newPoint.config ∨ oldPoint.isRepo ≠ newPoint.isRepo then
      some (quotaId username oldPoint.id)
    else none

def removedQuotas (oldUsers users : List VfsUser) : List Text :=
  oldUsers.flatMap fun oldUser =>
    match users.find? fun user => user.username = oldUser.username with
    | some newUser =>
      if newUser ≠ oldUser then oldUser.points.filterMap (removedQuota oldUser.username newUser) else []
    | none => oldUser.points.map fun point => quotaId oldUser.username point.id

/-! ### Repository keys -/

/-- Phase 1 up to its first failure; `fails` are failures outside the server. -/
def addRepoKeys (fails : Nat → Bool) : Nat → List RepoPasswordChange → Keys → Except Status Unit × Keys
  | _, [], keys => (.ok (), keys)
  | turn, change :: rest, keys =>
    match addRepoKey keys change (fails turn) with
    | .ok keys => addRepoKeys fails (turn + 1) rest keys
    | .error error => (.error (rotationError change error), keys)

/-- Phase 2: a failure only leaves the old password valid. -/
def removeOldRepoKeys (fails : Nat → Bool) : Nat → List RepoPasswordChange → Keys → Keys
  | _, [], keys => keys
  | turn, change :: rest, keys =>
    match removeOldRepoKey keys change (fails turn) with
    | .ok keys => removeOldRepoKeys fails (turn + 1) rest keys
    | .error _ => removeOldRepoKeys fails (turn + 1) rest keys

/-! ### After the write -/

def Server.cancelJobs (server : Server) (usernames : List Text) : Server :=
  { server with
    jobs := server.jobs.map fun (id, job) => if job.user ∈ usernames then (id, { job with cancelled := true }) else (id, job) }

def Server.invalidateUserWriteHandles (server : Server) (username : Text) : Server :=
  { server with
    writeHandles := server.writeHandles.filter fun entry => entry.2.username ≠ username
    closing := server.closing ++ server.writeHandles.filter fun entry => entry.2.username = username }

def Server.invalidateUserReadHandles (server : Server) (username : Text) : Server :=
  { server with
    readHandles := server.readHandles.filter fun entry => entry.2.username ≠ username
    expired := server.expired ++ server.readHandles.filter fun entry => entry.2.username = username }

def StorageManager.invalidatePoint (storage : StorageManager) (point : VfsPoint) : StorageManager :=
  let storage := { storage with
    health := storage.health.invalidate point.id
    dataOps := storage.dataOps.invalidate point.id }
  match pointSource point with
  | none => storage
  | some source => { storage with
      repoVfsOps := storage.repoVfsOps.invalidate source
      repos := storage.repos.invalidate source }

def nextGeneration : Option Nat → Nat
  | some generation => saturatingAdd generation 1
  | none => 1

def StorageManager.invalidateVfs (storage : StorageManager) (user : VfsUser) : StorageManager :=
  user.points.foldl StorageManager.invalidatePoint { storage with
    vfsGeneration :=
      Function.update storage.vfsGeneration user.username (some (nextGeneration (storage.vfsGeneration user.username)))
    vfsOps := storage.vfsOps.invalidate user.username
    degradedOps := storage.degradedOps.invalidate user.username }

def Server.invalidateUser (server : Server) (user : VfsUser) : Server :=
  let server := (server.invalidateUserWriteHandles user.username).invalidateUserReadHandles user.username
  { server with storage := server.storage.invalidateVfs user }

/-- `QuotaState::reset` on a cell. -/
def resetCell : Option (Option QuotaCounter) → Option QuotaCounter
  | some (some counter) => some { counter with bytes := 0, dirty := true }
  | _ => some { QuotaCounter.new 0 with dirty := true }

def Server.clearQuota (server : Server) (id : Text) : Server :=
  { server with buckets := Function.update server.buckets id.str (some (resetCell (server.buckets id.str))) }

/-- The cleanup of `set_vfs` once the new configuration is stored. -/
def Server.cleanUp (server : Server) (oldUsers users : List VfsUser) : Server :=
  let changed := changedUsers oldUsers users
  (removedQuotas oldUsers users).foldl Server.clearQuota
    (changed.foldl Server.invalidateUser (server.cancelJobs (changed.map VfsUser.username)))

/-! ### The request -/

/-- What fails outside the server during one request. -/
structure Failures where
  read : Option DbError
  addKey : Nat → Bool
  write : Option DbError
  removeKey : Nat → Bool

def setVfs (parseUuid : Text → Option Uuid) (failures : Failures) (request : List ProtoVfsUser) (server : Server) :
    Except Status Unit × Server :=
  match normalizedRequest parseUuid request with
  | .error status => (.error status, server)
  | .ok users =>
    match failures.read with
    | some error => (.error error.status, server)
    | none =>
      let oldUsers := getUsers server.users
      let changes := passwordChanges oldUsers users
      match addRepoKeys failures.addKey 0 changes server.keys with
      | (.error status, keys) => (.error status, { server with keys })
      | (.ok (), keys) =>
        match setUsers failures.write users with
        | .error status => (.error status, { server with keys })
        | .ok stored =>
          let server := { server with users := stored, keys }.cleanUp oldUsers users
          (.ok (), { server with keys := removeOldRepoKeys failures.removeKey 0 changes server.keys })

end Vaulton.Reconfiguration
