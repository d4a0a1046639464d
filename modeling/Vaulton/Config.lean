import Mathlib

/-! Users, mount points and their validation (`ipc/src/core.rs`, the checks of
`ipc/src/utils.rs` and `normalize_vfs_users` of `ipc/src/server.rs`). Strings are lists
of characters. -/

namespace Vaulton.Config

abbrev Text := List Char

instance Text.lawfulBEq : LawfulBEq Text := inferInstance

/-- The gRPC codes the modelled functions answer with. -/
inductive Code where
  | invalidArgument
  | notFound
  | alreadyExists
  | permissionDenied
  | resourceExhausted
  | failedPrecondition
  | unimplemented
  | internal
  deriving DecidableEq, Repr

structure Status where
  code : Code
  message : String
  deriving DecidableEq, Repr

abbrev Text.str (text : Text) : String := String.ofList text

/-! ### Identifiers -/

abbrev Uuid := BitVec 128

def hexDigit (value : Nat) : Char :=
  match "0123456789abcdef".toList[value]? with
  | some digit => digit
  | none => '0'

/-- `Uuid::simple`: 32 lower-case hex digits. -/
def Uuid.simple (id : Uuid) : Text :=
  (List.range 32).map fun index => hexDigit (id.toNat / 16 ^ (31 - index) % 16)

/-- `Display` for `Uuid`: the same digits in groups of 8, 4, 4, 4 and 12. -/
def Uuid.hyphenated (id : Uuid) : Text :=
  let digits := id.simple
  [digits.take 8, (digits.drop 8).take 4, (digits.drop 12).take 4, (digits.drop 16).take 4, digits.drop 20].intersperse ['-']
    |>.flatten

/-! ### Users and points -/

structure VfsPoint where
  id : Uuid
  name : Text
  maxBytes : Option Nat
  readOnly : Bool
  scheme : Text
  /-- The storage options in the order of their keys. -/
  config : List (Text × Text)
  isRepo : Bool
  repoPassword : Option Text
  deriving DecidableEq

structure VfsUser where
  username : Text
  points : List VfsPoint
  deriving DecidableEq

/-- Where the storage of a point is: scheme and options. -/
abbrev Target := Text × List (Text × Text)

def VfsPoint.target (point : VfsPoint) : Target := (point.scheme, point.config)

/-- The points of all users. -/
def allPoints (users : List VfsUser) : List VfsPoint := users.flatMap VfsUser.points

/-- Control characters: the Unicode category Cc. -/
def isControl (c : Char) : Bool := c.toNat < 0x20 || (0x7f ≤ c.toNat && c.toNat < 0xa0)

/-- Path separators and control characters may stand in no name. -/
def illegalChar (c : Char) : Bool := c == '/' || c == '\\' || isControl c

def validateUsername (username : Text) : Except Status Unit :=
  if username = [] ∨ username = ".".toList ∨ username = "..".toList then
    .error ⟨.invalidArgument, "username must not be empty or dot"⟩
  else if username.any illegalChar then .error ⟨.invalidArgument, "username contains an illegal character"⟩
  else .ok ()

/-- One turn of the loop of `validate_point_ids`, with the ids seen so far. -/
def checkPointId (username : Text) (seen : List (Uuid × Text × Text)) (point : VfsPoint) :
    Except Status (List (Uuid × Text × Text)) :=
  if point.id = 0 then
    .error ⟨.invalidArgument, s!"invalid configuration: point '{point.name.str}' of user '{username.str}' has a nil ID"⟩
  else
    match seen.find? fun entry => entry.1 = point.id with
    | some (_, otherUser, otherName) =>
      .error ⟨.invalidArgument, s!"invalid configuration: point ID {point.id.hyphenated.str} is used by both " ++
        s!"'{otherUser.str}/{otherName.str}' and '{username.str}/{point.name.str}'"⟩
    | none => .ok ((point.id, username, point.name) :: seen)

def validatePointIds (users : List VfsUser) : Except Status Unit := do
  let _ ← users.foldlM (fun seen user => user.points.foldlM (checkPointId user.username) seen) []
  return ()

/-! ### Normalisation -/

def suffixLengths : List Nat := [8, 12, 16, 20, 24, 32]

/-- The counter loop, which ends because only finitely many names are taken. -/
def countedName (taken : Text → Bool) (base : Text) : Nat → Nat → Option Text
  | 0, _ => none
  | fuel + 1, suffix =>
    let candidate := base ++ '-' :: Nat.toDigits 10 suffix
    if taken candidate then countedName taken base fuel (suffix + 1) else some candidate

/-- A free name made of the requested one and a part of the id. -/
def assignName (taken : Text → Bool) (fuel : Nat) (name : Text) (id : Uuid) : Option Text :=
  match (suffixLengths.map fun length => name ++ '-' :: id.simple.take length).find? fun candidate => !taken candidate with
  | some candidate => some candidate
  | none => countedName taken (name ++ '-' :: id.simple) fuel 2

/-- The checks on one point, before its name is made unique. -/
def checkPoint (username : Text) (point : VfsPoint) : Except Status Unit :=
  if point.name = [] then
    .error ⟨.invalidArgument, s!"point '{point.id.hyphenated.str}' for user '{username.str}' has an empty name"⟩
  else if point.isRepo ∧ point.repoPassword = none then
    .error ⟨.invalidArgument, s!"repo point '{point.name.str}' is missing a repository password"⟩
  else if point.isRepo ∧ point.repoPassword = some [] then
    .error ⟨.invalidArgument, s!"repo point '{point.name.str}' has an empty repository password"⟩
  else if point.name = ".".toList ∨ point.name = "..".toList ∨ point.name.any illegalChar then
    .error ⟨.invalidArgument, s!"invalid VFS point name '{point.name.str}'"⟩
  else .ok ()

abbrev Names := List (Bool × Text)

/-- One point of `normalize_vfs_users`: names are unique within a user and a kind. -/
def normalizePoint (username : Text) (names : Names) (point : VfsPoint) : Except Status (Names × VfsPoint) := do
  checkPoint username point
  if (point.isRepo, point.name) ∉ names then
    return ((point.isRepo, point.name) :: names, point)
  else
    match assignName (fun candidate => decide ((point.isRepo, candidate) ∈ names)) (names.length + 1) point.name point.id with
    | some assigned => return ((point.isRepo, assigned) :: names, { point with name := assigned })
    | none => throw ⟨.internal, s!"failed to assign a unique name for point '{point.name.str}'"⟩

def normalizePoints (username : Text) : Names → List VfsPoint → Except Status (List VfsPoint)
  | _, [] => .ok []
  | names, point :: rest => do
    let (names, point) ← normalizePoint username names point
    let rest ← normalizePoints username names rest
    return point :: rest

def normalizeUsers : List Text → List VfsUser → Except Status (List VfsUser)
  | _, [] => .ok []
  | usernames, user :: rest => do
    validateUsername user.username
    if user.username ∈ usernames then throw ⟨.invalidArgument, s!"duplicate username '{user.username.str}'"⟩
    let points ← normalizePoints user.username [] user.points
    let rest ← normalizeUsers (user.username :: usernames) rest
    return { user with points } :: rest

def normalizeVfsUsers (users : List VfsUser) : Except Status (List VfsUser) := do
  validatePointIds users
  normalizeUsers [] users

end Vaulton.Config
