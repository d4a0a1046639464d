import Vaulton.Proofs.Paths
import Vaulton.Proofs.TransferJob

/-! The plan that Vfs_Transfer makes. Source and destination are texts of places below two
points; the operators find these places again, and the places below a directory from the
texts that `copy_tree` puts together. -/

namespace Vaulton.Proofs.Transfer
open Vaulton.Lib Vaulton.Config Vaulton.Paths Vaulton.Transfer
open Vaulton.Proofs.Config Vaulton.Proofs.Paths Vaulton.Proofs.TransferJob

/-! ### Texts of places -/

/-- The path of a place in the VFS of the point's user. -/
def vfsText (point : VfsPoint) (path : Path) (isDir : Bool) : Text :=
  '/' :: join '/' (pointRoot point :: point.name :: path.map Subtype.val) ++ if isDir then ['/'] else []

theorem toName_val (name : Name) : toName name.1 = some name := dif_pos name.2

theorem segments_join (path : Path) (closing : Text) (slash : closing = [] ∨ closing = ['/']) :
    segments (join '/' (path.map Subtype.val) ++ closing) = path := by
  have names : (path.map Subtype.val).filterMap toName = path := by
    rw [List.filterMap_map]
    exact (List.filterMap_congr fun name _ => toName_val name).trans (List.filterMap_some)
  unfold segments
  by_cases empty : path = []
  · subst path
    rcases slash with rfl | rfl <;> rfl
  · have parts := (names_separated path).splitOn (mt List.map_eq_nil_iff.mp empty)
    rcases slash with rfl | rfl
    · rw [List.append_nil, parts, names]
    · rw [List.splitOn_append_cons_self, parts, List.filterMap_append, names, List.splitOn_nil]
      exact List.append_nil path

/-- The operator mounts the point. -/
structure Mounted (operator : Operator) (point : VfsPoint) : Prop where
  plain : PlainSegment point.name
  resolves : ∀ path isDir, resolvePath operator (vfsText point path isDir) =
    some (pointMountPath point, point.id, join '/' (path.map Subtype.val) ++
      if isDir = true ∧ join '/' (path.map Subtype.val) ≠ [] then ['/'] else [])

theorem place_separated {point : VfsPoint} (plain : PlainSegment point.name) (path : Path) :
    Separated '/' (pointRoot point :: point.name :: path.map Subtype.val) := by
  have root := pointRoot_plain point
  intro part member
  rcases List.mem_cons.mp member with rfl | later
  · exact ⟨root.nonempty, root.noSlash⟩
  · rcases List.mem_cons.mp later with rfl | inside
    · exact ⟨plain.nonempty, plain.noSlash⟩
    · exact names_separated path part inside

variable {operator : Operator} {point : VfsPoint} {storage : Storage}

theorem Mounted.locate (mounted : Mounted operator point) (path : Path) (isDir : Bool) :
    locate operator (vfsText point path isDir) = some (point.id, path) := by
  unfold Vaulton.Transfer.locate
  rw [mounted.resolves, Option.map_some]
  simp only
  rw [segments_join]
  split
  · exact .inr rfl
  · exact .inl rfl

theorem withSlash_vfsText (point : VfsPoint) (path : Path) : withSlash (vfsText point path true) = vfsText point path true := by
  unfold withSlash vfsText
  exact if_pos (by rw [if_pos rfl, List.getLast?_append]; rfl)

theorem listedPath_vfsText (point : VfsPoint) (path : Path) {rel : Path} (nonempty : rel ≠ []) (isDir : Bool) :
    listedPath (vfsText point path true) rel isDir = vfsText point (path ++ rel) isDir := by
  have more : rel.map Subtype.val ≠ [] := mt List.map_eq_nil_iff.mp nonempty
  have joined := join_append '/' (List.cons_ne_nil (pointRoot point) (point.name :: path.map Subtype.val)) more
  unfold listedPath vfsText pathText
  rw [if_pos rfl, List.map_append, ← List.cons_append, ← List.cons_append, joined]
  simp

/-! ### Stat -/

theorem getLast_vfsText (plain : PlainSegment point.name) (path : Path) (isDir : Bool) :
    (vfsText point path isDir).getLast? = some '/' ↔ isDir = true :=
  getLast_join (place_separated plain path) (by simp) isDir

/-- What a stat of a place finds, by the node at the place. -/
def found (answer : StatAnswer) (isDir : Bool) : Option (Node Bytes) → Option Metadata
  | none => none
  | some .dir => if answer.plainDir ∨ isDir then some (metadataOf .dir) else none
  | some (.file content) => if answer.slashFile ∨ isDir = false then some (metadataOf (.file content)) else none

theorem found_some {answer : StatAnswer} {isDir : Bool} {node : Option (Node Bytes)} {result : Metadata}
    (answered : found answer isDir node = some result) : ∃ here, node = some here ∧ result = metadataOf here := by
  match node with
  | none => cases answered
  | some .dir =>
    simp only [found, Option.ite_none_right_eq_some, Option.some.injEq] at answered
    exact ⟨.dir, rfl, answered.2.symm⟩
  | some (.file content) =>
    simp only [found, Option.ite_none_right_eq_some, Option.some.injEq] at answered
    exact ⟨.file content, rfl, answered.2.symm⟩

theorem metadata_vfsText (mounted : Mounted operator point) (answer : StatAnswer) {path : Path} (nonempty : path ≠ [])
    (isDir : Bool) :
    metadata storage operator answer (vfsText point path isDir) = found answer isDir (nodeAt storage (point.id, path)) := by
  have text : join '/' (path.map Subtype.val) ≠ [] :=
    mt (names_separated path).join_eq_nil.mp (mt List.map_eq_nil_iff.mp nonempty)
  unfold metadata
  rw [mounted.resolves]
  simp only [List.append_eq_nil_iff, text, false_and, and_false, if_false]
  rw [segments_join _ _ (by split <;> simp)]
  simp only [getLast_vfsText mounted.plain, ne_eq, Bool.not_eq_true]
  rfl

theorem metadata_root (mounted : Mounted operator point) (answer : StatAnswer) (isDir : Bool) :
    metadata storage operator answer (vfsText point [] isDir) = some (metadataOf .dir) := by
  have normal : normalize (vfsText point [] isDir) = pointMountPath point := by
    rw [pointMountPath_eq]
    exact normalize_join (place_separated mounted.plain []) _ (by cases isDir <;> simp)
  unfold metadata
  rw [mounted.resolves]
  simp only [normal]
  exact if_pos ⟨trivial, by simp⟩

theorem fixPath_vfsText {path : Path} (plain : Plain (pointRoot point :: point.name :: path.map Subtype.val)) (isDir : Bool) :
    fixPath (vfsText point path isDir) true = vfsText point path true := by
  cases isDir with
  | true => exact fixPath_slashed plain
  | false => simpa [vfsText] using fixPath_join plain (by simp) true

theorem metadata_some (mounted : Mounted operator point) (rooted : nodeAt storage (point.id, []) = some .dir)
    {answer : StatAnswer} {path : Path} {isDir : Bool} {result : Metadata}
    (answered : metadata storage operator answer (vfsText point path isDir) = some result) :
    ∃ node, nodeAt storage (point.id, path) = some node ∧ result = metadataOf node := by
  by_cases empty : path = []
  · subst path
    rw [metadata_root mounted] at answered
    cases answered
    exact ⟨.dir, rooted, rfl⟩
  · rw [metadata_vfsText mounted answer empty] at answered
    exact found_some answered

theorem stat_ok {answer : StatAnswer} {failure : Option Failure} {path : Text} {result : Metadata}
    (answered : stat storage operator answer failure path = .ok result) :
    metadata storage operator answer path = some result := by
  unfold stat at answered
  split at answered
  · cases answered
  · split at answered
    next present =>
      cases answered
      exact present
    next => cases answered

theorem stat_notFound {answer : StatAnswer} {failure : Option Failure} {path : Text} {error : DalError}
    (answered : stat storage operator answer failure path = .error error) (kind : error.kind = .notFound) :
    metadata storage operator answer path = none := by
  unfold stat at answered
  split at answered
  next failed =>
    cases answered
    exact absurd kind failed.2
  next =>
    split at answered
    · cases answered
    next absent => exact absent

theorem mapDal_notFound {error : DalError} (code : (mapDal error).code = .notFound) : error.kind = .notFound := by
  unfold mapDal at code
  split at code <;> first | assumption | cases code

theorem statAny_ok (mounted : Mounted operator point) (rooted : nodeAt storage (point.id, []) = some .dir) {path : Path}
    (plain : Plain (pointRoot point :: point.name :: path.map Subtype.val)) {answer : StatAnswer} {result : Metadata}
    {text : Text} (answered : statAny storage operator answer (vfsText point path false) = .ok (result, text)) :
    ∃ node, nodeAt storage (point.id, path) = some node ∧ result = metadataOf node ∧
      text = vfsText point path result.isDir := by
  unfold statAny at answered
  rw [fixPath_vfsText plain] at answered
  split at answered
  next first stated =>
    cases answered
    obtain ⟨node, here, rfl⟩ := metadata_some mounted rooted (stat_ok stated)
    refine ⟨node, here, rfl, ?_⟩
    cases (metadataOf node).isDir <;> rfl
  next error stated =>
    split at answered
    next kind =>
      split at answered
      next second again =>
        cases answered
        obtain ⟨node, here, rfl⟩ := metadata_some mounted rooted (stat_ok again)
        have missed := stat_notFound stated kind
        cases node with
        | dir => exact ⟨.dir, here, rfl, rfl⟩
        | file content =>
          -- A file is found under its own name, so the second stat was not asked.
          by_cases empty : path = []
          · rw [empty, metadata_root mounted] at missed
            cases missed
          · rw [metadata_vfsText mounted answer empty, here] at missed
            simp [found] at missed
      next => cases answered
    next => cases answered

theorem statAny_absent (mounted : Mounted operator point) {path : Path}
    (plain : Plain (pointRoot point :: point.name :: path.map Subtype.val)) {answer : StatAnswer} {isDir : Bool}
    {error : Status} (answered : statAny storage operator answer (vfsText point path isDir) = .error error)
    (code : error.code = .notFound) :
    nodeAt storage (point.id, path) = none ∨ isDir = true ∧ isFile (nodeAt storage (point.id, path)) = true := by
  unfold statAny at answered
  rw [fixPath_vfsText plain] at answered
  split at answered
  · cases answered
  next first stated =>
    split at answered
    next kind =>
      split at answered
      · cases answered
      next second again =>
        cases answered
        have missed := stat_notFound stated kind
        have missedDir := stat_notFound again (mapDal_notFound code)
        by_cases empty : path = []
        · rw [empty, metadata_root mounted] at missed
          cases missed
        · rw [metadata_vfsText mounted answer empty] at missed missedDir
          cases here : nodeAt storage (point.id, path) with
          | none => exact .inl rfl
          | some node =>
            rw [here] at missed missedDir
            cases node with
            | dir => simp [found] at missedDir
            | file content =>
              cases isDir with
              | true => exact .inr ⟨rfl, rfl⟩
              | false => simp [found] at missed
    next different =>
      cases answered
      exact absurd (mapDal_notFound code) different

/-! ### One end of a transfer -/

variable {server : Server}

theorem getUser_mem {username : Text} {user : VfsUser} (answered : server.getUser username = .ok user) :
    user ∈ server.users := by
  unfold Server.getUser at answered
  split at answered
  next other first =>
    cases answered
    exact List.mem_of_find?_eq_some first
  next => cases answered

theorem getOperator_ok {file : FileArg} {isDir : Bool} {path : Text}
    (answered : server.getOperator file isDir = .ok (operator, path)) :
    ∃ user vfsPath, server.getUser file.user = .ok user ∧ resolveFilePath server.parseUuid user file.path = .ok vfsPath ∧
      server.getVfs user = .ok operator ∧ server.checkPointLoaded user vfsPath = .ok () ∧ path = fixPath vfsPath isDir := by
  obtain ⟨user, known, rest⟩ := bind_eq_ok.mp answered
  obtain ⟨vfsPath, resolved, rest⟩ := bind_eq_ok.mp rest
  obtain ⟨mounts, built, rest⟩ := bind_eq_ok.mp rest
  obtain ⟨⟨⟩, checked, last⟩ := bind_eq_ok.mp rest
  cases last
  exact ⟨user, vfsPath, known, resolved, built, checked, rfl⟩

theorem getVfs_ok {user : VfsUser} (named : NamedPoints user) (answered : server.getVfs user = .ok operator) (entry : Text × Uuid) :
    entry ∈ operator ↔ ∃ point ∈ user.points, server.loaded point = true ∧ entry = (pointMountPath point, point.id) := by
  obtain ⟨mounts, built, content⟩ := buildMounts_points named VfsPoint.id server.loaded
  unfold Server.getVfs at answered
  rw [built] at answered
  cases answered
  exact content entry

theorem checkPointLoaded_ok {user : VfsUser} (named : NamedPoints user) (member : point ∈ user.points) {inner : List Text}
    (plain : Plain (pointRoot point :: point.name :: inner))
    (checked : server.checkPointLoaded user ('/' :: join '/' (pointRoot point :: point.name :: inner)) = .ok ()) :
    server.loaded point = true := by
  have chosen : user.points.find? (fun other => other.name = point.name ∧ other.isRepo = point.isRepo) = some point := by
    have found := (findPoint_ok named).mpr ⟨member, rfl, rfl⟩
    unfold findPoint at found
    split at found
    next other first =>
      cases found
      exact first
    next => cases found
  unfold Server.checkPointLoaded at checked
  rw [dropWhile_slash plain.separated, splitOnce_join plain] at checked
  simp only [List.cons_ne_nil, if_false, Option.map_some, splitOnce_join plain.tail, Option.getD_some,
    rootKind_eq_some.mpr (show pointRoot point = _ from rfl), chosen] at checked
  unfold Server.loaded
  split at checked
  next loaded => simp [loaded]
  next => cases checked

theorem exists_names {inner : List Text} (plain : Plain inner) : ∃ path : Path, path.map Subtype.val = inner :=
  ⟨inner.pmap (fun text valid => ⟨text, valid⟩) fun text member => ⟨(plain text member).nonempty, (plain text member).noSlash⟩,
    by simp [List.map_pmap]⟩

/-- A path that a user may name, with the operator that serves it. -/
structure End (server : Server) (user : VfsUser) (operator : Operator) (point : VfsPoint) (path : Path) : Prop where
  user_mem : user ∈ server.users
  point_mem : point ∈ user.points
  loaded : server.loaded point = true
  vfs : server.getVfs user = .ok operator
  mounted : Mounted operator point
  plain : Plain (pointRoot point :: point.name :: path.map Subtype.val)

theorem End.inside {user : VfsUser} {path : Path} (one : End server user operator point path) : point ∈ allPoints server.users :=
  List.mem_flatMap.mpr ⟨user, one.user_mem, one.point_mem⟩

theorem end_of_request (named : ∀ user ∈ server.users, NamedPoints user) {file : FileArg} {user : VfsUser}
    {vfsPath rest text : Text} (known : server.getUser file.user = .ok user)
    (resolved : resolveFilePath server.parseUuid user file.path = .ok vfsPath)
    (pointed : resolvePointPath user vfsPath = .ok (point, rest))
    (served : server.getOperator file false = .ok (operator, text)) :
    ∃ path, End server user operator point path ∧ text = vfsText point path false := by
  obtain ⟨again, same, known', resolved', built, checked, rfl⟩ := getOperator_ok served
  rw [known] at known'
  cases known'
  rw [resolved] at resolved'
  cases resolved'
  have named := named user (getUser_mem known)
  obtain ⟨parts, plain, rfl⟩ := resolveFilePath_plain named resolved
  obtain ⟨root, name, inner, isRepo, rfl, kind, found, -⟩ := (resolvePointPath_ok plain).mp pointed
  obtain ⟨member, rfl, rfl⟩ := (findPoint_ok named).mp found
  obtain rfl : root = pointRoot point := rootKind_eq_some.mp kind
  obtain ⟨path, rfl⟩ := exists_names plain.tail.tail
  have loaded := checkPointLoaded_ok named member plain checked
  refine ⟨path, ⟨getUser_mem known, member, loaded, built, ⟨named.plain point member, ?_⟩, plain⟩, ?_⟩
  · intro path isDir
    have resolves := resolvePath_join named (getVfs_ok named built) member
      (place_separated (named.plain point member) path) isDir
    rw [loaded] at resolves
    exact resolves
  · rw [fixPath_join plain (by simp)]
    rfl

theorem vfsTransfer_ok {answers : RequestAnswers} {args : TransferArgs} {plan : TransferPlan}
    (built : vfsTransfer server storage answers args = .ok plan) (named : ∀ user ∈ server.users, NamedPoints user) :
    ∃ srcUser dstUser srcPoint dstPoint srcPath dstPath found,
      End server srcUser plan.srcOp srcPoint srcPath ∧ End server dstUser plan.dstOp dstPoint dstPath ∧
      statAny storage plan.srcOp answers.source (vfsText srcPoint srcPath false) = .ok (found, plan.srcPath) ∧
      plan.srcIsDir = found.isDir ∧ plan.dstPath = vfsText dstPoint dstPath found.isDir ∧
      requireAbsent found.isDir (statAny storage plan.dstOp answers.destination plan.dstPath) = .ok () ∧
      requireOutside (srcPoint.id = dstPoint.id) found.isDir plan.srcPath plan.dstPath = .ok () ∧
      (found.isDir = false → plan.totalBytes = found.contentLength) ∧
      (plan.native = true → srcPoint.id = dstPoint.id) := by
  obtain ⟨oldFile, -, built⟩ := bind_eq_ok.mp built
  obtain ⟨newFile, -, built⟩ := bind_eq_ok.mp built
  obtain ⟨⟨⟩, -, built⟩ := bind_eq_ok.mp built
  obtain ⟨srcUser, srcKnown, built⟩ := bind_eq_ok.mp built
  obtain ⟨dstUser, dstKnown, built⟩ := bind_eq_ok.mp built
  obtain ⟨srcVfsPath, srcResolved, built⟩ := bind_eq_ok.mp built
  obtain ⟨dstVfsPath, dstResolved, built⟩ := bind_eq_ok.mp built
  obtain ⟨⟨srcPoint, srcRest⟩, srcPointed, built⟩ := bind_eq_ok.mp built
  obtain ⟨⟨dstPoint, dstRest⟩, dstPointed, built⟩ := bind_eq_ok.mp built
  obtain ⟨⟨⟩, -, built⟩ := bind_eq_ok.mp built
  obtain ⟨⟨⟩, -, built⟩ := bind_eq_ok.mp built
  obtain ⟨⟨srcOp, srcFile⟩, srcServed, built⟩ := bind_eq_ok.mp built
  obtain ⟨⟨dstOp, dstFile⟩, dstServed, built⟩ := bind_eq_ok.mp built
  obtain ⟨⟨found, srcText⟩, stated, built⟩ := bind_eq_ok.mp built
  obtain ⟨⟨⟩, absent, built⟩ := bind_eq_ok.mp built
  obtain ⟨⟨⟩, outside, built⟩ := bind_eq_ok.mp built
  obtain ⟨entries, -, built⟩ := bind_eq_ok.mp built
  obtain ⟨root, -, built⟩ := bind_eq_ok.mp built
  obtain ⟨⟨⟩, -, built⟩ := bind_eq_ok.mp built
  cases built
  obtain ⟨srcPath, srcEnd, rfl⟩ := end_of_request named srcKnown srcResolved srcPointed srcServed
  obtain ⟨dstPath, dstEnd, rfl⟩ := end_of_request named dstKnown dstResolved dstPointed dstServed
  refine ⟨srcUser, dstUser, srcPoint, dstPoint, srcPath, dstPath, found, srcEnd, dstEnd, stated, rfl, ?_, absent, outside, ?_, ?_⟩
  · split
    next directory => rw [fixPath_vfsText dstEnd.plain, directory]
    next file => rw [Bool.eq_false_iff.mpr file]
  · intro file
    exact if_neg (by simp [file])
  · intro native
    simp only [Bool.and_eq_true, decide_eq_true_eq] at native
    exact native.2

theorem requireAbsent_ok {srcIsDir : Bool} {answer : Except Status (Metadata × Text)}
    (accepted : requireAbsent srcIsDir answer = .ok ()) : ∃ error, answer = .error error ∧ error.code = .notFound := by
  unfold requireAbsent at accepted
  split at accepted
  · split at accepted
    · cases accepted
    · split at accepted <;> cases accepted
  next error =>
    split at accepted
    next code => exact ⟨error, rfl, code⟩
    next => cases accepted

/-- A directory is not planned into itself: the texts of one point extend each other as
the places do. -/
theorem requireOutside_ok {srcPath dstPath : Path}
    (accepted : requireOutside true true (vfsText point srcPath true) (vfsText point dstPath true) = .ok ()) :
    ¬srcPath <+: dstPath := by
  rintro ⟨rel, rfl⟩
  have extends_text : vfsText point srcPath true <+: vfsText point (srcPath ++ rel) true := by
    by_cases empty : rel = []
    · rw [empty, List.append_nil]
    · rw [← listedPath_vfsText point srcPath empty]
      exact List.prefix_append _ _
  unfold requireOutside at accepted
  split at accepted
  · cases accepted
  · rw [if_pos ⟨rfl, rfl, extends_text⟩] at accepted
    cases accepted

/-- The ends of a plan are the places that its texts stand for. -/
theorem vfsTransfer_ends {answers : RequestAnswers} {args : TransferArgs} {plan : TransferPlan}
    (built : vfsTransfer server storage answers args = .ok plan) (named : ∀ user ∈ server.users, NamedPoints user)
    (distinct : ((allPoints server.users).map VfsPoint.id).Nodup)
    (rooted : ∀ point ∈ allPoints server.users, server.loaded point = true → nodeAt storage (point.id, []) = some .dir)
    (listed : ∀ src, plan.srcIsDir = true → locate plan.srcOp plan.srcPath = some src →
      Lists storage src (withSlash plan.srcPath) plan.entries) :
    ∃ src dst, Accepted plan storage src dst ∧ nodeAt storage (dst.1, []) = some .dir := by
  obtain ⟨srcUser, dstUser, srcPoint, dstPoint, srcPath, dstPath, found, srcEnd, dstEnd, stated, kind, dstText, absent,
    outside, total, native⟩ := vfsTransfer_ok built named
  obtain ⟨node, present, rfl, srcText⟩ :=
    statAny_ok srcEnd.mounted (rooted srcPoint srcEnd.inside srcEnd.loaded) srcEnd.plain stated
  have source : locate plan.srcOp plan.srcPath = some (srcPoint.id, srcPath) := by
    rw [srcText]
    exact srcEnd.mounted.locate srcPath _
  have owner := owner_unique distinct srcEnd.user_mem dstEnd.user_mem srcEnd.point_mem dstEnd.point_mem
  refine ⟨(srcPoint.id, srcPath), (dstPoint.id, dstPath), ⟨⟨source, ?_, ?_, ?_, ?_, ?_, ?_, ?_⟩, ?_⟩,
    rooted dstPoint dstEnd.inside dstEnd.loaded⟩
  · rw [dstText]
    exact dstEnd.mounted.locate dstPath _
  · intro directory rel isDir nonempty
    rw [kind] at directory
    rw [srcText, directory, withSlash_vfsText, listedPath_vfsText _ _ nonempty]
    exact srcEnd.mounted.locate _ _
  · intro directory rel isDir nonempty
    rw [kind] at directory
    rw [dstText, directory, withSlash_vfsText, listedPath_vfsText _ _ nonempty]
    exact dstEnd.mounted.locate _ _
  · intro directory
    refine ⟨?_, ?_, listed _ directory source⟩
    · rw [present]
      cases node with
      | dir => rfl
      | file content =>
        rw [kind] at directory
        cases directory
    · intro ⟨same, inside⟩
      obtain ⟨-, rfl⟩ := owner same.symm
      rw [kind] at directory
      rw [srcText, dstText, directory, decide_eq_true rfl] at outside
      exact requireOutside_ok outside inside
  · rw [srcText, kind]
    exact getLast_vfsText srcEnd.mounted.plain srcPath _
  · intro file
    rw [kind] at file
    cases node with
    | dir => cases file
    | file content => exact ⟨content, present, total rfl⟩
  · intro used
    obtain ⟨rfl, rfl⟩ := owner (native used)
    exact Except.ok.inj (srcEnd.vfs.symm.trans dstEnd.vfs)
  · obtain ⟨error, missing, code⟩ := requireAbsent_ok absent
    rw [dstText] at missing
    rw [kind]
    exact statAny_absent dstEnd.mounted dstEnd.plain missing code

def localPoint (id : Nat) (name : String) : VfsPoint where
  id := BitVec.ofNat 128 id
  name := name.toList
  maxBytes := some 100
  readOnly := false
  scheme := "fs".toList
  config := [("root".toList, ("/srv/" ++ name).toList)]
  isRepo := false
  repoPassword := none

def carol : VfsUser := ⟨"carol".toList, [localPoint 1 "old", localPoint 2 "new"]⟩

def photos : Name := ⟨"photos".toList, by decide⟩

def empty : Name := ⟨"empty".toList, by decide⟩

def image : Name := ⟨"image".toList, by decide⟩

def img : Name := ⟨"img".toList, by decide⟩

def best : Name := ⟨"best".toList, by decide⟩

/-- A directory with a file and an empty directory. -/
def photoTree : FileTree where
  node path :=
    if path = [] ∨ path = [photos] ∨ path = [photos, empty] then some .dir
    else if path = [photos, image] then some (.file [1, 2, 3])
    else none
  parent path name present := by
    have last (front : Path) {other : Name} (same : path ++ [name] = front ++ [other]) : path = front :=
      (List.append_inj' same rfl).1
    split at present
    next directory =>
      rcases directory with none_left | one | two
      · simp at none_left
      · rw [last [] one]
        rfl
      · rw [last [photos] two]
        rfl
    next =>
      split at present
      next two =>
        rw [last [photos] two]
        rfl
      next => exact absurd rfl present

def emptyTree : FileTree where
  node path := if path = [] then some .dir else none
  parent path name present := by simp at present

def photoStorage : Storage := fun id => if id = 1 then photoTree else emptyTree

def photoMounts : Operator := [("/points/new".toList, 2), ("/points/old".toList, 1)]

def photoServer : Server := ⟨[carol], fun _ => none, fun _ => none⟩

def photoTransfer (old new : String) (copy : Bool) : TransferArgs where
  oldPath := some ⟨"carol".toList, .virtual old.toList⟩
  newPath := some ⟨"carol".toList, .virtual new.toList⟩
  copy := copy

def photoAnswers (listing : List Entry) : RequestAnswers := ⟨{}, {}, .ok listing, none⟩

/-- The move of the file to another point. -/
def imagePlan : TransferPlan where
  srcOp := photoMounts
  dstOp := photoMounts
  srcPath := "/points/old/photos/image".toList
  dstPath := "/points/new/img".toList
  srcIsDir := false
  entries := []
  totalBytes := 3
  copy := false
  native := false
  localQuota := some ⟨"/srv/new".toList, "img".toList, some 100⟩

/-- All calls succeed; the first read comes short. -/
def imageEvents : List Answer := [{}, {}, {}, { size := 2 }, {}, {}, {}, {}, {}, {}]

theorem planned_of_toOption {storage : Storage} {answers : RequestAnswers} {args : TransferArgs} {plan : TransferPlan}
    (planned : (vfsTransfer server storage answers args).toOption = some plan) :
    vfsTransfer server storage answers args = .ok plan := by
  cases made : vfsTransfer server storage answers args with
  | error error =>
    rw [made] at planned
    cases planned
  | ok other =>
    rw [made] at planned
    exact congrArg Except.ok (Option.some.inj planned)

theorem image_planned : vfsTransfer photoServer photoStorage (photoAnswers [])
    (photoTransfer "points/old/photos/image" "points/new/img" false) = .ok imagePlan :=
  planned_of_toOption (by decide +kernel)

end Vaulton.Proofs.Transfer
