import Vaulton.Lib.Machine
import Vaulton.Transfer

/-! A transfer job never loses a file. Until the destination is complete it writes only
below the destination, which did not exist before, and makes directories above it; so
everything that existed is unchanged. The source is deleted only afterwards. -/

namespace Vaulton.Proofs.TransferJob
open Vaulton.Lib Vaulton.Config Vaulton.Paths Vaulton.Transfer

/-- `place` is `root` or lies below it. -/
def Under (root place : Place) : Prop := place.1 = root.1 ∧ root.2 <+: place.2

instance (root place : Place) : Decidable (Under root place) := inferInstanceAs (Decidable (_ ∧ _))

def below (root : Place) (rel : Path) : Place := (root.1, root.2 ++ rel)

/-! ### What the backend calls do -/

section Calls

variable {operator : Operator} {storage next : Storage} {path : Text} {target root place : Place} {answer : Answer}

theorem Under.refl (place : Place) : Under place place := ⟨rfl, List.prefix_rfl⟩

theorem Under.trans {first second third : Place} (low : Under second third) (high : Under first second) : Under first third :=
  ⟨low.1.trans high.1, high.2.trans low.2⟩

theorem under_below (root : Place) (rel : Path) : Under root (below root rel) := ⟨rfl, List.prefix_append _ _⟩

theorem Under.comparable {first second : Place} (one : Under first place) (two : Under second place) :
    Under first second ∨ Under second first := by
  have same : first.1 = second.1 := one.1.symm.trans two.1
  rcases List.prefix_or_prefix_of_prefix one.2 two.2 with shorter | longer
  · exact .inl ⟨same.symm, shorter⟩
  · exact .inr ⟨same, longer⟩

theorem nodeAt_ancestor (present : nodeAt storage place ≠ none) (above : Under root place) (different : root ≠ place) :
    nodeAt storage root = some .dir := by
  obtain ⟨same, front⟩ := above
  unfold nodeAt at present ⊢
  rw [← same]
  exact Tree.ancestor present front fun equal => different (Prod.ext same.symm equal)

theorem absent_under (absent : nodeAt storage root = none) (under : Under root place) : nodeAt storage place = none := by
  by_contra present
  by_cases same : root = place
  · exact present (same ▸ absent)
  · rw [nodeAt_ancestor present under same] at absent
    cases absent

theorem modify_node {id : Uuid} {tree : Option FileTree} (modified : storage.modify id tree = some next) :
    ∃ result, tree = some result ∧
      ∀ place, nodeAt next place = if place.1 = id then result.node place.2 else nodeAt storage place := by
  obtain ⟨result, rfl, rfl⟩ := Option.map_eq_some_iff.mp modified
  refine ⟨result, rfl, ?_⟩
  intro place
  unfold nodeAt
  split
  next same => rw [same, Function.update_self]
  next different => rw [Function.update_of_ne different]

/-- Something was written at `target`, and above it at most directories were made. -/
def Grows (before after : Storage) (target : Place) : Prop :=
  ∀ place, nodeAt after place = nodeAt before place ∨ place = target ∨
    Under place target ∧ nodeAt after place = some .dir ∧ isFile (nodeAt before place) = false

theorem Grows.refl (storage : Storage) (target : Place) : Grows storage storage target := fun _ => .inl rfl

private theorem makeDirs_grows {id : Uuid} {front whole : Path}
    (made : storage.modify id ((storage id).makeDirs front) = some next) (inside : front <+: whole) :
    Grows storage next (id, whole) ∧ nodeAt next (id, front) = some .dir := by
  obtain ⟨tree, made, node⟩ := modify_node made
  refine ⟨?_, ?_⟩
  · intro place
    rw [node, Tree.makeDirs_node made]
    by_cases same : place.1 = id
    · by_cases above : place.2 <+: front
      · refine .inr (.inr ⟨⟨same.symm, above.trans inside⟩, by simp [same, above], ?_⟩)
        rw [nodeAt, same]
        exact Tree.not_blocked (Tree.makeDirs_free made) above
      · exact .inl (by simp [same, above, nodeAt])
    · exact .inl (by simp [same])
  · rw [node, Tree.makeDirs_node made]
    simp

theorem createDir_grows (located : locate operator path = some target)
    (created : createDir operator storage path = some next) :
    Grows storage next target ∧ nodeAt next target = some .dir := by
  unfold createDir at created
  rw [located] at created
  exact makeDirs_grows created List.prefix_rfl

theorem failedCreateDir_grows (located : locate operator path = some target) :
    Grows storage (failedCreateDir operator storage path answer) target := by
  unfold failedCreateDir
  rw [located, Option.bind_some]
  cases made : storage.modify target.1 ((storage target.1).makeDirs (target.2.take answer.made)) with
  | none => exact .refl _ _
  | some next => exact (makeDirs_grows made (List.take_prefix _ _)).1

theorem writeFile_grows {content : Bytes} (located : locate operator path = some target)
    (written : writeFile operator storage path content = some next) :
    Grows storage next target ∧ nodeAt next target = some (.file content) := by
  unfold writeFile at written
  rw [located] at written
  obtain ⟨tree, put, node⟩ := modify_node written
  refine ⟨?_, ?_⟩
  · intro place
    rw [node, Tree.putFile_node put]
    by_cases same : place.1 = target.1
    · by_cases equal : place.2 = target.2
      · exact .inr (.inl (Prod.ext same equal))
      · by_cases above : place.2 <+: target.2
        · refine .inr (.inr ⟨⟨same.symm, above⟩, by simp [same, equal, above], ?_⟩)
          rw [nodeAt, same]
          exact Tree.putFile_free put above equal
        · exact .inl (by simp [same, equal, above, nodeAt])
    · exact .inl (by simp [same])
  · rw [node, Tree.putFile_node put]
    simp

theorem failedWrite_grows (located : locate operator path = some target) :
    Grows storage (failedWrite operator storage path answer) target := by
  unfold failedWrite
  split
  next content _ =>
    cases written : writeFile operator storage path content with
    | none => exact .refl _ _
    | some next => exact (writeFile_grows located written).1
  next =>
    rw [located, Option.bind_some]
    cases made : storage.modify target.1 ((storage target.1).makeDirs (target.2.dropLast.take answer.made)) with
    | none => exact .refl _ _
    | some next => exact (makeDirs_grows made ((List.take_prefix _ _).trans (List.dropLast_prefix _))).1

/-- Things at or below `root` may have been removed, and nothing else changed. -/
def Shrinks (before after : Storage) (root : Place) : Prop :=
  ∀ place, nodeAt after place = nodeAt before place ∨ Under root place ∧ nodeAt after place = none

private theorem removed_node (tree : FileTree) (front : Path) (gone : List Path) (other : Path) :
    (gone.foldl (fun tree rel => tree.remove (front ++ rel)) tree).node other = tree.node other ∨
      front <+: other ∧ (gone.foldl (fun tree rel => tree.remove (front ++ rel)) tree).node other = none := by
  induction gone generalizing tree with
  | nil => exact .inl rfl
  | cons first rest ih =>
    rw [List.foldl_cons]
    rcases ih (tree.remove (front ++ first)) with same | ⟨inside, absent⟩
    · by_cases removed : front ++ first <+: other
      · exact .inr ⟨(List.prefix_append _ _).trans removed, by rw [same]; exact if_pos removed⟩
      · exact .inl (by rw [same]; exact if_neg removed)
    · exact .inr ⟨inside, absent⟩

theorem deleteRecursive_shrinks (storage : Storage) (answer : Answer) (located : locate operator path = some root) :
    Shrinks storage (deleteRecursive operator storage path answer) root := by
  intro place
  unfold deleteRecursive
  rw [located]
  dsimp only
  split
  next =>
    by_cases same : place.1 = root.1
    · rcases removed_node (storage root.1) root.2 answer.gone place.2 with equal | ⟨inside, absent⟩
      · refine .inl ?_
        simpa [nodeAt, same] using equal
      · refine .inr ⟨⟨same, inside⟩, ?_⟩
        simpa [nodeAt, same] using absent
    · exact .inl (by simp [nodeAt, same])
  next => exact .inl rfl

/-- Something is stored below the place. -/
def Occupied (storage : Storage) (root : Place) : Prop := ∃ rel, rel ≠ [] ∧ nodeAt storage (below root rel) ≠ none

theorem not_occupied_file {content : Bytes} (file : nodeAt storage root = some (.file content)) : ¬Occupied storage root := by
  rintro ⟨rel, nonempty, present⟩
  rw [nodeAt_ancestor present (under_below root rel) (by simpa [below, Prod.ext_iff] using nonempty)] at file
  cases file

/-- A file and an empty directory survive the call. -/
theorem deleteRecursive_keeps (answer : Answer) (located : locate operator path = some root) (empty : ¬Occupied storage root) :
    deleteRecursive operator storage path answer = storage := by
  unfold deleteRecursive
  rw [located]
  apply if_neg
  rintro ⟨-, listed⟩
  obtain ⟨rel, -, shown⟩ := List.any_eq_true.mp listed
  exact empty ⟨rel, of_decide_eq_true shown⟩

theorem Shrinks.outside {before after : Storage} (shrinks : Shrinks before after root) (outside : ¬Under root place) :
    nodeAt after place = nodeAt before place := by
  rcases shrinks place with same | ⟨under, -⟩
  · exact same
  · exact absurd under outside

theorem readFile_some {content : Bytes} :
    readFile operator storage path = some content ↔
      ∃ place, locate operator path = some place ∧ nodeAt storage place = some (.file content) := by
  unfold readFile
  cases locate operator path with
  | none => simp
  | some place =>
    rw [Option.bind_some]
    split
    next found => simp [found]
    next other =>
      simp only [Option.some.injEq, exists_eq_left', reduceCtorEq, false_iff]
      exact other content

theorem call_ok {α : Type} {effect : Option α} {result : α} (succeeded : answer.call effect = .ok result) :
    effect = some result := by
  unfold Answer.call at succeeded
  split at succeeded
  · cases succeeded
  · cases succeeded
    rfl
  · cases succeeded

end Calls

/-! ### What one step can do -/

/-- The steps of a job: what is stored and where the job is, before and after. -/
inductive Turn (plan : TransferPlan) (answer : Answer) : Storage → TransferPc → Storage → TransferPc → Prop where
  | rejected {storage : Storage} (error : String) : Turn plan answer storage .recheck storage (.returned (some error))
  | renames {storage : Storage} (native : plan.native = true) (move : plan.copy = false)
      (checked : recheckQuota plan storage answer = .ok ()) : Turn plan answer storage .recheck storage .rename
  | copies {storage : Storage} (other : plan.native = false ∨ plan.copy = true)
      (checked : recheckQuota plan storage answer = .ok ()) : Turn plan answer storage .recheck storage .copyTree
  | renamed {storage next : Storage} (file : plan.srcPath.getLast? ≠ some '/')
      (moved : rename plan.srcOp storage plan.srcPath plan.dstPath = some next) :
      Turn plan answer storage .rename next (.returned none)
  | fallback {storage : Storage} (file : plan.srcPath.getLast? ≠ some '/') {reason : DalError}
      (failed : answer.error = some reason) (unsupported : reason.kind = .unsupported) :
      Turn plan answer storage .rename storage .copyTree
  | notRenamed {storage : Storage} (error : String) : Turn plan answer storage .rename storage (.returned (some error))
  | opened {storage next : Storage} (directory : plan.srcIsDir = true)
      (created : createDir plan.dstOp storage plan.dstPath = some next) :
      Turn plan answer storage .copyTree next (.entries plan.entries)
  | notOpened {storage : Storage} (error : String) :
      Turn plan answer storage .copyTree (failedCreateDir plan.dstOp storage plan.dstPath answer) (.cleanup error)
  | single {storage : Storage} (file : plan.srcIsDir = false) :
      Turn plan answer storage .copyTree storage (.copyOne ⟨plan.srcPath, plan.dstPath, plan.totalBytes⟩ [])
  | copied {storage : Storage} (copy : plan.copy = true) : Turn plan answer storage (.entries []) storage (.returned none)
  | moves {storage : Storage} (move : plan.copy = false) : Turn plan answer storage (.entries []) storage .deleteSource
  | stopped {storage : Storage} {entry : Entry} {rest : List Entry} (error : String) :
      Turn plan answer storage (.entries (entry :: rest)) storage (.cleanup error)
  | root {storage : Storage} {entry : Entry} {rest : List Entry} (listed : entry.path = withSlash plan.srcPath) :
      Turn plan answer storage (.entries (entry :: rest)) storage (.entries rest)
  | directory {storage next : Storage} {entry : Entry} {rest : List Entry} {relative : Text}
      (path : entry.path = withSlash plan.srcPath ++ relative) (more : relative ≠ []) (isDir : entry.metadata.isDir = true)
      (created : createDir plan.dstOp storage (withSlash plan.dstPath ++ relative) = some next) :
      Turn plan answer storage (.entries (entry :: rest)) next (.entries rest)
  | noDirectory {storage : Storage} {entry : Entry} {rest : List Entry} {relative : Text}
      (path : entry.path = withSlash plan.srcPath ++ relative) (more : relative ≠ []) (error : String) :
      Turn plan answer storage (.entries (entry :: rest))
        (failedCreateDir plan.dstOp storage (withSlash plan.dstPath ++ relative) answer) (.cleanup error)
  | file {storage : Storage} {entry : Entry} {rest : List Entry} {relative : Text}
      (path : entry.path = withSlash plan.srcPath ++ relative) (more : relative ≠ []) (isFile : entry.metadata.isDir = false) :
      Turn plan answer storage (.entries (entry :: rest)) storage
        (.copyOne ⟨entry.path, withSlash plan.dstPath ++ relative, entry.metadata.contentLength⟩ rest)
  | nativeCopy {storage next : Storage} {file : FileCopy} {rest : List Entry} (native : plan.native = true)
      (copied : copyFile plan.srcOp storage file.source file.destination = some next) :
      Turn plan answer storage (.copyOne file rest) next (.entries rest)
  | streams {storage : Storage} {file : FileCopy} {rest : List Entry} :
      Turn plan answer storage (.copyOne file rest) storage (.read file [] rest)
  | copyFailed {storage : Storage} {file : FileCopy} {rest : List Entry} (error : String) :
      Turn plan answer storage (.copyOne file rest) (failedWrite plan.dstOp storage file.destination answer) (.cleanup error)
  | closed {storage next : Storage} {file : FileCopy} {written : Bytes} {rest : List Entry} (all : file.len ≤ written.length)
      (put : writeFile plan.dstOp storage file.destination written = some next) :
      Turn plan answer storage (.read file written rest) next (.entries rest)
  | filled {storage : Storage} {file : FileCopy} {written content buffer : Bytes} {rest : List Entry}
      (read : readFile plan.srcOp storage file.source = some content) (front : buffer <+: content.drop written.length) :
      Turn plan answer storage (.read file written rest) storage (.write file written buffer rest)
  | readFailed {storage : Storage} {file : FileCopy} {written : Bytes} {rest : List Entry} (error : String) :
      Turn plan answer storage (.read file written rest) (failedWrite plan.dstOp storage file.destination answer) (.cleanup error)
  | wrote {storage next : Storage} {file : FileCopy} {written buffer : Bytes} {rest : List Entry}
      (put : writeFile plan.dstOp storage file.destination (written ++ buffer) = some next) :
      Turn plan answer storage (.write file written buffer rest) next (.read file (written ++ buffer) rest)
  | writeFailed {storage : Storage} {file : FileCopy} {written buffer : Bytes} {rest : List Entry} (error : String) :
      Turn plan answer storage (.write file written buffer rest) (failedWrite plan.dstOp storage file.destination answer)
        (.cleanup error)
  | cleaned {storage : Storage} (error : String) :
      Turn plan answer storage (.cleanup error) (deleteRecursive plan.dstOp storage plan.dstPath answer) (.returned (some error))
  | cancelled {storage : Storage} (error : String) : Turn plan answer storage .deleteSource storage (.returned (some error))
  | deleted {storage : Storage} :
      Turn plan answer storage .deleteSource (deleteRecursive plan.srcOp storage plan.srcPath answer) (.returned none)
  | notDeleted {storage : Storage} (error : String) :
      Turn plan answer storage .deleteSource (deleteRecursive plan.srcOp storage plan.srcPath answer) (.returned (some error))

section Turns

variable {plan : TransferPlan} {answer : Answer} {state next : TransferState} {rest : List Entry}

private theorem entryStep_turn (entry : Entry) : Turn plan answer state.storage (.entries (entry :: rest))
    (entryStep plan state entry rest answer).storage (entryStep plan state entry rest answer).pc := by
  unfold entryStep
  dsimp only
  split
  · exact .stopped _
  · split
    next => exact .stopped _
    next listed =>
      obtain ⟨relative, path⟩ := not_not.mp listed
      rw [← path, List.drop_left]
      split
      next nothing => exact .root (by rw [← path, nothing, List.append_nil])
      next more =>
        split
        next isDir =>
          split
          next created => exact .directory path.symm more isDir (call_ok created)
          next => exact .noDirectory path.symm more _
        next isFile =>
          rw [path]
          exact .file path.symm more (Bool.eq_false_iff.mpr isFile)

private theorem readStep_turn (file : FileCopy) (written : Bytes) : Turn plan answer state.storage (.read file written rest)
    (readStep plan state file written rest answer).storage (readStep plan state file written rest answer).pc := by
  unfold readStep
  dsimp only
  split
  next all =>
    split
    next closed => exact .closed all (call_ok closed)
    next => exact .readFailed _
  next =>
    split
    · exact .readFailed _
    · split
      next => exact .readFailed _
      next content read =>
        split
        next => exact .readFailed _
        next => exact .filled (call_ok read) ((List.take_prefix _ _).trans (List.take_prefix _ _))

private theorem callRename_ok {storage after : Storage} (succeeded : callRename plan storage answer = .ok after) :
    plan.srcPath.getLast? ≠ some '/' ∧ answer.call (rename plan.srcOp storage plan.srcPath plan.dstPath) = .ok after := by
  unfold callRename at succeeded
  split at succeeded
  · cases succeeded
  next file => exact ⟨file, succeeded⟩

/-- Only a backend says that it does not support a rename. -/
private theorem callRename_unsupported {storage : Storage} {reason : DalError}
    (failed : callRename plan storage answer = .error reason) (unsupported : reason.kind = .unsupported) :
    plan.srcPath.getLast? ≠ some '/' ∧ answer.error = some reason := by
  unfold callRename at failed
  split at failed
  · cases failed
    cases unsupported
  next file =>
    refine ⟨file, ?_⟩
    unfold Answer.call at failed
    split at failed <;> cases failed
    next said => exact said
    · cases unsupported

theorem recheck_turn {storage : Storage} {done : Nat} (taken : transferStep plan ⟨storage, done, .recheck⟩ answer = some next) :
    Turn plan answer storage .recheck next.storage next.pc := by
  simp only [transferStep] at taken
  split at taken <;> cases taken
  · exact .rejected _
  next checked =>
    dsimp only
    split
    next both => exact .renames both.1 (by simpa using both.2) checked
    next other =>
      refine .copies ?_ checked
      cases native : plan.native with
      | false => exact .inl rfl
      | true => simpa [native] using other

theorem rename_turn {storage : Storage} {done : Nat} (taken : transferStep plan ⟨storage, done, .rename⟩ answer = some next) :
    Turn plan answer storage .rename next.storage next.pc := by
  simp only [transferStep] at taken
  split at taken
  next moved =>
    cases taken
    obtain ⟨file, moved⟩ := callRename_ok moved
    exact .renamed file (call_ok moved)
  next failed =>
    split at taken <;> cases taken
    next unsupported =>
      obtain ⟨file, failed⟩ := callRename_unsupported failed unsupported
      exact .fallback file failed unsupported
    · exact .notRenamed _

theorem copyOne_turn {file : FileCopy} {rest : List Entry} {storage : Storage} {done : Nat}
    (taken : transferStep plan ⟨storage, done, .copyOne file rest⟩ answer = some next) :
    Turn plan answer storage (.copyOne file rest) next.storage next.pc := by
  simp only [transferStep] at taken
  split at taken
  next native =>
    split at taken <;> cases taken
    next copied => exact .nativeCopy native (call_ok copied)
    next => exact .copyFailed _
  next =>
    split at taken <;> cases taken
    · exact .copyFailed _
    · exact .streams

/-- Nothing else happens in a step of a job. -/
theorem transferStep_turn (taken : transferStep plan state answer = some next) :
    Turn plan answer state.storage state.pc next.storage next.pc := by
  obtain ⟨storage, done, pc⟩ := state
  cases pc with
  | recheck => exact recheck_turn taken
  | rename => exact rename_turn taken
  | copyTree =>
    simp only [transferStep] at taken
    split at taken
    next directory =>
      split at taken <;> cases taken
      next created => exact .opened directory (call_ok created)
      next => exact .notOpened _
    next file =>
      cases taken
      exact .single (Bool.eq_false_iff.mpr file)
  | entries rest =>
    cases rest with
    | nil =>
      simp only [transferStep] at taken
      split at taken <;> cases taken
      next copy => exact .copied copy
      next move => exact .moves (Bool.eq_false_iff.mpr move)
    | cons entry rest =>
      cases taken
      exact entryStep_turn entry
  | copyOne file rest => exact copyOne_turn taken
  | read file written rest =>
    cases taken
    exact readStep_turn file written
  | write file written buffer rest =>
    simp only [transferStep] at taken
    split at taken <;> cases taken
    next put => exact .wrote (call_ok put)
    next => exact .writeFailed _
  | cleanup error =>
    cases taken
    exact .cleaned error
  | deleteSource =>
    simp only [transferStep] at taken
    split at taken
    · cases taken
      exact .cancelled _
    · split at taken <;> cases taken
      · exact .deleted
      · exact .notDeleted _
  | returned error => cases taken

end Turns

/-! ### What a transfer guarantees -/

/-- The text of a path, with a trailing slash for a directory. -/
def pathText (rel : Path) (isDir : Bool) : Text := join '/' (rel.map Subtype.val) ++ if isDir then ['/'] else []

/-- The path of something listed below a directory. -/
def listedPath (dir : Text) (rel : Path) (isDir : Bool) : Text := dir ++ pathText rel isDir

def listedEntry (dir : Text) (rel : Path) (node : Node Bytes) : Entry :=
  ⟨listedPath dir rel (metadataOf node).isDir, metadataOf node⟩

/-- A recursive listing through the mounts. What lies below the directory is listed under
its path; empty directories are left out. If there is anything below it, the directory is
listed too, without the slash that its path begins with. -/
structure Lists (storage : Storage) (root : Place) (dir : Text) (entries : List Entry) : Prop where
  sound : ∀ entry ∈ entries, entry.path = dir.drop 1 ∧ Occupied storage root ∨
    ∃ rel node, rel ≠ [] ∧ nodeAt storage (below root rel) = some node ∧ entry = listedEntry dir rel node
  rooted : Occupied storage root → ∃ entry ∈ entries, entry.path = dir.drop 1

/-- Both ends of a plan are found in the storage, and the destination is not inside a
source directory. -/
structure Ends (plan : TransferPlan) (storage : Storage) (src dst : Place) : Prop where
  source : locate plan.srcOp plan.srcPath = some src
  destination : locate plan.dstOp plan.dstPath = some dst
  sourceBelow : plan.srcIsDir = true → ∀ rel isDir, rel ≠ [] →
    locate plan.srcOp (listedPath (withSlash plan.srcPath) rel isDir) = some (below src rel)
  destinationBelow : plan.srcIsDir = true → ∀ rel isDir, rel ≠ [] →
    locate plan.dstOp (listedPath (withSlash plan.dstPath) rel isDir) = some (below dst rel)
  directory : plan.srcIsDir = true → nodeAt storage src = some .dir ∧ ¬Under src dst ∧
    Lists storage src (withSlash plan.srcPath) plan.entries
  slashed : plan.srcPath.getLast? = some '/' ↔ plan.srcIsDir = true
  file : plan.srcIsDir = false →
    ∃ content, nodeAt storage src = some (.file content) ∧ plan.totalBytes = content.length
  native : plan.native = true → plan.srcOp = plan.dstOp

/-- A plan whose destination is absent. -/
structure Planned (plan : TransferPlan) (storage : Storage) (src dst : Place) : Prop extends Ends plan storage src dst where
  absent : nodeAt storage dst = none

/-- The destination subtree equals the original source subtree. -/
def Complete (before after : Storage) (src dst : Place) : Prop :=
  ∀ rel, nodeAt after (below dst rel) = nodeAt before (below src rel)

def SourceUnchanged (before after : Storage) (src : Place) : Prop :=
  ∀ place, Under src place → nodeAt after place = nodeAt before place

def SourceGone (after : Storage) (src : Place) : Prop := ∀ place, Under src place → nodeAt after place = none

def SourceFilesKept (before after : Storage) (src : Place) : Prop :=
  ∀ place content, Under src place → nodeAt before place = some (.file content) →
    nodeAt after place = some (.file content)

def OutsideFilesSame (before after : Storage) (src dst : Place) : Prop :=
  ∀ place, ¬Under src place → ¬Under dst place →
    ∀ content, nodeAt after place = some (.file content) ↔ nodeAt before place = some (.file content)

section Job

variable {plan : TransferPlan} {before storage next : Storage} {src dst : Place}

/-! ### Before the source is deleted -/

/-- Only the destination was written, and directories were made above it. -/
def Framed (before after : Storage) (dst : Place) : Prop :=
  ∀ place, ¬Under dst place → nodeAt after place = nodeAt before place ∨
    nodeAt before place = none ∧ nodeAt after place = some .dir ∧ Under place dst

theorem Framed.refl (storage : Storage) (dst : Place) : Framed storage storage dst := fun _ _ => .inl rfl

theorem Framed.grows {target : Place} (framed : Framed before storage dst) (grows : Grows storage next target)
    (inside : Under dst target) : Framed before next dst := by
  intro place outside
  rcases grows place with same | rfl | ⟨above, made, free⟩
  · rw [same]
    exact framed place outside
  · exact absurd inside outside
  · have covers : Under place dst := (above.comparable inside).resolve_right outside
    rcases framed place outside with same | ⟨absent, -, -⟩
    · rw [same] at free
      cases old : nodeAt before place with
      | none => exact .inr ⟨rfl, made, covers⟩
      | some node =>
        cases node with
        | dir => exact .inl made
        | file content =>
          rw [old] at free
          cases free
    · exact .inr ⟨absent, made, covers⟩

theorem Framed.shrinks (framed : Framed before storage dst) (shrinks : Shrinks storage next dst) : Framed before next dst := by
  intro place outside
  rw [shrinks.outside outside]
  exact framed place outside

/-- Nothing that existed has changed, because the destination did not exist. -/
theorem Framed.present (framed : Framed before storage dst) (absent : nodeAt before dst = none) {place : Place}
    (present : nodeAt before place ≠ none) : nodeAt storage place = nodeAt before place := by
  have outside : ¬Under dst place := fun under => present (absent_under absent under)
  rcases framed place outside with same | ⟨none_before, -, -⟩
  · exact same
  · exact absurd none_before present

theorem Framed.sourceFiles (framed : Framed before storage dst) (absent : nodeAt before dst = none) (src : Place) :
    SourceFilesKept before storage src := by
  intro place content _ found
  rw [framed.present absent (by simp [found]), found]

theorem Framed.outside (framed : Framed before storage dst) (src : Place) : OutsideFilesSame before storage src dst := by
  intro place _ outside content
  rcases framed place outside with same | ⟨absent, made, -⟩
  · rw [same]
  · simp [absent, made]

/-! ### The copy -/

/-- The destination mirrors a part of the source: what is missing is still to come if
`pending`, and only at `hole` is something unfinished. -/
structure Copying (before storage : Storage) (src dst : Place) (pending : Prop) (hole : Option Path) : Prop where
  framed : Framed before storage dst
  mirrors : ∀ rel, hole ≠ some rel → nodeAt storage (below dst rel) = none ∨
    nodeAt storage (below dst rel) = nodeAt before (below src rel)
  reached : ∀ rel, nodeAt before (below src rel) ≠ none →
    nodeAt storage (below dst rel) = nodeAt before (below src rel) ∨ pending ∨ hole = some rel

variable {pending : Prop} {hole : Option Path} {current : Path}

theorem under_below_below {root : Place} {rel rest : Path} : Under (below root rel) (below root rest) ↔ rel <+: rest := by
  simp [Under, below]

theorem below_injective {root : Place} {rel rest : Path} (same : below root rel = below root rest) : rel = rest := by
  simpa [below] using same

theorem Copying.grows (copying : Copying before storage src dst pending hole)
    (grows : Grows storage next (below dst current)) (listed : nodeAt before (below src current) ≠ none)
    (only : hole = none ∨ hole = some current) : Copying before next src dst pending (some current) where
  framed := copying.framed.grows grows (under_below dst current)
  mirrors rel different := by
    have unequal : rel ≠ current := fun same => different (congrArg some same.symm)
    have unfinished : hole ≠ some rel := by
      rcases only with rfl | rfl
      · simp
      · exact different
    rcases grows (below dst rel) with same | equal | ⟨above, made, -⟩
    · rw [same]
      exact copying.mirrors rel unfinished
    · exact absurd (below_injective equal) unequal
    · refine .inr ?_
      have front := under_below_below.mp above
      rw [made, nodeAt_ancestor listed (under_below_below.mpr front) fun same => unequal (below_injective same)]
  reached rel present := by
    by_cases equal : rel = current
    · exact .inr (.inr (by rw [equal]))
    · rcases copying.reached rel present with done | waits | at_hole
      · refine .inl ?_
        rcases grows (below dst rel) with same | here | ⟨above, made, -⟩
        · rw [same, done]
        · exact absurd (below_injective here) equal
        · have front := under_below_below.mp above
          rw [made, nodeAt_ancestor listed (under_below_below.mpr front) fun same => equal (below_injective same)]
      · exact .inr (.inl waits)
      · rcases only with rfl | rfl
        · cases at_hole
        · exact absurd (Option.some.inj at_hole).symm equal

theorem Copying.filled (copying : Copying before storage src dst pending (some current))
    (equal : nodeAt storage (below dst current) = nodeAt before (below src current)) :
    Copying before storage src dst pending none where
  framed := copying.framed
  mirrors rel _ := by
    by_cases same : rel = current
    · exact .inr (same ▸ equal)
    · exact copying.mirrors rel fun hole => same (Option.some.inj hole).symm
  reached rel present := by
    rcases copying.reached rel present with done | waits | at_hole
    · exact .inl done
    · exact .inr (.inl waits)
    · cases at_hole
      exact .inl equal

theorem Copying.weaken {fewer : Prop} (copying : Copying before storage src dst pending hole)
    (covers : ∀ rel, nodeAt before (below src rel) ≠ none → pending → fewer ∨ hole = some rel) :
    Copying before storage src dst fewer hole where
  framed := copying.framed
  mirrors := copying.mirrors
  reached rel present := by
    rcases copying.reached rel present with done | waits | at_hole
    · exact .inl done
    · exact .inr (covers rel present waits)
    · exact .inr (.inr at_hole)

theorem Copying.opened (copying : Copying before storage src dst pending none) (current : Path) :
    Copying before storage src dst pending (some current) where
  framed := copying.framed
  mirrors rel _ := copying.mirrors rel (by simp)
  reached rel present := by
    rcases copying.reached rel present with done | waits | at_hole
    · exact .inl done
    · exact .inr (.inl waits)
    · cases at_hole

theorem Copying.complete (copying : Copying before storage src dst pending none) (finished : ¬pending) :
    Complete before storage src dst := by
  intro rel
  by_cases present : nodeAt before (below src rel) = none
  · rcases copying.mirrors rel (by simp) with absent | same
    · rw [absent, present]
    · exact same
  · rcases copying.reached rel present with done | waits | at_hole
    · exact done
    · exact absurd waits finished
    · cases at_hole

theorem Copying.start (absent : nodeAt before dst = none) : Copying before before src dst True none where
  framed := .refl before dst
  mirrors rel _ := .inl (absent_under absent (under_below dst rel))
  reached _ _ := .inr (.inl trivial)

/-! ### The two ends -/

theorem Planned.sourcePresent (planned : Planned plan before src dst) : nodeAt before src ≠ none := by
  cases kind : plan.srcIsDir with
  | true => simp [(planned.directory kind).1]
  | false =>
    obtain ⟨content, found, -⟩ := planned.file kind
    simp [found]

theorem Ends.not_directory (ends : Ends plan before src dst) (file : plan.srcPath.getLast? ≠ some '/') :
    plan.srcIsDir = false :=
  Bool.eq_false_iff.mpr (mt ends.slashed.mpr file)

/-- A complete destination cannot lie inside the source: above it are only directories. -/
theorem Planned.outside (planned : Planned plan before src dst) (framed : Framed before storage dst)
    (complete : Complete before storage src dst) : ¬Under src dst := by
  cases kind : plan.srcIsDir with
  | true => exact (planned.directory kind).2.1
  | false =>
    obtain ⟨content, found, -⟩ := planned.file kind
    intro inside
    have copied : nodeAt storage dst = some (.file content) := by simpa [below, found] using complete []
    have kept : nodeAt storage src = some (.file content) := by
      rw [framed.present planned.absent planned.sourcePresent, found]
    by_cases same : src = dst
    · have absent := planned.absent
      rw [← same, found] at absent
      cases absent
    · rw [nodeAt_ancestor (by simp [copied]) inside same] at kept
      cases kept

theorem Planned.disjoint (planned : Planned plan before src dst) (outside : ¬Under src dst) {place : Place}
    (under : Under dst place) : ¬Under src place := by
  intro both
  rcases both.comparable under with inside | around
  · exact outside inside
  · exact planned.sourcePresent (absent_under planned.absent around)

theorem Framed.sourceUnchanged (framed : Framed before storage dst) (planned : Planned plan before src dst)
    (outside : ¬Under src dst) : SourceUnchanged before storage src := by
  intro place under
  have apart : ¬Under dst place := fun both => planned.disjoint outside both under
  rcases framed place apart with same | ⟨-, -, above⟩
  · exact same
  · exact absurd (above.trans under) outside

theorem rename_moves {operator : Operator} {source destination : Text} (found : locate operator source = some src)
    (target : locate operator destination = some dst) (absent : nodeAt before dst = none)
    (present : nodeAt before src ≠ none) (moved : rename operator before source destination = some next) :
    Complete before next src dst ∧ SourceGone next src ∧ OutsideFilesSame before next src dst := by
  unfold rename at moved
  rw [found, target] at moved
  simp only at moved
  split at moved
  next same =>
    obtain ⟨tree, renamed, node⟩ := modify_node moved
    refine ⟨?_, ?_, ?_⟩
    · intro rel
      rw [node, Tree.rename_node renamed]
      simp [below, same, nodeAt]
    · intro place ⟨at_source, under⟩
      have apart : ¬dst.2 <+: place.2 := by
        intro both
        have under_source : Under src place := ⟨at_source, under⟩
        have under_target : Under dst place := ⟨at_source.trans same, both⟩
        rcases under_source.comparable under_target with inside | around
        · unfold Tree.rename at renamed
          split at renamed
          · cases renamed
          next free => exact free (.inl inside.2)
        · exact present (absent_under absent around)
      rw [node, Tree.rename_node renamed]
      simp [at_source, apart, under]
    · intro place outsideSource outsideDestination content
      rw [node, Tree.rename_node renamed]
      by_cases here : place.1 = src.1
      · have notBelow : ¬dst.2 <+: place.2 := fun both => outsideDestination ⟨here.trans same, both⟩
        have notSource : ¬src.2 <+: place.2 := fun both => outsideSource ⟨here, both⟩
        rw [if_pos here, if_neg notBelow, if_neg notSource]
        split
        next above =>
          -- A directory above the destination was none or a directory before.
          have free := Tree.rename_free renamed above fun equal => notBelow (equal ▸ List.prefix_rfl)
          constructor
          · intro impossible
            cases impossible
          · intro old
            rw [← here] at free
            change isFile (nodeAt before place) = false at free
            rw [old] at free
            cases free
        next =>
          rw [← here]
          exact Iff.rfl
      · rw [if_neg here]
  next => cases moved

/-! ### The stages of a job -/

/-- The loop is going to meet an entry that it does not expect. -/
def Unexpected (plan : TransferPlan) (rest : List Entry) : Prop := ∃ entry ∈ rest, ¬withSlash plan.srcPath <+: entry.path

/-- One file of the source with its two ends. -/
structure OneFile (plan : TransferPlan) (before : Storage) (src dst : Place) (file : FileCopy) (current : Path)
    (content : Bytes) : Prop where
  source : locate plan.srcOp file.source = some (below src current)
  destination : locate plan.dstOp file.destination = some (below dst current)
  found : nodeAt before (below src current) = some (.file content)
  len : file.len = content.length

/-- What is left of the loop over the entries. -/
structure Loop (plan : TransferPlan) (before : Storage) (src : Place) (rest : List Entry) : Prop where
  included : rest ⊆ plan.entries
  directory : rest ≠ [] → plan.srcIsDir = true
  unexpected : plan.srcIsDir = true → Occupied before src → Unexpected plan rest

/-- The job renames its source if it can. -/
structure Renames (plan : TransferPlan) : Prop where
  native : plan.native = true
  move : plan.copy = false
  file : plan.srcIsDir = false

inductive Stage (plan : TransferPlan) (before : Storage) (src dst : Place) : Storage → TransferPc → Prop where
  | waiting {pc : TransferPc} (first : pc = .recheck ∨ pc = .copyTree ∨
      pc = .rename ∧ plan.native = true ∧ plan.copy = false) : Stage plan before src dst before pc
  | entries {storage : Storage} {rest : List Entry} (loop : Loop plan before src rest)
      (copying : Copying before storage src dst (Unexpected plan rest) none) :
      Stage plan before src dst storage (.entries rest)
  | copyOne {storage : Storage} {file : FileCopy} {rest : List Entry} {current : Path} {content : Bytes}
      (loop : Loop plan before src rest) (one : OneFile plan before src dst file current content)
      (copying : Copying before storage src dst (Unexpected plan rest) (some current)) :
      Stage plan before src dst storage (.copyOne file rest)
  | read {storage : Storage} {file : FileCopy} {rest : List Entry} {current : Path} {content written : Bytes}
      (loop : Loop plan before src rest) (one : OneFile plan before src dst file current content) (so_far : written <+: content)
      (copying : Copying before storage src dst (Unexpected plan rest) (some current)) :
      Stage plan before src dst storage (.read file written rest)
  | write {storage : Storage} {file : FileCopy} {rest : List Entry} {current : Path} {content written buffer : Bytes}
      (loop : Loop plan before src rest) (one : OneFile plan before src dst file current content)
      (so_far : written ++ buffer <+: content)
      (copying : Copying before storage src dst (Unexpected plan rest) (some current)) :
      Stage plan before src dst storage (.write file written buffer rest)
  | cleanup {storage : Storage} {error : String} (framed : Framed before storage dst) :
      Stage plan before src dst storage (.cleanup error)
  | deleteSource {storage : Storage} (move : plan.copy = false) (framed : Framed before storage dst)
      (complete : Complete before storage src dst) (empty : ¬Occupied before src) :
      Stage plan before src dst storage .deleteSource
  | succeeded {storage : Storage} (complete : Complete before storage src dst)
      (source : SourceUnchanged before storage src ∨ Renames plan ∧ SourceGone storage src)
      (outside : OutsideFilesSame before storage src dst) : Stage plan before src dst storage (.returned none)
  | failed {storage : Storage} {error : String}
      (safe : SourceFilesKept before storage src ∨ Complete before storage src dst)
      (outside : OutsideFilesSame before storage src dst) : Stage plan before src dst storage (.returned (some error))

variable {answer : Answer} {state : TransferState} {rest : List Entry}

theorem names_separated (rel : Path) : Separated '/' (rel.map Subtype.val) := by
  intro part member
  obtain ⟨name, -, rfl⟩ := List.mem_map.mp member
  exact name.2

/-- The directory itself is listed without its first slash. -/
theorem root_unexpected (path : Text) : ¬withSlash path <+: (withSlash path).drop 1 := by
  intro longer
  have length := longer.length_le
  have nonempty : withSlash path ≠ [] := by
    unfold withSlash
    split
    next slash =>
      rintro rfl
      cases slash
    next => simp
  rw [List.length_drop] at length
  have positive := List.length_pos_iff.mpr nonempty
  omega

theorem Unexpected.tail {entry : Entry} (unexpected : Unexpected plan (entry :: rest))
    (expected : withSlash plan.srcPath <+: entry.path) : Unexpected plan rest := by
  obtain ⟨other, member, different⟩ := unexpected
  rcases List.mem_cons.mp member with rfl | later
  · exact absurd expected different
  · exact ⟨other, later, different⟩

theorem Loop.tail {entry : Entry} (loop : Loop plan before src (entry :: rest))
    (expected : withSlash plan.srcPath <+: entry.path) : Loop plan before src rest where
  included := (List.cons_subset.mp loop.included).2
  directory _ := loop.directory (by simp)
  unexpected kind occupied := (loop.unexpected kind occupied).tail expected

theorem Lists.unexpected {path : Text} {entries : List Entry} (listing : Lists storage src (withSlash path) entries)
    (occupied : Occupied storage src) : ∃ entry ∈ entries, ¬withSlash path <+: entry.path := by
  obtain ⟨entry, member, root⟩ := listing.rooted occupied
  exact ⟨entry, member, root ▸ root_unexpected path⟩

theorem Copying.made (copying : Copying before storage src dst pending none) {fewer : Prop}
    (found : nodeAt before (below src current) = some .dir)
    (grown : Grows storage next (below dst current) ∧ nodeAt next (below dst current) = some .dir)
    (covers : ∀ rel, nodeAt before (below src rel) ≠ none → pending → fewer ∨ some current = some rel) :
    Copying before next src dst fewer none := by
  have open_hole := copying.grows grown.1 (by simp [found]) (.inl rfl)
  exact (open_hole.weaken covers).filled (grown.2.trans found.symm)

/-- An entry below the listed directory is one of the source, and has its place in the
destination. -/
theorem Planned.listed_entry (planned : Planned plan before src dst) {entry : Entry} {relative : Text}
    (loop : Loop plan before src (entry :: rest)) (path : entry.path = withSlash plan.srcPath ++ relative) :
    ∃ rel node, rel ≠ [] ∧ nodeAt before (below src rel) = some node ∧
      entry = listedEntry (withSlash plan.srcPath) rel node ∧
      locate plan.dstOp (withSlash plan.dstPath ++ relative) = some (below dst rel) := by
  have kind := loop.directory (by simp)
  obtain ⟨-, -, listing⟩ := planned.directory kind
  rcases listing.sound entry (loop.included (by simp)) with ⟨root, -⟩ | ⟨rel, node, nonempty, found, rfl⟩
  · rw [root] at path
    exact absurd ⟨relative, path.symm⟩ (root_unexpected plan.srcPath)
  · have same : pathText rel (metadataOf node).isDir = relative := List.append_cancel_left path
    refine ⟨rel, node, nonempty, found, rfl, ?_⟩
    rw [← same]
    exact planned.destinationBelow kind rel _ nonempty

theorem OneFile.abandon {file : FileCopy} {content : Bytes} (one : OneFile plan before src dst file current content)
    (framed : Framed before storage dst) (error : String) :
    Stage plan before src dst (failedWrite plan.dstOp storage file.destination answer) (.cleanup error) :=
  .cleanup (framed.grows (failedWrite_grows one.destination) (under_below dst current))

theorem OneFile.finished {file : FileCopy} {content : Bytes} (one : OneFile plan before src dst file current content)
    (copying : Copying before storage src dst pending (some current))
    (grown : Grows storage next (below dst current) ∧ nodeAt next (below dst current) = some (.file content)) :
    Copying before next src dst pending none := by
  have open_hole := copying.grows grown.1 (by simp [one.found]) (.inr rfl)
  exact open_hole.filled (grown.2.trans one.found.symm)

theorem OneFile.readable {file : FileCopy} {content found : Bytes} (one : OneFile plan before src dst file current content)
    (planned : Planned plan before src dst) (framed : Framed before storage dst)
    (read : readFile plan.srcOp storage file.source = some found) : found = content := by
  obtain ⟨place, located, node⟩ := readFile_some.mp read
  rw [one.source] at located
  cases located
  rw [framed.present planned.absent (by simp [one.found]), one.found] at node
  cases node
  rfl

theorem Planned.begin (planned : Planned plan before src dst) (kind : plan.srcIsDir = true)
    (grown : Grows before next dst ∧ nodeAt next dst = some .dir) :
    Stage plan before src dst next (.entries plan.entries) := by
  obtain ⟨directory, -, listing⟩ := planned.directory kind
  have root (place : Place) : below place [] = place := by simp [below]
  refine .entries ⟨List.Subset.refl _, fun _ => kind, fun _ => listing.unexpected⟩ ?_
  refine (Copying.start planned.absent).made (root src ▸ directory) ((root dst).symm ▸ grown) ?_
  intro rel present _
  by_cases nonempty : rel = []
  · exact .inr (by rw [nonempty])
  · exact .inl (listing.unexpected ⟨rel, nonempty, present⟩)

theorem Planned.beginFile (planned : Planned plan before src dst) (kind : plan.srcIsDir = false) :
    Stage plan before src dst before (.copyOne ⟨plan.srcPath, plan.dstPath, plan.totalBytes⟩ []) := by
  obtain ⟨content, found, len⟩ := planned.file kind
  have root (place : Place) : below place [] = place := by simp [below]
  have one : OneFile plan before src dst ⟨plan.srcPath, plan.dstPath, plan.totalBytes⟩ [] content :=
    ⟨by rw [root, planned.source], by rw [root, planned.destination], by rw [root, found], len⟩
  refine .copyOne ⟨by simp, by simp, by simp [kind]⟩ one ?_
  · refine ((Copying.start planned.absent).opened []).weaken ?_
    intro rel present _
    refine .inr (congrArg some ?_)
    by_contra different
    apply present
    unfold nodeAt at found ⊢
    exact Tree.absent_below_file found (List.prefix_append _ _) (by simpa [below] using different)

theorem Planned.rejected (planned : Planned plan before src dst) (framed : Framed before storage dst) (error : String) :
    Stage plan before src dst storage (.returned (some error)) :=
  .failed (.inl (framed.sourceFiles planned.absent src)) (framed.outside src)

theorem nothing_unexpected : ¬Unexpected plan [] := by
  rintro ⟨entry, member, -⟩
  cases member

/-- A directory whose loop has come to its end was empty. -/
theorem Loop.empty (loop : Loop plan before src []) (planned : Planned plan before src dst) : ¬Occupied before src := by
  cases kind : plan.srcIsDir with
  | true => exact fun occupied => nothing_unexpected (loop.unexpected kind occupied)
  | false =>
    obtain ⟨content, found, -⟩ := planned.file kind
    exact not_occupied_file found

/-- The source is a file or an empty directory, so its deletion does nothing. -/
theorem Planned.source_stays (planned : Planned plan before src dst) (answer : Answer) (framed : Framed before storage dst)
    (complete : Complete before storage src dst) (empty : ¬Occupied before src) :
    deleteRecursive plan.srcOp storage plan.srcPath answer = storage ∧ SourceUnchanged before storage src := by
  have unchanged := framed.sourceUnchanged planned (planned.outside framed complete)
  refine ⟨deleteRecursive_keeps answer planned.source ?_, unchanged⟩
  rintro ⟨rel, nonempty, present⟩
  rw [unchanged _ (under_below src rel)] at present
  exact empty ⟨rel, nonempty, present⟩

/-- A job that has written nothing yet. -/
theorem Planned.first_turn {pc following : TransferPc} (planned : Planned plan before src dst)
    (first : pc = .recheck ∨ pc = .copyTree ∨ pc = .rename ∧ plan.native = true ∧ plan.copy = false)
    (turn : Turn plan answer before pc next following) : Stage plan before src dst next following := by
  have unchanged := Framed.refl before dst
  rcases first with rfl | rfl | ⟨rfl, native, move⟩
  · cases turn with
    | rejected error => exact planned.rejected unchanged error
    | renames native move => exact .waiting (.inr (.inr ⟨rfl, native, move⟩))
    | copies => exact .waiting (.inr (.inl rfl))
  · cases turn with
    | opened directory created => exact planned.begin directory (createDir_grows planned.destination created)
    | notOpened error => exact .cleanup (unchanged.grows (failedCreateDir_grows planned.destination) (.refl dst))
    | single file => exact planned.beginFile file
  · cases turn with
    | renamed file moved =>
      obtain ⟨complete, gone, outside⟩ := rename_moves planned.source (planned.native native ▸ planned.destination)
        planned.absent planned.sourcePresent moved
      exact .succeeded complete (.inr ⟨⟨native, move, planned.not_directory file⟩, gone⟩) outside
    | fallback => exact .waiting (.inr (.inl rfl))
    | notRenamed error => exact planned.rejected unchanged error

/-- One turn of the loop over the listing. -/
theorem Loop.turn {following : TransferPc} (planned : Planned plan before src dst) (loop : Loop plan before src rest)
    (copying : Copying before storage src dst (Unexpected plan rest) none)
    (turn : Turn plan answer storage (.entries rest) next following) : Stage plan before src dst next following := by
  cases turn with
  | copied copy =>
    have complete := copying.complete nothing_unexpected
    have outside := planned.outside copying.framed complete
    exact .succeeded complete (.inl (copying.framed.sourceUnchanged planned outside)) (copying.framed.outside src)
  | moves move => exact .deleteSource move copying.framed (copying.complete nothing_unexpected) (loop.empty planned)
  | stopped error => exact .cleanup copying.framed
  | @root entry rest listed =>
    have expected : withSlash plan.srcPath <+: entry.path := listed ▸ List.prefix_rfl
    exact .entries (loop.tail expected) (copying.weaken fun rel _ waits => .inl (waits.tail expected))
  | directory path more isDir created =>
    obtain ⟨rel, node, nonempty, found, rfl, located⟩ := planned.listed_entry loop path
    have expected : withSlash plan.srcPath <+: _ := ⟨_, path.symm⟩
    cases node with
    | dir =>
      exact .entries (loop.tail expected) (copying.made found (createDir_grows located created)
        fun other _ waits => .inl (waits.tail expected))
    | file content => cases isDir
  | noDirectory path more error =>
    obtain ⟨rel, -, -, -, -, located⟩ := planned.listed_entry loop path
    exact .cleanup (copying.framed.grows (failedCreateDir_grows located) (under_below dst rel))
  | file path more isFile =>
    obtain ⟨rel, node, nonempty, found, rfl, located⟩ := planned.listed_entry loop path
    have expected : withSlash plan.srcPath <+: _ := ⟨_, path.symm⟩
    have kind := loop.directory (by simp)
    cases node with
    | dir => cases isFile
    | file content =>
      exact .copyOne (loop.tail expected) ⟨planned.sourceBelow kind rel false nonempty, located, found, rfl⟩
        ((copying.opened rel).weaken fun other _ waits => .inl (waits.tail expected))

/-- Each turn of a job leads from one stage to another. -/
theorem Stage.turn {pc following : TransferPc} (planned : Planned plan before src dst)
    (stage : Stage plan before src dst storage pc) (turn : Turn plan answer storage pc next following) :
    Stage plan before src dst next following := by
  cases stage with
  | waiting first => exact planned.first_turn first turn
  | entries loop copying => exact loop.turn planned copying turn
  | copyOne loop one copying =>
    cases turn with
    | nativeCopy native copied =>
      obtain ⟨found, read, written⟩ := Option.bind_eq_some_iff.mp copied
      cases one.readable planned copying.framed read
      exact .entries loop (one.finished copying (writeFile_grows (planned.native native ▸ one.destination) written))
    | streams => exact .read loop one List.nil_prefix copying
    | copyFailed error => exact one.abandon copying.framed error
  | @read _ file rest current content written loop one so_far copying =>
    cases turn with
    | closed all put =>
      have whole : written = content := so_far.eq_of_length_le (one.len ▸ all)
      exact .entries loop (one.finished copying (whole ▸ writeFile_grows one.destination put))
    | filled read front =>
      cases one.readable planned copying.framed read
      refine .write loop one ?_ copying
      obtain ⟨later, rfl⟩ := so_far
      rw [List.drop_left] at front
      exact (List.prefix_append_right_inj _).mpr front
    | readFailed error => exact one.abandon copying.framed error
  | write loop one so_far copying =>
    cases turn with
    | wrote put =>
      exact .read loop one so_far (copying.grows (writeFile_grows one.destination put).1 (by simp [one.found]) (.inr rfl))
    | writeFailed error => exact one.abandon copying.framed error
  | cleanup framed =>
    cases turn with
    | cleaned error => exact planned.rejected (framed.shrinks (deleteRecursive_shrinks _ _ planned.destination)) _
  | deleteSource move framed complete empty =>
    obtain ⟨same, unchanged⟩ := planned.source_stays answer framed complete empty
    cases turn with
    | cancelled error => exact .failed (.inr complete) (framed.outside src)
    | deleted =>
      rw [same]
      exact .succeeded complete (.inl unchanged) (framed.outside src)
    | notDeleted error =>
      rw [same]
      exact .failed (.inr complete) (framed.outside src)
  | succeeded => cases turn
  | failed => cases turn

/-! ### A destination that cannot be written

There is a file above the destination. A backend that knows no file under a name with a
slash also lets a directory be planned onto a file. Such jobs fail. -/

def Blocked (storage : Storage) (dst : Place) : Prop := (storage dst.1).blocked dst.2 = true

instance (storage : Storage) (dst : Place) : Decidable (Blocked storage dst) := inferInstanceAs (Decidable (_ = _))

inductive Refused (plan : TransferPlan) (before : Storage) (dst : Place) : Storage → TransferPc → Prop where
  | waiting {pc : TransferPc} (first : pc = .recheck ∨ pc = .copyTree ∨ pc = .rename ∧ plan.native = true) :
      Refused plan before dst before pc
  | copyOne (single : plan.srcIsDir = false) {file : FileCopy} (target : file.destination = plan.dstPath) :
      Refused plan before dst before (.copyOne file [])
  | read (single : plan.srcIsDir = false) {file : FileCopy} {written : Bytes} (target : file.destination = plan.dstPath) :
      Refused plan before dst before (.read file written [])
  | write (single : plan.srcIsDir = false) {file : FileCopy} {written buffer : Bytes} (target : file.destination = plan.dstPath) :
      Refused plan before dst before (.write file written buffer [])
  | cleanup {storage : Storage} {error : String} (framed : Framed before storage dst) :
      Refused plan before dst storage (.cleanup error)
  | failed {storage : Storage} {error : String} (framed : Framed before storage dst) :
      Refused plan before dst storage (.returned (some error))

theorem createDir_blocked {operator : Operator} {path : Text} (located : locate operator path = some dst)
    (blocked : Blocked storage dst) : createDir operator storage path = none := by
  cases created : createDir operator storage path with
  | none => rfl
  | some next =>
    unfold createDir at created
    rw [located] at created
    obtain ⟨tree, made, -⟩ := modify_node created
    have free := Tree.makeDirs_free made
    rw [Blocked] at blocked
    rw [blocked] at free
    cases free

theorem writeFile_blocked {operator : Operator} {path : Text} (located : locate operator path = some dst)
    (blocked : Blocked storage dst) (absent : nodeAt storage dst = none) (content : Bytes) :
    writeFile operator storage path content = none := by
  have above : (storage dst.1).blocked dst.2.dropLast = true := Tree.blocked_dropLast blocked (by rw [← nodeAt, absent]; rfl)
  unfold writeFile
  rw [located, Option.bind_some, Tree.putFile_blocked above]
  rfl

theorem rename_refused {operator : Operator} {source destination : Text} (found : locate operator source = some src)
    (target : locate operator destination = some dst) (blocked : Blocked before dst) (absent : nodeAt before dst = none) :
    rename operator before source destination = none := by
  unfold rename
  rw [found, target]
  dsimp only
  split
  next same =>
    have above : (before dst.1).blocked dst.2.dropLast = true := Tree.blocked_dropLast blocked (by rw [← nodeAt, absent]; rfl)
    rw [same, Tree.rename_blocked above]
    rfl
  next => rfl

/-- What is known of a destination that cannot be written. -/
structure Ends.Refuses (plan : TransferPlan) (before : Storage) (src dst : Place) : Prop extends Ends plan before src dst where
  blocked : Blocked before dst
  absent : plan.srcIsDir = false → nodeAt before dst = none

theorem Refused.turn {pc following : TransferPc} (ends : Ends.Refuses plan before src dst)
    (stage : Refused plan before dst storage pc) (turn : Turn plan answer storage pc next following) :
    Refused plan before dst next following := by
  have unchanged := Framed.refl before dst
  have failed {path : Text} (target : path = plan.dstPath) : Framed before (failedWrite plan.dstOp before path answer) dst :=
    unchanged.grows (failedWrite_grows (target ▸ ends.destination)) (.refl dst)
  have refused (single : plan.srcIsDir = false) {path : Text} (target : path = plan.dstPath) (content : Bytes) :
      writeFile plan.dstOp before path content ≠ some next := by
    rw [writeFile_blocked (target ▸ ends.destination) ends.blocked (ends.absent single)]
    exact Option.some_ne_none next ∘ Eq.symm
  cases stage with
  | waiting first =>
    rcases first with rfl | rfl | ⟨rfl, native⟩
    · cases turn with
      | rejected error => exact .failed unchanged
      | renames native move => exact .waiting (.inr (.inr ⟨rfl, native⟩))
      | copies => exact .waiting (.inr (.inl rfl))
    · cases turn with
      | opened directory created =>
        rw [createDir_blocked ends.destination ends.blocked] at created
        cases created
      | notOpened error => exact .cleanup (unchanged.grows (failedCreateDir_grows ends.destination) (.refl dst))
      | single single => exact .copyOne single rfl
    · cases turn with
      | renamed file moved =>
        have absent := ends.absent (ends.not_directory file)
        rw [rename_refused ends.source (ends.native native ▸ ends.destination) ends.blocked absent] at moved
        cases moved
      | fallback => exact .waiting (.inr (.inl rfl))
      | notRenamed error => exact .failed unchanged
  | copyOne single target =>
    cases turn with
    | nativeCopy native copied =>
      obtain ⟨content, -, written⟩ := Option.bind_eq_some_iff.mp copied
      rw [ends.native native] at written
      exact absurd written (refused single target content)
    | streams => exact .read single target
    | copyFailed error => exact .cleanup (failed target)
  | read single target =>
    cases turn with
    | closed all put => exact absurd put (refused single target _)
    | filled read front => exact .write single target
    | readFailed error => exact .cleanup (failed target)
  | write single target =>
    cases turn with
    | wrote put => exact absurd put (refused single target _)
    | writeFailed error => exact .cleanup (failed target)
  | cleanup framed =>
    cases turn with
    | cleaned error => exact .failed (framed.shrinks (deleteRecursive_shrinks _ _ ends.destination))
  | failed => cases turn

/-! ### A directory with something in it

Its listing shows the directory itself, under a path that the loop does not expect. -/

def Doomed (plan : TransferPlan) : TransferPc → Prop
  | .entries rest | .copyOne _ rest | .read _ _ rest | .write _ _ _ rest => Unexpected plan rest
  | .recheck | .rename | .copyTree | .cleanup _ | .returned (some _) => True
  | .deleteSource | .returned none => False

/-- Such a job goes nowhere but to its failure, whatever is stored meanwhile. -/
theorem Doomed.turn {pc following : TransferPc} (directory : plan.srcIsDir = true) (slashed : plan.srcPath.getLast? = some '/')
    (listed : Unexpected plan plan.entries) (doomed : Doomed plan pc) (turn : Turn plan answer storage pc next following) :
    Doomed plan following := by
  cases turn with
  | renamed file | fallback file => exact absurd slashed file
  | opened directory created => exact listed
  | single file =>
    rw [directory] at file
    cases file
  | copied | moves => exact absurd doomed nothing_unexpected
  | root root => exact Unexpected.tail doomed (root ▸ List.prefix_rfl)
  | directory path | file path => exact Unexpected.tail doomed ⟨_, path.symm⟩
  | nativeCopy | streams | closed | filled | wrote => exact doomed
  | deleted => exact doomed
  | rejected | renames | copies | notRenamed | notOpened | stopped | noDirectory | copyFailed | readFailed | writeFailed | cleaned
    | cancelled | notDeleted => trivial

/-! ### Whole runs -/

/-- What a job has done when it returns, and what it never does on the way. Only a job
that renames its source takes it away. -/
structure Outcome (plan : TransferPlan) (before after : Storage) (src dst : Place) (pc : TransferPc) : Prop where
  complete : pc = .returned none → Complete before after src dst
  source : pc = .returned none → SourceUnchanged before after src ∨ Renames plan ∧ SourceGone after src
  safe : SourceFilesKept before after src ∨ Complete before after src dst
  outside : OutsideFilesSame before after src dst

theorem Framed.outcome {pc : TransferPc} (framed : Framed before storage dst) (kept : SourceFilesKept before storage src)
    (unfinished : pc ≠ .returned none) : Outcome plan before storage src dst pc :=
  ⟨fun finished => absurd finished unfinished, fun finished => absurd finished unfinished, .inl kept, framed.outside src⟩

theorem Stage.outcome {pc : TransferPc} (planned : Planned plan before src dst)
    (stage : Stage plan before src dst storage pc) : Outcome plan before storage src dst pc := by
  have kept {storage : Storage} (framed : Framed before storage dst) : SourceFilesKept before storage src :=
    framed.sourceFiles planned.absent src
  cases stage with
  | waiting first =>
    have framed := Framed.refl before dst
    refine framed.outcome (kept framed) ?_
    rintro rfl
    simp at first
  | entries loop copying => exact copying.framed.outcome (kept copying.framed) (by simp)
  | copyOne loop one copying => exact copying.framed.outcome (kept copying.framed) (by simp)
  | read loop one so_far copying => exact copying.framed.outcome (kept copying.framed) (by simp)
  | write loop one so_far copying => exact copying.framed.outcome (kept copying.framed) (by simp)
  | cleanup framed => exact framed.outcome (kept framed) (by simp)
  | deleteSource move framed complete => exact framed.outcome (kept framed) (by simp)
  | succeeded complete source outside => exact ⟨fun _ => complete, fun _ => source, .inr complete, outside⟩
  | failed safe outside => exact ⟨by simp, by simp, safe, outside⟩

theorem Refused.unfinished {pc : TransferPc} (stage : Refused plan before dst storage pc) :
    Framed before storage dst ∧ pc ≠ .returned none := by
  cases stage with
  | waiting first =>
    refine ⟨.refl before dst, ?_⟩
    rintro rfl
    simp at first
  | copyOne | read | write => exact ⟨.refl before dst, by simp⟩
  | cleanup framed => exact ⟨framed, by simp⟩
  | failed framed => exact ⟨framed, by simp⟩

theorem Ends.keepsFiles (ends : Ends plan before src dst) (kind : plan.srcIsDir = true)
    (file : isFile (nodeAt before dst) = true) (framed : Framed before storage dst) : SourceFilesKept before storage src := by
  intro place content under found
  obtain ⟨old, at_destination⟩ := isFile_iff.mp file
  have outside : ¬Under dst place := by
    intro both
    by_cases same : dst = place
    · exact (ends.directory kind).2.1 (same ▸ under)
    · rw [nodeAt_ancestor (by simp [found]) both same] at at_destination
      cases at_destination
  rcases framed place outside with same | ⟨absent, -, -⟩
  · rw [same, found]
  · rw [found] at absent
    cases absent

/-- The destination that a request has accepted. -/
structure Accepted (plan : TransferPlan) (before : Storage) (src dst : Place) : Prop extends Ends plan before src dst where
  free : nodeAt before dst = none ∨ plan.srcIsDir = true ∧ isFile (nodeAt before dst) = true

/-- Every run of a job from a plan whose destination was absent, or a file in the way of
a directory. -/
theorem Accepted.run_outcome (accepted : Accepted plan before src dst) {events : List Answer}
    (executed : run (transferStep plan) (transferStart before) events = some state) :
    Outcome plan before state.storage src dst state.pc := by
  rcases accepted.free with absent | ⟨kind, file⟩
  · have planned : Planned plan before src dst := ⟨accepted.toEnds, absent⟩
    have stage := run_invariant (fun state => Stage plan before src dst state.storage state.pc)
      (fun _ _ _ stage taken => stage.turn planned (transferStep_turn taken)) (.waiting (.inl rfl)) executed
    exact stage.outcome planned
  · have ends : Ends.Refuses plan before src dst :=
      ⟨accepted.toEnds, Tree.blocked_of_file List.prefix_rfl file, by simp [kind]⟩
    have stage := run_invariant (fun state => Refused plan before dst state.storage state.pc)
      (fun _ _ _ stage taken => stage.turn ends (transferStep_turn taken)) (.waiting (.inl rfl)) executed
    obtain ⟨framed, unfinished⟩ := stage.unfinished
    exact framed.outcome (accepted.keepsFiles kind file framed) unfinished

end Job

end Vaulton.Proofs.TransferJob
