import Vaulton.Proofs.Transfer

/-! Whether the source of a move is gone when its job has returned well. A rename takes the
source away. The recursive delete after a copy does not: it does nothing for a file, and a
directory with something in it is never copied to its end. -/

namespace Vaulton.Proofs.TransferPromise
open Vaulton.Lib Vaulton.Config Vaulton.Paths Vaulton.Transfer
open Vaulton.Proofs.Config Vaulton.Proofs.TransferJob Vaulton.Proofs.Transfer

/-- What a job that has returned well has done, and what no job does. -/
structure Promise (plan : TransferPlan) (before after : Storage) (src dst : Place) (pc : TransferPc) : Prop where
  succeeded : pc = .returned none → Complete before after src dst ∧
    if plan.copy then SourceUnchanged before after src else SourceGone after src
  safe : SourceFilesKept before after src ∨ Complete before after src dst
  outside : OutsideFilesSame before after src dst

/-- The source has more bytes than its new point may ever hold. -/
def TooLarge (plan : TransferPlan) : Prop :=
  ∃ quota max, plan.localQuota = some quota ∧ quota.max = some max ∧ min max u64Max < plan.totalBytes

/-- A backend that `renames` never answers that it does not support this. -/
def Backend (renames : Bool) (state : TransferState) (answer : Answer) : Prop :=
  state.pc = .rename → renames = true → ∀ error, answer.error = some error → error.kind ≠ .unsupported

/-- The jobs that do not have to delete their source: they leave it, they rename it, or
they fail. -/
inductive Keeps (plan : TransferPlan) (storage : Storage) (src dst : Place) (renames : Bool) : Prop where
  | copy (copy : plan.copy = true)
  | renamed (native : plan.native = true) (possible : plan.srcIsDir = true ∨ renames = true)
  | full (directory : plan.srcIsDir = true) (occupied : Occupied storage src)
  | blocked (blocked : Blocked storage dst)
  | tooLarge (tooLarge : TooLarge plan)

variable {plan : TransferPlan} {before storage : Storage} {src dst : Place} {renames : Bool} {state next : TransferState}
  {answer : Answer}

theorem backend_elsewhere (elsewhere : state.pc ≠ .rename) : Backend renames state answer :=
  fun renames_now => absurd renames_now elsewhere

/-! ### Jobs that keep the promise -/

/-- A native move of a directory, or of a file that the backend renames. -/
def Renaming (before : Storage) (src : Place) (state : TransferState) : Prop :=
  state.storage = before ∧ (state.pc = .recheck ∨ state.pc = .rename) ∨ (∃ error, state.pc = .returned (some error)) ∨
    state.pc = .returned none ∧ SourceGone state.storage src

theorem Renaming.step (route : Renaming before src state) (accepted : Accepted plan before src dst)
    (native : plan.native = true) (move : plan.copy = false) (possible : plan.srcIsDir = true ∨ renames = true)
    (backend : Backend renames state answer) (taken : transferStep plan state answer = some next) : Renaming before src next := by
  have turn := transferStep_turn taken
  obtain ⟨storage, done, pc⟩ := state
  obtain ⟨after, total, following⟩ := next
  rcases route with ⟨rfl, rfl | rfl⟩ | ⟨error, rfl⟩ | ⟨rfl, -⟩
  · cases turn with
    | rejected error => exact .inr (.inl ⟨error, rfl⟩)
    | renames => exact .inl ⟨rfl, .inr rfl⟩
    | copies other =>
      rcases other with streams | copy
      · rw [native] at streams
        cases streams
      · rw [move] at copy
        cases copy
  · cases turn with
    | renamed file moved =>
      have single := accepted.not_directory file
      obtain ⟨content, found, -⟩ := accepted.file single
      have absent : nodeAt storage dst = none := by simpa [single] using accepted.free
      obtain ⟨-, gone, -⟩ := rename_moves accepted.source (accepted.native native ▸ accepted.destination) absent
        (by simp [found]) moved
      exact .inr (.inr ⟨rfl, gone⟩)
    | fallback file failed unsupported =>
      have renames := possible.resolve_left (by simp [accepted.not_directory file])
      exact absurd unsupported (backend rfl renames _ failed)
    | notRenamed error => exact .inr (.inl ⟨error, rfl⟩)
  · cases turn
  · cases turn

theorem recheck_refused (tooLarge : TooLarge plan) (absent : (locate plan.dstOp plan.dstPath).bind (nodeAt storage) = none) :
    recheckQuota plan storage answer ≠ .ok () := by
  obtain ⟨quota, max, limited, bounded, more⟩ := tooLarge
  unfold recheckQuota checkLocalQuota existingLen
  rw [limited, absent]
  dsimp only
  rw [bounded, Nat.sub_zero]
  dsimp only
  rw [if_neg (by omega)]
  split
  · exact nofun
  next used measured =>
    split
    · exact nofun
    · rw [if_pos (by omega)]
      exact nofun

/-- A job that does not get further than that. -/
def Stopped (before : Storage) (state : TransferState) : Prop :=
  state = transferStart before ∨ ∃ error, state.pc = .returned (some error)

theorem Stopped.step (stopped : Stopped before state) (tooLarge : TooLarge plan)
    (absent : (locate plan.dstOp plan.dstPath).bind (nodeAt before) = none)
    (taken : transferStep plan state answer = some next) : Stopped before next := by
  have turn := transferStep_turn taken
  rcases stopped with rfl | ⟨error, failed⟩
  · obtain ⟨after, total, following⟩ := next
    cases turn with
    | rejected error => exact .inr ⟨error, rfl⟩
    | renames native move checked => exact absurd checked (recheck_refused tooLarge absent)
    | copies other checked => exact absurd checked (recheck_refused tooLarge absent)
  · rw [failed] at turn
    cases turn

theorem recheck_passes (fits : ¬TooLarge plan) (absent : (locate plan.dstOp plan.dstPath).bind (nodeAt storage) = none) :
    recheckQuota plan storage {} = .ok () := by
  unfold recheckQuota checkLocalQuota existingLen
  rw [absent]
  split
  next => rfl
  next quota limited =>
    dsimp only
    split
    next => rfl
    next max bounded =>
      have room : plan.totalBytes ≤ min max u64Max := by
        by_contra more
        exact fits ⟨quota, max, limited, bounded, by omega⟩
      split
      next => rfl
      next => rw [if_neg (by omega), if_neg (by omega)]

/-- A job that never returns well keeps the promise as every job does. -/
theorem Promise.of_outcome (outcome : Outcome plan before storage src dst state.pc)
    (moved : plan.copy = false → state.pc = .returned none → SourceGone storage src) :
    Promise plan before storage src dst state.pc where
  succeeded returned := by
    refine ⟨outcome.complete returned, ?_⟩
    cases copy : plan.copy with
    | true =>
      rcases outcome.source returned with unchanged | ⟨renames, -⟩
      · exact unchanged
      · rw [renames.move] at copy
        cases copy
    | false => exact moved copy returned
  safe := outcome.safe
  outside := outcome.outside

theorem Keeps.promise (keeps : Keeps plan before src dst renames) (accepted : Accepted plan before src dst) {events : List Answer}
    (guarded : Guarded (transferStep plan) (Backend renames) (transferStart before) events)
    (executed : run (transferStep plan) (transferStart before) events = some state) :
    Promise plan before state.storage src dst state.pc := by
  apply Promise.of_outcome (accepted.run_outcome executed)
  intro move returned
  have located : (locate plan.dstOp plan.dstPath).bind (nodeAt before) = nodeAt before dst := by rw [accepted.destination]; rfl
  have refused (blocked : Blocked before dst) (absent : plan.srcIsDir = false → nodeAt before dst = none) : False := by
    have ends : Ends.Refuses plan before src dst := ⟨accepted.toEnds, blocked, absent⟩
    have stage := run_invariant (fun state => Refused plan before dst state.storage state.pc)
      (fun _ _ _ stage taken => stage.turn ends (transferStep_turn taken)) (.waiting (.inl rfl)) executed
    exact stage.unfinished.2 returned
  cases keeps with
  | copy copy =>
    rw [move] at copy
    cases copy
  | renamed native possible =>
    have first : Renaming before src (transferStart before) := .inl ⟨rfl, .inl rfl⟩
    have route : Renaming before src state := by
      apply guarded_invariant _ first guarded executed
      exact fun _ _ _ holds backend taken => Renaming.step holds accepted native move possible backend taken
    rcases route with ⟨-, waiting⟩ | ⟨error, failed⟩ | ⟨-, gone⟩
    · simp [returned] at waiting
    · simp [returned] at failed
    · exact gone
  | full directory occupied =>
    have listed := (accepted.directory directory).2.2.unexpected occupied
    have slashed := accepted.slashed.mpr directory
    have doomed : Doomed plan state.pc := by
      apply run_invariant (fun state => Doomed plan state.pc) _ (show Doomed plan .recheck from trivial) executed
      exact fun _ _ _ doomed taken => Doomed.turn directory slashed listed doomed (transferStep_turn taken)
    rw [returned] at doomed
    exact doomed.elim
  | blocked blocked => exact (refused blocked fun single => by simpa [single] using accepted.free).elim
  | tooLarge tooLarge =>
    rcases accepted.free with absent | ⟨directory, file⟩
    · have stopped := run_invariant (Stopped before)
        (fun _ _ _ holds taken => holds.step tooLarge (located.trans absent) taken) (.inl rfl) executed
      rcases stopped with rfl | ⟨error, failed⟩
      · cases returned
      · simp [returned] at failed
    · exact (refused (Tree.blocked_of_file List.prefix_rfl file) (by simp [directory])).elim

/-! ### Jobs that return well and leave their source -/

/-- The source is the file that it was, and another file can be written. -/
structure Ready (storage : Storage) (src dst : Place) (content : Bytes) : Prop where
  source : nodeAt storage src = some (.file content)
  different : src ≠ dst
  nonempty : dst.2 ≠ []
  free : isDir (nodeAt storage dst) = false
  clear : (storage dst.1).blocked dst.2.dropLast = false

variable {content written : Bytes}

theorem Ready.write {operator : Operator} {path : Text} (ready : Ready storage src dst content)
    (located : locate operator path = some dst) (data : Bytes) :
    ∃ after, writeFile operator storage path data = some after ∧ Ready after src dst content := by
  obtain ⟨tree, put⟩ := Tree.putFile_some ready.nonempty ready.free ready.clear data
  have stored : writeFile operator storage path data = some (Function.update storage dst.1 tree) := by
    unfold writeFile
    rw [located, Option.bind_some, put]
    rfl
  obtain ⟨free, clear⟩ := Tree.putFile_again put
  refine ⟨_, stored, ?_, ready.different, ready.nonempty, ?_, ?_⟩
  · rcases (writeFile_grows located stored).1 src with same | equal | ⟨above, -, -⟩
    · rw [same, ready.source]
    · exact absurd equal ready.different
    · -- The source is no directory above the destination.
      have shorter := Tree.prefix_dropLast above.2 fun equal => ready.different (Prod.ext above.1.symm equal)
      have directory := Tree.not_blocked ready.clear shorter
      rw [above.1, ← nodeAt, ready.source] at directory
      cases directory
  · rw [nodeAt, Function.update_self]
    exact free
  · rw [Function.update_self]
    exact clear

theorem Ready.read {operator : Operator} {path : Text} (ready : Ready storage src dst content)
    (located : locate operator path = some src) : readFile operator storage path = some content :=
  readFile_some.mpr ⟨src, located, ready.source⟩

def wholeFile (plan : TransferPlan) : FileCopy := ⟨plan.srcPath, plan.dstPath, plan.totalBytes⟩

/-- The job of a single file on its way to its end. -/
def Going (plan : TransferPlan) (src dst : Place) (content : Bytes) (renames : Bool) (state : TransferState) : Prop :=
  Ready state.storage src dst content ∧
    match state.pc with
    | .recheck => nodeAt state.storage dst = none
    | .rename => renames = false
    | .copyTree | .deleteSource | .returned none => True
    | .entries rest => rest = []
    | .copyOne file rest | .read file _ rest => file = wholeFile plan ∧ rest = []
    | .write file _ _ rest => file = wholeFile plan ∧ rest = []
    | .cleanup _ | .returned (some _) => False

/-- What is left to do. -/
def remaining (plan : TransferPlan) (state : TransferState) : Nat :=
  let bytes (written : Bytes) : Nat := 2 * (plan.totalBytes - written.length)
  match state.pc with
  | .recheck => bytes [] + 7
  | .rename => bytes [] + 6
  | .copyTree => bytes [] + 5
  | .copyOne _ _ => bytes [] + 4
  | .read _ written _ => bytes written + 3
  | .write _ written buffer _ => bytes (written ++ buffer) + 4
  | .entries _ => 2
  | .deleteSource => 1
  | .returned _ | .cleanup _ => 0

/-- What is asked of a plan whose job goes all the way. -/
structure Leaves (plan : TransferPlan) (src dst : Place) (content : Bytes) (renames : Bool) : Prop where
  source : locate plan.srcOp plan.srcPath = some src
  destination : locate plan.dstOp plan.dstPath = some dst
  operators : plan.native = true → plan.srcOp = plan.dstOp
  single : plan.srcIsDir = false
  slashless : plan.srcPath.getLast? ≠ some '/'
  move : plan.copy = false
  streams : plan.native = true → renames = false
  fits : ¬TooLarge plan
  len : plan.totalBytes = content.length

theorem chunk_ne_nil {len : Nat} (whole : len = content.length) (more : ¬len ≤ written.length) :
    ((content.drop written.length).take (min (written.length + spoolChunk) len - written.length)).take spoolChunk ≠ [] := by
  intro nothing
  have length := congrArg List.length nothing
  simp only [List.length_take, List.length_drop, List.length_nil, spoolChunk] at length
  omega

theorem call_some {α : Type} {effect : Option α} {result : α} (found : effect = some result) :
    ({} : Answer).call effect = .ok result := by
  rw [found]
  rfl

theorem Leaves.read (leaves : Leaves plan src dst content renames) (ready : Ready storage src dst content) :
    readFile plan.srcOp storage (wholeFile plan).source = some content :=
  ready.read leaves.source

theorem Leaves.write (leaves : Leaves plan src dst content renames) (ready : Ready storage src dst content) (data : Bytes) :
    ∃ after, writeFile plan.dstOp storage (wholeFile plan).destination data = some after ∧ Ready after src dst content :=
  ready.write leaves.destination data

theorem Leaves.read_next (leaves : Leaves plan src dst content renames) (ready : Ready storage src dst content) (done : Nat)
    (written : Bytes) : ∃ next, transferStep plan ⟨storage, done, .read (wholeFile plan) written []⟩ {} = some next ∧
      Going plan src dst content renames next ∧
      remaining plan next < remaining plan ⟨storage, done, .read (wholeFile plan) written []⟩ := by
  by_cases all : (wholeFile plan).len ≤ written.length
  · obtain ⟨after, stored, kept⟩ := leaves.write ready written
    refine ⟨⟨after, done, .entries []⟩, ?_, ⟨kept, rfl⟩, by simp only [remaining]; omega⟩
    simp only [transferStep, readStep, if_pos all]
    rw [call_some stored]
  · have found := leaves.read ready
    have whole : (wholeFile plan).len = content.length := leaves.len
    have more := chunk_ne_nil whole all
    generalize chunk : ((content.drop written.length).take
      (min (written.length + spoolChunk) (wholeFile plan).len - written.length)).take spoolChunk = buffer at more
    refine ⟨⟨storage, done, .write (wholeFile plan) written buffer []⟩, ?_, ⟨ready, rfl, rfl⟩, ?_⟩
    · simp only [transferStep, readStep, if_neg all]
      rw [call_some found]
      rw [if_neg Bool.false_ne_true]
      simp only [chunk, if_neg more]
    · have some_bytes := List.length_pos_iff.mpr more
      simp only [wholeFile] at all
      simp only [remaining, List.length_append]
      omega

theorem Leaves.write_next (leaves : Leaves plan src dst content renames) (ready : Ready storage src dst content) (done : Nat)
    (written buffer : Bytes) : ∃ next, transferStep plan ⟨storage, done, .write (wholeFile plan) written buffer []⟩ {} = some next ∧
      Going plan src dst content renames next ∧
      remaining plan next < remaining plan ⟨storage, done, .write (wholeFile plan) written buffer []⟩ := by
  obtain ⟨after, stored, kept⟩ := leaves.write ready (written ++ buffer)
  refine ⟨⟨after, done + buffer.length, .read (wholeFile plan) (written ++ buffer) []⟩, ?_, ⟨kept, rfl, rfl⟩, ?_⟩
  · simp only [transferStep]
    rw [call_some stored]
  · simp only [remaining]
    omega

theorem Leaves.copy_next (leaves : Leaves plan src dst content renames) (ready : Ready storage src dst content) (done : Nat) :
    ∃ next, transferStep plan ⟨storage, done, .copyOne (wholeFile plan) []⟩ {} = some next ∧
      Going plan src dst content renames next ∧
      remaining plan next < remaining plan ⟨storage, done, .copyOne (wholeFile plan) []⟩ := by
  by_cases native : plan.native = true
  · obtain ⟨after, stored, kept⟩ := ready.write (leaves.operators native ▸ leaves.destination) content
    have copied : copyFile plan.srcOp storage (wholeFile plan).source (wholeFile plan).destination = some after := by
      unfold copyFile
      rw [leaves.read ready]
      exact stored
    refine ⟨⟨after, done + (wholeFile plan).len, .entries []⟩, ?_, ⟨kept, rfl⟩, by simp only [remaining]; omega⟩
    simp only [transferStep, if_pos native]
    rw [call_some copied]
  · refine ⟨⟨storage, done, .read (wholeFile plan) [] []⟩, ?_, ⟨ready, rfl, rfl⟩, by simp only [remaining]; omega⟩
    simp only [transferStep, if_neg native]

theorem Leaves.delete_next (leaves : Leaves plan src dst content renames) (ready : Ready storage src dst content) (done : Nat) :
    ∃ next, transferStep plan ⟨storage, done, .deleteSource⟩ {} = some next ∧ Going plan src dst content renames next ∧
      remaining plan next < remaining plan ⟨storage, done, .deleteSource⟩ := by
  refine ⟨_, rfl, ?_, Nat.lt_add_one 0⟩
  have kept : deleteRecursive plan.srcOp storage plan.srcPath {} = storage :=
    deleteRecursive_keeps _ leaves.source (not_occupied_file ready.source)
  refine ⟨?_, trivial⟩
  simp only [TransferPlan.finish]
  rw [kept]
  exact ready

theorem Going.progress (going : Going plan src dst content renames state) (leaves : Leaves plan src dst content renames)
    (unfinished : state.pc ≠ .returned none) : ∃ answer next, Backend renames state answer ∧
      transferStep plan state answer = some next ∧ Going plan src dst content renames next ∧
      remaining plan next < remaining plan state := by
  obtain ⟨storage, done, pc⟩ := state
  obtain ⟨ready, here⟩ := going
  cases pc with
  | recheck =>
    have located : (locate plan.dstOp plan.dstPath).bind (nodeAt storage) = none := by
      rw [leaves.destination]
      exact here
    have checked := recheck_passes leaves.fits located
    have taken : transferStep plan ⟨storage, done, .recheck⟩ {} =
        some ⟨storage, done, if plan.native ∧ ¬plan.copy then .rename else .copyTree⟩ := by
      simp only [transferStep, checked]
    refine ⟨{}, _, backend_elsewhere (by simp), taken, ?_⟩
    split
    next native => exact ⟨⟨ready, leaves.streams native.1⟩, by simp only [remaining]; omega⟩
    next => exact ⟨⟨ready, trivial⟩, by simp only [remaining]; omega⟩
  | rename =>
    refine ⟨{ error := some ⟨.unsupported, ""⟩ }, ⟨storage, done, .copyTree⟩, ?_, ?_, ⟨ready, trivial⟩, by simp only [remaining]; omega⟩
    · intro _ renames
      rw [here] at renames
      cases renames
    · simp only [transferStep, callRename, if_neg leaves.slashless, Answer.call, if_true]
  | copyTree =>
    refine ⟨{}, ⟨storage, done, .copyOne (wholeFile plan) []⟩, backend_elsewhere (by simp), ?_, ⟨ready, rfl, rfl⟩,
      by simp only [remaining]; omega⟩
    simp only [transferStep, leaves.single, Bool.false_eq_true, if_false, wholeFile]
  | entries rest =>
    obtain rfl : rest = [] := here
    refine ⟨{}, ⟨storage, done, .deleteSource⟩, backend_elsewhere (by simp), ?_, ⟨ready, trivial⟩, by simp only [remaining]; omega⟩
    simp only [transferStep, leaves.move, Bool.false_eq_true, if_false]
  | copyOne file rest =>
    obtain ⟨rfl, rfl⟩ := here
    obtain ⟨next, taken, kept, less⟩ := leaves.copy_next ready done
    exact ⟨{}, next, backend_elsewhere (by simp), taken, kept, less⟩
  | read file written rest =>
    obtain ⟨rfl, rfl⟩ := here
    obtain ⟨next, taken, kept, less⟩ := leaves.read_next ready done written
    exact ⟨{}, next, backend_elsewhere (by simp), taken, kept, less⟩
  | write file written buffer rest =>
    obtain ⟨rfl, rfl⟩ := here
    obtain ⟨next, taken, kept, less⟩ := leaves.write_next ready done written buffer
    exact ⟨{}, next, backend_elsewhere (by simp), taken, kept, less⟩
  | cleanup error => cases here
  | deleteSource =>
    obtain ⟨next, taken, kept, less⟩ := leaves.delete_next ready done
    exact ⟨{}, next, backend_elsewhere (by simp), taken, kept, less⟩
  | returned result =>
    cases result with
    | none => exact absurd rfl unfinished
    | some error => cases here

/-- The job of such a plan can return well, and its source is still there. -/
theorem Leaves.run (leaves : Leaves plan src dst content renames) (ready : Ready before src dst content)
    (absent : nodeAt before dst = none) : ∃ events state, Guarded (transferStep plan) (Backend renames) (transferStart before) events ∧
      run (transferStep plan) (transferStart before) events = some state ∧ state.pc = .returned none ∧
      nodeAt state.storage src ≠ none := by
  obtain ⟨events, state, guarded, executed, going, returned⟩ := guarded_run_reaches
    (Going plan src dst content renames) (fun state => state.pc = .returned none) (remaining plan)
    (fun _ going unfinished => Going.progress going leaves unfinished) (show Going _ _ _ _ _ (transferStart before) from ⟨ready, absent⟩)
  exact ⟨events, state, guarded, executed, returned, by simp [going.1.source]⟩

theorem empty_directory_stays (planned : Planned plan before src dst) (directory : plan.srcIsDir = true) (move : plan.copy = false)
    (streams : plan.native = false) (empty : ¬Occupied before src) (free : ¬Blocked before dst) (fits : ¬TooLarge plan) :
    ∃ events state, Guarded (transferStep plan) (Backend renames) (transferStart before) events ∧
      run (transferStep plan) (transferStart before) events = some state ∧ state.pc = .returned none ∧
      nodeAt state.storage src ≠ none := by
  obtain ⟨present, outside, listing⟩ := planned.directory directory
  have nothing : plan.entries = [] := by
    rw [List.eq_nil_iff_forall_not_mem]
    intro entry member
    rcases listing.sound entry member with ⟨-, occupied⟩ | ⟨rel, node, nonempty, found, -⟩
    · exact empty occupied
    · exact empty ⟨rel, nonempty, by simp [found]⟩
  have located : (locate plan.dstOp plan.dstPath).bind (nodeAt before) = none := by
    rw [planned.destination]
    exact planned.absent
  have checked := recheck_passes fits located
  obtain ⟨after, created⟩ : ∃ after, createDir plan.dstOp before plan.dstPath = some after := by
    obtain ⟨tree, made⟩ := Tree.makeDirs_some (Bool.eq_false_iff.mpr free)
    unfold createDir
    rw [planned.destination, Option.bind_some, made]
    exact ⟨_, rfl⟩
  have framed : Framed before after dst := (Framed.refl before dst).grows (createDir_grows planned.destination created).1 (.refl dst)
  have unchanged := framed.sourceUnchanged planned outside
  have kept : deleteRecursive plan.srcOp after plan.srcPath {} = after := by
    apply deleteRecursive_keeps _ planned.source
    rintro ⟨rel, nonempty, there⟩
    rw [unchanged _ (under_below src rel)] at there
    exact empty ⟨rel, nonempty, there⟩
  refine ⟨[{}, {}, {}, {}], plan.finish ⟨after, 0, .deleteSource⟩, guarded_of_forall ?_, ?_, rfl, ?_⟩
  · intro answer member state _ _ error failed
    simp only [List.mem_cons, List.not_mem_nil, or_false, or_self] at member
    rw [member] at failed
    cases failed
  · have first : transferStep plan (transferStart before) {} = some ⟨before, 0, .copyTree⟩ := by
      simp only [transferStart, transferStep, checked, streams, Bool.false_eq_true, false_and, if_false]
    have second : transferStep plan ⟨before, 0, .copyTree⟩ {} = some ⟨after, 0, .entries []⟩ := by
      simp only [transferStep, if_pos directory, nothing]
      rw [call_some created]
    have third : transferStep plan ⟨after, 0, .entries []⟩ {} = some ⟨after, 0, .deleteSource⟩ := by
      simp only [transferStep, move, Bool.false_eq_true, if_false]
    have last : transferStep plan ⟨after, 0, .deleteSource⟩ {} = some (plan.finish ⟨after, 0, .deleteSource⟩) := by
      simp only [transferStep, kept, Bool.false_eq_true, if_false]
    exact run_cons.mpr ⟨_, first, run_cons.mpr ⟨_, second, run_cons.mpr ⟨_, third, run_cons.mpr ⟨_, last, rfl⟩⟩⟩⟩
  · show nodeAt after src ≠ none
    rw [unchanged src (.refl src), present]
    simp

/-- Every other job can leave the source of a move behind. -/
theorem leaves_source (accepted : Accepted plan before src dst) (rooted : nodeAt before (dst.1, []) = some .dir)
    (breaks : ¬Keeps plan before src dst renames) :
    ∃ events state, Guarded (transferStep plan) (Backend renames) (transferStart before) events ∧
      run (transferStep plan) (transferStart before) events = some state ∧
      ¬Promise plan before state.storage src dst state.pc := by
  have move : plan.copy = false := Bool.eq_false_iff.mpr fun copy => breaks (.copy copy)
  have free : ¬Blocked before dst := fun blocked => breaks (.blocked blocked)
  have fits : ¬TooLarge plan := fun tooLarge => breaks (.tooLarge tooLarge)
  have absent : nodeAt before dst = none :=
    accepted.free.resolve_right fun ⟨_, file⟩ => free (Tree.blocked_of_file List.prefix_rfl file)
  have left_over : ∃ events state, Guarded (transferStep plan) (Backend renames) (transferStart before) events ∧
      run (transferStep plan) (transferStart before) events = some state ∧ state.pc = .returned none ∧
      nodeAt state.storage src ≠ none := by
    cases kind : plan.srcIsDir with
    | true =>
      have streams : plan.native = false := Bool.eq_false_iff.mpr fun native => breaks (.renamed native (.inl kind))
      have empty : ¬Occupied before src := fun occupied => breaks (.full kind occupied)
      exact empty_directory_stays ⟨accepted.toEnds, absent⟩ kind move streams empty free fits
    | false =>
      obtain ⟨content, found, len⟩ := accepted.file kind
      have leaves : Leaves plan src dst content renames := {
        source := accepted.source
        destination := accepted.destination
        operators := accepted.native
        single := kind
        slashless := mt accepted.slashed.mp (by simp [kind])
        move := move
        streams := fun native => Bool.eq_false_iff.mpr fun renames => breaks (.renamed native (.inr renames))
        fits := fits
        len := len }
      have ready : Ready before src dst content := {
        source := found
        different := by
          rintro rfl
          rw [found] at absent
          cases absent
        nonempty := by
          intro root
          rw [show (dst.1, ([] : Path)) = dst from Prod.ext rfl root.symm, absent] at rooted
          cases rooted
        free := by
          rw [absent]
          rfl
        clear := Bool.eq_false_iff.mpr fun blocked => free (Tree.blocked_of_dropLast blocked) }
      exact leaves.run ready absent
  obtain ⟨events, state, guarded, executed, returned, present⟩ := left_over
  refine ⟨events, state, guarded, executed, ?_⟩
  intro promise
  have gone := (promise.succeeded returned).2
  rw [move, if_neg Bool.false_ne_true] at gone
  exact present (gone src (.refl src))

/-- In every run of a job a source that is copied stays, what is brought is complete, and
nothing is lost. A move also deletes its source, as it promises, exactly if its job renames
the source or never returns well. -/
theorem promise_kept_iff (request users : List VfsUser) (accepted : normalizeVfsUsers request = .ok users)
    (failed : VfsPoint → Option String) (parseUuid : Text → Option Uuid) (storage : Storage)
    (rooted : ∀ point ∈ allPoints users, failed point = none → nodeAt storage (point.id, []) = some .dir)
    (answers : RequestAnswers) (args : TransferArgs) (plan : TransferPlan)
    (built : vfsTransfer ⟨users, failed, parseUuid⟩ storage answers args = .ok plan)
    (listed : ∀ src, plan.srcIsDir = true → locate plan.srcOp plan.srcPath = some src →
      Lists storage src (withSlash plan.srcPath) plan.entries) (renames : Bool) :
    ∃ src dst, locate plan.srcOp plan.srcPath = some src ∧ locate plan.dstOp plan.dstPath = some dst ∧
      (∀ events state, run (transferStep plan) (transferStart storage) events = some state →
        Outcome plan storage state.storage src dst state.pc) ∧
      ((∀ events state, Guarded (transferStep plan) (Backend renames) (transferStart storage) events →
          run (transferStep plan) (transferStart storage) events = some state →
          Promise plan storage state.storage src dst state.pc) ↔
        Keeps plan storage src dst renames) := by
  obtain ⟨src, dst, ends, directory⟩ := vfsTransfer_ends built (normalizeVfsUsers_named accepted)
    (normalizeVfsUsers_ids accepted) (fun point member loaded => rooted point member (Option.isNone_iff_eq_none.mp loaded)) listed
  refine ⟨src, dst, ends.source, ends.destination, fun _ _ executed => ends.run_outcome executed, ?_, ?_⟩
  · intro promise
    by_contra breaks
    obtain ⟨events, state, guarded, executed, broken⟩ := leaves_source ends directory breaks
    exact broken (promise events state guarded executed)
  · intro keeps events state guarded executed
    exact keeps.promise ends guarded executed

/-- The move of the file within its point. -/
def bestPlan : TransferPlan := { imagePlan with
  dstPath := "/points/old/best".toList
  native := true
  localQuota := none }

/-- A rename takes the source away. -/
theorem image_renamed : ∃ state, run (transferStep bestPlan) (transferStart photoStorage) [{}, {}] = some state ∧
    state.pc = .returned none ∧ Complete photoStorage state.storage (1, [photos, image]) (1, [best]) ∧
    SourceGone state.storage (1, [photos, image]) := by
  have finished : (run (transferStep bestPlan) (transferStart photoStorage) [{}, {}]).map TransferState.pc =
      some (.returned none) := by decide +kernel
  obtain ⟨state, executed, returned⟩ := Option.map_eq_some_iff.mp finished
  have rooted : ∀ point ∈ allPoints [carol], none = (none : Option String) → nodeAt photoStorage (point.id, []) = some .dir := by
    decide +kernel
  have planned : vfsTransfer photoServer photoStorage (photoAnswers [])
      (photoTransfer "points/old/photos/image" "points/old/best" false) = .ok bestPlan := planned_of_toOption (by decide +kernel)
  obtain ⟨src, dst, source, destination, -, kept⟩ := promise_kept_iff [carol] [carol] rfl (fun _ => none) (fun _ => none)
    photoStorage rooted _ _ bestPlan planned (by
      intro _ directory
      cases directory) true
  have found : locate bestPlan.srcOp bestPlan.srcPath = some (1, [photos, image]) := by decide +kernel
  have target : locate bestPlan.dstOp bestPlan.dstPath = some (1, [best]) := by decide +kernel
  cases found.symm.trans source
  cases target.symm.trans destination
  have guarded : Guarded (transferStep bestPlan) (Backend true) (transferStart photoStorage) [{}, {}] := by
    apply guarded_of_forall
    intro answer member state _ _ error failed
    simp only [List.mem_cons, List.not_mem_nil, or_false, or_self] at member
    rw [member] at failed
    cases failed
  have promise := kept.mpr (.renamed rfl (.inr rfl)) _ state guarded executed
  exact ⟨state, executed, returned, promise.succeeded returned⟩

/-- The move of a file to another point returns well, and the file is still there. -/
theorem moved_file_stays :
    vfsTransfer photoServer photoStorage (photoAnswers [])
      (photoTransfer "points/old/photos/image" "points/new/img" false) = .ok imagePlan ∧
    locate imagePlan.srcOp imagePlan.srcPath = some (1, [photos, image]) ∧
    locate imagePlan.dstOp imagePlan.dstPath = some (2, [img]) ∧
    ∃ state, run (transferStep imagePlan) (transferStart photoStorage) imageEvents = some state ∧
      state.pc = .returned none ∧ nodeAt state.storage (1, [photos, image]) = some (.file [1, 2, 3]) ∧
      ¬Promise imagePlan photoStorage state.storage (1, [photos, image]) (2, [img]) state.pc := by
  have finished : (run (transferStep imagePlan) (transferStart photoStorage) imageEvents).map
      (fun state => (state.pc, nodeAt state.storage (1, [photos, image]))) =
      some (.returned none, some (.file [1, 2, 3])) := by decide +kernel
  obtain ⟨state, executed, outcome⟩ := Option.map_eq_some_iff.mp finished
  obtain ⟨returned, present⟩ := Prod.mk.inj outcome
  refine ⟨image_planned, by decide +kernel, by decide +kernel, state, executed, returned, present, ?_⟩
  intro promise
  have gone : SourceGone state.storage (1, [photos, image]) := (promise.succeeded returned).2
  rw [gone _ (.refl _)] at present
  cases present

end Vaulton.Proofs.TransferPromise
