import Vaulton.Lib.Machine
import Vaulton.Proofs.Transfer
import Vaulton.TransferProgress

/-! The progress of a transfer job never passes its total, and reaches it when the job
succeeds. -/

namespace Vaulton.Proofs.TransferProgress
open Vaulton.Lib Vaulton.Config Vaulton.JobResults Vaulton.Transfer Vaulton.TransferProgress
open Vaulton.Proofs.Config Vaulton.Proofs.Transfer
open Vaulton.Progress (Call)

/-- The lengths of the files in a listing. -/
def fileBytes (entries : List Entry) : Nat :=
  ((entries.filter fun entry => !entry.metadata.isDir).map fun entry => entry.metadata.contentLength).sum

/-! ### One step -/

variable {plan : TransferPlan} {answer : Answer} {state next : TransferState}

/-- Everything a step can do to the position of a job, and what it reports. -/
inductive Shift (plan : TransferPlan) : TransferPc → List (Option Nat) → TransferPc → Prop where
  | rejected (error : String) : Shift plan .recheck [] (.returned (some error))
  | started {pc : TransferPc} (begins : pc = .rename ∨ pc = .copyTree) : Shift plan .recheck [] pc
  | renamed : Shift plan .rename [some (max plan.totalBytes 1), none] (.returned none)
  | fallback : Shift plan .rename [] .copyTree
  | notRenamed (error : String) : Shift plan .rename [] (.returned (some error))
  | opened (directory : plan.srcIsDir = true) : Shift plan .copyTree [] (.entries plan.entries)
  | single : Shift plan .copyTree [] (.copyOne ⟨plan.srcPath, plan.dstPath, plan.totalBytes⟩ [])
  | failed {pc : TransferPc} (error : String) (copying : pc ≠ .recheck) (unfinished : ∀ result, pc ≠ .returned result) :
      Shift plan pc [] (.cleanup error)
  | skipped {entry : Entry} {rest : List Entry} (listed : entry.path = withSlash plan.srcPath ∨ entry.metadata.isDir = true) :
      Shift plan (.entries (entry :: rest)) [] (.entries rest)
  | file {entry : Entry} {rest : List Entry} {destination : Text} (isFile : entry.metadata.isDir = false) :
      Shift plan (.entries (entry :: rest)) [] (.copyOne ⟨entry.path, destination, entry.metadata.contentLength⟩ rest)
  | nativeCopy {file : FileCopy} {rest : List Entry} : Shift plan (.copyOne file rest) [some file.len] (.entries rest)
  | streams {file : FileCopy} {rest : List Entry} : Shift plan (.copyOne file rest) [] (.read file [] rest)
  | closed {file : FileCopy} {written : Bytes} {rest : List Entry} (all : file.len ≤ written.length) :
      Shift plan (.read file written rest) [] (.entries rest)
  | filled {file : FileCopy} {written buffer : Bytes} {rest : List Entry} (fits : written.length + buffer.length ≤ file.len) :
      Shift plan (.read file written rest) [] (.write file written buffer rest)
  | wrote {file : FileCopy} {written buffer : Bytes} {rest : List Entry} :
      Shift plan (.write file written buffer rest) [some buffer.length] (.read file (written ++ buffer) rest)
  | moves : Shift plan (.entries []) [] .deleteSource
  | ended {pc : TransferPc} (last : pc = .entries [] ∨ pc = .deleteSource) : Shift plan pc (lastReports plan) (.returned none)
  | kept (error : String) : Shift plan .deleteSource [] (.returned (some error))
  | cleaned (error : String) : Shift plan (.cleanup error) [] (.returned (some error))

private theorem entryStep_shift (state : TransferState) (entry : Entry) (rest : List Entry) (answer : Answer) :
    Shift plan (.entries (entry :: rest)) [] (entryStep plan state entry rest answer).pc := by
  unfold entryStep
  dsimp only
  split
  · exact .failed _ (by simp) (by simp)
  · split
    · exact .failed _ (by simp) (by simp)
    next listed =>
      split
      next nothing =>
        obtain ⟨relative, path⟩ := not_not.mp listed
        rw [← path, List.drop_left] at nothing
        rw [nothing, List.append_nil] at path
        exact .skipped (.inl path.symm)
      next =>
        split
        next isDir =>
          split
          · exact .skipped (.inr isDir)
          · exact .failed _ (by simp) (by simp)
        next isFile => exact .file (Bool.eq_false_iff.mpr isFile)

private theorem readStep_shift (state : TransferState) (file : FileCopy) (written : Bytes) (rest : List Entry) (answer : Answer) :
    Shift plan (.read file written rest) [] (readStep plan state file written rest answer).pc := by
  unfold readStep
  dsimp only
  split
  next all =>
    split
    · exact .closed all
    · exact .failed _ (by simp) (by simp)
  next more =>
    split
    · exact .failed _ (by simp) (by simp)
    · split
      · exact .failed _ (by simp) (by simp)
      · split
        · exact .failed _ (by simp) (by simp)
        · apply Shift.filled
          simp only [List.length_take]
          omega

theorem rename_shift {storage : Storage} {done : Nat} (taken : transferStep plan ⟨storage, done, .rename⟩ answer = some next) :
    Shift plan .rename (reports plan ⟨storage, done, .rename⟩ answer) next.pc := by
  simp only [transferStep] at taken
  split at taken
  next moved =>
    cases taken
    simp only [reports, moved]
    exact .renamed
  next error refused =>
    simp only [reports, refused]
    split at taken <;> cases taken
    · exact .fallback
    · exact .notRenamed _

theorem copyOne_shift {file : FileCopy} {rest : List Entry} {storage : Storage} {done : Nat}
    (taken : transferStep plan ⟨storage, done, .copyOne file rest⟩ answer = some next) :
    Shift plan (.copyOne file rest) (reports plan ⟨storage, done, .copyOne file rest⟩ answer) next.pc := by
  simp only [transferStep] at taken
  split at taken
  next native =>
    split at taken <;> cases taken
    next copied =>
      simp only [reports, if_pos native, copied]
      exact .nativeCopy
    next refused =>
      simp only [reports, if_pos native, refused]
      exact .failed _ (by simp) (by simp)
  next other =>
    simp only [reports, if_neg other]
    split at taken <;> cases taken
    · exact .failed _ (by simp) (by simp)
    · exact .streams

theorem deleteSource_shift {storage : Storage} {done : Nat} (taken : transferStep plan ⟨storage, done, .deleteSource⟩ answer = some next) :
    Shift plan .deleteSource (reports plan ⟨storage, done, .deleteSource⟩ answer) next.pc := by
  simp only [transferStep] at taken
  split at taken
  next cancelled =>
    cases taken
    simp only [reports, if_pos cancelled]
    exact .kept _
  next goes =>
    split at taken <;> cases taken
    next deleted =>
      simp only [reports, if_neg goes, deleted]
      exact .ended (.inr rfl)
    next refused =>
      simp only [reports, if_neg goes, refused]
      exact .kept _

theorem transferStep_shift (taken : transferStep plan state answer = some next) :
    Shift plan state.pc (reports plan state answer) next.pc := by
  obtain ⟨storage, done, pc⟩ := state
  cases pc with
  | recheck =>
    simp only [transferStep] at taken
    split at taken <;> cases taken
    · exact .rejected _
    · apply Shift.started
      dsimp only
      split
      · exact .inl rfl
      · exact .inr rfl
  | rename => exact rename_shift taken
  | copyTree =>
    simp only [transferStep] at taken
    split at taken
    next directory =>
      split at taken <;> cases taken
      · exact .opened directory
      · exact .failed _ (by simp) (by simp)
    next =>
      cases taken
      exact .single
  | entries rest =>
    cases rest with
    | nil =>
      simp only [transferStep] at taken
      split at taken <;> cases taken
      next copy =>
        rw [reports, if_pos copy]
        exact .ended (.inl rfl)
      next move =>
        rw [reports, if_neg move]
        exact .moves
    | cons entry rest =>
      cases taken
      exact entryStep_shift _ entry rest answer
  | copyOne file rest => exact copyOne_shift taken
  | read file written rest =>
    cases taken
    exact readStep_shift _ file written rest answer
  | write file written buffer rest =>
    simp only [transferStep] at taken
    split at taken <;> cases taken
    next put =>
      simp only [reports, put]
      exact .wrote
    next refused =>
      simp only [reports, refused]
      exact .failed _ (by simp) (by simp)
  | cleanup error =>
    cases taken
    exact .cleaned error
  | deleteSource => exact deleteSource_shift taken
  | returned error => cases taken

theorem Shift.unfinished {pc following : TransferPc} {told : List (Option Nat)} (shift : Shift plan pc told following) :
    ∀ error, pc ≠ .returned error := by
  cases shift with
  | failed error copying unfinished => exact unfinished
  | ended last => rcases last with rfl | rfl <;> exact nofun
  | _ => exact nofun

theorem Shift.later {pc following : TransferPc} {told : List (Option Nat)} (shift : Shift plan pc told following) :
    following ≠ .recheck := by
  cases shift with
  | started begins => rcases begins with rfl | rfl <;> exact nofun
  | _ => exact nofun

theorem Shift.ends_iff {pc following : TransferPc} {told : List (Option Nat)} (shift : Shift plan pc told following) :
    none ∈ told ↔ following = .returned none := by
  cases shift with
  | started begins => rcases begins with rfl | rfl <;> simp
  | ended last =>
    unfold lastReports
    split <;> simp
  | _ => simp

/-! ### What is done and what remains -/

/-- The listing adds up to the total that the request has computed. -/
structure Sized (plan : TransferPlan) : Prop where
  listed : plan.srcIsDir = true → plan.totalBytes = fileBytes plan.entries
  roots : ∀ entry ∈ plan.entries, entry.path = withSlash plan.srcPath → entry.metadata.isDir = true
  fits : plan.totalBytes ≤ u64Max

/-- Where a job may stand once it has done so many bytes. -/
inductive Account (plan : TransferPlan) : Nat → TransferPc → Prop where
  | recheck : Account plan 0 .recheck
  | rename : Account plan 0 .rename
  | copyTree : Account plan 0 .copyTree
  | entries {done : Nat} {rest : List Entry} (inside : rest ⊆ plan.entries) (exact : done + fileBytes rest = plan.totalBytes) :
      Account plan done (.entries rest)
  | copyOne {done : Nat} {file : FileCopy} {rest : List Entry} (inside : rest ⊆ plan.entries)
      (exact : done + file.len + fileBytes rest = plan.totalBytes) : Account plan done (.copyOne file rest)
  | read {done : Nat} {file : FileCopy} {written : Bytes} {rest : List Entry} (inside : rest ⊆ plan.entries)
      (short : written.length ≤ file.len) (exact : done + (file.len - written.length) + fileBytes rest = plan.totalBytes) :
      Account plan done (.read file written rest)
  | write {done : Nat} {file : FileCopy} {written buffer : Bytes} {rest : List Entry} (inside : rest ⊆ plan.entries)
      (short : written.length + buffer.length ≤ file.len)
      (exact : done + (file.len - written.length) + fileBytes rest = plan.totalBytes) :
      Account plan done (.write file written buffer rest)
  | deleteSource {done : Nat} (exact : done = plan.totalBytes) : Account plan done .deleteSource
  | cleanup {done : Nat} (error : String) (bound : done ≤ plan.totalBytes) : Account plan done (.cleanup error)
  | failed {done : Nat} (error : String) (bound : done ≤ plan.totalBytes) : Account plan done (.returned (some error))
  | succeeded {done : Nat} (exact : done = max plan.totalBytes 1) : Account plan done (.returned none)

/-- The bytes in a list of reports. -/
def counted (told : List (Option Nat)) : Nat := (told.filterMap id).sum

theorem fileBytes_cons (entry : Entry) (rest : List Entry) :
    fileBytes (entry :: rest) = (if entry.metadata.isDir then 0 else entry.metadata.contentLength) + fileBytes rest := by
  unfold fileBytes
  cases isDir : entry.metadata.isDir <;> simp [isDir]

theorem Account.bound {done : Nat} {pc : TransferPc} (account : Account plan done pc) : done ≤ max plan.totalBytes 1 := by
  cases account <;> omega

theorem Account.low {done : Nat} {pc : TransferPc} (account : Account plan done pc) (unfinished : pc ≠ .returned none) :
    done ≤ plan.totalBytes := by
  cases account with
  | succeeded => exact absurd rfl unfinished
  | _ => omega

theorem Account.complete {done : Nat} {pc : TransferPc} (account : Account plan done pc) (returned : pc = .returned none) :
    done = max plan.totalBytes 1 := by
  cases account with
  | succeeded exact => exact exact
  | _ => cases returned

theorem Account.skipped {done : Nat} {entry : Entry} {rest : List Entry} (sized : Sized plan)
    (account : Account plan done (.entries (entry :: rest))) (listed : entry.path = withSlash plan.srcPath ∨ entry.metadata.isDir = true) :
    Account plan (done + counted []) (.entries rest) := by
  cases account with
  | entries inside exact =>
    have isDir : entry.metadata.isDir = true := by
      rcases listed with root | isDir
      · exact sized.roots entry (inside List.mem_cons_self) root
      · exact isDir
    rw [fileBytes_cons, if_pos isDir] at exact
    refine .entries (fun _ member => inside (List.mem_cons_of_mem _ member)) ?_
    simp only [counted, List.filterMap_nil, List.sum_nil]
    omega

theorem Account.ended {done : Nat} {pc : TransferPc} (account : Account plan done pc) (last : pc = .entries [] ∨ pc = .deleteSource) :
    Account plan (done + counted (lastReports plan)) (.returned none) := by
  have all : done = plan.totalBytes := by
    rcases last with rfl | rfl
    · cases account with
      | entries inside exact => simpa [fileBytes] using exact
    · cases account with
      | deleteSource exact => exact exact
  apply Account.succeeded
  unfold lastReports
  split
  next nothing => simp [counted, all, nothing]
  next something =>
    simp only [counted, List.filterMap_cons, id_eq, List.filterMap_nil, List.sum_nil]
    omega

theorem Account.shift {done : Nat} {pc following : TransferPc} {told : List (Option Nat)} (sized : Sized plan)
    (account : Account plan done pc) (shift : Shift plan pc told following) : Account plan (done + counted told) following := by
  have low := account.low (shift.unfinished none)
  cases shift with
  | rejected error => exact .failed error low
  | started begins =>
    cases account
    rcases begins with rfl | rfl
    · exact .rename
    · exact .copyTree
  | renamed =>
    cases account
    exact .succeeded (by simp [counted])
  | fallback =>
    cases account
    exact .copyTree
  | notRenamed error => exact .failed error low
  | opened directory =>
    cases account
    exact .entries (List.Subset.refl _) (by simp [counted, sized.listed directory])
  | single =>
    cases account
    exact .copyOne (List.nil_subset _) (by simp [counted, fileBytes])
  | failed error => exact .cleanup error low
  | @skipped entry rest listed => exact account.skipped sized listed
  | @file entry rest destination isFile =>
    cases account with
    | entries inside exact =>
      rw [fileBytes_cons, if_neg (by simp [isFile])] at exact
      refine .copyOne (fun _ member => inside (List.mem_cons_of_mem _ member)) ?_
      simp only [counted, List.filterMap_nil, List.sum_nil]
      omega
  | nativeCopy =>
    cases account with
    | copyOne inside exact =>
      refine .entries inside ?_
      simp only [counted, List.filterMap_cons, id_eq, List.filterMap_nil, List.sum_cons, List.sum_nil]
      omega
  | streams =>
    cases account with
    | copyOne inside exact => exact .read inside (Nat.zero_le _) exact
  | closed all =>
    cases account with
    | read inside short exact =>
      refine .entries inside ?_
      simp only [counted, List.filterMap_nil, List.sum_nil]
      omega
  | filled fits =>
    cases account with
    | read inside short exact => exact .write inside fits exact
  | wrote =>
    cases account with
    | write inside short exact =>
      refine .read inside (by simpa using short) ?_
      simp only [counted, List.filterMap_cons, id_eq, List.filterMap_nil, List.sum_cons, List.sum_nil, List.length_append]
      omega
  | moves =>
    cases account with
    | entries inside exact => exact .deleteSource (by simpa [counted, fileBytes] using exact)
  | ended last => exact account.ended last
  | kept error => exact .failed error low
  | cleaned error => exact .failed error low

/-! ### The counters and the bar -/

def incOf : Call → Option Nat
  | .inc n => some n
  | _ => none

/-- The call of the bar for a report. -/
def barCall : Option Nat → Call
  | some n => .inc n
  | none => .finish

variable {reporting following : Reporting}

theorem foldl_report (told : List (Option Nat)) (reporting : Reporting) (fits : reporting.progress.done + counted told < 2 ^ 64) :
    told.foldl Reporting.report reporting = { reporting with
      progress.done := reporting.progress.done + counted told
      bar := reporting.bar ++ told.map barCall } := by
  induction told generalizing reporting with
  | nil => simp [counted]
  | cons report rest ih =>
    cases report with
    | none =>
      rw [List.foldl_cons, ih]
      · simp [Reporting.report, counted, barCall]
      · simpa [Reporting.report, counted] using fits
    | some n =>
      have sum : counted (some n :: rest) = n + counted rest := by simp [counted]
      have small : (reporting.progress.done + n) % 2 ^ 64 = reporting.progress.done + n := by omega
      rw [List.foldl_cons, ih]
      · simp only [Reporting.report, small, sum, barCall, List.map_cons, List.append_assoc, List.singleton_append, Nat.add_assoc]
      · simp only [Reporting.report, small]
        omega

/-- What the client of the bar and of GetJob sees. -/
structure Told (plan : TransferPlan) (reporting : Reporting) : Prop where
  /-- Before the quota check has passed there is nothing to see, and after it the total is
  known and the bar has got it first, and only once. -/
  opened : (reporting.bar = [] ∧ reporting.progress = ⟨0, 0⟩ ∧
      (reporting.job.pc = .recheck ∨ ∃ error, reporting.job.pc = .returned (some error))) ∨
    (reporting.progress.total = max plan.totalBytes 1 ∧ reporting.job.pc ≠ .recheck ∧
      ∃ later, reporting.bar = .setLength (max plan.totalBytes 1) :: later ∧ ∀ length, .setLength length ∉ later)
  counted : (reporting.bar.filterMap incOf).sum = reporting.progress.done
  ended : .finish ∈ reporting.bar ↔ reporting.job.pc = .returned none

theorem announces_cases (taken : transferStep plan state answer = some next) :
    (announces plan state answer = true ∧ state.pc = .recheck ∧ next.pc ≠ .recheck) ∨
    (announces plan state answer = false ∧ next.pc ≠ .recheck ∧
      (state.pc = .recheck → ∃ error, next.pc = .returned (some error))) := by
  have shift := transferStep_shift taken
  have later := shift.later
  by_cases at_pc : state.pc = .recheck
  · simp only [transferStep, at_pc] at taken
    split at taken
    next error refused =>
      cases taken
      refine .inr ⟨by simp [announces, at_pc, refused, Except.isOk, Except.toBool], later, fun _ => ⟨_, rfl⟩⟩
    next accepted => exact .inl ⟨by simp [announces, at_pc, accepted, Except.isOk, Except.toBool], at_pc, later⟩
  · refine .inr ⟨?_, later, fun equal => absurd equal at_pc⟩
    unfold announces
    split
    next equal => exact absurd equal at_pc
    next => rfl

theorem incs_map (told : List (Option Nat)) : ((told.map barCall).filterMap incOf).sum = TransferProgress.counted told := by
  unfold TransferProgress.counted
  congr 1
  induction told with
  | nil => rfl
  | cons report rest ih => cases report <;> simp only [List.map_cons, List.filterMap_cons, barCall, incOf, id_eq, ih]

theorem finish_mem_map (told : List (Option Nat)) : Call.finish ∈ told.map barCall ↔ none ∈ told := by
  induction told with
  | nil => simp
  | cons report rest ih => cases report <;> simp [barCall, ih]

theorem setLength_not_mem_map (told : List (Option Nat)) (length : Nat) : Call.setLength length ∉ told.map barCall := by
  induction told with
  | nil => simp
  | cons report rest ih => cases report <;> simpa [barCall] using ih

/-- The account of a job and what it has told agree along its steps. -/
structure Tracked (plan : TransferPlan) (reporting : Reporting) : Prop where
  account : Account plan reporting.progress.done reporting.job.pc
  told : Told plan reporting

theorem Tracked.initial (plan : TransferPlan) (storage : Storage) : Tracked plan (reportingStart storage) where
  account := .recheck
  told := ⟨.inl ⟨rfl, rfl, .inl rfl⟩, rfl, by simp [reportingStart, transferStart]⟩

theorem Tracked.step (sized : Sized plan) (tracked : Tracked plan reporting)
    (taken : reportingStep plan reporting answer = some following) :
    Tracked plan following ∧ reporting.progress.done ≤ following.progress.done := by
  obtain ⟨job, moved, rfl⟩ := Option.map_eq_some_iff.mp taken
  have shift := transferStep_shift moved
  have account := tracked.account.shift sized shift
  have fits : reporting.progress.done + TransferProgress.counted (reports plan reporting.job answer) < 2 ^ 64 := by
    have bound := account.bound
    have total := sized.fits
    unfold u64Max at total
    omega
  have fresh : .finish ∉ reporting.bar := by
    intro member
    exact shift.unfinished none (tracked.told.ended.mp member)
  rcases announces_cases moved with ⟨announced, at_pc, later⟩ | ⟨silent, later, rejected⟩
  · -- The step that announces the total reports nothing.
    have nothing : reports plan reporting.job answer = [] := by
      unfold reports
      rw [at_pc]
    have empty : reporting.bar = [] := by
      rcases tracked.told.opened with ⟨empty, -⟩ | ⟨-, passed, -⟩
      · exact empty
      · exact absurd at_pc passed
    rw [nothing] at account
    have unended : job.pc ≠ .returned none := by
      intro returned
      have told := shift.ends_iff.mpr returned
      rw [nothing] at told
      cases told
    simp only [announced, if_true, nothing, List.foldl_nil]
    refine ⟨⟨by simpa [Reporting.announce, TransferProgress.counted] using account, ?_, ?_, ?_⟩, Nat.le_refl _⟩
    · exact .inr ⟨rfl, later, [], by simp [Reporting.announce, empty], by simp⟩
    · have sum := tracked.told.counted
      simpa [Reporting.announce, incOf, List.filterMap_cons] using sum
    · simp [Reporting.announce, fresh, unended]
  · simp only [silent, Bool.false_eq_true, if_false]
    rw [foldl_report (reports plan reporting.job answer) { reporting with job } fits]
    refine ⟨⟨account, ?_, ?_, ?_⟩, Nat.le_add_right _ _⟩
    · rcases tracked.told.opened with ⟨empty, zero, begun | ⟨error, returned⟩⟩ | ⟨total, -, earlier, bar, once⟩
      · have nothing : reports plan reporting.job answer = [] := by
          unfold reports
          rw [begun]
        refine .inl ⟨by simp [empty, nothing], by simp [zero, nothing, TransferProgress.counted], .inr (rejected begun)⟩
      · exact absurd returned (shift.unfinished _)
      · refine .inr ⟨total, later, earlier ++ (reports plan reporting.job answer).map barCall, by simp [bar], ?_⟩
        intro length
        rw [List.mem_append, not_or]
        exact ⟨once length, setLength_not_mem_map _ length⟩
    · simp only [List.filterMap_append, List.sum_append, incs_map, tracked.told.counted]
    · simp only [List.mem_append, fresh, false_or, finish_mem_map]
      exact shift.ends_iff

/-! ### The plan of a request -/

theorem entryBytes_listed (entries : List Entry) (fits : fileBytes entries ≤ u64Max) : entryBytes entries = fileBytes entries := by
  unfold entryBytes fileBytes at *
  generalize entries.filter (fun entry => !entry.metadata.isDir) = files at *
  have sums : ∀ (rest : List Entry) (total : Nat), total + (rest.map fun entry => entry.metadata.contentLength).sum ≤ u64Max →
      rest.foldl (fun total entry => min (total + entry.metadata.contentLength) u64Max) total =
        total + (rest.map fun entry => entry.metadata.contentLength).sum := by
    intro rest
    induction rest with
    | nil =>
      intro total _
      rfl
    | cons entry rest ih =>
      intro total small
      simp only [List.map_cons, List.sum_cons] at small
      have below : min (total + entry.metadata.contentLength) u64Max = total + entry.metadata.contentLength := by omega
      rw [List.foldl_cons, below, ih _ (by omega), List.map_cons, List.sum_cons]
      omega
  have whole := sums files 0 (by simpa using fits)
  simpa using whole

theorem sized_of_request {server : Server} {storage : Storage} {answers : RequestAnswers} {args : TransferArgs}
    (built : vfsTransfer server storage answers args = .ok plan) (fits : plan.totalBytes ≤ u64Max)
    (listing : fileBytes plan.entries ≤ u64Max)
    (roots : ∀ entry ∈ plan.entries, entry.path = withSlash plan.srcPath → entry.metadata.isDir = true) : Sized plan := by
  refine ⟨?_, roots, fits⟩
  obtain ⟨oldFile, -, built⟩ := bind_eq_ok.mp built
  obtain ⟨newFile, -, built⟩ := bind_eq_ok.mp built
  obtain ⟨⟨⟩, -, built⟩ := bind_eq_ok.mp built
  obtain ⟨srcUser, -, built⟩ := bind_eq_ok.mp built
  obtain ⟨dstUser, -, built⟩ := bind_eq_ok.mp built
  obtain ⟨srcVfsPath, -, built⟩ := bind_eq_ok.mp built
  obtain ⟨dstVfsPath, -, built⟩ := bind_eq_ok.mp built
  obtain ⟨source, -, built⟩ := bind_eq_ok.mp built
  obtain ⟨destination, -, built⟩ := bind_eq_ok.mp built
  obtain ⟨⟨⟩, -, built⟩ := bind_eq_ok.mp built
  obtain ⟨⟨⟩, -, built⟩ := bind_eq_ok.mp built
  obtain ⟨served, -, built⟩ := bind_eq_ok.mp built
  obtain ⟨target, -, built⟩ := bind_eq_ok.mp built
  obtain ⟨found, -, built⟩ := bind_eq_ok.mp built
  obtain ⟨⟨⟩, -, built⟩ := bind_eq_ok.mp built
  obtain ⟨⟨⟩, -, built⟩ := bind_eq_ok.mp built
  obtain ⟨entries, -, built⟩ := bind_eq_ok.mp built
  obtain ⟨root, -, built⟩ := bind_eq_ok.mp built
  obtain ⟨⟨⟩, -, built⟩ := bind_eq_ok.mp built
  cases built
  intro directory
  exact (if_pos directory).trans (entryBytes_listed entries listing)

/-! ### Whole jobs -/

theorem status_done (reporting : Reporting) : (status reporting).doneBytes = reporting.progress.done := by
  unfold status
  split <;> rfl

theorem status_total (reporting : Reporting) : (status reporting).totalBytes = reporting.progress.total := by
  unfold status
  split <;> rfl

theorem status_succeeded : (status reporting).state = .succeeded ↔ reporting.job.pc = .returned none := by
  unfold status
  split
  next returned => simp [returned, finishedStatus, finishedJob, Except.isOk, Except.toBool]
  next error returned => simp [returned, finishedStatus, finishedJob, Except.isOk, Except.toBool]
  next unreturned _ => simpa [runningStatus] using unreturned

/-- While a transfer runs, what GetJob shows as done never passes the total and never goes
back, and it is the total once the job has succeeded. The bar is told of the same bytes,
after its length, and that it ends when the job succeeds and only then. -/
theorem progress_reaches_total (server : Server) (asked begun : Storage) (answers : RequestAnswers) (args : TransferArgs)
    (plan : TransferPlan) (built : vfsTransfer server asked answers args = .ok plan) (fits : plan.totalBytes ≤ u64Max)
    (listing : fileBytes plan.entries ≤ u64Max)
    (roots : ∀ entry ∈ plan.entries, entry.path = withSlash plan.srcPath → entry.metadata.isDir = true)
    (events : List Answer) (final : Reporting)
    (executed : run (reportingStep plan) (reportingStart begun) events = some final) :
    (status final).doneBytes ≤ max plan.totalBytes 1 ∧
    ((status final).totalBytes = max plan.totalBytes 1 ∨ (status final).totalBytes = 0 ∧ (status final).doneBytes = 0) ∧
    (∀ earlier, Visits (reportingStep plan) (reportingStart begun) events earlier →
      (status earlier).doneBytes ≤ (status final).doneBytes) ∧
    ((status final).state = .succeeded → (status final).doneBytes = (status final).totalBytes) ∧
    ((status final).state = .failed → (status final).doneBytes ≤ plan.totalBytes) ∧
    Told plan final := by
  have sized := sized_of_request built fits listing roots
  have tracked : Tracked plan final :=
    run_invariant (Tracked plan) (fun _ _ _ tracked taken => (tracked.step sized taken).1) (.initial plan begun) executed
  rw [status_done, status_total]
  refine ⟨tracked.account.bound, ?_, ?_, ?_, ?_, tracked.told⟩
  · rcases tracked.told.opened with ⟨-, zero, -⟩ | ⟨total, -, -⟩
    · exact .inr ⟨by rw [zero], by rw [zero]⟩
    · exact .inl total
  · intro earlier visits
    obtain ⟨before, after, rfl, reached⟩ := visits
    obtain ⟨middle, first, rest⟩ := run_append.mp executed
    cases reached.symm.trans first
    have early : Tracked plan earlier :=
      run_invariant (Tracked plan) (fun _ _ _ tracked taken => (tracked.step sized taken).1) (.initial plan begun) reached
    have grown : Tracked plan final ∧ earlier.progress.done ≤ final.progress.done := by
      apply run_invariant (fun reporting => Tracked plan reporting ∧ earlier.progress.done ≤ reporting.progress.done) _
        ⟨early, Nat.le_refl _⟩ rest
      intro reporting answer following kept taken
      obtain ⟨later, more⟩ := kept.1.step sized taken
      exact ⟨later, kept.2.trans more⟩
    rw [status_done]
    exact grown.2
  · intro succeeded
    have returned := status_succeeded.mp succeeded
    rcases tracked.told.opened with ⟨-, -, begun | ⟨error, failed⟩⟩ | ⟨total, -, -⟩
    · rw [returned] at begun
      cases begun
    · rw [returned] at failed
      cases failed
    · rw [total]
      exact tracked.account.complete returned
  · intro failed
    apply tracked.account.low
    intro returned
    rw [status_succeeded.mpr returned] at failed
    cases failed

/-- The move of a file with a read that comes short. -/
theorem image_progress : ∃ final,
    run (reportingStep imagePlan) (reportingStart photoStorage) imageEvents = some final ∧
    (status final).state = .succeeded ∧ (status final).doneBytes = imagePlan.totalBytes ∧
    (status final).doneBytes ≤ max imagePlan.totalBytes 1 := by
  have finished : (run (reportingStep imagePlan) (reportingStart photoStorage) imageEvents).map
      (fun final => ((status final).state, (status final).doneBytes)) = some (.succeeded, imagePlan.totalBytes) := by decide +kernel
  obtain ⟨final, executed, same⟩ := Option.map_eq_some_iff.mp finished
  simp only [Prod.mk.injEq] at same
  refine ⟨final, executed, same.1, same.2, ?_⟩
  exact (progress_reaches_total photoServer photoStorage photoStorage (photoAnswers [])
    (photoTransfer "points/old/photos/image" "points/new/img" false) imagePlan image_planned
    (by decide +kernel) (by decide +kernel) (by decide +kernel) imageEvents final executed).1

end Vaulton.Proofs.TransferProgress
