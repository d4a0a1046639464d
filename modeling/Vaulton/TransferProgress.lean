import Vaulton.JobResults
import Vaulton.Progress
import Vaulton.Transfer

/-! What a transfer job tells while it runs (the `report` closure of `run_transfer`): the
counters that GetJob reads and the calls of its progress bar. -/

namespace Vaulton.TransferProgress
open Vaulton.JobResults Vaulton.Transfer
open Vaulton.Progress (Call)

structure Reporting where
  job : TransferState
  progress : JobProgress
  /-- The calls of the progress bar so far. -/
  bar : List Call

def reportingStart (storage : Storage) : Reporting := ⟨transferStart storage, ⟨0, 0⟩, []⟩

/-- `Some(n)` is n more bytes, `None` is the end. `AtomicU64::fetch_add` wraps. -/
def Reporting.report (reporting : Reporting) : Option Nat → Reporting
  | some n => { reporting with
      progress.done := (reporting.progress.done + n) % 2 ^ 64
      bar := reporting.bar ++ [.inc n] }
  | none => { reporting with bar := reporting.bar ++ [.finish] }

/-- `total` is stored and the bar gets its length once the quota is checked. -/
def Reporting.announce (reporting : Reporting) (plan : TransferPlan) : Reporting :=
  { reporting with
    progress.total := max plan.totalBytes 1
    bar := reporting.bar ++ [.setLength (max plan.totalBytes 1)] }

def lastReports (plan : TransferPlan) : List (Option Nat) :=
  if plan.totalBytes = 0 then [some 1, none] else [none]

/-- The calls of `report` in one step of the job. -/
def reports (plan : TransferPlan) (state : TransferState) (answer : Answer) : List (Option Nat) :=
  match state.pc with
  | .rename =>
    match callRename plan state.storage answer with
    | .ok _ => [some (max plan.totalBytes 1), none]
    | .error _ => []
  | .entries [] => if plan.copy then lastReports plan else []
  | .copyOne file _ =>
    if plan.native then
      match answer.call (copyFile plan.srcOp state.storage file.source file.destination) with
      | .ok _ => [some file.len]
      | .error _ => []
    else []
  | .write file written buffer _ =>
    match answer.call (writeFile plan.dstOp state.storage file.destination (written ++ buffer)) with
    | .ok _ => [some buffer.length]
    | .error _ => []
  | .deleteSource =>
    if answer.cancelled then []
    else
      match answer.error with
      | none => lastReports plan
      | some _ => []
  | .recheck | .copyTree | .entries (_ :: _) | .read _ _ _ | .cleanup _ | .returned _ => []

def announces (plan : TransferPlan) (state : TransferState) (answer : Answer) : Bool :=
  match state.pc with
  | .recheck => (recheckQuota plan state.storage answer).isOk
  | _ => false

def reportingStep (plan : TransferPlan) (reporting : Reporting) (answer : Answer) : Option Reporting :=
  (transferStep plan reporting.job answer).map fun job =>
    let reporting' := if announces plan reporting.job answer then reporting.announce plan else reporting
    (reports plan reporting.job answer).foldl Reporting.report { reporting' with job }

/-- What GetJob answers: `finish_job` keeps the counters of a job that has returned. -/
def status (reporting : Reporting) : JobStatusResponse :=
  match reporting.job.pc with
  | .returned none => finishedStatus (finishedJob (.ok none) reporting.progress)
  | .returned (some error) => finishedStatus (finishedJob (.error error.toList) reporting.progress)
  | _ => runningStatus reporting.progress

end Vaulton.TransferProgress
