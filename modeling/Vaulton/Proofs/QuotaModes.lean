import Vaulton.Proofs.QuotaAccounting

/-! When a write through the quota layer is the write on the inner service. The layer
stages what it is given and renames it over the destination, so the modes that look at
the destination look at the staging path instead. -/

namespace Vaulton.Proofs.QuotaModes
open Vaulton.Lib Vaulton.Quota Vaulton.Proofs.QuotaAccounting

variable {accessor : QuotaAccessor} {fate : RenameFate} {mode : WriteMode} {world : World} {path : Path} {nanos : Nat}
  {payload : Payload}

/-! ### The layer -/

/-- The layer does not refuse a write of so many bytes. -/
def WithinQuota (accessor : QuotaAccessor) (world : World) (path : Path) (size : Nat) : Prop :=
  (commitWrite accessor.id accessor.limit (sizeOfPath world.store path) size).newTotal world.counter.bytes ≤ accessor.limit

instance (size : Nat) : Decidable (WithinQuota accessor world path size) := inferInstanceAs (Decidable (_ ≤ _))

theorem innerWrite_fresh {store : Store} {tmp : Path} (fresh : tmp ∉ store) (content : Content) :
    innerWrite mode store tmp content = (store.insert tmp content, .ok ()) := by
  unfold innerWrite
  rw [AList.lookup_eq_none.mpr fresh]

theorem commit_accepted {counter : QuotaCounter} {delta : Delta} (fits : delta.newTotal counter.bytes ≤ delta.limit) :
    applyDelta delta counter = (⟨delta.newTotal counter.bytes, true⟩, .ok (delta.newTotal counter.bytes)) :=
  if_neg (Nat.not_lt.mpr fits)

theorem commitStaged_renamed {counter : QuotaCounter} {store after : Store} {tmp : Path} {oldSize newSize : Nat}
    (suffix : Nat) (fits : (commitWrite accessor.id accessor.limit oldSize newSize).newTotal counter.bytes ≤ accessor.limit)
    (renamed : commitRename fate store tmp path = (after, none)) :
    ∃ counted, commitStaged accessor fate ⟨store, counter, suffix⟩ tmp path oldSize newSize =
      (⟨after, counted, suffix⟩, none) := by
  simp only [commitStaged, commit_accepted fits, renamed]
  exact ⟨_, rfl⟩

theorem commitStaged_failed {counter : QuotaCounter} {oldSize newSize : Nat} (store : Store) (tmp path : Path) (suffix : Nat)
    (fits : (commitWrite accessor.id accessor.limit oldSize newSize).newTotal counter.bytes ≤ accessor.limit) :
    (commitStaged accessor .fails ⟨store, counter, suffix⟩ tmp path oldSize newSize).2 = some renameError := by
  simp only [commitStaged, commit_accepted fits, commitRename]

theorem writeWith_staged (fresh : tmpPathFor path nanos world.suffix ∉ world.store) :
    accessor.writeWith fate mode world path nanos payload =
      match commitStaged accessor fate
          ⟨world.store.insert (tmpPathFor path nanos world.suffix) payload.content, world.counter, world.suffix + 1⟩
          (tmpPathFor path nanos world.suffix) path (sizeOfPath world.store path) payload.content.length with
      | (world, none) => (world, .ok ())
      | (world, some error) => (world, .error (.of error.kind)) := by
  have written := written_eq payload.chunks 0 (by simpa using payload.fits)
  have size : sizeOfPath (world.store.insert (tmpPathFor path nanos world.suffix) payload.content) path =
      sizeOfPath world.store path := weightAt_insert_of_ne _ _ (tmpPathFor_ne path nanos world.suffix).symm
  rw [← size, QuotaAccessor.writeWith]
  simp only [innerWrite_fresh fresh, written, Nat.zero_add]
  rfl

/-- A write that is not refused, when the rename succeeds: the destination holds what was
written, whatever it held before and whatever the mode. -/
theorem writeWith_renamed (mode : WriteMode) (fresh : tmpPathFor path nanos world.suffix ∉ world.store)
    (fits : WithinQuota accessor world path payload.content.length) (succeeds : fate ≠ .fails) :
    ∃ after, accessor.writeWith fate mode world path nanos payload = (after, .ok ()) ∧
      ∀ other, after.store.lookup other = (world.store.insert path payload.content).lookup other := by
  have staged : Staged world.store (world.store.insert (tmpPathFor path nanos world.suffix) payload.content)
      (tmpPathFor path nanos world.suffix) payload.content := fun _ => rfl
  obtain ⟨after, renamed, lookups⟩ := staged.renamed fresh (tmpPathFor_ne path nanos world.suffix) succeeds
  obtain ⟨counted, committed⟩ := commitStaged_renamed (world.suffix + 1) fits renamed
  refine ⟨⟨after, counted, world.suffix + 1⟩, ?_, lookups⟩
  rw [writeWith_staged fresh, committed]

theorem writeWith_failed (fresh : tmpPathFor path nanos world.suffix ∉ world.store)
    (fits : WithinQuota accessor world path payload.content.length) :
    (accessor.writeWith .fails mode world path nanos payload).2 = .error (.of .unexpected) := by
  have failed := commitStaged_failed (world.store.insert (tmpPathFor path nanos world.suffix) payload.content)
    (tmpPathFor path nanos world.suffix) path (world.suffix + 1) fits
  rw [writeWith_staged fresh]
  split
  next committed =>
    rw [committed] at failed
    cases failed
  next committed =>
    rw [committed] at failed
    cases failed
    rfl

/-! ### The plain mode -/

theorem erase_congr {first second : Store} (same : ∀ other, first.lookup other = second.lookup other) (gone other : Path) :
    (first.erase gone).lookup other = (second.erase gone).lookup other := by
  by_cases here : other = gone
  · subst here
    rw [AList.lookup_erase, AList.lookup_erase]
  · rw [AList.lookup_erase_ne here, AList.lookup_erase_ne here]
    exact same other

theorem rename_congr {first second : Store} (same : ∀ other, first.lookup other = second.lookup other)
    (source dest other : Path) : (rename first source dest).lookup other = (rename second source dest).lookup other := by
  unfold rename
  rw [same source]
  split
  next content _ =>
    by_cases here : other = dest
    · subst here
      rw [AList.lookup_insert, AList.lookup_insert]
    · rw [AList.lookup_insert_ne here, AList.lookup_insert_ne here]
      exact erase_congr same source other
  next => exact same other

theorem commitRename_congr {first second : Store} (same : ∀ other, first.lookup other = second.lookup other)
    (fate : RenameFate) (tmp dest : Path) :
    (commitRename fate first tmp dest).2 = (commitRename fate second tmp dest).2 ∧
    ∀ other, (commitRename fate first tmp dest).1.lookup other = (commitRename fate second tmp dest).1.lookup other := by
  cases fate with
  | direct => exact ⟨rfl, rename_congr same tmp dest⟩
  | fallback => exact ⟨rfl, rename_congr (erase_congr same dest) tmp dest⟩
  | fails => exact ⟨rfl, erase_congr same dest⟩

theorem commitStaged_congr {first second : Store} (same : ∀ other, first.lookup other = second.lookup other)
    (accessor : QuotaAccessor) (fate : RenameFate) (counter : QuotaCounter) (suffix : Nat) (tmp dest : Path)
    (oldSize newSize : Nat) :
    (commitStaged accessor fate ⟨first, counter, suffix⟩ tmp dest oldSize newSize).2 =
      (commitStaged accessor fate ⟨second, counter, suffix⟩ tmp dest oldSize newSize).2 ∧
    ∀ other, (commitStaged accessor fate ⟨first, counter, suffix⟩ tmp dest oldSize newSize).1.store.lookup other =
      (commitStaged accessor fate ⟨second, counter, suffix⟩ tmp dest oldSize newSize).1.store.lookup other := by
  obtain ⟨result, lookups⟩ := commitRename_congr same fate tmp dest
  simp only [commitStaged]
  rcases applyDelta (commitWrite accessor.id accessor.limit oldSize newSize) counter with ⟨counted, reply⟩
  cases reply with
  | err error => exact ⟨rfl, erase_congr same tmp⟩
  | ok total =>
    revert result lookups
    rcases commitRename fate first tmp dest with ⟨leftStore, leftError⟩
    rcases commitRename fate second tmp dest with ⟨rightStore, rightError⟩
    intro result lookups
    cases leftError with
    | none =>
      cases result
      exact ⟨rfl, lookups⟩
    | some error =>
      cases result
      exact ⟨rfl, erase_congr lookups tmp⟩

/-- In the plain mode this is the write of `perform`, chunk by chunk. -/
theorem writeWith_plain (accessor : QuotaAccessor) (fate : RenameFate) (world : World) (path : Path) (nanos : Nat)
    (payload : Payload) (fresh : tmpPathFor path nanos world.suffix ∉ world.store) :
    ((accessor.writeWith fate ⟨false, false⟩ world path nanos payload).2 = .ok () ↔
      (perform accessor fate world (.write path nanos payload true)).2 = .ok) ∧
    ∀ other, (accessor.writeWith fate ⟨false, false⟩ world path nanos payload).1.store.lookup other =
      (perform accessor fate world (.write path nanos payload true)).1.store.lookup other := by
  set tmp := tmpPathFor path nanos world.suffix with named
  have opened : Streaming world.store (stage accessor.backend world.store tmp []) tmp :=
    Streaming.stage (fun _ _ => rfl) accessor.backend []
  obtain ⟨store, streamed, streams⟩ := writeAll_spec accessor payload.chunks
    (accessor.write world path nanos).1 (accessor.write world path nanos).2 opened
  change Streaming world.store store tmp at streams
  have total := written_eq payload.chunks 0 (by simpa using payload.fits)
  simp only [QuotaAccessor.write, ← named, List.nil_append, total, Nat.zero_add] at streamed
  have size : sizeOfPath (store.insert tmp payload.content) path = sizeOfPath world.store path :=
    sizeOfPath_congr ((streams.staged payload.content path).trans
      (AList.lookup_insert_ne (tmpPathFor_ne path nanos world.suffix).symm))
  obtain ⟨result, lookups⟩ := commitStaged_congr (fun other => (streams.staged payload.content other).symm) accessor fate
    world.counter (world.suffix + 1) tmp path (sizeOfPath world.store path) payload.content.length
  have performed : perform accessor fate world (.write path nanos payload true) =
      ((commitStaged accessor fate ⟨store.insert tmp payload.content, world.counter, world.suffix + 1⟩ tmp path
        (sizeOfPath world.store path) payload.content.length).1,
      .ofError (commitStaged accessor fate ⟨store.insert tmp payload.content, world.counter, world.suffix + 1⟩ tmp path
        (sizeOfPath world.store path) payload.content.length).2) := by
    rw [← size]
    simp only [perform, QuotaAccessor.write, ← named, streamed, QuotaWriter.close, if_true]
    rfl
  rw [performed, writeWith_staged fresh, ← named, ← result]
  split
  next after committed =>
    rw [committed] at lookups ⊢
    exact ⟨by simp [Result.ofError], lookups⟩
  next after error committed =>
    rw [committed] at lookups ⊢
    exact ⟨by simp [Result.ofError], lookups⟩

/-! ### Against the inner service -/

/-- The same result and the same objects, but for the staging path. -/
def SameWrite (tmp : Path) (layered : World × Except WriteFailure Unit) (direct : Store × Except WriteFailure Unit) : Prop :=
  layered.2 = direct.2 ∧ ∀ other, other ≠ tmp → layered.1.store.lookup other = direct.1.lookup other

/-- What the destination must be for the mode to mean the same under the staging path. -/
def ModeKept (mode : WriteMode) (existing : Option Content) : Prop :=
  (mode.ifNotExists = true → existing = none) ∧ (mode.append = true → existing = none ∨ existing = some [])

theorem innerWrite_kept {store : Store} {content : Content} (kept : ModeKept mode (store.lookup path)) :
    innerWrite mode store path content = (store.insert path content, .ok ()) := by
  unfold innerWrite
  cases found : store.lookup path with
  | none => rfl
  | some existing =>
    rw [found] at kept
    have overwrites : ¬mode.ifNotExists = true := fun checked => by cases kept.1 checked
    simp only [if_neg overwrites]
    split
    next appends =>
      have empty : existing = [] := by simpa using kept.2 appends
      rw [empty, List.nil_append]
    next => rfl

/-- The direct write of any other mode: it is refused, or keeps what is there. -/
theorem innerWrite_differs {store : Store} (content : Content) (differs : ¬ModeKept mode (store.lookup path)) :
    (innerWrite mode store path content).2 = .error .conditionNotMatch ∨
    ∃ existing, existing ≠ [] ∧ (innerWrite mode store path content).1.lookup path = some (existing ++ content) := by
  unfold innerWrite
  cases found : store.lookup path with
  | none =>
    rw [found] at differs
    exact (differs ⟨fun _ => rfl, fun _ => .inl rfl⟩).elim
  | some existing =>
    rw [found] at differs
    by_cases checked : mode.ifNotExists = true
    · simp [checked]
    · by_cases appends : mode.append = true
      · right
        refine ⟨existing, ?_, by simp [checked, appends]⟩
        rintro rfl
        exact differs ⟨fun present => (checked present).elim, fun _ => .inr rfl⟩
      · exact (differs ⟨fun present => (checked present).elim, fun present => (appends present).elim⟩).elim

theorem innerWrite_result (mode : WriteMode) (store : Store) (path : Path) (content : Content) :
    (innerWrite mode store path content).2 = .ok () ∨ (innerWrite mode store path content).2 = .error .conditionNotMatch := by
  unfold innerWrite
  repeat' split
  all_goals simp

/-- For a write under a fresh staging path that the layer does not refuse: the layer is
transparent exactly when the rename succeeds and the destination is one that the mode does
not look at. -/
theorem write_transparent_iff (accessor : QuotaAccessor) (fate : RenameFate) (mode : WriteMode) (world : World) (path : Path)
    (nanos : Nat) (payload : Payload) (fresh : tmpPathFor path nanos world.suffix ∉ world.store)
    (fits : WithinQuota accessor world path payload.content.length) :
    SameWrite (tmpPathFor path nanos world.suffix) (accessor.writeWith fate mode world path nanos payload)
        (innerWrite mode world.store path payload.content) ↔
      fate ≠ .fails ∧ ModeKept mode (world.store.lookup path) := by
  by_cases succeeds : fate = .fails
  · subst succeeds
    refine iff_of_false ?_ fun condition => condition.1 rfl
    rintro ⟨result, -⟩
    rw [writeWith_failed fresh fits] at result
    rcases innerWrite_result mode world.store path payload.content with direct | direct <;> rw [direct] at result <;> cases result
  · obtain ⟨after, layered, lookups⟩ := writeWith_renamed mode fresh fits succeeds
    rw [layered]
    by_cases kept : ModeKept mode (world.store.lookup path)
    · rw [innerWrite_kept kept]
      exact iff_of_true ⟨rfl, fun other _ => lookups other⟩ ⟨succeeds, kept⟩
    · refine iff_of_false ?_ fun condition => kept condition.2
      intro ⟨result, same⟩
      rcases innerWrite_differs payload.content kept with direct | ⟨existing, nonempty, appended⟩
      · rw [direct] at result
        cases result
      · have here := same path (tmpPathFor_ne path nanos world.suffix).symm
        rw [lookups, AList.lookup_insert, appended] at here
        have lengths := congrArg List.length (Option.some.inj here)
        rw [List.length_append] at lengths
        exact nonempty (List.eq_nil_of_length_eq_zero (by omega))

def withA : World := ⟨(∅ : Store).insert "a" [1, 2], .new 2, 0⟩

theorem guarded_create_is_transparent :
    SameWrite (tmpPathFor "b" 7 0) (smallAccessor.writeWith .direct ⟨false, true⟩ withA "b" 7 smallPayload)
      (innerWrite ⟨false, true⟩ withA.store "b" smallPayload.content) :=
  (write_transparent_iff smallAccessor .direct ⟨false, true⟩ withA "b" 7 smallPayload (by decide) (by decide)).mpr
    ⟨by decide, by decide, by decide⟩

/-- Through the layer, appending replaces the object and a guarded create overwrites it. -/
theorem append_replaces :
    (innerWrite ⟨true, false⟩ withA.store "a" smallPayload.content).1.lookup "a" = some [1, 2, 1, 2, 3] ∧
    (smallAccessor.writeWith .direct ⟨true, false⟩ withA "a" 7 smallPayload).2 = .ok () ∧
    (smallAccessor.writeWith .direct ⟨true, false⟩ withA "a" 7 smallPayload).1.store.lookup "a" = some [1, 2, 3] ∧
    (innerWrite ⟨false, true⟩ withA.store "a" smallPayload.content).2 = .error .conditionNotMatch ∧
    (smallAccessor.writeWith .direct ⟨false, true⟩ withA "a" 7 smallPayload).2 = .ok () ∧
    (smallAccessor.writeWith .direct ⟨false, true⟩ withA "a" 7 smallPayload).1.store.lookup "a" = some [1, 2, 3] := by
  refine ⟨?_, ?_, ?_, ?_, ?_, ?_⟩ <;> decide

end Vaulton.Proofs.QuotaModes
