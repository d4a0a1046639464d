import Vaulton.Lib.Machine
import Vaulton.QuotaAccessor

/-! The counter is the sum of the stored sizes after every operation of a sequential
history. The staged object is the only thing an operation adds to the store before
its commit, so each operation is specified against the store it started from. -/

namespace Vaulton.Proofs.QuotaAccounting
open Vaulton.Lib Vaulton.Quota

/-! ### The counter alone -/

/-- Under a limit below `u64::MAX` saturation never decides a commit. -/
theorem applyDelta_write {counter : QuotaCounter} (id : String) {limit old : Nat} (new : Nat)
    (below : limit < u64Max) (covers : old ≤ counter.bytes) :
    (limit < counter.bytes - old + new ∧ ∃ error, error.kind = .rateLimited ∧
      applyDelta (commitWrite id limit old new) counter = (counter, .err error)) ∨
    (counter.bytes - old + new ≤ limit ∧
      applyDelta (commitWrite id limit old new) counter =
        (⟨counter.bytes - old + new, true⟩, .ok (counter.bytes - old + new))) := by
  have value : (commitWrite id limit old new).newTotal counter.bytes = min (counter.bytes - old + new) u64Max := rfl
  by_cases exceeds : limit < counter.bytes - old + new
  · refine .inl ⟨exceeds, quotaExceededError id counter.bytes (min (counter.bytes - old + new) u64Max) limit, rfl, ?_⟩
    have rejects : min (counter.bytes - old + new) u64Max > (commitWrite id limit old new).limit := by
      simp only [commitWrite]
      omega
    simp only [applyDelta, value, if_pos rejects]
    rfl
  · refine .inr ⟨by omega, ?_⟩
    have exact : min (counter.bytes - old + new) u64Max = counter.bytes - old + new := by omega
    have accepts : ¬counter.bytes - old + new > (commitWrite id limit old new).limit := by
      simp only [commitWrite]
      omega
    simp only [applyDelta, value, exact, if_neg accepts]

theorem applyDelta_delete (counter : QuotaCounter) (id : String) (size : Nat)
    (fits : counter.bytes - size ≤ u64Max) :
    (applyDelta (commitDelete id size) counter).1.bytes = counter.bytes - size := by
  have value : (commitDelete id size).newTotal counter.bytes = min (counter.bytes - size) u64Max := rfl
  have exact : min (counter.bytes - size) u64Max = counter.bytes - size := by omega
  have accepts : ¬counter.bytes - size > (commitDelete id size).limit := by
    simp only [commitDelete]
    omega
  simp only [applyDelta, value, exact, if_neg accepts]

/-! ### Staging -/

theorem tmpPathFor_ne (path : Path) (nanos n : Nat) : tmpPathFor path nanos n ≠ path := by
  intro same
  have lengths := congrArg String.length same
  simp only [tmpPathFor, String.length_append] at lengths
  have positive : 0 < ".quota-tmp-".length := by decide
  simp only [toString] at lengths
  omega

/-- The store is `base` with the staged object added. -/
def Staged (base store : Store) (tmp : Path) (content : Content) : Prop :=
  ∀ path, store.lookup path = (base.insert tmp content).lookup path

/-- The store is `base` but for what may stand under the staging path. -/
def Streaming (base store : Store) (tmp : Path) : Prop :=
  ∀ path, path ≠ tmp → store.lookup path = base.lookup path

theorem Streaming.stage {base store : Store} {tmp : Path} (streams : Streaming base store tmp)
    (backend : Backend) (content : Content) : Streaming base (stage backend store tmp content) tmp := by
  intro path different
  unfold Vaulton.Quota.stage
  split
  · rw [AList.lookup_insert_ne different]
    exact streams path different
  · exact streams path different

theorem Streaming.staged {base store : Store} {tmp : Path} (streams : Streaming base store tmp) (content : Content) :
    Staged base (store.insert tmp content) tmp content := by
  intro path
  by_cases same : path = tmp
  · subst path
    simp
  · rw [AList.lookup_insert_ne same, AList.lookup_insert_ne same]
    exact streams path same

theorem Streaming.removed {base store : Store} {tmp : Path} (streams : Streaming base store tmp)
    (fresh : tmp ∉ base) (path : Path) : (store.erase tmp).lookup path = base.lookup path := by
  by_cases same : path = tmp
  · subst path
    rw [AList.lookup_erase, AList.lookup_eq_none.mpr fresh]
  · rw [AList.lookup_erase_ne same]
    exact streams path same

theorem Staged.streaming {base store : Store} {tmp : Path} {content : Content} (staged : Staged base store tmp content) :
    Streaming base store tmp := by
  intro path different
  rw [staged path, AList.lookup_insert_ne different]

theorem sizeOfPath_congr {first second : Store} {path : Path} (same : first.lookup path = second.lookup path) :
    sizeOfPath first path = sizeOfPath second path := by
  simp [weightAt, same]

theorem Staged.renamed {base store : Store} {tmp dest : Path} {content : Content} {fate : RenameFate}
    (staged : Staged base store tmp content) (fresh : tmp ∉ base) (different : tmp ≠ dest) (succeeds : fate ≠ .fails) :
    ∃ after, commitRename fate store tmp dest = (after, none) ∧
      ∀ path, after.lookup path = (base.insert dest content).lookup path := by
  have moved (current : Store) (found : current.lookup tmp = some content)
      (others : ∀ path, path ≠ tmp → path ≠ dest → current.lookup path = base.lookup path) (path : Path) :
      (rename current tmp dest).lookup path = (base.insert dest content).lookup path := by
    simp only [rename, found]
    by_cases same : path = dest
    · subst path
      simp
    · rw [AList.lookup_insert_ne same, AList.lookup_insert_ne same]
      by_cases stagedPath : path = tmp
      · subst path
        rw [AList.lookup_erase, AList.lookup_eq_none.mpr fresh]
      · rw [AList.lookup_erase_ne stagedPath]
        exact others path stagedPath same
  have found : store.lookup tmp = some content := by simpa using staged tmp
  cases fate with
  | direct => exact ⟨_, rfl, moved store found (fun path other _ => staged.streaming path other)⟩
  | fallback =>
    refine ⟨_, rfl, moved _ ?_ ?_⟩
    · rw [bestEffortRemove, AList.lookup_erase_ne different]
      exact found
    · intro path other away
      rw [bestEffortRemove, AList.lookup_erase_ne away]
      exact staged.streaming path other
  | fails => exact (succeeds rfl).elim

/-! ### Commit -/

/-- The counter is the sum of the stored sizes, within the limit. -/
structure Accounted (accessor : QuotaAccessor) (world : World) : Prop where
  counted : world.counter.bytes = storeBytes world.store
  within : storeBytes world.store ≤ accessor.limit

/-- What a commit makes of a world: it is refused and leaves the world as it was, or it stores
the object. -/
inductive Commits (accessor : QuotaAccessor) (base : World) (dest : Path) (content : Content) (after : World) :
    Option Error → Prop where
  | refused {reason} (exceeds : accessor.limit < storeBytes base.store - sizeOfPath base.store dest + content.length)
      (kind : reason.kind = .rateLimited) (counter : after.counter = base.counter)
      (lookups : ∀ path, after.store.lookup path = base.store.lookup path) : Commits accessor base dest content after (some reason)
  | stored (fits : storeBytes base.store - sizeOfPath base.store dest + content.length ≤ accessor.limit)
      (counter : after.counter.bytes = storeBytes base.store - sizeOfPath base.store dest + content.length)
      (lookups : ∀ path, after.store.lookup path = (base.store.insert dest content).lookup path) :
      Commits accessor base dest content after none

/-- The shared tail of both closes, against the store the operation started from. -/
theorem commitStaged_spec {accessor : QuotaAccessor} {fate : RenameFate} {base : World} {store : Store}
    {tmp dest : Path} {content : Content} (suffix : Nat) (below : accessor.limit < u64Max)
    (accounted : Accounted accessor base) (staged : Staged base.store store tmp content)
    (fresh : tmp ∉ base.store) (different : tmp ≠ dest) (succeeds : fate ≠ .fails) :
    ∃ after error, commitStaged accessor fate ⟨store, base.counter, suffix⟩ tmp dest
        (sizeOfPath store dest) content.length = (after, error) ∧ Commits accessor base dest content after error := by
  have old : sizeOfPath store dest = sizeOfPath base.store dest := sizeOfPath_congr (staged.streaming dest (Ne.symm different))
  have covers : sizeOfPath base.store dest ≤ base.counter.bytes := by
    rw [accounted.counted]
    exact weightAt_le_total _ _ _
  rw [old, commitStaged]
  rcases applyDelta_write accessor.id content.length below covers with
    ⟨exceeds, reason, kind, outcome⟩ | ⟨fits, outcome⟩
  · rw [accounted.counted] at exceeds
    refine ⟨⟨bestEffortRemove store tmp, base.counter, suffix⟩, some reason, by rw [outcome], ?_⟩
    exact .refused exceeds kind rfl (staged.streaming.removed fresh)
  · obtain ⟨after, moved, lookups⟩ := staged.renamed fresh different succeeds
    rw [accounted.counted] at fits
    refine ⟨⟨after, _, suffix⟩, none, by rw [outcome]; simp only [moved]; rfl, .stored fits ?_ lookups⟩
    rw [← accounted.counted]

/-! ### What each operation is for -/

/-- The staging path an operation uses. -/
def staging (world : World) : Operation → Option Path
  | .write path nanos _ _ => some (tmpPathFor path nanos world.suffix)
  | .copy _ dest nanos _ => some (tmpPathFor dest nanos world.suffix)
  | .delete _ => none

/-- A fresh staging path, and no path twice in one delete batch. -/
def Admitted (world : World) (op : Operation) : Prop :=
  (∀ tmp, staging world op = some tmp → tmp ∉ world.store) ∧ ∀ paths, op = .delete paths → paths.Nodup

instance (world : World) : (op : Operation) → Decidable (Admitted world op)
  | .write path nanos _ _ =>
    decidable_of_iff (tmpPathFor path nanos world.suffix ∉ world.store) (by simp [Admitted, staging])
  | .copy _ dest nanos _ =>
    decidable_of_iff (tmpPathFor dest nanos world.suffix ∉ world.store) (by simp [Admitted, staging])
  | .delete paths => decidable_of_iff paths.Nodup (by simp [Admitted, staging])

/-- The sum without the old destination and with the new object is over the limit. -/
def Overruns (limit : Nat) (store : Store) : Operation → Prop
  | .write path _ payload closes =>
    closes = true ∧ limit < storeBytes store - sizeOfPath store path + payload.content.length
  | .copy source dest _ closes =>
    closes = true ∧ source ∈ store ∧ limit < storeBytes store - sizeOfPath store dest + sizeOfPath store source
  | .delete _ => False

/-- The operation on the plain map, without quota and staging. -/
def effect (store : Store) : Operation → Store
  | .write path _ payload _ => store.insert path payload.content
  | .copy source dest _ _ =>
    match store.lookup source with
    | some content => store.insert dest content
    | none => store
  | .delete paths => paths.foldl (fun store path => store.erase path) store

/-- The specification of one operation through the layer. -/
structure Performs (accessor : QuotaAccessor) (before : World) (op : Operation) (after : World) (result : Result) : Prop where
  accounted : Accounted accessor after
  refused : (∃ error, result = .refused error ∧ error.kind = .rateLimited) ↔ Overruns accessor.limit before.store op
  unchanged : result ≠ .ok → after.counter = before.counter ∧ ∀ path, after.store.lookup path = before.store.lookup path
  done : result = .ok → ∀ path, after.store.lookup path = (effect before.store op).lookup path
  unstaged : ∀ tmp, staging before op = some tmp → tmp ∉ after.store

theorem Accounted.same {accessor : QuotaAccessor} {before after : World} (accounted : Accounted accessor before)
    (counter : after.counter = before.counter)
    (lookups : ∀ path, after.store.lookup path = before.store.lookup path) : Accounted accessor after := by
  have bytes := total_congr List.length lookups
  exact ⟨by rw [counter, accounted.counted, storeBytes, storeBytes, bytes], by
    rw [storeBytes, bytes]
    exact accounted.within⟩

theorem Accounted.inserted {accessor : QuotaAccessor} {before after : World} {dest : Path} {content : Content}
    (fits : storeBytes before.store - sizeOfPath before.store dest + content.length ≤ accessor.limit)
    (counter : after.counter.bytes = storeBytes before.store - sizeOfPath before.store dest + content.length)
    (lookups : ∀ path, after.store.lookup path = (before.store.insert dest content).lookup path) :
    Accounted accessor after := by
  have bytes : storeBytes after.store = storeBytes before.store - sizeOfPath before.store dest + content.length := by
    have same := total_congr List.length lookups
    have moved := total_insert List.length before.store dest content
    have covers := weightAt_le_total List.length before.store dest
    simp only [storeBytes, sizeOfPath]
    omega
  exact ⟨counter.trans bytes.symm, bytes ▸ fits⟩

theorem notMem_of_lookup {first second : Store} {path : Path} (same : first.lookup path = second.lookup path)
    (absent : path ∉ second) : path ∉ first := by
  rw [← AList.lookup_eq_none] at absent ⊢
  exact same.trans absent

theorem Performs.untouched {accessor : QuotaAccessor} {before after : World} {op : Operation} {result : Result} {tmp : Path}
    (accounted : Accounted accessor before) (used : staging before op = some tmp) (fresh : tmp ∉ before.store)
    (fits : ¬Overruns accessor.limit before.store op) (failed : result ≠ .ok)
    (admitted : ∀ error, result = .refused error → error.kind ≠ .rateLimited) (counter : after.counter = before.counter)
    (lookups : ∀ path, after.store.lookup path = before.store.lookup path) : Performs accessor before op after result where
  accounted := accounted.same counter lookups
  refused := iff_of_false (fun ⟨error, same, kind⟩ => admitted error same kind) fits
  unchanged _ := ⟨counter, lookups⟩
  done ended := absurd ended failed
  unstaged other same := by
    cases used.symm.trans same
    exact notMem_of_lookup (lookups tmp) fresh

theorem Commits.performs {accessor : QuotaAccessor} {before after : World} {op : Operation} {dest tmp : Path} {content : Content}
    {error : Option Error} (commits : Commits accessor before dest content after error) (accounted : Accounted accessor before)
    (used : staging before op = some tmp) (fresh : tmp ∉ before.store) (different : tmp ≠ dest)
    (overruns : Overruns accessor.limit before.store op ↔
      accessor.limit < storeBytes before.store - sizeOfPath before.store dest + content.length)
    (stores : effect before.store op = before.store.insert dest content) :
    Performs accessor before op after (.ofError error) := by
  cases commits with
  | @refused reason exceeds kind counter lookups =>
    refine ⟨accounted.same counter lookups, ?_, fun _ => ⟨counter, lookups⟩, by simp [Result.ofError], ?_⟩
    · exact iff_of_true ⟨reason, rfl, kind⟩ (overruns.mpr exceeds)
    · intro other same
      cases used.symm.trans same
      exact notMem_of_lookup (lookups tmp) fresh
  | stored fits counter lookups =>
    refine ⟨.inserted fits counter lookups, ?_, by simp [Result.ofError], ?_, ?_⟩
    · apply iff_of_false
      · simp [Result.ofError]
      · rw [overruns]
        omega
    · intro _ path
      rw [stores]
      exact lookups path
    · intro other same
      cases used.symm.trans same
      apply notMem_of_lookup (lookups tmp)
      simp [AList.mem_insert, different, fresh]

/-! ### One operation -/

/-- Streaming chunks touches nothing but the staging path. -/
theorem writeAll_spec (accessor : QuotaAccessor) {base : Store} (chunks : List Content) (world : World)
    (writer : QuotaWriter) (streams : Streaming base world.store writer.tmpPath) :
    ∃ store, writeAll accessor world writer chunks =
        (⟨store, world.counter, world.suffix⟩, ⟨writer.path, writer.tmpPath, writer.staged ++ chunks.flatten,
          (chunks.foldl (fun written chunk => (written + chunk.length) % 2 ^ 64) writer.written)⟩) ∧
      Streaming base store writer.tmpPath := by
  induction chunks generalizing world writer with
  | nil => exact ⟨world.store, by simp [writeAll], streams⟩
  | cons chunk rest ih =>
    obtain ⟨store, written, later⟩ := ih (writer.write accessor world chunk).1 (writer.write accessor world chunk).2
      (streams.stage accessor.backend _)
    refine ⟨store, ?_, later⟩
    simp only [writeAll, List.foldl_cons] at written ⊢
    rw [written]
    simp [QuotaWriter.write]

theorem written_eq (chunks : List Content) (start : Nat) (fits : start + chunks.flatten.length < 2 ^ 64) :
    chunks.foldl (fun written chunk => (written + chunk.length) % 2 ^ 64) start = start + chunks.flatten.length := by
  induction chunks generalizing start with
  | nil => simp
  | cons chunk rest ih =>
    simp only [List.flatten_cons, List.length_append, List.foldl_cons] at fits ⊢
    rw [Nat.mod_eq_of_lt (by omega), ih _ (by omega)]
    omega

theorem perform_write {accessor : QuotaAccessor} {fate : RenameFate} {world : World} {path : Path} {nanos : Nat}
    {payload : Payload} {closes : Bool} (below : accessor.limit < u64Max) (accounted : Accounted accessor world)
    (fresh : tmpPathFor path nanos world.suffix ∉ world.store) (succeeds : fate ≠ .fails) :
    Performs accessor world (.write path nanos payload closes)
      (perform accessor fate world (.write path nanos payload closes)).1
      (perform accessor fate world (.write path nanos payload closes)).2 := by
  set tmp := tmpPathFor path nanos world.suffix with named
  have different : tmp ≠ path := tmpPathFor_ne path nanos world.suffix
  have opened : Streaming world.store (stage accessor.backend world.store tmp []) tmp :=
    Streaming.stage (fun _ _ => rfl) accessor.backend []
  obtain ⟨store, streamed, streams⟩ := writeAll_spec accessor payload.chunks
    (accessor.write world path nanos).1 (accessor.write world path nanos).2 opened
  change Streaming world.store store tmp at streams
  have total := written_eq payload.chunks 0 (by simpa using payload.fits)
  simp only [QuotaAccessor.write, ← named, List.nil_append, total, Nat.zero_add] at streamed
  cases closes with
  | false =>
    simp only [perform, QuotaAccessor.write, ← named, streamed]
    exact .untouched accounted rfl fresh (by simp [Overruns]) (by simp) (by simp) rfl (streams.removed fresh)
  | true =>
    obtain ⟨after, error, outcome, commits⟩ := commitStaged_spec (world.suffix + 1) below accounted
      (streams.staged payload.content) fresh different succeeds
    have closed : perform accessor fate world (.write path nanos payload true) = (after, .ofError error) := by
      simp only [perform, QuotaAccessor.write, ← named, streamed, QuotaWriter.close, if_true]
      simp only [Payload.content] at outcome
      rw [outcome]
    rw [closed]
    exact commits.performs accounted rfl fresh different (by simp [Overruns]) rfl

theorem perform_copy {accessor : QuotaAccessor} {fate : RenameFate} {world : World} {source dest : Path} {nanos : Nat}
    {closes : Bool} (below : accessor.limit < u64Max) (accounted : Accounted accessor world)
    (fresh : tmpPathFor dest nanos world.suffix ∉ world.store) (succeeds : fate ≠ .fails) :
    Performs accessor world (.copy source dest nanos closes)
      (perform accessor fate world (.copy source dest nanos closes)).1
      (perform accessor fate world (.copy source dest nanos closes)).2 := by
  set tmp := tmpPathFor dest nanos world.suffix with named
  have different : tmp ≠ dest := tmpPathFor_ne dest nanos world.suffix
  cases found : world.store.lookup source with
  | none =>
    have absent : source ∉ world.store := AList.lookup_eq_none.mp found
    simp only [perform, QuotaAccessor.copy, found]
    exact .untouched accounted rfl fresh (by simp [Overruns, absent]) (by simp) (by simp [notFoundError]) rfl fun _ => rfl
  | some content =>
    have present : source ∈ world.store := AList.lookup_isSome.mp (by simp [found])
    have apart : source ≠ tmp := by
      intro same
      rw [same] at present
      exact fresh present
    have opened : Streaming world.store (stage accessor.backend world.store tmp content) tmp :=
      Streaming.stage (fun _ _ => rfl) accessor.backend content
    cases closes with
    | false =>
      simp only [perform, QuotaAccessor.copy, found, ← named]
      exact .untouched accounted rfl fresh (by simp [Overruns]) (by simp) (by simp) rfl (opened.removed fresh)
    | true =>
      have staged := opened.staged content
      obtain ⟨after, error, outcome, commits⟩ := commitStaged_spec (world.suffix + 1) below accounted
        staged fresh different succeeds
      have size : sizeOfPath ((stage accessor.backend world.store tmp content).insert tmp content) source =
          content.length := by
        rw [sizeOfPath_congr (staged.streaming source apart)]
        simp [weightAt, found]
      have closed : perform accessor fate world (.copy source dest nanos true) = (after, .ofError error) := by
        simp only [perform, QuotaAccessor.copy, found, ← named, QuotaCopier.close, opened source apart, if_true, size]
        rw [outcome]
      have length : sizeOfPath world.store source = content.length := by simp [weightAt, found]
      rw [closed]
      exact commits.performs accounted rfl fresh different (by simp [Overruns, present, length]) (by simp [effect, found])

theorem total_eraseAll (paths : List Path) (store : Store) (distinct : paths.Nodup) :
    storeBytes (paths.foldl (fun store path => store.erase path) store) + (paths.map (sizeOfPath store)).sum =
      storeBytes store := by
  induction paths generalizing store with
  | nil => simp
  | cons path rest ih =>
    obtain ⟨absent, distinct⟩ := List.nodup_cons.mp distinct
    have same : rest.map (sizeOfPath (store.erase path)) = rest.map (sizeOfPath store) := by
      apply List.map_congr_left
      intro other member
      exact weightAt_erase_of_ne store (fun equal => absent (equal ▸ member))
    have removed := total_erase List.length store path
    have tail := ih (store.erase path) distinct
    rw [same] at tail
    simp only [List.foldl_cons, List.map_cons, List.sum_cons, storeBytes, sizeOfPath] at tail ⊢
    omega

/-- Whichever way the backend deletes, the recorded sizes are those of the start and
the flushed store is the one without the paths. -/
theorem deleteAll_spec (accessor : QuotaAccessor) (paths : List Path) (world : World) (deleter : QuotaDeleter)
    (distinct : paths.Nodup) : ∃ store queued,
    paths.foldl (fun (world, deleter) path => deleter.delete accessor world path) (world, deleter) =
        (⟨store, world.counter, world.suffix⟩, ⟨deleter.queued ++ queued, deleter.pendingSizes ++ paths.map (sizeOfPath world.store)⟩) ∧
      queued.foldl (fun store path => store.erase path) store =
        paths.foldl (fun store path => store.erase path) world.store ∧
      (accessor.backend.deletesAtOnce = true → queued = []) ∧
      (accessor.backend.deletesAtOnce = false → store = world.store ∧ queued = paths) := by
  induction paths generalizing world deleter with
  | nil => exact ⟨world.store, [], by simp, rfl, fun _ => rfl, fun _ => ⟨rfl, rfl⟩⟩
  | cons path rest ih =>
    obtain ⟨absent, distinct⟩ := List.nodup_cons.mp distinct
    cases mode : accessor.backend.deletesAtOnce with
    | true =>
      have same : rest.map (sizeOfPath (world.store.erase path)) = rest.map (sizeOfPath world.store) := by
        apply List.map_congr_left
        intro other member
        exact weightAt_erase_of_ne world.store (fun equal => absent (equal ▸ member))
      obtain ⟨store, queued, folded, flushed, eager, -⟩ := ih { world with store := world.store.erase path }
        { deleter with pendingSizes := deleter.pendingSizes ++ [sizeOfPath world.store path] } distinct
      refine ⟨store, queued, ?_, flushed, fun _ => eager mode, by simp⟩
      have first : deleter.delete accessor world path = ({ world with store := world.store.erase path },
          { deleter with pendingSizes := deleter.pendingSizes ++ [sizeOfPath world.store path] }) := by
        simp [QuotaDeleter.delete, mode]
      simp only [same, List.append_assoc] at folded
      simpa [first] using folded
    | false =>
      obtain ⟨store, queued, folded, -, -, lazy⟩ := ih world
        ⟨deleter.queued ++ [path], deleter.pendingSizes ++ [sizeOfPath world.store path]⟩ distinct
      obtain ⟨rfl, rfl⟩ := lazy mode
      refine ⟨world.store, path :: queued, ?_, rfl, by simp, fun _ => ⟨rfl, rfl⟩⟩
      have first : deleter.delete accessor world path =
          (world, ⟨deleter.queued ++ [path], deleter.pendingSizes ++ [sizeOfPath world.store path]⟩) := by
        simp [QuotaDeleter.delete, mode]
      simpa [first] using folded

theorem commitDeletes_bytes (id : String) (sizes : List Nat) (counter : QuotaCounter) (fits : counter.bytes ≤ u64Max) :
    (sizes.foldl (fun counter size => (applyDelta (commitDelete id size) counter).1) counter).bytes =
      counter.bytes - sizes.sum := by
  induction sizes generalizing counter with
  | nil => simp
  | cons size rest ih =>
    have step := applyDelta_delete counter id size (by omega)
    simp only [List.foldl_cons, List.sum_cons]
    rw [ih _ (by omega), step]
    omega

theorem perform_delete {accessor : QuotaAccessor} {fate : RenameFate} {world : World} {paths : List Path}
    (below : accessor.limit < u64Max) (accounted : Accounted accessor world) (distinct : paths.Nodup) :
    Performs accessor world (.delete paths) (perform accessor fate world (.delete paths)).1
      (perform accessor fate world (.delete paths)).2 := by
  obtain ⟨store, queued, folded, flushed, -, -⟩ := deleteAll_spec accessor paths world ⟨[], []⟩ distinct
  simp only [perform, deleteAll, folded, QuotaDeleter.close, List.nil_append, flushed]
  have within := accounted.within
  have removed := total_eraseAll paths world.store distinct
  have bytes := commitDeletes_bytes accessor.id (paths.map (sizeOfPath world.store)) world.counter
    (by rw [accounted.counted]; omega)
  refine ⟨⟨?_, ?_⟩, by simp [Overruns], by simp, fun _ _ => rfl, by simp [staging]⟩
  · simp only [bytes, accounted.counted]
    omega
  · simp only
    omega

theorem perform_spec {accessor : QuotaAccessor} {fate : RenameFate} {world : World} {op : Operation}
    (below : accessor.limit < u64Max) (succeeds : fate ≠ .fails) (accounted : Accounted accessor world)
    (admitted : Admitted world op) :
    Performs accessor world op (perform accessor fate world op).1 (perform accessor fate world op).2 := by
  cases op with
  | write path nanos payload closes => exact perform_write below accounted (admitted.1 _ rfl) succeeds
  | copy source dest nanos closes => exact perform_copy below accounted (admitted.1 _ rfl) succeeds
  | delete paths => exact perform_delete below accounted (admitted.2 paths rfl)

/-! ### Histories -/

/-- A sequential history as a machine: every operation runs to its end. -/
def accessorStep (accessor : QuotaAccessor) (fate : RenameFate) (world : World) (op : Operation) : Option World :=
  some (perform accessor fate world op).1

/-- The accounting promise of the layer, over histories of any length: at every
operation the counter is the sum of the stored sizes and within the limit, a write or
copy is refused exactly when it would overrun the limit, and a refused or aborted
operation leaves no trace. -/
theorem quota_accounting_exact (accessor : QuotaAccessor) (fate : RenameFate) (world : World)
    (history : List Operation) (below : accessor.limit < u64Max) (succeeds : fate ≠ .fails)
    (counted : world.counter.bytes = storeBytes world.store) (within : storeBytes world.store ≤ accessor.limit)
    (admitted : Guarded (accessorStep accessor fate) Admitted world history)
    (before : World) (op : Operation) (after : World)
    (occurs : Occurs (accessorStep accessor fate) world history before op after) :
    after.counter.bytes = storeBytes after.store ∧ storeBytes after.store ≤ accessor.limit ∧
    ((∃ error, (perform accessor fate before op).2 = .refused error ∧ error.kind = .rateLimited) ↔
      Overruns accessor.limit before.store op) ∧
    ((perform accessor fate before op).2 ≠ .ok →
      after.counter = before.counter ∧ ∀ path, after.store.lookup path = before.store.lookup path) ∧
    ((perform accessor fate before op).2 = .ok →
      ∀ path, after.store.lookup path = (effect before.store op).lookup path) ∧
    (∀ tmp, staging before op = some tmp → tmp ∉ after.store) := by
  have kept (state : World) (op : Operation) (next : World) (accounted : Accounted accessor state)
      (admitted : Admitted state op) (taken : accessorStep accessor fate state op = some next) : Accounted accessor next := by
    cases taken
    exact (perform_spec below succeeds accounted admitted).accounted
  obtain ⟨accounted, allowed, -⟩ := guarded_occurs kept ⟨counted, within⟩ admitted occurs
  obtain ⟨-, -, -, -, taken⟩ := occurs
  cases taken
  have performs := perform_spec below succeeds accounted allowed
  exact ⟨performs.accounted.counted, performs.accounted.within, performs.refused, performs.unchanged,
    performs.done, performs.unstaged⟩

def smallAccessor : QuotaAccessor := ⟨"tenant", 5, ⟨true, false⟩⟩

def emptyWorld : World := ⟨∅, .new 0, 0⟩

def smallPayload : Payload := ⟨[[1, 2], [3]], by decide⟩

/-- Three bytes fit, three more do not, and an object may be copied onto itself. -/
def smallHistory : List Operation :=
  [.write "a" 7 smallPayload true, .write "b" 8 smallPayload true, .copy "a" "a" 9 true, .delete ["a", "b"]]

theorem small_history_accounted : ∃ before after,
    Occurs (accessorStep smallAccessor .direct) emptyWorld smallHistory before (.write "b" 8 smallPayload true) after ∧
    after.counter.bytes = storeBytes after.store ∧
    ∃ error, (perform smallAccessor .direct before (.write "b" 8 smallPayload true)).2 = .refused error ∧
      error.kind = .rateLimited := by
  have occurs : Occurs (accessorStep smallAccessor .direct) emptyWorld smallHistory
      (perform smallAccessor .direct emptyWorld (.write "a" 7 smallPayload true)).1 (.write "b" 8 smallPayload true) _ :=
    ⟨[.write "a" 7 smallPayload true], [.copy "a" "a" 9 true, .delete ["a", "b"]], rfl, rfl, rfl⟩
  have facts := quota_accounting_exact smallAccessor .direct emptyWorld smallHistory (by decide) (by decide)
    rfl (by decide) (by decide) _ _ _ occurs
  exact ⟨_, _, occurs, facts.1, facts.2.2.1.mpr ⟨rfl, by decide⟩⟩

end Vaulton.Proofs.QuotaAccounting
