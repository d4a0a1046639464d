import Vaulton.Lib.Machine
import Vaulton.MountAccess
import Vaulton.Proofs.Paths

/-! Operations on the mounted file system change no store but those of the mounts their
paths resolve to. A position of an operation carries the mounts that its paths were
resolved to when it was started, so what one step may change is read off the position. -/

namespace Vaulton.Proofs.MountAccess
open Vaulton.Lib Vaulton.Config Vaulton.Paths Vaulton.MountAccess

/-! ### The mount table -/

section Table

variable {μ : Type}

/-- The order a `BTreeMap` keeps its keys in. -/
def Sorted (mounts : Mounts μ) : Prop := (mounts.map Prod.fst).Pairwise (· < ·)

theorem Sorted.unique {mounts : Mounts μ} (sorted : Sorted mounts) {path : Text} {first second : μ}
    (first_mem : (path, first) ∈ mounts) (second_mem : (path, second) ∈ mounts) : first = second := by
  have distinct : (mounts.map Prod.fst).Nodup := sorted.imp fun smaller => ne_of_lt smaller
  have same := List.inj_on_of_nodup_map distinct first_mem second_mem rfl
  exact congrArg Prod.snd same

theorem insertMount_sorted {path : Text} {mount : μ} {mounts result : Mounts μ} (sorted : Sorted mounts)
    (inserted : insertMount path mount mounts = some result) :
    Sorted result ∧ ∀ entry, entry ∈ result ↔ entry = (path, mount) ∨ entry ∈ mounts := by
  induction mounts generalizing result with
  | nil =>
    cases inserted
    exact ⟨List.pairwise_singleton _ _, by simp⟩
  | cons head rest ih =>
    obtain ⟨key, other⟩ := head
    obtain ⟨least, later⟩ := List.pairwise_cons.mp sorted
    rw [insertMount] at inserted
    split_ifs at inserted with taken before
    · cases inserted
      refine ⟨?_, by simp⟩
      refine List.pairwise_cons.mpr ⟨?_, sorted⟩
      intro larger member
      cases member with
      | head => exact before
      | tail _ member => exact lt_trans before (least larger member)
    · obtain ⟨table, found, rfl⟩ := Option.map_eq_some_iff.mp inserted
      obtain ⟨ordered, content⟩ := ih later found
      have after : key < path := lt_of_le_of_ne (not_lt.mp before) (Ne.symm taken)
      refine ⟨List.pairwise_cons.mpr ⟨?_, ordered⟩, ?_⟩
      · intro larger member
        obtain ⟨entry, inside, rfl⟩ := List.mem_map.mp member
        rcases (content entry).mp inside with rfl | old
        · exact after
        · exact least _ (List.mem_map_of_mem old)
      · intro entry
        rw [List.mem_cons, List.mem_cons, content]
        tauto

theorem buildMounts_sorted {pending : List (Text × μ)} {mounts result : Mounts μ} (sorted : Sorted mounts)
    (built : buildMounts pending mounts = .ok result) :
    Sorted result ∧ ∀ entry, entry ∈ result ↔ entry ∈ pending ∨ entry ∈ mounts := by
  induction pending generalizing mounts with
  | nil =>
    cases built
    exact ⟨sorted, by simp⟩
  | cons head rest ih =>
    obtain ⟨path, mount⟩ := head
    rw [buildMounts] at built
    split_ifs at built
    cases inserted : insertMount path mount mounts with
    | none =>
      rw [inserted] at built
      cases built
    | some table =>
      rw [inserted] at built
      obtain ⟨ordered, content⟩ := insertMount_sorted sorted inserted
      obtain ⟨final, members⟩ := ih ordered built
      refine ⟨final, ?_⟩
      intro entry
      rw [members, content, List.mem_cons]
      tauto

theorem maxByKey_mem {α : Type} {key : α → Nat} {items : List α} {item : α} (found : maxByKey key items = some item) :
    item ∈ items := by
  cases items with
  | nil => cases found
  | cons first rest =>
    cases found
    induction rest generalizing first with
    | nil => exact List.mem_cons_self
    | cons second rest ih =>
      rw [List.foldl_cons]
      split
      · exact List.mem_cons_of_mem _ (ih second)
      · rcases List.mem_cons.mp (ih first) with same | member
        · rw [same]
          exact List.mem_cons_self
        · exact List.mem_cons_of_mem _ (List.mem_cons_of_mem _ member)

end Table

variable {σ ω ι : Type} {mounts : Mounts (Mount σ ω)} {operation : Operation}

theorem sorted_nil {μ : Type} : Sorted ([] : Mounts μ) := List.Pairwise.nil

theorem build_sorted {pending : List (PendingMount σ ω)} (built : build pending = .ok mounts) : Sorted mounts :=
  (buildMounts_sorted sorted_nil built).1

theorem mem_build {pending : List (PendingMount σ ω)} (built : build pending = .ok mounts) {entry : Text × Mount σ ω} :
    entry ∈ mounts ↔ ∃ mount ∈ pending, (normalize mount.path, mount.mount) = entry := by
  have content := (buildMounts_sorted sorted_nil built).2 entry
  rw [content, List.mem_map]
  simp

theorem resolve_mem {path : Text} {target : Target σ ω} (resolved : resolve mounts path = some target) :
    (target.path, target.mount) ∈ mounts := by
  obtain ⟨found, located, rfl⟩ := Option.map_eq_some_iff.mp resolved
  obtain ⟨entry, greatest, rfl⟩ := Option.map_eq_some_iff.mp located
  exact List.mem_of_mem_filter (maxByKey_mem greatest)

/-! ### What one step may change -/

/-- The paths whose mounts an operation may change. -/
def Operation.changed : Operation → List Text
  | .stat _ | .read _ | .list _ => []
  | .createDir path | .write path _ => [path]
  | .delete paths => paths
  | .copy _ dest => [dest]
  | .rename source dest => [source, dest]

/-- The paths of an operation. -/
def Operation.paths : Operation → List Text
  | .stat path | .read path | .list path | .createDir path | .write path _ => [path]
  | .delete paths => paths
  | .copy source dest | .rename source dest => [source, dest]

theorem Operation.changed_subset (operation : Operation) : ∀ path ∈ Operation.changed operation, path ∈ Operation.paths operation := by
  cases operation <;> simp [Operation.changed, Operation.paths]

/-- The mount at `key` may be written, and one of the paths lies in it. -/
def MayChange (mounts : Mounts (Mount σ ω)) (operation : Operation) (key : Text) : Prop :=
  ∃ path ∈ Operation.changed operation, ∃ target, resolve mounts path = some target ∧ target.path = key ∧
    target.mount.readOnly = false

def Confined (mounts : Mounts (Mount σ ω)) (operation : Operation) (before after : Stores σ) : Prop :=
  ∀ key, after key ≠ before key → MayChange mounts operation key

/-- Every mount that a position will still write may be changed. -/
def Fits (mounts : Mounts (Mount σ ω)) (operation : Operation) : Pc σ ω → Prop
  | .writing writer _ => MayChange mounts operation writer.target.path
  | .deleting paths => ∀ path ∈ paths, path ∈ Operation.changed operation
  | .copyNative source _ | .renameNative source _ | .renameDelete source => MayChange mounts operation source.path
  | .copyRead _ dest | .copyWrite dest _ => MayChange mounts operation dest.path
  | .renameRead source dest | .renameWrite source dest _ =>
    MayChange mounts operation source.path ∧ MayChange mounts operation dest.path
  | _ => True

/-- What every step leaves behind. -/
def Sound (mounts : Mounts (Mount σ ω)) (operation : Operation) (stores : Stores σ) (next : Stores σ × Pc σ ω) : Prop :=
  Fits mounts operation next.2 ∧ Confined mounts operation stores next.1

theorem Confined.refl (stores : Stores σ) : Confined mounts operation stores stores :=
  fun _ changed => absurd rfl changed

theorem Sound.unchanged {stores : Stores σ} {pc : Pc σ ω} (fits : Fits mounts operation pc) :
    Sound mounts operation stores (stores, pc) :=
  ⟨fits, Confined.refl stores⟩

theorem call_confined {target : Target σ ω} (allowed : MayChange mounts operation target.path) (call : Call) (answer : ω)
    (stores : Stores σ) : Confined mounts operation stores (target.call call answer stores).1 := by
  intro key changed
  by_cases here : key = target.path
  · exact here ▸ allowed
  · exact absurd (Function.update_of_ne here _ _) changed

theorem proceed_sound {α : Type} {stores : Stores σ} {result : Except Error α} {next : α → Pc σ ω}
    (fits : ∀ value, Fits mounts operation (next value)) : Sound mounts operation stores (proceed stores result next) := by
  cases result with
  | ok value => exact Sound.unchanged (fits value)
  | error error => exact Sound.unchanged trivial

theorem Target.proceed_sound {target : Target σ ω} (allowed : MayChange mounts operation target.path) (call : Call)
    (answer : ω) (stores : Stores σ) {next : Pc σ ω} (fits : Fits mounts operation next) :
    Sound mounts operation stores (target.proceed call answer stores next) := by
  have confined := call_confined allowed call answer stores
  unfold Target.proceed
  cases answered : target.call call answer stores with
  | mk after result =>
    rw [answered] at confined
    cases result with
    | ok _ => exact ⟨fits, confined⟩
    | error _ => exact ⟨trivial, confined⟩

theorem mayChange_of_resolve {path : Text} {target : Target σ ω} (listed : path ∈ Operation.changed operation)
    (resolved : resolve mounts path = some target) (writable : ¬target.mount.readOnly = true) :
    MayChange mounts operation target.path :=
  ⟨path, listed, target, resolved, rfl, eq_false_of_ne_true writable⟩

theorem deletePath_confined {path : Text} (listed : path ∈ Operation.changed operation) (answer : ω) (stores : Stores σ) :
    Confined mounts operation stores (deletePath mounts answer stores path).1 := by
  unfold deletePath
  cases resolved : resolve mounts path with
  | none => exact Confined.refl stores
  | some target =>
    dsimp only
    split_ifs with locked
    · exact Confined.refl stores
    · exact call_confined (mayChange_of_resolve listed resolved locked) _ answer stores

theorem startStep_sound (operation : Operation) (stores : Stores σ) (answer : ω) :
    Sound mounts operation stores (startStep mounts stores answer operation) := by
  cases operation with
  | stat path => exact proceed_sound fun _ => trivial
  | list path => exact proceed_sound fun _ => trivial
  | delete paths => exact Sound.unchanged fun _ member => member
  | read path =>
    cases resolved : resolve mounts path <;> simp only [startStep, resolved] <;> exact Sound.unchanged trivial
  | createDir path =>
    cases resolved : resolve mounts path with
    | none =>
      simp only [startStep, resolved]
      exact Sound.unchanged trivial
    | some target =>
      simp only [startStep, resolved]
      split_ifs with locked
      · exact Sound.unchanged trivial
      · exact Target.proceed_sound (mayChange_of_resolve List.mem_cons_self resolved locked) _ answer stores trivial
  | write path calls =>
    cases resolved : resolve mounts path with
    | none =>
      simp only [startStep, resolved]
      exact Sound.unchanged trivial
    | some target =>
      simp only [startStep, resolved]
      split_ifs with locked
      · exact Sound.unchanged trivial
      · exact Sound.unchanged (mayChange_of_resolve List.mem_cons_self resolved locked)
  | copy source dest =>
    cases fetched : resolve mounts source with
    | none =>
      simp only [startStep, fetched]
      exact Sound.unchanged trivial
    | some origin =>
      cases resolved : resolve mounts dest with
      | none =>
        simp only [startStep, fetched, resolved]
        exact Sound.unchanged trivial
      | some target =>
        simp only [startStep, fetched, resolved]
        split_ifs with locked native
        · exact Sound.unchanged trivial
        -- The native copy goes to the operator of the source, which is that of the destination.
        · have allowed : MayChange mounts (.copy source dest) target.path :=
            mayChange_of_resolve List.mem_cons_self resolved locked
          rw [← native.1] at allowed
          exact Sound.unchanged allowed
        · exact Sound.unchanged (mayChange_of_resolve List.mem_cons_self resolved locked)
  | rename source dest =>
    cases fetched : resolve mounts source with
    | none =>
      simp only [startStep, fetched]
      exact Sound.unchanged trivial
    | some origin =>
      cases resolved : resolve mounts dest with
      | none =>
        simp only [startStep, fetched, resolved]
        exact Sound.unchanged trivial
      | some target =>
        simp only [startStep, fetched, resolved]
        split_ifs with locked native
        · exact Sound.unchanged trivial
        all_goals
          obtain ⟨open_origin, open_target⟩ := not_or.mp fun either => locked ((Bool.or_eq_true _ _).mpr either)
          have first : MayChange mounts (.rename source dest) origin.path :=
            mayChange_of_resolve List.mem_cons_self fetched open_origin
          have second : MayChange mounts (.rename source dest) target.path :=
            mayChange_of_resolve (List.mem_cons_of_mem _ List.mem_cons_self) resolved open_target
        · exact Sound.unchanged first
        · exact Sound.unchanged ⟨first, second⟩

theorem operationStep_sound {stores : Stores σ} {answer : ω} {pc : Pc σ ω} {next : Stores σ × Pc σ ω}
    (fits : Fits mounts operation pc) (taken : operationStep mounts operation stores answer pc = some next) :
    Sound mounts operation stores next := by
  cases pc with
  | start =>
    cases taken
    exact startStep_sound operation stores answer
  | readStat target =>
    cases taken
    exact proceed_sound fun _ => trivial
  | readData target =>
    cases taken
    exact proceed_sound fun _ => trivial
  | listing lister =>
    rw [operationStep] at taken
    split at taken <;> cases taken <;> exact Sound.unchanged trivial
  | writing writer calls =>
    cases calls with
    | nil =>
      cases taken
      exact Sound.unchanged trivial
    | cons call rest =>
      have confined : ∀ asked, Confined mounts operation stores (writer.target.call asked answer stores).1 :=
        fun asked => call_confined fits asked answer stores
      rw [operationStep] at taken
      split at taken
      · cases taken
        exact ⟨fits, confined _⟩
      · specialize confined (.openWriter writer.target.rel)
        split at taken
        · rename_i opened
          cases taken
          rw [opened] at confined
          exact ⟨fits, confined⟩
        · rename_i refused
          cases taken
          rw [refused] at confined
          exact ⟨fits, confined⟩
  | deleting paths =>
    cases paths with
    | nil =>
      cases taken
      exact Sound.unchanged trivial
    | cons path rest =>
      cases taken
      exact ⟨fun other member => fits other (List.mem_cons_of_mem _ member),
        deletePath_confined (fits path List.mem_cons_self) answer stores⟩
  | copyNative source dest =>
    cases taken
    exact Target.proceed_sound fits _ answer stores trivial
  | copyRead source dest =>
    cases taken
    exact proceed_sound fun _ => fits
  | copyWrite dest data =>
    cases taken
    exact Target.proceed_sound fits _ answer stores trivial
  | copyStat dest =>
    cases taken
    exact proceed_sound fun _ => trivial
  | renameNative source dest =>
    cases taken
    exact Target.proceed_sound fits _ answer stores trivial
  | renameRead source dest =>
    cases taken
    exact proceed_sound fun _ => fits
  | renameWrite source dest data =>
    cases taken
    exact Target.proceed_sound fits.2 _ answer stores fits.1
  | renameDelete source =>
    cases taken
    exact Target.proceed_sound fits _ answer stores trivial
  | done result => cases taken

/-! ### Runs of any number of operations -/

section Runs

variable [DecidableEq ι] {operations : ι → Operation} {state next : MountState σ ω ι} {event : ι × ω}

/-- Every operation stands where it may. -/
def Positioned (mounts : Mounts (Mount σ ω)) (operations : ι → Operation) (state : MountState σ ω ι) : Prop :=
  ∀ id, Fits mounts (operations id) (state.pcs id)

omit [DecidableEq ι] in
theorem Positioned.start (stores : Stores σ) : Positioned mounts operations (mountStart stores) :=
  fun _ => trivial

theorem mountStep_sound (positioned : Positioned mounts operations state)
    (taken : mountStep mounts operations state event = some next) :
    Positioned mounts operations next ∧ Confined mounts (operations event.1) state.stores next.stores := by
  obtain ⟨result, moved, rfl⟩ := Option.map_eq_some_iff.mp taken
  obtain ⟨fits, confined⟩ := operationStep_sound (positioned event.1) moved
  exact ⟨forall_update (fun id => Fits mounts (operations id)) positioned fits, confined⟩

theorem positioned_run {stores : Stores σ} {events : List (ι × ω)} {final : MountState σ ω ι}
    (executed : run (mountStep mounts operations) (mountStart stores) events = some final) :
    Positioned mounts operations final :=
  run_invariant (Positioned mounts operations) (fun _ _ _ positioned taken => (mountStep_sound positioned taken).1)
    (Positioned.start stores) executed

theorem occurs_confined {stores : Stores σ} {events : List (ι × ω)}
    (occurs : Occurs (mountStep mounts operations) (mountStart stores) events state event next) :
    Confined mounts (operations event.1) state.stores next.stores := by
  obtain ⟨before, after, -, executed, taken⟩ := occurs
  exact (mountStep_sound (positioned_run executed) taken).2

theorem not_mayChange_readOnly (sorted : Sorted mounts) {path : Text} {mount : Mount σ ω} (member : (path, mount) ∈ mounts)
    (locked : mount.readOnly = true) (operation : Operation) : ¬MayChange mounts operation path := by
  intro allowed
  obtain ⟨_, -, target, resolved, same, writable⟩ := allowed
  have here := resolve_mem resolved
  rw [same] at here
  rw [sorted.unique here member, locked] at writable
  cases writable

theorem readOnly_store_kept (sorted : Sorted mounts) {path : Text} {mount : Mount σ ω} (member : (path, mount) ∈ mounts)
    (locked : mount.readOnly = true) {stores : Stores σ} {events : List (ι × ω)} {final : MountState σ ω ι}
    (executed : run (mountStep mounts operations) (mountStart stores) events = some final) :
    final.stores path = stores path := by
  have kept : Positioned mounts operations final ∧ final.stores path = stores path := by
    refine run_invariant (fun state => Positioned mounts operations state ∧ state.stores path = stores path) ?_
      ⟨Positioned.start stores, rfl⟩ executed
    intro state event next holds taken
    obtain ⟨positioned, confined⟩ := mountStep_sound holds.1 taken
    refine ⟨positioned, ?_⟩
    by_contra changed
    rw [← holds.2] at changed
    exact not_mayChange_readOnly sorted member locked _ (confined path changed)
  exact kept.2

end Runs

/-- Whatever operations run, in any order of their steps: a step changes at most the stores
of the mounts that the paths of its operation resolve to, a copy between two mounts leaves
the store it reads from, and the store of a read-only mount stays as it was. -/
theorem operations_stay_in_their_mounts [DecidableEq ι] (pending : List (PendingMount σ ω))
    (mounts : Mounts (Mount σ ω)) (built : build pending = .ok mounts) (operations : ι → Operation) (stores : Stores σ)
    (events : List (ι × ω)) (final : MountState σ ω ι)
    (executed : run (mountStep mounts operations) (mountStart stores) events = some final) :
    (∀ state event next, Occurs (mountStep mounts operations) (mountStart stores) events state event next →
      ∀ key, next.stores key ≠ state.stores key →
        ∃ path ∈ Operation.paths (operations event.1), ∃ target, resolve mounts path = some target ∧ target.path = key) ∧
    (∀ state event next, Occurs (mountStep mounts operations) (mountStart stores) events state event next →
      ∀ source dest, operations event.1 = .copy source dest →
        ∀ origin target, resolve mounts source = some origin → resolve mounts dest = some target →
          origin.path ≠ target.path → next.stores origin.path = state.stores origin.path) ∧
    ∀ mount ∈ pending, mount.readOnly = true → final.stores (normalize mount.path) = stores (normalize mount.path) := by
  refine ⟨?_, ?_, ?_⟩
  · intro state event next occurs key changed
    obtain ⟨path, listed, target, resolved, same, -⟩ := occurs_confined occurs key changed
    exact ⟨path, Operation.changed_subset _ path listed, target, resolved, same⟩
  · intro state event next occurs source dest copies origin target fetched resolved different
    by_contra changed
    obtain ⟨path, listed, found, located, same, -⟩ := occurs_confined occurs origin.path changed
    rw [copies, Operation.changed, List.mem_singleton] at listed
    rw [listed, resolved] at located
    cases located
    exact different same.symm
  · intro mount member locked
    have inside := (mem_build built).mpr ⟨mount, member, rfl⟩
    exact readOnly_store_kept (build_sorted built) inside locked executed

/-- A backend whose store is the list of the calls it has got. -/
def journal : Operator (List Call) Unit where
  nativeCopy := true
  nativeRename := false
  change := fun call _ store => (store ++ [call], .ok ())
  stat := fun _ _ _ => .ok dirMetadata
  read := fun _ _ _ => .ok []
  list := fun _ _ _ => .ok []

/-- A read-only mount inside a mount that may be written. -/
def nestedMounts : List (PendingMount (List Call) Unit) :=
  [⟨"/points/docs".toList, journal, false⟩, ⟨"/points/docs/archive".toList, journal, true⟩]

def fetchThenClear : Bool → Operation
  | false => .copy "/points/docs/archive/a".toList "/points/docs/b".toList
  | true => .delete ["/points/docs/archive/a".toList, "/points/docs/b".toList]

/-- The copy out of the inner mount reaches the outer one only, and the deletion in the
inner mount is refused. -/
theorem archive_keeps_its_files : ∃ mounts, build nestedMounts = .ok mounts ∧ ∃ final,
    run (mountStep mounts fetchThenClear) (mountStart fun _ => [])
      [(false, ()), (true, ()), (true, ()), (false, ()), (false, ()), (true, ())] = some final ∧
    final.stores "/points/docs".toList = [.write "b".toList [], .delete "b".toList] ∧
    final.stores (normalize "/points/docs/archive".toList) = [] := by
  refine ⟨_, rfl, _, rfl, by decide, ?_⟩
  have kept := operations_stay_in_their_mounts nestedMounts _ rfl fetchThenClear (fun _ => [])
    [(false, ()), (true, ()), (true, ()), (false, ()), (false, ()), (true, ())] _ rfl
  exact kept.2.2 ⟨"/points/docs/archive".toList, journal, true⟩ (List.mem_cons_of_mem _ List.mem_cons_self) rfl

end Vaulton.Proofs.MountAccess
