import Vaulton.Lib.Machine
import Vaulton.ReadHandles

/-! When a read answers with the file. A handle remembers the length the file had when it
was opened; a read is right as long as the lengths around fit the file, nobody expires the
handle it holds, and nobody else moves the cursor it reads from. -/

namespace Vaulton.Proofs.ReadHandles
open Vaulton.Config Vaulton.Lib Vaulton.ReadHandles

/-- The answer a read is meant to give for these contents. -/
def readFile (args : ReadArgs) (contents : List UInt8) : Except Status (List UInt8) :=
  if args.length > MAX_READ then .error lengthExceeded
  else (readRange args contents.length).map fun range => readBytes contents range.1 range.2

/-- Every read through a handle of this length answers as the file does. -/
def Fits (contents : List UInt8) (len : Nat) : Prop :=
  contents.length ≤ len ∧ (MAX_READ < len → len = contents.length)

theorem Fits.refl (contents : List UInt8) : Fits contents contents.length := ⟨le_rfl, fun _ => rfl⟩

section Answers

variable {args : ReadArgs} {contents : List UInt8} {len offset length : Nat}

theorem readFile_not_notFound {status : Status} (answer : readFile args contents = .error status) :
    status.code ≠ .notFound := by
  unfold readFile readRange at answer
  split at answer
  · cases answer
    simp [lengthExceeded]
  split at answer
  · split at answer <;> cases answer
    simp [fileTooLarge]
  · cases answer

theorem Fits.error {status : Status} (fits : Fits contents len)
    (range : readRange args len = .error status) : readFile args contents = .error status := by
  unfold readRange at range
  split at range
  next whole =>
    split at range <;> cases range
    next large =>
      have same := fits.2 large
      simp [readFile, readRange, whole, ← same, large, Except.map]
  next => cases range

theorem Fits.ok (fits : Fits contents len) (short : args.length ≤ MAX_READ)
    (range : readRange args len = .ok (offset, length)) :
    readFile args contents = .ok (readBytes contents offset length) := by
  have allowed : ¬args.length > MAX_READ := by omega
  unfold readRange at range
  split at range
  next whole =>
    split at range <;> cases range
    next small =>
      have fitting : ¬contents.length > MAX_READ := by have := fits.1; omega
      simp only [readFile, if_neg allowed, readRange, if_pos whole, if_neg fitting, Except.map, readBytes, List.drop_zero]
      rw [List.take_of_length_le le_rfl, List.take_of_length_le fits.1]
  next part =>
    cases range
    simp [readFile, allowed, readRange, part, Except.map]

theorem Fits.empty (fits : Fits contents len) (outside : offset ≥ len ∨ length = 0) : readBytes contents offset length = [] := by
  rcases outside with behind | nothing
  · have past : contents.length ≤ offset := fits.1.trans behind
    simp [readBytes, List.drop_of_length_le past]
  · simp [readBytes, nothing]

theorem Fits.clip (fits : Fits contents len) :
    readBytes contents offset (min length (len - offset)) = readBytes contents offset length := by
  have rest : (contents.drop offset).length ≤ len - offset := by
    have := fits.1
    simp only [List.length_drop]
    omega
  unfold readBytes
  rw [← List.take_take, List.take_of_length_le rest]

/-- A read of the descriptor takes the front of what the cursor is still going to read. -/
theorem readBytes_split (contents : List UInt8) (cursor size rest : Nat) :
    let bytes := readBytes contents cursor (min size rest)
    bytes ++ readBytes contents (cursor + bytes.length) (rest - bytes.length) = readBytes contents cursor rest := by
  dsimp only [readBytes]
  rw [← List.drop_drop]
  generalize contents.drop cursor = left
  rw [List.length_take]
  by_cases short : left.length ≤ min size rest
  · have whole : min (min size rest) left.length = left.length := by omega
    have all : left.length ≤ rest := by omega
    rw [whole, List.drop_of_length_le le_rfl, List.take_nil, List.append_nil, List.take_of_length_le short,
      List.take_of_length_le all]
  · have cut : min (min size rest) left.length = min size rest := by omega
    rw [cut, ← List.take_add]
    congr 1
    omega

theorem readBytes_end {cursor size rest : Nat} (nothing : readBytes contents cursor (min (size + 1) rest) = []) :
    readBytes contents cursor rest = [] := by
  unfold readBytes at nothing ⊢
  rcases List.take_eq_nil_iff.mp nothing with none | past
  · have finished : rest = 0 := by omega
    simp [finished]
  · simp [past]

end Answers

variable {ρ ω : Type} {state next : ReadsState ρ ω}

/-- The handle whose flag a read is going to test. -/
def heldBy : ReadPc ρ → Option (ReadHandle ρ)
  | .firstCheck handle | .lastCheck handle _ _ => some handle
  | .start | .lookup | .liveCheck _ | .removeKey | .metadata | .insert _ | .seek _ _ _ | .read _ _ _ | .returned _ => none

/-- The length a read works with. -/
def lengthOf : ReadPc ρ → Option Nat
  | .liveCheck handle | .firstCheck handle | .lastCheck handle _ _ => some handle.len
  | .insert len => some len
  | .start | .lookup | .removeKey | .metadata | .seek _ _ _ | .read _ _ _ | .returned _ => none

/-- The handle whose cursor a read has set and reads from. -/
def usedBy : ReadPc ρ → Option ρ
  | .read id _ _ => some id
  | .start | .lookup | .liveCheck _ | .removeKey | .metadata | .insert _ | .firstCheck _ | .lastCheck _ _ _ | .seek _ _ _
  | .returned _ => none

/-- What a read behind its last check is going to return if nothing changes. -/
def outcome (cursors : ρ → Nat) (contents : List UInt8) : ReadPc ρ → Option (List UInt8)
  | .seek _ offset length => some (readBytes contents offset length)
  | .read id rest out => some (out ++ readBytes contents (cursors id) rest)
  | .start | .lookup | .liveCheck _ | .removeKey | .metadata | .insert _ | .firstCheck _ | .lastCheck _ _ _ | .returned _ => none

/-- A read behind its last check does not notice the new contents, or returns what was
requested of them. -/
def Bears (args : ReadArgs) (cursors : ρ → Nat) (contents changed : List UInt8) (pc : ReadPc ρ) : Prop :=
  ∀ bytes ∈ outcome cursors changed pc, bytes ∈ outcome cursors contents pc ∨ readFile args changed = .ok bytes

/-- No read holds the handle. -/
def Unheld (state : ReadsState ρ ω) (id : ρ) : Prop :=
  ∀ request, ∀ handle ∈ heldBy (state.reads request), handle.id ≠ id

/-- Nobody keeps a length that the changed file has outgrown. -/
structure Noticed (reads : ρ → ReadArgs) (state : ReadsState ρ ω) (changed : List UInt8) : Prop where
  cached : ∀ handle ∈ state.cached, Fits changed handle.len
  lengths : ∀ request, ∀ len ∈ lengthOf (state.reads request), Fits changed len
  bytes : ∀ request, Bears (reads request) state.cursors state.contents changed (state.reads request)

/-- No read is between its seek and its end with this cursor. -/
def Unused (state : ReadsState ρ ω) (id : ρ) : Prop := ∀ request, usedBy (state.reads request) ≠ some id

/-- The step takes nothing away from a read in flight and leaves no outdated length. -/
def Considerate (reads : ρ → ReadArgs) (writes : ω → WriteArgs) (state : ReadsState ρ ω) : ReadsEvent ρ ω → Prop
  | .read request _ =>
    match state.reads request with
    | .seek id _ _ => Unused state id
    | _ => True
  | .write request fails =>
    match state.writes request with
    | .expire id => Unheld state id
    | .change => fails = true ∨ Noticed reads state ((writes request).change state.contents)
    | .invalidate | .returned => True
  | .reaper _ =>
    match state.reaper with
    | .expire id => Unheld state id
    | .tick | .remove => True

section Decidable

instance (contents : List UInt8) (len : Nat) : Decidable (Fits contents len) := inferInstanceAs (Decidable (_ ∧ _))

instance (args : ReadArgs) (cursors : ρ → Nat) (contents changed : List UInt8) (pc : ReadPc ρ) :
    Decidable (Bears args cursors contents changed pc) :=
  inferInstanceAs (Decidable (∀ _ ∈ _, _))

variable [Fintype ρ]

instance [DecidableEq ρ] (state : ReadsState ρ ω) (id : ρ) : Decidable (Unheld state id) :=
  inferInstanceAs (Decidable (∀ _, _))

instance [DecidableEq ρ] (state : ReadsState ρ ω) (id : ρ) : Decidable (Unused state id) := inferInstanceAs (Decidable (∀ _, _))

instance (reads : ρ → ReadArgs) (state : ReadsState ρ ω) (changed : List UInt8) : Decidable (Noticed reads state changed) :=
  decidable_of_iff ((∀ handle ∈ state.cached, Fits changed handle.len) ∧
      (∀ request, ∀ len ∈ lengthOf (state.reads request), Fits changed len) ∧
      ∀ request, Bears (reads request) state.cursors state.contents changed (state.reads request))
    ⟨fun ⟨cached, lengths, bytes⟩ => ⟨cached, lengths, bytes⟩, fun noticed => ⟨noticed.cached, noticed.lengths, noticed.bytes⟩⟩

instance [DecidableEq ρ] (reads : ρ → ReadArgs) (writes : ω → WriteArgs) (state : ReadsState ρ ω) :
    (event : ReadsEvent ρ ω) → Decidable (Considerate reads writes state event)
  | .read request _ =>
    match at_pc : state.reads request with
    | .seek id _ _ => decidable_of_iff (Unused state id) (by simp [Considerate, at_pc])
    | .start | .lookup | .liveCheck _ | .removeKey | .metadata | .insert _ | .firstCheck _ | .lastCheck _ _ _ | .read _ _ _
    | .returned _ => .isTrue (by simp [Considerate, at_pc])
  | .write request fails =>
    match at_pc : state.writes request with
    | .expire id => decidable_of_iff (Unheld state id) (by simp [Considerate, at_pc])
    | .change => decidable_of_iff (fails = true ∨ Noticed reads state ((writes request).change state.contents))
        (by simp [Considerate, at_pc])
    | .invalidate | .returned => .isTrue (by simp [Considerate, at_pc])
  | .reaper _ =>
    match at_pc : state.reaper with
    | .expire id => decidable_of_iff (Unheld state id) (by simp [Considerate, at_pc])
    | .tick | .remove => .isTrue (by simp [Considerate, at_pc])

end Decidable

/-! ### The invariant -/

/-- What a read has established before it gets here. -/
def Established (args : ReadArgs) : ReadPc ρ → Prop
  | .start | .returned _ => True
  | .lastCheck handle offset length => args.length ≤ MAX_READ ∧ readRange args handle.len = .ok (offset, length)
  | .lookup | .liveCheck _ | .removeKey | .metadata | .insert _ | .firstCheck _ | .seek _ _ _ | .read _ _ _ =>
    args.length ≤ MAX_READ

/-- Every length around fits the file, every handle that a read holds is live, and every
cursor has one reader. -/
structure Fitting (reads : ρ → ReadArgs) (state : ReadsState ρ ω) : Prop where
  cached : ∀ handle ∈ state.cached, Fits state.contents handle.len
  lengths : ∀ request, ∀ len ∈ lengthOf (state.reads request), Fits state.contents len
  live : ∀ request, ∀ handle ∈ heldBy (state.reads request), state.expired handle.id = false
  established : ∀ request, Established (reads request) (state.reads request)
  alone : ∀ first second id, usedBy (state.reads first) = some id → usedBy (state.reads second) = some id → first = second

theorem Fitting.initial (reads : ρ → ReadArgs) (contents : List UInt8) :
    Fitting reads (readsStart contents : ReadsState ρ ω) := by
  constructor <;> simp [readsStart, lengthOf, heldBy, Established, usedBy]

variable {reads : ρ → ReadArgs} {writes : ω → WriteArgs} {request : ρ} {size : Nat}

theorem Fitting.frame (fitting : Fitting reads state) (contents : next.contents = state.contents)
    (unmoved : next.reads = state.reads) (cached : ∀ handle ∈ next.cached, handle ∈ state.cached)
    (live : ∀ request, ∀ handle ∈ heldBy (state.reads request), next.expired handle.id = false) : Fitting reads next := by
  refine ⟨?_, ?_, ?_, ?_, ?_⟩
  · intro handle member
    rw [contents]
    exact fitting.cached handle (cached handle member)
  all_goals
    simp only [unmoved, contents]
  · exact fitting.lengths
  · exact live
  · exact fitting.established
  · exact fitting.alone

variable [DecidableEq ρ]

theorem Fitting.moveRead {pc : ReadPc ρ} (fitting : Fitting reads state)
    (lengths : ∀ len ∈ lengthOf pc, Fits state.contents len)
    (live : ∀ handle ∈ heldBy pc, state.expired handle.id = false)
    (established : Established (reads request) pc)
    (alone : ∀ id, usedBy pc = some id → ∀ other, usedBy (state.reads other) = some id → other = request := by simp [usedBy]) :
    Fitting reads (state.moveRead request pc) := by
  refine ⟨fitting.cached, ?_, ?_, ?_, ?_⟩
  · exact forall_update (fun _ pc => ∀ len ∈ lengthOf pc, Fits state.contents len) fitting.lengths lengths
  · exact forall_update (fun _ pc => ∀ handle ∈ heldBy pc, state.expired handle.id = false) fitting.live live
  · exact forall_update (fun other pc => Established (reads other) pc) fitting.established established
  · intro first second id one other
    rcases of_update (fun pc => usedBy pc = some id) one with ⟨rfl, uses⟩ | ⟨-, uses⟩
    · rcases of_update (fun pc => usedBy pc = some id) other with ⟨rfl, -⟩ | ⟨-, before⟩
      · rfl
      · exact (alone id uses second before).symm
    · rcases of_update (fun pc => usedBy pc = some id) other with ⟨rfl, here⟩ | ⟨-, before⟩
      · exact alone id here first uses
      · exact fitting.alone first second id uses before

omit [DecidableEq ρ] in
/-- Only the reads behind their seek look at the cursors. -/
theorem Fitting.withCursors (fitting : Fitting reads state) (cursors : ρ → Nat) : Fitting reads { state with cursors } :=
  ⟨fitting.cached, fitting.lengths, fitting.live, fitting.established, fitting.alone⟩

private theorem Fitting.insert {len : Nat} (fitting : Fitting reads state) (at_pc : state.reads request = .insert len)
    (taken : readStep (reads request) state request size (.insert len) = some next) : Fitting reads next := by
  have fits : Fits state.contents len := fitting.lengths request len (by simp [at_pc, lengthOf])
  have short : (reads request).length ≤ MAX_READ := by simpa [at_pc, Established] using fitting.established request
  have unexpired (id : ρ) (before : state.expired id = false) : Function.update state.expired request false id = false := by
    by_cases same : id = request
    · rw [same, Function.update_self]
    · rw [Function.update_of_ne same]
      exact before
  have renewed : Fitting reads { state with
      cached := some ⟨request, len⟩, expired := Function.update state.expired request false } := by
    refine ⟨?_, fitting.lengths, ?_, fitting.established, fitting.alone⟩
    · intro handle member
      cases member
      exact fits
    · intro other handle held
      exact unexpired handle.id (fitting.live other handle held)
  simp only [readStep, Option.some.injEq] at taken
  subst next
  apply renewed.moveRead
  · intro kept member
    split at member
    next existing found =>
      split at member <;> cases member
      · exact fits
      · exact fitting.cached existing found
    next =>
      cases member
      exact fits
  · intro kept member
    split at member
    next existing found =>
      split at member <;> cases member
      · exact Function.update_self ..
      next alive => exact unexpired _ (by simpa using alive)
    next =>
      cases member
      exact Function.update_self ..
  · exact short

private theorem Fitting.lookup (fitting : Fitting reads state) (at_pc : state.reads request = .lookup)
    (taken : readStep (reads request) state request size (state.reads request) = some next) : Fitting reads next := by
  have established := fitting.established request
  rw [at_pc] at taken established
  simp only [readStep] at taken
  split at taken <;> cases taken
  next handle found =>
    refine fitting.moveRead ?_ (by simp [heldBy]) established
    intro len member
    cases member
    exact fitting.cached handle found
  next => exact fitting.moveRead (by simp [lengthOf]) (by simp [heldBy]) established

private theorem Fitting.first_check {handle : ReadHandle ρ} (fitting : Fitting reads state)
    (at_pc : state.reads request = .firstCheck handle)
    (taken : readStep (reads request) state request size (state.reads request) = some next) : Fitting reads next := by
  have lengths := fitting.lengths request
  have live := fitting.live request
  have established := fitting.established request
  rw [at_pc] at taken lengths live established
  simp only [readStep] at taken
  split at taken
  · cases taken
    exact fitting.moveRead (by simp [lengthOf]) (by simp [heldBy]) trivial
  split at taken <;> cases taken
  next => exact fitting.moveRead (by simp [lengthOf]) (by simp [heldBy]) trivial
  next range => exact fitting.moveRead lengths live ⟨established, range⟩

private theorem Fitting.last_check {handle : ReadHandle ρ} {offset length : Nat} (fitting : Fitting reads state)
    (at_pc : state.reads request = .lastCheck handle offset length)
    (taken : readStep (reads request) state request size (state.reads request) = some next) : Fitting reads next := by
  have established := fitting.established request
  rw [at_pc] at taken established
  simp only [readStep] at taken
  split at taken
  · cases taken
    exact fitting.moveRead (by simp [lengthOf]) (by simp [heldBy]) trivial
  split at taken <;> cases taken
  · exact fitting.moveRead (by simp [lengthOf]) (by simp [heldBy]) trivial
  · exact fitting.moveRead (by simp [lengthOf]) (by simp [heldBy]) established.1

private theorem Fitting.read_on {id : ρ} {rest : Nat} {out : List UInt8} (fitting : Fitting reads state)
    (at_pc : state.reads request = .read id rest out)
    (taken : readStep (reads request) state request size (state.reads request) = some next) : Fitting reads next := by
  have established := fitting.established request
  rw [at_pc] at taken established
  simp only [readStep] at taken
  split at taken <;> cases taken
  · exact fitting.moveRead (by simp [lengthOf]) (by simp [heldBy]) trivial
  · apply Fitting.withCursors
    refine fitting.moveRead (by simp [lengthOf]) (by simp [heldBy]) established ?_
    intro used same other uses
    exact fitting.alone other request used uses (by rw [at_pc]; exact same)

private theorem Fitting.read_step (fitting : Fitting reads state)
    (considerate : Considerate reads writes state (.read request size))
    (taken : readStep (reads request) state request size (state.reads request) = some next) : Fitting reads next := by
  have lengths := fitting.lengths request
  have established := fitting.established request
  cases at_pc : state.reads request with
  | start =>
    rw [at_pc] at taken
    simp only [readStep] at taken
    split at taken <;> cases taken
    · exact fitting.moveRead (by simp [lengthOf]) (by simp [heldBy]) trivial
    next short => exact fitting.moveRead (by simp [lengthOf]) (by simp [heldBy]) (by simpa [Established] using short)
  | lookup => exact fitting.lookup at_pc taken
  | liveCheck handle =>
    rw [at_pc] at taken lengths established
    simp only [readStep] at taken
    split at taken <;> cases taken
    · exact fitting.moveRead (by simp [lengthOf]) (by simp [heldBy]) established
    next alive =>
      refine fitting.moveRead lengths ?_ established
      intro held member
      cases member
      simpa using alive
  | removeKey =>
    rw [at_pc] at taken established
    cases taken
    have removed : Fitting reads { state with cached := none } :=
      fitting.frame rfl rfl (by simp) fitting.live
    exact removed.moveRead (by simp [lengthOf]) (by simp [heldBy]) established
  | metadata =>
    rw [at_pc] at taken established
    cases taken
    refine fitting.moveRead ?_ (by simp [heldBy]) established
    intro len member
    cases member
    exact Fits.refl _
  | insert len =>
    rw [at_pc] at taken
    exact fitting.insert at_pc taken
  | firstCheck handle => exact fitting.first_check at_pc taken
  | lastCheck handle offset length => exact fitting.last_check at_pc taken
  | seek id offset length =>
    rw [at_pc] at taken established
    simp only [Considerate, at_pc] at considerate
    cases taken
    apply Fitting.withCursors
    refine fitting.moveRead (by simp [lengthOf]) (by simp [heldBy]) established ?_
    intro used same other uses
    cases same
    exact absurd uses (considerate other)
  | read id rest out => exact fitting.read_on at_pc taken
  | returned answer => simp [at_pc, readStep] at taken

private theorem Fitting.expire {id : ρ} (fitting : Fitting reads state) (unheld : Unheld state id) :
    Fitting reads { state with expired := Function.update state.expired id true } := by
  refine fitting.frame rfl rfl (fun _ member => member) ?_
  intro request handle held
  have same : Function.update state.expired id true handle.id = state.expired handle.id :=
    Function.update_of_ne (unheld request handle held) ..
  exact same.trans (fitting.live request handle held)

theorem readStep_contents {args : ReadArgs} {pc : ReadPc ρ} (taken : readStep args state request size pc = some next) :
    next.contents = state.contents := by
  cases pc <;> simp only [readStep] at taken
  all_goals repeat' split at taken
  all_goals cases taken <;> rfl

variable [DecidableEq ω]

private theorem Fitting.step_elsewhere {event : ReadsEvent ρ ω} (fitting : Fitting reads state)
    (considerate : Considerate reads writes state event) (elsewhere : ∀ request size, event ≠ .read request size)
    (taken : readsStep reads writes state event = some next) : Fitting reads next := by
  have kept : ∀ handle ∈ (none : Option (ReadHandle ρ)), handle ∈ state.cached := by simp
  cases event with
  | read request size => exact absurd rfl (elsewhere request size)
  | write id fails =>
    simp only [Considerate] at considerate
    cases at_pc : state.writes id with
    | invalidate =>
      simp only [readsStep, at_pc, writeStep] at taken
      split at taken <;> cases taken
      · exact fitting.frame rfl rfl kept fitting.live
      · exact fitting.frame rfl rfl (fun _ member => member) fitting.live
    | expire handle =>
      simp only [readsStep, at_pc, writeStep] at taken considerate
      cases taken
      have expired := fitting.expire considerate
      exact expired.frame rfl rfl (fun _ member => member) expired.live
    | change =>
      simp only [readsStep, at_pc, writeStep] at taken considerate
      split at taken <;> cases taken
      · exact fitting.frame rfl rfl (fun _ member => member) fitting.live
      next succeeds =>
        have noticed := considerate.resolve_left succeeds
        exact ⟨noticed.cached, noticed.lengths, fitting.live, fitting.established, fitting.alone⟩
    | returned => simp [readsStep, at_pc, writeStep] at taken
  | reaper idle =>
    simp only [Considerate] at considerate
    cases at_pc : state.reaper with
    | tick =>
      simp only [readsStep, at_pc, reaperStep] at taken
      split at taken <;> cases taken
      · exact fitting.frame rfl rfl (fun _ member => member) fitting.live
      · exact fitting
    | remove =>
      simp only [readsStep, at_pc, reaperStep] at taken
      split at taken <;> cases taken
      · exact fitting.frame rfl rfl kept fitting.live
      · exact fitting.frame rfl rfl (fun _ member => member) fitting.live
    | expire handle =>
      simp only [readsStep, at_pc, reaperStep] at taken considerate
      cases taken
      have expired := fitting.expire considerate
      exact expired.frame rfl rfl (fun _ member => member) expired.live

theorem Fitting.step {event : ReadsEvent ρ ω} (fitting : Fitting reads state)
    (considerate : Considerate reads writes state event)
    (taken : readsStep reads writes state event = some next) : Fitting reads next := by
  cases event with
  | read request size => exact fitting.read_step considerate taken
  | write id fails => exact fitting.step_elsewhere considerate (by simp) taken
  | reaper idle => exact fitting.step_elsewhere considerate (by simp) taken

/-! ### Answers -/

theorem readsStep_contents {event : ReadsEvent ρ ω} (taken : readsStep reads writes state event = some next) :
    next.contents = state.contents ∨ ∃ id, event = .write id false ∧ state.writes id = .change ∧
      next.contents = (writes id).change state.contents := by
  cases event with
  | read other size => exact .inl (readStep_contents taken)
  | write id fails =>
    cases at_pc : state.writes id <;> simp only [readsStep, at_pc, writeStep] at taken
    case change =>
      cases fails <;> cases taken
      · exact .inr ⟨id, rfl, at_pc, rfl⟩
      · exact .inl rfl
    all_goals repeat' split at taken
    all_goals cases taken <;> exact .inl rfl
  | reaper idle =>
    cases at_pc : state.reaper <;> simp only [readsStep, at_pc, reaperStep] at taken
    all_goals repeat' split at taken
    all_goals
      cases taken
      exact .inl rfl

theorem run_reads_contents {events : List (ReadsEvent ρ ω)} (reading : ∀ event ∈ events, ∃ request size, event = .read request size)
    (executed : run (readsStep reads writes) state events = some next) : next.contents = state.contents := by
  have kept (middle : ReadsState ρ ω) (event : ReadsEvent ρ ω) (last : ReadsState ρ ω) (same : middle.contents = state.contents)
      (own : ∃ request size, event = .read request size) (taken : readsStep reads writes middle event = some last) :
      last.contents = state.contents := by
    obtain ⟨request, size, rfl⟩ := own
    exact (readStep_contents taken).trans same
  exact guarded_invariant kept rfl (guarded_of_forall fun event member _ => reading event member) executed

theorem readsStep_reads {event : ReadsEvent ρ ω} (apart : ∀ size, event ≠ .read request size)
    (taken : readsStep reads writes state event = some next) : next.reads request = state.reads request := by
  cases event with
  | read other size =>
    have different : request ≠ other := fun same => apart size (same ▸ rfl)
    have elsewhere (pc : ReadPc ρ) : Function.update state.reads other pc request = state.reads request :=
      Function.update_of_ne different ..
    cases at_pc : state.reads other <;> simp only [readsStep, at_pc, readStep] at taken
    all_goals repeat' split at taken
    all_goals cases taken <;> exact elsewhere _
  | write id fails =>
    cases at_pc : state.writes id <;> simp only [readsStep, at_pc, writeStep] at taken
    all_goals repeat' split at taken
    all_goals cases taken <;> rfl
  | reaper idle =>
    cases at_pc : state.reaper <;> simp only [readsStep, at_pc, reaperStep] at taken
    all_goals repeat' split at taken
    all_goals
      cases taken
      rfl

/-- Nobody else moves the cursor of a read between its seek and its end. -/
theorem Fitting.cursor_kept {event : ReadsEvent ρ ω} {id : ρ} (fitting : Fitting reads state)
    (considerate : Considerate reads writes state event) (uses : usedBy (state.reads request) = some id)
    (apart : ∀ size, event ≠ .read request size) (taken : readsStep reads writes state event = some next) :
    next.cursors id = state.cursors id := by
  cases event with
  | read other size =>
    have different : other ≠ request := fun same => apart size (same ▸ rfl)
    cases at_pc : state.reads other with
    | seek used offset length =>
      simp only [Considerate, at_pc] at considerate
      simp only [readsStep, at_pc, readStep] at taken
      cases taken
      apply Function.update_of_ne
      rintro rfl
      exact considerate request uses
    | read used rest out =>
      simp only [readsStep, at_pc, readStep] at taken
      split at taken <;> cases taken
      · rfl
      · apply Function.update_of_ne
        rintro rfl
        exact different (fitting.alone other request id (by rw [at_pc]; rfl) uses)
    | start | lookup | liveCheck handle | removeKey | metadata | insert len | firstCheck handle | lastCheck handle offset length
    | returned answer =>
      simp only [readsStep, at_pc, readStep] at taken
      repeat' split at taken
      all_goals cases taken <;> rfl
  | write other fails =>
    cases at_pc : state.writes other <;> simp only [readsStep, at_pc, writeStep] at taken
    all_goals repeat' split at taken
    all_goals cases taken <;> rfl
  | reaper idle =>
    cases at_pc : state.reaper <;> simp only [readsStep, at_pc, reaperStep] at taken
    all_goals repeat' split at taken
    all_goals
      cases taken
      rfl

/-- The events of a read begin with its own first step. Its answer is the one for the
contents at an instant from which it still had a step to take. -/
def Answered (reads : ρ → ReadArgs) (writes : ω → WriteArgs) (before : ReadsState ρ ω) (events : List (ReadsEvent ρ ω))
    (request : ρ) (answer : Except Status (List UInt8)) : Prop :=
  ∃ front back middle size, events = front ++ back ∧ .read request size ∈ back ∧
    run (readsStep reads writes) before front = some middle ∧ answer = readFile (reads request) middle.contents

/-- The read is going to return these bytes, which were requested at an earlier instant. -/
def Reading (reads : ρ → ReadArgs) (writes : ω → WriteArgs) (before : ReadsState ρ ω) (events : List (ReadsEvent ρ ω))
    (request : ρ) (bytes : List UInt8) : Prop :=
  ∃ middle, Visits (readsStep reads writes) before events middle ∧ readFile (reads request) middle.contents = .ok bytes

variable {before : ReadsState ρ ω} {events : List (ReadsEvent ρ ω)} {last : ReadsEvent ρ ω}

theorem Answered.concat {answer : Except Status (List UInt8)} (answered : Answered reads writes before events request answer) :
    Answered reads writes before (events ++ [last]) request answer := by
  obtain ⟨front, back, middle, size, rfl, own, executed, same⟩ := answered
  exact ⟨front, back ++ [last], middle, size, by simp, by simp [own], executed, same⟩

theorem Answered.now (executed : run (readsStep reads writes) before events = some state) :
    Answered reads writes before (events ++ [.read request size]) request (readFile (reads request) state.contents) :=
  ⟨events, [.read request size], state, size, rfl, by simp, executed, rfl⟩

theorem Reading.answered {bytes : List UInt8} (reading : Reading reads writes before events request bytes) :
    Answered reads writes before (events ++ [.read request size]) request (.ok bytes) := by
  obtain ⟨middle, ⟨front, back, rfl, executed⟩, same⟩ := reading
  exact ⟨front, back ++ [.read request size], middle, size, by simp, by simp, executed, same.symm⟩

theorem Reading.now {bytes : List UInt8} (executed : run (readsStep reads writes) before events = some state)
    (same : readFile (reads request) state.contents = .ok bytes) :
    Reading reads writes before (events ++ [last]) request bytes :=
  ⟨state, Visits.last executed, same⟩

theorem Reading.concat {bytes : List UInt8} (reading : Reading reads writes before events request bytes) :
    Reading reads writes before (events ++ [last]) request bytes := by
  obtain ⟨middle, visits, same⟩ := reading
  exact ⟨middle, visits.concat, same⟩

/-- What is known of one read since it started. -/
structure Progress (reads : ρ → ReadArgs) (writes : ω → WriteArgs) (before : ReadsState ρ ω) (events : List (ReadsEvent ρ ω))
    (request : ρ) (state : ReadsState ρ ω) : Prop where
  reading : ∀ bytes ∈ outcome state.cursors state.contents (state.reads request),
    Reading reads writes before events request bytes
  answered : ∀ answer, state.reads request = .returned answer → Answered reads writes before events request answer

/-- The read moves on and is not behind its last check. -/
private theorem Progress.moves {pc : ReadPc ρ} (quiet : ∀ cursors contents, outcome cursors contents pc = none)
    (unanswered : ∀ answer, pc ≠ .returned answer) (at_next : next.reads request = pc) :
    Progress reads writes before events request next := by
  refine ⟨?_, ?_⟩
  · rw [at_next, quiet]
    simp
  · intro answer returned
    exact absurd (at_next.symm.trans returned) (unanswered answer)

private theorem Progress.answers {answer : Except Status (List UInt8)} (at_next : next.reads request = .returned answer)
    (answered : Answered reads writes before events request answer) : Progress reads writes before events request next := by
  refine ⟨?_, ?_⟩
  · rw [at_next]
    simp [outcome]
  · intro other returned
    cases at_next.symm.trans returned
    exact answered

private theorem Progress.returns {bytes : List UInt8} (will : outcome next.cursors next.contents (next.reads request) = some bytes)
    (reading : Reading reads writes before events request bytes) : Progress reads writes before events request next := by
  refine ⟨?_, ?_⟩
  · intro other same
    cases will.symm.trans same
    exact reading
  · intro answer returned
    rw [returned] at will
    cases will

private theorem Progress.own_step (fitting : Fitting reads state) (executed : run (readsStep reads writes) before events = some state)
    (progress : Progress reads writes before events request state)
    (taken : readStep (reads request) state request size (state.reads request) = some next) :
    Progress reads writes before (events ++ [.read request size]) request next := by
  have now : Answered reads writes before (events ++ [.read request size]) request (readFile (reads request) state.contents) :=
    Answered.now executed
  have lengths := fitting.lengths request
  have live := fitting.live request
  have established := fitting.established request
  have quiet {pc : ReadPc ρ} (none : ∀ cursors contents, outcome cursors contents pc = none)
      (unanswered : ∀ answer, pc ≠ .returned answer) (at_next : next.reads request = pc) :
      Progress reads writes before (events ++ [.read request size]) request next := .moves none unanswered at_next
  cases at_pc : state.reads request with
  | start =>
    simp only [at_pc, readStep] at taken
    split at taken <;> cases taken
    next long =>
      refine .answers (Function.update_self ..) ?_
      simpa [readFile, long] using now
    next => exact quiet (fun _ _ => rfl) (by simp) (Function.update_self ..)
  | lookup =>
    simp only [at_pc, readStep] at taken
    split at taken <;> cases taken <;> exact quiet (fun _ _ => rfl) (by simp) (Function.update_self ..)
  | liveCheck handle =>
    simp only [at_pc, readStep] at taken
    split at taken <;> cases taken <;> exact quiet (fun _ _ => rfl) (by simp) (Function.update_self ..)
  | removeKey | metadata | insert _ =>
    simp only [at_pc, readStep] at taken
    cases taken
    exact quiet (fun _ _ => rfl) (by simp) (Function.update_self ..)
  | firstCheck handle =>
    rw [at_pc] at lengths live established
    have fits : Fits state.contents handle.len := lengths handle.len rfl
    simp only [at_pc, readStep, live handle rfl, Bool.false_eq_true, if_false] at taken
    split at taken <;> cases taken
    next status range =>
      rw [fits.error range] at now
      exact .answers (Function.update_self ..) now
    next => exact quiet (fun _ _ => rfl) (by simp) (Function.update_self ..)
  | lastCheck handle offset length =>
    rw [at_pc] at lengths live established
    have fits : Fits state.contents handle.len := lengths handle.len rfl
    have answer := fits.ok established.1 established.2
    simp only [at_pc, readStep, live handle rfl, Bool.false_eq_true, if_false] at taken
    split at taken <;> cases taken
    next outside =>
      rw [answer, fits.empty outside] at now
      exact .answers (Function.update_self ..) now
    next =>
      rw [← fits.clip] at answer
      exact .returns (by simp [ReadsState.moveRead, outcome]) (Reading.now executed answer)
  | seek id offset length =>
    have reading := progress.reading (readBytes state.contents offset length) (by rw [at_pc]; rfl)
    simp only [at_pc, readStep] at taken
    cases taken
    exact .returns (by simp [ReadsState.moveRead, outcome]) reading.concat
  | read id rest out =>
    have reading := progress.reading _ (by rw [at_pc]; rfl)
    simp only [at_pc, readStep] at taken
    split at taken <;> cases taken
    next nothing =>
      rw [readBytes_end nothing, List.append_nil] at reading
      exact .answers (Function.update_self ..) reading.answered
    next =>
      refine .returns ?_ reading.concat
      have split := readBytes_split state.contents (state.cursors id) (size + 1) rest
      simp only [ReadsState.moveRead, Function.update_self, outcome, List.append_assoc]
      rw [split]
  | returned answer => simp [at_pc, readStep] at taken

private theorem Progress.other_step (fitting : Fitting reads state) (considerate : Considerate reads writes state last)
    (apart : ∀ size, last ≠ .read request size) (progress : Progress reads writes before events request state)
    (executed : run (readsStep reads writes) before (events ++ [last]) = some next)
    (taken : readsStep reads writes state last = some next) :
    Progress reads writes before (events ++ [last]) request next := by
  have unmoved : next.reads request = state.reads request := readsStep_reads apart taken
  have same_cursor (contents : List UInt8) : outcome next.cursors contents (state.reads request) =
      outcome state.cursors contents (state.reads request) := by
    cases at_pc : state.reads request with
    | read id rest out =>
      have kept := fitting.cursor_kept considerate (by rw [at_pc]; rfl) apart taken
      simp only [outcome, kept]
    | start | lookup | liveCheck _ | removeKey | metadata | insert _ | firstCheck _ | lastCheck _ _ _ | seek _ _ _ | returned _ => rfl
  refine ⟨?_, ?_⟩
  · intro bytes will
    rw [unmoved, same_cursor] at will
    rcases readsStep_contents taken with same | ⟨id, rfl, changing, changed⟩
    · rw [same] at will
      exact (progress.reading bytes will).concat
    · simp only [Considerate, changing] at considerate
      rw [changed] at will
      rcases (considerate.resolve_left (by simp)).bytes request bytes will with unread | requested
      · exact (progress.reading bytes unread).concat
      · rw [← changed] at requested
        exact ⟨next, ⟨_, [], by simp, executed⟩, requested⟩
  · intro answer returned
    exact (progress.answered answer (unmoved.symm.trans returned)).concat

/-- In a run whose steps are considerate, every read answers with the range of the contents
at an instant between its first and its last step. It never answers NotFound. -/
theorem considerate_reads_see_the_file (reads : ρ → ReadArgs) (writes : ω → WriteArgs) (contents : List UInt8)
    (earlier rest : List (ReadsEvent ρ ω)) (before final : ReadsState ρ ω) (request : ρ) (size : Nat)
    (considerate : Guarded (readsStep reads writes) (Considerate reads writes) (readsStart contents)
      (earlier ++ .read request size :: rest))
    (reached : run (readsStep reads writes) (readsStart contents) earlier = some before)
    (starting : before.reads request = .start)
    (executed : run (readsStep reads writes) before (.read request size :: rest) = some final)
    (answer : Except Status (List UInt8)) (returned : final.reads request = .returned answer) :
    Answered reads writes before (.read request size :: rest) request answer ∧
      ∀ status, answer = .error status → status.code ≠ .notFound := by
  obtain ⟨prior, guarded⟩ := guarded_append considerate
  have fitting : Fitting reads before := by
    apply guarded_invariant _ (Fitting.initial reads contents) prior reached
    exact fun _ _ _ holds allowed taken => holds.step allowed taken
  have whole : Fitting reads final ∧ Progress reads writes before (.read request size :: rest) request final := by
    apply guarded_history (fun events state => Fitting reads state ∧ Progress reads writes before events request state) _ _
      (guarded before reached) executed
    · exact ⟨fitting, .moves (fun _ _ => rfl) (by simp) starting⟩
    intro events state event next executed ⟨fitting, progress⟩ allowed taken
    refine ⟨fitting.step allowed taken, ?_⟩
    by_cases own : ∃ size, event = .read request size
    · obtain ⟨size, rfl⟩ := own
      exact progress.own_step fitting executed taken
    · rw [not_exists] at own
      exact progress.other_step fitting allowed own (run_concat.mpr ⟨state, executed, taken⟩) taken
  have answered := whole.2.answered answer returned
  refine ⟨answered, ?_⟩
  rintro status rfl
  obtain ⟨_, _, _, _, _, _, _, same⟩ := answered
  exact readFile_not_notFound same.symm

def wholeFile (_ : Bool) : ReadArgs := ⟨0, 10⟩

def appendByte (_ : Unit) : WriteArgs := .writeAt 3 [4] false

/-- Reads of the descriptor return up to two bytes. -/
def readSteps (request : Bool) (count : Nat) : List (ReadsEvent Bool Unit) := List.replicate count (.read request 1)

def writeSteps (count : Nat) : List (ReadsEvent Bool Unit) := List.replicate count (.write () false)

/-- A read before and a read after a WriteAt that appends a byte. -/
theorem second_read_sees_the_write : ∃ before final : ReadsState Bool Unit,
    run (readsStep wholeFile appendByte) (readsStart [1, 2, 3]) (readSteps false 10 ++ writeSteps 3) = some before ∧
    run (readsStep wholeFile appendByte) before (readSteps true 10) = some final ∧
    Answered wholeFile appendByte before (readSteps true 10) true (.ok [1, 2, 3, 4]) := by
  refine ⟨_, _, rfl, rfl, ?_⟩
  refine (considerate_reads_see_the_file wholeFile appendByte [1, 2, 3] (readSteps false 10 ++ writeSteps 3) (readSteps true 9)
    _ _ true 1 ?_ rfl rfl rfl (.ok [1, 2, 3, 4]) rfl).1
  decide

/-- Each read asks for one byte. -/
def endBytes (second : Bool) : ReadArgs := if second then ⟨2, 1⟩ else ⟨0, 1⟩

theorem not_answered {reads : Bool → ReadArgs} {before : ReadsState Bool Unit} {events : List (ReadsEvent Bool Unit)} {request : Bool}
    {answer : Except Status (List UInt8)} (reading : ∀ event ∈ events, ∃ other size, event = .read other size)
    (different : answer ≠ readFile (reads request) before.contents) : ¬Answered reads appendByte before events request answer := by
  intro ⟨front, back, middle, size, split, own, executed, same⟩
  have kept : middle.contents = before.contents := by
    refine run_reads_contents ?_ executed
    intro event member
    exact reading event (split ▸ List.mem_append_left back member)
  rw [kept] at same
  exact different same

/-- A read holds the cached handle when a WriteAt expires it, and answers NotFound. Or a
read reopens the file between the invalidation and the change of a WriteAt, and the next
read, which starts after the WriteAt has returned, does not see the new byte. Or two reads
of one handle overlap, and the first reads from where the second has moved the cursor. -/
theorem overlapping_requests_mislead_reads :
    (∃ final : ReadsState Bool Unit,
      run (readsStep wholeFile appendByte) (readsStart [1, 2, 3])
        (readSteps false 10 ++ readSteps true 3 ++ writeSteps 2 ++ readSteps true 1) = some final ∧
      final.reads true = .returned (.error handleExpired)) ∧
    (∃ before final : ReadsState Bool Unit,
      run (readsStep wholeFile appendByte) (readsStart [1, 2, 3])
        (writeSteps 1 ++ readSteps false 10 ++ writeSteps 1) = some before ∧
      before.writes () = .returned ∧ before.reads true = .start ∧
      run (readsStep wholeFile appendByte) before (readSteps true 9) = some final ∧
      final.reads true = .returned (.ok [1, 2, 3]) ∧
      ¬Answered wholeFile appendByte before (readSteps true 9) true (.ok [1, 2, 3])) ∧
    ∃ final : ReadsState Bool Unit,
      run (readsStep endBytes appendByte) (readsStart [1, 2, 3])
        (readSteps false 7 ++ readSteps true 6 ++ readSteps false 2) = some final ∧
      final.reads false = .returned (.ok [3]) ∧
      ¬Answered endBytes appendByte (readsStart [1, 2, 3]) (readSteps false 7 ++ readSteps true 6 ++ readSteps false 2) false
        (.ok [3]) := by
  have replicated (request : Bool) (count : Nat) : ∀ event ∈ readSteps request count, ∃ other size, event = .read other size :=
    fun event member => ⟨request, 1, List.eq_of_mem_replicate member⟩
  refine ⟨⟨_, rfl, rfl⟩, ⟨_, _, rfl, rfl, rfl, rfl, rfl, ?_⟩, _, rfl, rfl, ?_⟩
  · exact not_answered (replicated true 9) (by decide)
  · refine not_answered ?_ (by decide)
    intro event member
    rcases List.mem_append.mp member with first | last
    · exact (List.mem_append.mp first).elim (replicated false 7 event) (replicated true 6 event)
    · exact replicated false 2 event last

end Vaulton.Proofs.ReadHandles
