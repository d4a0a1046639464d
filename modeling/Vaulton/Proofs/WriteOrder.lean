import Vaulton.Lib.Linear
import Vaulton.Proofs.CloseWrite

/-! The order of the changes made through one write handle. Each request takes effect in
one step under the mutex, so the file is what the requests make of it one after another;
only a write that fails leaves a part of its bytes. -/

namespace Vaulton.Proofs.WriteOrder
open Vaulton.Config Vaulton.Lib Vaulton.CloseWrite
open Vaulton.Proofs.CloseWrite

/-! ### The file as an object with atomic operations -/

inductive Change where
  | write (offset : Nat) (data : List UInt8)
  | append (data : List UInt8)
  | resize (length : Nat)
  deriving DecidableEq

def Change.apply (file : List UInt8) : Change → List UInt8
  | .write offset data => overwrite file offset data
  | .append data => file ++ data
  | .resize length => setLen file length

/-- What the client asked for. -/
def requested (handle : ActiveWriteHandle) : Request → Change
  | .writeAt offset data => if handle.append then .append data else .write offset data
  | .setLength length => .resize length

/-- The first bytes of a write, and all of any other change. -/
inductive Part : Change → Change → Prop where
  | write (offset : Nat) {part whole : List UInt8} (first : part <+: whole) : Part (.write offset part) (.write offset whole)
  | append {part whole : List UInt8} (first : part <+: whole) : Part (.append part) (.append whole)
  | resize (length : Nat) : Part (.resize length) (.resize length)

theorem overwrite_end (file data : List UInt8) : overwrite file file.length data = file ++ data := by
  unfold overwrite
  split
  next none => rw [none, List.append_nil]
  next =>
    have past : file.drop (file.length + data.length) = [] := List.drop_eq_nil_of_le (Nat.le_add_right _ _)
    rw [past]
    simp

/-- What a request puts into the file, given what the file answers. -/
def effect (handle : ActiveWriteHandle) (io : Io) (state : WriteState) : Request → Option Change
  | .writeAt offset data =>
    match (act handle (.writeAt offset data) io state).1 with
    | .ok () => some (requested handle (.writeAt offset data))
    | .error _ =>
      match io, (act handle (.writeAt offset data) .done state).1 with
      | .writeFails written _, .ok () => some (requested handle (.writeAt offset (data.take written)))
      | _, _ => none
  | .setLength length =>
    match (act handle (.setLength length) io state).1 with
    | .ok () => some (.resize length)
    | .error _ => none

variable {handle : ActiveWriteHandle} {io : Io} {file : WriteState} {call : Request} {change : Change}

/-- Where a write goes. -/
def place (handle : ActiveWriteHandle) (offset : Nat) (file : List UInt8) : Nat :=
  if handle.append then file.length else offset

theorem requested_apply (handle : ActiveWriteHandle) (offset : Nat) (data file : List UInt8) :
    (requested handle (.writeAt offset data)).apply file = overwrite file (place handle offset file) data := by
  by_cases appends : handle.append = true
  · rw [requested, place, if_pos appends, if_pos appends]
    exact (overwrite_end file data).symm
  · rw [requested, place, if_neg appends, if_neg appends]
    rfl

/-- Everything the writing part does: it answers Ok and has written all the bytes, or it
has written some of them, or nothing has happened. -/
theorem write_cases (handle : ActiveWriteHandle) (offset : Nat) (data : List UInt8) (io : Io) (file : WriteState) :
    (act handle (.writeAt offset data) io file).1 = .ok () ∧
      (act handle (.writeAt offset data) io file).2.file = overwrite file.file (place handle offset file.file) data ∨
    (∃ error, (act handle (.writeAt offset data) io file).1 = .error error) ∧
      ((∃ written error, io = .writeFails written error ∧ (act handle (.writeAt offset data) .done file).1 = .ok () ∧
        (act handle (.writeAt offset data) io file).2.file =
          overwrite file.file (place handle offset file.file) (data.take written)) ∨
      (act handle (.writeAt offset data) io file).2 = file ∧
        ∀ written error, io = .writeFails written error → (act handle (.writeAt offset data) .done file).1 ≠ .ok ()) := by
  obtain ⟨maxBytes, base, append⟩ := handle
  cases append <;> cases io
  all_goals
    simp only [act, writeData, place]
    repeat' split
    all_goals simp_all

theorem requested_part (handle : ActiveWriteHandle) (offset written : Nat) (data : List UInt8) :
    Part (requested handle (.writeAt offset (data.take written))) (requested handle (.writeAt offset data)) := by
  by_cases appends : handle.append = true
  · rw [requested, requested, if_pos appends, if_pos appends]
    exact .append (List.take_prefix written data)
  · rw [requested, requested, if_neg appends, if_neg appends]
    exact .write offset (List.take_prefix written data)

theorem Part.refl (change : Change) : Part change change := by
  cases change with
  | write offset data => exact .write offset (List.prefix_refl data)
  | append data => exact .append (List.prefix_refl data)
  | resize length => exact .resize length

theorem effect_of_ok (succeeds : (act handle call io file).1 = .ok ()) : effect handle io file call = some (requested handle call) := by
  cases call with
  | writeAt offset data => simp only [effect, succeeds]
  | setLength length => simp only [effect, succeeds, requested]

theorem effect_part (made : effect handle io file call = some change) : Part change (requested handle call) := by
  cases call with
  | writeAt offset data =>
    simp only [effect] at made
    split at made
    next =>
      cases made
      exact .refl _
    next =>
      split at made <;> cases made
      exact requested_part handle offset _ data
  | setLength length =>
    simp only [effect] at made
    split at made <;> cases made
    exact .resize length

theorem act_file (handle : ActiveWriteHandle) (call : Request) (io : Io) (file : WriteState) :
    (act handle call io file).2.file = ((effect handle io file call).map (Change.apply file.file)).getD file.file := by
  cases call with
  | writeAt offset data =>
    rcases write_cases handle offset data io file with ⟨succeeds, whole⟩ | ⟨⟨error, fails⟩, ⟨written, reason, rfl, fits, part⟩ | ⟨same, never⟩⟩
    · rw [effect_of_ok succeeds, Option.map_some, Option.getD_some, requested_apply]
      exact whole
    · simp only [effect, fails, fits, Option.map_some, Option.getD_some, requested_apply]
      exact part
    · have nothing : effect handle io file (.writeAt offset data) = none := by
        -- `never` rules out the branch of a write that fails halfway.
        simp only [effect, fails]
      rw [nothing]
      exact congrArg WriteState.file same
  | setLength length =>
    simp only [act, effect, resize]
    cases LocalQuota.checkSetLength handle.maxBytes handle.quotaBaseBytes length with
    | error error => rfl
    | ok done => cases io <;> rfl

/-! ### The commits of a run -/

variable {ω κ : Type} [DecidableEq ω] [DecidableEq κ] {calls : ω → Request} {state next middle final : HandleState ω κ}
  {event : HandleEvent ω κ} {before after : List (HandleEvent ω κ)}

/-- The request has had its step. -/
def acted : RequestPc → Bool
  | .release _ | .returned _ => true
  | .fetch | .firstCheck | .lock | .lastCheck | .act => false

def commit (handle : ActiveWriteHandle) (calls : ω → Request) (state : HandleState ω κ) : HandleEvent ω κ → Option (ω × Change)
  | .request id io =>
    if state.requests id = .act then (effect handle io state.state (calls id)).map (Prod.mk id) else none
  | .close _ _ => none

omit [DecidableEq ω] [DecidableEq κ] in
theorem commit_some {id : ω} (committed : commit handle calls state event = some (id, change)) :
    ∃ io, event = .request id io ∧ state.requests id = .act ∧ effect handle io state.state (calls id) = some change := by
  cases event with
  | request other io =>
    simp only [commit] at committed
    split at committed
    next acting =>
      obtain ⟨made, equal, same⟩ := Option.map_eq_some_iff.mp committed
      cases same
      exact ⟨io, rfl, acting, equal⟩
    next => cases committed
  | close other fails => cases committed

/-- The request has had its step and answers this. -/
def Answers (result : Except Status Unit) (pc : RequestPc) : Prop := pc = .release result ∨ pc = .returned result

theorem acted_iff {pc : RequestPc} : acted pc = true ↔ ∃ result, Answers result pc := by
  constructor
  · intro had
    cases pc with
    | fetch | firstCheck | lock | lastCheck | act => cases had
    | release result => exact ⟨result, .inl rfl⟩
    | returned result => exact ⟨result, .inr rfl⟩
  · intro ⟨result, answers⟩
    rcases answers with rfl | rfl <;> rfl

theorem answers_kept {id : ω} {result : Except Status Unit} (taken : handleStep handle calls state event = some next)
    (answers : Answers result (state.requests id)) : Answers result (next.requests id) := by
  cases event with
  | request other io =>
    by_cases same : id = other
    · subst other
      rcases answers with pc | pc
      · simp only [handleStep, pc, requestStep] at taken
        cases taken
        exact .inr (Function.update_self ..)
      · simp only [handleStep, pc, requestStep] at taken
        cases taken
    · have unmoved : next.requests id = state.requests id := by
        by_cases acting : state.requests other = .act
        · simp only [handleStep, acting, requestStep] at taken
          cases taken
          exact Function.update_of_ne same _ _
        · obtain ⟨later, holder, rfl, -⟩ := request_quiet acting taken
          exact Function.update_of_ne same _ _
      rwa [unmoved]
  | close other fails => rwa [(close_frame taken).2]

theorem acted_kept {id : ω} (taken : handleStep handle calls state event = some next) (had : acted (state.requests id) = true) :
    acted (next.requests id) = true := by
  obtain ⟨result, answers⟩ := acted_iff.mp had
  exact acted_iff.mpr ⟨result, answers_kept taken answers⟩

/-- A write handle as an object whose operations are atomic. -/
def linear (handle : ActiveWriteHandle) (calls : ω → Request) :
    Linear (handleStep (ω := ω) (κ := κ) handle calls) ω Change (List UInt8) where
  view state := state.state.file
  commit := commit handle calls
  apply := Change.apply
  done state id := acted (state.requests id) = true
  silent := by
    intro state event next taken nothing
    rcases step_frame taken with ⟨id, io, rfl, acting, same, -⟩ | ⟨unchanged, -⟩
    · simp only [commit, acting, if_true, Option.map_eq_none_iff] at nothing
      rw [← same, act_file, nothing]
      rfl
    · rw [unchanged]
  moves := by
    intro state event next id change taken committed
    obtain ⟨io, rfl, acting, made⟩ := commit_some committed
    simp only [handleStep, acting, requestStep] at taken
    cases taken
    refine ⟨?_, ?_, ?_⟩
    · rw [act_file, made]
      rfl
    · simp [acting, acted]
    · simp [HandleState.request, acted]
  kept := by
    intro state event next id taken had
    exact acted_kept taken had

/-- The changes of a run, in the order in which they were made. -/
def changes (handle : ActiveWriteHandle) (calls : ω → Request) (start : HandleState ω κ) (events : List (HandleEvent ω κ)) :
    List (ω × Change) :=
  (linear handle calls).history start events

theorem changes_of_ok {file : WriteState} {id : ω} (executed : run (handleStep handle calls) (handleStart file) before = some middle)
    (answered : middle.requests id = .returned (.ok ())) :
    (id, requested handle (calls id)) ∈ changes handle calls (handleStart file) before := by
  obtain ⟨state, io, next, occurs, ⟨acting, -, -⟩, succeeds⟩ := changed_of_succeeded executed id (.inr answered)
  apply (linear handle calls).mem_history occurs
  simp only [linear, commit, acting, if_true, effect_of_ok succeeds, Option.map_some]

theorem changes_part {start : HandleState ω κ} {id : ω} (member : (id, change) ∈ changes handle calls start before) :
    Part change (requested handle (calls id)) := by
  apply (linear handle calls).forall_history _ member
  intro state event id change committed
  obtain ⟨io, -, -, made⟩ := commit_some committed
  exact effect_part made

theorem resize_answers {file : WriteState} {id : ω} {length : Nat}
    (executed : run (handleStep handle calls) (handleStart file) before = some middle)
    (member : (id, .resize length) ∈ changes handle calls (handleStart file) before) :
    Answers (.ok ()) (middle.requests id) := by
  refine run_history (fun events state => (id, .resize length) ∈ changes handle calls (handleStart file) events →
    Answers (.ok ()) (state.requests id)) ?_ ?_ executed member
  · intro nothing
    cases nothing
  · intro events state event next reached earlier taken member
    rw [changes, Linear.history, collect_concat reached taken, List.mem_append, Option.mem_toList] at member
    rcases member with old | new
    · exact answers_kept taken (earlier old)
    · obtain ⟨io, rfl, acting, made⟩ := commit_some new
      simp only [handleStep, acting, requestStep] at taken
      cases taken
      left
      cases asked : calls id with
      | writeAt offset data =>
        -- A write never changes the length otherwise.
        have part := effect_part made
        rw [asked, requested] at part
        split at part <;> cases part
      | setLength other =>
        rw [asked, effect] at made
        split at made <;> cases made
        next succeeds => simp [HandleState.request, succeeds]

/-- The history explains the state: the file is what its changes make of the first file one
after another, no request makes two, one that is answered Ok makes all of its change, and
one that is not through with its step, or was refused a new length, makes none. Of a write
that fails at most the first bytes have arrived. -/
structure Explains (handle : ActiveWriteHandle) (calls : ω → Request) (file : List UInt8) (state : HandleState ω κ)
    (history : List (ω × Change)) : Prop where
  file : state.state.file = history.foldl (fun file entry => entry.2.apply file) file
  once : (history.map Prod.fst).Nodup
  parts : ∀ id change, (id, change) ∈ history → Part change (requested handle (calls id))
  acknowledged : ∀ id, state.requests id = .returned (.ok ()) → (id, requested handle (calls id)) ∈ history
  waiting : ∀ id, acted (state.requests id) = false → id ∉ history.map Prod.fst
  refused : ∀ id length error, calls id = .setLength length → state.requests id = .returned (.error error) →
    id ∉ history.map Prod.fst

theorem changes_explain {file : WriteState} (executed : run (handleStep handle calls) (handleStart file) before = some middle) :
    Explains handle calls file.file middle (changes handle calls (handleStart file) before) := by
  refine ⟨(linear handle calls).view_eq executed, (linear handle calls).nodup executed, fun _ _ => changes_part,
    fun _ => changes_of_ok executed, ?_, ?_⟩
  · intro id before member
    obtain ⟨⟨other, change⟩, early, same⟩ := List.mem_map.mp member
    cases same
    have had : acted (middle.requests other) = true := ((linear handle calls).done_of_history executed early).2
    rw [before] at had
    cases had
  · intro id length error asked answered member
    obtain ⟨⟨other, change⟩, early, same⟩ := List.mem_map.mp member
    cases same
    have part := changes_part early
    rw [asked, requested] at part
    cases part
    rcases resize_answers executed early with answers | answers
    · rw [answered] at answers
      cases answers
    · rw [answered] at answers
      cases answers

/-- The requests through a handle are linearizable, whatever else they and the closes do
meanwhile. One order of their changes explains the file at every time: a part of it at the
front explains what is there so far, with everything answered so far and nothing of a
request that starts later. -/
theorem requests_are_linear (handle : ActiveWriteHandle) (calls : ω → Request) (file : WriteState)
    (events : List (HandleEvent ω κ)) (final : HandleState ω κ)
    (executed : run (handleStep handle calls) (handleStart file) events = some final) :
    Explains handle calls file.file final (changes handle calls (handleStart file) events) ∧
      ∀ before after, events = before ++ after → ∃ middle, run (handleStep handle calls) (handleStart file) before = some middle ∧
        Explains handle calls file.file middle (changes handle calls (handleStart file) before) ∧
        changes handle calls (handleStart file) before <+: changes handle calls (handleStart file) events := by
  refine ⟨changes_explain executed, ?_⟩
  rintro before after rfl
  obtain ⟨middle, first, -⟩ := run_append.mp executed
  refine ⟨middle, first, changes_explain first, ?_⟩
  rw [changes, changes, (linear handle calls).history_append first]
  exact List.prefix_append ..

/-- The whole of a request. -/
def answering (id : Bool) (io : Io) : List (HandleEvent Bool Unit) :=
  List.replicate 4 (.request id .done) ++ [.request id io, .request id .done]

def secondPart : Bool → Request
  | false => .writeAt 0 [1, 2, 3]
  | true => .writeAt 1 [8, 9]

/-- The second write gets one byte into the file and fails. -/
def halfWritten : List (HandleEvent Bool Unit) := answering false .done ++ answering true (.writeFails 1 ⟨.internal, "disk"⟩)

theorem one_byte_arrives : ∃ final,
    run (handleStep ⟨some 10, 0, false⟩ secondPart) (handleStart ⟨[], 0⟩) halfWritten = some final ∧
    final.state.file = [1, 8, 3] ∧
    Explains ⟨some 10, 0, false⟩ secondPart [] final (changes ⟨some 10, 0, false⟩ secondPart (handleStart ⟨[], 0⟩) halfWritten) ∧
    ∀ before after, halfWritten = before ++ after → ∃ middle,
      run (handleStep ⟨some 10, 0, false⟩ secondPart) (handleStart ⟨[], 0⟩) before = some middle ∧
      Explains ⟨some 10, 0, false⟩ secondPart [] middle
        (changes ⟨some 10, 0, false⟩ secondPart (handleStart ⟨[], 0⟩) before) ∧
      changes ⟨some 10, 0, false⟩ secondPart (handleStart ⟨[], 0⟩) before <+:
        changes ⟨some 10, 0, false⟩ secondPart (handleStart ⟨[], 0⟩) halfWritten :=
  ⟨_, rfl, rfl, requests_are_linear ⟨some 10, 0, false⟩ secondPart ⟨[], 0⟩ halfWritten _ rfl⟩

/-! ### Appending -/

/-- The bytes of a WriteAt. -/
def payload : Request → List UInt8
  | .writeAt _ data => data
  | .setLength _ => []

def Change.appended : Change → List UInt8
  | .append data => data
  | .write _ _ | .resize _ => []

theorem apply_appends {ω : Type} {history : List (ω × Change)} (appends : ∀ entry ∈ history, entry.2 = .append entry.2.appended)
    (file : List UInt8) :
    history.foldl (fun file entry => entry.2.apply file) file = file ++ history.flatMap fun entry => entry.2.appended := by
  induction history generalizing file with
  | nil => simp
  | cons entry rest ih =>
    have here := appends entry List.mem_cons_self
    rw [List.foldl_cons, ih (fun other member => appends other (List.mem_cons_of_mem _ member)), List.flatMap_cons,
      ← List.append_assoc]
    congr 1
    rw [here]
    rfl

/-- A handle opened for appending only ever adds to its file: what was there stays, every
acknowledged WriteAt has its bytes in one piece and once, and nobody's bytes are written
over those of another. -/
theorem appends_stay (handle : ActiveWriteHandle) (appends : handle.append = true) (calls : ω → Request)
    (writes : ∀ id, ∃ offset data, calls id = .writeAt offset data) (file : WriteState) (events : List (HandleEvent ω κ))
    (final : HandleState ω κ) (executed : run (handleStep handle calls) (handleStart file) events = some final) :
    ∃ log : List (ω × List UInt8), final.state.file = file.file ++ log.flatMap Prod.snd ∧ (log.map Prod.fst).Nodup ∧
      (∀ id data, (id, data) ∈ log → data <+: payload (calls id)) ∧
      ∀ id, final.requests id = .returned (.ok ()) → (id, payload (calls id)) ∈ log := by
  have asked (id : ω) : requested handle (calls id) = .append (payload (calls id)) := by
    obtain ⟨offset, data, same⟩ := writes id
    rw [same, requested, if_pos appends]
    rfl
  have made (entry : ω × Change) (member : entry ∈ changes handle calls (handleStart file) events) :
      entry.2 = .append entry.2.appended ∧ entry.2.appended <+: payload (calls entry.1) := by
    have part : Part entry.2 (requested handle (calls entry.1)) := changes_part member
    rw [asked] at part
    obtain ⟨id, change⟩ := entry
    cases part with
    | append first => exact ⟨rfl, first⟩
  refine ⟨(changes handle calls (handleStart file) events).map fun entry => (entry.1, entry.2.appended), ?_, ?_, ?_, ?_⟩
  · have replayed : final.state.file = (changes handle calls (handleStart file) events).foldl
        (fun file entry => entry.2.apply file) file.file := (linear handle calls).view_eq executed
    rw [replayed, apply_appends (fun entry member => (made entry member).1), List.flatMap_map]
  · rw [List.map_map]
    exact (linear handle calls).nodup executed
  · intro id bytes member
    obtain ⟨entry, inside, same⟩ := List.mem_map.mp member
    cases same
    exact (made entry inside).2
  · intro id answered
    apply List.mem_map.mpr
    refine ⟨_, changes_of_ok executed answered, ?_⟩
    rw [asked]
    rfl

/-- Both clients name the same offset; the second waits for the first and appends. -/
def interleaved : List (HandleEvent Bool Unit) :=
  [.request true .done, .request true .done] ++ answering false .done ++ List.replicate 4 (.request true .done)

theorem both_appended : ∃ final,
    run (handleStep ⟨none, 0, true⟩ secondPart) (handleStart ⟨[7], 1⟩) interleaved = some final ∧
    final.state.file = [7, 1, 2, 3, 8, 9] ∧
    ∃ log : List (Bool × List UInt8), final.state.file = [7] ++ log.flatMap Prod.snd ∧ (log.map Prod.fst).Nodup ∧
      (∀ id data, (id, data) ∈ log → data <+: payload (secondPart id)) ∧
      ∀ id, final.requests id = .returned (.ok ()) → (id, payload (secondPart id)) ∈ log :=
  ⟨_, rfl, rfl, appends_stay ⟨none, 0, true⟩ rfl secondPart (Bool.forall_bool.mpr ⟨⟨_, _, rfl⟩, _, _, rfl⟩) ⟨[7], 1⟩
    interleaved _ rfl⟩

end Vaulton.Proofs.WriteOrder
