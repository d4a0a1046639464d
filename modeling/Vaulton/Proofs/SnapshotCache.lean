import Vaulton.SnapshotCache

/-! How old a listing of the snapshots may be. It was made for the same key less than the
lifetime of an entry before it was looked up, counted from its insertion; and after an
invalidation only a listing that was under way can bring back what was there before. -/

namespace Vaulton.Proofs.SnapshotCache
open Vaulton.Lib Vaulton.Config Vaulton.SnapshotCache

variable {σ κ ι ω : Type} [DecidableEq κ] [DecidableEq ι] [DecidableEq ω] {keys : ι → κ} {writerKeys : ω → κ}
  {start state next middle final : ListingState σ κ ι ω} {event : ListingEvent σ κ ι ω}
  {events before after : List (ListingEvent σ κ ι ω)}

/-! ### One step -/

/-- Positions that hold no listing. -/
def empty : ReadPc σ → Bool
  | .insert _ | .returned (.ok _) => false
  | _ => true

/-- Everything one step can do. -/
inductive Move (keys : ι → κ) (writerKeys : ω → κ) (state : ListingState σ κ ι ω) :
    ListingEvent σ κ ι ω → ListingState σ κ ι ω → Prop where
  | walked {call : ι} {answer : ReadAnswer} {pc : ReadPc σ} (holds : empty pc = true) (present : pc ≠ .absent) :
      Move keys writerKeys state (.read call answer) (state.goto call pc)
  | hit {call : ι} {answer : ReadAnswer} {output : σ} (at_pc : state.reads call = .lookup)
      (cached : state.cached (keys call) = some output) :
      Move keys writerKeys state (.read call answer) (state.goto call (.returned (.ok output)))
  | listed {call : ι} {answer : ReadAnswer} (at_pc : state.reads call = .list) :
      Move keys writerKeys state (.read call answer) (state.goto call (.insert state.repository))
  | stored {call : ι} {answer : ReadAnswer} {output : σ} (at_pc : state.reads call = .insert output) :
      Move keys writerKeys state (.read call answer)
        ((state.setCache (keys call) (some ⟨output, state.now⟩)).goto call (.returned (.ok output)))
  | worked {call : ω} {fails : Bool} (pc : WriterPc) (unfinished : pc ≠ .returned true) :
      Move keys writerKeys state (.write call fails) (state.gotoWriter call pc)
  | invalidated {call : ω} {fails : Bool} (at_pc : state.writers call = .invalidate) :
      Move keys writerKeys state (.write call fails) ((state.setCache (writerKeys call) none).gotoWriter call (.returned true))
  | changed (repository : σ) : Move keys writerKeys state (.change repository) { state with repository }
  | elapsed (milliseconds : Nat) :
      Move keys writerKeys state (.elapse milliseconds) { state with now := state.now + milliseconds }
  | evicted (key : κ) : Move keys writerKeys state (.evict key) (state.setCache key none)

theorem listingStep_move (taken : listingStep keys writerKeys state event = some next) :
    Move keys writerKeys state event next := by
  cases event with
  | read call answer =>
    cases at_pc : state.reads call with
    | absent =>
      simp only [listingStep, at_pc, snapGetAll] at taken
      cases taken
      exact .walked rfl (by simp)
    | resolve =>
      simp only [listingStep, at_pc, snapGetAll] at taken
      split at taken <;> cases taken <;> exact .walked rfl (by simp)
    | lookup =>
      simp only [listingStep, at_pc, snapGetAll] at taken
      split at taken <;> cases taken
      next cached => exact .hit at_pc cached
      next => exact .walked rfl (by simp)
    | getRepo =>
      simp only [listingStep, at_pc, snapGetAll] at taken
      split at taken <;> cases taken <;> exact .walked rfl (by simp)
    | list =>
      simp only [listingStep, at_pc, snapGetAll] at taken
      split at taken <;> cases taken
      · exact .walked rfl (by simp)
      · exact .walked rfl (by simp)
      · exact .listed at_pc
    | insert output =>
      simp only [listingStep, at_pc, snapGetAll] at taken
      cases taken
      exact .stored at_pc
    | returned answer =>
      simp only [listingStep, at_pc, snapGetAll] at taken
      cases taken
  | write call fails =>
    cases at_pc : state.writers call with
    | absent =>
      simp only [listingStep, at_pc, invalidating] at taken
      cases taken
      exact .worked _ (by simp)
    | working =>
      simp only [listingStep, at_pc, invalidating] at taken
      cases taken
      apply Move.worked
      cases fails <;> simp
    | invalidate =>
      simp only [listingStep, at_pc, invalidating] at taken
      cases taken
      exact .invalidated at_pc
    | returned ok =>
      simp only [listingStep, at_pc, invalidating] at taken
      cases taken
  | change repository =>
    cases taken
    exact .changed repository
  | elapse milliseconds =>
    cases taken
    exact .elapsed milliseconds
  | evict key =>
    cases taken
    exact .evicted key

omit [DecidableEq κ] [DecidableEq ι] [DecidableEq ω] in
theorem cached_some {key : κ} {output : σ} (cached : state.cached key = some output) :
    ∃ inserted, state.snapshotCache key = some ⟨output, inserted⟩ ∧ state.now < inserted + snapshotTtl := by
  unfold ListingState.cached at cached
  split at cached
  next entry found =>
    split at cached <;> cases cached
    next young => exact ⟨entry.inserted, found, young⟩
  next => cases cached

theorem Move.now_le (move : Move keys writerKeys state event next) : state.now ≤ next.now := by
  cases move with
  | elapsed milliseconds => exact Nat.le_add_right _ _
  | _ => exact Nat.le_refl _

theorem reads_cases {call : ι} {pc : ReadPc σ} (move : Move keys writerKeys state event next) (holds : next.reads call = pc)
    (full : empty pc = false) :
    state.reads call = pc ∨ ∃ answer, event = .read call answer ∧
      (pc = .insert state.repository ∧ state.reads call = .list ∨
        ∃ output, pc = .returned (.ok output) ∧
          (state.reads call = .lookup ∧ state.cached (keys call) = some output ∨ state.reads call = .insert output)) := by
  have moved (other : ι) (answer : ReadAnswer) (reached : ReadPc σ) (reads : next.reads = Function.update state.reads other reached)
      (advances : event = .read other answer)
      (here : reached = pc → pc = .insert state.repository ∧ state.reads other = .list ∨
        ∃ output, pc = .returned (.ok output) ∧
          (state.reads other = .lookup ∧ state.cached (keys other) = some output ∨ state.reads other = .insert output)) :
      state.reads call = pc ∨ ∃ answer, event = .read call answer ∧
        (pc = .insert state.repository ∧ state.reads call = .list ∨
          ∃ output, pc = .returned (.ok output) ∧
            (state.reads call = .lookup ∧ state.cached (keys call) = some output ∨ state.reads call = .insert output)) := by
    rw [reads] at holds
    rcases of_update (fun place : ReadPc σ => place = pc) holds with ⟨rfl, now⟩ | ⟨-, earlier⟩
    · exact .inr ⟨answer, advances, here now⟩
    · exact .inl earlier
  cases move with
  | @walked other answer reached nothing present =>
    refine moved other answer reached rfl rfl ?_
    rintro rfl
    rw [nothing] at full
    cases full
  | @hit other answer output at_pc cached =>
    refine moved other answer (.returned (.ok output)) rfl rfl ?_
    rintro rfl
    exact .inr ⟨output, rfl, .inl ⟨at_pc, cached⟩⟩
  | @listed other answer at_pc =>
    refine moved other answer (.insert state.repository) rfl rfl ?_
    rintro rfl
    exact .inl ⟨rfl, at_pc⟩
  | @stored other answer output at_pc =>
    refine moved other answer (.returned (.ok output)) rfl rfl ?_
    rintro rfl
    exact .inr ⟨output, rfl, .inr at_pc⟩
  | worked | invalidated | changed | elapsed | evicted => exact .inl holds

theorem entry_cases {key : κ} {entry : CachedListing σ} (move : Move keys writerKeys state event next)
    (holds : next.snapshotCache key = some entry) :
    state.snapshotCache key = some entry ∨ ∃ call answer, event = .read call answer ∧ keys call = key ∧
      state.reads call = .insert entry.output ∧ entry.inserted = state.now := by
  have kept {removed : κ} (cache : next.snapshotCache = Function.update state.snapshotCache removed none) :
      state.snapshotCache key = some entry := by
    rw [cache] at holds
    rcases of_update (fun found : Option (CachedListing σ) => found = some entry) holds with ⟨-, now⟩ | ⟨-, earlier⟩
    · cases now
    · exact earlier
  cases move with
  | @stored call answer output at_pc =>
    rcases of_update (fun found : Option (CachedListing σ) => found = some entry) holds with ⟨rfl, now⟩ | ⟨-, earlier⟩
    · cases now
      exact .inr ⟨call, answer, rfl, rfl, at_pc, rfl⟩
    · exact .inl earlier
  | invalidated | evicted => exact .inl (kept rfl)
  | walked | hit | listed | worked | changed | elapsed => exact .inl holds

/-! ### How old an answer is -/

/-- Somewhere in the run the read takes a step from `pc` in `state`. -/
def Takes (keys : ι → κ) (writerKeys : ω → κ) (start : ListingState σ κ ι ω) (events : List (ListingEvent σ κ ι ω)) (call : ι)
    (pc : ReadPc σ) (state : ListingState σ κ ι ω) : Prop :=
  ∃ answer next, Occurs (listingStep keys writerKeys) start events state (.read call answer) next ∧ state.reads call = pc

theorem Takes.concat {call : ι} {pc : ReadPc σ} (takes : Takes keys writerKeys start events call pc state) :
    Takes keys writerKeys start (events ++ [event]) call pc state := by
  obtain ⟨answer, next, occurs, at_pc⟩ := takes
  exact ⟨answer, next, occurs.concat, at_pc⟩

theorem Takes.last {call : ι} {pc : ReadPc σ} {answer : ReadAnswer}
    (executed : run (listingStep keys writerKeys) start events = some state)
    (taken : listingStep keys writerKeys state (.read call answer) = some next) (at_pc : state.reads call = pc) :
    Takes keys writerKeys start (events ++ [.read call answer]) call pc state :=
  ⟨answer, next, .last executed taken, at_pc⟩

/-- The call listed `output` at some time. -/
def Listed (keys : ι → κ) (writerKeys : ω → κ) (start : ListingState σ κ ι ω) (events : List (ListingEvent σ κ ι ω)) (call : ι)
    (output : σ) (time : Nat) : Prop :=
  ∃ state, Takes keys writerKeys start events call .list state ∧ state.repository = output ∧ state.now = time

/-- The call listed `output`, and stored it later. -/
def Stored (keys : ι → κ) (writerKeys : ω → κ) (start : ListingState σ κ ι ω) (events : List (ListingEvent σ κ ι ω)) (call : ι)
    (output : σ) (listed stored : Nat) : Prop :=
  Listed keys writerKeys start events call output listed ∧ listed ≤ stored ∧
    ∃ state, Takes keys writerKeys start events call (.insert output) state ∧ state.now = stored

theorem Listed.concat {call : ι} {output : σ} {time : Nat} (listed : Listed keys writerKeys start events call output time) :
    Listed keys writerKeys start (events ++ [event]) call output time := by
  obtain ⟨state, takes, same⟩ := listed
  exact ⟨state, takes.concat, same⟩

theorem Stored.concat {call : ι} {output : σ} {first second : Nat}
    (stored : Stored keys writerKeys start events call output first second) :
    Stored keys writerKeys start (events ++ [event]) call output first second := by
  obtain ⟨listed, order, state, takes, now⟩ := stored
  exact ⟨listed.concat, order, state, takes.concat, now⟩

/-- The call listed `output` itself, or looked it up before the entry of another call with
its key was too old. -/
def Recent (keys : ι → κ) (writerKeys : ω → κ) (start : ListingState σ κ ι ω) (events : List (ListingEvent σ κ ι ω)) (call : ι)
    (output : σ) : Prop :=
  (∃ time, Listed keys writerKeys start events call output time) ∨
  ∃ lister listed stored looked, keys lister = keys call ∧ Stored keys writerKeys start events lister output listed stored ∧
    Takes keys writerKeys start events call .lookup looked ∧ stored ≤ looked.now ∧ looked.now < stored + snapshotTtl

theorem Recent.concat {call : ι} {output : σ} (recent : Recent keys writerKeys start events call output) :
    Recent keys writerKeys start (events ++ [event]) call output := by
  rcases recent with ⟨time, listed⟩ | ⟨lister, listed, stored, looked, same, found, takes, rest⟩
  · exact .inl ⟨time, listed.concat⟩
  · exact .inr ⟨lister, listed, stored, looked, same, found.concat, takes.concat, rest⟩

structure Sourced (keys : ι → κ) (writerKeys : ω → κ) (start : ListingState σ κ ι ω) (events : List (ListingEvent σ κ ι ω))
    (state : ListingState σ κ ι ω) : Prop where
  entries : ∀ key entry, state.snapshotCache key = some entry → entry.inserted ≤ state.now ∧
    ∃ lister listed, keys lister = key ∧ Stored keys writerKeys start events lister entry.output listed entry.inserted
  holding : ∀ call output, state.reads call = .insert output →
    ∃ time, time ≤ state.now ∧ Listed keys writerKeys start events call output time
  answered : ∀ call output, state.reads call = .returned (.ok output) → Recent keys writerKeys start events call output

private theorem Sourced.step (sourced : Sourced keys writerKeys start before state)
    (executed : run (listingStep keys writerKeys) start before = some state)
    (taken : listingStep keys writerKeys state event = some next) : Sourced keys writerKeys start (before ++ [event]) next where
  entries := by
    intro key entry found
    have move := listingStep_move taken
    rcases entry_cases move found with earlier | ⟨call, answer, rfl, rfl, at_pc, now⟩
    · obtain ⟨old, lister, listed, same, stored⟩ := sourced.entries key entry earlier
      exact ⟨old.trans move.now_le, lister, listed, same, stored.concat⟩
    · obtain ⟨time, order, listed⟩ := sourced.holding call entry.output at_pc
      rw [now]
      exact ⟨move.now_le, call, time, rfl, listed.concat, order, state, .last executed taken at_pc, rfl⟩
  holding := by
    intro call output holds
    have move := listingStep_move taken
    rcases reads_cases move holds rfl with earlier | ⟨answer, rfl, ⟨same, at_pc⟩ | ⟨other, equal, -⟩⟩
    · obtain ⟨time, order, listed⟩ := sourced.holding call output earlier
      exact ⟨time, order.trans move.now_le, listed.concat⟩
    · cases same
      exact ⟨state.now, move.now_le, state, .last executed taken at_pc, rfl, rfl⟩
    · cases equal
  answered := by
    intro call output returned
    have move := listingStep_move taken
    rcases reads_cases move returned rfl with earlier | ⟨answer, rfl, ⟨equal, -⟩ | ⟨other, equal, found⟩⟩
    · exact (sourced.answered call output earlier).concat
    · cases equal
    · cases equal
      rcases found with ⟨at_pc, cached⟩ | at_pc
      · obtain ⟨inserted, entry, young⟩ := cached_some cached
        obtain ⟨old, lister, listed, same, stored⟩ := sourced.entries (keys call) _ entry
        exact .inr ⟨lister, listed, inserted, state, same, stored.concat, .last executed taken at_pc, old, young⟩
      · obtain ⟨time, -, listed⟩ := sourced.holding call output at_pc
        exact .inl ⟨time, listed.concat⟩

/-- Every listing a client gets is what the repository held at one moment: when its own
request listed it, or when another request for the same key did, which stored it at most
the lifetime of an entry before it was looked up. -/
theorem answers_are_recent (keys : ι → κ) (writerKeys : ω → κ) (repository : σ) (events : List (ListingEvent σ κ ι ω))
    (final : ListingState σ κ ι ω) (executed : run (listingStep keys writerKeys) (listingStart repository) events = some final)
    (call : ι) (output : σ) (answered : final.reads call = .returned (.ok output)) :
    Recent keys writerKeys (listingStart repository) events call output := by
  have sourced : Sourced keys writerKeys (listingStart repository) events final := by
    apply run_history (fun events state => Sourced keys writerKeys (listingStart repository) events state) _ _ executed
    · exact ⟨nofun, nofun, nofun⟩
    · intro before state event next reached kept taken
      exact kept.step reached taken
  exact sourced.answered call output answered

/-- One client lists and stores; four seconds later another gets that listing, although the
repository has changed. -/
def staleListing : List (ListingEvent Bool Unit Bool Unit) :=
  List.replicate 6 (.read false {}) ++ [.change true, .elapse 4000] ++ List.replicate 3 (.read true {})

theorem four_seconds_old : ∃ final,
    run (listingStep (fun _ => ()) fun _ => ()) (listingStart false) staleListing = some final ∧
    final.reads true = .returned (.ok false) ∧ final.repository = true ∧
    Recent (fun _ => ()) (fun _ => ()) (listingStart false) staleListing true false :=
  ⟨_, rfl, rfl, rfl, answers_are_recent (fun _ => ()) (fun _ => ()) false staleListing _ rfl true false rfl⟩

/-! ### After an invalidation -/

/-- A request with the key held `output` when the run began, or has listed it since. -/
def Since (keys : ι → κ) (writerKeys : ω → κ) (start : ListingState σ κ ι ω) (events : List (ListingEvent σ κ ι ω)) (key : κ)
    (output : σ) : Prop :=
  ∃ lister, keys lister = key ∧
    (start.reads lister = .insert output ∨ ∃ time, Listed keys writerKeys start events lister output time)

theorem Since.concat {key : κ} {output : σ} (since : Since keys writerKeys start events key output) :
    Since keys writerKeys start (events ++ [event]) key output := by
  obtain ⟨lister, same, held | ⟨time, listed⟩⟩ := since
  · exact ⟨lister, same, .inl held⟩
  · exact ⟨lister, same, .inr ⟨time, listed.concat⟩⟩

structure Renewed (keys : ι → κ) (writerKeys : ω → κ) (key : κ) (start : ListingState σ κ ι ω)
    (events : List (ListingEvent σ κ ι ω)) (state : ListingState σ κ ι ω) : Prop where
  entries : ∀ entry, state.snapshotCache key = some entry → Since keys writerKeys start events key entry.output
  holding : ∀ call output, keys call = key → state.reads call = .insert output →
    Since keys writerKeys start events key output
  answered : ∀ call output, keys call = key → state.reads call = .returned (.ok output) →
    start.reads call = .returned (.ok output) ∨ Since keys writerKeys start events key output

private theorem Renewed.step {key : κ} (renewed : Renewed keys writerKeys key start before state)
    (executed : run (listingStep keys writerKeys) start before = some state)
    (taken : listingStep keys writerKeys state event = some next) : Renewed keys writerKeys key start (before ++ [event]) next where
  entries := by
    intro entry found
    rcases entry_cases (listingStep_move taken) found with earlier | ⟨call, answer, rfl, same, at_pc, -⟩
    · exact (renewed.entries entry earlier).concat
    · exact (renewed.holding call entry.output same at_pc).concat
  holding := by
    intro call output same holds
    rcases reads_cases (listingStep_move taken) holds rfl with earlier | ⟨answer, rfl, ⟨equal, at_pc⟩ | ⟨other, equal, -⟩⟩
    · exact (renewed.holding call output same earlier).concat
    · cases equal
      exact ⟨call, same, .inr ⟨state.now, state, .last executed taken at_pc, rfl, rfl⟩⟩
    · cases equal
  answered := by
    intro call output same returned
    rcases reads_cases (listingStep_move taken) returned rfl with earlier | ⟨answer, rfl, ⟨equal, -⟩ | ⟨other, equal, found⟩⟩
    · exact (renewed.answered call output same earlier).imp_right Since.concat
    · cases equal
    · cases equal
      rcases found with ⟨-, cached⟩ | at_pc
      · obtain ⟨inserted, entry, -⟩ := cached_some cached
        rw [same] at entry
        exact .inr (renewed.entries _ entry).concat
      · exact .inr (renewed.holding call output same at_pc).concat

/-- A request that changes the snapshots invalidates their listing before it returns. What
a client is answered from then on was listed after the invalidation, or by a request that
already held its listing and had not stored it yet. -/
theorem answers_follow_invalidation (keys : ι → κ) (writerKeys : ω → κ) (state next final : ListingState σ κ ι ω) (request : ω)
    (fails : Bool) (events : List (ListingEvent σ κ ι ω)) (invalidates : state.writers request = .invalidate)
    (taken : listingStep keys writerKeys state (.write request fails) = some next)
    (executed : run (listingStep keys writerKeys) next events = some final) (call : ι) (output : σ)
    (same : keys call = writerKeys request) (pending : ∀ answer, state.reads call ≠ .returned answer)
    (answered : final.reads call = .returned (.ok output)) :
    ∃ lister, keys lister = writerKeys request ∧
      (state.reads lister = .insert output ∨ ∃ time, Listed keys writerKeys next events lister output time) := by
  simp only [listingStep, invalidates, invalidating] at taken
  have emptied : next.snapshotCache (writerKeys request) = none := by
    cases taken
    simp
  have stays : next.reads = state.reads := by
    cases taken
    rfl
  rw [← stays] at pending ⊢
  have renewed : Renewed keys writerKeys (writerKeys request) next events final := by
    apply run_history (fun events state => Renewed keys writerKeys (writerKeys request) next events state) _ _ executed
    · refine ⟨?_, ?_, ?_⟩
      · intro entry found
        rw [emptied] at found
        cases found
      · intro holder held keyed holds
        exact ⟨holder, keyed, .inl holds⟩
      · intro reader read keyed returned
        exact .inl returned
    · intro before state event next reached kept taken
      exact kept.step reached taken
  rcases renewed.answered call output same answered with early | since
  · exact absurd early (pending _)
  · exact since

/-- A listing is stored, and a backup is started before it invalidates. -/
def storedBefore : List (ListingEvent Bool Unit Bool Unit) :=
  List.replicate 6 (.read false {}) ++ [.write () false, .write () false, .change true]

theorem second_client_lists : ∃ state next final,
    run (listingStep (fun _ => ()) fun _ => ()) (listingStart false) storedBefore = some state ∧
    state.snapshotCache () = some ⟨false, 0⟩ ∧
    listingStep (fun _ => ()) (fun _ => ()) state (.write () false) = some next ∧
    run (listingStep (fun _ => ()) fun _ => ()) next (List.replicate 6 (.read true {})) = some final ∧
    final.reads true = .returned (.ok true) ∧
    ∃ lister, () = () ∧ (state.reads lister = .insert true ∨
      ∃ time, Listed (fun _ => ()) (fun _ => ()) next (List.replicate 6 (.read true {})) lister true time) :=
  ⟨_, _, _, rfl, rfl, rfl, rfl, rfl, answers_follow_invalidation (fun _ => ()) (fun _ => ()) _ _ _ () false
    (List.replicate 6 (.read true {})) rfl rfl rfl true true rfl (by intro answer equal; cases equal) rfl⟩

end Vaulton.Proofs.SnapshotCache
