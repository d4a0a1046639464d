import Vaulton.Proofs.Paths

/-! The names that `normalize_vfs_users` gives. Each is free when it is given and stays
taken, so a later suffix or request cannot meet it; the counter is only reached when all
prefixes of the id are taken, and ends because the names are finitely many. -/

namespace Vaulton.Proofs.PointNames
open Vaulton.Config Vaulton.Paths Vaulton.Proofs.Config Vaulton.Proofs.Paths

variable {username : Text} {names after : Names} {point result : VfsPoint}

/-- A name that may be stored: one path segment without control characters. -/
structure LegalName (name : Text) : Prop where
  nonempty : name ≠ []
  notDot : name ≠ ".".toList
  notDotDot : name ≠ "..".toList
  noSlash : '/' ∉ name
  noBackslash : '\\' ∉ name
  noControl : ∀ c ∈ name, isControl c = false

theorem legalName_of_checked (checked : checkPoint username point = .ok ()) : LegalName point.name := by
  have plain := checkPoint_plain checked
  refine ⟨plain.nonempty, plain.notDot, plain.notDotDot, plain.noSlash, plain.noBackslash, ?_⟩
  intro c member
  by_contra control
  rw [Bool.not_eq_false] at control
  have illegal : point.name.any illegalChar = true := by
    apply List.any_eq_true.mpr
    exact ⟨c, member, by rw [illegalChar, control, Bool.or_true]⟩
  have rejected : point.name = ".".toList ∨ point.name = "..".toList ∨ point.name.any illegalChar = true :=
    .inr (.inr illegal)
  unfold checkPoint at checked
  rw [if_pos rejected] at checked
  split at checked
  · cases checked
  · split at checked
    · cases checked
    · split at checked
      · cases checked
      · cases checked

theorem LegalName.not_illegal {name : Text} (legal : LegalName name) : ¬name.any illegalChar = true := by
  intro illegal
  obtain ⟨c, member, bad⟩ := List.any_eq_true.mp illegal
  simp only [illegalChar, Bool.or_eq_true, beq_iff_eq] at bad
  rcases bad with (slash | backslash) | control
  · exact legal.noSlash (slash ▸ member)
  · exact legal.noBackslash (backslash ▸ member)
  · rw [legal.noControl c member] at control
    cases control

theorem checkPoint_renamed (checked : checkPoint username point = .ok ()) {name : Text} (legal : LegalName name) :
    checkPoint username { point with name := name } = .ok () := by
  have accepted : ¬(name = ".".toList ∨ name = "..".toList ∨ name.any illegalChar = true) := by
    intro rejected
    rcases rejected with dot | dots | illegal
    · exact legal.notDot dot
    · exact legal.notDotDot dots
    · exact legal.not_illegal illegal
  unfold checkPoint at checked ⊢
  rw [if_neg legal.nonempty, if_neg accepted]
  split at checked
  · cases checked
  · split at checked
    · cases checked
    next some_password =>
      rw [if_neg some_password]
      split at checked
      · cases checked
      next filled => rw [if_neg filled]

/-! ### Suffixes -/

theorem hexDigit_legal (value : Nat) : illegalChar (hexDigit value) = false := by
  have digits : ∀ c ∈ "0123456789abcdef".toList, illegalChar c = false := by simp [illegalChar, isControl]
  unfold hexDigit
  split
  next digit found => exact digits digit (List.mem_of_getElem? found)
  next => rfl

theorem decimal_legal {value : Nat} {c : Char} (member : c ∈ Nat.toDigits 10 value) : illegalChar c = false := by
  have digit := Nat.isDigit_of_mem_toDigits (by omega) (by omega) member
  have plain := decimal_plain value c member
  have bounds : 48 ≤ c.toNat ∧ c.toNat ≤ 57 := by
    simp only [Char.isDigit, Bool.and_eq_true, decide_eq_true_eq] at digit
    exact ⟨UInt32.le_iff_toNat_le.mp digit.1, UInt32.le_iff_toNat_le.mp digit.2⟩
  simp only [illegalChar, isControl, Bool.or_eq_false_iff, beq_eq_false_iff_ne, Bool.and_eq_false_iff,
    decide_eq_false_iff_not]
  exact ⟨plain, by omega, .inl (by omega)⟩

/-- What is put after the name and a hyphen. -/
def LegalSuffix (suffix : Text) : Prop := ∀ c ∈ suffix, illegalChar c = false

theorem simple_legal (id : Uuid) : LegalSuffix id.simple := by
  intro c member
  obtain ⟨index, -, rfl⟩ := List.mem_map.mp member
  exact hexDigit_legal _

theorem countedName_suffixed {taken : Text → Bool} {base candidate : Text} {fuel suffix : Nat}
    (found : countedName taken base fuel suffix = some candidate) :
    ∃ digits, candidate = base ++ '-' :: digits ∧ LegalSuffix digits := by
  induction fuel generalizing suffix with
  | zero => cases found
  | succ fuel ih =>
    simp only [countedName] at found
    split at found
    · exact ih found
    · cases found
      exact ⟨_, rfl, fun c member => decimal_legal member⟩

theorem assignName_suffixed {taken : Text → Bool} {fuel : Nat} {name candidate : Text} {id : Uuid}
    (found : assignName taken fuel name id = some candidate) :
    ∃ suffix, candidate = name ++ '-' :: suffix ∧ LegalSuffix suffix := by
  unfold assignName at found
  split at found
  next chosen first =>
    cases found
    obtain ⟨length, -, rfl⟩ := List.mem_map.mp (List.mem_of_find?_eq_some first)
    refine ⟨_, rfl, ?_⟩
    intro c member
    exact simple_legal id c (List.mem_of_mem_take member)
  next =>
    obtain ⟨digits, rfl, legal⟩ := countedName_suffixed found
    refine ⟨id.simple ++ '-' :: digits, by rw [List.append_assoc, List.cons_append], ?_⟩
    intro c member
    rcases List.mem_append.mp member with inside | rest
    · exact simple_legal id c inside
    · rcases List.mem_cons.mp rest with rfl | inside
      · rfl
      · exact legal c inside

theorem LegalName.suffixed {name suffix : Text} (legal : LegalName name) (chars : LegalSuffix suffix) :
    LegalName (name ++ '-' :: suffix) := by
  have plain : PlainSegment (name ++ '-' :: suffix) := by
    apply PlainSegment.suffixed ⟨legal.nonempty, legal.noSlash, legal.noBackslash, legal.notDot, legal.notDotDot⟩
    intro c member
    have allowed := chars c member
    simp only [illegalChar, Bool.or_eq_false_iff, beq_eq_false_iff_ne] at allowed
    exact allowed.1
  refine ⟨plain.nonempty, plain.notDot, plain.notDotDot, plain.noSlash, plain.noBackslash, ?_⟩
  intro c member
  rcases List.mem_append.mp member with inside | rest
  · exact legal.noControl c inside
  · rcases List.mem_cons.mp rest with rfl | inside
    · rfl
    · have allowed := chars c inside
      rw [illegalChar, Bool.or_eq_false_iff] at allowed
      exact allowed.2

/-! ### The loops end -/

theorem toDigits_injective {first second : Nat} (same : Nat.toDigits 10 first = Nat.toDigits 10 second) : first = second := by
  rw [← Nat.ofDigitChars_ten_toDigits (n := first), same, Nat.ofDigitChars_ten_toDigits]

theorem countedName_none {taken : Text → Bool} {base : Text} {fuel suffix : Nat}
    (gave_up : countedName taken base fuel suffix = none) :
    ∀ turn < fuel, taken (base ++ '-' :: Nat.toDigits 10 (suffix + turn)) = true := by
  induction fuel generalizing suffix with
  | zero =>
    intro turn impossible
    omega
  | succ fuel ih =>
    simp only [countedName] at gave_up
    split at gave_up
    next first_taken =>
      intro turn bound
      cases turn with
      | zero => exact first_taken
      | succ turn =>
        rw [show suffix + (turn + 1) = suffix + 1 + turn by omega]
        exact ih gave_up turn (by omega)
    next => cases gave_up

theorem countedName_mono {taken : Text → Bool} {base candidate : Text} {fuel more suffix : Nat}
    (found : countedName taken base fuel suffix = some candidate) (le : fuel ≤ more) :
    countedName taken base more suffix = some candidate := by
  induction fuel generalizing more suffix with
  | zero => cases found
  | succ fuel ih =>
    obtain ⟨more, rfl⟩ : ∃ rest, more = rest + 1 := ⟨more - 1, by omega⟩
    simp only [countedName] at found ⊢
    split at found
    next first_taken =>
      rw [if_pos first_taken]
      exact ih found (by omega)
    next first_free =>
      rw [if_neg first_free]
      exact found

theorem countedName_some {taken : Text → Bool} {known : List Text} (covered : ∀ name, taken name = true → name ∈ known)
    (base : Text) (suffix : Nat) : ∃ candidate, countedName taken base (known.length + 1) suffix = some candidate := by
  cases found : countedName taken base (known.length + 1) suffix with
  | some candidate => exact ⟨candidate, rfl⟩
  | none =>
    -- More candidates than names: two of them would be the same.
    let tried := (List.range (known.length + 1)).map fun turn => base ++ '-' :: Nat.toDigits 10 (suffix + turn)
    have distinct : tried.Nodup := by
      apply List.Nodup.map _ List.nodup_range
      intro first second same
      have digits := List.append_cancel_left same
      have numbers := toDigits_injective (List.cons.inj digits).2
      omega
    have inside : tried ⊆ known := by
      intro name member
      obtain ⟨turn, bound, rfl⟩ := List.mem_map.mp member
      exact covered _ (countedName_none found turn (List.mem_range.mp bound))
    have lengths := (List.subperm_of_subset distinct inside).length_le
    rw [List.length_map, List.length_range] at lengths
    omega

/-- A name is found, and the same one however many turns the counter may take. -/
theorem assignName_ends (names : Names) (isRepo : Bool) (name : Text) (id : Uuid) : ∃ candidate, ∀ fuel > names.length,
    assignName (fun candidate => decide ((isRepo, candidate) ∈ names)) fuel name id = some candidate := by
  unfold assignName
  split
  next chosen _ => exact ⟨chosen, fun _ _ => rfl⟩
  next =>
    have covered : ∀ candidate, decide ((isRepo, candidate) ∈ names) = true → candidate ∈ names.map Prod.snd := by
      intro candidate taken
      exact List.mem_map.mpr ⟨_, of_decide_eq_true taken, rfl⟩
    obtain ⟨candidate, found⟩ := countedName_some covered (name ++ '-' :: id.simple) 2
    rw [List.length_map] at found
    exact ⟨candidate, fun fuel enough => countedName_mono found enough⟩

/-! ### One point -/

theorem normalizePoint_legal (accepted : normalizePoint username names point = .ok (after, result)) :
    LegalName result.name ∧ checkPoint username result = .ok () := by
  unfold normalizePoint at accepted
  obtain ⟨⟨⟩, checked, rest⟩ := bind_eq_ok.mp accepted
  have legal := legalName_of_checked checked
  split at rest
  · cases rest
    exact ⟨legal, checked⟩
  · split at rest
    next assigned found =>
      cases rest
      obtain ⟨suffix, rfl, chars⟩ := assignName_suffixed found
      have suffixed := legal.suffixed chars
      exact ⟨suffixed, checkPoint_renamed checked suffixed⟩
    next => cases rest

theorem normalizePoint_free (checked : checkPoint username point = .ok ()) (fresh : VfsPoint.key point ∉ names) :
    normalizePoint username names point = .ok (VfsPoint.key point :: names, point) := by
  rw [normalizePoint, checked]
  exact if_pos fresh

theorem normalizePoint_again (accepted : normalizePoint username names point = .ok (after, result)) :
    normalizePoint username names result = .ok (after, result) := by
  obtain ⟨rfl, fresh, _, _⟩ := normalizePoint_spec accepted
  exact normalizePoint_free (normalizePoint_legal accepted).2 fresh

theorem normalizePoint_checked (accepted : normalizePoint username names point = .ok (after, result)) :
    checkPoint username point = .ok () := by
  obtain ⟨⟨⟩, checked, _⟩ := bind_eq_ok.mp accepted
  exact checked

theorem normalizePoint_kept (accepted : normalizePoint username names point = .ok (after, result))
    (fresh : VfsPoint.key point ∉ names) : result = point := by
  rw [normalizePoint_free (normalizePoint_checked accepted) fresh] at accepted
  cases accepted
  rfl

/-! ### The points of a user -/

variable {points results : List VfsPoint}

theorem normalizePoints_unchanged (accepted : normalizePoints username names points = .ok results) :
    List.Forall₂ (fun point result => result = { point with name := result.name }) points results := by
  induction points generalizing names results with
  | nil =>
    cases accepted
    exact .nil
  | cons point rest ih =>
    obtain ⟨result, tail, rfl, first, second⟩ := normalizePoints_cons accepted
    obtain ⟨_, _, _, unchanged⟩ := normalizePoint_spec first
    exact .cons unchanged (ih second)

theorem normalizePoints_legal (accepted : normalizePoints username names points = .ok results) :
    ∀ result ∈ results, LegalName result.name := by
  induction points generalizing names results with
  | nil =>
    cases accepted
    intro result member
    cases member
  | cons point rest ih =>
    obtain ⟨result, tail, rfl, first, second⟩ := normalizePoints_cons accepted
    intro other member
    rcases List.mem_cons.mp member with rfl | inside
    · exact (normalizePoint_legal first).1
    · exact ih second other inside

theorem normalizePoints_again (accepted : normalizePoints username names points = .ok results) :
    normalizePoints username names results = .ok results := by
  induction points generalizing names results with
  | nil =>
    cases accepted
    rfl
  | cons point rest ih =>
    obtain ⟨result, tail, rfl, first, second⟩ := normalizePoints_cons accepted
    have later : (normalizePoints username (VfsPoint.key result :: names) tail >>= fun rest => pure (result :: rest)) =
        .ok (result :: tail) := bind_eq_ok.mpr ⟨tail, ih second, rfl⟩
    exact bind_eq_ok.mpr ⟨_, normalizePoint_again first, later⟩

theorem normalizePoints_kept (accepted : normalizePoints username names points = .ok results) {index : Nat} {result : VfsPoint}
    (requested : points[index]? = some point) (named : results[index]? = some result) (free : VfsPoint.key point ∉ names)
    (earlier : ∀ other ∈ results.take index, VfsPoint.key other ≠ VfsPoint.key point) : result = point := by
  induction points generalizing names results index with
  | nil => cases requested
  | cons head rest ih =>
    obtain ⟨normalized, tail, rfl, first, second⟩ := normalizePoints_cons accepted
    cases index with
    | zero =>
      cases requested
      cases named
      exact normalizePoint_kept first free
    | succ index =>
      have apart : VfsPoint.key normalized ≠ VfsPoint.key point := earlier normalized List.mem_cons_self
      apply ih second requested named
      · intro taken
        rcases List.mem_cons.mp taken with same | old
        · exact apart same.symm
        · exact free old
      · intro other member
        exact earlier other (List.mem_cons_of_mem _ member)

/-! ### Ids -/

theorem checkPointId_transfer {other : Text} {seen seen' next : List (Uuid × Text × Text)} {point' : VfsPoint}
    (accepted : checkPointId username seen point = .ok next) (same : point'.id = point.id)
    (same_seen : seen'.map Prod.fst = seen.map Prod.fst) :
    ∃ next', checkPointId other seen' point' = .ok next' ∧ next'.map Prod.fst = next.map Prod.fst := by
  obtain ⟨ids, fresh⟩ := checkPointId_ok accepted
  have absent : (seen'.find? fun entry => entry.1 = point'.id) = none := by
    rw [List.find?_eq_none]
    intro entry member matching
    apply fresh
    rw [← same_seen, ← same]
    exact List.mem_map.mpr ⟨entry, member, of_decide_eq_true matching⟩
  have proper : ¬point'.id = 0 := by
    intro nil_id
    rw [checkPointId, if_pos (same ▸ nil_id)] at accepted
    cases accepted
  refine ⟨(point'.id, other, point'.name) :: seen', ?_, ?_⟩
  · rw [checkPointId, if_neg proper, absent]
  · rw [ids, List.map_cons, same_seen, same]

theorem checkPointIds_transfer {other : Text} {seen seen' next : List (Uuid × Text × Text)}
    (accepted : points.foldlM (checkPointId username) seen = .ok next)
    (same : results.map VfsPoint.id = points.map VfsPoint.id) (same_seen : seen'.map Prod.fst = seen.map Prod.fst) :
    ∃ next', results.foldlM (checkPointId other) seen' = .ok next' ∧ next'.map Prod.fst = next.map Prod.fst := by
  induction points generalizing seen seen' results with
  | nil =>
    cases accepted
    obtain rfl := List.map_eq_nil_iff.mp same
    exact ⟨seen', rfl, same_seen⟩
  | cons point rest ih =>
    obtain ⟨result, tail, rfl, same_id, same_rest⟩ := List.map_eq_cons_iff.mp same
    rw [List.foldlM_cons] at accepted
    obtain ⟨between, first, later⟩ := bind_eq_ok.mp accepted
    obtain ⟨between', first', ids⟩ := checkPointId_transfer first same_id same_seen
    obtain ⟨next', later', all⟩ := ih later same_rest ids
    refine ⟨next', ?_, all⟩
    rw [List.foldlM_cons]
    exact bind_eq_ok.mpr ⟨between', first', later'⟩

theorem validatePointIds_transfer {users others : List VfsUser} (accepted : validatePointIds users = .ok ())
    (same : List.Forall₂ (fun user other => other.points.map VfsPoint.id = user.points.map VfsPoint.id) users others) :
    validatePointIds others = .ok () := by
  have checked (seen seen' next : List (Uuid × Text × Text)) (same_seen : seen'.map Prod.fst = seen.map Prod.fst)
      (first : users.foldlM (fun seen user => user.points.foldlM (checkPointId user.username) seen) seen = .ok next) :
      ∃ next', others.foldlM (fun seen user => user.points.foldlM (checkPointId user.username) seen) seen' = .ok next' := by
    clear accepted
    induction same generalizing seen seen' with
    | nil => exact ⟨seen', rfl⟩
    | cons ids _ ih =>
      rw [List.foldlM_cons] at first
      obtain ⟨between, inner, later⟩ := bind_eq_ok.mp first
      obtain ⟨between', inner', same_between⟩ := checkPointIds_transfer inner ids same_seen
      obtain ⟨next', later'⟩ := ih between between' same_between later
      refine ⟨next', ?_⟩
      rw [List.foldlM_cons]
      exact bind_eq_ok.mpr ⟨between', inner', later'⟩
  obtain ⟨next, folded, _⟩ := bind_eq_ok.mp accepted
  obtain ⟨next', folded'⟩ := checked [] [] next rfl folded
  exact bind_eq_ok.mpr ⟨next', folded', rfl⟩

/-! ### All users -/

/-- What normalisation makes of one user. -/
structure NamesPoints (user result : VfsUser) : Prop where
  username : result.username = user.username
  unchanged : List.Forall₂ (fun point named => named = { point with name := named.name }) user.points result.points
  legal : ∀ point ∈ result.points, LegalName point.name
  distinct : ∀ isRepo, ((result.points.filter fun point => point.isRepo = isRepo).map VfsPoint.name).Nodup
  /-- Unless a point of its kind before it was given the name. -/
  kept : ∀ (index : Nat) (point named : VfsPoint), user.points[index]? = some point → result.points[index]? = some named →
    (∀ earlier ∈ result.points.take index, earlier.isRepo = point.isRepo → earlier.name ≠ point.name) → named.name = point.name
  mounted : ∀ {μ : Type} (operator : VfsPoint → μ) (chosen : List VfsPoint), chosen.Nodup →
    (∀ point ∈ chosen, point ∈ result.points) → ∃ mounts, buildMounts (pendingMounts operator chosen) [] = .ok mounts

theorem namesPoints_of_normalized {user : VfsUser} (accepted : normalizePoints user.username [] user.points = .ok results) :
    NamesPoints user { user with points := results } := by
  obtain ⟨valid, apart⟩ := normalizePoints_spec accepted
  have named : NamedPoints { user with points := results } := ⟨fun point member => (valid point member).1, apart⟩
  refine ⟨rfl, normalizePoints_unchanged accepted, normalizePoints_legal accepted, ?_, ?_, ?_⟩
  · intro isRepo
    apply List.Nodup.map_on _ (named.distinct.of_map.filter _)
    intro first first_mem second second_mem same
    obtain ⟨first_in, first_kind⟩ := List.mem_filter.mp first_mem
    obtain ⟨second_in, second_kind⟩ := List.mem_filter.mp second_mem
    have kinds : first.isRepo = second.isRepo := (of_decide_eq_true first_kind).trans (of_decide_eq_true second_kind).symm
    exact key_injective named first_in second_in (Prod.ext kinds same)
  · intro index point result requested given earlier
    rw [normalizePoints_kept accepted requested given List.not_mem_nil]
    intro other member same
    exact earlier other member (Prod.mk.inj same).1 (Prod.mk.inj same).2
  · intro μ operator chosen once inside
    obtain ⟨mounts, built, _⟩ := buildMounts_chosen named operator once inside
    exact ⟨mounts, built⟩

variable {usernames : List Text} {users normalized : List VfsUser}

theorem normalizeUsers_named (accepted : normalizeUsers usernames users = .ok normalized) :
    List.Forall₂ NamesPoints users normalized := by
  induction users generalizing usernames normalized with
  | nil =>
    cases accepted
    exact .nil
  | cons user rest ih =>
    obtain ⟨results, tail, rfl, _, _, first, second⟩ := normalizeUsers_cons accepted
    exact .cons (namesPoints_of_normalized first) (ih second)

theorem normalizeUsers_same_ids (accepted : normalizeUsers usernames users = .ok normalized) :
    List.Forall₂ (fun user result => result.points.map VfsPoint.id = user.points.map VfsPoint.id) users normalized := by
  induction users generalizing usernames normalized with
  | nil =>
    cases accepted
    exact .nil
  | cons user rest ih =>
    obtain ⟨results, tail, rfl, _, _, first, second⟩ := normalizeUsers_cons accepted
    exact .cons (normalizePoints_ids first) (ih second)

theorem normalizeUsers_again (accepted : normalizeUsers usernames users = .ok normalized) :
    normalizeUsers usernames normalized = .ok normalized := by
  induction users generalizing usernames normalized with
  | nil =>
    cases accepted
    rfl
  | cons user rest ih =>
    obtain ⟨results, tail, rfl, valid, fresh, first, second⟩ := normalizeUsers_cons accepted
    rw [normalizeUsers]
    apply bind_eq_ok.mpr
    refine ⟨(), valid, ?_⟩
    rw [if_neg fresh]
    apply bind_eq_ok.mpr
    refine ⟨results, normalizePoints_again first, ?_⟩
    exact bind_eq_ok.mpr ⟨tail, ih second, rfl⟩

/-- Normalisation ends, renames what it has to and nothing else, and is done after one time. -/
theorem normalization_names_points (users normalized : List VfsUser) (accepted : normalizeVfsUsers users = .ok normalized) :
    (∀ (names : Names) (isRepo : Bool) (name : Text) (id : Uuid), ∃ candidate, ∀ fuel > names.length,
        assignName (fun candidate => decide ((isRepo, candidate) ∈ names)) fuel name id = some candidate) ∧
      List.Forall₂ NamesPoints users normalized ∧ normalizeVfsUsers normalized = .ok normalized := by
  obtain ⟨⟨⟩, checked, renamed⟩ := bind_eq_ok.mp accepted
  refine ⟨assignName_ends, normalizeUsers_named renamed, ?_⟩
  exact bind_eq_ok.mpr ⟨(), validatePointIds_transfer checked (normalizeUsers_same_ids renamed), normalizeUsers_again renamed⟩

/-! ### A run -/

def dataPoint (id : Uuid) (name : String) : VfsPoint := ⟨id, name.toList, none, false, "fs".toList, [], false, none⟩

/-- The second point is renamed to what the third one asks for. -/
def docs : List VfsUser := [⟨"alice".toList, [dataPoint 1 "docs", dataPoint 2 "docs", dataPoint 3 "docs-00000000"]⟩]

def docsNamed : List VfsUser :=
  [⟨"alice".toList, [dataPoint 1 "docs", dataPoint 2 "docs-00000000", dataPoint 3 "docs-00000000-00000000"]⟩]

theorem docs_normalized : normalizeVfsUsers docs = .ok docsNamed := by decide +kernel

theorem docs_are_told_apart : List.Forall₂ NamesPoints docs docsNamed ∧ normalizeVfsUsers docsNamed = .ok docsNamed :=
  (normalization_names_points docs docsNamed docs_normalized).2

end Vaulton.Proofs.PointNames
