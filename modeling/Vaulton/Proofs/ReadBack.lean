import Mathlib.Data.List.Perm.Basic
import Mathlib.Data.Char
import Vaulton.Reconfiguration

/-! A point read through GetVfs and sent back unchanged. The root is moved out of the options
and in again; an empty root under its key is the one thing that does not come back. -/

namespace Vaulton.Proofs.ReadBack
open Vaulton.Config Vaulton.DataOps Vaulton.Reconfiguration

variable {parseUuid : Text → Option Uuid} {message : ProtoVfsPoint} {point : VfsPoint}

def rootKey : Text := "root".toList

/-- The storage that a message describes. -/
def source (message : ProtoVfsPoint) : Option ProtoPoint :=
  match message.src with
  | some (.data source) => some source
  | some (.repo source _) => source
  | none => none

/-- The root is given as an option, and it is empty. -/
def EmptyRootOption (message : ProtoVfsPoint) : Prop :=
  ∃ point, source message = some point ∧ point.root = [] ∧ (rootKey, []) ∈ point.config

/-! ### Option maps -/

/-- A map of options, listed by its keys. -/
structure OptionMap (config : List (Text × Text)) : Prop where
  distinct : (config.map Prod.fst).Nodup
  sorted : config.Pairwise fun first second => first.1 ≤ second.1

theorem OptionMap.unique {config : List (Text × Text)} (options : OptionMap config) {key first second : Text}
    (first_mem : (key, first) ∈ config) (second_mem : (key, second) ∈ config) : first = second := by
  have same := List.inj_on_of_nodup_map options.distinct first_mem second_mem rfl
  exact (Prod.mk.inj same).2

theorem OptionMap.ext {first second : List (Text × Text)} (options : OptionMap first) (others : OptionMap second)
    (same : ∀ option, option ∈ first ↔ option ∈ second) : first = second := by
  have perm : first.Perm second :=
    (List.perm_ext_iff_of_nodup options.distinct.of_map others.distinct.of_map).mpr same
  apply perm.eq_of_pairwise _ options.sorted others.sorted
  intro a b a_mem b_mem le ge
  have keys : a.1 = b.1 := le_antisymm le ge
  exact List.inj_on_of_nodup_map others.distinct ((same a).mp a_mem) b_mem keys

theorem insertionSort_optionMap {config : List (Text × Text)} (distinct : (config.map Prod.fst).Nodup) :
    OptionMap (config.insertionSort fun first second => first.1 ≤ second.1) := by
  constructor
  · exact ((List.perm_insertionSort _ config).map Prod.fst).nodup_iff.mpr distinct
  · have total : Std.Total fun first second : Text × Text => first.1 ≤ second.1 :=
      ⟨fun first second => le_total first.1 second.1⟩
    have trans : IsTrans (Text × Text) fun first second => first.1 ≤ second.1 :=
      ⟨fun _ _ _ le next => le_trans le next⟩
    exact List.pairwise_insertionSort _ config

theorem filter_root_distinct {config : List (Text × Text)} (distinct : (config.map Prod.fst).Nodup) (root : Text) :
    (((rootKey, root) :: config.filter fun option => option.1 ≠ rootKey).map Prod.fst).Nodup := by
  rw [List.map_cons, List.nodup_cons]
  constructor
  · intro member
    obtain ⟨option, kept, same⟩ := List.mem_map.mp member
    have other := (List.mem_filter.mp kept).2
    simp only [same, ne_eq, not_true_eq_false, decide_false, Bool.false_eq_true] at other
  · exact distinct.sublist (List.filter_sublist.map Prod.fst)

theorem options_optionMap (point : ProtoPoint) : OptionMap point.options := by
  unfold ProtoPoint.options
  apply insertionSort_optionMap
  split
  · exact point.distinct
  · exact filter_root_distinct point.distinct point.root

theorem mem_options {point : ProtoPoint} {option : Text × Text} : option ∈ point.options ↔
    if point.root = [] then option ∈ point.config
    else option = (rootKey, point.root) ∨ (option ∈ point.config ∧ option.1 ≠ rootKey) := by
  unfold ProtoPoint.options
  rw [List.mem_insertionSort]
  split
  · rfl
  · rw [List.mem_cons, List.mem_filter, decide_eq_true_eq]
    rfl

theorem empty_root_mem_options (point : ProtoPoint) :
    (rootKey, []) ∈ point.options ↔ point.root = [] ∧ (rootKey, []) ∈ point.config := by
  rw [mem_options]
  split
  next empty =>
    exact ⟨fun member => ⟨empty, member⟩, fun both => both.2⟩
  next filled =>
    constructor
    · intro found
      rcases found with same | ⟨_, other⟩
      · exact absurd (Prod.mk.inj same).2.symm filled
      · exact absurd rfl other
    · intro ⟨empty, _⟩
      exact absurd empty filled

/-! ### There and back -/

theorem ofOptions_root {scheme : Text} {config : List (Text × Text)} (options : OptionMap config) {root : Text}
    (member : (rootKey, root) ∈ config) : (ProtoPoint.ofOptions scheme config options.distinct).root = root := by
  cases found : config.find? fun option => option.1 = "root".toList with
  | none =>
    have absent := List.find?_eq_none.mp found _ member
    exact absurd (decide_eq_true rfl) absent
  | some option =>
    have chosen := List.find?_some found
    have key : option.1 = rootKey := of_decide_eq_true chosen
    have same : option.2 = root := by
      apply options.unique _ member
      rw [← key]
      exact List.mem_of_find?_eq_some found
    rw [ProtoPoint.ofOptions, found]
    exact same

theorem ofOptions_no_root {scheme : Text} {config : List (Text × Text)} (options : OptionMap config)
    (absent : ∀ root, (rootKey, root) ∉ config) : (ProtoPoint.ofOptions scheme config options.distinct).root = [] := by
  have found : (config.find? fun option => option.1 = "root".toList) = none := by
    rw [List.find?_eq_none]
    intro option member key
    apply absent option.2
    rw [show rootKey = option.1 from (of_decide_eq_true key).symm]
    exact member
  rw [ProtoPoint.ofOptions, found]
  rfl

theorem mem_ofOptions_config {scheme : Text} {config : List (Text × Text)} (options : OptionMap config)
    {option : Text × Text} :
    option ∈ (ProtoPoint.ofOptions scheme config options.distinct).config ↔ option ∈ config ∧ option.1 ≠ rootKey := by
  rw [ProtoPoint.ofOptions, List.mem_filter, decide_eq_true_eq]
  rfl

/-- The options come back unless they give an empty root. -/
theorem options_ofOptions_iff (scheme : Text) {config : List (Text × Text)} (options : OptionMap config) :
    (ProtoPoint.ofOptions scheme config options.distinct).options = config ↔ (rootKey, []) ∉ config := by
  constructor
  · intro back member
    rw [← back, empty_root_mem_options] at member
    exact ((mem_ofOptions_config options).mp member.2).2 rfl
  · intro absent
    apply (options_optionMap _).ext options
    intro option
    rw [mem_options, mem_ofOptions_config options]
    by_cases given : ∃ root, (rootKey, root) ∈ config
    · obtain ⟨root, member⟩ := given
      have filled : root ≠ [] := by
        intro empty
        exact absent (empty ▸ member)
      rw [ofOptions_root options member, if_neg filled]
      constructor
      · intro found
        rcases found with same | ⟨⟨kept, _⟩, _⟩
        · rw [same]
          exact member
        · exact kept
      · intro kept
        by_cases key : option.1 = rootKey
        · left
          have same := List.inj_on_of_nodup_map options.distinct kept member key
          exact same
        · exact .inr ⟨⟨kept, key⟩, key⟩
    · have none_given : ∀ root, (rootKey, root) ∉ config := fun root member => given ⟨root, member⟩
      rw [ofOptions_no_root options none_given, if_pos rfl]
      constructor
      · intro both
        exact both.1
      · intro kept
        refine ⟨kept, ?_⟩
        intro key
        apply none_given option.2
        rw [← key]
        exact kept

/-! ### Points -/

/-- What a decoded point takes from its message. -/
structure Decoded (parseUuid : Text → Option Uuid) (message : ProtoVfsPoint) (point : VfsPoint) (storage : ProtoPoint) : Prop where
  described : source message = some storage
  config : point.config = storage.options
  bytes : point.maxBytes ≠ some 0
  data : point.isRepo = false → point.repoPassword = none
  repo : point.isRepo = true → ∃ password, point.repoPassword = some password ∧ validateRepoPassword password = .ok ()

theorem pointTryFrom_decoded (converted : pointTryFrom parseUuid message = .ok point) :
    ∃ storage, Decoded parseUuid message point storage := by
  have bytes : (if message.maxBytes = 0 then none else some message.maxBytes) ≠ some 0 := by
    split
    · intro impossible
      cases impossible
    next positive =>
      intro zero
      exact positive (Option.some.inj zero)
  unfold pointTryFrom at converted
  cases src : message.src with
  | none =>
    rw [src] at converted
    cases converted
  | some kind =>
    cases kind with
    | data storage =>
      cases id : parseUuid message.id with
      | none =>
        rw [src, id] at converted
        cases converted
      | some id' =>
        rw [src, id] at converted
        cases converted
        refine ⟨storage, ?_, rfl, bytes, fun _ => rfl, ?_⟩
        · rw [source, src]
        · intro impossible
          cases impossible
    | repo inner password =>
      cases inner with
      | none =>
        rw [src] at converted
        cases converted
      | some storage =>
        cases valid : validateRepoPassword password with
        | error status =>
          simp only [src, bind, Except.bind, Option.getD_some, valid, if_true] at converted
          cases converted
        | ok _ =>
          cases id : parseUuid message.id with
          | none =>
            simp only [src, bind, Except.bind, Option.getD_some, valid, if_true, id] at converted
            cases converted
          | some id' =>
            simp only [src, bind, Except.bind, Option.getD_some, valid, if_true, id] at converted
            cases converted
            refine ⟨storage, ?_, rfl, bytes, ?_, fun _ => ⟨password, rfl, valid⟩⟩
            · rw [source, src]
            · intro impossible
              cases impossible

theorem decoded_distinct (converted : pointTryFrom parseUuid message = .ok point) : (point.config.map Prod.fst).Nodup := by
  obtain ⟨storage, decoded⟩ := pointTryFrom_decoded converted
  rw [decoded.config]
  exact (options_optionMap storage).distinct

theorem pointTryFrom_protoPointFrom {storage : ProtoPoint} (decoded : Decoded parseUuid message point storage)
    (distinct : (point.config.map Prod.fst).Nodup) (parses : parseUuid point.id.hyphenated = some point.id) :
    pointTryFrom parseUuid (protoPointFrom point distinct) =
      .ok { point with config := (ProtoPoint.ofOptions point.scheme point.config distinct).options } := by
  have bytes : (if point.maxBytes.getD 0 = 0 then none else some (point.maxBytes.getD 0)) = point.maxBytes := by
    cases limit : point.maxBytes with
    | none => rfl
    | some limit' =>
      have positive : limit' ≠ 0 := fun zero => decoded.bytes (limit.trans (congrArg some zero))
      rw [Option.getD_some, if_neg positive]
  unfold pointTryFrom protoPointFrom
  cases kind : point.isRepo with
  | false =>
    simp only [Bool.false_eq_true, if_false, bind, Except.bind, parses, bytes, Bool.not_not, decoded.data kind]
    rfl
  | true =>
    obtain ⟨password, known, valid⟩ := decoded.repo kind
    simp only [if_true, bind, Except.bind, parses, bytes, Bool.not_not, known, Option.getD_some, valid]
    rfl

/-- The point comes back, and whoever stores it again under any name keeps its quota. -/
def ReadBackSame (parseUuid : Text → Option Uuid) (point : VfsPoint) (distinct : (point.config.map Prod.fst).Nodup) : Prop :=
  pointTryFrom parseUuid (protoPointFrom point distinct) = .ok point ∧
    ∀ back, pointTryFrom parseUuid (protoPointFrom point distinct) = .ok back →
      ∀ (username name : Text) (newUser : VfsUser),
        (newUser.points.find? fun other => other.id = point.id) = some { back with name := name } →
          removedQuota username newUser point = none

/-- A point read back is stored as it was, with its quota kept, exactly when it was not
given an empty root among its options. -/
theorem point_read_back_same_iff (parseUuid : Text → Option Uuid) (message : ProtoVfsPoint) (point : VfsPoint)
    (converted : pointTryFrom parseUuid message = .ok point) (parses : parseUuid point.id.hyphenated = some point.id) :
    ReadBackSame parseUuid point (decoded_distinct converted) ↔ ¬EmptyRootOption message := by
  obtain ⟨storage, decoded⟩ := pointTryFrom_decoded converted
  have back := pointTryFrom_protoPointFrom decoded (decoded_distinct converted) parses
  have options : OptionMap point.config := decoded.config ▸ options_optionMap storage
  have empty_iff : EmptyRootOption message ↔ (rootKey, []) ∈ point.config := by
    rw [decoded.config, empty_root_mem_options]
    constructor
    · intro ⟨other, described, empty⟩
      rw [decoded.described] at described
      cases described
      exact empty
    · intro empty
      exact ⟨storage, decoded.described, empty⟩
  rw [empty_iff, ← options_ofOptions_iff point.scheme options]
  constructor
  · intro ⟨same, _⟩
    rw [back] at same
    exact congrArg VfsPoint.config (Except.ok.inj same)
  · intro same
    rw [same] at back
    refine ⟨back, ?_⟩
    intro other decoded_back username name newUser found
    rw [back] at decoded_back
    cases decoded_back
    rw [removedQuota, found]
    exact if_neg (by simp)

/-! ### Runs -/

def parseFirst (text : Text) : Option Uuid := if text = Uuid.hyphenated 1 then some 1 else none

theorem parseFirst_first : parseFirst (Uuid.hyphenated 1) = some 1 := if_pos rfl

def bucket (root : String) (config : List (Text × Text)) (distinct : (config.map Prod.fst).Nodup) : ProtoVfsPoint :=
  ⟨Uuid.hyphenated 1, "docs".toList, 0, true, some (.data ⟨"s3".toList, root.toList, config, distinct⟩)⟩

def bucketPoint (config : List (Text × Text)) : VfsPoint :=
  ⟨1, "docs".toList, none, false, "s3".toList, config, false, none⟩

theorem bucket_converted (root : String) (config : List (Text × Text)) (distinct : (config.map Prod.fst).Nodup) :
    pointTryFrom parseFirst (bucket root config distinct) =
      .ok (bucketPoint (ProtoPoint.options ⟨"s3".toList, root.toList, config, distinct⟩)) := by
  simp only [pointTryFrom, bucket, parseFirst_first]
  rfl

/-- The root of the message replaces an empty one among the options. -/
theorem root_field_is_read_back : ReadBackSame parseFirst (bucketPoint [("root".toList, "/srv".toList)]) (by decide) := by
  have converted := bucket_converted "/srv" [("root".toList, [])] (by decide)
  apply (point_read_back_same_iff parseFirst _ _ converted parseFirst_first).mpr
  intro ⟨storage, described, empty, _⟩
  cases described
  cases empty

/-- An empty root among the options is gone after it was read back. -/
theorem empty_root_option_is_lost : ¬∀ (parseUuid : Text → Option Uuid) (message : ProtoVfsPoint) (point : VfsPoint)
    (converted : pointTryFrom parseUuid message = .ok point), parseUuid point.id.hyphenated = some point.id →
      pointTryFrom parseUuid (protoPointFrom point (decoded_distinct converted)) = .ok point := by
  intro always
  have converted := bucket_converted "" [("root".toList, [])] (by decide)
  obtain ⟨storage, decoded⟩ := pointTryFrom_decoded converted
  have same := always parseFirst _ _ converted parseFirst_first
  rw [pointTryFrom_protoPointFrom decoded (decoded_distinct converted) parseFirst_first] at same
  have options : OptionMap (bucketPoint [("root".toList, [])]).config := ⟨by decide, by decide⟩
  apply (options_ofOptions_iff "s3".toList options).mp (congrArg VfsPoint.config (Except.ok.inj same))
  exact List.mem_singleton.mpr rfl

end Vaulton.Proofs.ReadBack
