import Mathlib

/-! Lists cut at a separator. A list of non-empty parts without the separator and the
list joined from them determine each other, so facts about the joined form (its first
and last element, its prefixes) become facts about the parts. Separators at the ends of
a list are no part of it. -/

namespace Vaulton.Lib

variable {α : Type} {sep : α}

def join (sep : α) (parts : List (List α)) : List α := [sep].intercalate parts

/-- Non-empty parts that do not contain the separator. -/
def Separated (sep : α) (parts : List (List α)) : Prop := ∀ part ∈ parts, part ≠ [] ∧ sep ∉ part

@[simp] theorem join_nil : join sep [] = [] := rfl

@[simp] theorem join_singleton (part : List α) : join sep [part] = part := by simp [join]

theorem join_cons {part : List α} {rest : List (List α)} (nonempty : rest ≠ []) :
    join sep (part :: rest) = part ++ sep :: join sep rest := by
  simp [join, List.intercalate_cons_of_ne_nil nonempty]

theorem join_append (sep : α) {left right : List (List α)} (left_ne : left ≠ []) (right_ne : right ≠ []) :
    join sep (left ++ right) = join sep left ++ sep :: join sep right := by
  induction left with
  | nil => exact absurd rfl left_ne
  | cons part rest ih =>
    by_cases empty : rest = []
    · subst rest
      simp [join_cons right_ne]
    · have longer : rest ++ right ≠ [] := by simp [empty]
      rw [List.cons_append, join_cons longer, ih empty, join_cons empty, List.append_assoc, List.cons_append]

theorem Separated.tail {part : List α} {rest : List (List α)} (separated : Separated sep (part :: rest)) :
    Separated sep rest := fun other member => separated other (List.mem_cons_of_mem part member)

theorem Separated.head? {parts : List (List α)} (separated : Separated sep parts) : (join sep parts).head? ≠ some sep := by
  cases parts with
  | nil => simp
  | cons part rest =>
    obtain ⟨nonempty, free⟩ := separated part (by simp)
    obtain ⟨first, later, rfl⟩ := List.exists_cons_of_ne_nil nonempty
    intro at_head
    have starts : (join sep ((first :: later) :: rest)).head? = some first := by
      by_cases empty : rest = []
      · simp [empty]
      · simp [join_cons empty]
    rw [starts] at at_head
    cases at_head
    exact free (by simp)

theorem Separated.getLast? {parts : List (List α)} (separated : Separated sep parts) :
    (join sep parts).getLast? ≠ some sep := by
  induction parts with
  | nil => simp
  | cons part rest ih =>
    by_cases empty : rest = []
    · subst rest
      intro at_end
      rw [join_singleton] at at_end
      exact (separated part (by simp)).2 (List.mem_of_getLast? at_end)
    · intro at_end
      rw [join_cons empty, List.getLast?_append] at at_end
      obtain ⟨first, later, rfl⟩ := List.exists_cons_of_ne_nil empty
      have more : join sep (first :: later) ≠ [] := by
        obtain ⟨nonempty, -⟩ := separated first (by simp)
        by_cases single : later = []
        · simp [single, nonempty]
        · simp [join_cons single]
      obtain ⟨last, found⟩ := Option.ne_none_iff_exists'.mp (mt List.getLast?_eq_none_iff.mp more)
      simp only [List.getLast?_cons, found, Option.getD_some, Option.some_or, Option.some.injEq] at at_end
      exact ih separated.tail (found.trans (congrArg some at_end))

theorem Separated.join_eq_nil {parts : List (List α)} (separated : Separated sep parts) :
    join sep parts = [] ↔ parts = [] := by
  constructor
  · intro empty
    cases parts with
    | nil => rfl
    | cons part rest =>
      have nonempty := (separated part (by simp)).1
      by_cases single : rest = []
      · simp [single, nonempty] at empty
      · simp [join_cons single] at empty
  · rintro rfl
    rfl

variable [DecidableEq α]

/-- What `splitOn` yields has no separator and nothing that was not there before. -/
theorem of_mem_splitOn {items part : List α} (member : part ∈ items.splitOn sep) : sep ∉ part ∧ part ⊆ items := by
  induction items generalizing part with
  | nil =>
    rw [List.splitOn_nil, List.mem_singleton] at member
    simp [member]
  | cons item rest ih =>
    rw [List.splitOn_cons_eq_if_modifyHead] at member
    split at member
    · rcases List.mem_cons.mp member with rfl | later
      · simp
      · exact ⟨(ih later).1, fun _ inside => List.mem_cons_of_mem item ((ih later).2 inside)⟩
    next different =>
      obtain ⟨first, others, pieces⟩ := List.exists_cons_of_ne_nil (List.splitOn_ne_nil sep rest)
      rw [pieces, List.modifyHead_cons] at member
      rcases List.mem_cons.mp member with rfl | later
      · obtain ⟨free, inside⟩ := ih (show first ∈ rest.splitOn sep by simp [pieces])
        refine ⟨?_, List.cons_subset_cons item inside⟩
        simp only [List.mem_cons, not_or]
        exact ⟨fun same => different (by simp [same]), free⟩
      · obtain ⟨free, inside⟩ := ih (show part ∈ rest.splitOn sep by simp [pieces, later])
        exact ⟨free, fun _ here => List.mem_cons_of_mem item (inside here)⟩

theorem Separated.splitOn {parts : List (List α)} (separated : Separated sep parts) (nonempty : parts ≠ []) :
    (join sep parts).splitOn sep = parts :=
  List.splitOn_intercalate sep (fun part member => (separated part member).2) nonempty

theorem Separated.span {part : List α} {rest : List (List α)} (separated : Separated sep (part :: rest)) :
    (join sep (part :: rest)).span (fun item => decide (item ≠ sep)) =
      (part, if rest = [] then [] else sep :: join sep rest) := by
  have free : ∀ item ∈ part, decide (item ≠ sep) = true := by
    intro item member
    have absent := (separated part (by simp)).2
    exact decide_eq_true fun same => absent (same ▸ member)
  rw [List.span_eq_takeWhile_dropWhile]
  split
  next empty =>
    subst rest
    rw [join_singleton, List.takeWhile_eq_self_iff.mpr free, List.dropWhile_eq_nil_iff.mpr free]
  next more =>
    rw [join_cons more, List.takeWhile_append_of_pos free, List.dropWhile_append_of_pos free]
    simp

/-- A joined list extends another one at a separator exactly when its parts do. -/
theorem join_prefix_iff {front parts : List (List α)} (first : ∀ part ∈ front, sep ∉ part)
    (second : ∀ part ∈ parts, sep ∉ part) (front_ne : front ≠ []) (parts_ne : parts ≠ []) :
    (join sep parts = join sep front ∨ (join sep front ++ [sep]) <+: join sep parts) ↔ front <+: parts := by
  have split_front : (join sep front).splitOn sep = front := List.splitOn_intercalate sep first front_ne
  have split_parts : (join sep parts).splitOn sep = parts := List.splitOn_intercalate sep second parts_ne
  constructor
  · rintro (same | ⟨more, extended⟩)
    · have equal : parts = front := by rw [← split_parts, same, split_front]
      exact equal ▸ List.prefix_rfl
    · refine ⟨more.splitOn sep, ?_⟩
      rw [← split_parts, ← extended, List.append_assoc, List.singleton_append, List.splitOn_append_cons_self, split_front]
  · rintro ⟨rest, rfl⟩
    by_cases empty : rest = []
    · exact .inl (by simp [empty])
    · exact .inr ⟨join sep rest, by simp [join_append sep front_ne empty]⟩

theorem Separated.prefix_iff {front parts : List (List α)} (first : Separated sep front) (second : Separated sep parts)
    (front_ne : front ≠ []) (parts_ne : parts ≠ []) :
    (join sep parts = join sep front ∨ (join sep front ++ [sep]) <+: join sep parts) ↔ front <+: parts :=
  join_prefix_iff (fun part member => (first part member).2) (fun part member => (second part member).2) front_ne parts_ne

/-! ### Separators at the ends -/

/-- A list without the separators at its ends. -/
def trim (sep : α) (items : List α) : List α :=
  (items.dropWhile fun item => item = sep).rdropWhile fun item => item = sep

theorem dropWhile_of_head? {items : List α} (head : items.head? ≠ some sep) :
    items.dropWhile (fun item => decide (item = sep)) = items := by
  cases items with
  | nil => rfl
  | cons first rest => exact List.dropWhile_cons_of_neg (by simpa using head)

theorem rdropWhile_of_getLast? {items : List α} (last : items.getLast? ≠ some sep) :
    items.rdropWhile (fun item => decide (item = sep)) = items := by
  rw [List.rdropWhile_eq_self_iff]
  intro nonempty at_end
  apply last
  rw [List.getLast?_eq_getLast_of_ne_nil nonempty, of_decide_eq_true at_end]

theorem trim_append {front items closing : List α} (before : ∀ item ∈ front, item = sep)
    (after : ∀ item ∈ closing, item = sep) (head : items.head? ≠ some sep) (last : items.getLast? ≠ some sep) :
    trim sep (front ++ items ++ closing) = items := by
  unfold trim
  rw [List.append_assoc, List.dropWhile_append_of_pos (by simpa using before)]
  by_cases empty : items = []
  · subst items
    rw [List.nil_append, List.dropWhile_eq_nil_iff.mpr (by simpa using after)]
    rfl
  · have starts : (items ++ closing).head? ≠ some sep := by
      rw [List.head?_append_of_ne_nil _ empty]
      exact head
    rw [dropWhile_of_head? starts, List.rdropWhile, List.reverse_append,
      List.dropWhile_append_of_pos (by simpa using after)]
    exact rdropWhile_of_getLast? last

theorem head?_trim (sep : α) (items : List α) : (trim sep items).head? ≠ some sep := by
  intro starts
  obtain ⟨rest, shape⟩ := List.head?_eq_some_iff.mp starts
  obtain ⟨more, whole⟩ := List.rdropWhile_prefix (fun item => decide (item = sep)) (items.dropWhile fun item => item = sep)
  have kept := List.head?_dropWhile_not (fun item => decide (item = sep)) items
  have shaped : items.dropWhile (fun item => decide (item = sep)) = sep :: (rest ++ more) := by
    rw [← whole]
    exact congrArg (· ++ more) shape
  simp [shaped] at kept

theorem getLast?_trim (sep : α) (items : List α) : (trim sep items).getLast? ≠ some sep := by
  intro ends
  have nonempty : trim sep items ≠ [] := by
    intro empty
    rw [empty] at ends
    cases ends
  rw [List.getLast?_eq_getLast_of_ne_nil nonempty, Option.some.injEq] at ends
  exact List.rdropWhile_last_not _ _ nonempty (decide_eq_true ends)

/-! ### The parts of a list -/

/-- The parts between the separators, none when there are only separators. -/
def parts (sep : α) (items : List α) : List (List α) :=
  if trim sep items = [] then [] else (trim sep items).splitOn sep

theorem parts_eq_nil_iff {items : List α} : parts sep items = [] ↔ trim sep items = [] := by
  unfold parts
  split
  next empty => simp [empty]
  next more => simp [more, List.splitOn_ne_nil]

theorem join_parts (sep : α) (items : List α) : join sep (parts sep items) = trim sep items := by
  unfold parts
  split
  next empty => simp [empty]
  next => exact List.intercalate_splitOn sep

theorem parts_free {items part : List α} (member : part ∈ parts sep items) : sep ∉ part := by
  unfold parts at member
  split at member
  · cases member
  · exact (of_mem_splitOn member).1

theorem parts_of_trim {items : List α} {pieces : List (List α)} (trimmed : trim sep items = join sep pieces)
    (free : ∀ piece ∈ pieces, sep ∉ piece) (nonempty : trim sep items ≠ []) : parts sep items = pieces := by
  have some_piece : pieces ≠ [] := by
    rintro rfl
    exact nonempty trimmed
  rw [parts, if_neg nonempty, trimmed]
  exact List.splitOn_intercalate sep free some_piece

theorem parts_separated {items : List α} (clean : [] ∉ parts sep items) : Separated sep (parts sep items) :=
  fun _ member => ⟨fun empty => clean (empty ▸ member), parts_free member⟩

end Vaulton.Lib
