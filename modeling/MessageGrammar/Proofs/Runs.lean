import Mathlib.Data.List.TakeWhile

/-!
# Runs of characters

Every reader of text here takes the longest run of characters of some kind. Such a run is known
from outside, without a reader: its characters are of the kind and the next one is not. Texts in a
row are written with a separator between them, which then stands before all but the first one.
-/

namespace MessageGrammar.Text

/-- At least one character, all of one kind. -/
def Run (p : Char → Bool) (text : List Char) : Prop :=
  text ≠ [] ∧ ∀ c ∈ text, p c = true

variable {p : Char → Bool} {run rest : List Char}

/-- A run has a first character, which is of its kind. -/
theorem Run.exists_cons (h : Run p run) : ∃ c others, run = c :: others ∧ p c = true := by
  obtain ⟨c, others, hrun⟩ := List.exists_cons_of_ne_nil h.1
  have hc : p c = true := h.2 c (by rw [hrun]; exact List.mem_cons_self)
  exact ⟨c, others, hrun, hc⟩

/-- A run is carried on by characters of its kind. -/
theorem Run.append_takeWhile (h : Run p run) (text : List Char) :
    Run p (run ++ text.takeWhile p) :=
  ⟨List.append_ne_nil_of_left_ne_nil h.1 _,
    List.forall_mem_append.mpr ⟨h.2, fun _ hc => List.mem_takeWhile_imp hc⟩⟩

/-- The longest run at the beginning of a text is not carried on by another character behind it. -/
theorem takeWhile_append_of_stop (text : List Char) (hrest : ∀ c ∈ rest.head?, p c = false) :
    (text ++ rest).takeWhile p = text.takeWhile p := by
  induction text with
  | nil =>
    cases rest with
    | nil => rfl
    | cons c others =>
      have hc : p c = false := hrest c rfl
      simp [hc]
  | cons c text ih => rw [List.cons_append, List.takeWhile_cons, List.takeWhile_cons, ih]

/-- Another character behind a text is left with everything that is left of the text. -/
theorem dropWhile_append_of_stop (text : List Char) (hrest : ∀ c ∈ rest.head?, p c = false) :
    (text ++ rest).dropWhile p = text.dropWhile p ++ rest := by
  induction text with
  | nil =>
    cases rest with
    | nil => rfl
    | cons c others =>
      have hc : p c = false := hrest c rfl
      simp [hc]
  | cons c text ih =>
    rw [List.cons_append, List.dropWhile_cons, List.dropWhile_cons, ih]
    split <;> rfl

/-- A run of characters ends where another character follows. -/
theorem takeWhile_append_of_head? (hrun : ∀ c ∈ run, p c = true)
    (hrest : ∀ c ∈ rest.head?, p c = false) : (run ++ rest).takeWhile p = run := by
  rw [takeWhile_append_of_stop run hrest, List.takeWhile_eq_self_iff.mpr hrun]

/-- What follows a run of characters is left. -/
theorem dropWhile_append_of_head? (hrun : ∀ c ∈ run, p c = true)
    (hrest : ∀ c ∈ rest.head?, p c = false) : (run ++ rest).dropWhile p = rest := by
  rw [dropWhile_append_of_stop run hrest, List.dropWhile_eq_nil_iff.mpr hrun, List.nil_append]

/-- What is left behind a run starts with another character, if with any. -/
theorem head?_dropWhile (p : Char → Bool) (text : List Char) :
    ∀ c ∈ (text.dropWhile p).head?, p c = false := by
  intro c hc
  have hnot := List.head?_dropWhile_not p text
  rw [Option.mem_def.mp hc] at hnot
  exact hnot

/-- Texts with a separator between them: it stands before every text but the first one. -/
theorem intercalate_cons (separator head : List Char) (tail : List (List Char)) :
    separator.intercalate (head :: tail) = head ++ tail.flatMap (separator ++ ·) := by
  induction tail generalizing head with
  | nil => simp [List.intercalate]
  | cons next others ih =>
    have hothers := ih next
    rw [List.intercalate] at hothers ⊢
    rw [List.intersperse_cons_cons, List.flatten_cons, List.flatten_cons, hothers,
      List.flatMap_cons, List.append_assoc]

end MessageGrammar.Text
