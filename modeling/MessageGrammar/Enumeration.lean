/-!
# Enumerations

A finite sequence whose elements are computed when they are asked for, so that a search can stop
before it has seen all of them. Each operation agrees with the operation on lists of the same name,
by the lemma on `toList` beside it; how much of an enumeration is computed changes nothing else.
-/

namespace MessageGrammar

/-- A finite sequence: its first element at hand, the others on demand. -/
inductive Enumeration (α : Type) where
  /-- No elements. -/
  | nil
  /-- An element and the ones after it. -/
  | cons (head : α) (more : Unit → Enumeration α)

namespace Enumeration

variable {α β : Type}

/-- All elements in order. -/
def toList : Enumeration α → List α
  | nil => []
  | cons head more => head :: (more ()).toList

@[simp] theorem toList_nil : (nil : Enumeration α).toList = [] := rfl

@[simp] theorem toList_cons (head : α) (more : Unit → Enumeration α) :
    (cons head more).toList = head :: (more ()).toList := rfl

/-- The enumeration of one element. -/
def single (a : α) : Enumeration α :=
  cons a fun _ => nil

@[simp] theorem toList_single (a : α) : (single a).toList = [a] := rfl

/-- The elements of a list. -/
def ofList : List α → Enumeration α
  | [] => nil
  | a :: rest => cons a fun _ => ofList rest

@[simp] theorem toList_ofList (l : List α) : (ofList l).toList = l := by
  induction l with
  | nil => rfl
  | cons a rest ih => simp [ofList, ih]

/-- An enumeration is known by its list. -/
theorem ofList_toList (elements : Enumeration α) : ofList elements.toList = elements := by
  induction elements with
  | nil => rfl
  | cons head more ih =>
    rw [toList_cons, ofList, ih]

/-- The elements of the first enumeration, then those of the second. -/
def append : Enumeration α → (Unit → Enumeration α) → Enumeration α
  | nil, next => next ()
  | cons head more, next => cons head fun _ => (more ()).append next

@[simp] theorem toList_append (first : Enumeration α) (next : Unit → Enumeration α) :
    (first.append next).toList = first.toList ++ (next ()).toList := by
  induction first with
  | nil => rfl
  | cons head more ih => simp [append, ih]

/-- The image of each element. -/
def map (f : α → β) : Enumeration α → Enumeration β
  | nil => nil
  | cons head more => cons (f head) fun _ => (more ()).map f

@[simp] theorem toList_map (f : α → β) (elements : Enumeration α) :
    (elements.map f).toList = elements.toList.map f := by
  induction elements with
  | nil => rfl
  | cons head more ih => simp [map, ih]

/-- The elements that pass a test. -/
def filter (p : α → Bool) : Enumeration α → Enumeration α
  | nil => nil
  | cons head more =>
    if p head then cons head fun _ => (more ()).filter p else (more ()).filter p

@[simp] theorem toList_filter (p : α → Bool) (elements : Enumeration α) :
    (elements.filter p).toList = elements.toList.filter p := by
  induction elements with
  | nil => rfl
  | cons head more ih =>
    by_cases h : p head = true
    · simp [filter, h, ih]
    · simp [filter, h, ih]

/-- The elements of the images of all elements. Empty images in a row are passed over in one
loop. -/
def flatMap (f : α → Enumeration β) : Enumeration α → Enumeration β
  | nil => nil
  | cons head more =>
    match f head with
    | nil => (more ()).flatMap f
    | cons first next => cons first fun _ => (next ()).append fun _ => (more ()).flatMap f

@[simp] theorem toList_flatMap (f : α → Enumeration β) (elements : Enumeration α) :
    (elements.flatMap f).toList = elements.toList.flatMap fun a => (f a).toList := by
  induction elements with
  | nil => rfl
  | cons head more ih =>
    cases h : f head with
    | nil => simp [flatMap, h, ih]
    | cons first next => simp [flatMap, h, ih]

/-- The first `n` elements; none after them is computed. -/
def take : Nat → Enumeration α → List α
  | 0, _ => []
  | _ + 1, nil => []
  | n + 1, cons head more => head :: (more ()).take n

theorem take_eq_take_toList (n : Nat) (elements : Enumeration α) :
    elements.take n = elements.toList.take n := by
  induction elements generalizing n with
  | nil => cases n <;> rfl
  | cons head more ih =>
    cases n with
    | zero => rfl
    | succ n => simp [take, ih]

end Enumeration

end MessageGrammar
