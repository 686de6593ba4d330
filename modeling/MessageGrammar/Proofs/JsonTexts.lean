import MessageGrammar.Outcome
import MessageGrammar.Proofs.Runs

/-!
# What a JSON text tells

The text of a JSON value without blanks tells the value and where it ends, whatever stands behind
it, if only no further digit does. This holds part by part: of the characters of a string, of
numbers, and of lists whose elements have the property. Doubles are left out, since several of them
have the text `null`. Different outcomes have different JSON values, so that the text tells the
outcome.
-/

namespace MessageGrammar

namespace Json

/-- Behind a text no digit follows. -/
def Ends (rest : List Char) : Prop :=
  ∀ c ∈ rest.head?, c.isDigit = false

/-- Behind a text another character than a digit may follow. -/
theorem ends_cons {c : Char} (h : c.isDigit = false) (rest : List Char) : Ends (c :: rest) := by
  rintro _ ⟨⟩
  exact h

/-- Two values are told apart by what is written for them, whatever stands behind it: where the same
is written, they are the same and end at one place. -/
def ToldApart {α : Type} (write : α → List Char) (a b : α) : Prop :=
  ∀ s t, Ends s → Ends t → write a ++ s = write b ++ t → a = b ∧ s = t

section Strings

/-- The letters that stand behind a backslash for characters. -/
def letters : List (Char × Char) :=
  [('"', '"'), ('\\', '\\'), ('\x08', 'b'), ('\x0c', 'f'), ('\n', 'n'), ('\r', 'r'), ('\t', 't')]

/-- What is written in a string for a character. -/
inductive Escaped : Char → List Char → Prop where
  /-- A character may stand for itself. -/
  | plain {c : Char} (hquote : c ≠ '"') (hslash : c ≠ '\\') : Escaped c [c]
  /-- A letter behind a backslash stands for a character. -/
  | letter {c letter : Char} (h : (c, letter) ∈ letters) : Escaped c ['\\', letter]
  /-- A character may be given by its number. -/
  | number {c : Char} (h : c.toNat < 0x20) : Escaped c
      ['\\', 'u', '0', '0', Nat.digitChar (c.toNat / 16), Nat.digitChar (c.toNat % 16)]

/-- Each character is written in one of these ways. -/
theorem escaped_escape (c : Char) : Escaped c (escape c) := by
  have hletters : ∀ p ∈ letters, escape p.1 = ['\\', p.2] := by decide
  by_cases hmem : ∃ p ∈ letters, p.1 = c
  · obtain ⟨p, hp, rfl⟩ := hmem
    rw [hletters p hp]
    exact .letter hp
  · have hne : ∀ p ∈ letters, c ≠ p.1 := fun p hp heq => hmem ⟨p, hp, heq.symm⟩
    simp only [letters, List.forall_mem_cons] at hne
    obtain ⟨hquote, hslash, hback, hfeed, hline, hreturn, htab, -⟩ := hne
    rw [escape, if_neg hquote, if_neg hslash, if_neg hback, if_neg hfeed, if_neg hline,
      if_neg hreturn, if_neg htab]
    split
    next hsmall => exact .number hsmall
    next => exact .plain hquote hslash

/-- A digit of base 16 tells its value. -/
theorem digitChar_injective {m n : Nat} (hm : m < 16) (hn : n < 16)
    (h : Nat.digitChar m = Nat.digitChar n) : m = n := by
  have hall : ∀ m < 16, ∀ n < 16, Nat.digitChar m = Nat.digitChar n → m = n := by decide
  exact hall m hm n hn h

/-- What is written for a character tells the character and where it ends. -/
theorem Escaped.eq {c d : Char} {written written' s t : List Char} (h : Escaped c written)
    (h' : Escaped d written') (heq : written ++ s = written' ++ t) : c = d ∧ s = t := by
  have hsame : ∀ p ∈ letters, ∀ q ∈ letters, p.2 = q.2 → p.1 = q.1 := by decide
  have hnone : ∀ p ∈ letters, p.2 ≠ 'u' := by decide
  cases h with
  | plain hquote hslash =>
    cases h' with
    | plain => exact List.cons.inj heq
    | letter => exact absurd (List.cons.inj heq).1 hslash
    | number => exact absurd (List.cons.inj heq).1 hslash
  | letter hletter =>
    cases h' with
    | plain _ hslash => exact absurd (List.cons.inj heq).1.symm hslash
    | letter hletter' =>
      obtain ⟨hcode, hrest⟩ := List.cons.inj (List.cons.inj heq).2
      exact ⟨hsame _ hletter _ hletter' hcode, hrest⟩
    | number => exact absurd (List.cons.inj (List.cons.inj heq).2).1 (hnone _ hletter)
  | number hsmall =>
    cases h' with
    | plain _ hslash => exact absurd (List.cons.inj heq).1.symm hslash
    | letter hletter => exact absurd (List.cons.inj (List.cons.inj heq).2).1.symm (hnone _ hletter)
    | number hsmall' =>
      simp only [List.cons_append, List.cons.injEq, true_and, List.nil_append] at heq
      obtain ⟨hhigh, hlow, hrest⟩ := heq
      replace hhigh := digitChar_injective (by omega) (by omega) hhigh
      replace hlow := digitChar_injective (by omega) (by omega) hlow
      refine ⟨?_, hrest⟩
      rw [← Char.ofNat_toNat c, ← Char.ofNat_toNat d]
      congr 1
      omega

/-- What is written for a character does not begin with a quote. -/
theorem Escaped.exists_cons {c : Char} {written : List Char} (h : Escaped c written) :
    ∃ first others, written = first :: others ∧ first ≠ '"' := by
  cases h with
  | plain hquote _ => exact ⟨_, _, rfl, hquote⟩
  | letter _ => exact ⟨_, _, rfl, by decide⟩
  | number _ => exact ⟨_, _, rfl, by decide⟩

/-- The characters of a string tell it, up to the quote behind them. -/
theorem eq_of_flatMap_escape {a b s t : List Char}
    (h : a.flatMap escape ++ '"' :: s = b.flatMap escape ++ '"' :: t) : a = b ∧ s = t := by
  induction a generalizing b with
  | nil =>
    cases b with
    | nil => exact ⟨rfl, (List.cons.inj h).2⟩
    | cons d b =>
      obtain ⟨first, others, hwritten, hne⟩ := (escaped_escape d).exists_cons
      rw [List.flatMap_cons, hwritten] at h
      exact absurd (List.cons.inj h).1.symm hne
  | cons c a ih =>
    cases b with
    | nil =>
      obtain ⟨first, others, hwritten, hne⟩ := (escaped_escape c).exists_cons
      rw [List.flatMap_cons, hwritten] at h
      exact absurd (List.cons.inj h).1 hne
    | cons d b =>
      rw [List.flatMap_cons, List.flatMap_cons, List.append_assoc, List.append_assoc] at h
      obtain ⟨rfl, hrest⟩ := (escaped_escape c).eq (escaped_escape d) h
      obtain ⟨rfl, hend⟩ := ih hrest
      exact ⟨rfl, hend⟩

/-- Strings are told apart. -/
theorem toldApart_quote (a b : String) : ToldApart (fun text => (quote text).toList) a b := by
  intro s t _ _ h
  have hquote (text : String) (rest : List Char) : (quote text).toList ++ rest =
      '"' :: (text.toList.flatMap escape ++ '"' :: rest) := by
    rw [quote, String.toList_ofList]
    simp
  rw [hquote, hquote] at h
  obtain ⟨hchars, hrest⟩ := eq_of_flatMap_escape (List.cons.inj h).2
  exact ⟨String.toList_inj.mp hchars, hrest⟩

end Strings

section Numbers

/-- Digits tell their number, up to a character that is no digit. -/
theorem toldApart_toDigits (m n : Nat) : ToldApart (Nat.toDigits 10) m n := by
  intro s t hs ht h
  have hdigits (n : Nat) : ∀ c ∈ Nat.toDigits 10 n, c.isDigit = true :=
    fun _ hc => Nat.isDigit_of_mem_toDigits (by decide) (Nat.le_refl 10) hc
  have htaken := congrArg (List.takeWhile Char.isDigit) h
  rw [Text.takeWhile_append_of_head? (hdigits m) hs,
    Text.takeWhile_append_of_head? (hdigits n) ht] at htaken
  have hvalue := congrArg (Nat.ofDigitChars 10 · 0) htaken
  simp only [Nat.ofDigitChars_ten_toDigits] at hvalue
  rw [htaken] at h
  exact ⟨hvalue, List.append_cancel_left h⟩

/-- The text of a number that is not negative consists of its digits. -/
theorem toList_toString_ofNat (n : Nat) :
    (toString (Int.ofNat n)).toList = Nat.toDigits 10 n :=
  Nat.toList_repr

/-- The text of a negative number has a minus sign before its digits. -/
theorem toList_toString_negSucc (n : Nat) :
    (toString (Int.negSucc n)).toList = '-' :: Nat.toDigits 10 (n + 1) := by
  show ("-" ++ Nat.repr n.succ).toList = _
  rw [String.toList_append, Nat.toList_repr]
  rfl

/-- Digits begin with a digit. -/
theorem exists_toDigits_eq_cons (n : Nat) :
    ∃ c others, Nat.toDigits 10 n = c :: others ∧ c.isDigit = true := by
  obtain ⟨c, others, hdigits⟩ := List.exists_cons_of_ne_nil (Nat.toDigits_ne_nil (n := n) (b := 10))
  have hmem : c ∈ Nat.toDigits 10 n := by
    rw [hdigits]
    exact List.mem_cons_self
  exact ⟨c, others, hdigits, Nat.isDigit_of_mem_toDigits (by decide) (Nat.le_refl 10) hmem⟩

/-- Digits do not begin with a minus sign. -/
theorem toDigits_append_ne_minus (n : Nat) (s t : List Char) :
    Nat.toDigits 10 n ++ s ≠ '-' :: t := by
  intro h
  obtain ⟨c, others, hdigits, hc⟩ := exists_toDigits_eq_cons n
  rw [hdigits] at h
  rw [(List.cons.inj h).1] at hc
  cases hc

/-- Whole numbers are told apart. -/
theorem toldApart_toString (a b : Int) : ToldApart (fun n : Int => (toString n).toList) a b := by
  intro s t hs ht h
  dsimp only at h
  cases a with
  | ofNat m =>
    cases b with
    | ofNat n =>
      rw [toList_toString_ofNat, toList_toString_ofNat] at h
      obtain ⟨rfl, hrest⟩ := toldApart_toDigits m n s t hs ht h
      exact ⟨rfl, hrest⟩
    | negSucc n =>
      rw [toList_toString_ofNat, toList_toString_negSucc] at h
      exact absurd h (toDigits_append_ne_minus m s _)
  | negSucc m =>
    cases b with
    | ofNat n =>
      rw [toList_toString_ofNat, toList_toString_negSucc] at h
      exact absurd h.symm (toDigits_append_ne_minus n t _)
    | negSucc n =>
      rw [toList_toString_negSucc, toList_toString_negSucc] at h
      obtain ⟨hvalue, hrest⟩ := toldApart_toDigits _ _ s t hs ht (List.cons.inj h).2
      obtain rfl : m = n := by omega
      exact ⟨rfl, hrest⟩

end Numbers

section Lists

variable {α : Type} {write : α → List Char} {close : Char}

/-- Elements behind a comma each and the bracket behind them are told apart if the elements are. -/
theorem eq_of_flatMap_comma {as bs : List α} (hclose : close ≠ ',') (hend : close.isDigit = false)
    (hwrite : ∀ a ∈ as, ∀ b ∈ bs, ToldApart write a b) {s t : List Char}
    (h : as.flatMap (',' :: write ·) ++ close :: s = bs.flatMap (',' :: write ·) ++ close :: t) :
    as = bs ∧ s = t := by
  -- Behind an element there is a comma or the bracket.
  have hends (others : List α) (rest : List Char) :
      Ends (others.flatMap (',' :: write ·) ++ close :: rest) := by
    cases others with
    | nil => exact ends_cons hend rest
    | cons a others => exact ends_cons rfl _
  induction as generalizing bs with
  | nil =>
    cases bs with
    | nil => exact ⟨rfl, (List.cons.inj h).2⟩
    | cons b bs => exact absurd (List.cons.inj h).1 hclose
  | cons a as ih =>
    cases bs with
    | nil => exact absurd (List.cons.inj h).1.symm hclose
    | cons b bs =>
      rw [List.flatMap_cons, List.flatMap_cons, List.append_assoc, List.append_assoc] at h
      obtain ⟨rfl, hrest⟩ := hwrite a List.mem_cons_self b List.mem_cons_self _ _
        (hends as s) (hends bs t) (List.cons.inj h).2
      obtain ⟨rfl, hsame⟩ := ih (fun a ha b hb =>
        hwrite a (List.mem_cons_of_mem _ ha) b (List.mem_cons_of_mem _ hb)) hrest
      exact ⟨rfl, hsame⟩

/-- Elements with commas between them and the bracket behind them are told apart if the elements are
and do not begin with the bracket. -/
theorem eq_of_intercalate {as bs : List α} (hclose : close ≠ ',') (hend : close.isDigit = false)
    (hwrite : ∀ a ∈ as, ∀ b ∈ bs, ToldApart write a b)
    (hfirst : ∀ a, a ∈ as ∨ a ∈ bs → ∃ c others, write a = c :: others ∧ c ≠ close)
    {s t : List Char} (h : [','].intercalate (as.map write) ++ close :: s =
      [','].intercalate (bs.map write) ++ close :: t) : as = bs ∧ s = t := by
  cases as with
  | nil =>
    cases bs with
    | nil => exact ⟨rfl, (List.cons.inj h).2⟩
    | cons b bs =>
      obtain ⟨c, others, hb, hc⟩ := hfirst b (.inr List.mem_cons_self)
      rw [List.map_cons, Text.intercalate_cons, hb] at h
      exact absurd (List.cons.inj h).1.symm hc
  | cons a as =>
    cases bs with
    | nil =>
      obtain ⟨c, others, ha, hc⟩ := hfirst a (.inl List.mem_cons_self)
      rw [List.map_cons, Text.intercalate_cons, ha] at h
      exact absurd (List.cons.inj h).1 hc
    | cons b bs =>
      -- One comma before the first elements makes all elements alike.
      refine eq_of_flatMap_comma hclose hend hwrite ?_
      rw [List.map_cons, List.map_cons, Text.intercalate_cons, Text.intercalate_cons,
        List.flatMap_map, List.flatMap_map] at h
      exact congrArg (',' :: ·) h

end Lists

/-- The characters of the text without blanks. -/
def chars (value : Json) : List Char :=
  value.compact.toList

/-- The characters of a member. -/
def memberChars (member : String × Json) : List Char :=
  (quote member.1).toList ++ ':' :: member.2.chars

/-- An array is written as its elements with commas between them, in brackets. -/
theorem chars_array (elements : List Json) :
    (array elements).chars = '[' :: ([','].intercalate (elements.map chars) ++ [']']) := by
  have helements (elements : List Json) : compactElements elements = elements.map compact := by
    induction elements with
    | nil => rfl
    | cons element elements ih => rw [compactElements, ih, List.map_cons]
  rw [chars, compact, String.toList_append, String.toList_append, String.toList_intercalate,
    helements, List.map_map]
  rfl

/-- An object is written as its members with commas between them, in braces. -/
theorem chars_object (members : List (String × Json)) : (object members).chars =
    '\x7b' :: ([','].intercalate (members.map memberChars) ++ ['\x7d']) := by
  have hmembers (members : List (String × Json)) :
      (compactMembers members).map String.toList = members.map memberChars := by
    induction members with
    | nil => rfl
    | cons member members ih =>
      rw [compactMembers, List.map_cons, List.map_cons, ih, String.toList_append,
        String.toList_append, List.append_assoc]
      rfl
  rw [chars, compact, String.toList_append, String.toList_append, String.toList_intercalate,
    hmembers]
  rfl

/-- Values without doubles in them. -/
inductive Floatless : Json → Prop where
  /-- The absent value has none. -/
  | null : Floatless null
  /-- A whole number has none. -/
  | integer (value : Int) : Floatless (integer value)
  /-- A string has none. -/
  | text (value : String) : Floatless (text value)
  /-- An array has none if its elements have none. -/
  | array {elements : List Json} (h : ∀ element ∈ elements, Floatless element) :
    Floatless (array elements)
  /-- An object has none if its members have none. -/
  | object {members : List (String × Json)} (h : ∀ member ∈ members, Floatless member.2) :
    Floatless (object members)

/-- The character that values of one form begin with; numbers may also begin with another digit or
with a minus sign. -/
def lead : Json → Char
  | null => 'n'
  | integer _ | float _ => '0'
  | text _ => '"'
  | array _ => '['
  | object _ => '\x7b'

/-- The form of a value is known from its first character. -/
theorem exists_chars_eq_cons {value : Json} (h : Floatless value) :
    ∃ c others, value.chars = c :: others ∧
      (if c.isDigit || c = '-' then '0' else c) = value.lead := by
  cases h with
  | null => exact ⟨'n', "ull".toList, by decide, rfl⟩
  | text value => exact ⟨'"', _, String.toList_ofList, rfl⟩
  | array _ => exact ⟨'[', _, chars_array _, rfl⟩
  | object _ => exact ⟨'\x7b', _, chars_object _, rfl⟩
  | integer value =>
    cases value with
    | ofNat n =>
      obtain ⟨c, others, hdigits, hc⟩ := exists_toDigits_eq_cons n
      exact ⟨c, others, (toList_toString_ofNat n).trans hdigits, by rw [hc]; rfl⟩
    | negSucc n => exact ⟨'-', _, toList_toString_negSucc n, rfl⟩

/-- Values that are written alike are of one form. -/
theorem lead_eq {a b : Json} (ha : Floatless a) (hb : Floatless b) {s t : List Char}
    (h : a.chars ++ s = b.chars ++ t) : a.lead = b.lead := by
  obtain ⟨c, others, hc, hlead⟩ := exists_chars_eq_cons ha
  obtain ⟨d, others', hd, hlead'⟩ := exists_chars_eq_cons hb
  rw [hc, hd] at h
  rw [← hlead, ← hlead', (List.cons.inj h).1]

/-- No value begins as an array ends. -/
theorem exists_chars_ne_bracket {value : Json} (h : Floatless value) :
    ∃ c others, value.chars = c :: others ∧ c ≠ ']' := by
  obtain ⟨c, others, hc, hlead⟩ := exists_chars_eq_cons h
  refine ⟨c, others, hc, ?_⟩
  rintro rfl
  cases h <;> exact absurd hlead (by simp [lead])

/-- No member begins as an object ends. -/
theorem exists_memberChars_ne_brace (member : String × Json) :
    ∃ c others, memberChars member = c :: others ∧ c ≠ '\x7d' :=
  ⟨'"', _, by rw [memberChars, quote, String.toList_ofList]; rfl, by decide⟩

/-- Members are told apart if their values are. -/
theorem ToldApart.member {a b : String × Json} (h : ToldApart chars a.2 b.2) :
    ToldApart memberChars a b := by
  intro s t hs ht heq
  rw [memberChars, memberChars, List.append_assoc, List.append_assoc] at heq
  obtain ⟨hname, hrest⟩ :=
    toldApart_quote a.1 b.1 _ _ (ends_cons rfl _) (ends_cons rfl _) heq
  obtain ⟨hvalue, hend⟩ := h s t hs ht (List.cons.inj hrest).2
  exact ⟨Prod.ext hname hvalue, hend⟩

/-- Values without doubles are told apart by their texts. -/
theorem toldApart_chars {a b : Json} (ha : Floatless a) (hb : Floatless b) :
    ToldApart chars a b := by
  intro s t hs ht h
  have hlead := lead_eq ha hb h
  induction ha generalizing b s t with
  | null =>
    cases hb with
    | null => exact ⟨rfl, List.append_cancel_left h⟩
    | _ => exact absurd hlead (by simp [lead])
  | integer m =>
    cases hb with
    | integer n =>
      obtain ⟨rfl, hrest⟩ := toldApart_toString m n s t hs ht h
      exact ⟨rfl, hrest⟩
    | _ => exact absurd hlead (by simp [lead])
  | text a =>
    cases hb with
    | text b =>
      obtain ⟨rfl, hrest⟩ := toldApart_quote a b s t hs ht h
      exact ⟨rfl, hrest⟩
    | _ => exact absurd hlead (by simp [lead])
  | @array as has ih =>
    cases hb with
    | @array bs hbs =>
      have hfirst : ∀ value, value ∈ as ∨ value ∈ bs →
          ∃ c others, value.chars = c :: others ∧ c ≠ ']' := by
        rintro value (hvalue | hvalue)
        · exact exists_chars_ne_bracket (has value hvalue)
        · exact exists_chars_ne_bracket (hbs value hvalue)
      have helements : ∀ a ∈ as, ∀ b ∈ bs, ToldApart chars a b :=
        fun a ha b hb s t hs ht h =>
          ih a ha (hbs b hb) s t hs ht h (lead_eq (has a ha) (hbs b hb) h)
      rw [chars_array, chars_array, List.cons_append, List.cons_append, List.append_assoc,
        List.append_assoc] at h
      obtain ⟨rfl, hrest⟩ :=
        eq_of_intercalate (by decide) rfl helements hfirst (List.cons.inj h).2
      exact ⟨rfl, hrest⟩
    | _ => exact absurd hlead (by simp [lead])
  | @object as has ih =>
    cases hb with
    | @object bs hbs =>
      have hmembers : ∀ a ∈ as, ∀ b ∈ bs, ToldApart memberChars a b :=
        fun a ha b hb => .member fun s t hs ht h =>
          ih a ha (hbs b hb) s t hs ht h (lead_eq (has a ha) (hbs b hb) h)
      rw [chars_object, chars_object, List.cons_append, List.cons_append, List.append_assoc,
        List.append_assoc] at h
      obtain ⟨rfl, hrest⟩ := eq_of_intercalate (by decide) rfl hmembers
        (fun member _ => exists_memberChars_ne_brace member) (List.cons.inj h).2
      exact ⟨rfl, hrest⟩
    | _ => exact absurd hlead (by simp [lead])

/-- A value without doubles is known from its text. -/
theorem compact_eq_iff {a b : Json} (ha : Floatless a) (hb : Floatless b) :
    a.compact = b.compact ↔ a = b := by
  refine ⟨fun h => ?_, congrArg compact⟩
  have hchars : a.chars ++ [] = b.chars ++ [] := congrArg (·.toList ++ []) h
  exact (toldApart_chars ha hb [] [] nofun nofun hchars).1

end Json

/-- The name of a kind tells the kind. -/
theorem TokenKind.name_injective : Function.Injective TokenKind.name := by
  intro a b h
  cases a <;> cases b <;> first | rfl | exact absurd h (by decide)

/-- Different tokens have different JSON values. -/
theorem Token.json_injective : Function.Injective Token.json := by
  intro a b h
  obtain ⟨hname, hvalue⟩ : a.kind.name = b.kind.name ∧ a.jsonValue = b.jsonValue := by
    simpa only [Token.json, Json.object.injEq, List.cons.injEq, Prod.mk.injEq, Json.text.injEq,
      true_and, and_true] using h
  have hkind := TokenKind.name_injective hname
  cases a with
  | word a =>
    cases b <;> cases hkind
    exact congrArg word (Json.text.inj hvalue)
  | integer a =>
    cases b <;> cases hkind
    exact congrArg integer (Json.integer.inj hvalue)
  | float a =>
    cases b <;> cases hkind
    exact congrArg float (Json.float.inj hvalue)
  | delimiter a =>
    cases b <;> cases hkind
    exact congrArg delimiter (String.singleton_inj.mp (Json.text.inj hvalue))

/-- Different items have different JSON values. -/
theorem Item.json_injective : Function.Injective Item.json := by
  intro a b h
  cases a with
  | token a =>
    cases b with
    | token b =>
      have hjson : a.json = b.json := by simpa [Item.json] using h
      exact congrArg Item.token (Token.json_injective hjson)
    | _ => simp [Item.json] at h
  | field name as =>
    cases b with
    | field other bs =>
      obtain ⟨rfl, htokens⟩ : name = other ∧ as.map Token.json = bs.map Token.json := by
        simpa only [Item.json, Json.object.injEq, List.cons.injEq, Prod.mk.injEq, Json.text.injEq,
          Json.array.injEq, true_and, and_true] using h
      have hinjective := fun a b h => @Token.json_injective a b h
      exact congrArg (field name) ((List.map_inj_right hinjective).mp htokens)
    | _ => simp [Item.json] at h
  | diagnostic a =>
    cases b with
    | diagnostic b =>
      have hlabel : a = b := by simpa [Item.json] using h
      exact congrArg diagnostic hlabel
    | _ => simp [Item.json] at h

/-- Different outcomes have different JSON values. -/
theorem Outcome.json_injective : Function.Injective Outcome.json := by
  intro a b h
  cases a with
  | matched as =>
    cases b with
    | matched bs =>
      have hitems : as.map Item.json = bs.map Item.json := by
        simpa only [Outcome.json, Json.object.injEq, List.cons.injEq, Prod.mk.injEq,
          Json.array.injEq, true_and, and_true] using h
      have hinjective := fun a b h => @Item.json_injective a b h
      exact congrArg matched ((List.map_inj_right hinjective).mp hitems)
    | _ => simp [Outcome.json] at h
  | diagnostic a =>
    cases b with
    | diagnostic b =>
      obtain ⟨label, position⟩ := a
      obtain ⟨other, place⟩ := b
      obtain ⟨rfl, hposition⟩ : label = other ∧ (position : Int) = place := by
        simpa [Outcome.json, Diagnostic.json] using h
      rw [Int.natCast_inj.mp hposition]
    | _ => simp [Outcome.json] at h
  | noMatch =>
    cases b with
    | noMatch => rfl
    | _ => simp [Outcome.json] at h

/-- Every token in it is something else than a decimal number. -/
def Outcome.Floatless (outcome : Outcome) : Prop :=
  ∀ items ∈ outcome.items?, ∀ item ∈ items, ∀ token ∈ item.tokens, token.kind ≠ .float

/-- The JSON value of a token that is no decimal number has no doubles in it. -/
theorem Token.floatless_json {token : Token} (h : token.kind ≠ .float) : token.json.Floatless := by
  have hvalue : token.jsonValue.Floatless := by
    cases token with
    | word text => exact .text text
    | integer value => exact .integer value
    | float value => exact absurd rfl h
    | delimiter mark => exact .text _
  exact .object (List.forall_mem_cons.mpr ⟨.text _, List.forall_mem_singleton.mpr hvalue⟩)

/-- The JSON values of such tokens in an array have no doubles in them. -/
theorem Token.floatless_array {tokens : List Token} (h : ∀ token ∈ tokens, token.kind ≠ .float) :
    (Json.array (tokens.map Token.json)).Floatless :=
  .array (List.forall_mem_map.mpr fun token htoken => floatless_json (h token htoken))

/-- The JSON value of an item of such tokens has no doubles in it. -/
theorem Item.floatless_json {item : Item} (h : ∀ token ∈ item.tokens, token.kind ≠ .float) :
    item.json.Floatless := by
  cases item with
  | token t =>
    have ht := Token.floatless_json (h t (List.mem_singleton.mpr rfl))
    exact .object (List.forall_mem_cons.mpr ⟨.text _, List.forall_mem_singleton.mpr ht⟩)
  | field name tokens =>
    have htokens := Token.floatless_array h
    exact .object (List.forall_mem_cons.mpr ⟨.text _, List.forall_mem_cons.mpr
      ⟨.text name, List.forall_mem_singleton.mpr htokens⟩⟩)
  | diagnostic label =>
    exact .object (List.forall_mem_cons.mpr ⟨.text _, List.forall_mem_singleton.mpr (.text label)⟩)

namespace Outcome

/-- The JSON value of an outcome of such tokens has no doubles in it. -/
theorem floatless_json {outcome : Outcome} (h : outcome.Floatless) : outcome.json.Floatless := by
  cases outcome with
  | matched items =>
    have hitems : (Json.array (items.map Item.json)).Floatless :=
      .array (List.forall_mem_map.mpr fun item hitem =>
        Item.floatless_json (h items rfl item hitem))
    exact .object (List.forall_mem_cons.mpr ⟨.text _, List.forall_mem_singleton.mpr hitems⟩)
  | diagnostic d =>
    have hd : d.json.Floatless := .object (List.forall_mem_cons.mpr
      ⟨.text d.label, List.forall_mem_singleton.mpr (.integer d.position)⟩)
    exact .object (List.forall_mem_cons.mpr ⟨.text _, List.forall_mem_singleton.mpr hd⟩)
  | noMatch => exact .object (List.forall_mem_singleton.mpr (.text _))

/-- An outcome without decimal numbers is known from the text of its JSON form, whatever characters
its words, delimiters, names and labels hold. -/
theorem compact_json_eq_iff {a b : Outcome} (ha : a.Floatless) (hb : b.Floatless) :
    a.json.compact = b.json.compact ↔ a = b := by
  rw [Json.compact_eq_iff (floatless_json ha) (floatless_json hb)]
  exact json_injective.eq_iff

/-- A word that looks like the text between two words in a field is told from the two words. -/
theorem word_like_json_told_apart :
    (matched [.field "name" [.word "a\"\x7d,\x7b\"kind\":\"Word\",\"value\":\"b"]]).json.compact ≠
      (matched [.field "name" [.word "a", .word "b"]]).json.compact := by
  have hword : (matched [.field "name"
      [.word "a\"\x7d,\x7b\"kind\":\"Word\",\"value\":\"b"]]).Floatless := by
    simp [Floatless, items?, Item.tokens, Token.kind]
  have hwords : (matched [.field "name" [.word "a", .word "b"]]).Floatless := by
    simp [Floatless, items?, Item.tokens, Token.kind]
  rw [ne_eq, compact_json_eq_iff hword hwords]
  simp

end Outcome

end MessageGrammar
