import MessageGrammar.Config.Document

/-!
# What is written in configuration files

Every name and every text can be written in a configuration file: between double quotes, where quotes
and backslashes have a backslash before them and control characters are given by their numbers. What
is written so is read again, though only a part of the format is read. In particular there is a file
that gives any name any notation.
-/

namespace MessageGrammar.Config

namespace Scanner

/-- A scanner goes on where the one before it stops. -/
theorem bind_eq {α β : Type} {first : Scanner α} {next : α → Scanner β} {s rest : List Char} {a : α}
    (h : first s = some (a, rest)) : (first >>= next) s = next a rest := by
  simp [bind, StateT.bind, h]

/-- A value is given without taking anything. -/
theorem pure_eq {α : Type} (a : α) (s : List Char) : (pure a : Scanner α) s = some (a, s) :=
  rfl

/-- A character is taken where it stands. -/
theorem char_self (c : Char) (rest : List Char) : char c (c :: rest) = some ((), rest) :=
  if_pos rfl

/-- Spaces and tabs are passed over. -/
theorem gap_eq (s : List Char) : gap s = some ((), s.dropWhile fun c => c = ' ' || c = '\t') :=
  rfl

/-- Spaces are passed over up to a character that is none. -/
theorem gap_cons {c : Char} (rest : List Char) (h : c ≠ ' ') (h' : c ≠ '\t') :
    gap (c :: rest) = some ((), c :: rest) := by
  simp [gap_eq, h, h']

/-- A space is passed over. -/
theorem gap_space (rest : List Char) : gap (' ' :: rest) = gap rest := by
  simp [gap_eq]

/-- A character as it is written between double quotes. -/
def escape (c : Char) : List Char :=
  if c = '"' ∨ c = '\\' then ['\\', c]
  else if isControl c then
    ['\\', 'u', '0', '0', Nat.digitChar (c.toNat / 16), Nat.digitChar (c.toNat % 16)]
  else [c]

/-- A control character is read from its number. -/
theorem scalar?_of_isControl {c : Char} (h : isControl c = true) :
    scalar? ['0', '0', Nat.digitChar (c.toNat / 16), Nat.digitChar (c.toNat % 16)] = some c := by
  have hall : ∀ n < 128, scalar? ['0', '0', Nat.digitChar (n / 16), Nat.digitChar (n % 16)] =
      some (Char.ofNat n) := by
    decide +kernel
  have hsmall : c.toNat < 128 := by
    simp only [isControl, Bool.or_eq_true, Bool.and_eq_true, decide_eq_true_eq] at h
    omega
  rw [hall _ hsmall, Char.ofNat_toNat]

/-- A character between double quotes is read as it was written. -/
theorem quotedRest_escape (c : Char) (s : List Char) :
    quotedRest (escape c ++ s) = (quotedRest s).map fun (text, rest) => (c :: text, rest) := by
  rw [escape]
  split
  next h => rcases h with rfl | rfl <;> rfl
  next h =>
    obtain ⟨hquote, hslash⟩ := not_or.mp h
    split
    next hcontrol =>
      have hscalar := scalar?_of_isControl hcontrol
      simp only [List.cons_append, List.nil_append, quotedRest, hscalar]
    next hcontrol =>
      rw [List.singleton_append, quotedRest, if_neg (by simp [hcontrol, hslash])]
      · exact hquote
      · exact fun _ _ _ _ _ hc => absurd hc hslash
      · exact fun _ _ _ _ _ _ _ _ _ hc => absurd hc hslash
      · exact fun _ _ hc => absurd hc hslash

/-- A text between double quotes is read as it was written. -/
theorem quotedRest_flatMap (text rest : List Char) :
    quotedRest (text.flatMap escape ++ '"' :: rest) = some (text, rest) := by
  induction text with
  | nil => rw [List.flatMap_nil, List.nil_append, quotedRest]
  | cons c text ih =>
    rw [List.flatMap_cons, List.append_assoc, quotedRest_escape, ih]
    rfl

/-- A text in double quotes, each of its characters as it may be written there. -/
def quote (text : String) : List Char :=
  '"' :: (text.toList.flatMap escape ++ ['"'])

/-- A text in double quotes is read as it was written. -/
theorem quoted_quote (text : String) (rest : List Char) :
    quoted (quote text ++ rest) = some (text, rest) := by
  have hrest := quotedRest_flatMap text.toList rest
  simp [quoted, quote, char, bind, StateT.bind, Functor.map, StateT.map, hrest, pure]

/-- A text in double quotes starts with one of them. -/
theorem next?_quote (text : String) (rest : List Char) :
    next? (quote text ++ rest) = some (some '"', quote text ++ rest) :=
  rfl

/-- No spaces stand before a text in double quotes. -/
theorem gap_quote (text : String) (rest : List Char) :
    gap (quote text ++ rest) = some ((), quote text ++ rest) :=
  gap_cons _ (by decide) (by decide)

/-- A quoted key is read up to the sign behind it. -/
theorem path_quote (name : String) (rest : List Char) :
    path (quote name ++ ' ' :: '=' :: rest) = some ([name], '=' :: rest) := by
  have hgap : gap (' ' :: '=' :: rest) = some ((), '=' :: rest) :=
    (gap_space _).trans (gap_cons rest (by decide) (by decide))
  rw [path, keys]
  simp only [bind, StateT.bind, gap_quote, key, next?_quote, quoted_quote, hgap, Option.bind_some]
  simp [next?, pure_eq]

/-- A quoted text is read as a value. -/
theorem value_quote (text : String) (rest : List Char) :
    value (quote text ++ rest) = some (.text text, rest) := by
  rw [value, valueWithin]
  simp only [bind, StateT.bind, next?_quote, Functor.map, StateT.map, quoted_quote,
    Option.bind_some]
  rfl

end Scanner

namespace Document

/-- Lines are read one by one. -/
theorem lines_of_line {document next : Document} {s rest : List Char}
    (h : document.line s = some (next, rest)) (hless : rest.length < s.length) :
    document.lines s = next.lines rest := by
  have hne : s ≠ [] := by
    rintro rfl
    exact Nat.not_lt_zero _ hless
  rw [lines, if_neg hne, h]
  exact if_pos hless

/-- The header of the table of notations is read. -/
theorem line_header (rest : List Char) :
    line ⟨[], []⟩ ("[grammars]\n".toList ++ rest) =
      some (⟨[("grammars", .branch .header [])], ["grammars"]⟩, rest) := by
  simp [line, Scanner.gap_eq, Scanner.takeWhile, Scanner.next?, Scanner.char, Scanner.path,
    Scanner.keys, Scanner.key, Scanner.comment, Scanner.lineEnd, Entry.openTable, Entry.change,
    Entry.put, bind, StateT.bind, Scanner.pure_eq]

/-- A quoted name with a quoted notation behind it is read. -/
theorem line_grammar (name source : String) (rest : List Char) :
    line ⟨[("grammars", .branch .header [])], ["grammars"]⟩
        (Scanner.quote name ++ ' ' :: '=' :: ' ' :: (Scanner.quote source ++ '\n' :: rest)) =
      some (⟨[("grammars", .branch .header [(name, .leaf (.text source))])], ["grammars"]⟩, rest) := by
  have hpath := Scanner.path_quote name (' ' :: (Scanner.quote source ++ '\n' :: rest))
  have hgap := (Scanner.gap_space _).trans (Scanner.gap_quote source ('\n' :: rest))
  have hvalue := Scanner.value_quote source ('\n' :: rest)
  have hassign : Entry.assign ["grammars"] [name] (.text source)
      [("grammars", .branch .header [])] =
        some [("grammars", .branch .header [(name, .leaf (.text source))])] := by
    simp [Entry.assign, Entry.change, Entry.put]
  have hend : Scanner.gap ('\n' :: rest) = some ((), '\n' :: rest) :=
    Scanner.gap_cons rest (by decide) (by decide)
  rw [line, Scanner.bind_eq (Scanner.gap_quote name _),
    Scanner.bind_eq (Scanner.next?_quote name _)]
  show (Scanner.path >>= _) (_ ++ _) = _
  rw [Scanner.bind_eq hpath, Scanner.bind_eq (Scanner.char_self '=' _), Scanner.bind_eq hgap,
    Scanner.bind_eq hvalue, hassign]
  show ((pure _ : Scanner Document) >>= _) _ = _
  rw [Scanner.bind_eq rfl]
  show (Scanner.gap >>= _) _ = _
  rw [Scanner.bind_eq hend]
  rfl

/-- A text that does not begin with a byte order mark is read from its beginning. -/
theorem unmarked_ofList {s : List Char} (h : s.head? ≠ some '\ufeff') :
    unmarked (String.ofList s) = s := by
  rw [unmarked, String.toList_ofList]
  split
  next => exact absurd rfl h
  next => rfl

/-- A file that gives a quoted name a quoted notation. -/
def grammarFile (name source : String) : String :=
  String.ofList ("[grammars]\n".toList ++
    (Scanner.quote name ++ ' ' :: '=' :: ' ' :: (Scanner.quote source ++ ['\n'])))

/-- What a file says about a name and a notation is read from it. -/
theorem read?_grammarFile (name source : String) :
    read? (grammarFile name source) = some [("grammars", .table [(name, .text source)])] := by
  have hunmarked : unmarked (grammarFile name source) = "[grammars]\n".toList ++
      (Scanner.quote name ++ ' ' :: '=' :: ' ' :: (Scanner.quote source ++ ['\n'])) := by
    have hheader : "[grammars]\n".toList = '[' :: "grammars]\n".toList := by decide +kernel
    refine unmarked_ofList ?_
    rw [hheader, List.cons_append, List.head?_cons]
    decide
  rw [read?, hunmarked, lines_of_line (line_header _), lines_of_line (line_grammar _ _ _), lines,
    if_pos rfl]
  · rfl
  · simp only [List.length_append, List.length_cons]
    omega
  · have hpos : 0 < "[grammars]\n".toList.length := by decide
    simp only [List.length_append]
    omega

example : grammarFile "ages" "Number[1:]" = "[grammars]\n\"ages\" = \"Number[1:]\"\n" := by
  decide +kernel

end Document

end MessageGrammar.Config
