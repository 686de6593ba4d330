import Mathlib.Data.List.Nodup
import MessageGrammar.CommandLine.Report
import MessageGrammar.Proofs.ConfigurationFiles
import MessageGrammar.Proofs.WellFormedGrammars

/-!
# Grammars from a configuration file

A file that gives a notation a name is put over the defaults and over other files. The settings that
come out hold the notation by the lower-case form of the name, because that is how names are put in
place, and leave all other names what they were. A name is looked up as it is written. So what a file
gives a name is found by it just if the name is in lower case.

How files are read is left open: `read` finds the members that the text of a file holds, and all that
is taken for granted of it is what it finds in the one file that is spoken of. So a file may be written
in any way that says the same.
-/

namespace MessageGrammar

namespace Config.Value

/-- No two members have one name. -/
def Distinct (members : Members) : Prop :=
  (members.map Prod.fst).Nodup

/-- Behind a put there is what was put and what was there. -/
theorem mem_put {key : String} {value : Value} {members : Members} {member : String × Value}
    (h : member ∈ put key value members) : member = (key, value) ∨ member ∈ members := by
  induction members with
  | nil => exact .inl (List.mem_singleton.mp h)
  | cons present others ih =>
    obtain ⟨name, old⟩ := present
    rw [put] at h
    split at h
    next => exact (List.mem_cons.mp h).imp_right (List.mem_cons_of_mem _)
    next =>
      rcases List.mem_cons.mp h with hmember | hmember
      · exact .inr (hmember ▸ List.mem_cons_self)
      · exact (ih hmember).imp_right (List.mem_cons_of_mem _)

/-- What is put takes the place of what has its name. -/
theorem Distinct.put {members : Members} (h : Distinct members) (key : String) (value : Value) :
    Distinct (put key value members) := by
  induction members with
  | nil => exact List.nodup_singleton key
  | cons member others ih =>
    obtain ⟨name, old⟩ := member
    obtain ⟨hname, hothers⟩ := List.nodup_cons.mp h
    rw [Value.put]
    split
    next hkey => exact hkey ▸ h
    next hkey =>
      refine List.nodup_cons.mpr ⟨fun hmem => ?_, ih hothers⟩
      obtain ⟨member, hmember, hsame⟩ := List.mem_map.mp hmem
      rcases mem_put hmember with rfl | hmember
      · exact hkey hsame.symm
      · exact hname (hsame ▸ List.mem_map_of_mem hmember)

/-- What is not a table has no members, and so no two of one name. -/
theorem distinct_members (value : Value) (h : ∀ members, value ≠ table members) :
    Distinct value.members := by
  cases value with
  | table members => exact absurd rfl (h members)
  | _ => exact List.nodup_nil

/-- A layer puts one member in place: a table goes over what is there, any other value instead of
it. -/
theorem layer_eq_put (target : Members) (key : String) (value : Value) :
    (∃ members, value = table members ∧ layer target key value = Value.put (Text.lowercase key)
      (layerAll ((target.lookup (Text.lowercase key)).getD (table [])) members) target) ∨
    (∀ members, value ≠ table members) ∧
      layer target key value = Value.put (Text.lowercase key) value target := by
  cases value with
  | table members => exact .inl ⟨members, rfl, by rw [layer]⟩
  | _ => exact .inr ⟨nofun, rfl⟩

/-- Names stay distinct under a layer. -/
theorem Distinct.layer {target : Members} (h : Distinct target) (key : String) (value : Value) :
    Distinct (layer target key value) := by
  rcases layer_eq_put target key value with ⟨members, -, hlayer⟩ | ⟨-, hlayer⟩
  · exact hlayer ▸ h.put _ _
  · exact hlayer ▸ h.put _ _

/-- Names stay distinct under the members of a table. -/
theorem distinct_layerAll {target : Value} (h : Distinct target.members) (members : Members) :
    Distinct (layerAll target members).members := by
  induction members generalizing target with
  | nil => rwa [layerAll]
  | cons member others ih =>
    rw [layerAll]
    exact ih (h.layer member.1 member.2)

/-- Names stay distinct under a value at a path. -/
theorem distinct_assign {target : Value} (h : Distinct target.members) (value : Value)
    (path : List Segment) : Distinct (assign value path target).members := by
  match path with
  | [] => exact h
  | [.key name] => exact h.layer name value
  | [.index _] => exact List.nodup_nil
  | .key _ :: _ :: _ => exact h.put _ _
  | .index _ :: _ :: _ => exact List.nodup_nil

/-- In each section of a configuration no two members have one name. -/
def Orderly (root : Members) : Prop :=
  ∀ name value, root.lookup name = some value → Distinct value.members

/-- A section with distinct names may be put into a configuration. -/
theorem Orderly.put {root : Members} (h : Orderly root) (key : String) {value : Value}
    (hvalue : Distinct value.members) : Orderly (put key value root) := by
  intro name found hfound
  by_cases hname : name = key
  · rw [hname, lookup_put_self] at hfound
    cases hfound
    exact hvalue
  · rw [lookup_put_of_ne hname] at hfound
    exact h name found hfound

/-- What is found in a configuration, or is taken if there is nothing, has distinct names. -/
theorem Orderly.getD {root : Members} (h : Orderly root) (name : String) {value : Value}
    (hvalue : Distinct value.members) : Distinct ((root.lookup name).getD value).members := by
  cases hfound : root.lookup name with
  | none => exact hvalue
  | some found => exact h name found hfound

/-- A configuration stays orderly under a value at a path. -/
theorem Orderly.assign {root : Value} (h : Orderly root.members) (value : Value)
    (path : List Segment) : Orderly (assign value path root).members := by
  match path with
  | [] => exact h
  | [.key name] =>
    show Orderly (layer root.members name value)
    rcases layer_eq_put root.members name value with ⟨members, -, hlayer⟩ | ⟨hvalue, hlayer⟩
    · have hnone : Distinct (table []).members := List.nodup_nil
      rw [hlayer]
      exact h.put _ (distinct_layerAll (h.getD _ hnone) members)
    · rw [hlayer]
      exact h.put _ (distinct_members value hvalue)
  | [.index _] => exact nofun
  | .key name :: next :: path =>
    have hnone : Distinct absent.members := List.nodup_nil
    exact h.put _ (distinct_assign (h.getD _ hnone) value (next :: path))
  | .index _ :: _ :: _ => exact nofun

end Config.Value

namespace Settings

open Config Notation

/-- A configuration stays orderly under the members of a file. -/
theorem orderly_addMembers {root : Value} (h : Value.Orderly root.members) (members : Members) :
    Value.Orderly (addMembers root members).members := by
  induction members generalizing root with
  | nil => exact h
  | cons member others ih => exact ih (h.assign member.2 _)

variable {read : String → Option Members}

/-- A configuration stays orderly under files. -/
theorem orderly_addFiles {root result : Value} {files : List (Option String)}
    (hroot : Value.Orderly root.members) (h : addFiles read root files = .ok result) :
    Value.Orderly result.members := by
  induction files generalizing root with
  | nil =>
    cases h
    exact hroot
  | cons file others ih =>
    cases file with
    | none => cases h
    | some text =>
      rw [addFiles] at h
      split at h
      next => cases h
      next members _ => exact ih (orderly_addMembers hroot members) h

/-- The names in each section of the default settings are distinct. -/
theorem orderly_defaults : Value.Orderly defaults := by
  have hall : ∀ member ∈ defaults, Value.Distinct member.2.members := by
    simp [defaults, Value.Distinct, Value.members]
  intro name value h
  obtain ⟨before, after, hdefaults, -⟩ := List.lookup_eq_some_iff.mp h
  exact hall (name, value) (hdefaults ▸ List.mem_append_cons_self)

/-- Behind some files come others. -/
theorem addFiles_append (root : Value) (files others : List (Option String)) :
    addFiles read root (files ++ others) =
      (addFiles read root files).bind (addFiles read · others) := by
  induction files generalizing root with
  | nil => rfl
  | cons file files ih =>
    cases file with
    | none => rfl
    | some text =>
      rw [List.cons_append, addFiles, addFiles]
      split
      next => rfl
      next => exact ih _

/-- The first entry is found by its name, and hides what comes behind it only from that name. -/
theorem lookup_entry {α : Type} (name other : String) (value : α) (others : List (String × α)) :
    ((name, value) :: others).lookup other =
      if other = name then some value else others.lookup other := by
  rw [List.lookup_cons]
  by_cases hname : other = name
  · rw [beq_iff_eq.mpr hname, if_pos hname]
  · rw [beq_eq_false_iff_ne.mpr hname, if_neg hname]

/-- A notation that is put into its place is found by its name, and leaves what other names have. -/
theorem lookup_insert {name : String} {grammars : List (String × String)}
    (h : grammars.lookup name = none) (source other : String) :
    (insert name source grammars).lookup other =
      if other = name then some source else grammars.lookup other := by
  induction grammars with
  | nil => exact lookup_entry name other source []
  | cons grammar grammars ih =>
    obtain ⟨present, text⟩ := grammar
    rw [insert]
    split
    next => exact lookup_entry name other source _
    next =>
      rw [lookup_entry] at h
      obtain ⟨hname, hrest⟩ : name ≠ present ∧ grammars.lookup name = none := by
        split at h
        next => cases h
        next hname => exact ⟨hname, h⟩
      rw [lookup_entry, lookup_entry, ih hrest]
      by_cases hother : other = present
      · rw [if_pos hother, if_pos hother, if_neg (hother ▸ hname.symm)]
      · rw [if_neg hother, if_neg hother]

/-- The notations of a table are those of its members, put into their places one by one. -/
theorem grammarsOf_cons_eq_ok {name : String} {value : Value} {others : Members}
    {grammars : List (String × String)} :
    grammarsOf ((name, value) :: others) = .ok grammars ↔ ∃ source rest,
      value.text? = some source ∧ grammarsOf others = .ok rest ∧
        insert name source rest = grammars := by
  rw [grammarsOf, textOf]
  cases value.text? with
  | none => exact ⟨nofun, nofun⟩
  | some source =>
    cases grammarsOf others with
    | error e => exact ⟨nofun, nofun⟩
    | ok rest =>
      constructor
      · intro h
        exact ⟨source, rest, rfl, rfl, Except.ok.inj h⟩
      · rintro ⟨_, _, hsource, hrest, rfl⟩
        cases hsource
        cases hrest
        rfl

/-- A table whose values all have texts holds notations. -/
theorem exists_grammarsOf_iff {members : Members} :
    (∃ grammars, grammarsOf members = .ok grammars) ↔
      ∀ member ∈ members, ∃ source, member.2.text? = some source := by
  induction members with
  | nil => exact ⟨nofun, fun _ => ⟨[], rfl⟩⟩
  | cons member others ih =>
    obtain ⟨name, value⟩ := member
    rw [List.forall_mem_cons, ← ih]
    constructor
    · rintro ⟨grammars, h⟩
      obtain ⟨source, rest, hsource, hrest, -⟩ := grammarsOf_cons_eq_ok.mp h
      exact ⟨⟨source, hsource⟩, rest, hrest⟩
    · rintro ⟨⟨source, hsource⟩, rest, hrest⟩
      exact ⟨_, grammarsOf_cons_eq_ok.mpr ⟨source, rest, hsource, hrest, rfl⟩⟩

/-- The notation that a table holds by a name is the text of the member of that name. -/
theorem lookup_grammarsOf {members : Members} {grammars : List (String × String)}
    (hdistinct : Value.Distinct members) (h : grammarsOf members = .ok grammars) (name : String) :
    grammars.lookup name = (members.lookup name).bind Value.text? := by
  induction members generalizing grammars name with
  | nil =>
    cases h
    rfl
  | cons member others ih =>
    obtain ⟨key, value⟩ := member
    obtain ⟨hkey, hothers⟩ := List.nodup_cons.mp hdistinct
    obtain ⟨source, rest, hsource, hrest, rfl⟩ := grammarsOf_cons_eq_ok.mp h
    have hnone : rest.lookup key = none := by
      have habsent : others.lookup key = none := by
        refine List.lookup_eq_none_iff.mpr fun other hother => bne_iff_ne.mpr fun heq => ?_
        exact hkey (List.mem_map.mpr ⟨other, hother, heq.symm⟩)
      rw [ih hothers hrest key, habsent, Option.bind_none]
    rw [lookup_insert hnone, lookup_entry, ih hothers hrest]
    split
    next => exact hsource.symm
    next => rfl

/-- Settings come from the texts in the sections for parsing and output and from the table of
notations. -/
theorem ofMembers_eq_ok_iff {root : Members} {settings : Settings} :
    ofMembers root = .ok settings ↔
      (sectionMember root "parse" "default_grammar").bind (textOf "default_grammar") =
        .ok settings.defaultGrammar ∧
      (sectionMember root "output" "format").bind formatOf = .ok settings.format ∧
      ∃ table, root.lookup "grammars" = some (.table table) ∧
        grammarsOf table = .ok settings.grammars := by
  simp only [ofMembers, bind, bind_eq_ok_iff, pure, Except.pure]
  constructor
  · rintro ⟨parse, hparse, name, hname, output, houtput, format, hformat, h⟩
    split at h
    next table htable =>
      obtain ⟨grammars, hgrammars, h⟩ := bind_eq_ok_iff.mp h
      cases h
      exact ⟨⟨parse, hparse, hname⟩, ⟨output, houtput, hformat⟩, table, htable, hgrammars⟩
    next => cases h
  · rintro ⟨⟨parse, hparse, hname⟩, ⟨output, houtput, hformat⟩, table, htable, hgrammars⟩
    refine ⟨parse, hparse, _, hname, output, houtput, _, hformat, ?_⟩
    rw [htable]
    exact bind_eq_ok_iff.mpr ⟨_, hgrammars, rfl⟩

/-- A section is the same under a put of another one. -/
theorem sectionMember_put {name key : String} (h : name ≠ key) (root : Members) (value : Value)
    (member : String) :
    sectionMember (Value.put key value root) name member = sectionMember root name member := by
  rw [sectionMember, sectionMember, Value.lookup_put_of_ne h]

/-- Only the notations change under a put of another table of notations. -/
theorem ofMembers_put_grammars {root table : Members} {base : Settings}
    {grammars : List (String × String)} (hbase : ofMembers root = .ok base)
    (h : grammarsOf table = .ok grammars) :
    ofMembers (Value.put "grammars" (.table table) root) = .ok { base with grammars } := by
  obtain ⟨hname, hformat, -⟩ := ofMembers_eq_ok_iff.mp hbase
  refine ofMembers_eq_ok_iff.mpr ⟨?_, ?_, table, Value.lookup_put_self _ _ root, h⟩
  · rw [sectionMember_put (by decide)]
    exact hname
  · rw [sectionMember_put (by decide)]
    exact hformat

/-- A table of notations with one more text in it holds this text by its name, and what it held by
other names. -/
theorem grammarsOf_put {table : Members} {grammars : List (String × String)}
    (hdistinct : Value.Distinct table) (h : grammarsOf table = .ok grammars)
    (name source : String) :
    ∃ placed, grammarsOf (Value.put name (.text source) table) = .ok placed ∧
      ∀ other, placed.lookup other = if other = name then some source else grammars.lookup other := by
  have htexts := exists_grammarsOf_iff.mp ⟨grammars, h⟩
  obtain ⟨placed, hplaced⟩ :
      ∃ placed, grammarsOf (Value.put name (.text source) table) = .ok placed := by
    refine exists_grammarsOf_iff.mpr fun member hmember => ?_
    rcases Value.mem_put hmember with rfl | hmember
    · exact ⟨source, rfl⟩
    · exact htexts member hmember
  refine ⟨placed, hplaced, fun other => ?_⟩
  rw [lookup_grammarsOf (hdistinct.put _ _) hplaced, lookup_grammarsOf hdistinct h]
  split
  next hother =>
    rw [hother, Value.lookup_put_self]
    rfl
  next hother => rw [Value.lookup_put_of_ne hother]

/-- A file that only gives a notation a name puts the notation into the table of notations, by the
lower-case form of the name. -/
theorem addMembers_grammar {root : Value} {table : Members}
    (h : root.members.lookup "grammars" = some (.table table)) (name source : String) :
    addMembers root [("grammars", .table [(name, .text source)])] =
      .table (Value.put "grammars"
        (.table (Value.put (Text.lowercase name) (.text source) table)) root.members) := by
  have hpath : Segment.path? "grammars" = some [.key "grammars"] := by decide +kernel
  have hlower : Text.lowercase "grammars" = "grammars" := by decide +kernel
  rw [addMembers, addMembers, hpath]
  simp only [Option.getD_some, Value.assign, Value.layer, hlower, Value.layerAll, h]
  rfl

/-- Settings without single values come from the files over the defaults. -/
theorem loadWith_eq (files : List (Option String)) :
    loadWith read files [] =
      (addFiles read (.table defaults) files).bind fun root => ofMembers root.members :=
  rfl

/-- A file on top of others that only gives a notation a name: the notation is found by the
lower-case form of the name, and everything else is as without the file. -/
theorem loadWith_append_grammar {files : List (Option String)} {base : Settings}
    {file name source : String} (hbase : loadWith read files [] = .ok base)
    (h : read file = some [("grammars", .table [(name, .text source)])]) :
    ∃ settings, loadWith read (files ++ [some file]) [] = .ok settings ∧
      settings.defaultGrammar = base.defaultGrammar ∧ settings.format = base.format ∧
      ∀ other, settings.grammar? other =
        if other = Text.lowercase name then some source else base.grammar? other := by
  obtain ⟨root, hroot, hsettings⟩ := bind_eq_ok_iff.mp ((loadWith_eq files).symm.trans hbase)
  obtain ⟨-, -, table, htable, hgrammars⟩ := ofMembers_eq_ok_iff.mp hsettings
  have horderly : Value.Orderly (Value.table defaults).members := orderly_defaults
  have hdistinct : Value.Distinct table := orderly_addFiles horderly hroot "grammars" _ htable
  obtain ⟨placed, hplaced, hlookup⟩ :=
    grammarsOf_put hdistinct hgrammars (Text.lowercase name) source
  refine ⟨{ base with grammars := placed }, ?_, rfl, rfl, hlookup⟩
  have hlayered : addFiles read root [some file] =
      .ok (addMembers root [("grammars", .table [(name, .text source)])]) := by
    rw [addFiles, h]
    rfl
  rw [loadWith_eq, addFiles_append, hroot]
  show (addFiles read root [some file]).bind _ = _
  rw [hlayered, addMembers_grammar htable]
  exact ofMembers_put_grammars hsettings hplaced

/-- There are default settings. -/
theorem exists_loadWith_defaults : ∃ base, loadWith read [] [] = .ok base := by
  have h : (ofMembers defaults).isOk = true := by decide +kernel
  cases hload : ofMembers defaults with
  | ok base => exact ⟨base, hload⟩
  | error e =>
    rw [hload] at h
    cases h

/-- A name with capital letters is not found where all names are in lower case. -/
theorem lookup_eq_none_of_lowercase {α : Type} {entries : List (String × α)} {name : String}
    (h : ∀ entry ∈ entries, Text.lowercase entry.1 = entry.1) (hname : Text.lowercase name ≠ name) :
    entries.lookup name = none := by
  refine List.lookup_eq_none_iff.mpr fun entry hentry => bne_iff_ne.mpr fun heq => hname ?_
  rw [heq, h entry hentry]

/-- No default notation has a name with capital letters. -/
theorem grammar?_defaults_eq_none {base : Settings} (hbase : loadWith read [] [] = .ok base)
    {name : String} (hname : Text.lowercase name ≠ name) : base.grammar? name = none := by
  have hmembers : ofMembers defaults = .ok base := hbase
  obtain ⟨-, -, table, htable, hgrammars⟩ := ofMembers_eq_ok_iff.mp hmembers
  have hdistinct : Value.Distinct table := orderly_defaults "grammars" _ htable
  have hlower : ∀ member ∈ table, Text.lowercase member.1 = member.1 := by
    cases htable
    decide +kernel
  rw [grammar?, lookup_grammarsOf hdistinct hgrammars, lookup_eq_none_of_lowercase hlower hname]
  rfl

/-- A file over the defaults that only gives a notation a name: the notation is found by the lower-case
form of the name, other names find what the defaults have, and the name itself finds nothing if it is
not in lower case. -/
theorem exists_loadWith_grammar {file name source : String}
    (h : read file = some [("grammars", .table [(name, .text source)])]) :
    ∃ base settings, loadWith read [] [] = .ok base ∧ loadWith read [some file] [] = .ok settings ∧
      (∀ other, settings.grammar? other =
        if other = Text.lowercase name then some source else base.grammar? other) ∧
      (Text.lowercase name ≠ name → settings.grammar? name = none) := by
  obtain ⟨base, hbase⟩ := @exists_loadWith_defaults read
  obtain ⟨settings, hload, -, -, hlookup⟩ := loadWith_append_grammar hbase h
  refine ⟨base, settings, hbase, hload, hlookup, fun hname => ?_⟩
  rw [hlookup, if_neg hname.symm]
  exact grammar?_defaults_eq_none hbase hname

end Settings

namespace CommandLine

/-- A notation is available by a name on top of other settings: the name finds the notation, other
names find what they found, and the program chooses by the name the grammar of the notation. -/
structure Available (base settings : Settings) (name source : String) : Prop where
  /-- The notation is found by the name. -/
  found : settings.grammar? name = some source
  /-- Other names keep their notations. -/
  kept (other : String) (h : other ≠ name) : settings.grammar? other = base.grammar? other
  /-- The grammar of that name is the grammar of the notation. -/
  chosen : chosenGrammar settings (.named name) =
    (Grammar.compile source).mapError fun e => "grammar `" ++ name ++ "`: " ++ e.message

/-- What is found by a name is what the program chooses by it. -/
theorem chosenGrammar_of_found {settings : Settings} {name source : String}
    (h : settings.grammar? name = some source) :
    chosenGrammar settings (.named name) =
      (Grammar.compile source).mapError fun e => "grammar `" ++ name ++ "`: " ++ e.message := by
  show chosenGrammar.byName settings name = _
  rw [chosenGrammar.byName, h]

/-- No built-in grammar has a name with capital letters. -/
theorem byName?_eq_none {name : String} (h : Text.lowercase name ≠ name) :
    Grammar.Builtin.byName? name = none := by
  have hlower : ∀ entry ∈ Grammar.Builtin.table, Text.lowercase entry.1 = entry.1 := by
    decide +kernel
  exact Settings.lookup_eq_none_of_lowercase hlower h

/-- A name with capital letters that is not found in the settings is an unknown name. -/
theorem chosenGrammar_of_not_found {settings : Settings} {name : String}
    (h : settings.grammar? name = none) (hname : Text.lowercase name ≠ name) :
    chosenGrammar settings (.named name) = .error ("Unknown grammar `" ++ name ++ "`") := by
  show chosenGrammar.byName settings name = _
  rw [chosenGrammar.byName, h, byName?_eq_none hname]
  rfl

/-- The settings of a file that only gives a notation a name always exist, however files are read.
They hold the notation by the lower-case form of the name, so it is available by the name itself just
if this is in lower case. If it is not, nothing is found by the name, neither in the settings nor among
the built-in grammars. -/
theorem configured_grammar_available_iff {read : String → Option Config.Members}
    {file name source : String}
    (h : read file = some [("grammars", .table [(name, .text source)])]) :
    ∃ base settings, Settings.loadWith read [] [] = .ok base ∧
      Settings.loadWith read [some file] [] = .ok settings ∧
      Available base settings (Text.lowercase name) source ∧
      (Available base settings name source ↔ Text.lowercase name = name) ∧
      (Text.lowercase name ≠ name → settings.grammar? name = none ∧
        chosenGrammar settings (.named name) = .error ("Unknown grammar `" ++ name ++ "`")) := by
  obtain ⟨base, settings, hbase, hload, hlookup, hnone⟩ := Settings.exists_loadWith_grammar h
  have hlower : Available base settings (Text.lowercase name) source := by
    have hfound : settings.grammar? (Text.lowercase name) = some source := by
      rw [hlookup, if_pos rfl]
    refine ⟨hfound, fun other hother => ?_, chosenGrammar_of_found hfound⟩
    rw [hlookup, if_neg hother]
  refine ⟨base, settings, hbase, hload, hlower, ⟨fun havailable => ?_, fun hname => ?_⟩, ?_⟩
  · by_contra hname
    have hfound := havailable.found
    rw [hnone hname] at hfound
    cases hfound
  · rw [← hname]
    exact hlower
  · exact fun hname => ⟨hnone hname, chosenGrammar_of_not_found (hnone hname) hname⟩

/-- A notation with a name in lower case is available by it where the file is read by
`Document.read?`. -/
theorem ages_available :
    ∃ base settings, Settings.load [] [] = .ok base ∧
      Settings.load [some "[grammars]\n\"ages\" = \"Number[1:]\"\n"] [] = .ok settings ∧
      Available base settings "ages" "Number[1:]" := by
  have hfile : Config.Document.grammarFile "ages" "Number[1:]" =
      "[grammars]\n\"ages\" = \"Number[1:]\"\n" := by decide +kernel
  have hread := Config.Document.read?_grammarFile "ages" "Number[1:]"
  obtain ⟨base, settings, hbase, hload, -, havailable, -⟩ := configured_grammar_available_iff hread
  rw [hfile] at hload
  exact ⟨base, settings, hbase, hload, havailable.mpr (by decide +kernel)⟩

/-- A notation with a capital letter in its name is not available by it: the program does not know
the name. -/
theorem capital_ages_not_available :
    Config.Document.read? "[grammars]\n\"Ages\" = \"Number[1:]\"\n" =
        some [("grammars", .table [("Ages", .text "Number[1:]")])] ∧
      ∃ settings,
        Settings.load [some "[grammars]\n\"Ages\" = \"Number[1:]\"\n"] [] = .ok settings ∧
        settings.grammar? "Ages" = none ∧
        chosenGrammar settings (.named "Ages") = .error "Unknown grammar `Ages`" := by
  have hfile : Config.Document.grammarFile "Ages" "Number[1:]" =
      "[grammars]\n\"Ages\" = \"Number[1:]\"\n" := by decide +kernel
  have hread := Config.Document.read?_grammarFile "Ages" "Number[1:]"
  have hname : Text.lowercase "Ages" ≠ "Ages" := by decide +kernel
  rw [hfile] at hread
  obtain ⟨-, settings, -, hload, -, hnone⟩ := Settings.exists_loadWith_grammar hread
  exact ⟨hread, settings, hload, hnone hname, chosenGrammar_of_not_found (hnone hname) hname⟩

end CommandLine

end MessageGrammar
