import BrokerPolicy.PolicyFile.Reader
import BrokerPolicy.Proofs.Field.Reading
import BrokerPolicy.Proofs.Schema
import BrokerPolicy.Proofs.Toml.Reader

set_option autoImplicit false

/-!
The documents that are policy files. Which documents fit, what a file then holds, and what is told
of one that does not fit are each said of the tree alone; the reader agrees with all three.
-/

namespace BrokerPolicy.PolicyFile

open Schema
open Toml (IsTree)

inductive GivesLevel : Document → String → Prop
  | emptyTable : GivesLevel (.table []) defaultLogLevel
  | named (level : String) : GivesLevel (.table [(logLevelName, .text level)]) level
  | emptyArray : GivesLevel (.array []) defaultLogLevel
  | leading (level : String) (rest : List Document) : GivesLevel (.array (.text level :: rest)) level

def Field.Takes (d : Document) : Field → Prop
  | .timeout | .threshold => ∃ n : Nat, d = .integer n
  | .shuffle => ∃ b, d = .boolean b
  | .tunables => ∃ names : List String, d = .array (names.map .text)
  | .properties => ∃ entries, d = .table entries
  | .observability => ∃ level, GivesLevel d level

def Field.IsDefault (f : PolicyFile) : Field → Prop
  | .timeout => f.timeoutSeconds = none
  | .threshold => f.thresholdSeconds = none
  | .shuffle => f.shuffle = none
  | .tunables => f.tunables = []
  | .properties => f.properties = []
  | .observability => f.logLevel = defaultLogLevel

def Field.Agrees (f g : PolicyFile) : Field → Prop
  | .timeout => g.timeoutSeconds = f.timeoutSeconds
  | .threshold => g.thresholdSeconds = f.thresholdSeconds
  | .shuffle => g.shuffle = f.shuffle
  | .tunables => g.tunables = f.tunables
  | .properties => g.properties = f.properties
  | .observability => g.logLevel = f.logLevel

def Field.IsGiven (f : PolicyFile) (d : Document) : Field → Prop
  | .timeout => ∃ s, f.timeoutSeconds = some s ∧ d = .integer s.toNat
  | .threshold => ∃ s, f.thresholdSeconds = some s ∧ d = .integer s.toNat
  | .shuffle => ∃ b, f.shuffle = some b ∧ d = .boolean b
  | .tunables => d = .array (f.tunables.map .text)
  | .properties => d.Says (.table f.properties)
  | .observability => GivesLevel d f.logLevel

/-- A field of a file is what its entry says, and its default where there is none. -/
def Field.Holds (f : PolicyFile) (field : Field) : Option Document → Prop
  | none => field.IsDefault f
  | some d => field.IsGiven f d

/-- An entry of a file is under the name of a field that takes it. -/
def Fits (e : String × Document) : Prop := ∃ field : Field, e.1 = field.name ∧ field.Takes e.2

def levelProblem? (e : String × Document) : Option Problem :=
  if e.1 = logLevelName then textProblem? e.2
  else some (.unknownField e.1 [logLevelName])

def observabilityProblem? : Document → Option Problem
  | .table entries => entries.findSome? levelProblem?
  | .array items => items.head?.bind textProblem?
  | d => some (.invalidType (foundIn d) .observability)

def propertiesProblem? : Document → Option Problem
  | .table _ => none
  | d => some (.invalidType (foundIn d) .table)

def Field.problem? (d : Document) : Field → Option Problem
  | .timeout | .threshold => secondsProblem? d
  | .shuffle => booleanProblem? d
  | .tunables => textsProblem? d
  | .properties => propertiesProblem? d
  | .observability => observabilityProblem? d

def entryProblem? (e : String × Document) : Option Problem :=
  match Field.ofName? e.1 with
  | none => some (.unknownField e.1 (Field.all.map Field.name))
  | some field => field.problem? e.2

theorem Field.ofName?_eq_some_iff (name : String) (field : Field) :
    Field.ofName? name = some field ↔ name = field.name := by
  constructor
  · intro h
    have hfound := List.find?_some h
    exact (of_decide_eq_true hfound).symm
  · rintro rfl
    cases field <;> decide

theorem Field.name_injective : Function.Injective Field.name := by
  intro field other h
  have hfield := (Field.ofName?_eq_some_iff field.name field).2 rfl
  rw [(Field.ofName?_eq_some_iff field.name other).2 h] at hfield
  exact (Option.some.inj hfield).symm

theorem levelProblem?_eq_none_iff (e : String × Document) :
    levelProblem? e = none ↔ e.1 = logLevelName ∧ ∃ s, e.2 = .text s := by
  by_cases hname : e.1 = logLevelName <;> simp [levelProblem?, hname]

theorem observabilityProblem?_eq_none_iff {d : Document} (h : IsTree d) :
    observabilityProblem? d = none ↔ ∃ level, GivesLevel d level := by
  constructor
  · intro hnone
    match d, h with
    | .array [], _ => exact ⟨_, .emptyArray⟩
    | .array (first :: rest), _ =>
      obtain ⟨level, rfl⟩ := (textProblem?_eq_none_iff first).1 hnone
      exact ⟨level, .leading level rest⟩
    | .table [], _ => exact ⟨_, .emptyTable⟩
    | .table (e :: rest), .table distinct _ =>
      have hall := List.findSome?_eq_none_iff.1 hnone
      obtain ⟨hname, level, htext⟩ := (levelProblem?_eq_none_iff e).1 (hall e List.mem_cons_self)
      cases rest with
      | nil =>
        obtain ⟨name, value⟩ := e
        subst hname htext
        exact ⟨level, .named level⟩
      | cons e' rest =>
        -- Names are distinct, so only one entry can be a log level.
        have hname' := ((levelProblem?_eq_none_iff e').1 (hall e' (by simp))).1
        simp [hname, hname'] at distinct
  · rintro ⟨level, hgives⟩
    cases hgives <;> rfl

theorem Field.problem?_eq_none_iff {d : Document} (h : IsTree d) (field : Field) :
    field.problem? d = none ↔ field.Takes d := by
  cases field with
  | timeout | threshold => exact secondsProblem?_eq_none_iff d
  | shuffle => exact booleanProblem?_eq_none_iff d
  | tunables => exact textsProblem?_eq_none_iff d
  | properties => cases d <;> simp [problem?, propertiesProblem?, Takes]
  | observability => exact observabilityProblem?_eq_none_iff h

theorem entryProblem?_eq_none_iff {e : String × Document} (h : IsTree e.2) :
    entryProblem? e = none ↔ Fits e := by
  cases hname : Field.ofName? e.1 with
  | none =>
    have hno : ¬ Fits e := by
      rintro ⟨field, hfield, -⟩
      rw [(Field.ofName?_eq_some_iff e.1 field).2 hfield] at hname
      exact nomatch hname
    simpa [entryProblem?, hname] using hno
  | some field =>
    have hentry : entryProblem? e = field.problem? e.2 := by simp [entryProblem?, hname]
    rw [hentry, Field.problem?_eq_none_iff h]
    constructor
    · exact fun htakes => ⟨field, (Field.ofName?_eq_some_iff e.1 field).1 hname, htakes⟩
    · rintro ⟨other, hother, htakes⟩
      rw [(Field.ofName?_eq_some_iff e.1 other).2 hother] at hname
      exact Option.some.inj hname ▸ htakes

theorem outcome_logLevelEntries {entries : List (String × Document)}
    (distinct : (entries.map Prod.fst).Nodup) :
    Outcome (fun level => GivesLevel (.table entries) (level.getD defaultLogLevel))
      (entries.findSome? levelProblem?) (logLevelEntries none (Document.draftEntries entries)) := by
  match entries with
  | [] => exact .ok .emptyTable
  | (name, d) :: rest =>
    rw [findSome?_cons_eq_or, Document.draftEntries, logLevelEntries, levelProblem?]
    by_cases hname : name = logLevelName
    · subst hname
      rw [if_pos rfl, if_pos rfl, if_neg (by simp)]
      apply (outcome_text d).bind
      rintro level rfl
      cases rest with
      | nil => exact .ok (.named level)
      | cons e others =>
        -- The name was given already, so another entry is not a second level but unknown.
        have hother : e.1 ≠ logLevelName := by
          intro heq
          simp [heq] at distinct
        rw [Document.draftEntries, logLevelEntries, if_neg hother, findSome?_cons_eq_or,
          levelProblem?, if_neg hother]
        exact .error _
    · rw [if_neg hname, if_neg hname]
      exact .error _

theorem outcome_observability {d : Document} (h : IsTree d) :
    Outcome (GivesLevel d) (observabilityProblem? d) (observability tomlFormat d.draft) := by
  match d, h with
  | .table entries, .table distinct _ =>
    exact (outcome_logLevelEntries distinct).map fun _ hlevel => hlevel
  | .array [], _ => exact .ok .emptyArray
  | .array (first :: rest), _ =>
    have hread : observability tomlFormat (Document.array (first :: rest)).draft =
        text first.draft >>= fun level => return level := by
      change (text first.draft >>= fun level =>
        surplus tomlFormat (Document.draftItems rest) true >>= fun _ => return level) = _
      rw [surplus_toml]
      rfl
    rw [hread]
    apply (outcome_text first).map
    rintro level rfl
    exact .leading level rest
  | .boolean _, _ | .integer _, _ | .real _, _ | .text _, _ =>
    exact outcome_mismatch _ .observability _

theorem outcome_properties {d : Document} (h : IsTree d) :
    Outcome (fun t => d.Says (.table t)) (propertiesProblem? d)
      (FieldValue.tableOfDraft d.draft) := by
  cases d with
  | table entries =>
    obtain ⟨t, ht, hsays⟩ := FieldValue.tableOfDraft_table h
    rw [ht]
    exact .ok hsays
  | _ => exact outcome_mismatch _ .table _

theorem outcome_readField (f : PolicyFile) (field : Field) {d : Document} (h : IsTree d) :
    Outcome (fun g => field.IsGiven g d) (field.problem? d)
      (readField tomlFormat f field d.draft) := by
  cases field with
  | timeout | threshold =>
    exact (outcome_optional h (outcome_seconds h)).map fun _ hgiven => hgiven
  | shuffle => exact (outcome_optional h (outcome_boolean d)).map fun _ hgiven => hgiven
  | tunables => exact (outcome_texts d).map fun _ hgiven => hgiven
  | properties => exact (outcome_properties h).map fun _ hgiven => hgiven
  | observability => exact (outcome_observability h).map fun _ hgiven => hgiven

theorem agrees_readField {format : Format} {f g : PolicyFile} {field other : Field} {d : Draft}
    (h : readField format f field d = .ok g) (hother : other ≠ field) : other.Agrees f g := by
  cases field <;> obtain ⟨_, _, rfl⟩ := exists_of_map_eq_ok h <;> cases other <;>
    first
      | exact absurd rfl hother
      | rfl

theorem Field.Agrees.holds {f g : PolicyFile} {field : Field} (h : field.Agrees f g)
    {given : Option Document} (hold : field.Holds f given) : field.Holds g given := by
  cases field <;> simp only [Field.Agrees] at h <;> cases given <;>
    simpa only [Field.Holds, Field.IsDefault, Field.IsGiven, h] using hold

theorem outcome_namedFields {entries : List (String × Document)} (f : PolicyFile) (seen : List Field)
    (distinct : (entries.map Prod.fst).Nodup) (parts : ∀ e ∈ entries, IsTree e.2)
    (fresh : ∀ field ∈ seen, field.name ∉ entries.map Prod.fst) :
    Outcome (fun g => ∀ (field : Field) given, field.Holds f given →
        field.Holds g ((entries.lookup field.name).or given))
      (entries.findSome? entryProblem?)
      (namedFields tomlFormat f seen (Document.draftEntries entries)) := by
  -- Along the entries: `given` is what was said of a field before, and no entry still to come is
  -- under the name of a field in `seen`.
  induction entries generalizing f seen with
  | nil => exact .ok fun _ _ hold => hold
  | cons e rest ih =>
    obtain ⟨name, d⟩ := e
    rw [List.forall_mem_cons] at parts
    rw [List.map_cons, List.nodup_cons] at distinct
    rw [findSome?_cons_eq_or, Document.draftEntries, namedFields, entryProblem?]
    cases hname : Field.ofName? name with
    | none => exact .error _
    | some field =>
      obtain rfl := (Field.ofName?_eq_some_iff name field).1 hname
      have hseen : field ∉ seen := fun hmem => fresh field hmem List.mem_cons_self
      have hfresh : ∀ other ∈ field :: seen, other.name ∉ rest.map Prod.fst := by
        rw [List.forall_mem_cons]
        exact ⟨distinct.1, fun other hmem hrest =>
          fresh other hmem (List.mem_cons_of_mem _ hrest)⟩
      dsimp only
      rw [if_neg hseen]
      apply ((outcome_readField f field parts.1).and_of_ok fun _ hg => hg).bind
      rintro g ⟨hgiven, hg⟩
      apply (ih g (field :: seen) distinct.2 parts.2 hfresh).imp
      intro last hlast other given hold
      rw [List.lookup_cons]
      by_cases hother : other = field
      · subst hother
        have hrest : rest.lookup other.name = none :=
          (OrderedTable.find?_eq_none_iff rest other.name).2 distinct.1
        have hdoc := hlast other (some d) hgiven
        rw [hrest] at hdoc
        simpa using hdoc
      · have hne : (other.name == field.name) = false := by
          simpa using Field.name_injective.ne hother
        rw [hne]
        exact hlast other given ((agrees_readField hg hother).holds hold)

structure ReadsAsGiven (entries : List (String × Document)) (r : Except ReadError PolicyFile) :
    Prop where
  accepts_iff : (∃ f, r = .ok f) ↔ ∀ e ∈ entries, Fits e
  holds : ∀ f, r = .ok f → ∀ field : Field, field.Holds f (entries.lookup field.name)
  refuses : ∀ error, r = .error error → ∃ before e after p,
    entries = before ++ e :: after ∧ (∀ e' ∈ before, Fits e') ∧ ¬ Fits e ∧
      entryProblem? e = some p ∧ error = .schema p

theorem outcome_ofTomlEntries {entries : List (String × Document)} (h : IsTree (.table entries)) :
    Outcome (fun f => ∀ field : Field, field.Holds f (entries.lookup field.name))
      (entries.findSome? entryProblem?) (ofTomlEntries entries) := by
  cases h with
  | table distinct parts =>
    have hempty : ∀ field : Field, field.Holds PolicyFile.empty none := by
      intro field
      cases field <;> rfl
    apply (outcome_namedFields PolicyFile.empty [] distinct parts (by simp)).map
    intro f hf field
    simpa using hf field none (hempty field)

theorem readsAsGiven_ofTomlEntries {entries : List (String × Document)}
    (h : IsTree (.table entries)) : ReadsAsGiven entries (ofTomlEntries entries) := by
  have hread := outcome_ofTomlEntries h
  have hparts : ∀ e ∈ entries, IsTree e.2 := by
    cases h with
    | table _ parts => exact parts
  refine ⟨?_, fun f hf => hread.wanted_of_ok hf, fun error herror => ?_⟩
  · rw [hread.ok_iff, List.findSome?_eq_none_iff]
    exact forall₂_congr fun e he => entryProblem?_eq_none_iff (hparts e he)
  · obtain ⟨p, hp, rfl⟩ := hread.problem_of_error herror
    obtain ⟨before, e, after, rfl, he, hbefore⟩ := List.findSome?_eq_some_iff.1 hp
    rw [List.forall_mem_append, List.forall_mem_cons] at hparts
    refine ⟨before, e, after, p, rfl, ?_, ?_, he, rfl⟩
    · exact fun e' he' => (entryProblem?_eq_none_iff (hparts.1 e' he')).1 (hbefore e' he')
    · rw [← entryProblem?_eq_none_iff hparts.2.1, he]
      exact Option.some_ne_none p

/-- A tree of TOML is a policy file exactly if each of its entries fits. The file then holds what the
entries say and is at its defaults elsewhere; otherwise the first entry that does not fit is told.
Every well-formed text is such a tree. -/
theorem documents_read_as_given :
    (∀ entries, IsTree (.table entries) → ReadsAsGiven entries (ofTomlEntries entries)) ∧
      ∀ source entries, Toml.entries? source = some entries →
        IsTree (.table entries) ∧ ofToml source = ofTomlEntries entries := by
  refine ⟨fun entries h => readsAsGiven_ofTomlEntries h, fun source entries hsource => ?_⟩
  refine ⟨Toml.isTree_of_entries? hsource, ?_⟩
  rw [ofToml, hsource]

/-- A level by position, with an item that is left alone, and a property that nests. -/
def teamEntries : List (String × Document) :=
  [("observability", .array [.text "debug", .boolean true]),
    ("client_properties", .table [("routes", .array [.integer 5, .text "west"])])]

theorem isTree_teamEntries : IsTree (.table teamEntries) := by
  have hfive : IsTree (.integer 5) := .integer (by decide) (by decide)
  have hroutes : IsTree (.array [.integer 5, .text "west"]) :=
    .array (by simp [hfive, IsTree.text])
  have hlevel : IsTree (.array [.text "debug", .boolean true]) :=
    .array (by simp [IsTree.text, IsTree.boolean])
  have hproperties : IsTree (.table [("routes", .array [.integer 5, .text "west"])]) :=
    .table (by decide) (by simpa using hroutes)
  exact .table (by decide) (by simp [teamEntries, hlevel, hproperties])

theorem documents_read_as_given_team :
    IsTree (.table teamEntries) ∧ ∃ f, ofTomlEntries teamEntries = .ok f ∧
      f.timeoutSeconds = none ∧ f.logLevel = "debug" ∧ "routes" ∈ f.properties.names := by
  have hread := documents_read_as_given.1 teamEntries isTree_teamEntries
  have hfits : ∀ e ∈ teamEntries, Fits e := by
    rw [teamEntries, List.forall_mem_cons, List.forall_mem_singleton]
    exact ⟨⟨.observability, rfl, "debug", .leading _ _⟩, ⟨.properties, rfl, _, rfl⟩⟩
  obtain ⟨f, hf⟩ := hread.accepts_iff.2 hfits
  have hlevel : GivesLevel (.array [.text "debug", .boolean true]) f.logLevel :=
    hread.holds f hf .observability
  have hproperties : Document.Says (.table [("routes", .array [.integer 5, .text "west"])])
    (.table f.properties) := hread.holds f hf .properties
  refine ⟨isTree_teamEntries, f, hf, hread.holds f hf .timeout, ?_, ?_⟩
  · generalize f.logLevel = level at hlevel
    cases hlevel
    rfl
  · cases hproperties with
    | table _ names _ => exact (names "routes").2 (by decide)

/-- Of two entries that do not fit the first is told, and of its items the first that is no text. -/
example : ofTomlEntries [("tunables", .array [.text "fast", .integer 3, .boolean true]),
      ("colour", .text "red")] = .error (.schema (.invalidType (.integer 3) .text)) := rfl

end BrokerPolicy.PolicyFile
