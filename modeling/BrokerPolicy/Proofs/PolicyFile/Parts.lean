import BrokerPolicy.PolicyFile.Loading
import BrokerPolicy.Proofs.OrderedTable
import BrokerPolicy.Proofs.PolicyFile.Validation
import BrokerPolicy.Proofs.Text.ByteOrder
import Mathlib.Control.Monad.Basic

set_option autoImplicit false

/-!
Validation part by part. A file falls into parts that are checked each for itself, so what is
reported is what is wrong with its parts, in their order, and mending one part takes away its report
and no other.
-/

namespace BrokerPolicy.PolicyFile

/-- A part of a file that is checked for itself. Of a property that is its name. -/
inductive Part where
  | duration (which : DurationField) (seconds : UInt64)
  | property (name : String)
  | tunable (name : String)
  | logLevel (level : String)

def durationParts (f : PolicyFile) : List Part :=
  f.timeoutSeconds.toList.map (.duration .timeout) ++
    f.thresholdSeconds.toList.map (.duration .threshold)

def parts (f : PolicyFile) : List Part :=
  f.durationParts ++ f.properties.names.map .property ++ f.tunables.map .tunable ++
    [Part.logLevel f.logLevel]

namespace Part

/-- Whether something is wrong with a part, said without the checks. -/
def Offends (edition : Edition) : Part → Prop
  | duration _ seconds => 2 ^ 64 ≤ 1000 * seconds.toNat
  | property name => ¬ Property.Acceptable name
  | tunable name => name = "" ∨ edition = .standard
  | logLevel level => Text.lowerAscii level ∉ logLevels

def problem : Part → ValidationError
  | duration which seconds => .durationOutOfRange which.field seconds
  | property name => .property (Property.fault name)
  | tunable name => if name = "" then .emptyTunable else .tunablesDisabled name
  | logLevel level => .logLevel level

instance (edition : Edition) : (part : Part) → Decidable (part.Offends edition)
  | duration _ seconds => inferInstanceAs (Decidable (2 ^ 64 ≤ 1000 * seconds.toNat))
  | property name => inferInstanceAs (Decidable (¬ Property.Acceptable name))
  | tunable name => inferInstanceAs (Decidable (name = "" ∨ edition = .standard))
  | logLevel level => inferInstanceAs (Decidable (Text.lowerAscii level ∉ logLevels))

def report (edition : Edition) (part : Part) : List ValidationError :=
  if part.Offends edition then [part.problem] else []

theorem flatMap_report (edition : Edition) (ps : List Part) :
    ps.flatMap (report edition) = (ps.filter fun p => p.Offends edition).map problem := by
  induction ps with
  | nil => rfl
  | cons p rest ih =>
    rw [List.flatMap_cons, ih, report]
    by_cases h : p.Offends edition <;> simp [h]

theorem report_property (edition : Edition) (name : String) :
    report edition (.property name) = nameErrors name := by
  by_cases h : Property.Acceptable name
  · have hfine : ¬ (property name).Offends edition := not_not_intro h
    rw [report, if_neg hfine, nameErrors, Property.checkName_of_acceptable h]
  · have hoffends : (property name).Offends edition := h
    rw [report, if_pos hoffends, nameErrors, Property.checkName_eq_error h]
    rfl

theorem report_tunable (edition : Edition) (name : String) :
    report edition (.tunable name) = tunableErrors edition name := by
  unfold report tunableErrors
  by_cases hempty : name = "" <;> by_cases hedition : edition = .standard <;>
    simp [Offends, problem, hempty, hedition]

theorem report_logLevel (edition : Edition) (level : String) :
    report edition (.logLevel level) = logLevelErrors level := by
  unfold report logLevelErrors
  by_cases h : Text.lowerAscii level ∈ logLevels <;> simp [Offends, problem, h]

theorem report_duration (edition : Edition) (which : DurationField) (s : UInt64) :
    report edition (.duration which s) = durationErrors which.field (some s) := by
  rw [report, durationErrors]
  by_cases h : 2 ^ 64 ≤ 1000 * s.toNat
  · have hoffends : (duration which s).Offends edition := h
    rw [if_pos hoffends, if_pos ((maxSeconds_lt_iff s).2 h)]
    rfl
  · have hfine : ¬ (duration which s).Offends edition := h
    rw [if_neg hfine, if_neg (mt (maxSeconds_lt_iff s).1 h)]

theorem flatMap_report_duration (edition : Edition) (which : DurationField)
    (seconds : Option UInt64) :
    seconds.toList.flatMap (fun s => report edition (.duration which s)) =
      durationErrors which.field seconds := by
  cases seconds with
  | none => rfl
  | some s => rw [Option.toList_some, List.flatMap_singleton, report_duration]

end Part

theorem validate_eq_problems (edition : Edition) (f : PolicyFile) :
    f.validate edition = (f.parts.filter fun p => p.Offends edition).map Part.problem := by
  rw [← Part.flatMap_report, parts, durationParts]
  simp only [List.flatMap_append, List.flatMap_map, Part.flatMap_report_duration,
    Part.report_property, Part.report_tunable, List.flatMap_singleton, Part.report_logLevel]
  rfl

/-- A file in which a duration is another one or left out. -/
def DurationField.put (f : PolicyFile) (seconds : Option UInt64) : DurationField → PolicyFile
  | timeout => { f with timeoutSeconds := seconds }
  | threshold => { f with thresholdSeconds := seconds }

/-- A file from which a part is taken out, or in which one with which nothing is wrong stands for
it. A log level is always there, so it cannot be taken out. -/
inductive Mends (edition : Edition) (f : PolicyFile) : Part → PolicyFile → Prop
  | duration {which : DurationField} {s : UInt64} (given : which.seconds? f = some s)
    (seconds : Option UInt64) (fits : ∀ t, seconds = some t → 1000 * t.toNat < 2 ^ 64) :
    Mends edition f (.duration which s) (which.put f seconds)
  | dropProperty {name : String} (given : name ∈ f.properties.names) :
    Mends edition f (.property name) { f with properties := f.properties.erase name }
  | renameProperty {name : String} (given : name ∈ f.properties.names) {name' : String}
    (acceptable : Property.Acceptable name') (value : FieldValue) :
    Mends edition f (.property name)
      { f with properties := OrderedTable.insert name' value (f.properties.erase name) }
  | dropTunable {before after : List String} {name : String}
    (given : f.tunables = before ++ name :: after) :
    Mends edition f (.tunable name) { f with tunables := before ++ after }
  | renameTunable {before after : List String} {name : String}
    (given : f.tunables = before ++ name :: after) {name' : String} (named : name' ≠ "")
    (known : edition = .experimental) :
    Mends edition f (.tunable name) { f with tunables := before ++ name' :: after }
  | logLevel {level : String} (known : Text.lowerAscii level ∈ logLevels) :
    Mends edition f (.logLevel f.logLevel) { f with logLevel := level }

theorem problems_mended {edition : Edition} {part : Part} (hoffends : part.Offends edition)
    (before : List Part) {mended : List Part} (hmended : ∀ p ∈ mended, ¬ p.Offends edition)
    (after : List Part) {f g : PolicyFile} (hf : f.parts = before ++ part :: after)
    (hg : g.parts = before ++ (mended ++ after)) :
    ∃ before' after', f.validate edition = before' ++ part.problem :: after' ∧
      g.validate edition = before' ++ after' := by
  have hnone : mended.filter (fun p => p.Offends edition) = [] :=
    List.filter_eq_nil_iff.2 fun p hp => by simpa using hmended p hp
  refine ⟨(before.filter fun p => p.Offends edition).map Part.problem,
    (after.filter fun p => p.Offends edition).map Part.problem, ?_, ?_⟩
  · rw [validate_eq_problems, hf, List.filter_append,
      List.filter_cons_of_pos (by simpa using hoffends), List.map_append, List.map_cons]
  · rw [validate_eq_problems, hg, List.filter_append, List.filter_append, hnone, List.nil_append,
      List.map_append]

theorem problems_of_duration {edition : Edition} {f : PolicyFile} {which : DurationField}
    {s : UInt64} (given : which.seconds? f = some s) {seconds : Option UInt64}
    (fits : ∀ t, seconds = some t → 1000 * t.toNat < 2 ^ 64)
    (hoffends : (Part.duration which s).Offends edition) :
    ∃ before after, f.validate edition = before ++ (Part.duration which s).problem :: after ∧
      (which.put f seconds).validate edition = before ++ after := by
  have hfine (other : DurationField) :
      ∀ p ∈ seconds.toList.map (Part.duration other), ¬ p.Offends edition := by
    intro p hp
    obtain ⟨t, ht, rfl⟩ := List.mem_map.1 hp
    exact Nat.not_le_of_lt (fits t (Option.mem_toList.1 ht))
  cases which with
  | timeout =>
    change f.timeoutSeconds = some s at given
    apply problems_mended hoffends [] (hfine .timeout)
      (f.thresholdSeconds.toList.map (.duration .threshold) ++ f.properties.names.map .property ++
        f.tunables.map .tunable ++ [Part.logLevel f.logLevel])
    · simp [parts, durationParts, given]
    · simp [parts, durationParts, DurationField.put]
  | threshold =>
    change f.thresholdSeconds = some s at given
    apply problems_mended hoffends (f.timeoutSeconds.toList.map (.duration .timeout))
      (hfine .threshold)
      (f.properties.names.map .property ++ f.tunables.map .tunable ++ [Part.logLevel f.logLevel])
    · simp [parts, durationParts, given]
    · simp [parts, durationParts, DurationField.put]

theorem problems_of_property {edition : Edition} {f : PolicyFile} (hf : f.properties.Sorted)
    {name : String} (given : name ∈ f.properties.names)
    (hoffends : (Part.property name).Offends edition) :
    ∃ before after, f.validate edition = before ++ (Part.property name).problem :: after ∧
      ({ f with properties := f.properties.erase name } : PolicyFile).validate edition =
        before ++ after := by
  obtain ⟨before, after, hnames⟩ := List.append_of_mem given
  have hnone : ∀ p ∈ ([] : List Part), ¬ p.Offends edition := by simp
  apply problems_mended hoffends (f.durationParts ++ before.map .property) hnone
    (after.map .property ++ f.tunables.map .tunable ++ [Part.logLevel f.logLevel])
  · simp [parts, hnames]
  · simp [parts, OrderedTable.names_erase hf hnames, durationParts]

theorem validate_insert_property {name : String} (h : Property.Acceptable name) (value : FieldValue)
    (t : FieldTable) (edition : Edition) (f : PolicyFile) :
    ({ f with properties := OrderedTable.insert name value t } : PolicyFile).validate edition =
      ({ f with properties := t } : PolicyFile).validate edition := by
  rw [validate, OrderedTable.flatMap_names_insert ((nameErrors_eq_nil_iff name).2 h)]
  rfl

theorem problems_of_tunable {edition : Edition} {f : PolicyFile} {before after : List String}
    {name : String} (given : f.tunables = before ++ name :: after) {mended : List String}
    (hmended : ∀ n ∈ mended, ¬ (Part.tunable n).Offends edition)
    (hoffends : (Part.tunable name).Offends edition) :
    ∃ before' after', f.validate edition = before' ++ (Part.tunable name).problem :: after' ∧
      ({ f with tunables := before ++ (mended ++ after) } : PolicyFile).validate edition =
        before' ++ after' := by
  apply problems_mended hoffends
    (f.durationParts ++ f.properties.names.map .property ++ before.map .tunable)
    (List.forall_mem_map.2 hmended) (after.map .tunable ++ [Part.logLevel f.logLevel])
  · simp [parts, given]
  · simp [parts, durationParts]

theorem problems_of_logLevel {edition : Edition} {f : PolicyFile} {level : String}
    (known : Text.lowerAscii level ∈ logLevels)
    (hoffends : (Part.logLevel f.logLevel).Offends edition) :
    ∃ before after, f.validate edition = before ++ (Part.logLevel f.logLevel).problem :: after ∧
      ({ f with logLevel := level } : PolicyFile).validate edition = before ++ after := by
  have hfine : ∀ p ∈ [Part.logLevel level], ¬ p.Offends edition :=
    List.forall_mem_singleton.2 (not_not_intro known)
  apply problems_mended hoffends
    (f.durationParts ++ f.properties.names.map .property ++ f.tunables.map .tunable) hfine []
  · rfl
  · rfl

theorem Mends.problems {edition : Edition} {f g : PolicyFile} {part : Part}
    (hf : f.properties.Sorted) (h : Mends edition f part g) (hoffends : part.Offends edition) :
    ∃ before after, f.validate edition = before ++ part.problem :: after ∧
      g.validate edition = before ++ after := by
  cases h with
  | duration given seconds fits => exact problems_of_duration given fits hoffends
  | dropProperty given => exact problems_of_property hf given hoffends
  | renameProperty given acceptable value =>
    rw [validate_insert_property acceptable]
    exact problems_of_property hf given hoffends
  | dropTunable given =>
    have hnone : ∀ n ∈ ([] : List String), ¬ (Part.tunable n).Offends edition := by simp
    exact problems_of_tunable given hnone hoffends
  | @renameTunable before after name given name' named known =>
    have hfine : ∀ n ∈ [name'], ¬ (Part.tunable n).Offends edition := by
      rw [List.forall_mem_singleton]
      rintro (hempty | hstandard)
      · exact named hempty
      · exact nomatch known.symm.trans hstandard
    exact problems_of_tunable given hfine hoffends
  | logLevel known => exact problems_of_logLevel known hoffends

theorem parse_eq {source : String} {f : PolicyFile} (h : ofToml source = .ok f)
    (edition : Edition) :
    parse edition source =
      if f.validate edition = [] then .ok f else .error (.validation (f.validate edition)) := by
  cases hreported : f.validate edition with
  | nil => simp [parse, h, hreported]
  | cons problem problems => simp [parse, h, hreported]

/-- What validation reports is what is wrong with the parts of a file, in their order, in which the
names of properties ascend by their bytes. A text that reads as a file is accepted exactly if
nothing is reported. Mending a part takes away its report and leaves all others as they are, and
nothing depends on the values of properties. -/
theorem validate_reports_each_part (edition : Edition) (f : PolicyFile)
    (hf : f.properties.Sorted) :
    f.validate edition = (f.parts.filter fun p => p.Offends edition).map Part.problem ∧
    f.properties.names.Pairwise (fun m n => Text.bytes m < Text.bytes n) ∧
    (∀ source, ofToml source = .ok f →
      (parse edition source = .ok f ↔ f.validate edition = []) ∧
      (f.validate edition ≠ [] →
        parse edition source = .error (.validation (f.validate edition)))) ∧
    (∀ (part : Part) (g : PolicyFile), Mends edition f part g → part.Offends edition →
      ∃ before after, f.validate edition = before ++ part.problem :: after ∧
        g.validate edition = before ++ after) ∧
    ∀ t : FieldTable, t.names = f.properties.names →
      ({ f with properties := t } : PolicyFile).validate edition = f.validate edition := by
  refine ⟨validate_eq_problems edition f, Text.pairwise_bytes_lt hf, ?_, ?_, ?_⟩
  · intro source hsource
    rw [parse_eq hsource]
    split_ifs with hnone <;> simp [hnone]
  · exact fun part g hmends hoffends => hmends.problems hf hoffends
  · intro t ht
    rw [validate, ht]
    rfl

/-- Three parts are wrong, and the unnamed tunable is taken out. -/
theorem validate_reports_each_part_team :
    let source := "tunables = [\"fast\", \"\"]\n[client_properties]\nversion = 1"
    let f : PolicyFile := ⟨none, none, none, ["fast", ""], [("version", .int 1)], "info"⟩
    let mended : PolicyFile := { f with tunables := ["fast"] }
    parse .standard source = .error (.validation
        [.property (.reservedProperty "version"), .tunablesDisabled "fast", .emptyTunable]) ∧
      (∃ before after, f.validate .standard = before ++ .emptyTunable :: after ∧
        mended.validate .standard = before ++ after) ∧
      ({ f with properties := [("version", .table [])] } : PolicyFile).validate .standard =
        f.validate .standard := by
  intro source f mended
  have hf : f.properties.Sorted := by unfold OrderedTable.Sorted OrderedTable.names; decide
  obtain ⟨-, -, hparse, hmends, hvalues⟩ := validate_reports_each_part .standard f hf
  have hsource : ofToml "tunables = [\"fast\", \"\"]\n[client_properties]\nversion = 1" =
      .ok ⟨none, none, none, ["fast", ""], [("version", .int 1)], "info"⟩ := by
    decide +kernel
  have hreported : f.validate .standard =
      [.property (.reservedProperty "version"), .tunablesDisabled "fast", .emptyTunable] := by
    decide +kernel
  have hrefused := (hparse source hsource).2 (by rw [hreported]; simp)
  have hdropped : Mends .standard f (.tunable "") mended :=
    .dropTunable (show f.tunables = ["fast"] ++ "" :: [] from rfl)
  rw [hreported] at hrefused
  exact ⟨hrefused, hmends _ _ hdropped (.inl rfl), hvalues _ rfl⟩

end BrokerPolicy.PolicyFile
