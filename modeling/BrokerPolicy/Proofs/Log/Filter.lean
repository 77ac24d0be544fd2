import BrokerPolicy.Log.Filter
import BrokerPolicy.Proofs.Log.Directive
import BrokerPolicy.Proofs.PolicyFile.Validation
import BrokerPolicy.Proofs.Text.Split

set_option autoImplicit false

/-!
What a filter lets pass, and the filter that stands for a level: records of the library and of the
program that matter at least as much as the level says.
-/

namespace BrokerPolicy.Log

namespace Level

/-- How much a record matters, from a trace to an error. -/
def severity : Level → Nat
  | .trace => 0
  | .debug => 1
  | .info => 2
  | .warn => 3
  | .error => 4

theorem shows_iff (l m : Level) : Threshold.shows (some l) m = true ↔ l.severity ≤ m.severity := by
  cases l <;> cases m <;> decide

theorem exists_of_not_mem_validate {edition : Edition} {f : PolicyFile}
    (h : PolicyFile.ValidationError.logLevel f.logLevel ∉ f.validate edition) :
    ∃ l : Level, Text.lowerAscii f.logLevel = Text.lowerAscii l.name := by
  have hnamed : ∀ word ∈ PolicyFile.logLevels, ∃ l ∈ Level.all, word = Text.lowerAscii l.name := by
    decide
  have hknown : Text.lowerAscii f.logLevel ∈ PolicyFile.logLevels := by
    by_contra hunknown
    have hreported := (PolicyFile.mem_logLevelErrors_iff f.logLevel _).2 ⟨hunknown, rfl⟩
    exact h (List.mem_append_right _ hreported)
  obtain ⟨l, -, hl⟩ := hnamed _ hknown
  exact ⟨l, hl⟩

end Level

namespace Filter

theorem pieces_eq (s : String) :
    pieces s = ((s.toList.splitOnP (· == ',')).map String.ofList).filter (· ≠ "") :=
  congrArg (List.filter (· ≠ "")) (Text.splitOn_singleton ',' s)

theorem foldl_better (ds : List Directive) (b : Directive) :
    ∃ d ∈ b :: ds, ds.foldl better (some b) = some d := by
  induction ds generalizing b with
  | nil => exact ⟨b, List.mem_singleton_self b, rfl⟩
  | cons e rest ih =>
    rw [List.foldl_cons]
    by_cases hyields : b.yieldsTo e = true
    · obtain ⟨d, hd, hlast⟩ := ih e
      rw [better, if_pos hyields]
      exact ⟨d, List.mem_cons_of_mem b hd, hlast⟩
    · obtain ⟨d, hd, hlast⟩ := ih b
      rw [better, if_neg hyields]
      refine ⟨d, ?_, hlast⟩
      rcases List.mem_cons.1 hd with rfl | hrest
      · exact List.mem_cons_self
      · exact List.mem_cons_of_mem b (List.mem_cons_of_mem e hrest)

theorem decisive_cases (f : Filter) (target : String) (fields : List String) :
    (f.decisive target fields = none ∧ ∀ d ∈ f.directives, ¬ d.covers target fields = true) ∨
      ∃ d ∈ f.directives, d.covers target fields = true ∧
        f.decisive target fields = some d := by
  have hmem (d : Directive) : d ∈ f.directives.filter (·.covers target fields) ↔
      d ∈ f.directives ∧ d.covers target fields = true := List.mem_filter
  unfold decisive
  cases hcover : f.directives.filter (·.covers target fields) with
  | nil =>
    refine .inl ⟨rfl, fun d hd hcovers => ?_⟩
    exact List.not_mem_nil (hcover ▸ (hmem d).2 ⟨hd, hcovers⟩)
  | cons b rest =>
    obtain ⟨d, hd, hlast⟩ := foldl_better rest b
    obtain ⟨hdirective, hcovers⟩ := (hmem d).1 (hcover ▸ hd)
    exact .inr ⟨d, hdirective, hcovers, hlast⟩

theorem passes_iff_of_threshold {f : Filter} {t : Threshold}
    (h : ∀ d ∈ f.directives, d.threshold = t) (target : String) (fields : List String)
    (level : Level) :
    f.passes target fields level = true ↔
      (∃ d ∈ f.directives, d.covers target fields = true) ∧ t.shows level = true := by
  unfold passes
  obtain ⟨hnone, huncovered⟩ | ⟨d, hd, hcovers, hsome⟩ := decisive_cases f target fields
  · rw [hnone]
    constructor
    · intro hpass
      cases hpass
    · rintro ⟨⟨d, hd, hcovers⟩, -⟩
      exact absurd hcovers (huncovered d hd)
  · rw [hsome]
    change d.threshold.shows level = true ↔ _
    rw [h d hd]
    exact ⟨fun hshows => ⟨⟨d, hd, hcovers⟩, hshows⟩, And.right⟩

end Filter

theorem Directive.covers_target_iff (prefixText : String) (t : Threshold) (target : String)
    (fields : List String) :
    Directive.covers ⟨some prefixText, none, none, t⟩ target fields = true ↔
      prefixText.toList <+: target.toList := by
  rw [← List.isPrefixOf_iff_prefix]
  simp [covers, concernsRecords, asksValue, fieldName?]

namespace Selection

def ownTargets : List String := ["amqp_context_policy", "context_policy"]

def ownDirectives (l : Level) : List Directive :=
  ownTargets.map fun target => ⟨some target, none, none, some l⟩

theorem forall_mem_ownTarget {P : Char → Prop} (hletter : ∀ c : Char, c.isAlpha = true → P c)
    (hsign : P '_') {target : String} (h : target ∈ ownTargets) : ∀ c ∈ target.toList, P c := by
  have hwritten : ∀ s ∈ ownTargets, (s.toList.all fun c => c.isAlpha || c == '_') = true := by
    decide
  intro c hc
  have hchar := List.all_eq_true.1 (hwritten target h) c hc
  rcases Bool.or_eq_true_iff.1 hchar with halpha | hunderscore
  · exact hletter c halpha
  · exact eq_of_beq hunderscore ▸ hsign

theorem levelText_eq (level : String) :
    levelText level =
      String.ofList (("amqp_context_policy".toList ++ '=' :: level.toList) ++
        ',' :: ("context_policy".toList ++ '=' :: level.toList)) := by
  have hlibrary : "amqp_context_policy=".toList = "amqp_context_policy".toList ++ ['='] := by
    decide
  have hprogram : ",context_policy=".toList = ',' :: ("context_policy".toList ++ ['=']) := by
    decide
  apply String.toList_injective
  unfold levelText
  simp only [String.toList_append, String.toList_ofList, hlibrary, hprogram, List.append_assoc,
    List.cons_append, List.nil_append]

section Level

variable {level : String} {l : Level} (h : Text.lowerAscii level = Text.lowerAscii l.name)

include h

theorem isAlpha_of_level : ∀ c ∈ level.toList, c.isAlpha = true := by
  refine Text.isAlpha_of_lowerAscii h ?_
  cases l <;> decide

theorem forall_mem_directiveText {P : Char → Prop} (hletter : ∀ c : Char, c.isAlpha = true → P c)
    (hsign : P '_') (hmark : P '=') {target : String} (htarget : target ∈ ownTargets) :
    ∀ c ∈ target.toList ++ '=' :: level.toList, P c := by
  intro c hc
  rcases List.mem_append.1 hc with hc | hc
  · exact forall_mem_ownTarget hletter hsign htarget c hc
  · rcases List.mem_cons.1 hc with rfl | hc
    · exact hmark
    · exact hletter c (isAlpha_of_level h c hc)

theorem read_ownTarget {target : String} (htarget : target ∈ ownTargets) :
    Directive.read (String.ofList (target.toList ++ '=' :: level.toList)) =
      .ok ⟨some target, none, none, some l⟩ := by
  have hopens : ∀ s ∈ ownTargets, s.toList.head?.any Directive.opens = true := by decide
  have hmarks : ∀ c ∈ target.toList, (c = '=' || c = '[') = false := by
    refine forall_mem_ownTarget (fun c hc => ?_) (by decide) htarget
    simp [Text.ne_of_isAlpha hc (d := '=') rfl, Text.ne_of_isAlpha hc (d := '[') rfl]
  have hblank := forall_mem_directiveText h (fun _ => Text.isBlank_of_isAlpha) (by decide)
    (by decide) htarget
  have hlevel : Threshold.ofText? (String.ofList level.toList) = some (some l) := by
    rw [String.ofList_toList]
    exact Threshold.ofText?_of_name h
  have hopen := hopens target htarget
  cases hcs : target.toList with
  | nil => rw [hcs] at hopen; cases hopen
  | cons c rest =>
    rw [hcs] at hopen
    rw [← hcs, Directive.read_target hcs hopen hmarks hblank hlevel,
      String.ofList_toList]

theorem pieces_levelText :
    Filter.pieces (levelText level) =
      ownTargets.map fun target => String.ofList (target.toList ++ '=' :: level.toList) := by
  have hcomma {target : String} (htarget : target ∈ ownTargets) :
      ∀ c ∈ target.toList ++ '=' :: level.toList, c ≠ ',' :=
    forall_mem_directiveText h (fun _ halpha => Text.ne_of_isAlpha halpha rfl) (by decide)
      (by decide) htarget
  have hsplit : (levelText level).splitOn "," =
      ownTargets.map fun target => String.ofList (target.toList ++ '=' :: level.toList) := by
    have hlibrary : "amqp_context_policy" ∈ ownTargets := List.mem_cons_self
    have hprogram : "context_policy" ∈ ownTargets := List.mem_cons_of_mem _ List.mem_cons_self
    rw [levelText_eq]
    change (String.ofList _).splitOn (String.ofList [',']) = _
    rw [Text.splitOn_append_cons (hcomma hlibrary), Text.splitOn_of_forall_ne (hcomma hprogram)]
    rfl
  rw [Filter.pieces, hsplit]
  refine List.filter_eq_self.2 fun s hs => ?_
  obtain ⟨target, -, rfl⟩ := List.mem_map.1 hs
  simp

theorem read_levelText :
    read (levelText level) = ⟨⟨ownDirectives l⟩, []⟩ := by
  have htexts : ofTexts (Filter.pieces (levelText level)) = (ownDirectives l, []) := by
    have hread {target : String} (htarget : target ∈ ownTargets) := read_ownTarget h htarget
    rw [pieces_levelText h]
    simp only [ownTargets, List.map_cons, List.map_nil, ofTexts, hread List.mem_cons_self,
      hread (List.mem_cons_of_mem _ List.mem_cons_self), ownDirectives]
  rw [read, htexts]
  rfl

theorem passes_levelText (target : String) (fields : List String) (severity : Level) :
    (read (levelText level)).filter.passes target fields severity = true ↔
      (∃ own ∈ ownTargets, own.toList <+: target.toList) ∧ l.severity ≤ severity.severity := by
  have hthreshold : ∀ d ∈ (Filter.mk (ownDirectives l)).directives, d.threshold = some l := by
    intro d hd
    obtain ⟨own, -, rfl⟩ := List.mem_map.1 hd
    rfl
  have hcovers : (∃ d ∈ ownDirectives l, d.covers target fields = true) ↔
      ∃ own ∈ ownTargets, own.toList <+: target.toList := by
    simp [ownDirectives, Directive.covers_target_iff]
  rw [read_levelText h, ← Level.shows_iff, ← hcovers]
  exact Filter.passes_iff_of_threshold hthreshold target fields severity

end Level

theorem choose_of_some {setting : Option String} {f : Filter}
    (h : setting.bind Filter.read? = some f) (level : String) : choose setting level = ⟨f, []⟩ := by
  rw [choose, h]

theorem choose_of_none {setting : Option String} (h : setting.bind Filter.read? = none)
    (level : String) : choose setting level = read (levelText level) := by
  rw [choose, h]

/-- A setting that can be read decides alone, and without one the level does. A level that a file
may give then lets pass what is of the library or of the program and matters as much. -/
theorem setting_overrides_level :
    (∀ text : String, (Filter.read? text).isSome = true →
      ∀ level level' : String, choose (some text) level = choose (some text) level') ∧
    (∀ setting setting' : Option String, setting.bind Filter.read? = none →
      setting'.bind Filter.read? = none →
      ∀ level : String, choose setting level = choose setting' level) ∧
    ∀ setting : Option String, setting.bind Filter.read? = none →
      ∀ (edition : Edition) (file : PolicyFile),
        PolicyFile.ValidationError.logLevel file.logLevel ∉ file.validate edition →
        ∃ l : Level, Text.lowerAscii file.logLevel = Text.lowerAscii l.name ∧
          ∀ (target : String) (fields : List String) (severity : Level),
            (choose setting file.logLevel).filter.passes target fields severity = true ↔
              ("amqp_context_policy".toList <+: target.toList ∨
                "context_policy".toList <+: target.toList) ∧
              l.severity ≤ severity.severity := by
  refine ⟨?_, ?_, ?_⟩
  · intro text htext level level'
    obtain ⟨f, hf⟩ := Option.isSome_iff_exists.1 htext
    have hsetting : (some text).bind Filter.read? = some f := hf
    rw [choose_of_some hsetting level, choose_of_some hsetting level']
  · intro setting setting' hsetting hsetting' level
    rw [choose_of_none hsetting, choose_of_none hsetting']
  · intro setting hsetting edition file hvalid
    obtain ⟨l, hl⟩ := Level.exists_of_not_mem_validate hvalid
    refine ⟨l, hl, fun target fields severity => ?_⟩
    rw [choose_of_none hsetting, passes_levelText hl]
    simp only [ownTargets, List.mem_cons, List.not_mem_nil, or_false, exists_eq_or_imp,
      exists_eq_left]

/-- A setting with a level of the wrong form leaves the choice to a level in any letters. -/
theorem setting_overrides_level_mixed_case :
    choose (some "context_policy=off,[span]") "wArN" = choose (some "context_policy=off,[span]") "" ∧
      choose (some "context_policy=loud") "wArN" = choose none "wArN" ∧
      (choose (some "context_policy=loud") "wArN").filter.passes "context_policyholder" [] .error =
        true ∧
      ¬ (choose (some "context_policy=loud") "wArN").filter.passes "context_policyholder" [] .info =
        true ∧
      ¬ (choose (some "context_policy=loud") "wArN").filter.passes "policy" [] .error = true := by
  obtain ⟨hset, hunset, hlevel⟩ := setting_overrides_level
  have hread : (Filter.read? "context_policy=off,[span]").isSome = true := by
    rw [Filter.read?, Filter.pieces_eq]
    decide +kernel
  have hunread : (some "context_policy=loud").bind Filter.read? = none := by
    rw [Option.bind_some, Filter.read?, Filter.pieces_eq]
    decide +kernel
  obtain ⟨l, hl, hpasses⟩ := hlevel _ hunread .standard { PolicyFile.empty with logLevel := "wArN" }
    (by decide +kernel)
  have hwarn : l = .warn := by
    cases l <;> first | rfl | exact absurd hl (by decide)
  subst hwarn
  refine ⟨hset _ hread _ _, hunset _ _ hunread rfl _, ?_, ?_, ?_⟩
  · exact (hpasses "context_policyholder" [] .error).2 ⟨.inr (by decide), by decide⟩
  · intro hpass
    exact absurd ((hpasses "context_policyholder" [] .info).1 hpass).2 (by decide)
  · intro hpass
    exact absurd ((hpasses "policy" [] .error).1 hpass).1 (by decide)

end Selection

end BrokerPolicy.Log
