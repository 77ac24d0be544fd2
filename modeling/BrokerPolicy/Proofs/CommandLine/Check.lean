import BrokerPolicy.CommandLine.Run
import BrokerPolicy.Proofs.Json.Layout
import BrokerPolicy.Proofs.PolicyFile.Agreement
import Mathlib.Control.Monad.Basic

set_option autoImplicit false

/-!
The command that checks a file. It loads, applies and hands off on its own, and comes to what
loading a builder comes to. What it prints does not depend on what is logged.
-/

namespace BrokerPolicy

namespace PolicyFile

theorem load_eq_ok_iff (edition : Edition) (path : String) (content : FileContent)
    (f : PolicyFile) :
    (load edition path content).1 = .ok f ↔
      ∃ source, content = .ok source ∧ ofToml source = .ok f ∧ f.validate edition = [] := by
  cases content with
  | error fault => simp [load]
  | ok source =>
    cases hg : ofToml source with
    | error e => simp [load, parse, hg]
    | ok g =>
      cases hv : g.validate edition with
      | nil =>
        simp only [load, parse, hg, hv, Except.ok.injEq, exists_eq_left']
        constructor
        · rintro rfl
          exact ⟨rfl, hv⟩
        · exact fun h => h.1
      | cons problem problems =>
        simp only [load, parse, hg, hv, Except.ok.injEq, exists_eq_left', reduceCtorEq, false_iff]
        rintro ⟨rfl, h⟩
        simp [hv] at h

theorem load_validation {edition : Edition} {path : String} {content : FileContent}
    {errors : List ValidationError}
    (h : (load edition path content).1 = .error (.validation errors)) :
    ∃ source f, content = .ok source ∧ ofToml source = .ok f ∧ errors = f.validate edition := by
  cases content with
  | error fault => simp [load] at h
  | ok source =>
    cases hg : ofToml source with
    | error e => simp [load, parse, hg] at h
    | ok g =>
      cases hv : g.validate edition with
      | nil => simp [load, parse, hg, hv] at h
      | cons problem problems =>
        have herrors : problem :: problems = errors := by simpa [load, parse, hg, hv] using h
        exact ⟨source, g, rfl, hg, herrors ▸ hv.symm⟩

theorem apply_error_of_load {edition : Edition} {path : String} {content : FileContent}
    {f : PolicyFile} (h : (load edition path content).1 = .ok f) (b : Builder) :
    (f.apply edition b).error = none := by
  obtain ⟨_, _, _, hvalid⟩ := (load_eq_ok_iff edition path content f).1 h
  exact apply_error_of_valid hvalid b

theorem loadBuilder_of_load {edition : Edition} {path : String} {content : FileContent}
    {f : PolicyFile} (h : (load edition path content).1 = .ok f) (host : Host) :
    (loadBuilder edition host path content).1 =
      .ok (f.apply edition (Builder.ofHost host)).builder := by
  obtain ⟨source, rfl, hf, hvalid⟩ := (load_eq_ok_iff edition path content f).1 h
  rw [loadBuilder_fst]
  simp [hf, hvalid]

end PolicyFile

namespace CommandLine

def Notice.said? : Notice → Option String
  | .said s => some s
  | .logged _ => none

def problemLines : ConfigError → List String
  | .validation errors => errors.map fun p => "  - " ++ p.message
  | _ => []

theorem loadingNotices_said (wording : TomlError → String) (e : ConfigError) :
    (loadingNotices wording e).filterMap Notice.said? =
      problemLines e ++ ["Error: " ++ e.message wording] := by
  cases e <;>
    simp [loadingNotices, problemLines, failure, Notice.said?, List.filterMap_append,
      List.filterMap_map, Function.comp_def]

theorem runCheck_of_error {w : Surroundings} {path : String} {e : ConfigError}
    (h : (PolicyFile.load w.edition path w.content).1 = .error e) (level : Option String) :
    runCheck w level path = ⟨1, "", loadingNotices w.wording e⟩ := by
  rw [runCheck, h]

theorem runCheck_of_load {w : Surroundings} {path : String} {f : PolicyFile}
    (h : (PolicyFile.load w.edition path w.content).1 = .ok f) (level : Option String) :
    (runCheck w level path).code = 0 ∧
      (runCheck w level path).output =
        Json.pretty (f.apply w.edition (Builder.ofHost w.host)).builder.policy.summary.document ++
          "\n" := by
  have happlied := PolicyFile.apply_error_of_load h (Builder.ofHost w.host)
  have hbuilt := PolicyFile.build_apply_ofHost w.edition f w.host fun _ => true
  unfold runCheck
  simp only [h, happlied]
  generalize (f.apply w.edition (Builder.ofHost w.host)).builder = b at hbuilt ⊢
  rw [buildAlone]
  generalize b.build (fun _ => true) = built at hbuilt ⊢
  obtain ⟨result, events⟩ := built
  subst hbuilt
  exact ⟨rfl, rfl⟩

/-- Neither the exit code nor the output of a check depends on what is logged. -/
theorem runCheck_setting (w : Surroundings) (level level' setting : Option String)
    (path : String) :
    (runCheck { w with logSetting := setting } level' path).code = (runCheck w level path).code ∧
      (runCheck { w with logSetting := setting } level' path).output =
        (runCheck w level path).output := by
  cases h : (PolicyFile.load w.edition path w.content).1 with
  | error e =>
    have h' : (PolicyFile.load { w with logSetting := setting }.edition path
        { w with logSetting := setting }.content).1 = .error e := h
    rw [runCheck_of_error h level, runCheck_of_error h' level']
    exact ⟨rfl, rfl⟩
  | ok f =>
    have h' : (PolicyFile.load { w with logSetting := setting }.edition path
        { w with logSetting := setting }.content).1 = .ok f := h
    obtain ⟨hcode, houtput⟩ := runCheck_of_load h level
    obtain ⟨hcode', houtput'⟩ := runCheck_of_load h' level'
    exact ⟨hcode'.trans hcode.symm, houtput'.trans houtput.symm⟩

/-- A check succeeds exactly if the file loads, and then prints the summary of the policy that the
builder of the file hands off, as indented JSON. Otherwise it prints nothing and says why, in the
words of the reader where the text is at fault, with a line for each problem that validation lists.
No later step ends it, and what is logged changes neither its exit code nor its output. -/
theorem check_agrees_with_loading (w : Surroundings) (level : Option String) (path : String) :
    let checked := (Invocation.mk level (.check path)).run w
    let loaded := (PolicyFile.load w.edition path w.content).1
    (checked.code = 0 ↔ ∃ f, loaded = .ok f) ∧
      (∀ f, loaded = .ok f →
        (f.apply w.edition (Builder.ofHost w.host)).error = none ∧
        (∃ p, (buildAlone (f.apply w.edition (Builder.ofHost w.host)).builder).1 = .ok p) ∧
        ∃ b p, (PolicyFile.loadBuilder w.edition w.host path w.content).1 = .ok b ∧
          (∀ accepts, (b.build accepts).1 = .ok p) ∧
          checked.output = Json.pretty p.summary.document ++ "\n" ∧
          checked.output = "\n".intercalate (Json.lines p.summary.document) ++ "\n") ∧
      (∀ e, loaded = .error e →
        checked.code = 1 ∧ checked.output = "" ∧
        checked.notices.filterMap Notice.said? =
          problemLines e ++ ["Error: " ++ e.message w.wording] ∧
        ∀ errors, e = .validation errors →
          ∃ source f, w.content = .ok source ∧ PolicyFile.ofToml source = .ok f ∧
            errors = f.validate w.edition) ∧
      ∀ level' setting,
        let other := (Invocation.mk level' (.check path)).run { w with logSetting := setting }
        other.code = checked.code ∧ other.output = checked.output := by
  intro checked loaded
  refine ⟨?_, ?_, ?_, fun level' setting => runCheck_setting w level level' setting path⟩
  · cases hloaded : loaded with
    | error e =>
      have hcode : checked.code = 1 :=
        congrArg Outcome.code (runCheck_of_error hloaded level)
      simp [hcode]
    | ok f => exact iff_of_true (runCheck_of_load hloaded level).1 ⟨f, rfl⟩
  · intro f hloaded
    have hbuild := PolicyFile.build_apply_ofHost w.edition f w.host
    have houtput := (runCheck_of_load hloaded level).2
    refine ⟨PolicyFile.apply_error_of_load hloaded _, ⟨_, hbuild _⟩, _, _,
      PolicyFile.loadBuilder_of_load hloaded w.host, hbuild, houtput, ?_⟩
    rw [← Json.pretty_eq_lines]
    exact houtput
  · intro e hloaded
    have hrun : checked = ⟨1, "", loadingNotices w.wording e⟩ := runCheck_of_error hloaded level
    rw [hrun]
    refine ⟨rfl, rfl, loadingNotices_said w.wording e, ?_⟩
    rintro errors rfl
    exact PolicyFile.load_validation hloaded

def wordingAtStart (e : TomlError) : String :=
  match e.cause with
  | .syntaxFault => ""
  | .schema p =>
    "TOML parse error at line 1, column 1\n  |\n1 | " ++ e.source ++ "\n  | ^\n" ++
      p.message Schema.tomlFormat ++ "\n"

/-- An empty file loads, one with an unnamed tunable is found fault with on two lines, and an unknown
field is told in the words of the reader. -/
theorem check_agrees_with_loading_tunable :
    let host : Host := ⟨"worker", 7, "Linux", "6.1.0", "#1 SMP"⟩
    let check := fun (level setting : Option String) (content : FileContent) =>
      (Invocation.mk level (.check "policy.toml")).run
        ⟨.standard, host, setting, content, wordingAtStart⟩
    (check (some "debug") none (.ok "")).code = 0 ∧
      (check none (some "trace") (.ok "tunables = [\"\"]")).notices.filterMap Notice.said? =
        ["  - tunable names must not be empty",
          "Error: Validation failed: tunable names must not be empty"] ∧
      (check none none (.ok "x = 1")).notices.filterMap Notice.said? =
        ["Error: Parse error: TOML parse error at line 1, column 1\n  |\n1 | x = 1\n  | ^\n" ++
          "unknown field `x`, expected one of `message_processing_timeout_secs`, " ++
          "`connection_error_threshold_secs`, `shuffle_connection_endpoints`, `tunables`, " ++
          "`client_properties`, `observability`\n"] := by
  intro host check
  have hempty := check_agrees_with_loading
    ⟨.standard, host, none, .ok "", wordingAtStart⟩ (some "debug") "policy.toml"
  have hunnamed := check_agrees_with_loading
    ⟨.standard, host, some "trace", .ok "tunables = [\"\"]", wordingAtStart⟩ none "policy.toml"
  have hunknown := check_agrees_with_loading
    ⟨.standard, host, none, .ok "x = 1", wordingAtStart⟩ none "policy.toml"
  have hloaded : (PolicyFile.load .standard "policy.toml" (.ok "")).1 = .ok PolicyFile.empty := by
    decide +kernel
  have hrefused : (PolicyFile.load .standard "policy.toml" (.ok "tunables = [\"\"]")).1 =
      .error (.validation [.emptyTunable]) := by
    decide +kernel
  have hunread : (PolicyFile.load .standard "policy.toml" (.ok "x = 1")).1 =
      .error (.parse ⟨"x = 1", .schema (.unknownField "x"
        (PolicyFile.Field.all.map PolicyFile.Field.name))⟩) := by
    decide +kernel
  refine ⟨hempty.1.2 ⟨_, hloaded⟩, (hunnamed.2.2.1 _ hrefused).2.2.1,
    (hunknown.2.2.1 _ hunread).2.2.1.trans ?_⟩
  decide +kernel

end CommandLine

end BrokerPolicy
