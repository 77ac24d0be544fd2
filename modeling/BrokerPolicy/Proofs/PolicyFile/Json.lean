import BrokerPolicy.PolicyFile.Application
import BrokerPolicy.PolicyFile.Validation
import BrokerPolicy.Proofs.Field.Json
import BrokerPolicy.Proofs.Json.Outline
import BrokerPolicy.Proofs.PolicyFile.Reader

set_option autoImplicit false

/-!
Policy files through JSON text. The fields of a file are told apart by their names alone, so their
order does not matter and those at their defaults need not be there; what is under any other name,
or under one name twice, is refused.
-/

namespace BrokerPolicy.PolicyFile

open Schema

/-- The documents that stand for a field of a file: the one it is written as, its properties in any
other order, and an empty part for a log level that is the default. -/
inductive Field.Writes (p : PolicyFile) : Field → Document → Prop
  | whole (field : Field) : Writes p field (field.document p)
  | reordered {t : List (String × FieldValue)} (h : t.Perm p.properties) :
    Writes p .properties (.table (FieldValue.documentEntries t))
  | levelless (h : p.logLevel = defaultLogLevel) : Writes p .observability (.table [])

/-- Members of an object that say what a file says: its fields in any order, of which those at their
defaults may be left out. -/
structure Tells (p : PolicyFile) (entries : List (String × Document)) : Prop where
  written : ∀ e ∈ entries, ∃ field : Field, e.1 = field.name ∧ field.Writes p e.2
  distinct : (entries.map Prod.fst).Nodup
  complete : ∀ field : Field, field.name ∉ entries.map Prod.fst → field.IsDefault p

theorem eq_of_agrees {p f : PolicyFile} (h : ∀ field : Field, field.Agrees p f) : f = p := by
  cases p
  cases f
  rw [PolicyFile.mk.injEq]
  exact ⟨h .timeout, h .threshold, h .shuffle, h .tunables, h .properties, h .observability⟩

theorem Field.IsDefault.agrees {p : PolicyFile} {field : Field} (h : field.IsDefault p) :
    field.Agrees p PolicyFile.empty := by
  cases field <;> exact h.symm

theorem Field.Agrees.trans {p f g : PolicyFile} {field : Field} (hpf : field.Agrees p f)
    (hfg : field.Agrees f g) : field.Agrees p g := by
  cases field <;> exact Eq.trans hfg hpf

theorem optional_seconds (s? : Option UInt64) :
    optional seconds (Document.ofOption secondsDocument s?).draft = .ok s? := by
  cases s? with
  | none => rfl
  | some s =>
    have hread : seconds (.integer s.toNat) = .ok s := by
      rw [seconds, if_neg (by omega), Int.toNat_natCast, UInt64.ofNat_toNat]
    change (seconds (.integer s.toNat)).map some = _
    rw [hread]
    rfl

theorem optional_boolean (b? : Option Bool) :
    optional boolean (Document.ofOption .boolean b?).draft = .ok b? := by
  cases b? <;> rfl

theorem texts_draft (names : List String) :
    texts (Document.array (names.map .text)).draft = .ok names := by
  have hitems : (Document.draftItems (names.map .text)).mapM text = .ok names := by
    induction names with
    | nil => rfl
    | cons s rest ih =>
      rw [List.map_cons, Document.draftItems, List.mapM_cons, ih]
      rfl
  rw [Document.draft, texts, hitems]
  rfl

section

variable {p : PolicyFile} (hp : (FieldValue.table p.properties).Canonical)
include hp

theorem tableOfDraft_reordered {t : List (String × FieldValue)} (h : t.Perm p.properties) :
    FieldValue.tableOfDraft (Document.table (FieldValue.documentEntries t)).draft =
      .ok p.properties := by
  have hparts : FieldValue.CanonicalEntries t := by
    rw [FieldValue.canonicalEntries_iff]
    intro e he
    exact (FieldValue.canonicalEntries_iff p.properties).1 hp.2 e (h.mem_iff.1 he)
  have hentries := FieldValue.entriesOfDraft_draft (FieldValue.ofEntries?_document hparts)
  rw [Document.draft, FieldValue.tableOfDraft, hentries]
  change Except.ok (OrderedTable.ofList t) = _
  rw [OrderedTable.ofList_of_perm hp.1 h]

theorem Field.Writes.exists_readField {field : Field} {d : Document} (h : field.Writes p d)
    (f : PolicyFile) :
    ∃ g, readField jsonFormat f field d.draft = .ok g ∧ field.Agrees p g := by
  cases h with
  | reordered ht =>
    rw [readField, tableOfDraft_reordered hp ht]
    exact ⟨_, rfl, rfl⟩
  | levelless hlevel => exact ⟨_, rfl, hlevel.symm⟩
  | whole =>
    cases field with
    | timeout =>
      rw [readField, Field.document, optional_seconds]
      exact ⟨_, rfl, rfl⟩
    | threshold =>
      rw [readField, Field.document, optional_seconds]
      exact ⟨_, rfl, rfl⟩
    | shuffle =>
      rw [readField, Field.document, optional_boolean]
      exact ⟨_, rfl, rfl⟩
    | tunables =>
      rw [readField, Field.document, texts_draft]
      exact ⟨_, rfl, rfl⟩
    | properties =>
      rw [readField, Field.document, tableOfDraft_reordered hp (List.Perm.refl _)]
      exact ⟨_, rfl, rfl⟩
    | observability => exact ⟨_, rfl, rfl⟩

theorem exists_namedFields {entries : List (String × Document)}
    (written : ∀ e ∈ entries, ∃ field : Field, e.1 = field.name ∧ field.Writes p e.2)
    (distinct : (entries.map Prod.fst).Nodup) (f : PolicyFile) (seen : List Field)
    (fresh : ∀ field ∈ seen, field.name ∉ entries.map Prod.fst) :
    ∃ g, namedFields jsonFormat f seen (Document.draftEntries entries) = .ok g ∧
      ∀ field : Field, field.name ∈ entries.map Prod.fst ∨ field.Agrees p f →
        field.Agrees p g := by
  -- Along the entries: a field agrees once its entry was read, and no later one changes it.
  induction entries generalizing f seen with
  | nil => exact ⟨f, rfl, fun field h => h.resolve_left List.not_mem_nil⟩
  | cons e rest ih =>
    obtain ⟨name, d⟩ := e
    rw [List.forall_mem_cons] at written
    rw [List.map_cons, List.nodup_cons] at distinct
    obtain ⟨⟨field, hname, hwrites⟩, hrest⟩ := written
    dsimp only at hname hwrites
    subst hname
    have hseen : field ∉ seen := fun hmem => fresh field hmem List.mem_cons_self
    have hfresh : ∀ other ∈ field :: seen, other.name ∉ rest.map Prod.fst := by
      rw [List.forall_mem_cons]
      exact ⟨distinct.1, fun other hmem hlater =>
        fresh other hmem (List.mem_cons_of_mem _ hlater)⟩
    obtain ⟨g, hg, hgiven⟩ := hwrites.exists_readField hp f
    obtain ⟨last, hlast, hagrees⟩ := ih hrest distinct.2 g (field :: seen) hfresh
    refine ⟨last, ?_, ?_⟩
    · rw [Document.draftEntries, namedFields, (Field.ofName?_eq_some_iff _ field).2 rfl]
      dsimp only
      rw [if_neg hseen, hg]
      exact hlast
    · intro other hother
      apply hagrees
      by_cases hsame : other = field
      · exact .inr (hsame ▸ hgiven)
      · rw [List.map_cons, List.mem_cons] at hother
        rcases hother with (hhead | hlater) | hbefore
        · exact absurd (Field.name_injective hhead) hsame
        · exact .inl hlater
        · exact .inr (hbefore.trans (agrees_readField hg hsame))

theorem Tells.ofDraft_eq {entries : List (String × Document)} (h : Tells p entries) :
    ofDraft jsonFormat (Document.table entries).draft = .ok p := by
  obtain ⟨g, hg, hagrees⟩ :=
    exists_namedFields hp h.written h.distinct PolicyFile.empty [] (by simp)
  have hsame : g = p := by
    apply eq_of_agrees
    intro field
    apply hagrees
    by_cases hgiven : field.name ∈ entries.map Prod.fst
    · exact .inl hgiven
    · exact .inr (h.complete field hgiven).agrees
  rw [Document.draft, ofDraft, hg, hsame]
  rfl

end

theorem Field.Writes.depth_le {p : PolicyFile} {field : Field} {d : Document}
    (h : field.Writes p d) : d.depth ≤ (field.document p).depth := by
  cases h with
  | whole => exact le_rfl
  | levelless => exact le_rfl
  | @reordered t ht =>
    have hparts := (FieldValue.depthEntries_le_iff p.properties _).1 le_rfl
    change Document.depthEntries _ + 1 ≤ Document.depthEntries _ + 1
    rw [FieldValue.depthEntries_document, FieldValue.depthEntries_document]
    apply Nat.succ_le_succ
    rw [FieldValue.depthEntries_le_iff]
    exact fun e he => hparts e (ht.mem_iff.1 he)

theorem numbersIn_ofOption {α : Type} {q : Binary64 → Prop} {document : α → Document}
    (h : ∀ a, (document a).NumbersIn q) (a? : Option α) :
    (Document.ofOption document a?).NumbersIn q := by
  cases a? with
  | none => trivial
  | some a => exact h a

theorem numbersIn_secondsDocument (q : Binary64 → Prop) (s : UInt64) :
    (secondsDocument s).NumbersIn q := by
  have hsize := s.toNat_lt
  change -2 ^ 63 ≤ (s.toNat : Int) ∧ (s.toNat : Int) < 2 ^ 64
  omega

theorem Field.Writes.numbersIn {q : Binary64 → Prop} {p : PolicyFile}
    (hq : ∀ x ∈ (FieldValue.table p.properties).floats, q x) {field : Field} {d : Document}
    (h : field.Writes p d) : d.NumbersIn q := by
  cases h with
  | levelless => trivial
  | @reordered t ht =>
    have hparts := (FieldValue.forall_floatsEntries_iff q p.properties).1 hq
    apply (FieldValue.numbersInEntries_document q t).2
    rw [FieldValue.forall_floatsEntries_iff]
    exact fun e he => hparts e (ht.mem_iff.1 he)
  | whole =>
    cases field with
    | timeout => exact numbersIn_ofOption (numbersIn_secondsDocument q) p.timeoutSeconds
    | threshold => exact numbersIn_ofOption (numbersIn_secondsDocument q) p.thresholdSeconds
    | shuffle =>
      have hboolean : ∀ b, (Document.boolean b).NumbersIn q := fun _ => trivial
      exact numbersIn_ofOption hboolean p.shuffle
    | tunables =>
      apply (Document.numbersInItems_iff q _).2
      rw [List.forall_mem_map]
      exact fun _ _ => trivial
    | properties => exact (FieldValue.numbersInEntries_document q p.properties).2 hq
    | observability => exact ⟨trivial, trivial⟩

theorem Field.mem_all (field : Field) : field ∈ Field.all := by
  cases field <;> decide

theorem Tells.depth_le {p : PolicyFile} {entries : List (String × Document)} (h : Tells p entries) :
    (Document.table entries).depth ≤ p.document.depth := by
  have hall := (Document.depthEntries_le_iff
    (Field.all.map fun field => (field.name, field.document p)) _).1 le_rfl
  apply Nat.succ_le_succ
  rw [Document.depthEntries_le_iff]
  intro e he
  obtain ⟨field, -, hwrites⟩ := h.written e he
  exact hwrites.depth_le.trans (hall _ (List.mem_map_of_mem field.mem_all))

theorem Tells.numbersIn {q : Binary64 → Prop} {p : PolicyFile}
    (hq : ∀ x ∈ (FieldValue.table p.properties).floats, q x) {entries : List (String × Document)}
    (h : Tells p entries) : (Document.table entries).NumbersIn q := by
  apply (Document.numbersInEntries_iff q entries).2
  intro e he
  obtain ⟨field, -, hwrites⟩ := h.written e he
  exact hwrites.numbersIn hq

structure Readable (p : PolicyFile) : Prop where
  canonical : (FieldValue.table p.properties).Canonical
  depth_le : p.document.depth ≤ Json.maxDepth
  finite : ∀ x ∈ (FieldValue.table p.properties).floats, x.isFinite = true
  readsBack : ∀ x ∈ (FieldValue.table p.properties).floats, Json.ReadsBack x

theorem Tells.read_compact {p : PolicyFile} (hp : p.Readable) {entries : List (String × Document)}
    (h : Tells p entries) :
    Json.read (Json.compact (.table entries)) = ⟨(Document.table entries).draft, true⟩ := by
  have hback : (Document.table entries).NumbersIn fun x => Json.readBack? x = some x :=
    h.numbersIn fun x hx => Json.readBack?_of_readsBack (hp.finite x hx) (hp.readsBack x hx)
  have hlegible : (Document.table entries).NumbersIn Json.Legible := by
    apply hback.mono
    intro x hx _
    rw [hx]
    rfl
  rw [Json.read_compact (h.depth_le.trans hp.depth_le) hlegible, Document.reread_eq_self hback]

theorem ofJson_of_ofDraft {source : String} {d : Draft} {f : PolicyFile}
    (hread : Json.read source = ⟨d, true⟩) (h : ofDraft jsonFormat d = .ok f) :
    ofJson source = .ok f := by
  rw [ofJson]
  simp only [hread, h]
  rfl

theorem Tells.ofJson_compact {p : PolicyFile} (hp : p.Readable)
    {entries : List (String × Document)} (h : Tells p entries) :
    ofJson (Json.compact (.table entries)) = .ok p :=
  ofJson_of_ofDraft (h.read_compact hp) (h.ofDraft_eq hp.canonical)

theorem tells_document (p : PolicyFile) :
    Tells p (Field.all.map fun field => (field.name, field.document p)) where
  written := by
    rw [List.forall_mem_map]
    exact fun field _ => ⟨field, rfl, .whole field⟩
  distinct := by
    rw [List.map_map]
    exact List.Nodup.map Field.name_injective (by decide)
  complete := by
    intro field hmissing
    refine absurd ?_ hmissing
    rw [List.map_map]
    exact List.mem_map_of_mem field.mem_all

theorem exists_ofDraft_of_ofJson {source : String} {f : PolicyFile} (h : ofJson source = .ok f) :
    (Json.read source).complete = true ∧ ofDraft jsonFormat (Json.read source).draft = .ok f := by
  obtain ⟨g, hdraft, hfinish⟩ := exists_of_bind_eq_ok h
  obtain ⟨hcomplete, rfl⟩ := (finish_eq_ok_iff _ g f).1 hfinish
  exact ⟨hcomplete, hdraft⟩

theorem namedFields_cons {format : Format} {f g : PolicyFile} {seen : List Field}
    {e : String × Draft} {rest : List (String × Draft)}
    (h : namedFields format f seen (e :: rest) = .ok g) :
    ∃ field f', e.1 = field.name ∧ field ∉ seen ∧ readField format f field e.2 = .ok f' ∧
      namedFields format f' (field :: seen) rest = .ok g := by
  obtain ⟨name, d⟩ := e
  rw [namedFields] at h
  split at h
  · cases h
  · next field hfield =>
    split_ifs at h with hseen
    obtain ⟨f', hread, hrest⟩ := exists_of_bind_eq_ok h
    exact ⟨field, f', (Field.ofName?_eq_some_iff name field).1 hfield, hseen, hread, hrest⟩

theorem names_of_namedFields {format : Format} {f g : PolicyFile} {seen : List Field}
    {es : List (String × Draft)} (h : namedFields format f seen es = .ok g) :
    (es.map Prod.fst).Nodup ∧ (∀ field ∈ seen, field.name ∉ es.map Prod.fst) ∧
      ∀ e ∈ es, ∃ field f' g', e.1 = Field.name field ∧
        readField format f' field e.2 = .ok g' := by
  induction es generalizing f seen with
  | nil => simp
  | cons e rest ih =>
    obtain ⟨field, f', hname, hseen, hread, hrest⟩ := namedFields_cons h
    obtain ⟨hnodup, hfresh, hfields⟩ := ih hrest
    rw [List.forall_mem_cons] at hfresh
    refine ⟨?_, ?_, ?_⟩
    · rw [List.map_cons, List.nodup_cons, hname]
      exact ⟨hfresh.1, hnodup⟩
    · intro other hother
      rw [List.map_cons, List.mem_cons, hname, not_or]
      refine ⟨fun hsame => hseen ?_, hfresh.2 other hother⟩
      exact Field.name_injective hsame ▸ hother
    · rw [List.forall_mem_cons]
      exact ⟨⟨field, f, f', hname, hread⟩, hfields⟩

theorem names_of_logLevelEntries {level level' : Option String} {es : List (String × Draft)}
    (h : logLevelEntries level es = .ok level') : ∀ e ∈ es, e.1 = logLevelName := by
  induction es generalizing level with
  | nil => simp
  | cons e rest ih =>
    obtain ⟨name, d⟩ := e
    rw [logLevelEntries] at h
    split_ifs at h with hname hgiven
    obtain ⟨s, -, hrest⟩ := exists_of_bind_eq_ok h
    exact List.forall_mem_cons.2 ⟨hname, ih hrest⟩

theorem names_of_observability {format : Format} {es : List (String × Draft)} {level : String}
    (h : observability format (.table es true) = .ok level) : ∀ e ∈ es, e.1 = logLevelName := by
  obtain ⟨level', hlevel, -⟩ := exists_of_bind_eq_ok h
  exact names_of_logLevelEntries hlevel

structure WellNamed (entries : List (String × Document)) : Prop where
  known : ∀ e ∈ entries, ∃ field : Field, e.1 = field.name
  distinct : (entries.map Prod.fst).Nodup
  levels : ∀ members, (Field.observability.name, Document.table members) ∈ entries →
    ∀ m ∈ members, m.1 = logLevelName

theorem wellNamed_of_ofJson {entries : List (String × Document)} {f : PolicyFile}
    (h : ofJson (Json.compact (.table entries)) = .ok f) : WellNamed entries := by
  obtain ⟨hcomplete, hdraft⟩ := exists_ofDraft_of_ofJson h
  obtain ⟨es, hes, hnames, hparts⟩ := (Json.outlines_of_complete hcomplete).exists_entries
  rw [hes] at hdraft
  obtain ⟨g, hnamed, -⟩ := exists_of_bind_eq_ok hdraft
  obtain ⟨hnodup, -, hfields⟩ := names_of_namedFields hnamed
  refine ⟨?_, hnames ▸ hnodup, ?_⟩
  · intro e he
    obtain ⟨y, hy, hname, -⟩ := hparts e he
    obtain ⟨field, _, _, hfield, -⟩ := hfields y hy
    exact ⟨field, hname ▸ hfield⟩
  · intro members hmembers m hm
    obtain ⟨y, hy, hname, hsame⟩ := hparts _ hmembers
    obtain ⟨field, f', g', hfield, hread⟩ := hfields y hy
    obtain rfl : field = .observability := Field.name_injective (hfield.symm.trans hname)
    obtain ⟨ms, hms, hmnames⟩ := hsame members rfl
    rw [hms] at hread
    obtain ⟨level, hlevel, -⟩ := exists_of_map_eq_ok hread
    have hmem : m.1 ∈ ms.map Prod.fst := hmnames ▸ List.mem_map_of_mem hm
    obtain ⟨m', hm', hsamename⟩ := List.mem_map.1 hmem
    exact hsamename ▸ names_of_observability hlevel m' hm'

theorem exists_error_of_not_wellNamed {entries : List (String × Document)}
    (h : ¬ WellNamed entries) :
    ∃ error, ofJson (Json.compact (.table entries)) = .error error := by
  cases hread : ofJson (Json.compact (.table entries)) with
  | error error => exact ⟨error, rfl⟩
  | ok f => exact absurd (wellNamed_of_ofJson hread) h

/-- A file whose properties hold only finite floats that read back, and that nests within the depth
of a reader, survives its JSON text. So it does through every text of its fields in any order, with
its properties in any order and with fields at their defaults left out. A name that is not known, of
a field or beside the log level, and a field that comes twice are refused, whatever comes with them.
What is read is checked and applied as the file is. -/
theorem survives_json_in_any_order (p : PolicyFile) (hp : p.Readable) :
    ofJson p.json = .ok p ∧
    (∀ entries, Tells p entries → ofJson (Json.compact (.table entries)) = .ok p) ∧
    (∀ entries, (∃ e ∈ entries, ∀ field : Field, e.1 ≠ field.name) →
      ∃ error, ofJson (Json.compact (.table entries)) = .error error) ∧
    (∀ entries members, (Field.observability.name, Document.table members) ∈ entries →
      (∃ m ∈ members, m.1 ≠ logLevelName) →
        ∃ error, ofJson (Json.compact (.table entries)) = .error error) ∧
    (∀ entries, ¬ (entries.map Prod.fst).Nodup →
      ∃ error, ofJson (Json.compact (.table entries)) = .error error) ∧
    ∀ entries g, Tells p entries → ofJson (Json.compact (.table entries)) = .ok g →
      ∀ (edition : Edition) (b : Builder),
        g.validate edition = p.validate edition ∧ g.apply edition b = p.apply edition b := by
  refine ⟨(tells_document p).ofJson_compact hp, ?_, ?_, ?_, ?_, ?_⟩
  · exact fun entries h => h.ofJson_compact hp
  · rintro entries ⟨e, he, hunknown⟩
    apply exists_error_of_not_wellNamed
    intro h
    obtain ⟨field, hfield⟩ := h.known e he
    exact hunknown field hfield
  · rintro entries members hmembers ⟨m, hm, hunknown⟩
    apply exists_error_of_not_wellNamed
    exact fun h => hunknown (h.levels members hmembers m hm)
  · intro entries htwice
    apply exists_error_of_not_wellNamed
    exact fun h => htwice h.distinct
  · intro entries g h hg edition b
    rw [h.ofJson_compact hp] at hg
    cases hg
    exact ⟨rfl, rfl⟩

/-- Two fields at their defaults and the log level are left out, and the properties stand in another
order. -/
theorem survives_json_in_any_order_team :
    let p : PolicyFile := ⟨some 18446744073709551615, none, none, ["fast"],
      [("ratio", .float ⟨0x3ff0000000000000⟩), ("team", .table [("lead", .string "a")])], "info"⟩
    let entries : List (String × Document) :=
      [("client_properties", .table
          [("team", .table [("lead", .text "a")]), ("ratio", .real ⟨0x3ff0000000000000⟩)]),
        ("observability", .table []), ("tunables", .array [.text "fast"]),
        ("message_processing_timeout_secs", .integer 18446744073709551615)]
    ofJson (Json.compact (.table entries)) = .ok p ∧
      (∃ error, ofJson (Json.compact (.table (("colour", .null) :: entries))) = .error error) ∧
      ∃ error, ofJson (Json.compact (.table (("tunables", .null) :: entries))) = .error error := by
  intro p entries
  have hback : ∀ x ∈ [(⟨0x3ff0000000000000⟩ : Binary64)], Json.readBack? x = some x := by
    decide +kernel
  have hp : p.Readable := {
    canonical := ⟨by unfold OrderedTable.Sorted OrderedTable.names; decide, trivial,
      ⟨by unfold OrderedTable.Sorted OrderedTable.names; decide, trivial, trivial⟩, trivial⟩
    depth_le := by decide
    finite := by
      change ∀ x ∈ [(⟨0x3ff0000000000000⟩ : Binary64)], _
      decide
    readsBack := fun x hx => Json.readsBack_of_readBack? (hback x hx) }
  have htells : Tells p entries := {
    written := by
      simp only [entries, List.forall_mem_cons]
      refine ⟨⟨.properties, rfl, ?_⟩, ⟨.observability, rfl, .levelless rfl⟩,
        ⟨.tunables, rfl, .whole .tunables⟩, ⟨.timeout, rfl, .whole .timeout⟩, by simp⟩
      exact .reordered (t := [("team", .table [("lead", .string "a")]),
        ("ratio", .float ⟨0x3ff0000000000000⟩)]) (List.Perm.swap _ _ _)
    distinct := by decide
    complete := by
      intro field hmissing
      cases field with
      | threshold | shuffle => rfl
      | _ => exact absurd (by decide) hmissing }
  obtain ⟨-, hread, hunknown, -, htwice, -⟩ := survives_json_in_any_order p hp
  refine ⟨hread entries htells, hunknown _ ⟨("colour", .null), by simp, ?_⟩, htwice _ (by decide)⟩
  intro field
  cases field <;> decide

end BrokerPolicy.PolicyFile
