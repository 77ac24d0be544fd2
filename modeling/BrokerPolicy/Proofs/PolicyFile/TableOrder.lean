import BrokerPolicy.PolicyFile.Application
import BrokerPolicy.PolicyFile.Validation
import BrokerPolicy.Proofs.Field.Json
import BrokerPolicy.Proofs.Policy.TableKeys
import BrokerPolicy.Proofs.PolicyFile.Json
import Mathlib.Control.Monad.Basic

set_option autoImplicit false

/-!
Field tables have one order only. Wherever a table comes from, it goes through its names in ascending
order at every depth, and only the last value given to each name counts. So nothing that is shown,
checked or done along a table can tell in which order it was put together.
-/

namespace BrokerPolicy

namespace PolicyFile

open Schema

def Canonical (f : PolicyFile) : Prop := (FieldValue.table f.properties).Canonical

theorem canonical_empty : PolicyFile.empty.Canonical := ⟨OrderedTable.sorted_nil, trivial⟩

section Reading

variable {format : Format} {f g : PolicyFile}

/-- Of all fields only the properties are tables of values, and they are put in order. -/
theorem Canonical.readField {field : Field} {d : Draft} (hf : f.Canonical)
    (h : readField format f field d = .ok g) : g.Canonical := by
  by_cases hfield : field = .properties
  · subst hfield
    obtain ⟨t, ht, rfl⟩ := exists_of_map_eq_ok h
    exact FieldValue.canonical_of_tableOfDraft ht
  · have hsame : g.properties = f.properties := agrees_readField h (Ne.symm hfield)
    rw [Canonical, hsame]
    exact hf

theorem Canonical.namedFields {seen : List Field} {entries : List (String × Draft)}
    (hf : f.Canonical) (h : namedFields format f seen entries = .ok g) : g.Canonical := by
  induction entries generalizing f seen with
  | nil =>
    cases h
    exact hf
  | cons e rest ih =>
    obtain ⟨field, f', -, -, hread, hrest⟩ := namedFields_cons h
    exact ih (hf.readField hread) hrest

theorem Canonical.positionalFields {fields : List Field} {items rest : List Draft}
    (hf : f.Canonical) (h : positionalFields format f fields items = .ok (g, rest)) :
    g.Canonical := by
  induction fields generalizing f items with
  | nil =>
    cases h
    exact hf
  | cons field fields ih =>
    cases items with
    | nil =>
      cases h
      exact hf
    | cons d items =>
      obtain ⟨f', hread, hrest⟩ := exists_of_bind_eq_ok h
      exact ih (hf.readField hread) hrest

theorem canonical_of_ofDraft {d : Draft} (h : ofDraft format d = .ok f) : f.Canonical := by
  cases d with
  | table entries closed =>
    obtain ⟨g, hnamed, hfinish⟩ := exists_of_bind_eq_ok h
    obtain ⟨-, rfl⟩ := (finish_eq_ok_iff _ g f).1 hfinish
    exact canonical_empty.namedFields hnamed
  | array items closed =>
    obtain ⟨⟨g, rest⟩, hpositional, hrest⟩ := exists_of_bind_eq_ok h
    obtain ⟨-, -, rfl⟩ := exists_of_map_eq_ok hrest
    exact canonical_empty.positionalFields hpositional
  | _ => cases h

theorem canonical_of_ofJson {source : String} (h : ofJson source = .ok f) : f.Canonical :=
  canonical_of_ofDraft (exists_ofDraft_of_ofJson h).2

theorem canonical_of_ofToml {source : String} (h : ofToml source = .ok f) : f.Canonical := by
  rw [ofToml] at h
  split at h
  · cases h
  · exact canonical_of_ofDraft h

end Reading

end PolicyFile

namespace ClientProperties

def attempt (p : ClientProperties) (call : String × FieldValue) : ClientProperties :=
  (p.set call.1 call.2).2

def attemptAll (p : ClientProperties) (calls : List (String × FieldValue)) : ClientProperties :=
  calls.foldl attempt p

theorem attempt_table (p : ClientProperties) (call : String × FieldValue) :
    (p.attempt call).table =
      if Property.Acceptable call.1 then OrderedTable.insert call.1 call.2 p.table
      else p.table := by
  by_cases h : Property.Acceptable call.1
  · rw [attempt, set, Property.checkName_of_acceptable h, if_pos h]
  · rw [attempt, set, Property.checkName_eq_error h, if_neg h]

theorem attemptAll_table (p : ClientProperties) (calls : List (String × FieldValue)) :
    (p.attemptAll calls).table =
      OrderedTable.insertAll p.table (calls.filter fun call => Property.Acceptable call.1) := by
  induction calls generalizing p with
  | nil => rfl
  | cons call rest ih =>
    change ((p.attempt call).attemptAll rest).table = _
    rw [ih, attempt_table]
    by_cases h : Property.Acceptable call.1
    · rw [if_pos h, List.filter_cons_of_pos (by simpa using h)]
      rfl
    · rw [if_neg h, List.filter_cons_of_neg (by simpa using h)]

theorem lastOf_accepted (calls : List (String × FieldValue)) (name : String) :
    OrderedTable.lastOf (calls.filter fun call => Property.Acceptable call.1) name =
      if Property.Acceptable name then OrderedTable.lastOf calls name else none := by
  rw [OrderedTable.lastOf_filter fun n => Property.Acceptable n]
  simp only [decide_eq_true_eq]

theorem get?_attemptAll (p : ClientProperties) (calls : List (String × FieldValue))
    (name : String) :
    (p.attemptAll calls).get? name =
      (if Property.Acceptable name then OrderedTable.lastOf calls name else none).or
        (p.get? name) := by
  rw [get?, attemptAll_table, OrderedTable.find?_insertAll, lastOf_accepted, get?]

theorem attemptAll_congr {calls calls' : List (String × FieldValue)}
    (h : ∀ name, OrderedTable.lastOf calls name = OrderedTable.lastOf calls' name)
    (p : ClientProperties) : (p.attemptAll calls).table = (p.attemptAll calls').table := by
  rw [attemptAll_table, attemptAll_table]
  refine OrderedTable.insertAll_congr (fun name => ?_) p.table
  rw [lastOf_accepted, lastOf_accepted, h name]

end ClientProperties

namespace FieldValue

/-- The ways in which values arise. Texts are read, a host fills in its properties, and callers set
properties, insert into tables and take values apart and together. -/
inductive Arises : FieldValue → Prop
  | bool (b : Bool) : Arises (.bool b)
  | int (i : Int64) : Arises (.int i)
  | float (x : Binary64) : Arises (.float x)
  | string (s : String) : Arises (.string s)
  | array {items : List FieldValue} (h : ∀ v ∈ items, Arises v) : Arises (.array items)
  | emptyTable : Arises (.table [])
  | insert {t : FieldTable} {name : String} {value : FieldValue} (ht : Arises (.table t))
    (hvalue : Arises value) : Arises (.table (OrderedTable.insert name value t))
  | item {items : List FieldValue} {v : FieldValue} (h : Arises (.array items)) (hv : v ∈ items) :
    Arises v
  | entry {t : FieldTable} {e : String × FieldValue} (h : Arises (.table t)) (he : e ∈ t) :
    Arises e.2
  | json {source : String} {v : FieldValue} (h : ofJson source = .ok v) : Arises v
  | jsonTable {source : String} {t : FieldTable} (h : tableOfDraft (Json.read source).draft = .ok t) :
    Arises (.table t)
  | jsonFile {source : String} {f : PolicyFile} (h : PolicyFile.ofJson source = .ok f) :
    Arises (.table f.properties)
  | toml {source : String} {t : FieldTable} (h : tableOfToml source = .ok t) : Arises (.table t)
  | tomlFile {source : String} {f : PolicyFile} (h : PolicyFile.ofToml source = .ok f) :
    Arises (.table f.properties)
  | host (h : Host) : Arises (ClientProperties.ofHost h).whole
  | set {p : ClientProperties} {call : String × FieldValue} (hp : Arises p.whole)
    (hvalue : Arises call.2) : Arises (p.attempt call).whole

theorem canonical_insert {t : FieldTable} (ht : (table t).Canonical) (name : String)
    {value : FieldValue} (hvalue : value.Canonical) :
    (table (OrderedTable.insert name value t)).Canonical := by
  refine ⟨OrderedTable.sorted_insert name value ht.1, (canonicalEntries_iff _).2 fun e he => ?_⟩
  rcases OrderedTable.mem_insert he with rfl | he
  · exact hvalue
  · exact (canonicalEntries_iff t).1 ht.2 e he

theorem canonical_host (h : Host) : (ClientProperties.ofHost h).whole.Canonical := by
  rw [ClientProperties.whole, ClientProperties.ofHost]
  refine canonical_ofList ?_
  simp [Host.properties, Canonical]

theorem Arises.canonical {v : FieldValue} (h : v.Arises) : v.Canonical := by
  induction h with
  | bool _ | int _ | float _ | string _ => trivial
  | array _ ih => exact (canonicalItems_iff _).2 ih
  | emptyTable => exact ⟨OrderedTable.sorted_nil, trivial⟩
  | insert _ _ ht hvalue => exact canonical_insert ht _ hvalue
  | item _ hv ih => exact (canonicalItems_iff _).1 ih _ hv
  | entry _ he ih => exact (canonicalEntries_iff _).1 ih.2 _ he
  | json h => exact (readable_of_ofJson h).canonical
  | jsonTable h => exact canonical_of_tableOfDraft h
  | jsonFile h => exact PolicyFile.canonical_of_ofJson h
  | toml h =>
    obtain ⟨entries, -, hvalue⟩ := exists_of_tableOfToml h
    exact canonical_of_ofDocument? hvalue
  | tomlFile h => exact PolicyFile.canonical_of_ofToml h
  | host h => exact canonical_host h
  | set _ _ hp hvalue =>
    rw [ClientProperties.whole, ClientProperties.attempt_table]
    split_ifs
    · exact canonical_insert hp _ hvalue
    · exact hp

theorem arises_attemptAll {p : ClientProperties} (hp : p.whole.Arises)
    {calls : List (String × FieldValue)} (h : ∀ call ∈ calls, call.2.Arises) :
    (p.attemptAll calls).whole.Arises := by
  induction calls generalizing p with
  | nil => exact hp
  | cons call rest ih =>
    rw [List.forall_mem_cons] at h
    exact ih (.set hp h.1) h.2

theorem arises_ofList {entries : List (String × FieldValue)} (h : ∀ e ∈ entries, e.2.Arises) :
    (table (OrderedTable.ofList entries)).Arises := by
  induction entries using List.reverseRecOn with
  | nil => exact .emptyTable
  | append_singleton es e ih =>
    rw [List.forall_mem_append, List.forall_mem_singleton] at h
    have hconcat : OrderedTable.ofList (es ++ [e]) =
        OrderedTable.insert e.1 e.2 (OrderedTable.ofList es) :=
      OrderedTable.insertAll_concat [] es e
    rw [hconcat]
    exact .insert (ih h.1) h.2

/-- A value in order is put together by inserting its entries. -/
theorem arises_of_canonical {v : FieldValue} (h : v.Canonical) : v.Arises := by
  induction v using FieldValue.induction with
  | bool b => exact .bool b
  | int i => exact .int i
  | float x => exact .float x
  | string s => exact .string s
  | array items ih => exact .array fun v hv => ih v hv ((canonicalItems_iff items).1 h v hv)
  | table entries ih =>
    have hentries : ∀ e ∈ entries, e.2.Arises := fun e he =>
      ih e he ((canonicalEntries_iff entries).1 h.2 e he)
    rw [← OrderedTable.ofList_of_sorted h.1]
    exact arises_ofList hentries

theorem arises_iff_ascending (v : FieldValue) : v.Arises ↔ v.Ascending :=
  Iff.trans ⟨Arises.canonical, arises_of_canonical⟩ (ascending_iff_canonical v).symm

/-- A value that was read off a text, or as the properties of a file, and the tree it was read
off. -/
inductive ReadOff : Document → FieldValue → Prop
  | json {source : String} {d : Document} {v : FieldValue} (hd : Json.document? source = some d)
    (h : ofJson source = .ok v) : ReadOff d v
  | toml {source : String} {entries : List (String × Document)} {t : FieldTable}
    (hd : Toml.entries? source = some entries) (h : tableOfToml source = .ok t) :
    ReadOff (.table entries) (.table t)
  | properties {d : Document} {t : FieldTable} (h : tableOfDraft d.draft = .ok t) :
    ReadOff d (.table t)

theorem ReadOff.ofDocument? {d : Document} {v : FieldValue} (h : ReadOff d v) :
    ofDocument? d = some v := by
  cases h with
  | @json source _ _ hd h =>
    obtain ⟨tree, htree, hvalue⟩ := exists_of_ofJson h
    rw [Json.document?] at hd
    split_ifs at hd
    rw [htree] at hd
    cases hd
    exact hvalue
  | toml hd h =>
    obtain ⟨entries, hentries, hvalue⟩ := exists_of_tableOfToml h
    rw [hd] at hentries
    cases hentries
    exact hvalue
  | properties h =>
    obtain ⟨tree, htree, hvalue⟩ := exists_of_tableOfDraft h
    rw [Draft.document?_draft] at htree
    cases htree
    exact hvalue

/-- Nothing that goes along a table tells two tables apart: not their texts, nor what is reported of
a file that has them as its properties, nor what becomes of a builder that the file is applied to. -/
structure SeenAlike (t u : FieldTable) : Prop where
  display : (table t).display = (table u).display
  compact : Json.compact (table t).document = Json.compact (table u).document
  pretty : Json.pretty (table t).document = Json.pretty (table u).document
  reports : ∀ (edition : Edition) (f : PolicyFile),
    ({ f with properties := t } : PolicyFile).validate edition =
      ({ f with properties := u } : PolicyFile).validate edition
  settings : ∀ (edition : Edition) (f : PolicyFile),
    ({ f with properties := t } : PolicyFile).settings edition =
      ({ f with properties := u } : PolicyFile).settings edition
  applied : ∀ (edition : Edition) (f : PolicyFile) (b : Builder),
    ({ f with properties := t } : PolicyFile).apply edition b =
      ({ f with properties := u } : PolicyFile).apply edition b

theorem seenAlike_of_eq {t u : FieldTable} (h : t = u) : SeenAlike t u := by
  subst h
  exact ⟨rfl, rfl, rfl, fun _ _ => rfl, fun _ _ => rfl, fun _ _ _ => rfl⟩

/-- Whatever arises goes through the names of each of its tables in strictly ascending order of their
bytes, and all that does so arises. A table finds under each name the value inserted last, and
properties find the last one accepted. So tables are the same exactly if each name was given the same
value last; the order in which they were put together and what was overridden cannot be seen in them.
Neither can it in what is read: texts, of either format, are read as one value if at any depth they
differ in nothing else. -/
theorem tables_canonical :
    (∀ v : FieldValue, v.Arises ↔
      ∀ t ∈ v.tables, t.names.Pairwise fun m n => Text.bytes m < Text.bytes n) ∧
    (∀ v : FieldValue, v.Arises → ∀ t ∈ v.tables, t.names.Nodup) ∧
    (∀ (p : ClientProperties) (calls : List (String × FieldValue)),
      p.whole.Arises → (∀ call ∈ calls, call.2.Arises) → (p.attemptAll calls).whole.Arises) ∧
    (∀ (t : FieldTable) (pairs : List (String × FieldValue)) (name : String),
      (OrderedTable.insertAll t pairs).find? name =
        (OrderedTable.lastOf pairs name).or (t.find? name)) ∧
    (∀ (p : ClientProperties) (calls : List (String × FieldValue)) (name : String),
      (p.attemptAll calls).get? name =
        (if Property.Acceptable name then OrderedTable.lastOf calls name else none).or
          (p.get? name)) ∧
    (∀ pairs pairs' : List (String × FieldValue),
      OrderedTable.ofList pairs = OrderedTable.ofList pairs' ↔
        ∀ name, OrderedTable.lastOf pairs name = OrderedTable.lastOf pairs' name) ∧
    (∀ pairs pairs' : List (String × FieldValue),
      (∀ name, OrderedTable.lastOf pairs name = OrderedTable.lastOf pairs' name) →
        (∀ t : FieldTable,
          SeenAlike (OrderedTable.insertAll t pairs) (OrderedTable.insertAll t pairs')) ∧
        ∀ p : ClientProperties,
          SeenAlike (p.attemptAll pairs).table (p.attemptAll pairs').table) ∧
    ∀ (d d' : Document) (v v' : FieldValue),
      d.Alike d' → ReadOff d v → ReadOff d' v' → v = v' := by
  refine ⟨arises_iff_ascending, ?_, ?_, ?_, ?_, ?_, ?_, ?_⟩
  · intro v h t ht
    exact ((forall_tables_sorted_iff v).2 h.canonical t ht).nodup_names
  · exact fun p calls hp hcalls => arises_attemptAll hp hcalls
  · exact fun t pairs name => OrderedTable.find?_insertAll t pairs name
  · exact fun p calls name => p.get?_attemptAll calls name
  · exact fun pairs pairs' => OrderedTable.ofList_eq_ofList_iff
  · intro pairs pairs' h
    refine ⟨fun t => seenAlike_of_eq (OrderedTable.insertAll_congr h t), fun p => ?_⟩
    exact seenAlike_of_eq (p.attemptAll_congr h)
  · intro d d' v v' halike hv hv'
    exact decidedByLast d d' halike v v' hv.ofDocument? hv'.ofDocument?

/-- Two orders of setting properties, of which the second leaves out what the first overrides, and two
texts that name the members of an object in two orders. -/
theorem tables_canonical_reordered :
    let host := ClientProperties.ofHost ⟨"worker", 7, "Linux", "6.1.0", "#1 SMP"⟩
    let pairs : List (String × FieldValue) :=
      [("é", .int 1), ("z", .bool true), ("a", .string "x"), ("é", .string "y")]
    let pairs' : List (String × FieldValue) :=
      [("é", .string "y"), ("a", .string "x"), ("z", .bool true)]
    let json := "\x7b\"z\": [], \"é\": [\x7b\"b\": true, \"a\": \"x\"\x7d], \"z\": false\x7d"
    let toml := "\"é\" = [\x7ba = \"x\", b = true\x7d]\nz = false\n"
    (host.attemptAll pairs).whole.Arises ∧
      (∀ t ∈ (host.attemptAll pairs).whole.tables,
        t.names.Nodup ∧ t.names.Pairwise fun m n => Text.bytes m < Text.bytes n) ∧
      (host.attemptAll pairs).get? "é" = some (.string "y") ∧
      OrderedTable.ofList pairs = OrderedTable.ofList pairs' ∧
      SeenAlike (host.attemptAll pairs).table (host.attemptAll pairs').table ∧
      ∃ v t, ofJson json = .ok v ∧ tableOfToml toml = .ok t ∧ v = .table t := by
  intro host pairs pairs' json toml
  have hpairs : ∀ call ∈ pairs, call.2.Arises := by
    simp [pairs, Arises.int, Arises.bool, Arises.string]
  have hlast : ∀ name, OrderedTable.lastOf pairs name = OrderedTable.lastOf pairs' name := by
    intro name
    simp only [pairs, pairs', OrderedTable.lastOf, List.reverse_cons, List.reverse_nil,
      List.nil_append, List.cons_append, OrderedTable.find?_cons, OrderedTable.find?_nil]
    split_ifs <;> simp_all
  have hinner : Document.Alike (.table [("b", .boolean true), ("a", .text "x")])
      (.table [("a", .text "x"), ("b", .boolean true)]) := by
    refine .table fun name => ?_
    simp only [OrderedTable.lastOf, List.reverse_cons, List.reverse_nil, List.nil_append,
      List.cons_append, OrderedTable.find?_cons, OrderedTable.find?_nil]
    by_cases hb : name = "b"
    · subst hb
      exact .some (.refl _)
    · rw [if_neg hb, if_neg hb]
      split_ifs
      · exact .some (.refl _)
      · exact .none
  have houter : Document.Alike
      (.table [("z", .array []), ("é", .array [.table [("b", .boolean true), ("a", .text "x")]]),
        ("z", .boolean false)])
      (.table [("é", .array [.table [("a", .text "x"), ("b", .boolean true)]]),
        ("z", .boolean false)]) := by
    refine .table fun name => ?_
    simp only [OrderedTable.lastOf, List.reverse_cons, List.reverse_nil, List.nil_append,
      List.cons_append, OrderedTable.find?_cons, OrderedTable.find?_nil]
    split_ifs
    · exact .some (.refl _)
    · exact .some (.array (.cons hinner .nil))
    · exact .none
  have hjson : ofJson json = .ok (.table [("z", .bool false),
      ("é", .array [.table [("a", .string "x"), ("b", .bool true)]])]) := by
    decide +kernel
  have htoml : tableOfToml toml = .ok [("z", .bool false),
      ("é", .array [.table [("a", .string "x"), ("b", .bool true)]])] := by
    decide +kernel
  obtain ⟨hascending, hnodup, hset, -, hget, hsame, hseen, hread⟩ := tables_canonical
  have harises : (host.attemptAll pairs).whole.Arises := hset host pairs (.host _) hpairs
  have hvalue : (host.attemptAll pairs).get? "é" = some (.string "y") := by
    rw [hget, if_pos (by decide)]
    rfl
  refine ⟨harises, fun t ht => ⟨hnodup _ harises t ht, (hascending _).1 harises t ht⟩, hvalue,
    (hsame pairs pairs').2 hlast, (hseen pairs pairs' hlast).2 host, ?_⟩
  exact ⟨_, _, hjson, htoml,
    hread _ _ _ _ houter (.json (by decide +kernel) hjson) (.toml (by decide +kernel) htoml)⟩

end FieldValue

end BrokerPolicy
