import BrokerPolicy.Policy.Summary
import BrokerPolicy.Proofs.Field.Json
import BrokerPolicy.Proofs.Json.Pretty
import BrokerPolicy.Proofs.Policy.ClientProperties
import BrokerPolicy.Proofs.Policy.Handoff
import BrokerPolicy.Proofs.Policy.Tunables

set_option autoImplicit false

/-!
What the text of a summary says of its policy. The text denotes one tree, indented or not; the tree
shows the policy member by member, so two policies with one text look the same in all of them.
-/

namespace BrokerPolicy

namespace Document

def member? (d : Document) (name : String) : Option Document :=
  match d with
  | .table entries => OrderedTable.find? entries name
  | _ => none

def memberNames : Document → List String
  | .table entries => OrderedTable.names entries
  | _ => []

theorem names_rereadEntries (entries : List (String × Document)) :
    OrderedTable.names (rereadEntries entries) = OrderedTable.names entries := by
  induction entries with
  | nil => rfl
  | cons e rest ih => exact congrArg (e.1 :: ·) ih

theorem rereadItems_text (names : List String) :
    rereadItems (names.map .text) = names.map .text := by
  induction names with
  | nil => rfl
  | cons name rest ih => exact congrArg (.text name :: ·) ih

theorem ofOption_inj {α : Type} {f : α → Document} (hnull : ∀ x, f x ≠ .null)
    (hf : ∀ x y, f x = f y → x = y) {a b : Option α} (h : ofOption f a = ofOption f b) :
    a = b := by
  cases a with
  | none =>
    cases b with
    | none => rfl
    | some y => exact absurd h.symm (hnull y)
  | some x =>
    cases b with
    | none => exact absurd h (hnull x)
    | some y => exact congrArg some (hf x y h)

end Document

theorem FieldValue.names_documentEntries (entries : List (String × FieldValue)) :
    OrderedTable.names (FieldValue.documentEntries entries) = OrderedTable.names entries := by
  induction entries with
  | nil => rfl
  | cons e rest ih => exact congrArg (e.1 :: ·) ih

namespace Summary

def documentWith (s : Summary) (properties : List (String × Document)) : Document :=
  .table
    [("execution_resource", .text s.resource),
     ("metrics_enabled", .boolean s.metrics),
     ("error_callback", .boolean s.onError),
     ("success_callback", .boolean s.onSuccess),
     ("hung_message_callback", .boolean s.onHung),
     ("client_properties", .table properties),
     ("message_processing_timeout_ms", .integer s.timeoutMillis),
     ("connection_error_threshold_ms",
       Document.ofOption (fun n : Nat => .integer n) s.thresholdMillis),
     ("tunables", .array (s.tunables.map .text)),
     ("consumer_tracing", .boolean s.consumerTracing),
     ("producer_tracing", .boolean s.producerTracing),
     ("shuffle_connection_endpoints", Document.ofOption .boolean s.shuffle)]

/-- The tree that the texts of a summary denote: only among the properties are there doubles. -/
def tree (s : Summary) : Document :=
  s.documentWith (Document.rereadEntries (FieldValue.documentEntries s.properties))

theorem reread_document (s : Summary) : s.document.reread = s.tree := by
  have hthreshold : (Document.ofOption (fun n : Nat => .integer n) s.thresholdMillis).reread =
      Document.ofOption (fun n : Nat => .integer n) s.thresholdMillis := by
    cases s.thresholdMillis <;> rfl
  have hshuffle : (Document.ofOption .boolean s.shuffle).reread =
      Document.ofOption .boolean s.shuffle := by
    cases s.shuffle <;> rfl
  rw [document, Document.reread]
  simp only [Document.rereadEntries, hthreshold, hshuffle]
  simp only [Document.reread, Document.rereadItems_text]
  rfl

theorem depth_document (s : Summary) :
    s.document.depth = FieldValue.depthEntries s.properties + 2 := by
  have htunables : Document.depthItems (s.tunables.map .text) = 0 := by
    rw [← Nat.le_zero, Document.depthItems_le_iff]
    intro d hd
    obtain ⟨name, -, rfl⟩ := List.mem_map.1 hd
    exact le_rfl
  have hthreshold :
      (Document.ofOption (fun n : Nat => .integer n) s.thresholdMillis).depth = 0 := by
    cases s.thresholdMillis <;> rfl
  have hshuffle : (Document.ofOption .boolean s.shuffle).depth = 0 := by
    cases s.shuffle <;> rfl
  rw [document]
  simp only [Document.depth, Document.depthEntries, hthreshold, hshuffle, htunables,
    FieldValue.depthEntries_document]
  omega

theorem numbersIn_document {s : Summary} (htimeout : s.timeoutMillis < 2 ^ 64)
    (hthreshold : ∀ m, s.thresholdMillis = some m → m < 2 ^ 64) :
    s.document.NumbersIn fun _ => True := by
  have hinteger {m : Nat} (hm : m < 2 ^ 64) :
      (Document.integer m).NumbersIn fun _ => True := by
    change -2 ^ 63 ≤ (m : Int) ∧ (m : Int) < 2 ^ 64
    omega
  rw [document]
  refine (Document.numbersInEntries_iff _ _).2 ?_
  simp only [List.forall_mem_cons, List.not_mem_nil, false_implies, implies_true, and_true]
  refine ⟨trivial, trivial, trivial, trivial, trivial, ?_, hinteger htimeout, ?_, ?_, trivial,
    trivial, ?_⟩
  · exact (FieldValue.numbersInEntries_document _ s.properties).2 fun x _ => trivial
  · cases hm : s.thresholdMillis with
    | none => trivial
    | some m => exact hinteger (hthreshold m hm)
  · refine (Document.numbersInItems_iff _ _).2 fun d hd => ?_
    obtain ⟨name, -, rfl⟩ := List.mem_map.1 hd
    trivial
  · cases s.shuffle <;> trivial

end Summary

/-- The slots of a policy of which a summary says only whether they are filled. -/
inductive SummaryFlag where
  | metrics
  | onError
  | onSuccess
  | onHung
  | consumerTracing
  | producerTracing

namespace SummaryFlag

def member : SummaryFlag → String
  | metrics => "metrics_enabled"
  | onError => "error_callback"
  | onSuccess => "success_callback"
  | onHung => "hung_message_callback"
  | consumerTracing => "consumer_tracing"
  | producerTracing => "producer_tracing"

def Filled (p : Policy) : SummaryFlag → Prop
  | metrics => ∃ publisher, p.metrics = .publisher publisher
  | onError => ∃ name, p.onError = .handler name
  | onSuccess => ∃ name, p.onSuccess = .handler name
  | onHung => ∃ name, p.onHung = .handler name
  | consumerTracing => ∃ t, p.consumerTracer = some t
  | producerTracing => ∃ t, p.producerTracer = some t

end SummaryFlag

theorem MetricsSink.isEnabled_iff (sink : MetricsSink) :
    sink.isEnabled = true ↔ ∃ publisher, sink = .publisher publisher := by
  cases sink with
  | disabled => exact iff_of_false Bool.false_ne_true (by simp)
  | publisher publisher => exact iff_of_true rfl ⟨publisher, rfl⟩

theorem Callback.isEnabled_iff (c : Callback) :
    c.isEnabled = true ↔ ∃ name, c = .handler name := by
  cases c with
  | disabled => exact iff_of_false Bool.false_ne_true (by simp)
  | handler name => exact iff_of_true rfl ⟨name, rfl⟩

/-- Properties whose text says all of them: their tables are in order, and their floats are finite
and have texts that read back. -/
structure ClientProperties.Restorable (p : ClientProperties) : Prop where
  canonical : FieldValue.CanonicalEntries p.table
  floats : ∀ x ∈ FieldValue.floatsEntries p.table, x.isFinite = true ∧ Json.ReadsBack x

structure Policy.ShownBy (p : Policy) (tree : Document) : Prop where
  members : tree.memberNames =
    ["execution_resource", "metrics_enabled", "error_callback", "success_callback",
      "hung_message_callback", "client_properties", "message_processing_timeout_ms",
      "connection_error_threshold_ms", "tunables", "consumer_tracing", "producer_tracing",
      "shuffle_connection_endpoints"]
  resource : tree.member? "execution_resource" = some (.text p.resource.description)
  flags : ∀ flag : SummaryFlag, ∃ b, tree.member? flag.member = some (.boolean b) ∧
    (b = true ↔ flag.Filled p)
  properties : ∃ entries, tree.member? "client_properties" = some (.table entries) ∧
    OrderedTable.names entries = p.properties.table.names ∧
    (OrderedTable.names entries).Pairwise (fun m n => Text.bytes m < Text.bytes n) ∧
    (p.properties.Restorable →
      FieldValue.ofDocument? (.table entries) = some (.table p.properties.table))
  timeout : tree.member? "message_processing_timeout_ms" = some (.integer p.timeout.millis)
  threshold : tree.member? "connection_error_threshold_ms" =
    some (Document.ofOption (fun n : Nat => .integer n) (p.threshold.map Duration.millis))
  tunables : tree.member? "tunables" = some (.array (p.tunables.map .text)) ∧
    p.tunables.Pairwise fun m n => Text.bytes m < Text.bytes n
  shuffle : tree.member? "shuffle_connection_endpoints" =
    some (Document.ofOption .boolean p.shuffle)

/-- Policies that can be met: where calls on a builder made for a host lead to, and what they give
out on the way. -/
def Policy.Reachable (p : Policy) : Prop :=
  ∃ (edition : Edition) (host : Host) (ops : List Operation),
    p = ((Builder.ofHost host).run edition ops).builder.policy ∨
      ∃ i : Nat, ((Builder.ofHost host).run edition ops).obtained[i]? = some (some p)

namespace Policy

theorem Reachable.exists_run {p : Policy} (h : p.Reachable) :
    ∃ (edition : Edition) (host : Host) (ops : List Operation),
      p = ((Builder.ofHost host).run edition ops).builder.policy := by
  obtain ⟨edition, host, ops, rfl | ⟨i, hi⟩⟩ := h
  · exact ⟨edition, host, ops, rfl⟩
  · refine ⟨edition, host, ops.take i, ?_⟩
    rw [Builder.eq_foldl_write_of_obtained hi, Builder.run_policy]

theorem Reachable.sorted {p : Policy} (h : p.Reachable) : p.properties.table.Sorted := by
  obtain ⟨edition, host, ops, rfl⟩ := h.exists_run
  rw [Builder.run_policy]
  exact sorted_foldl_write (OrderedTable.sorted_ofList host.properties) (history edition ops)

theorem Reachable.pairwise_tunables {p : Policy} (h : p.Reachable) :
    p.tunables.Pairwise (· < ·) := by
  obtain ⟨edition, host, ops, rfl⟩ := h.exists_run
  exact Builder.pairwise_tunables_run edition List.Pairwise.nil ops

variable {p q : Policy} {tree : Document}

theorem ofDocument?_of_restorable (hsorted : p.properties.table.Sorted)
    (h : p.properties.Restorable) :
    FieldValue.ofDocument?
        (.table (Document.rereadEntries (FieldValue.documentEntries p.properties.table))) =
      some (.table p.properties.table) := by
  have hself : Document.rereadEntries (FieldValue.documentEntries p.properties.table) =
      FieldValue.documentEntries p.properties.table := by
    apply Document.rereadEntries_eq_self
    refine (FieldValue.numbersInEntries_document _ _).2 fun x hx => ?_
    exact Json.readBack?_of_readsBack (h.floats x hx).1 (h.floats x hx).2
  have hcanonical : (FieldValue.table p.properties.table).Canonical := ⟨hsorted, h.canonical⟩
  rw [hself]
  exact FieldValue.ofDocument?_document hcanonical

theorem shownBy_tree (h : p.Reachable) : p.ShownBy p.summary.tree where
  members := rfl
  resource := rfl
  flags flag := by
    cases flag with
    | metrics => exact ⟨p.metrics.isEnabled, rfl, p.metrics.isEnabled_iff⟩
    | onError => exact ⟨p.onError.isEnabled, rfl, p.onError.isEnabled_iff⟩
    | onSuccess => exact ⟨p.onSuccess.isEnabled, rfl, p.onSuccess.isEnabled_iff⟩
    | onHung => exact ⟨p.onHung.isEnabled, rfl, p.onHung.isEnabled_iff⟩
    | consumerTracing => exact ⟨p.consumerTracer.isSome, rfl, Option.isSome_iff_exists⟩
    | producerTracing => exact ⟨p.producerTracer.isSome, rfl, Option.isSome_iff_exists⟩
  properties := by
    refine ⟨_, rfl, ?_, ?_, ofDocument?_of_restorable h.sorted⟩
    · rw [Document.names_rereadEntries, FieldValue.names_documentEntries]
      rfl
    · rw [Document.names_rereadEntries, FieldValue.names_documentEntries]
      exact Text.pairwise_bytes_lt h.sorted
  timeout := rfl
  threshold := rfl
  tunables := ⟨rfl, Text.pairwise_bytes_lt h.pairwise_tunables⟩
  shuffle := rfl

/-- Policies between which no summary can tell. -/
structure SameView (p q : Policy) : Prop where
  borrowed : p.resource.isBorrowed = q.resource.isBorrowed
  flags : ∀ flag : SummaryFlag, flag.Filled p ↔ flag.Filled q
  properties : p.properties.Restorable → q.properties.Restorable → p.properties = q.properties
  timeout : p.timeout.millis = q.timeout.millis
  threshold : p.threshold.map Duration.millis = q.threshold.map Duration.millis
  tunables : p.tunables = q.tunables
  shuffle : p.shuffle = q.shuffle

theorem ShownBy.sameView (hp : p.ShownBy tree) (hq : q.ShownBy tree) : p.SameView q where
  borrowed := by
    have htext : p.resource.description = q.resource.description :=
      Document.text.inj (Option.some.inj (hp.resource.symm.trans hq.resource))
    rw [Bool.eq_iff_iff, ← ExecutionResource.description_eq_iff, htext,
      ExecutionResource.description_eq_iff]
  flags flag := by
    obtain ⟨b, hb, hbp⟩ := hp.flags flag
    obtain ⟨c, hc, hcq⟩ := hq.flags flag
    obtain rfl : b = c := Document.boolean.inj (Option.some.inj (hb.symm.trans hc))
    exact hbp.symm.trans hcq
  properties hpr hqr := by
    obtain ⟨entries, hentries, -, -, hback⟩ := hp.properties
    obtain ⟨entries', hentries', -, -, hback'⟩ := hq.properties
    obtain rfl : entries = entries' :=
      Document.table.inj (Option.some.inj (hentries.symm.trans hentries'))
    have htable := FieldValue.table.inj (Option.some.inj ((hback hpr).symm.trans (hback' hqr)))
    exact congrArg ClientProperties.mk htable
  timeout := by
    have hmillis := Document.integer.inj (Option.some.inj (hp.timeout.symm.trans hq.timeout))
    exact Int.ofNat.inj hmillis
  threshold := by
    refine Document.ofOption_inj (fun _ => by simp) (fun m n h => ?_)
      (Option.some.inj (hp.threshold.symm.trans hq.threshold))
    exact Int.ofNat.inj (Document.integer.inj h)
  tunables := by
    have htexts := Document.array.inj (Option.some.inj (hp.tunables.1.symm.trans hq.tunables.1))
    exact List.map_injective_iff.2 (fun _ _ => Document.text.inj) htexts
  shuffle := Document.ofOption_inj (fun _ => by simp) (fun _ _ => Document.boolean.inj)
    (Option.some.inj (hp.shuffle.symm.trans hq.shuffle))

theorem numbersIn_summary (p : Policy) : p.summary.document.NumbersIn fun _ => True := by
  apply Summary.numbersIn_document p.timeout.millis_lt
  intro m hm
  obtain ⟨t, -, rfl⟩ := Option.map_eq_some_iff.1 hm
  exact t.millis_lt

theorem denotes_summary (p : Policy) {depth : Nat}
    (hdepth : FieldValue.depthEntries p.properties.table + 2 ≤ depth) :
    Json.Denotes depth p.summary.text p.summary.tree ∧
      Json.Denotes depth (Json.compact p.summary.document) p.summary.tree := by
  have hdocument : p.summary.document.depth ≤ depth := p.summary.depth_document.le.trans hdepth
  rw [← Summary.reread_document]
  exact ⟨Json.denotes_pretty _ p.numbersIn_summary hdocument,
    Json.denotes_compact _ p.numbersIn_summary hdocument⟩

theorem tree_eq_of_text_eq (h : q.summary.text = p.summary.text) :
    q.summary.tree = p.summary.tree := by
  have hp := (p.denotes_summary (Nat.le_max_left _
    (FieldValue.depthEntries q.properties.table + 2))).1
  have hq := (q.denotes_summary (Nat.le_max_right
    (FieldValue.depthEntries p.properties.table + 2) _)).1
  rw [h] at hq
  exact hq.unique hp

/-- The text of a summary is a JSON text, and it denotes the tree that the compact text denotes; a
program that reads to the depth of the properties gets it. The tree shows the policy: its twelve
members in order, the properties by ascending names and, where their floats have texts, as they
are, whether each slot is filled, the milliseconds and the tunables. So nothing of this differs
between two policies with one text. -/
theorem summary_text_faithful (hp : p.Reachable) :
    ∃ tree : Document,
      (∀ depth, FieldValue.depthEntries p.properties.table + 2 ≤ depth →
        Json.Denotes depth p.summary.text tree ∧
          Json.Denotes depth (Json.compact p.summary.document) tree) ∧
      (FieldValue.depthEntries p.properties.table + 2 ≤ Json.maxDepth →
        Json.document? p.summary.text = some tree ∧
          Json.document? (Json.compact p.summary.document) = some tree) ∧
      p.ShownBy tree ∧
      ∀ q : Policy, q.Reachable → q.summary.text = p.summary.text → p.SameView q := by
  refine ⟨p.summary.tree, fun depth => p.denotes_summary, ?_, shownBy_tree hp, ?_⟩
  · intro hdepth
    obtain ⟨hpretty, hcompact⟩ := p.denotes_summary hdepth
    exact ⟨hpretty.document?, hcompact.document?⟩
  · intro q hq htext
    have hshown := shownBy_tree hq
    rw [tree_eq_of_text_eq htext] at hshown
    exact (shownBy_tree hp).sameView hshown

/-- A nested table with an empty array in it comes back from the indented text, and the tunables
are in order, whatever the order in which they were set. -/
theorem summary_text_faithful_nested :
    let limits : FieldValue := .table [("list", .array []), ("rate", .float ⟨0x3ff8000000000000⟩)]
    let p := ((Builder.ofHost ⟨"worker", 7, "Linux", "6.1.0", "#1 SMP"⟩).run .experimental
      [.set (.property "limits" limits), .set (.tunable "late"), .set (.tunable "early"),
        .set (.onHung (.handler "h"))]).builder.policy
    ∃ tree entries, Json.document? p.summary.text = some tree ∧
      tree.member? "tunables" = some (.array [.text "early", .text "late"]) ∧
      tree.member? "hung_message_callback" = some (.boolean true) ∧
      tree.member? "client_properties" = some (.table entries) ∧
      FieldValue.ofDocument? (.table entries) = some (.table p.properties.table) ∧
      p.properties.get? "limits" = some limits := by
  intro limits p
  have hreachable : p.Reachable := ⟨_, _, _, .inl rfl⟩
  obtain ⟨tree, -, hread, hshown, -⟩ := summary_text_faithful hreachable
  obtain ⟨htext, -⟩ := hread (by decide +kernel)
  obtain ⟨entries, hentries, -, -, hback⟩ := hshown.properties
  have htable : p.properties.table =
      [("limits", limits), ("os", .string "Linux"), ("os_patch", .string "#1 SMP"),
        ("os_version", .string "6.1.0"), ("pid", .int 7), ("task", .string "worker")] := rfl
  have htunables : p.tunables = ["early", "late"] := by decide +kernel
  have hrestorable : p.properties.Restorable := by
    refine ⟨?_, ?_⟩
    · have hsorted : OrderedTable.Sorted
          [("list", FieldValue.array []), ("rate", .float ⟨0x3ff8000000000000⟩)] := by
        unfold OrderedTable.Sorted OrderedTable.names
        decide
      rw [htable]
      exact ⟨⟨hsorted, trivial, trivial, trivial⟩, trivial, trivial, trivial, trivial, trivial,
        trivial⟩
    · rw [htable]
      change ∀ x ∈ [(⟨0x3ff8000000000000⟩ : Binary64)], _
      rw [List.forall_mem_singleton]
      exact ⟨by decide, Json.readsBack_of_readBack? (by decide +kernel)⟩
  refine ⟨tree, entries, htext, ?_, ?_, hentries, hback hrestorable, ?_⟩
  · rw [hshown.tunables.1, htunables]
    rfl
  · obtain ⟨b, hb, hfilled⟩ := hshown.flags .onHung
    obtain rfl : b = true := hfilled.2 ⟨"h", rfl⟩
    exact hb
  · rw [ClientProperties.get?, htable]
    rfl

end Policy

end BrokerPolicy
