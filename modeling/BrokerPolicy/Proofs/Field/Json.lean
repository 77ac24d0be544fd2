import BrokerPolicy.Proofs.Field.Canonical
import BrokerPolicy.Proofs.Json.Range
import BrokerPolicy.Proofs.Json.Reread
import BrokerPolicy.Proofs.Schema

set_option autoImplicit false

/-!
Field values through JSON text. A value carries no mark of its kind, so its text has to tell the
kind by itself; what is read back is the value, unless a float in it has no text of its own.
-/

namespace BrokerPolicy

def Draft.double? : Draft → Option Binary64
  | .integer i => some (Binary64.ofQuotient (i < 0) i.natAbs 1)
  | .real x => some x
  | _ => none

/-- The text of a double, read as a number, stands for the same double. -/
def Json.ReadsBack (x : Binary64) : Prop :=
  ∃ d, Json.number (Json.numberText x).toList = some (d, []) ∧ d.double? = some x

theorem Json.readBack?_of_readsBack {x : Binary64} (hfinite : x.isFinite = true)
    (h : Json.ReadsBack x) : Json.readBack? x = some x := by
  obtain ⟨d, hnumber, hdouble⟩ := h
  obtain ⟨l, hreal, htext⟩ := Json.exists_literal_of_isFinite hfinite
  have happend := l.number_append Json.stops_nil
  rw [List.append_nil, htext, hnumber] at happend
  have hdraft : d = l.draft := congrArg Prod.fst (Option.some.inj happend)
  rcases Json.Literal.draft_of_isReal hreal with hfault | ⟨y, hy⟩
  · rw [hdraft, hfault] at hdouble
    cases hdouble
  · rw [hdraft, hy] at hdouble hnumber
    cases hdouble
    rw [Json.readBack?, hnumber]

theorem Json.readsBack_of_readBack? {x : Binary64} (h : Json.readBack? x = some x) :
    Json.ReadsBack x := by
  rw [Json.readBack?] at h
  split at h
  · next y hnumber =>
    cases h
    exact ⟨_, hnumber, rfl⟩
  · cases h

namespace FieldValue

structure Readable (n : Nat) (v : FieldValue) : Prop where
  canonical : v.Canonical
  depth_le : v.depth ≤ n
  finite : ∀ x ∈ v.floats, x.isFinite = true

theorem readable_array {n : Nat} {items : List FieldValue} (h : ∀ v ∈ items, v.Readable n) :
    (FieldValue.array items).Readable (n + 1) where
  canonical := (canonicalItems_iff items).mpr fun v hv => (h v hv).canonical
  depth_le := Nat.succ_le_succ ((depthItems_le_iff items n).mpr fun v hv => (h v hv).depth_le)
  finite := (forall_floatsItems_iff _ items).mpr fun v hv => (h v hv).finite

/-- Of entries with one name only the last is kept, so the kept ones are among those read. -/
theorem readable_table {n : Nat} {entries : List (String × FieldValue)}
    (h : ∀ e ∈ entries, e.2.Readable n) :
    (FieldValue.table (OrderedTable.ofList entries)).Readable (n + 1) := by
  have hkept : ∀ e ∈ OrderedTable.ofList entries, e.2.Readable n :=
    fun e he => h e (OrderedTable.mem_ofList he)
  exact {
    canonical := canonical_ofList fun e he => (h e he).canonical
    depth_le := Nat.succ_le_succ
      ((depthEntries_le_iff _ n).mpr fun e he => (hkept e he).depth_le)
    finite := (forall_floatsEntries_iff _ _).mpr fun e he => (hkept e he).finite }

theorem readable_ofInteger {i : Int} (hlow : -2 ^ 63 ≤ i) (hhigh : i < 2 ^ 64) (n : Nat) :
    (ofInteger i).Readable n := by
  rw [ofInteger]
  split_ifs
  · exact ⟨trivial, Nat.zero_le _, by simp [floats]⟩
  · refine ⟨trivial, Nat.zero_le _, List.forall_mem_singleton.mpr ?_⟩
    refine Json.isFinite_ofQuotient_one _ ?_
    change i.natAbs ≤ 18446744073709551615
    omega

theorem readable_of_ofDocument? {d : Document} {n : Nat} (hdepth : d.depth ≤ n)
    (hd : d.NumbersIn (·.isFinite = true)) {v : FieldValue} (h : ofDocument? d = some v) :
    v.Readable n := by
  induction d using Document.induction generalizing n v with
  | null => cases h
  | boolean _ | text _ =>
    cases h
    exact ⟨trivial, Nat.zero_le _, by simp [floats]⟩
  | integer i =>
    cases h
    exact readable_ofInteger hd.1 hd.2 n
  | real x =>
    cases h
    exact ⟨trivial, Nat.zero_le _, List.forall_mem_singleton.mpr hd⟩
  | array items ih =>
    obtain ⟨n, rfl⟩ := Nat.exists_eq_succ_of_ne_zero (Nat.ne_of_gt (Nat.zero_lt_of_lt hdepth))
    obtain ⟨vs, hvs, rfl⟩ := Option.map_eq_some_iff.mp h
    have hdepths := (Document.depthItems_le_iff items n).mp (Nat.le_of_succ_le_succ hdepth)
    have hnumbers := (Document.numbersInItems_iff _ items).mp hd
    refine readable_array (forall_mem_of_forall₂ (forall₂_of_ofItems? hvs) fun d hmem v hv => ?_)
    exact ih d hmem (hdepths d hmem) (hnumbers d hmem) hv
  | table entries ih =>
    obtain ⟨n, rfl⟩ := Nat.exists_eq_succ_of_ne_zero (Nat.ne_of_gt (Nat.zero_lt_of_lt hdepth))
    obtain ⟨es, hes, rfl⟩ := Option.map_eq_some_iff.mp h
    have hdepths := (Document.depthEntries_le_iff entries n).mp (Nat.le_of_succ_le_succ hdepth)
    have hnumbers := (Document.numbersInEntries_iff _ entries).mp hd
    refine readable_table (forall_mem_of_forall₂ (forall₂_of_ofEntries? hes) fun d hmem e he => ?_)
    exact ih d hmem (hdepths d hmem) (hnumbers d hmem) he.2

theorem exists_of_ofJson {source : String} {v : FieldValue} (h : ofJson source = .ok v) :
    ∃ d, (Json.read source).draft.document? = some d ∧ ofDocument? d = some v := by
  obtain ⟨w, hdraft, hfinish⟩ := Schema.exists_of_bind_eq_ok h
  obtain ⟨-, rfl⟩ := (Schema.finish_eq_ok_iff _ w v).1 hfinish
  exact exists_of_ofDraft hdraft

theorem readable_of_ofJson {source : String} {v : FieldValue} (h : ofJson source = .ok v) :
    v.Readable Json.maxDepth := by
  obtain ⟨d, hdraft, hvalue⟩ := exists_of_ofJson h
  obtain ⟨hdepth, hnumbers⟩ := Json.read_yields source d hdraft
  exact readable_of_ofDocument? hdepth hnumbers hvalue

theorem ofJson_of_value {source : String} {d : Document} {v : FieldValue}
    (h : Json.read source = ⟨d.draft, true⟩) (hvalue : ofDocument? d = some v) :
    ofJson source = .ok v := by
  have hdraft : ofDraft d.draft = .ok v := by
    simp only [ofDraft, Draft.document?_draft, hvalue]
  simp only [ofJson, h, hdraft]
  rfl

theorem ofJson_of_null {source : String} {d : Document}
    (h : Json.read source = ⟨d.draft, true⟩) (hnull : d.HasNull) :
    ofJson source = .error (.schema .noFieldValue) := by
  have hdraft : ofDraft d.draft = .error (.schema .noFieldValue) := by
    simp only [ofDraft, Draft.document?_draft, (ofDocument?_eq_none_iff d).mpr hnull]
  simp only [ofJson, h, hdraft]
  rfl

mutual

theorem hasNull_reread (v : FieldValue) :
    v.document.reread.HasNull ↔ ∃ x ∈ v.floats, Json.readBack? x = none := by
  match v with
  | .bool _ | .int _ | .string _ => exact iff_of_false id (by simp [floats])
  | .float x =>
    rw [document, Document.reread]
    cases hback : Json.readBack? x with
    | none => exact iff_of_true trivial ⟨x, List.mem_singleton.mpr rfl, hback⟩
    | some y =>
      refine iff_of_false id ?_
      rintro ⟨z, hz, hnone⟩
      rw [List.mem_singleton.mp hz, hback] at hnone
      cases hnone
  | .array items => exact hasNullItems_reread items
  | .table entries => exact hasNullEntries_reread entries

theorem hasNullItems_reread (items : List FieldValue) :
    Document.HasNullItems (Document.rereadItems (documentItems items)) ↔
      ∃ x ∈ floatsItems items, Json.readBack? x = none := by
  match items with
  | [] => exact iff_of_false id (by simp [floatsItems])
  | v :: rest =>
    simp only [floatsItems, List.mem_append, or_and_right, exists_or]
    exact or_congr (hasNull_reread v) (hasNullItems_reread rest)

theorem hasNullEntries_reread (entries : List (String × FieldValue)) :
    Document.HasNullEntries (Document.rereadEntries (documentEntries entries)) ↔
      ∃ x ∈ floatsEntries entries, Json.readBack? x = none := by
  match entries with
  | [] => exact iff_of_false id (by simp [floatsEntries])
  | (_, v) :: rest =>
    simp only [floatsEntries, List.mem_append, or_and_right, exists_or]
    exact or_congr (hasNull_reread v) (hasNullEntries_reread rest)

end

section RoundTrip
variable {v : FieldValue} (hdepth : v.depth ≤ Json.maxDepth)
  (hback : ∀ x ∈ v.floats, x.isFinite = true → Json.ReadsBack x)
include hdepth hback

theorem read_compact_document :
    Json.read (Json.compact v.document) = ⟨v.document.reread.draft, true⟩ := by
  refine Json.read_compact ((depth_document v).le.trans hdepth) ?_
  refine (numbersIn_document Json.Legible v).mpr fun x hx hfinite => ?_
  rw [Json.readBack?_of_readsBack hfinite (hback x hx hfinite)]
  rfl

theorem ofJson_compact_of_finite (hv : v.Canonical) (hfinite : ∀ x ∈ v.floats, x.isFinite = true) :
    ofJson (Json.compact v.document) = .ok v := by
  have hself : v.document.reread = v.document :=
    Document.reread_eq_self ((numbersIn_document _ v).mpr fun x hx =>
      Json.readBack?_of_readsBack (hfinite x hx) (hback x hx (hfinite x hx)))
  refine ofJson_of_value (read_compact_document hdepth hback) ?_
  rw [hself, ofDocument?_document hv]

theorem ofJson_compact_of_not_finite (hinfinite : ∃ x ∈ v.floats, x.isFinite = false) :
    ofJson (Json.compact v.document) = .error (.schema .noFieldValue) := by
  obtain ⟨x, hx, hnot⟩ := hinfinite
  have hnull := (hasNull_reread v).mpr ⟨x, hx, Json.readBack?_of_not_isFinite hnot⟩
  exact ofJson_of_null (read_compact_document hdepth hback) hnull

end RoundTrip

/-- A value in the reader's depth whose finite floats read back survives its JSON text exactly if
all its floats are finite, and then unchanged; a value read off JSON text always does. -/
theorem survives_json :
    (∀ v : FieldValue, v.Canonical → v.depth ≤ Json.maxDepth →
      (∀ x ∈ v.floats, x.isFinite = true → Json.ReadsBack x) →
        ((∃ w, ofJson (Json.compact v.document) = .ok w) ↔ ∀ x ∈ v.floats, x.isFinite = true) ∧
          ∀ w, ofJson (Json.compact v.document) = .ok w → w = v) ∧
      ∀ (source : String) (v : FieldValue), ofJson source = .ok v →
        (∀ x ∈ v.floats, x.isFinite = true → Json.ReadsBack x) →
          ofJson (Json.compact v.document) = .ok v := by
  refine ⟨?_, ?_⟩
  · intro v hv hdepth hback
    by_cases hfinite : ∀ x ∈ v.floats, x.isFinite = true
    · have hok := ofJson_compact_of_finite hdepth hback hv hfinite
      refine ⟨iff_of_true ⟨v, hok⟩ hfinite, ?_⟩
      intro w hw
      rw [hok] at hw
      cases hw
      rfl
    · have hinfinite : ∃ x ∈ v.floats, x.isFinite = false := by simpa using hfinite
      have herror := ofJson_compact_of_not_finite hdepth hback hinfinite
      refine ⟨iff_of_false ?_ hfinite, ?_⟩
      · rintro ⟨w, hw⟩
        rw [herror] at hw
        cases hw
      · intro w hw
        rw [herror] at hw
        cases hw
  · intro source v h hback
    have hreadable := readable_of_ofJson h
    exact ofJson_compact_of_finite hreadable.depth_le hback hreadable.canonical hreadable.finite

theorem survives_json_nested :
    let v : FieldValue := .table
      [("list", .array [.int (-1), .float ⟨0x3ff0000000000000⟩, .float ⟨0x8000000000000000⟩]),
        ("é\n", .string "1")]
    ofJson (Json.compact v.document) = .ok v := by
  intro v
  have hv : v.Canonical :=
    ⟨by unfold OrderedTable.Sorted OrderedTable.names; decide, ⟨⟨trivial, trivial, trivial, trivial⟩,
      trivial, trivial⟩⟩
  have hfinite : ∀ x ∈ v.floats, x.isFinite = true := by
    change ∀ x ∈ [(⟨0x3ff0000000000000⟩ : Binary64), ⟨0x8000000000000000⟩], _
    decide
  have hback : ∀ x ∈ v.floats, x.isFinite = true → Json.ReadsBack x := by
    have hread : ∀ x ∈ [(⟨0x3ff0000000000000⟩ : Binary64), ⟨0x8000000000000000⟩],
        Json.readBack? x = some x := by
      decide +kernel
    exact fun x hx _ => Json.readsBack_of_readBack? (hread x hx)
  obtain ⟨hiff, hsame⟩ := survives_json.1 v hv (by decide) hback
  obtain ⟨w, hw⟩ := hiff.mpr hfinite
  exact survives_json.2 _ v (hsame w hw ▸ hw) hback

end FieldValue

end BrokerPolicy
