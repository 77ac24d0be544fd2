import BrokerPolicy.Proofs.Field.Json
import BrokerPolicy.Proofs.Json.Integer
import BrokerPolicy.Proofs.Json.Magnitude

set_option autoImplicit false

/-!
Values read off JSON texts. What a tree gives is told by its literals at any depth, and only a null
keeps it from giving a value, also one whose member is overridden.
-/

namespace BrokerPolicy

namespace Json.Tree

inductive HasNull : Tree → Prop
  | null : HasNull .null
  | item {items : List Tree} {t : Tree} (ht : t ∈ items) (h : HasNull t) : HasNull (.array items)
  | member {members : List (String × Tree)} {name : String} {t : Tree}
    (ht : (name, t) ∈ members) (h : HasNull t) : HasNull (.object members)

/-- The value that a tree gives. Of members with one name the last counts. -/
inductive Gives : Tree → FieldValue → Prop
  | bool {b : Bool} : Gives (.boolean b) (.bool b)
  | int {l : Literal} {i : Int64} (h : l.integer? = some i.toInt) (hzero : ¬ l.IsMinusZero) :
    Gives (.number l) (.int i)
  | minusZero {l : Literal} (h : l.IsMinusZero) : Gives (.number l) (.float (.zero true))
  | float {l : Literal} {x : Binary64} (h : ∀ i : Int64, l.integer? ≠ some i.toInt)
    (hx : l.draft.double? = some x) : Gives (.number l) (.float x)
  | string {s : String} : Gives (.text s) (.string s)
  | array {items : List Tree} {vs : List FieldValue} (h : List.Forall₂ Gives items vs) :
    Gives (.array items) (.array vs)
  | table {members : List (String × Tree)} {entries : FieldTable}
    (hsorted : OrderedTable.Sorted entries)
    (hnames : ∀ name, name ∈ OrderedTable.names entries ↔ name ∈ members.map Prod.fst)
    (hvalues : ∀ name t v, OrderedTable.lastOf members name = some t →
      OrderedTable.find? entries name = some v → Gives t v) :
    Gives (.object members) (.table entries)

theorem hasNullItems_iff (items : List Tree) :
    Document.HasNullItems (documentItems items) ↔ ∃ t ∈ items, t.document.HasNull := by
  induction items with
  | nil => simp [documentItems, Document.HasNullItems]
  | cons t rest ih => simp [documentItems, Document.HasNullItems, ih]

theorem hasNullEntries_iff (members : List (String × Tree)) :
    Document.HasNullEntries (documentMembers members) ↔ ∃ m ∈ members, m.2.document.HasNull := by
  induction members with
  | nil => simp [documentMembers, Document.HasNullEntries]
  | cons m rest ih => simp [documentMembers, Document.HasNullEntries, ih]

theorem not_hasNull_document_literal {l : Literal} (h : l.InRange) : ¬ l.document.HasNull := by
  rcases l.draft_cases with hfault | ⟨i, hi⟩ | ⟨x, hx⟩
  · exact absurd hfault h
  · rw [Literal.document, hi]
    exact id
  · rw [Literal.document, hx]
    exact id

theorem hasNull_document_iff {t : Tree} {n : Nat} (ht : t.Fits n) :
    t.document.HasNull ↔ t.HasNull := by
  induction t using Tree.induction generalizing n with
  | null => exact iff_of_true trivial .null
  | boolean _ | text _ => exact iff_of_false id (by rintro ⟨⟩)
  | number l =>
    cases ht with
    | number hrange => exact iff_of_false (not_hasNull_document_literal hrange) (by rintro ⟨⟩)
  | array items ih =>
    cases ht with
    | array hitems =>
    refine (hasNullItems_iff items).trans ⟨?_, ?_⟩
    · rintro ⟨t, hmem, hnull⟩
      exact .item hmem ((ih t hmem (hitems t hmem)).1 hnull)
    · intro h
      cases h with
      | @item _ t hmem hnull => exact ⟨t, hmem, (ih t hmem (hitems t hmem)).2 hnull⟩
  | object members ih =>
    cases ht with
    | object hmembers =>
    refine (hasNullEntries_iff members).trans ⟨?_, ?_⟩
    · rintro ⟨m, hmem, hnull⟩
      exact .member hmem ((ih m hmem (hmembers m hmem)).1 hnull)
    · intro h
      cases h with
      | member hmem hnull => exact ⟨_, hmem, (ih _ hmem (hmembers _ hmem)).2 hnull⟩

end Json.Tree

namespace FieldValue

open Json (Literal Tree)

theorem gives_of_real {l : Literal} {x : Binary64} (h : ∀ i : Int64, l.integer? ≠ some i.toInt)
    (hdraft : l.draft = .real x) {v : FieldValue} (hv : ofDocument? l.document = some v) :
    Tree.Gives (.number l) v := by
  rw [Literal.document, hdraft] at hv
  cases hv
  exact .float h (by rw [hdraft]; rfl)

theorem integer?_ne_toInt {l : Literal} {i : Int} (hi : l.integer? = some i)
    (hwide : ¬ (-2 ^ 63 ≤ i ∧ i < 2 ^ 63)) (j : Int64) : l.integer? ≠ some j.toInt := by
  intro hj
  have hsame : i = j.toInt := Option.some.inj (hi.symm.trans hj)
  exact hwide (hsame ▸ ⟨j.le_toInt, j.toInt_lt⟩)

theorem gives_literal {l : Literal} (hrange : l.InRange) {v : FieldValue}
    (hv : ofDocument? l.document = some v) : Tree.Gives (.number l) v := by
  rcases l.isReal_or_integer? with hreal | ⟨i, hi⟩
  · obtain ⟨x, hx⟩ := (Literal.draft_of_isReal hreal).resolve_left hrange
    exact gives_of_real (by simp [Literal.integer?_of_isReal hreal]) hx hv
  by_cases hzero : l.IsMinusZero
  · rw [Literal.document, Literal.draft_of_isMinusZero hzero] at hv
    cases hv
    exact .minusZero hzero
  by_cases hfits : -2 ^ 63 ≤ i ∧ i < 2 ^ 64
  · have hdraft := Literal.draft_of_fits hi hfits.1 hfits.2 hzero
    have hvalue : ofInteger i = v := by
      rw [Literal.document, hdraft] at hv
      exact Option.some.inj hv
    subst hvalue
    by_cases hint : Int64.minValue.toInt ≤ i ∧ i ≤ Int64.maxValue.toInt
    · rw [ofInteger, if_pos hint]
      refine .int ?_ hzero
      rw [Int64.toInt_ofInt_of_le hint.1 (Int.lt_add_one_of_le hint.2)]
      exact hi
    · rw [ofInteger, if_neg hint]
      refine .float (integer?_ne_toInt hi fun h => hint ⟨h.1, ?_⟩) (by rw [hdraft]; rfl)
      exact Int.le_of_lt_add_one h.2
  · obtain ⟨x, hx⟩ := (Literal.draft_of_wide hi (by omega)).resolve_left hrange
    exact gives_of_real (integer?_ne_toInt hi (by omega)) hx hv

theorem gives_items {items : List Tree}
    (h : ∀ t ∈ items, ∀ v, ofDocument? t.document = some v → t.Gives v) {vs : List FieldValue}
    (hvs : ofItems? (Tree.documentItems items) = some vs) : List.Forall₂ Tree.Gives items vs := by
  induction items generalizing vs with
  | nil =>
    cases hvs
    exact .nil
  | cons t rest ih =>
    rw [List.forall_mem_cons] at h
    obtain ⟨first, hfirst, hrest⟩ := Option.bind_eq_some_iff.mp hvs
    obtain ⟨others, hothers, hlist⟩ := Option.bind_eq_some_iff.mp hrest
    cases hlist
    exact .cons (h.1 first hfirst) (ih h.2 hothers)

theorem gives_members {members : List (String × Tree)}
    (h : ∀ m ∈ members, ∀ v, ofDocument? m.2.document = some v → m.2.Gives v)
    {es : List (String × FieldValue)}
    (hes : ofEntries? (Tree.documentMembers members) = some es) :
    List.Forall₂ (fun m e => m.1 = e.1 ∧ m.2.Gives e.2) members es := by
  induction members generalizing es with
  | nil =>
    cases hes
    exact .nil
  | cons m rest ih =>
    rw [List.forall_mem_cons] at h
    obtain ⟨first, hfirst, hrest⟩ := Option.bind_eq_some_iff.mp hes
    obtain ⟨others, hothers, hlist⟩ := Option.bind_eq_some_iff.mp hrest
    cases hlist
    exact .cons ⟨rfl, h.1 first hfirst⟩ (ih h.2 hothers)

theorem gives_ofList {members : List (String × Tree)} {es : List (String × FieldValue)}
    (h : List.Forall₂ (fun m e => m.1 = e.1 ∧ m.2.Gives e.2) members es) :
    Tree.Gives (.object members) (.table (OrderedTable.ofList es)) := by
  have hnames : members.map Prod.fst = es.map Prod.fst := by
    induction h with
    | nil => rfl
    | cons hm _ ih => rw [List.map_cons, List.map_cons, hm.1, ih]
  refine .table (OrderedTable.sorted_ofList es) (fun name => ?_) (fun name t v ht hv => ?_)
  · rw [OrderedTable.mem_names_ofList, hnames]
  · have hlast := OrderedTable.rel_lastOf h name
    rw [OrderedTable.find?_ofList] at hv
    rw [ht, hv] at hlast
    cases hlast with
    | some hgives => exact hgives

theorem gives_document {t : Tree} {n : Nat} (ht : t.Fits n) {v : FieldValue}
    (hv : ofDocument? t.document = some v) : t.Gives v := by
  induction t using Tree.induction generalizing n v with
  | null => cases hv
  | boolean b =>
    cases hv
    exact .bool
  | number l =>
    cases ht with
    | number hrange => exact gives_literal hrange hv
  | text s =>
    cases hv
    exact .string
  | array items ih =>
    cases ht with
    | array hitems =>
    obtain ⟨vs, hvs, rfl⟩ := Option.map_eq_some_iff.mp hv
    exact .array (gives_items (fun t hmem v hv => ih t hmem (hitems t hmem) hv) hvs)
  | object members ih =>
    cases ht with
    | object hmembers =>
    obtain ⟨es, hes, rfl⟩ := Option.map_eq_some_iff.mp hv
    exact gives_ofList (gives_members (fun m hmem v hv => ih m hmem (hmembers m hmem) hv) hes)

theorem gives_unique {t : Tree} {v w : FieldValue} (hv : t.Gives v) (hw : t.Gives w) : v = w := by
  induction t using Tree.induction generalizing v w with
  | null => cases hv
  | boolean b =>
    cases hv
    cases hw
    rfl
  | number l =>
    cases hv with
    | @int _ i hi hzero =>
      cases hw with
      | @int _ j hj =>
        exact congrArg FieldValue.int (Int64.toInt_inj.1 (Option.some.inj (hi.symm.trans hj)))
      | minusZero h => exact absurd h hzero
      | float h => exact absurd hi (h i)
    | minusZero hzero =>
      cases hw with
      | int _ h => exact absurd hzero h
      | minusZero => rfl
      | float h => exact absurd hzero.2 (h 0)
    | @float _ x h hx =>
      cases hw with
      | @int _ j hj => exact absurd hj (h j)
      | minusZero hzero => exact absurd hzero.2 (h 0)
      | float _ hy => exact congrArg FieldValue.float (Option.some.inj (hx.symm.trans hy))
  | text s =>
    cases hv
    cases hw
    rfl
  | array items ih =>
    cases hv with
    | @array _ vs hvs =>
    cases hw with
    | @array _ ws hws =>
    congr 1
    induction hvs generalizing ws with
    | nil =>
      cases hws
      rfl
    | cons hv _ ihvs =>
      cases hws with
      | cons hw hws =>
        rw [List.forall_mem_cons] at ih
        rw [ih.1 hv hw, ihvs ih.2 hws]
  | object members ih =>
    cases hv with
    | @table _ es hes hesnames hesvalues =>
    cases hw with
    | @table _ fs hfs hfsnames hfsvalues =>
    congr 1
    -- under a name both tables have what its last member gives, or nothing
    refine OrderedTable.eq_of_find?_eq hes hfs fun name => ?_
    cases hlast : OrderedTable.lastOf members name with
    | none =>
      have hname : name ∉ members.map Prod.fst := (OrderedTable.lastOf_eq_none_iff _ _).1 hlast
      rw [(OrderedTable.find?_eq_none_iff es name).2 (mt (hesnames name).1 hname),
        (OrderedTable.find?_eq_none_iff fs name).2 (mt (hfsnames name).1 hname)]
    | some t =>
      have hmem := OrderedTable.mem_of_lastOf_eq hlast
      have hname : name ∈ members.map Prod.fst := List.mem_map_of_mem hmem
      obtain ⟨v, hv⟩ := Option.isSome_iff_exists.1
        ((OrderedTable.find?_isSome_iff es name).2 ((hesnames name).2 hname))
      obtain ⟨w, hw⟩ := Option.isSome_iff_exists.1
        ((OrderedTable.find?_isSome_iff fs name).2 ((hfsnames name).2 hname))
      rw [hv, hw, ih _ hmem (hesvalues name t v hlast hv) (hfsvalues name t w hlast hw)]

theorem ofJson_eq_findSome? {t : Tree} (ht : t.Fits Json.maxDepth) {text : String}
    (h : t.SpelledBy text) :
    ofJson text = (kinds.findSome? fun kind => kind t.document).elim
      (.error (.schema .noFieldValue)) .ok := by
  have hread := Json.read_spelledBy ht h
  rw [← ofDocument?_eq_findSome?]
  cases hvalue : ofDocument? t.document with
  | none => exact ofJson_of_null hread ((ofDocument?_eq_none_iff t.document).1 hvalue)
  | some v => exact ofJson_of_value hread hvalue

/-- Every tree has texts, and each of them is read by trying the kinds of values in order. This
fails exactly if a null occurs in the tree, also in a member that a later one of its name overrides,
and gives the value of the tree otherwise. Numbers may come as close to the greatest double as one
and a half units of its last place. -/
theorem ofJson_spelled (t : Tree) (ht : t.Fits Json.maxDepth) :
    (∃ text, t.SpelledBy text) ∧
      (∀ text, t.SpelledBy text →
        ofJson text = (kinds.findSome? fun kind => kind t.document).elim
          (.error (.schema .noFieldValue)) .ok ∧
        ((∃ e, ofJson text = .error e) ↔ t.HasNull) ∧
        (t.HasNull → ofJson text = .error (.schema .noFieldValue)) ∧
        (¬ t.HasNull → ∃ v, ofJson text = .ok v ∧ t.Gives v ∧ ∀ w, t.Gives w → w = v)) ∧
      ∀ l : Literal, l.magnitude ≤ ((2 ^ 54 - 5) * 2 ^ 970 : Nat) → l.InRange := by
  refine ⟨t.exists_spelledBy, fun text h => ⟨ofJson_eq_findSome? ht h, ?_⟩,
    fun _ => Literal.inRange_of_magnitude_le⟩
  have hread := Json.read_spelledBy ht h
  have hfails (hnull : t.HasNull) : ofJson text = .error (.schema .noFieldValue) :=
    ofJson_of_null hread ((Tree.hasNull_document_iff ht).2 hnull)
  have hsucceeds (hnull : ¬ t.HasNull) :
      ∃ v, ofJson text = .ok v ∧ t.Gives v ∧ ∀ w, t.Gives w → w = v := by
    cases hvalue : ofDocument? t.document with
    | none =>
      have hnone := (ofDocument?_eq_none_iff t.document).1 hvalue
      exact absurd ((Tree.hasNull_document_iff ht).1 hnone) hnull
    | some v =>
      have hgives := gives_document ht hvalue
      exact ⟨v, ofJson_of_value hread hvalue, hgives, fun w hw => gives_unique hw hgives⟩
  refine ⟨⟨?_, fun hnull => ⟨_, hfails hnull⟩⟩, hfails, hsucceeds⟩
  rintro ⟨e, he⟩
  by_contra hnull
  obtain ⟨v, hv, -⟩ := hsucceeds hnull
  rw [hv] at he
  cases he

/-- A name may be written in several ways, and what is overridden still has to be a value. -/
theorem ofJson_spelled_overridden :
    ofJson "\x7b\"a\":[null],\"\\u0061\" :true\x7d" = .error (.schema .noFieldValue) ∧
      ofJson "[-0,\x7b\"a\":[],\"\\u0061\" :true\x7d ]" =
        .ok (.array [.float (.zero true), .table [("a", .bool true)]]) := by
  have hblank : Json.Blank [' '] := by
    intro c hc
    rw [List.mem_singleton.1 hc]
    rfl
  have hplain : Json.SpellsText "a" ['"', 'a', '"'] :=
    ⟨[['a']], .cons (.plain (by decide) (by decide) (by decide)) .nil, rfl⟩
  have hunit := @Json.SpellsUnit.digits 0 0 6 1 '0' '0' '6' '1' ⟨by decide, .inl rfl⟩
    ⟨by decide, .inl rfl⟩ ⟨by decide, .inl rfl⟩ ⟨by decide, .inl rfl⟩
  have hnumbered : Json.SpellsText "a" ['"', '\\', 'u', '0', '0', '6', '1', '"'] :=
    ⟨[['\\', 'u', '0', '0', '6', '1']], .cons (.numbered hunit rfl rfl) .nil, rfl⟩
  have hobject {t : Tree} {cs : List Char} (h : Json.Spells t cs) :=
    Json.Spells.members (.more Json.blank_nil (.colon hplain Json.blank_nil Json.blank_nil h)
      Json.blank_nil (.last Json.blank_nil
        (.colon hnumbered hblank Json.blank_nil (.boolean true)) Json.blank_nil))
  let minusZero : Literal := { Literal.ofInt 0 with negative := true }
  let tree : Tree :=
    .array [.number minusZero, .object [("a", .array []), ("a", .boolean true)]]
  have hzero : minusZero.IsMinusZero := ⟨rfl, by decide +kernel⟩
  have hlist := Json.Spells.items (.last Json.blank_nil .null Json.blank_nil)
  have hnull : Tree.HasNull (.object [("a", .array [.null]), ("a", .boolean true)]) :=
    .member List.mem_cons_self (.item List.mem_cons_self .null)
  have hfits {n : Nat} {items : List Tree} (h : ∀ t ∈ items, t.Fits n) :
      Tree.Fits (n + 2) (.object [("a", .array items), ("a", .boolean true)]) :=
    .object (List.forall_mem_cons.2 ⟨.array h, List.forall_mem_singleton.2 .boolean⟩)
  refine ⟨?_, ?_⟩
  · have htext : Tree.SpelledBy (.object [("a", .array [.null]), ("a", .boolean true)])
        "\x7b\"a\":[null],\"\\u0061\" :true\x7d" :=
      ⟨[], _, [], Json.blank_nil, hobject hlist, Json.blank_nil, rfl⟩
    have hread := (ofJson_spelled _ (hfits (List.forall_mem_singleton.2 .null))).2.1 _ htext
    exact hread.2.2.1 hnull
  · have hfit : Tree.Fits Json.maxDepth tree :=
      .array (List.forall_mem_cons.2 ⟨.number (by
        rw [Literal.InRange, Literal.draft_of_isMinusZero hzero]
        simp), List.forall_mem_singleton.2 (hfits (by simp))⟩)
    have htext : tree.SpelledBy "[-0,\x7b\"a\":[],\"\\u0061\" :true\x7d ]" :=
      ⟨[], _, [], Json.blank_nil, .items (.more Json.blank_nil (.number (Literal.spells_text _))
        Json.blank_nil (.last Json.blank_nil (hobject (.noItems Json.blank_nil)) hblank)),
        Json.blank_nil, rfl⟩
    have hnone : ¬ tree.HasNull := by
      rw [← Tree.hasNull_document_iff hfit]
      simp [tree, Tree.document, Tree.documentItems, Tree.documentMembers, Document.HasNull,
        Document.HasNullItems, Document.HasNullEntries, Literal.document,
        Literal.draft_of_isMinusZero hzero]
    have hkept : OrderedTable.ofList [("a", FieldValue.array []), ("a", .bool true)] =
        [("a", .bool true)] := by
      simp [OrderedTable.ofList, OrderedTable.insert]
    have hgives : tree.Gives (.array [.float (.zero true), .table [("a", .bool true)]]) := by
      refine .array (.cons (.minusZero hzero) (.cons ?_ .nil))
      rw [← hkept]
      exact gives_ofList (.cons ⟨rfl, .array .nil⟩ (.cons ⟨rfl, .bool⟩ .nil))
    have hread := (ofJson_spelled tree hfit).2.1 _ htext
    obtain ⟨v, hok, -, hunique⟩ := hread.2.2.2 hnone
    rw [hok, hunique _ hgives]

end FieldValue

end BrokerPolicy
