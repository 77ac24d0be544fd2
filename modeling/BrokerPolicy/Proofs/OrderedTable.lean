import BrokerPolicy.OrderedTable
import Mathlib.Data.List.Induction
import Mathlib.Data.List.Nodup
import Mathlib.Data.String.Basic
import Mathlib.Tactic.Tauto

set_option autoImplicit false

/-!
What insertion does to a table, seen through lookup. The lookup laws hold of every list of entries;
order is needed only where a table is determined by its lookups.
-/

namespace BrokerPolicy.OrderedTable

variable {α : Type}

theorem insert_cons_of_lt {name n : String} (h : name < n) (v x : α) (t : OrderedTable α) :
    insert name v ((n, x) :: t) = (name, v) :: (n, x) :: t := if_pos h

@[simp]
theorem insert_cons_self (n : String) (v x : α) (t : OrderedTable α) :
    insert n v ((n, x) :: t) = (n, v) :: t := by
  rw [insert, if_neg (lt_irrefl n), if_pos rfl]

theorem insert_cons_of_gt {name n : String} (h : n < name) (v x : α) (t : OrderedTable α) :
    insert name v ((n, x) :: t) = (n, x) :: insert name v t := by
  rw [insert, if_neg (lt_asymm h), if_neg h.ne']

@[simp]
theorem find?_nil (m : String) : find? ([] : OrderedTable α) m = none := rfl

theorem find?_cons (n m : String) (v : α) (t : OrderedTable α) :
    find? ((n, v) :: t) m = if m = n then some v else find? t m := by
  by_cases h : m = n
  · rw [if_pos h, h, find?, List.lookup_cons_self]
  · have hb : (m == n) = false := by simpa using h
    simp only [find?, List.lookup_cons, hb, if_neg h]

theorem find?_insert (name m : String) (value : α) (t : OrderedTable α) :
    find? (insert name value t) m = if m = name then some value else find? t m := by
  induction t with
  | nil => rw [insert, find?_cons]
  | cons entry rest ih =>
    obtain ⟨n, v⟩ := entry
    rcases lt_trichotomy name n with hlt | rfl | hgt
    · rw [insert_cons_of_lt hlt, find?_cons]
    · rw [insert_cons_self, find?_cons, find?_cons]
      by_cases hm : m = name <;> simp [hm]
    · rw [insert_cons_of_gt hgt, find?_cons, find?_cons, ih]
      by_cases hm : m = n
      · subst hm
        simp [hgt.ne]
      · simp [hm]

theorem find?_isSome_iff (t : OrderedTable α) (name : String) :
    (find? t name).isSome ↔ name ∈ names t := by
  induction t with
  | nil => simp [names]
  | cons entry rest ih =>
    obtain ⟨n, v⟩ := entry
    rw [find?_cons]
    by_cases h : name = n
    · simp [names, h]
    · simpa [names, h] using ih

theorem find?_eq_none_iff (t : OrderedTable α) (name : String) :
    find? t name = none ↔ name ∉ names t := by
  rw [← find?_isSome_iff, Bool.not_eq_true, Option.isSome_eq_false_iff, Option.isNone_iff_eq_none]

theorem contains_iff (t : OrderedTable α) (name : String) :
    contains t name = true ↔ name ∈ names t := find?_isSome_iff t name

theorem mem_names_insert (name m : String) (value : α) (t : OrderedTable α) :
    m ∈ names (insert name value t) ↔ m = name ∨ m ∈ names t := by
  rw [← find?_isSome_iff, ← find?_isSome_iff, find?_insert]
  by_cases h : m = name <;> simp [h]

@[simp]
theorem sorted_nil : Sorted ([] : OrderedTable α) := List.Pairwise.nil

theorem sorted_cons_iff (n : String) (v : α) (t : OrderedTable α) :
    Sorted ((n, v) :: t) ↔ (∀ m ∈ names t, n < m) ∧ Sorted t := List.pairwise_cons

theorem sorted_insert (name : String) (value : α) {t : OrderedTable α} (h : Sorted t) :
    Sorted (insert name value t) := by
  induction t with
  | nil => exact List.pairwise_singleton _ _
  | cons entry rest ih =>
    obtain ⟨n, v⟩ := entry
    obtain ⟨hn, hrest⟩ := (sorted_cons_iff n v rest).1 h
    rcases lt_trichotomy name n with hlt | rfl | hgt
    · rw [insert_cons_of_lt hlt]
      refine (sorted_cons_iff _ _ _).2 ⟨?_, h⟩
      intro m hm
      rcases List.mem_cons.1 hm with rfl | hm
      · exact hlt
      · exact hlt.trans (hn m hm)
    · rw [insert_cons_self]
      exact (sorted_cons_iff _ _ _).2 ⟨hn, hrest⟩
    · rw [insert_cons_of_gt hgt]
      refine (sorted_cons_iff _ _ _).2 ⟨?_, ih hrest⟩
      intro m hm
      rcases (mem_names_insert name m value rest).1 hm with rfl | hm
      · exact hgt
      · exact hn m hm

theorem Sorted.nodup_names {t : OrderedTable α} (h : Sorted t) : (names t).Nodup :=
  h.imp ne_of_lt

theorem find?_eq_none_of_lt {n : String} {t : OrderedTable α} (h : ∀ m ∈ names t, n < m) :
    find? t n = none :=
  (find?_eq_none_iff t n).2 fun hmem => lt_irrefl n (h n hmem)

theorem head_le_of_find?_eq {m n : String} {v w : α} {t u : OrderedTable α}
    (ht : Sorted ((m, v) :: t)) (h : ∀ k, find? ((m, v) :: t) k = find? ((n, w) :: u) k) :
    m ≤ n := by
  have hn : n ∈ names ((m, v) :: t) := by
    rw [← find?_isSome_iff, h n, find?_cons]
    simp
  rcases List.mem_cons.1 hn with rfl | hn
  · exact le_refl _
  · exact le_of_lt (((sorted_cons_iff m v t).1 ht).1 n hn)

theorem length_insert {t : OrderedTable α} (h : Sorted t) (name : String) (value : α) :
    (insert name value t).length = t.length + if contains t name then 0 else 1 := by
  induction t with
  | nil => rfl
  | cons entry rest ih =>
    obtain ⟨n, v⟩ := entry
    obtain ⟨hn, hrest⟩ := (sorted_cons_iff n v rest).1 h
    rcases lt_trichotomy name n with hlt | rfl | hgt
    · have habsent : find? rest name = none := find?_eq_none_of_lt fun m hm => hlt.trans (hn m hm)
      rw [insert_cons_of_lt hlt, contains, find?_cons, if_neg hlt.ne, habsent]
      rfl
    · rw [insert_cons_self, contains, find?_cons, if_pos rfl]
      rfl
    · have hsame : contains ((n, v) :: rest) name = contains rest name := by
        rw [contains, find?_cons, if_neg hgt.ne', contains]
      rw [insert_cons_of_gt hgt, List.length_cons, ih hrest, hsame, List.length_cons]
      exact Nat.add_right_comm _ _ _

theorem eq_of_find?_eq {t u : OrderedTable α} (ht : Sorted t) (hu : Sorted u)
    (h : ∀ m, find? t m = find? u m) : t = u := by
  induction t generalizing u with
  | nil =>
    cases u with
    | nil => rfl
    | cons f u =>
      obtain ⟨n, w⟩ := f
      simpa [find?_cons] using h n
  | cons e t ih =>
    obtain ⟨m, v⟩ := e
    cases u with
    | nil => simpa [find?_cons] using h m
    | cons f u =>
      obtain ⟨n, w⟩ := f
      -- the least name that is found is the first one on both sides
      have hmn : m = n :=
        le_antisymm (head_le_of_find?_eq ht h) (head_le_of_find?_eq hu (fun k => (h k).symm))
      subst hmn
      have hvw : v = w := by simpa [find?_cons] using h m
      subst hvw
      obtain ⟨htm, ht⟩ := (sorted_cons_iff _ _ _).1 ht
      obtain ⟨hum, hu⟩ := (sorted_cons_iff _ _ _).1 hu
      have htail : t = u := by
        apply ih ht hu
        intro k
        by_cases hk : k = m
        · subst hk
          rw [find?_eq_none_of_lt htm, find?_eq_none_of_lt hum]
        · simpa [find?_cons, hk] using h k
      rw [htail]

theorem insert_insert_self (name : String) (v w : α) (t : OrderedTable α) :
    insert name v (insert name w t) = insert name v t := by
  induction t with
  | nil => exact insert_cons_self name v w []
  | cons entry rest ih =>
    obtain ⟨n, x⟩ := entry
    rcases lt_trichotomy name n with hlt | rfl | hgt
    · rw [insert_cons_of_lt hlt, insert_cons_self, insert_cons_of_lt hlt]
    · rw [insert_cons_self, insert_cons_self, insert_cons_self]
    · rw [insert_cons_of_gt hgt, insert_cons_of_gt hgt, insert_cons_of_gt hgt, ih]

theorem insert_insert_of_lt {a b : String} (h : a < b) (v w : α) (t : OrderedTable α) :
    insert a v (insert b w t) = insert b w (insert a v t) := by
  induction t with
  | nil =>
    calc
      insert a v [(b, w)] = [(a, v), (b, w)] := insert_cons_of_lt h v w []
      _ = insert b w [(a, v)] := (insert_cons_of_gt h w v []).symm
  | cons entry rest ih =>
    obtain ⟨n, x⟩ := entry
    rcases lt_trichotomy b n with hlt | rfl | hgt
    · rw [insert_cons_of_lt hlt, insert_cons_of_lt h, insert_cons_of_lt (h.trans hlt),
        insert_cons_of_gt h, insert_cons_of_lt hlt]
    · rw [insert_cons_self, insert_cons_of_lt h, insert_cons_of_lt h, insert_cons_of_gt h,
        insert_cons_self]
    · rw [insert_cons_of_gt hgt]
      rcases lt_trichotomy a n with ha | rfl | ha
      · rw [insert_cons_of_lt ha, insert_cons_of_lt ha, insert_cons_of_gt h,
          insert_cons_of_gt hgt]
      · rw [insert_cons_self, insert_cons_self, insert_cons_of_gt h]
      · rw [insert_cons_of_gt ha, insert_cons_of_gt ha, insert_cons_of_gt hgt, ih]

theorem insert_comm {a b : String} (h : a ≠ b) (v w : α) (t : OrderedTable α) :
    insert a v (insert b w t) = insert b w (insert a v t) := by
  rcases lt_or_gt_of_ne h with hab | hba
  · exact insert_insert_of_lt hab v w t
  · exact (insert_insert_of_lt hba w v t).symm

def insertAll (t : OrderedTable α) (entries : List (String × α)) : OrderedTable α :=
  entries.foldl (fun t e => insert e.1 e.2 t) t

/-- The value that the last entry of a name gives it. -/
def lastOf (entries : List (String × α)) (name : String) : Option α :=
  find? entries.reverse name

theorem rel_find? {β : Type} {r : α → β → Prop} {es : List (String × α)} {fs : List (String × β)}
    (h : List.Forall₂ (fun e f => e.1 = f.1 ∧ r e.2 f.2) es fs) (name : String) :
    Option.Rel r (find? es name) (find? fs name) := by
  induction h with
  | nil => exact .none
  | @cons e f es fs he _ ih =>
    obtain ⟨n, a⟩ := e
    obtain ⟨m, b⟩ := f
    obtain ⟨hname, hr⟩ := he
    change n = m at hname
    subst hname
    rw [find?_cons, find?_cons]
    split_ifs
    · exact .some hr
    · exact ih

theorem rel_lastOf {β : Type} {r : α → β → Prop} {es : List (String × α)} {fs : List (String × β)}
    (h : List.Forall₂ (fun e f => e.1 = f.1 ∧ r e.2 f.2) es fs) (name : String) :
    Option.Rel r (lastOf es name) (lastOf fs name) :=
  rel_find? (List.forall₂_reverse_iff.2 h) name

theorem insertAll_append (t : OrderedTable α) (es fs : List (String × α)) :
    insertAll t (es ++ fs) = insertAll (insertAll t es) fs := List.foldl_append

theorem insertAll_concat (t : OrderedTable α) (es : List (String × α)) (e : String × α) :
    insertAll t (es ++ [e]) = insert e.1 e.2 (insertAll t es) := insertAll_append t es [e]

theorem lastOf_concat (es : List (String × α)) (e : String × α) (name : String) :
    lastOf (es ++ [e]) name = if name = e.1 then some e.2 else lastOf es name := by
  rw [lastOf, List.reverse_append]
  exact find?_cons e.1 name e.2 es.reverse

theorem find?_insertAll (t : OrderedTable α) (entries : List (String × α)) (name : String) :
    find? (insertAll t entries) name = (lastOf entries name).or (find? t name) := by
  induction entries using List.reverseRecOn with
  | nil => rfl
  | append_singleton es e ih =>
    rw [insertAll_concat, find?_insert, lastOf_concat, ih]
    by_cases h : name = e.1 <;> simp [h]

theorem mem_names_insertAll (t : OrderedTable α) (entries : List (String × α)) (m : String) :
    m ∈ names (insertAll t entries) ↔ m ∈ names t ∨ m ∈ entries.map Prod.fst := by
  induction entries generalizing t with
  | nil => simp [insertAll]
  | cons e entries ih =>
    change m ∈ names (insertAll (insert e.1 e.2 t) entries) ↔ _
    rw [ih, mem_names_insert, List.map_cons, List.mem_cons]
    tauto

theorem sorted_insertAll {t : OrderedTable α} (h : Sorted t) (entries : List (String × α)) :
    Sorted (insertAll t entries) := by
  induction entries using List.reverseRecOn with
  | nil => exact h
  | append_singleton es e ih =>
    rw [insertAll_concat]
    exact sorted_insert e.1 e.2 ih

theorem sorted_ofList (entries : List (String × α)) : Sorted (ofList entries) :=
  sorted_insertAll sorted_nil entries

theorem find?_ofList (entries : List (String × α)) (name : String) :
    find? (ofList entries) name = lastOf entries name := by
  have h := find?_insertAll [] entries name
  rw [find?_nil, Option.or_none] at h
  exact h

theorem mem_names_ofList (entries : List (String × α)) (m : String) :
    m ∈ names (ofList entries) ↔ m ∈ entries.map Prod.fst :=
  (mem_names_insertAll [] entries m).trans (or_iff_right List.not_mem_nil)

theorem insertAll_insert_of_notMem {name : String} {s : List (String × α)}
    (h : name ∉ names s) (v : α) (t : OrderedTable α) :
    insertAll (insert name v t) s = insert name v (insertAll t s) := by
  induction s generalizing t with
  | nil => rfl
  | cons e s ih =>
    have hne : name ≠ e.1 := fun he => h (by simp [names, he])
    have hs : name ∉ names s := fun hm => h (List.mem_cons_of_mem _ hm)
    calc
      insertAll (insert name v t) (e :: s)
          = insertAll (insert e.1 e.2 (insert name v t)) s := rfl
      _ = insertAll (insert name v (insert e.1 e.2 t)) s := by rw [insert_comm hne]
      _ = insert name v (insertAll t (e :: s)) := ih hs (insert e.1 e.2 t)

theorem insertAll_insert {s : OrderedTable α} (hs : Sorted s) (name : String) (v : α)
    (t : OrderedTable α) : insertAll t (insert name v s) = insert name v (insertAll t s) := by
  induction s generalizing t with
  | nil => rfl
  | cons entry rest ih =>
    obtain ⟨n, x⟩ := entry
    obtain ⟨hn, hrest⟩ := (sorted_cons_iff n x rest).1 hs
    rcases lt_trichotomy name n with hlt | rfl | hgt
    · rw [insert_cons_of_lt hlt]
      apply insertAll_insert_of_notMem
      intro hm
      rcases List.mem_cons.1 hm with rfl | hm
      · exact lt_irrefl _ hlt
      · exact lt_asymm hlt (hn name hm)
    · have hname : name ∉ names rest := fun hm => lt_irrefl name (hn name hm)
      rw [insert_cons_self]
      change insertAll (insert name v t) rest = insert name v (insertAll (insert name x t) rest)
      rw [insertAll_insert_of_notMem hname, insertAll_insert_of_notMem hname,
        insert_insert_self]
    · rw [insert_cons_of_gt hgt]
      exact ih hrest (insert n x t)

theorem insertAll_ofList (t : OrderedTable α) (entries : List (String × α)) :
    insertAll t (ofList entries) = insertAll t entries := by
  induction entries using List.reverseRecOn with
  | nil => rfl
  | append_singleton es e ih =>
    have hconcat : ofList (es ++ [e]) = insert e.1 e.2 (ofList es) := insertAll_concat [] es e
    rw [hconcat, insertAll_insert (sorted_ofList es), insertAll_concat, ih]

theorem mem_insert {name : String} {value : α} {t : OrderedTable α} {e : String × α}
    (h : e ∈ insert name value t) : e = (name, value) ∨ e ∈ t := by
  induction t with
  | nil => exact .inl (List.mem_singleton.mp h)
  | cons entry rest ih =>
    obtain ⟨n, v⟩ := entry
    rw [insert] at h
    split_ifs at h
    · exact List.mem_cons.mp h
    · exact (List.mem_cons.mp h).imp_right (List.mem_cons_of_mem _)
    · rcases List.mem_cons.mp h with rfl | h
      · exact .inr List.mem_cons_self
      · exact (ih h).imp_right (List.mem_cons_of_mem _)

theorem mem_ofList {entries : List (String × α)} {e : String × α} (h : e ∈ ofList entries) :
    e ∈ entries := by
  induction entries using List.reverseRecOn with
  | nil => exact h
  | append_singleton es last ih =>
    have hinsert : e ∈ insert last.1 last.2 (ofList es) := insertAll_concat [] es last ▸ h
    rcases mem_insert hinsert with rfl | he
    · exact List.mem_append_right _ (List.mem_singleton.mpr rfl)
    · exact List.mem_append_left _ (ih he)

theorem insert_of_forall_lt {name : String} (value : α) {t : OrderedTable α}
    (h : ∀ m ∈ names t, m < name) : insert name value t = t ++ [(name, value)] := by
  induction t with
  | nil => rfl
  | cons entry rest ih =>
    obtain ⟨n, v⟩ := entry
    have hhead : n < name := h n List.mem_cons_self
    rw [insert_cons_of_gt hhead, ih fun m hm => h m (List.mem_cons_of_mem _ hm), List.cons_append]

theorem ofList_of_sorted {t : OrderedTable α} (h : Sorted t) : ofList t = t := by
  induction t using List.reverseRecOn with
  | nil => rfl
  | append_singleton t e ih =>
    have hpairwise : (names t ++ [e.1]).Pairwise (· < ·) := by
      rw [Sorted, names, List.map_append] at h
      exact h
    obtain ⟨hsorted, -, hlast⟩ := List.pairwise_append.mp hpairwise
    calc ofList (t ++ [e]) = insert e.1 e.2 (ofList t) := insertAll_concat [] t e
      _ = insert e.1 e.2 t := by rw [ih hsorted]
      _ = t ++ [e] := insert_of_forall_lt e.2 fun m hm => hlast m hm e.1 (List.mem_singleton.mpr rfl)

theorem lastOf_of_sorted {t : OrderedTable α} (h : Sorted t) (name : String) :
    lastOf t name = find? t name := by
  rw [← find?_ofList, ofList_of_sorted h]

theorem lastOf_of_nodup {es : List (String × α)} (h : (es.map Prod.fst).Nodup) {e : String × α}
    (he : e ∈ es) : lastOf es e.1 = some e.2 := by
  obtain ⟨before, after, rfl⟩ := List.append_of_mem he
  have hafter : ∀ f ∈ after, f.1 ≠ e.1 := by
    intro f hf heq
    rw [List.map_append, List.map_cons, List.nodup_append] at h
    have hfresh := (List.nodup_cons.1 h.2.1).1
    exact hfresh (heq ▸ List.mem_map_of_mem hf)
  rw [lastOf, find?, List.lookup_eq_some_iff]
  refine ⟨after.reverse, before.reverse, by simp, fun f hf => ?_⟩
  simpa using (hafter f (List.mem_reverse.1 hf)).symm

theorem find?_erase (name m : String) (t : OrderedTable α) :
    find? (erase t name) m = if m = name then none else find? t m := by
  induction t with
  | nil => simp [erase]
  | cons entry rest ih =>
    obtain ⟨n, v⟩ := entry
    rw [erase] at ih
    by_cases h : n = name
    · subst h
      simp only [erase, ne_eq, not_true_eq_false, decide_false, Bool.false_eq_true,
        not_false_eq_true, List.filter_cons_of_neg, find?_cons]
      rw [ih]
      split_ifs <;> rfl
    · simp only [erase, ne_eq, h, not_false_eq_true, decide_true, List.filter_cons_of_pos,
        find?_cons]
      rw [ih]
      by_cases hm : m = n
      · simp [hm, h]
      · simp [hm]

/-- Names are distinct, so the one taken out stands at one place only. -/
theorem names_erase {t : OrderedTable α} (h : Sorted t) {name : String} {before after : List String}
    (hnames : names t = before ++ name :: after) : names (erase t name) = before ++ after := by
  have hnodup := h.nodup_names
  rw [hnames, List.perm_middle.nodup_iff, List.nodup_cons, List.mem_append, not_or] at hnodup
  have hkept {ns : List String} (hns : name ∉ ns) : ns.filter (fun n => decide (n ≠ name)) = ns :=
    List.filter_eq_self.2 fun n hn => decide_eq_true fun heq => hns (heq ▸ hn)
  calc
    names (erase t name) = (names t).filter fun n => decide (n ≠ name) := by
      rw [names, names, List.filter_map, erase]
      rfl
    _ = before ++ after := by
      rw [hnames, List.filter_append, List.filter_cons_of_neg (by simp), hkept hnodup.1.1,
        hkept hnodup.1.2]

theorem flatMap_names_insert {β : Type} {g : String → List β} {name : String} (hg : g name = [])
    (value : α) (t : OrderedTable α) :
    (names (insert name value t)).flatMap g = (names t).flatMap g := by
  have hname (ns : List String) : (name :: ns).flatMap g = ns.flatMap g := by
    rw [List.flatMap_cons, hg, List.nil_append]
  induction t with
  | nil => exact hname []
  | cons entry rest ih =>
    obtain ⟨n, v⟩ := entry
    rcases lt_trichotomy name n with hlt | rfl | hgt
    · rw [insert_cons_of_lt hlt]
      exact hname (n :: names rest)
    · rw [insert_cons_self]
      rfl
    · rw [insert_cons_of_gt hgt]
      change (n :: names (insert name value rest)).flatMap g = (n :: names rest).flatMap g
      rw [List.flatMap_cons, List.flatMap_cons, ih]

theorem sorted_erase {t : OrderedTable α} (h : Sorted t) (name : String) :
    Sorted (erase t name) :=
  h.sublist (List.filter_sublist.map Prod.fst)

theorem mem_of_find?_eq {t : OrderedTable α} {name : String} {v : α}
    (h : find? t name = some v) : (name, v) ∈ t := by
  obtain ⟨before, after, rfl, -⟩ := List.lookup_eq_some_iff.1 h
  simp

theorem mem_of_lastOf_eq {es : List (String × α)} {name : String} {v : α}
    (h : lastOf es name = some v) : (name, v) ∈ es := List.mem_reverse.1 (mem_of_find?_eq h)

theorem lastOf_eq_none_iff (es : List (String × α)) (name : String) :
    lastOf es name = none ↔ name ∉ es.map Prod.fst := by
  rw [lastOf, find?_eq_none_iff, names, List.map_reverse, List.mem_reverse]

theorem Sorted.mem_iff {t : OrderedTable α} (h : Sorted t) (e : String × α) :
    e ∈ t ↔ find? t e.1 = some e.2 := by
  refine ⟨fun he => ?_, mem_of_find?_eq⟩
  rw [← lastOf_of_sorted h, lastOf_of_nodup h.nodup_names he]

theorem Sorted.nodup {t : OrderedTable α} (h : Sorted t) : t.Nodup :=
  List.Nodup.of_map Prod.fst h.nodup_names

theorem erase_of_find?_eq_none {t : OrderedTable α} {name : String} (h : find? t name = none) :
    erase t name = t := by
  rw [find?_eq_none_iff] at h
  refine List.filter_eq_self.2 fun e he => decide_eq_true fun heq => h ?_
  exact heq ▸ List.mem_map_of_mem he

theorem perm_insert {t : OrderedTable α} (h : Sorted t) (name : String) (value : α) :
    (insert name value t).Perm ((name, value) :: erase t name) := by
  have hfresh : (name, value) ∉ erase t name := fun hmem => by
    simpa [erase] using List.of_mem_filter hmem
  refine (List.perm_ext_iff_of_nodup (sorted_insert name value h).nodup
    (List.nodup_cons.2 ⟨hfresh, h.nodup.filter _⟩)).2 fun e => ?_
  obtain ⟨m, v⟩ := e
  rw [(sorted_insert name value h).mem_iff, find?_insert, List.mem_cons,
    (sorted_erase h name).mem_iff, find?_erase, Prod.mk.injEq]
  by_cases hm : m = name
  · simp [hm, eq_comm]
  · simp [hm]

theorem insert_of_find?_eq {t : OrderedTable α} (h : Sorted t) {name : String} {value : α}
    (hfound : find? t name = some value) : insert name value t = t := by
  apply eq_of_find?_eq (sorted_insert name value h) h
  intro m
  rw [find?_insert]
  split_ifs with hm
  · rw [hm, hfound]
  · rfl

theorem perm_of_find?_eq {t : OrderedTable α} (h : Sorted t) {name : String} {value : α}
    (hfound : find? t name = some value) : t.Perm ((name, value) :: erase t name) := by
  have hperm := perm_insert h name value
  rwa [insert_of_find?_eq h hfound] at hperm

section gather

variable {β : Type} (f : α → List β) {t : OrderedTable α} (h : Sorted t) (name : String)

def gather (t : OrderedTable α) : List β := t.flatMap fun e => f e.2

include h

theorem perm_gather_insert (value : α) :
    (gather f (insert name value t)).Perm (f value ++ gather f (erase t name)) :=
  (perm_insert h name value).flatMap_right _

theorem perm_gather :
    (gather f t).Perm ((find? t name).elim [] f ++ gather f (erase t name)) := by
  cases hfound : find? t name with
  | none =>
    rw [erase_of_find?_eq_none hfound]
    exact List.Perm.refl _
  | some value => exact (perm_of_find?_eq h hfound).flatMap_right _

end gather

theorem ofList_of_perm {t : List (String × α)} {u : OrderedTable α} (hu : Sorted u)
    (h : t.Perm u) : ofList t = u := by
  have hnodup : (t.map Prod.fst).Nodup := (h.map Prod.fst).nodup_iff.2 hu.nodup_names
  apply eq_of_find?_eq (sorted_ofList t) hu
  intro name
  rw [find?_ofList]
  cases hfound : find? u name with
  | some v => exact lastOf_of_nodup hnodup (h.mem_iff.2 (mem_of_find?_eq hfound))
  | none =>
    rw [find?_eq_none_iff] at hfound
    rw [lastOf_eq_none_iff, (h.map Prod.fst).mem_iff]
    exact hfound

theorem find?_before {before after : List (String × α)} {n : String} {v : α}
    (h : Sorted (before ++ (n, v) :: after)) (m : String) :
    find? before m = if m < n then find? (before ++ (n, v) :: after) m else none := by
  rw [Sorted, names, List.map_append] at h
  obtain ⟨-, hafter, hcross⟩ := List.pairwise_append.1 h
  split_ifs with hm
  · have hrest : find? ((n, v) :: after) m = none := by
      rw [find?_eq_none_iff]
      intro hmem
      rcases List.mem_cons.1 hmem with rfl | hmem
      · exact lt_irrefl _ hm
      · exact lt_asymm hm (List.rel_of_pairwise_cons hafter hmem)
    rw [find?, find?, List.lookup_append]
    change _ = (find? before m).or (find? ((n, v) :: after) m)
    rw [hrest, Option.or_none]
    rfl
  · rw [find?_eq_none_iff]
    exact fun hmem => hm (hcross m hmem n List.mem_cons_self)

def mapValues {β : Type} (f : α → β) (t : OrderedTable α) : OrderedTable β :=
  t.map fun e => (e.1, f e.2)

section mapValues

variable {β : Type} (f : α → β)

@[simp]
theorem find?_mapValues (t : OrderedTable α) (name : String) :
    find? (mapValues f t) name = (find? t name).map f := by
  induction t with
  | nil => rfl
  | cons entry rest ih =>
    obtain ⟨n, v⟩ := entry
    change find? ((n, f v) :: mapValues f rest) name = _
    rw [find?_cons, find?_cons, ih]
    split_ifs <;> rfl

theorem contains_mapValues (t : OrderedTable α) (name : String) :
    contains (mapValues f t) name = contains t name := by
  rw [contains, find?_mapValues, Option.isSome_map, contains]

theorem mapValues_insert (name : String) (value : α) (t : OrderedTable α) :
    mapValues f (insert name value t) = insert name (f value) (mapValues f t) := by
  induction t with
  | nil => rfl
  | cons entry rest ih =>
    obtain ⟨n, v⟩ := entry
    change _ = insert name (f value) ((n, f v) :: mapValues f rest)
    rcases lt_trichotomy name n with hlt | rfl | hgt
    · rw [insert_cons_of_lt hlt, insert_cons_of_lt hlt]
      rfl
    · rw [insert_cons_self, insert_cons_self]
      rfl
    · rw [insert_cons_of_gt hgt, insert_cons_of_gt hgt, ← ih]
      rfl

theorem mapValues_erase (t : OrderedTable α) (name : String) :
    mapValues f (erase t name) = erase (mapValues f t) name := by
  rw [erase, erase, mapValues, mapValues, List.filter_map]
  rfl

end mapValues

/-- Of the entries put into a table only the last one of each name counts. -/
theorem ofList_eq_ofList_iff {es fs : List (String × α)} :
    ofList es = ofList fs ↔ ∀ name, lastOf es name = lastOf fs name := by
  constructor
  · intro h name
    rw [← find?_ofList, h, find?_ofList]
  · intro h
    apply eq_of_find?_eq (sorted_ofList es) (sorted_ofList fs)
    intro name
    rw [find?_ofList, find?_ofList, h name]

theorem insertAll_congr {es fs : List (String × α)} (h : ∀ name, lastOf es name = lastOf fs name)
    (t : OrderedTable α) : insertAll t es = insertAll t fs := by
  rw [← insertAll_ofList, ofList_eq_ofList_iff.2 h, insertAll_ofList]

theorem lastOf_filter (p : String → Bool) (es : List (String × α)) (name : String) :
    lastOf (es.filter fun e => p e.1) name = if p name then lastOf es name else none := by
  induction es using List.reverseRecOn with
  | nil => simp [lastOf]
  | append_singleton es e ih =>
    rw [List.filter_append, lastOf_concat]
    by_cases he : p e.1 = true
    · rw [List.filter_cons_of_pos (by simpa using he), List.filter_nil, lastOf_concat, ih]
      by_cases hname : name = e.1 <;> simp [hname, he]
    · rw [List.filter_cons_of_neg (by simpa using he), List.filter_nil, List.append_nil, ih]
      by_cases hname : name = e.1 <;> simp [hname, he]

/-- A list of names as a table in which nothing is said of them. -/
def ofNames (ns : List String) : OrderedTable Unit := ns.map fun n => (n, ())

theorem names_ofNames (ns : List String) : names (ofNames ns) = ns := by
  simp [names, ofNames, Function.comp_def]

theorem ofNames_insertName (name : String) (ns : List String) :
    ofNames (insertName name ns) = insert name () (ofNames ns) := by
  induction ns with
  | nil => rfl
  | cons n rest ih =>
    rcases lt_trichotomy name n with hlt | rfl | hgt
    · rw [insertName, if_pos hlt]
      exact (insert_cons_of_lt hlt () () (ofNames rest)).symm
    · rw [insertName, if_neg (lt_irrefl name), if_pos rfl]
      exact (insert_cons_self name () () (ofNames rest)).symm
    · rw [insertName, if_neg (lt_asymm hgt), if_neg hgt.ne']
      calc
        ofNames (n :: insertName name rest) = (n, ()) :: ofNames (insertName name rest) := rfl
        _ = (n, ()) :: insert name () (ofNames rest) := by rw [ih]
        _ = insert name () (ofNames (n :: rest)) := (insert_cons_of_gt hgt () () _).symm

theorem mem_insertName (name m : String) (ns : List String) :
    m ∈ insertName name ns ↔ m = name ∨ m ∈ ns := by
  rw [← names_ofNames (insertName name ns), ofNames_insertName, mem_names_insert, names_ofNames]

def insertNames (ns added : List String) : List String :=
  added.foldl (fun ns n => insertName n ns) ns

theorem ofNames_insertNames (ns added : List String) :
    ofNames (insertNames ns added) = insertAll (ofNames ns) (ofNames added) := by
  induction added generalizing ns with
  | nil => rfl
  | cons n added ih =>
    calc
      ofNames (insertNames ns (n :: added)) = ofNames (insertNames (insertName n ns) added) := rfl
      _ = insertAll (insert n () (ofNames ns)) (ofNames added) := by rw [ih, ofNames_insertName]

theorem mem_insertNames (ns added : List String) (m : String) :
    m ∈ insertNames ns added ↔ m ∈ ns ∨ m ∈ added := by
  induction added generalizing ns with
  | nil => simp [insertNames]
  | cons n added ih =>
    change m ∈ insertNames (insertName n ns) added ↔ _
    rw [ih, mem_insertName, List.mem_cons]
    tauto

theorem pairwise_insertNames {ns : List String} (h : ns.Pairwise (· < ·)) (added : List String) :
    (insertNames ns added).Pairwise (· < ·) := by
  have hsorted : Sorted (ofNames ns) := by
    rw [Sorted, names_ofNames]
    exact h
  rw [← names_ofNames (insertNames ns added), ofNames_insertNames]
  exact sorted_insertAll hsorted (ofNames added)

theorem lastOf_ofNames (ns : List String) (name : String) :
    lastOf (ofNames ns) name = if name ∈ ns then some () else none := by
  induction ns using List.reverseRecOn with
  | nil => rfl
  | append_singleton ns n ih =>
    have hconcat : ofNames (ns ++ [n]) = ofNames ns ++ [(n, ())] := List.map_append
    rw [hconcat, lastOf_concat, ih]
    by_cases h : name = n <;> simp [h]

theorem insertNames_congr {added added' : List String} (h : ∀ n, n ∈ added ↔ n ∈ added')
    (ns : List String) : insertNames ns added = insertNames ns added' := by
  have htable : insertAll (ofNames ns) (ofNames added) = insertAll (ofNames ns) (ofNames added') := by
    apply insertAll_congr
    intro name
    simp only [lastOf_ofNames, h name]
  rw [← names_ofNames (insertNames ns added), ofNames_insertNames, htable, ← ofNames_insertNames,
    names_ofNames]

end BrokerPolicy.OrderedTable
