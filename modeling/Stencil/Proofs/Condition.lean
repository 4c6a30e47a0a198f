import Stencil.Condition.Reading
import Stencil.Proofs.Attempt
/-!
What condition objects say, and which of them are conditions.

Reading an object flattens it: members that stand alone are not wrapped, an array's objects become
conjunctions, and a comparator is handed down to the fields. Here an entry is given its meaning
without any of that, straight from its key and value, and the condition that is read is shown to
hold exactly when the entries say so. An object is refused exactly when some entry in it, at any
depth, is flawed, and whatever is accepted could have been built from its leaves up.

Both rest on one lemma for each kind of key, which says what reading an entry gives in terms of what
reading the entries inside it gives.
-/

namespace Stencil

namespace Condition

variable {cmp own : Comparator} {key : String} {v : Json} {items : List Json} {es params : Entries Json}
  {c : Condition} {cs : List Condition} {order : Oracle} {m : Model}

/-! ### Lists related member by member -/

section

variable {α β : Type} {R : α → β → Prop} {P : α → Prop} {Q : β → Prop} {as : List α} {bs : List β}

theorem forall_iff_of_forall₂ (h : List.Forall₂ R as bs) (hiff : ∀ a ∈ as, ∀ b, R a b → (Q b ↔ P a)) :
    (∀ b ∈ bs, Q b) ↔ ∀ a ∈ as, P a := by
  induction h with
  | nil => simp
  | cons hab _ ih =>
    simp only [List.forall_mem_cons] at hiff ⊢
    rw [hiff.1 _ hab, ih hiff.2]

theorem exists_iff_of_forall₂ (h : List.Forall₂ R as bs) (hiff : ∀ a ∈ as, ∀ b, R a b → (Q b ↔ P a)) :
    (∃ b ∈ bs, Q b) ↔ ∃ a ∈ as, P a := by
  have hnone := forall_iff_of_forall₂ h fun a ha b hab ↦ not_congr (hiff a ha b hab)
  simpa using not_congr hnone

theorem forall_of_forall₂ (h : List.Forall₂ R as bs) (hq : ∀ a ∈ as, ∀ b, R a b → Q b) : ∀ b ∈ bs, Q b :=
  (forall_iff_of_forall₂ h fun a ha b hab ↦ iff_true_intro (hq a ha b hab)).2 fun _ _ ↦ trivial

theorem exists_forall₂_iff : (∃ bs, List.Forall₂ R as bs) ↔ ∀ a ∈ as, ∃ b, R a b := by
  induction as with
  | nil => simp
  | cons a as ih => simp [List.forall₂_cons_left_iff, ← ih]

end

/-! ### Entries and their members -/

/-- The members that a value joins: each entry of an object, or all entries of each object of an
array. -/
def members : Json → List (Entries Json)
  | .obj es => es.map fun e ↦ [e]
  | .arr items => items.filterMap Json.obj?
  | _ => []

theorem forall_mem_members_obj {P : String × Json → Prop} :
    (∀ fs ∈ members (.obj es), ∀ e ∈ fs, P e) ↔ ∀ e ∈ es, P e := by
  simp only [members, List.forall_mem_map, List.mem_singleton, forall_eq]

def IsGroup : Json → Prop
  | .obj _ => True
  | .arr items => ∀ i ∈ items, ∃ es, i = .obj es
  | _ => False

def IsJoin (key : String) : Prop := key ∈ ["and", "or", "not"]

def IsOrder (key : String) : Prop := key ∈ ["less", "greater"]

def IsField (key : String) : Prop := ¬ IsJoin key ∧ ¬ IsOrder key

theorem sizeOf_lt_of_mem_members {e : String × Json} (hes : es ∈ members v) (he : e ∈ es) :
    sizeOf e.2 < sizeOf v := by
  have hentry : sizeOf e.2 < sizeOf e := by cases e; simp +arith
  cases v with
  | obj all =>
    obtain ⟨f, hf, rfl⟩ := List.mem_map.1 hes
    obtain rfl := List.mem_singleton.1 he
    have := List.sizeOf_lt_of_mem hf
    simp only [Json.obj.sizeOf_spec]
    omega
  | arr items =>
    obtain ⟨i, hi, hobj⟩ := List.mem_filterMap.1 hes
    cases i with
    | obj all =>
      obtain rfl := Option.some.inj hobj
      have h1 := List.sizeOf_lt_of_mem hi
      have h2 := List.sizeOf_lt_of_mem he
      simp only [Json.obj.sizeOf_spec, Json.arr.sizeOf_spec] at h1 ⊢
      omega
    | _ => cases hobj
  | _ => cases hes

/-- What holds of an entry once it holds of the entries inside it holds of every entry. -/
theorem entry_induction {P : String → Json → Prop}
    (step : ∀ key v, (∀ es ∈ members v, ∀ e ∈ es, P e.1 e.2) → P key v) (key : String) (v : Json) : P key v :=
  step key v fun _ hes e he ↦
    have := sizeOf_lt_of_mem_members hes he
    entry_induction step e.1 e.2
termination_by sizeOf v

/-! ### Keys -/

theorem IsJoin.not_isOrder (h : IsJoin key) : ¬ IsOrder key := by
  simp only [IsJoin, List.mem_cons, List.not_mem_nil, or_false] at h
  obtain rfl | rfl | rfl := h <;> simp [IsOrder]

theorem ofText_eq_field : Key.ofText key = .field ↔ IsField key := by
  unfold Key.ofText IsField IsJoin IsOrder
  split_ifs <;> simp_all

theorem ofText_eq_group {join : List Condition → Condition} (h : Key.ofText key = .group join) :
    (key = "and" ∧ join = all) ∨ (key = "or" ∧ join = any) ∨
      (key = "not" ∧ join = fun cs ↦ not (conjunction cs)) := by
  unfold Key.ofText at h
  split_ifs at h <;> simp_all

theorem isJoin_of_ofText {join : List Condition → Condition} (h : Key.ofText key = .group join) : IsJoin key := by
  obtain ⟨rfl, -⟩ | ⟨rfl, -⟩ | ⟨rfl, -⟩ := ofText_eq_group h <;> simp [IsJoin]

theorem ofText_eq_order (h : Key.ofText key = .order cmp) :
    (key = "less" ∧ cmp = .less) ∨ (key = "greater" ∧ cmp = .greater) := by
  unfold Key.ofText at h
  split_ifs at h <;> simp_all

theorem isOrder_of_ofText (h : Key.ofText key = .order cmp) : IsOrder key := by
  obtain ⟨rfl, -⟩ | ⟨rfl, -⟩ := ofText_eq_order h <;> simp [IsOrder]

/-! ### What reading gives -/

def Reads (cmp : Comparator) (e : String × Json) (c : Condition) : Prop := readEntry cmp e.1 e.2 = .ok c

def Conjoins (es : Entries Json) (c : Condition) : Prop :=
  ∃ cs, List.Forall₂ (Reads .equal) es cs ∧ conjunction cs = c

theorem readEntries_eq_ok : readEntries cmp es = .ok cs ↔ List.Forall₂ (Reads cmp) es cs := by
  induction es generalizing cs with
  | nil => simp [readEntries, eq_comm]
  | cons e es ih =>
    simp only [readEntries, except_bind_eq_ok, ih, List.forall₂_cons_left_iff, Except.ok.injEq]
    constructor
    · rintro ⟨c, hc, cs, hcs, rfl⟩
      exact ⟨c, cs, hc, hcs, rfl⟩
    · rintro ⟨c, cs, hc, hcs, rfl⟩
      exact ⟨c, hc, cs, hcs, rfl⟩

theorem readComparisons_eq_ok : readComparisons key cmp es = .ok cs ↔
    List.Forall₂ (fun e c ↦ IsField e.1 ∧ Reads cmp e c) es cs := by
  induction es generalizing cs with
  | nil => simp [readComparisons, eq_comm]
  | cons e es ih =>
    rw [readComparisons, List.forall₂_cons_left_iff]
    split
    · next hfield =>
      simp only [except_bind_eq_ok, ih, ofText_eq_field.1 hfield, true_and, Except.ok.injEq]
      constructor
      · rintro ⟨c, hc, cs, hcs, rfl⟩
        exact ⟨c, cs, hc, hcs, rfl⟩
      · rintro ⟨c, cs, hc, hcs, rfl⟩
        exact ⟨c, hc, cs, hcs, rfl⟩
    · next hfield =>
      have hnot : ¬ IsField e.1 := fun h ↦ hfield (ofText_eq_field.2 h)
      simp [hnot]

theorem readMembers_eq_ok : readMembers key items = .ok cs ↔
    (∀ i ∈ items, ∃ es, i = .obj es) ∧ List.Forall₂ Conjoins (items.filterMap Json.obj?) cs := by
  induction items generalizing cs with
  | nil => simp [readMembers, eq_comm]
  | cons i items ih =>
    cases i with
    | obj es =>
      simp only [readMembers, except_bind_eq_ok, readEntries_eq_ok, ih, Except.ok.injEq, List.mem_cons,
        forall_eq_or_imp, Json.obj.injEq, exists_eq', true_and, Json.obj?, List.filterMap_cons,
        List.forall₂_cons_left_iff]
      constructor
      · rintro ⟨ds, hds, cs, ⟨hall, hcs⟩, rfl⟩
        exact ⟨hall, _, cs, ⟨ds, hds, rfl⟩, hcs, rfl⟩
      · rintro ⟨hall, _, cs, ⟨ds, hds, rfl⟩, hcs, rfl⟩
        exact ⟨ds, hds, cs, ⟨hall, hcs⟩, rfl⟩
    | _ => simp [readMembers]

theorem reads_group {join : List Condition → Condition} (hkey : Key.ofText key = .group join) :
    Reads cmp (key, v) c ↔ IsGroup v ∧ ∃ cs, List.Forall₂ Conjoins (members v) cs ∧ join cs = c := by
  have hsingle (e : String × Json) (c : Condition) : Conjoins [e] c ↔ Reads .equal e c := by
    simp [Conjoins, List.forall₂_cons_left_iff, conjunction]
  cases v with
  | obj es =>
    simp only [Reads, readEntry, hkey, except_map_eq_ok, readEntries_eq_ok, IsGroup, members, true_and,
      List.forall₂_map_left_iff, hsingle]
    rfl
  | arr items => simp [Reads, readEntry, hkey, except_map_eq_ok, readMembers_eq_ok, IsGroup, members, and_assoc]
  | _ => simp [Reads, readEntry, hkey, IsGroup]

theorem reads_order (hkey : Key.ofText key = .order own) : Reads cmp (key, v) c ↔
    ∃ es, v = .obj es ∧ ∃ cs, List.Forall₂ (fun e c ↦ IsField e.1 ∧ Reads own e c) es cs ∧ conjunction cs = c := by
  cases v <;> simp [Reads, readEntry, hkey, except_map_eq_ok, readComparisons_eq_ok]

/-- A field is read as a comparison, unless it is mapped to an object that has entries. -/
theorem reads_field (hkey : IsField key) : Reads cmp (key, v) c ↔
    v.obj?.getD [] = [] ∧ ∃ f, Field.parse key = .ok f ∧ compare ⟨f, Datum.ofJson v, cmp⟩ = c := by
  have hleaf (literal : Datum) : ofComparison key literal cmp [] = .ok c ↔
      ∃ f, Field.parse key = .ok f ∧ compare ⟨f, literal, cmp⟩ = c := by
    cases hf : Field.parse key <;> simp [ofComparison, hf]
  have hfield := ofText_eq_field.2 hkey
  cases v with
  | obj es =>
    cases es with
    | nil => simp [Reads, readEntry, hfield, readEntries, Except.bind, Json.obj?, hleaf]
    | cons e es =>
      -- the entries give conditions, and those would be nested in the comparison
      suffices ¬ Reads cmp (key, .obj (e :: es)) c by simpa [Json.obj?]
      simp only [Reads, readEntry, hfield]
      intro h
      obtain ⟨cs, hcs, h⟩ := except_bind_eq_ok.1 h
      obtain ⟨c, ds, -, -, rfl⟩ := List.forall₂_cons_left_iff.1 (readEntries_eq_ok.1 hcs)
      simp [ofComparison] at h
  | _ => simp [Reads, readEntry, hfield, Json.obj?, hleaf]

theorem ofParams_eq_ok : ofParams params = .ok c ↔ Conjoins params c := by
  simp [ofParams, except_map_eq_ok, readEntries_eq_ok, Conjoins]

/-! ### What entries say -/

/-- Whether a value stands in an order to a literal. Nothing and `null` equal a literal `null`, an
empty list equals an empty list, and single values have their order; nothing else has one. -/
def Compares (o : Ordering) : Datum → Option Datum → Prop
  | .leaf .null, value? => o = .eq ∧ (value? = none ∨ value? = some .null)
  | .list [], value? => o = .eq ∧ value? = some (.list [])
  | .leaf b, some (.leaf a) => a.compare? b = some o
  | _, _ => False

def FieldStands (m : Model) (o : Ordering) (field : String) (literal : Json) : Prop :=
  ∃ f, Field.parse field = .ok f ∧ Compares o (Datum.ofJson literal) (m.resolve f.path)

/-- Whether what an entry says is so: of the members of `and` every one, of `or` some one, of `not`
not every one; of the fields in `less` and `greater` each against its literal; and of any other key
that the field equals its literal. -/
def Says (m : Model) (key : String) (v : Json) : Prop :=
  if key = "and" then ∀ es ∈ members v, ∀ e ∈ es, Says m e.1 e.2
  else if key = "or" then ∃ es, ∃ _ : es ∈ members v, ∀ e ∈ es, Says m e.1 e.2
  else if key = "not" then ¬ ∀ es ∈ members v, ∀ e ∈ es, Says m e.1 e.2
  else if key = "less" then ∀ e ∈ v.obj?.getD [], FieldStands m .lt e.1 e.2
  else if key = "greater" then ∀ e ∈ v.obj?.getD [], FieldStands m .gt e.1 e.2
  else FieldStands m .eq key v
termination_by sizeOf v
decreasing_by all_goals exact sizeOf_lt_of_mem_members ‹_› ‹_›

theorem orderAgainst_eq_some {literal : Datum} {value? : Option Datum} {o : Ordering} :
    orderAgainst literal value? = some o ↔ Compares o literal value? := by
  have hnull (a : Scalar) : a.compare? .null = some o ↔ o = .eq ∧ a = .null := by
    cases a <;> simp [Scalar.compare?, Scalar.float?, eq_comm]
  cases literal with
  | leaf b => rcases value? with _ | (_ | _ | _) <;> cases b <;>
      simp [orderAgainst, Compares, Datum.isNull, Datum.null, hnull, eq_comm]
  | list xs => rcases value? with _ | (_ | _ | _) <;> cases xs <;>
      simp [orderAgainst, Compares, Datum.isNull, and_comm, @eq_comm _ Ordering.eq]
  | map es => cases value? <;> simp [orderAgainst, Compares, Datum.isNull]

theorem accepts_iff {f : Field} : accepts (orderIn m) ⟨f, Datum.ofJson v, cmp⟩ = true ↔
    Compares cmp.ordering (Datum.ofJson v) (m.resolve f.path) := by
  simp [accepts, orderIn, orderAgainst_eq_some]

theorem allHold_iff : allHold order cs = true ↔ ∀ c ∈ cs, holds order c = true := by
  induction cs <;> simp_all [allHold]

theorem anyHolds_iff : anyHolds order cs = true ↔ ∃ c ∈ cs, holds order c = true := by
  induction cs <;> simp_all [anyHolds]

theorem holds_conjunction : holds order (conjunction cs) = true ↔ ∀ c ∈ cs, holds order c = true := by
  unfold conjunction
  split
  · simp
  · rw [holds, allHold_iff]

/-- Joined members hold as their key says, when each of them holds as its entries say. -/
theorem says_group {join : List Condition → Condition} (hkey : Key.ofText key = .group join)
    (hcs : List.Forall₂ Conjoins (members v) cs)
    (h : ∀ es ∈ members v, ∀ c, Conjoins es c → (holds order c = true ↔ ∀ e ∈ es, Says m e.1 e.2)) :
    holds order (join cs) = true ↔ Says m key v := by
  rw [Says]
  obtain ⟨rfl, rfl⟩ | ⟨rfl, rfl⟩ | ⟨rfl, rfl⟩ := ofText_eq_group hkey
  · simpa [holds, allHold_iff] using forall_iff_of_forall₂ hcs h
  · simpa [holds, anyHolds_iff] using exists_iff_of_forall₂ hcs h
  · have hall : holds order (conjunction cs) = true ↔ ∀ es ∈ members v, ∀ e ∈ es, Says m e.1 e.2 :=
      holds_conjunction.trans (forall_iff_of_forall₂ hcs h)
    simpa [holds] using not_congr hall

theorem says_order (hkey : Key.ofText key = .order cmp) :
    Says m key (.obj es) ↔ ∀ e ∈ es, FieldStands m cmp.ordering e.1 e.2 := by
  rw [Says]
  obtain ⟨rfl, rfl⟩ | ⟨rfl, rfl⟩ := ofText_eq_order hkey <;> simp [Comparator.ordering, Json.obj?]

theorem says_field (hkey : IsField key) : Says m key v ↔ FieldStands m .eq key v := by
  rw [Says]
  simp only [IsField, IsJoin, IsOrder, List.mem_cons, List.not_mem_nil, or_false, not_or] at hkey
  simp [hkey]

theorem holds_field (hkey : IsField key) (h : Reads cmp (key, v) c) :
    holds (orderIn m) c = true ↔ FieldStands m cmp.ordering key v := by
  obtain ⟨-, f, hf, rfl⟩ := (reads_field hkey).1 h
  simp [holds, accepts_iff, FieldStands, hf]

theorem holds_conjoined (hes : Conjoins es c)
    (h : ∀ e ∈ es, ∀ c, Reads .equal e c → (holds order c = true ↔ Says m e.1 e.2)) :
    holds order c = true ↔ ∀ e ∈ es, Says m e.1 e.2 := by
  obtain ⟨cs, hcs, rfl⟩ := hes
  exact holds_conjunction.trans (forall_iff_of_forall₂ hcs h)

theorem holds_read (h : Reads .equal (key, v) c) : holds (orderIn m) c = true ↔ Says m key v := by
  induction key, v using entry_induction generalizing c with
  | step key v ih =>
    cases hkey : Key.ofText key with
    | group join =>
      obtain ⟨-, cs, hcs, rfl⟩ := (reads_group hkey).1 h
      exact says_group hkey hcs fun es hes c hc ↦ holds_conjoined hc fun e he _ he' ↦ ih es hes e he he'
    | order own =>
      obtain ⟨es, rfl, cs, hcs, rfl⟩ := (reads_order hkey).1 h
      rw [says_order hkey, holds_conjunction]
      exact forall_iff_of_forall₂ hcs fun e _ c ⟨hfield, hc⟩ ↦ holds_field hfield hc
    | field =>
      have hfield := ofText_eq_field.1 hkey
      rw [says_field hfield]
      exact holds_field hfield h

/-- Conditions mean what their objects say: wherever the values are read from, what an object is
read as holds exactly when each of its entries says what is so. -/
theorem holds_ofParams_iff (h : ofParams params = .ok c) (m : Model) :
    c.holds (orderIn m) = true ↔ ∀ e ∈ params, Says m e.1 e.2 :=
  holds_conjoined (ofParams_eq_ok.1 h) fun _ _ _ ↦ holds_read

def shop : Model :=
  .ofData (.map [("item", .map [("name", .leaf (.str "Lamp")), ("stock", .leaf (.int 3))]), ("price", .leaf (.int 12))])

def offered : Entries Json :=
  [("item.stock", .int 3), ("not", .obj [("item.stock", .int 0), ("price", .int 12)]),
    ("or", .arr [.obj [("price", .int 0)], .obj [("discount", .null), ("greater", .obj [("price", .int 10)])]]),
    ("less", .obj [("price", .int 20), ("item.stock", .int 4)])]

theorem holds_ofParams_iff_offered : ∃ c, ofParams offered = .ok c ∧ c.holds (orderIn shop) = true ∧
    ∀ e ∈ offered, Says shop e.1 e.2 := by
  have hread : (ofParams offered).map (holds (orderIn shop)) = .ok true := by rfl
  obtain ⟨c, hc, hholds⟩ := except_map_eq_ok.1 hread
  exact ⟨c, hc, hholds, (holds_ofParams_iff hc shop).1 hholds⟩

/-! ### Which objects are refused -/

/-- What is wrong with an entry, whatever the entries inside it are. -/
inductive Flawed : String × Json → Prop
  | noGroup {key : String} {v : Json} : IsJoin key → ¬ IsGroup v → Flawed (key, v)
  | noObject {key : String} {v : Json} : IsOrder key → v.obj? = none → Flawed (key, v)
  | noField {key : String} {es : Entries Json} {e : String × Json} :
    IsOrder key → e ∈ es → ¬ IsField e.1 → Flawed (key, .obj es)
  | noPath {key : String} {v : Json} {x : PathError} : IsField key → Field.parse key = .error x → Flawed (key, v)
  | nested {key : String} {es : Entries Json} : IsField key → es ≠ [] → Flawed (key, .obj es)

/-- Whether an entry stands directly inside another. A field has none inside: what it is mapped to
is its literal. -/
def Inside (outer e : String × Json) : Prop := ¬ IsField outer.1 ∧ ∃ es ∈ members outer.2, e ∈ es

def Faulty (e : String × Json) : Prop := ∃ f, Relation.ReflTransGen Inside e f ∧ Flawed f

theorem faulty_iff {e : String × Json} : Faulty e ↔ Flawed e ∨ ∃ f, Inside e f ∧ Faulty f := by
  constructor
  · rintro ⟨f, hf, hflawed⟩
    obtain rfl | ⟨g, hg, hgf⟩ := hf.cases_head
    · exact .inl hflawed
    · exact .inr ⟨g, hg, f, hgf, hflawed⟩
  · rintro (h | ⟨f, hf, g, hg, hflawed⟩)
    · exact ⟨e, .refl, h⟩
    · exact ⟨g, hg.head hf, hflawed⟩

theorem flawed_join (hkey : IsJoin key) : Flawed (key, v) ↔ ¬ IsGroup v := by
  refine ⟨fun h ↦ ?_, .noGroup hkey⟩
  cases h with
  | noGroup _ h => exact h
  | noObject h | noField h => exact absurd h hkey.not_isOrder
  | noPath h | nested h => exact absurd hkey h.1

theorem flawed_order (hkey : IsOrder key) : Flawed (key, v) ↔ ¬ ∃ es, v = .obj es ∧ ∀ e ∈ es, IsField e.1 := by
  constructor
  · rintro h ⟨es, rfl, hes⟩
    cases h with
    | noGroup h => exact h.not_isOrder hkey
    | noObject _ h => simp [Json.obj?] at h
    | noField _ he h => exact h (hes _ he)
    | noPath h | nested h => exact h.2 hkey
  · intro h
    cases v with
    | obj es =>
      simp only [Json.obj.injEq, exists_eq_left', not_forall] at h
      obtain ⟨e, he, hfield⟩ := h
      exact .noField hkey he hfield
    | _ => exact .noObject hkey rfl

theorem flawed_field (hkey : IsField key) :
    Flawed (key, v) ↔ ¬ (v.obj?.getD [] = [] ∧ ∃ f, Field.parse key = .ok f) := by
  constructor
  · rintro h ⟨hv, f, hf⟩
    cases h with
    | noGroup h => exact hkey.1 h
    | noObject h | noField h => exact hkey.2 h
    | noPath _ h => simp [hf] at h
    | nested _ h => exact h (by simpa [Json.obj?] using hv)
  · intro h
    cases hf : Field.parse key with
    | error x => exact .noPath hkey hf
    | ok f =>
      cases v with
      | obj es => exact .nested hkey (by simpa [Json.obj?, hf] using h)
      | _ => simp [Json.obj?, hf] at h

theorem exists_conjoins : (∃ c, Conjoins es c) ↔ ∀ e ∈ es, ∃ c, Reads .equal e c := by
  simp only [Conjoins, ← exists_forall₂_iff]
  tauto

theorem exists_reads_group {join : List Condition → Condition} (hkey : Key.ofText key = .group join) :
    (∃ c, Reads cmp (key, v) c) ↔ IsGroup v ∧ ∀ es ∈ members v, ∀ e ∈ es, ∃ c, Reads .equal e c := by
  have hmembers : (∃ cs, List.Forall₂ Conjoins (members v) cs) ↔ ∀ es ∈ members v, ∀ e ∈ es, ∃ c, Reads .equal e c := by
    simp only [exists_forall₂_iff, exists_conjoins]
  simp only [reads_group hkey, ← hmembers]
  tauto

theorem exists_reads_order (hkey : Key.ofText key = .order own) : (∃ c, Reads cmp (key, v) c) ↔
    ∃ es, v = .obj es ∧ (∀ e ∈ es, IsField e.1) ∧ ∀ e ∈ es, ∃ c, Reads own e c := by
  have hfields (es : Entries Json) : (∃ cs, List.Forall₂ (fun e c ↦ IsField e.1 ∧ Reads own e c) es cs) ↔
      (∀ e ∈ es, IsField e.1) ∧ ∀ e ∈ es, ∃ c, Reads own e c := by
    simp only [exists_forall₂_iff, exists_and_left, forall₂_and]
  simp only [reads_order hkey, ← hfields]
  tauto

theorem no_faulty_inside (hkey : ¬ IsField key) : (¬ ∃ f, Inside (key, v) f ∧ Faulty f) ↔
    ∀ es ∈ members v, ∀ e ∈ es, ¬ Faulty e :=
  ⟨fun h es hes e he hfaulty ↦ h ⟨e, ⟨hkey, es, hes, he⟩, hfaulty⟩,
    fun h ⟨e, ⟨_, es, hes, he⟩, hfaulty⟩ ↦ h es hes e he hfaulty⟩

theorem reads_iff_not_faulty : (∃ c, Reads cmp (key, v) c) ↔ ¬ Faulty (key, v) := by
  induction key, v using entry_induction generalizing cmp with
  | step key v ih =>
    rw [faulty_iff, not_or]
    cases hkey : Key.ofText key with
    | group join =>
      have hjoin := isJoin_of_ofText hkey
      rw [exists_reads_group hkey, flawed_join hjoin, not_not, no_faulty_inside fun h ↦ h.1 hjoin]
      exact and_congr_right fun _ ↦ forall₂_congr fun es hes ↦ forall₂_congr fun e he ↦ ih es hes e he
    | order own =>
      have horder := isOrder_of_ofText hkey
      rw [exists_reads_order hkey, flawed_order horder, not_not, no_faulty_inside fun h ↦ h.2 horder]
      cases v with
      | obj es =>
        have hinside : (∀ e ∈ es, ∃ c, Reads own e c) ↔ ∀ e ∈ es, ¬ Faulty e :=
          forall₂_congr fun e he ↦ forall_mem_members_obj.1 ih e he
        simp only [Json.obj.injEq, exists_eq_left', forall_mem_members_obj, hinside]
      | _ => simp
    | field =>
      have hfield := ofText_eq_field.1 hkey
      have hinside : ¬ ∃ f, Inside (key, v) f ∧ Faulty f := fun ⟨_, h, _⟩ ↦ h.1 hfield
      simp [reads_field hfield, flawed_field hfield, hinside]

theorem exists_error_iff : (∃ x, ofParams params = .error x) ↔ ∃ e ∈ params, Faulty e := by
  have hok : (∃ c, ofParams params = .ok c) ↔ ∀ e ∈ params, ¬ Faulty e := by
    simp only [ofParams_eq_ok, exists_conjoins]
    exact forall₂_congr fun e _ ↦ reads_iff_not_faulty
  cases h : ofParams params with
  | ok c => simpa using hok.1 ⟨c, h⟩
  | error x => simpa [h] using hok

/-- A condition that was built from its leaves up, each part passing the checks of its kind: a
comparison of a field that can be read joins nothing, a negation has one member. -/
inductive Built : Condition → Prop
  | comparison {field : String} {literal : Datum} {comparator : Comparator} {c : Condition} :
    ofComparison field literal comparator [] = .ok c → Built c
  | all {cs : List Condition} : (∀ c ∈ cs, Built c) → Built (all cs)
  | any {cs : List Condition} : (∀ c ∈ cs, Built c) → Built (any cs)
  | negated {c d : Condition} : Built c → ofNegated [c] = .ok d → Built d

theorem built_conjunction (h : ∀ c ∈ cs, Built c) : Built (conjunction cs) := by
  unfold conjunction
  split
  · exact h _ (List.mem_singleton_self _)
  · exact .all h

theorem built_conjoined (hes : Conjoins es c) (h : ∀ e ∈ es, ∀ c, Reads .equal e c → Built c) : Built c := by
  obtain ⟨cs, hcs, rfl⟩ := hes
  exact built_conjunction (forall_of_forall₂ hcs h)

theorem built_read (h : Reads cmp (key, v) c) : Built c := by
  induction key, v using entry_induction generalizing cmp c with
  | step key v ih =>
    cases hkey : Key.ofText key with
    | group join =>
      obtain ⟨-, cs, hcs, rfl⟩ := (reads_group hkey).1 h
      have hall : ∀ c ∈ cs, Built c :=
        forall_of_forall₂ hcs fun es hes c hc ↦ built_conjoined hc fun e he _ he' ↦ ih es hes e he he'
      obtain ⟨-, rfl⟩ | ⟨-, rfl⟩ | ⟨-, rfl⟩ := ofText_eq_group hkey
      · exact .all hall
      · exact .any hall
      · exact .negated (built_conjunction hall) rfl
    | order own =>
      obtain ⟨es, rfl, cs, hcs, rfl⟩ := (reads_order hkey).1 h
      exact built_conjunction (forall_of_forall₂ hcs fun e he c hc ↦ forall_mem_members_obj.1 ih e he hc.2)
    | field =>
      obtain ⟨-, f, hf, rfl⟩ := (reads_field (ofText_eq_field.1 hkey)).1 h
      have hof : ofComparison key (Datum.ofJson v) cmp [] = .ok (compare ⟨f, Datum.ofJson v, cmp⟩) := by
        simp [ofComparison, hf]
      exact .comparison hof

/-- Exactly the objects without flaws are accepted: an object is refused exactly when an entry in it
is flawed at some depth, and what is accepted could have been built from its leaves up. -/
theorem refused_iff_faulty (params : Entries Json) :
    ((∃ x, ofParams params = .error x) ↔ ∃ e ∈ params, Faulty e) ∧ ∀ c, ofParams params = .ok c → Built c :=
  ⟨exists_error_iff, fun _ h ↦ built_conjoined (ofParams_eq_ok.1 h) fun _ _ _ ↦ built_read⟩

theorem refused_iff_faulty_object : (∃ e ∈ [("name", Json.obj [("first", .str "Ada")])], Faulty e) ∧
    ∃ c, ofParams [("name", .obj [])] = .ok c ∧ Built c := by
  refine ⟨(refused_iff_faulty _).1.1 ⟨⟨"name", .nested⟩, rfl⟩, ?_⟩
  have hread : (ofParams [("name", .obj [])]).toBool = true := by rfl
  obtain ⟨c, hc⟩ := except_toBool.1 hread
  exact ⟨c, hc, (refused_iff_faulty _).2 c hc⟩

end Condition

end Stencil
