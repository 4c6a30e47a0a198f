import Stencil.Entries
import Mathlib.Tactic
/-!
Entries with keys that are there, that are not, and that were put before. Pairs put one after another
leave each key at its first place with its last value.
-/

namespace Stencil.Entries

variable {α : Type}

theorem keys_append (es fs : Entries α) : keys (es ++ fs) = keys es ++ keys fs := by simp [keys]

theorem put_of_not_mem {key : String} {es : Entries α} (h : key ∉ keys es) (value : α) :
    es.put key value = es ++ [(key, value)] := by
  induction es with
  | nil => rfl
  | cons e es ih =>
    simp only [keys, List.map_cons, List.mem_cons, not_or] at h
    rw [put, if_neg (Ne.symm h.1), ih h.2]
    rfl

theorem put_put (key : String) (a b : α) (es : Entries α) : put key b (put key a es) = put key b es := by
  induction es with
  | nil => simp [put]
  | cons e es ih =>
    obtain ⟨k, v⟩ := e
    by_cases h : k = key
    · simp [put, h]
    · simp [put, h, ih]

theorem put_get? {key : String} {value : α} {es : Entries α} (h : es.get? key = some value) :
    put key value es = es := by
  induction es with
  | nil => simp at h
  | cons e es ih =>
    obtain ⟨k, v⟩ := e
    by_cases hk : k = key
    · obtain rfl : v = value := by simpa [get?, hk] using h
      simp [put, hk]
    · have hrest : get? key es = some value := by simpa [get?, hk] using h
      simp [put, hk, ih hrest]

theorem get?_eq_none_iff {key : String} {es : Entries α} : es.get? key = none ↔ key ∉ keys es := by
  induction es with
  | nil => simp [keys]
  | cons e es ih =>
    obtain ⟨k, v⟩ := e
    simp only [keys] at ih
    by_cases h : k = key
    · simp [get?, keys, h]
    · simp [get?, keys, h, ih, Ne.symm h]

theorem mem_of_get? {key : String} {value : α} {es : Entries α} (h : es.get? key = some value) :
    (key, value) ∈ es := by
  induction es with
  | nil => simp at h
  | cons e es ih =>
    obtain ⟨k, v⟩ := e
    by_cases hk : k = key
    · obtain rfl : v = value := by simpa [get?, hk] using h
      simp [hk]
    · have hrest : get? key es = some value := by simpa [get?, hk] using h
      exact List.mem_cons_of_mem _ (ih hrest)

theorem nodup_keys_put {key : String} {es : Entries α} (h : (keys es).Nodup) (value : α) :
    (keys (put key value es)).Nodup := by
  rw [keys_put]
  split
  · exact h
  · next hmem =>
    rw [List.nodup_append]
    refine ⟨h, by simp, ?_⟩
    rintro a ha b hb rfl
    exact hmem (by simpa [List.mem_singleton.1 hb] using ha)

theorem mem_put {key : String} {value : α} {es : Entries α} {e : String × α} (h : e ∈ put key value es) :
    e = (key, value) ∨ e ∈ es := by
  induction es with
  | nil => exact .inl (by simpa [put] using h)
  | cons f es ih =>
    obtain ⟨k, v⟩ := f
    by_cases hk : k = key
    · rw [put, if_pos hk, List.mem_cons] at h
      rcases h with rfl | h
      · exact .inl (by rw [hk])
      · exact .inr (List.mem_cons_of_mem _ h)
    · rw [put, if_neg hk, List.mem_cons] at h
      rcases h with rfl | h
      · exact .inr (by simp)
      · exact (ih h).imp_right (List.mem_cons_of_mem _)

theorem get?_filter (key other : String) (es : Entries α) :
    get? other (es.filter fun e ↦ e.1 != key) = if other = key then none else get? other es := by
  induction es with
  | nil => simp
  | cons e es ih =>
    obtain ⟨k, v⟩ := e
    by_cases hk : k = key
    · subst hk
      rw [List.filter_cons_of_neg (by simp), ih]
      by_cases ho : other = k
      · rw [if_pos ho, if_pos ho]
      · rw [if_neg ho, if_neg ho, get?, if_neg (Ne.symm ho)]
    · rw [List.filter_cons_of_pos (by simpa using hk), get?, get?, ih]
      by_cases ho : k = other
      · subst ho
        simp [hk]
      · rw [if_neg ho, if_neg ho]

def putAll (es : Entries α) (ps : List (String × α)) : Entries α := ps.foldl (fun es p ↦ put p.1 p.2 es) es

theorem putAll_cons (es : Entries α) (p : String × α) (ps : List (String × α)) :
    putAll es (p :: ps) = putAll (put p.1 p.2 es) ps := rfl

theorem ofPairs_eq (ps : List (String × α)) : ofPairs ps = putAll [] ps := rfl

theorem putAll_of_nodup {es ps : Entries α} (h : (keys (es ++ ps)).Nodup) : putAll es ps = es ++ ps := by
  induction ps generalizing es with
  | nil => simp [putAll]
  | cons p ps ih =>
    have hmem : p.1 ∉ keys es := by
      intro hmem
      rw [keys_append, List.nodup_append] at h
      exact h.2.2 p.1 hmem p.1 (by simp [keys]) rfl
    rw [putAll_cons, put_of_not_mem hmem, ih (by simpa using h)]
    simp

theorem ofPairs_of_nodup {es : Entries α} (h : (keys es).Nodup) : ofPairs es = es := putAll_of_nodup h

theorem keys_putAll (es : Entries α) (ps : List (String × α)) :
    keys (putAll es ps) = keys es ++ ((ps.map Prod.fst).filter (· ∉ keys es)).eraseDups := by
  induction ps generalizing es with
  | nil => simp [putAll]
  | cons p ps ih =>
    rw [putAll_cons, ih, keys_put, List.map_cons]
    by_cases hmem : p.1 ∈ keys es
    · simp [hmem]
    · rw [if_neg hmem, List.filter_cons_of_pos (by simpa using hmem), List.eraseDups_cons, List.filter_filter]
      have hfilter : (ps.map Prod.fst).filter (· ∉ keys es ++ [p.1]) =
          (ps.map Prod.fst).filter (fun k ↦ !k == p.1 && decide (k ∉ keys es)) := by
        apply List.filter_congr
        intro k _
        rw [Bool.eq_iff_iff]
        simp [and_comm]
      rw [hfilter]
      simp

theorem get?_putAll (key : String) (es : Entries α) (ps : List (String × α)) :
    get? key (putAll es ps) = (ps.reverse.lookup key).or (es.get? key) := by
  induction ps generalizing es with
  | nil => simp [putAll]
  | cons p ps ih =>
    obtain ⟨k, v⟩ := p
    have hlast : ([(k, v)].lookup key).or (es.get? key) = get? key (put k v es) := by
      by_cases hkey : key = k
      · rw [hkey, List.lookup_cons_self, Option.some_or, get?_put_self]
      · rw [List.lookup_cons, beq_eq_false_iff_ne.2 hkey, get?_put_of_ne (Ne.symm hkey)]
        rfl
    rw [putAll_cons, ih, ← hlast, List.reverse_cons, List.lookup_append, Option.or_assoc]

theorem ext_get? {es fs : Entries α} (hnodup : (keys es).Nodup) (hkeys : keys es = keys fs)
    (hget : ∀ key, es.get? key = fs.get? key) : es = fs := by
  induction es generalizing fs with
  | nil =>
    cases fs with
    | nil => rfl
    | cons f fs => simp [keys] at hkeys
  | cons e es ih =>
    cases fs with
    | nil => simp [keys] at hkeys
    | cons f fs =>
      obtain ⟨k, v⟩ := e
      obtain ⟨k', w⟩ := f
      obtain ⟨rfl, hrest⟩ : k = k' ∧ keys es = keys fs := by simpa [keys] using hkeys
      obtain ⟨hnot, hnodup⟩ : k ∉ keys es ∧ (keys es).Nodup := by simpa [keys] using hnodup
      have hv : v = w := by simpa [get?] using hget k
      rw [hv, ih hnodup hrest]
      intro key
      by_cases hkey : k = key
      · subst hkey
        rw [get?_eq_none_iff.2 hnot, get?_eq_none_iff.2 (hrest ▸ hnot)]
      · simpa [get?, hkey] using hget key

/-- Entries that hold what pairs say: each key where it first comes, with the value it comes with last. -/
structure Gathers (ps : List (String × α)) (es : Entries α) : Prop where
  keys : es.keys = (ps.map Prod.fst).eraseDups
  values : ∀ key, es.get? key = ps.reverse.lookup key

theorem gathers_ofPairs (ps : List (String × α)) : Gathers ps (ofPairs ps) where
  keys := by
    rw [ofPairs_eq, keys_putAll]
    simp [Entries.keys]
  values key := by simp [ofPairs_eq, get?_putAll]

theorem nodup_keys_putAll {es : Entries α} (h : (keys es).Nodup) (ps : List (String × α)) :
    (keys (putAll es ps)).Nodup := by
  induction ps generalizing es with
  | nil => exact h
  | cons p ps ih => exact ih (nodup_keys_put h p.2)

theorem nodup_keys_ofPairs (ps : List (String × α)) : (keys (ofPairs ps)).Nodup := by
  have hnil : (keys ([] : Entries α)).Nodup := List.nodup_nil
  rw [ofPairs_eq]
  exact nodup_keys_putAll hnil ps

theorem gathers_iff {ps : List (String × α)} {es : Entries α} : Gathers ps es ↔ es = ofPairs ps := by
  constructor
  · intro h
    have hpairs := gathers_ofPairs ps
    refine (ext_get? (nodup_keys_ofPairs ps) ?_ fun key ↦ ?_).symm
    · exact hpairs.keys.trans h.keys.symm
    · exact (hpairs.values key).trans (h.values key).symm
  · rintro rfl
    exact gathers_ofPairs ps

end Stencil.Entries
