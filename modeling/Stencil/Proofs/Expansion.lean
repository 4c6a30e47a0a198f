import Stencil.Run.Selection
import Stencil.Proofs.Attempt
import Stencil.Proofs.Entries
/-!
Aliases for commands with all their parameters. Expansion keeps what a placeholder spells and puts behind it
the first default of each name that is missing, so defaults of one name under different marks rule each other
out. What a value comes from changes with the expansion only where a default of the very key is put.
-/

namespace Stencil

namespace Entries

theorem get?_append {α : Type} (key : String) (es fs : Entries α) :
    get? key (es ++ fs) = (get? key es).or (get? key fs) := by
  induction es with
  | nil => rfl
  | cons e es ih =>
    obtain ⟨k, v⟩ := e
    by_cases hk : k = key
    · simp [get?, hk]
    · simpa [get?, hk] using ih

theorem has_iff {α : Type} {key : String} {es : Entries α} : has key es = true ↔ key ∈ keys es := by
  rw [← not_iff_not, ← get?_eq_none_iff, has, Option.not_isSome_iff_eq_none]

end Entries

/-! ### Marks -/

def pureName (s : String) : String := (splitMark s).2

def Unmarked (s : String) : Prop := (splitMark s).1 = ""

theorem pureName_marked {c : Char} (h : Payload.isMark c = true) (s : String) :
    pureName (String.singleton c ++ s) = s := by
  have htext : (String.singleton c ++ s).toList = c :: s.toList := by simp
  rw [pureName, splitMark, htext]
  simp only [h, if_true, String.ofList_toList]

theorem pureName_dollar (s : String) : pureName ("$" ++ s) = s := pureName_marked (c := '$') rfl s

theorem pureName_at (s : String) : pureName ("@" ++ s) = s := pureName_marked (c := '@') rfl s

theorem Unmarked.pureName {s : String} (h : Unmarked s) : pureName s = s := by
  rw [Unmarked, splitMark] at h
  rw [Stencil.pureName, splitMark]
  split at h
  · next c cs _ =>
    split at h
    · have hlen := congrArg String.length h
      simp at hlen
    · next hmark => rw [if_neg hmark]
  · rfl

def pureNames (es : Entries Json) : List String := es.map fun p ↦ pureName p.1

theorem pureName_mem {es : Entries Json} {key : String} (h : key ∈ es.keys) : pureName key ∈ pureNames es := by
  obtain ⟨p, hp, rfl⟩ := List.mem_map.1 h
  exact List.mem_map_of_mem hp

theorem nodup_keys_of_pureNames {es : Entries Json} (h : (pureNames es).Nodup) : es.keys.Nodup := by
  rw [pureNames, List.nodup_iff_pairwise_ne, List.pairwise_map] at h
  rw [Entries.keys, List.nodup_iff_pairwise_ne, List.pairwise_map]
  exact h.imp fun hne heq ↦ hne (congrArg pureName heq)

/-! ### Defaults -/

namespace Alias

theorem isSpelled_iff {es : Entries Json} {s : String} : isSpelled es s = true ↔ pureName s ∈ pureNames es := by
  simp only [isSpelled, List.any_eq_true, beq_iff_eq, pureNames, List.mem_map, pureName]

theorem supply_eq (es : Entries Json) (d : String × Json) :
    supply es d = if pureName d.1 ∈ pureNames es then es else es ++ [d] := by
  rw [supply]
  by_cases h : pureName d.1 ∈ pureNames es
  · rw [if_pos (isSpelled_iff.2 h), if_pos h]
  · rw [if_neg fun hs ↦ h (isSpelled_iff.1 hs), if_neg h]
    exact Entries.put_of_not_mem (fun hkey ↦ h (pureName_mem hkey)) d.2

/-- The first default of each name that is not taken. -/
def supplied (taken : List String) : Entries Json → Entries Json
  | [] => []
  | d :: ds => if pureName d.1 ∈ taken then supplied taken ds else d :: supplied (taken ++ [pureName d.1]) ds

theorem foldl_supply (ds es : Entries Json) : ds.foldl supply es = es ++ supplied (pureNames es) ds := by
  induction ds generalizing es with
  | nil => simp [supplied]
  | cons d ds ih =>
    rw [List.foldl_cons, ih, supply_eq, supplied]
    split
    · rfl
    · simp [pureNames]

theorem supplied_sublist (taken : List String) (ds : Entries Json) : (supplied taken ds).Sublist ds := by
  induction ds generalizing taken with
  | nil => exact .slnil
  | cons d ds ih =>
    rw [supplied]
    split
    · exact (ih taken).cons d
    · exact (ih _).cons_cons d

theorem pureName_of_supplied {taken : List String} {ds : Entries Json} :
    ∀ d ∈ supplied taken ds, pureName d.1 ∉ taken := by
  induction ds generalizing taken with
  | nil => simp [supplied]
  | cons d ds ih =>
    intro x hx
    rw [supplied] at hx
    split at hx
    · exact ih x hx
    · next hd =>
      rcases List.mem_cons.1 hx with rfl | hx
      · exact hd
      · intro htaken
        exact ih x hx (List.mem_append_left _ htaken)

theorem supplied_eq_self_iff {taken : List String} {ds : Entries Json} :
    supplied taken ds = ds ↔ (pureNames ds).Nodup ∧ ∀ d ∈ ds, pureName d.1 ∉ taken := by
  constructor
  · intro h
    have htaken : ∀ d ∈ ds, pureName d.1 ∉ taken := fun d hd ↦ pureName_of_supplied d (h ▸ hd)
    refine ⟨?_, htaken⟩
    clear htaken
    induction ds generalizing taken with
    | nil => exact List.nodup_nil
    | cons d ds ih =>
      rw [supplied] at h
      split at h
      · have hlen := (supplied_sublist taken ds).length_le
        rw [h, List.length_cons] at hlen
        omega
      · have hrest := (List.cons.inj h).2
        refine List.nodup_cons.2 ⟨fun hmem ↦ ?_, ih hrest⟩
        obtain ⟨x, hx, hname⟩ := List.mem_map.1 hmem
        apply pureName_of_supplied x (hrest ▸ hx)
        rw [hname]
        exact List.mem_append_right _ (List.mem_singleton.2 rfl)
  · rintro ⟨hnodup, htaken⟩
    induction ds generalizing taken with
    | nil => rfl
    | cons d ds ih =>
      obtain ⟨hd, hnodup⟩ := List.nodup_cons.1 hnodup
      rw [supplied, if_neg (htaken d (List.mem_cons_self ..)), ih hnodup]
      intro x hx hmem
      rcases List.mem_append.1 hmem with hmem | hmem
      · exact htaken x (List.mem_cons_of_mem _ hx) hmem
      · exact hd (List.mem_map.2 ⟨x, hx, List.mem_singleton.1 hmem⟩)

theorem params_ofCommand {key : String} {c : Command} {given : Entries Json} (h : given.keys.Nodup) :
    (ofCommand key c).params given = given ++ supplied (pureNames given) c.params := by
  have hrename : (given.map fun p ↦ ((ofCommand key c).rename p.1, p.2)) = given := by
    simp [rename, ofCommand]
  rw [params, hrename, Entries.ofPairs_of_nodup h, ofCommand, foldl_supply]

end Alias

theorem Aliases.expand_define (as : Aliases) (a : Alias) {c : Command} (h : c.name = a.key) :
    (as.define a).expand c = a.apply c := by
  rw [expand, define, h, Entries.get?_put_self]

/-! ### Values -/

namespace Command

def Spells (c : Command) (key : String) : Prop :=
  key ∈ c.params.keys ∨ "$" ++ key ∈ c.params.keys ∨ "@" ++ key ∈ c.params.keys

/-- A spelled value has its key for a name, except under a key with a mark of its own. -/
theorem Spells.mem {c : Command} {key : String} (h : c.Spells key) (hkey : key ∈ c.params.keys → pureName key = key) :
    key ∈ pureNames c.params := by
  rcases h with h | h | h
  · exact hkey h ▸ pureName_mem h
  · exact pureName_dollar key ▸ pureName_mem h
  · exact pureName_at key ▸ pureName_mem h

theorem source?_congr {c e : Command} {key : String}
    (h : ∀ k, k = key ∨ k = "$" ++ key ∨ k = "@" ++ key → e.param? k = c.param? k) : e.source? key = c.source? key := by
  rw [source?, source?, h key (.inl rfl), h _ (.inr (.inl rfl)), h _ (.inr (.inr rfl))]

theorem source?_literal {c : Command} {key : String} {v : Json} (h : c.param? key = some v) :
    c.source? key = .ok (some (.literal (Datum.ofJson v))) := by
  rw [source?, h]

theorem source?_not_literal {c : Command} {key : String} (h : c.param? key = none) (v : Datum) :
    c.source? key ≠ .ok (some (.literal v)) := by
  rw [source?, h]
  cases c.param? ("$" ++ key) with
  | some w =>
    intro heq
    obtain ⟨text, -, heq⟩ := except_bind_eq_ok.1 heq
    obtain ⟨p, -, heq⟩ := except_bind_eq_ok.1 heq
    simp at heq
  | none =>
    cases c.param? ("@" ++ key) with
    | some w =>
      intro heq
      obtain ⟨text, -, heq⟩ := except_bind_eq_ok.1 heq
      obtain ⟨p, -, heq⟩ := except_bind_eq_ok.1 heq
      simp only [Except.ok.injEq, Option.some.injEq, sourceOfPath] at heq
      split at heq <;> contradiction
    | none => simp

/-- Parameters put behind others have no part in a value, unless they give it itself. -/
theorem source?_append {c e : Command} {key : String} {added : Entries Json} (he : e.params = c.params ++ added)
    (hspells : c.Spells key) (hadded : ∀ d ∈ added, pureName d.1 ∉ pureNames c.params) :
    e.source? key = c.source? key ↔ key ∉ added.keys := by
  have hparam : ∀ k, e.param? k = (c.param? k).or (added.get? k) := fun k ↦ by
    rw [param?, he, Entries.get?_append]
    rfl
  have hnone : ∀ {k}, pureName k ∈ pureNames c.params → k ∉ added.keys := by
    intro k hk hmem
    obtain ⟨d, hd, rfl⟩ := List.mem_map.1 hmem
    exact hadded d hd hk
  constructor
  · intro heq hmem
    have hgiven : c.param? key = none := Entries.get?_eq_none_iff.2 fun hkey ↦ hnone (pureName_mem hkey) hmem
    obtain ⟨v, hv⟩ : ∃ v, e.param? key = some v := by
      rw [hparam, hgiven, Option.none_or, ← Option.isSome_iff_exists]
      exact Entries.has_iff.2 hmem
    exact source?_not_literal hgiven _ (heq.symm.trans (source?_literal hv))
  · intro hkey
    cases hgiven : c.param? key with
    | some v =>
      have hv : e.param? key = some v := by rw [hparam, hgiven, Option.some_or]
      rw [source?_literal hv, source?_literal hgiven]
    | none =>
      -- the value is spelled under a mark, so no default has its name
      have hname : key ∈ pureNames c.params := hspells.mem fun h ↦ absurd h (Entries.get?_eq_none_iff.1 hgiven)
      apply source?_congr
      intro k hk
      have hmem : k ∉ added.keys := by
        rcases hk with rfl | rfl | rfl
        · exact hkey
        · exact hnone (by rwa [pureName_dollar])
        · exact hnone (by rwa [pureName_at])
      rw [hparam, Entries.get?_eq_none_iff.2 hmem, Option.or_none]

end Command

/-! ### Commands under an alias for them -/

namespace Aliases

/-- An alias for a command with all its parameters stands for the command exactly when no two of its parameters
have one name. What a placeholder spells stays, and no default of a spelled name is put beside it; a spelled
value then comes from elsewhere only where its key is the very key of a default, so that the key has a mark. -/
theorem expand_ofCommand (as : Aliases) (key : String) (c : Command) :
    (∀ span?, (as.define (.ofCommand key c)).expand ⟨key, [], span?⟩ = ⟨c.name, c.params, span?⟩ ↔
      (pureNames c.params).Nodup) ∧
    ∀ given e : Command, given.name = key → (pureNames given.params).Nodup →
      e = (as.define (.ofCommand key c)).expand given →
      ∃ added, e = ⟨c.name, given.params ++ added, given.span?⟩ ∧ added.Sublist c.params ∧
        (∀ d ∈ added, pureName d.1 ∉ pureNames given.params) ∧
        (∀ name v, given.param? name = some v → e.param? name = some v) ∧
        ∀ name, given.Spells name → (e.source? name = given.source? name ↔ name ∉ added.keys) ∧
          (Unmarked name → ∀ s : Selection,
            Selection.source? { s with command := e } name = Selection.source? { s with command := given } name) := by
  have hexpand : ∀ given : Command, given.name = key → given.params.keys.Nodup →
      (as.define (.ofCommand key c)).expand given =
        ⟨c.name, given.params ++ Alias.supplied (pureNames given.params) c.params, given.span?⟩ := by
    intro given hname hnodup
    rw [expand_define as _ hname, Alias.apply, Alias.params_ofCommand hnodup]
    rfl
  constructor
  · intro span?
    have hself : Alias.supplied [] c.params = c.params ↔ (pureNames c.params).Nodup := by
      rw [Alias.supplied_eq_self_iff]
      simp
    rw [hexpand ⟨key, [], span?⟩ rfl List.nodup_nil, ← hself]
    simp [pureNames]
  · rintro given e hname hnodup rfl
    have hapart : ∀ d ∈ Alias.supplied (pureNames given.params) c.params, pureName d.1 ∉ pureNames given.params :=
      Alias.pureName_of_supplied
    rw [hexpand given hname (nodup_keys_of_pureNames hnodup)]
    refine ⟨_, rfl, Alias.supplied_sublist _ _, hapart, fun name v hv ↦ ?_, fun name hspells ↦ ?_⟩
    · rw [Command.param?, Entries.get?_append, show Entries.get? name given.params = some v from hv, Option.some_or]
    · have hsource := Command.source?_append (e := ⟨c.name, _, given.span?⟩) rfl hspells hapart
      refine ⟨hsource, fun hunmarked s ↦ ?_⟩
      rw [Selection.source?, Selection.source?, hsource.2 fun hmem ↦ ?_]
      obtain ⟨d, hd, rfl⟩ := List.mem_map.1 hmem
      apply hapart d hd
      rw [hunmarked.pureName]
      exact hspells.mem fun _ ↦ hunmarked.pureName

/-- Two conditions on one name, under the marks of variables and of data paths: the bare alias asks for the
first of them only, and beside a spelled `@y` nothing is put for `y`. -/
theorem expand_ofCommand_rivals :
    (Aliases.define [] (.ofCommand "Both" ⟨"If", [("$x", .int 1), ("y", .int 2), ("@x", .int 3)], none⟩)).expand
      ⟨"Both", [], none⟩ ≠ ⟨"If", [("$x", .int 1), ("y", .int 2), ("@x", .int 3)], none⟩ ∧
    (pureNames [("@y", .str "n")]).Nodup ∧ Command.Spells ⟨"Both", [("@y", .str "n")], none⟩ "y" ∧ Unmarked "y" ∧
    ∃ e added, e = (Aliases.define []
        (.ofCommand "Both" ⟨"If", [("$x", .int 1), ("y", .int 2), ("@x", .int 3)], none⟩)).expand
          ⟨"Both", [("@y", .str "n")], none⟩ ∧ e = ⟨"If", [("@y", .str "n")] ++ added, none⟩ ∧
      ∀ s : Selection, Selection.source? { s with command := e } "y" =
        Selection.source? { s with command := ⟨"Both", [("@y", .str "n")], none⟩ } "y" := by
  have hrivals : ¬(pureNames [("$x", .int 1), ("y", .int 2), ("@x", .int 3)]).Nodup := by decide +kernel
  have hspelled : (pureNames [("@y", .str "n")]).Nodup := by decide +kernel
  have hspells : Command.Spells ⟨"Both", [("@y", .str "n")], none⟩ "y" :=
    .inr (.inr (by decide +kernel : "@" ++ "y" ∈ Entries.keys [("@y", Json.str "n")]))
  have hunmarked : Unmarked "y" := by
    unfold Unmarked
    decide +kernel
  have hexpand := expand_ofCommand [] "Both" ⟨"If", [("$x", .int 1), ("y", .int 2), ("@x", .int 3)], none⟩
  obtain ⟨added, heq, -, -, -, hsource⟩ := hexpand.2 ⟨"Both", [("@y", .str "n")], none⟩ _ rfl hspelled rfl
  exact ⟨fun heq ↦ hrivals ((hexpand.1 none).1 heq), hspelled, hspells, hunmarked, _, added, rfl, heq,
    (hsource "y" hspells).2 hunmarked⟩

end Aliases

end Stencil
