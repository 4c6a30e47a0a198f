import Stencil.Proofs.Edits.Settled
import Stencil.Proofs.Grove.Removal
import Stencil.Proofs.Payload.Pieces
import Stencil.Proofs.Run.Step
import Stencil.Renderer
/-!
The placeholders that a scan meets. Each is a text that is one marker from end to end, unless the
closing delimiter is nothing: then the text that is split out is an opening delimiter alone, and
reads as no marker.
-/

namespace Stencil

/-- A placeholder that a scan has met: where the search for it began, its node, the states before
the search, behind it and behind the visit, and where the scan went on. -/
structure Visit where
  place : NodeId
  node : NodeId
  before : RunState
  met : RunState
  left : RunState
  next? : Option NodeId

def Visit.marker (v : Visit) : String := (v.met.document.text? v.node).getD ""

namespace Scanner

variable (s : Scanner)

/-- The placeholders that a scan from a node on meets, at most `left` of them. -/
def visits (left : ℕ) (id : NodeId) (r : RunState) : List Visit :=
  match (Run.search s.toolkit id).on r with
  | (.ok (some found), met) => match left with
    | 0 => []
    | n + 1 =>
      let (outcome, after) := (s.visit found).on met
      let next? := outcome.toOption.join
      ⟨id, found, r, met, after, next?⟩ :: match next? with
        | none => []
        | some next => visits n next after
  | _ => []

variable {s} {left n : ℕ} {id found next : NodeId} {r met after : RunState}

theorem visits_nil (h : ∀ found, ((Run.search s.toolkit id).on r).1 ≠ .ok (some found)) : s.visits left id r = [] := by
  rw [visits]
  rcases hsearch : (Run.search s.toolkit id).on r with ⟨e | found?, met⟩
  · rfl
  · cases found? with
    | none => rfl
    | some found => exact absurd (by rw [hsearch]) (h found)

theorem visits_zero : s.visits 0 id r = [] := by
  rw [visits]
  rcases (Run.search s.toolkit id).on r with ⟨e | found?, met⟩
  · rfl
  · cases found? <;> rfl

theorem visits_last (hsearch : (Run.search s.toolkit id).on r = (.ok (some found), met))
    (hvisit : ∀ next, ((s.visit found).on met).1 ≠ .ok (some next)) :
    s.visits (n + 1) id r = [⟨id, found, r, met, ((s.visit found).on met).2, none⟩] := by
  rw [visits, hsearch]
  dsimp only
  rcases hon : (s.visit found).on met with ⟨e | next?, after⟩
  · rfl
  · cases next? with
    | none => rfl
    | some next => exact absurd (by rw [hon]) (hvisit next)

theorem visits_cons (hsearch : (Run.search s.toolkit id).on r = (.ok (some found), met))
    (hvisit : (s.visit found).on met = (.ok (some next), after)) :
    s.visits (n + 1) id r = ⟨id, found, r, met, after, some next⟩ :: s.visits n next after := by
  rw [visits, hsearch]
  simp only [hvisit, Except.toOption, Option.join_some]

theorem length_visits_le (left : ℕ) (id : NodeId) (r : RunState) : (s.visits left id r).length ≤ left := by
  induction left generalizing id r with
  | zero => rw [visits_zero, List.length_nil]
  | succ n ih =>
    by_cases hfound : ∃ found, ((Run.search s.toolkit id).on r).1 = .ok (some found)
    · obtain ⟨found, hfound⟩ := hfound
      have hsearch : (Run.search s.toolkit id).on r = (.ok (some found), ((Run.search s.toolkit id).on r).2) := Prod.ext hfound rfl
      by_cases hnext : ∃ next, ((s.visit found).on ((Run.search s.toolkit id).on r).2).1 = .ok (some next)
      · obtain ⟨next, hnext⟩ := hnext
        rw [visits_cons hsearch (Prod.ext hnext rfl), List.length_cons]
        exact Nat.succ_le_succ (ih ..)
      · rw [visits_last hsearch fun next h ↦ hnext ⟨next, h⟩]
        simp
    · rw [visits_nil fun found h ↦ hfound ⟨found, h⟩]
      exact Nat.zero_le _

/-- How a scan comes to an end without an error: no placeholder is found, or one is found and visited,
and the scan stops there or comes to an end from where it goes on. -/
theorem scanFrom_eq_ok {r' : RunState} (h : (s.scanFrom left id).on r = (.ok (), r')) :
    ((Run.search s.toolkit id).on r = (.ok none, r') ∧ s.visits left id r = []) ∨
      ∃ n found met, left = n + 1 ∧ (Run.search s.toolkit id).on r = (.ok (some found), met) ∧
        (((s.visit found).on met = (.ok none, r') ∧ s.visits left id r = [⟨id, found, r, met, r', none⟩]) ∨
          ∃ next after, (s.visit found).on met = (.ok (some next), after) ∧
            s.visits left id r = ⟨id, found, r, met, after, some next⟩ :: s.visits n next after ∧
            (s.scanFrom n next).on after = (.ok (), r')) := by
  rw [scanFrom] at h
  obtain ⟨found?, met, hsearch, h⟩ := Run.on_bind_eq_ok h
  cases found? with
  | none =>
    obtain ⟨-, rfl⟩ := Prod.mk.inj h
    exact .inl ⟨hsearch, visits_nil fun found hfound ↦ by rw [hsearch] at hfound; cases hfound⟩
  | some found =>
    cases left with
    | zero => cases h
    | succ n =>
      obtain ⟨next?, after, hvisit, h⟩ := Run.on_bind_eq_ok h
      refine .inr ⟨n, found, met, rfl, hsearch, ?_⟩
      cases next? with
      | none =>
        obtain ⟨-, rfl⟩ := Prod.mk.inj h
        refine .inl ⟨hvisit, ?_⟩
        rw [visits_last hsearch fun next hnext ↦ (by rw [hvisit] at hnext; cases hnext), hvisit]
      | some next => exact .inr ⟨next, after, hvisit, visits_cons hsearch hvisit, h⟩

end Scanner

/-! ### What a search finds -/

namespace Document

variable {t : Delimiters} {d e : Document} {id ref m x : NodeId} {s before marker after : String}

theorem text?_putText (h : d.text? id = some s) (s' : String) : (d.putText id s').text? id = some s' := by
  have hknown : d.node? id ≠ none := fun hnone ↦ by simp [text?, data?, hnone] at h
  obtain ⟨n, hn⟩ := Option.ne_none_iff_exists'.1 hknown
  simp [text?, data?, putText, node?_modify_self, hn]

theorem text?_addTextAfter (h : d.addTextAfter ref s = (e, .ok m)) :
    e.text? m = some s ∧ ∀ x, d.text? x ≠ none → e.text? x = d.text? x := by
  rw [addTextAfter, createText] at h
  dsimp only at h
  split at h
  · next f hinsert =>
    obtain ⟨rfl, hm⟩ := Prod.mk.inj h
    obtain rfl := Except.ok.inj hm
    obtain ⟨parent, -, -, rfl⟩ := insertBeside_eq_ok hinsert
    have hdata : ∀ x cs, ((d.create (.text s)).2.link parent d.fresh cs).data? x = (d.create (.text s)).2.data? x := fun x cs ↦ by
      refine (data?_modify ?_ x).trans (data?_modify ?_ x) <;> exact fun _ ↦ rfl
    refine ⟨?_, fun x hx ↦ ?_⟩
    · rw [text?, create_fst, hdata, data?, node?_create, if_pos rfl]
      rfl
    · have hfresh : x ≠ d.fresh := by
        rintro rfl
        simp [text?, data?, node?_fresh] at hx
      rw [text?, create_fst, hdata, data?, node?_create, if_neg hfresh]
      rfl
  · cases h

theorem text?_splitAround (hid : d.text? id ≠ none) (h : d.splitAround id before marker after = (e, .ok m)) :
    e.text? m = some marker := by
  obtain ⟨s, hs⟩ := Option.ne_none_iff_exists'.1 hid
  -- what the marker's node holds before the rest is put behind it
  have hmarked : ∀ {f : Document} {placed : Except DocumentError NodeId} {place : NodeId},
      (if before.isEmpty then (d.putText id marker, .ok id) else (d.putText id before).addTextAfter id marker) = (f, placed) →
      placed = .ok place → f.text? place = some marker := by
    rintro f placed place hplaced rfl
    split at hplaced
    · obtain ⟨rfl, hplace⟩ := Prod.mk.inj hplaced
      obtain rfl := Except.ok.inj hplace
      exact text?_putText hs marker
    · exact (text?_addTextAfter hplaced).1
  rw [splitAround] at h
  rcases hplaced : (if before.isEmpty then (d.putText id marker, .ok id) else (d.putText id before).addTextAfter id marker)
    with ⟨f, x | place⟩
  · rw [hplaced] at h
    cases h
  · rw [hplaced] at h
    have htext := hmarked hplaced rfl
    dsimp only at h
    split at h
    · cases h
      exact htext
    · rcases hrest : f.addTextAfter place after with ⟨g, x | rest⟩
      · rw [hrest] at h
        cases h
      · rw [hrest] at h
        cases h
        rw [(text?_addTextAfter hrest).2 place (by rw [htext]; simp), htext]

theorem text?_isolate (h : (d.isolate t id).result = .ok (some m)) :
    ∃ s c, t.cut? s = some c ∧ (d.isolate t id).document.text? m = some (String.ofList (t.enclose c.payload)) := by
  rw [isolate] at h ⊢
  cases hcut : (d.text? id).bind fun s ↦ t.cut? s.toList with
  | none =>
    rw [hcut] at h
    cases h
  | some c =>
    rw [hcut] at h
    obtain ⟨s, hs, hc⟩ := Option.bind_eq_some_iff.1 hcut
    refine ⟨s.toList, c, hc, ?_⟩
    dsimp only at h ⊢
    split at h
    · next hone =>
      cases h
      rw [if_pos hone, hs]
      simp only [Bool.and_eq_true, List.isEmpty_iff] at hone
      have hwhole := Delimiters.cut?_eq_append hc
      rw [hone.1, hone.2, List.nil_append, List.append_nil] at hwhole
      rw [← hwhole, String.ofList_toList]
    · next hone =>
      rw [if_neg hone]
      rcases hsplit : d.splitAround id (String.ofList c.before) (String.ofList (t.enclose c.payload)) (String.ofList c.after)
        with ⟨f, x | place⟩
      · rw [hsplit] at h
        cases h
      · rw [hsplit] at h
        cases h
        exact text?_splitAround (by rw [hs]; simp) hsplit

theorem text?_searchFrom (n : ℕ) (h : (d.searchFrom t n id).result = .ok (some m)) :
    ∃ s c, t.cut? s = some c ∧ (d.searchFrom t n id).document.text? m = some (String.ofList (t.enclose c.payload)) := by
  induction n generalizing id with
  | zero => cases h
  | succ n ih =>
    rw [searchFrom] at h ⊢
    split at h
    · next hnone =>
      split at h
      · rw [hnone] at h
        cases h
      · exact ih h
    · exact text?_isolate h

/-- A placeholder that is found is a marker, when there is something to end a marker with. -/
theorem payload?_search (ht : t.closing ≠ "") (h : (d.search t id).result = .ok (some m)) :
    (d.search t id).document.payload? t m ≠ none := by
  obtain ⟨s, c, hcut, htext⟩ := text?_searchFrom _ h
  have hclosing : t.closing.toList ≠ [] := fun hnil ↦ ht (String.toList_eq_nil_iff.1 hnil)
  rw [payload?, search, htext, Option.bind_some, String.toList_ofList, Delimiters.payload?_enclose hclosing hcut]
  simp

theorem payload?_of_closing_nil (ht : t.closing = "") (id : NodeId) : d.payload? t id = none := by
  have hnone : ∀ s : List Char, t.payload? s = none := fun s ↦ by
    rw [Delimiters.payload?]
    split
    · next hcut =>
      obtain ⟨r, hclose⟩ := Delimiters.exists_close hcut
      rw [ht, String.toList_empty] at hclose
      cases r with
      | nil => simp [Payload.close] at hclose
      | cons c r => simp [Payload.close, Text.stripPrefix?] at hclose
    · rfl
  rw [payload?]
  cases d.text? id with
  | none => rfl
  | some s => exact hnone _

end Document

namespace Run

variable {t : Delimiters} {id found : NodeId} {r met : RunState}

theorem search_eq_found (h : (search (.ofDelimiters t) id).on r = (.ok (some found), met)) :
    (r.document.search t id).result = .ok (some found) ∧ met = r.sought (r.document.search t id) := by
  rw [on_search] at h
  obtain ⟨hresult, rfl⟩ := Prod.mk.inj h
  refine ⟨?_, rfl⟩
  have hsame : Except.mapError RunError.document (r.document.search t id).result = .ok (some found) := hresult
  cases hsearch : (r.document.search t id).result with
  | error e =>
    rw [hsearch] at hsame
    cases hsame
  | ok found? =>
    rw [hsearch] at hsame
    exact congrArg _ (Except.ok.inj hsame)

theorem payload?_found (ht : t.closing ≠ "") (h : (search (.ofDelimiters t) id).on r = (.ok (some found), met)) :
    ∃ payload, met.document.payload? t found = some payload := by
  obtain ⟨hresult, rfl⟩ := search_eq_found h
  exact Option.ne_none_iff_exists'.1 (Document.payload?_search ht hresult)

end Run

namespace Renderer

variable (R : Renderer)

def begun (w : Workshop) (d : Document) (M : Model) : RunState := { R.start w d M with log := [.started] }

def visits (t : Toolkit) (w : Workshop) (d : Document) (M : Model) : List Visit :=
  (R.scanner t).visits R.settings.maxSteps d.root (R.begun w d M)

theorem scanFrom_of_run {t : Toolkit} {w : Workshop} {d : Document} {M : Model} {report : Report}
    (hok : (R.run t w d M).result = .ok report) :
    ∃ r', ((R.scanner t).scanFrom R.settings.maxSteps d.root).on (R.begun w d M) = (.ok (), r') ∧
      r'.report = report := by
  obtain ⟨r₁, hscan⟩ : ∃ r₁, (R.scanner t).scan.on (R.start w d M) = (.ok report, r₁) := ⟨_, Prod.ext hok rfl⟩
  rw [Scanner.scan, Run.on_bind_ok (Run.on_log _ _), Run.on_bind_ok (Run.on_document _)] at hscan
  obtain ⟨⟨⟩, r', hfrom, hscan⟩ := Run.on_bind_eq_ok hscan
  rw [Run.on_bind_ok (Run.on_get r'), Run.on_bind_ok (Run.on_log _ r')] at hscan
  exact ⟨r', hfrom, Except.ok.inj (Prod.mk.inj hscan).1⟩

end Renderer

end Stencil
