import Stencil.Proofs.Command.Answer
import Stencil.Proofs.Edits.Reachable
import Stencil.Proofs.Scan.Seeking
/-!
Runs come to an end, whatever their commands do to the document, as long as it stays well-formed. The
placeholders met are counted, and each search between two of them ends in a finite tree; a place to go
on at that is no longer in the tree is left, so that only placeholders of the tree are met.
-/

namespace Stencil

namespace Run

variable {α β : Type} {x : Run α} {k : α → Run β}

/-- A step that leaves a well-formed document well-formed, whether it fails or not. -/
def Orderly (x : Run α) : Prop := ∀ r : RunState, r.document.WellFormed → (x.on r).2.document.WellFormed

theorem Orderly.wellFormed {r r' : RunState} {result : Except RunError α} (hx : Orderly x) (h : x.on r = (result, r'))
    (hr : r.document.WellFormed) : r'.document.WellFormed := by
  have hkept := hx r hr
  rwa [h] at hkept

theorem orderly_pure (a : α) : Orderly (pure a : Run α) := fun _ h ↦ h

theorem orderly_throw (e : RunError) : Orderly (throw e : Run α) := fun _ h ↦ h

theorem orderly_get : Orderly get := fun _ h ↦ h

theorem orderly_document : Orderly document := fun _ h ↦ h

theorem orderly_log (e : Event) : Orderly (log e) := fun _ h ↦ h

theorem orderly_changeReport (f : Report → Report) : Orderly (changeReport f) := fun _ h ↦ h

theorem orderly_bind (hx : Orderly x) (hk : ∀ a, Orderly (k a)) : Orderly (x >>= k) := by
  intro r h
  have hfirst := hx r h
  rcases hon : x.on r with ⟨e | a, r₁⟩
  · rw [hon] at hfirst
    rw [on_bind_error hon]
    exact hfirst
  · rw [hon] at hfirst
    rw [on_bind_ok hon]
    exact hk a r₁ hfirst

theorem orderly_attempt (hx : Orderly x) : Orderly (attempt x) := hx

theorem orderly_edit {f : Document → Except DocumentError Document} (hf : ∀ d e, d.WellFormed → f d = .ok e → e.WellFormed) :
    Orderly (edit f) := by
  intro r h
  rw [edit, on_bind_ok (on_document r)]
  cases hfd : f r.document with
  | ok e =>
    rw [on_bind_ok (on_ofExcept_ok _ _ _)]
    exact hf _ _ h hfd
  | error x =>
    rw [on_bind_error (on_ofExcept_error _ _ _)]
    exact h

end Run

/-- A handler whose commands leave a well-formed document well-formed; they may do anything else. -/
def Handler.Orderly (h : Handler) : Prop := ∀ s, (h.execute s).Orderly

theorem Document.WellFormed.detach {d e : Document} {id : NodeId} (h : d.WellFormed) (hdetach : d.detach id = .ok e) : e.WellFormed := by
  refine ((h.forest.settles_detach id).forest () e ?_).wellFormed
  rw [hdetach]
  rfl

namespace Scanner

open Run

variable {s : Scanner}

theorem orderly_record (p : Placeholder) (command? : Option String) (e : RunError) : (s.record p command? e).Orderly := by
  rw [record]
  split
  · exact orderly_throw e
  · exact orderly_bind (orderly_log _) fun _ ↦ orderly_changeReport _

theorem orderly_finish (p : Placeholder) (c : Command) : (s.finish p c).Orderly := by
  have hdelete : (s.selection p c).deletePlaceholder.Orderly :=
    orderly_bind (orderly_bind orderly_document fun d ↦ orderly_bind (orderly_edit fun _ _ h hdetach ↦ h.detach hdetach)
      fun _ ↦ orderly_pure _) fun _ ↦ orderly_pure _
  refine orderly_bind (orderly_attempt hdelete) fun next? ↦ ?_
  rcases next? with e | _ | next
  · exact orderly_bind (orderly_record p _ e) fun _ ↦ orderly_pure none
  · exact orderly_pure none
  · exact orderly_bind (orderly_changeReport _) fun _ ↦ orderly_pure _

theorem orderly_resume (p : Placeholder) (next? : Option Continuation) : (resume p next?).Orderly := by
  refine orderly_bind orderly_document fun d ↦ ?_
  dsimp only
  split
  · exact orderly_bind (orderly_log _) fun _ ↦ orderly_pure _
  · exact orderly_pure _

variable (hs : ∀ name h, s.registry.get? name = some h → h.Orderly)

include hs

theorem orderly_carryOut (p : Placeholder) (cs : Commands) : (s.carryOut p cs).Orderly := by
  induction cs with
  | nil => exact orderly_pure none
  | cons c rest ih =>
    rw [carryOut]
    cases hget : s.registry.get? c.name with
    | none => exact orderly_throw _
    | some handler =>
      refine orderly_bind (orderly_log _) fun _ ↦ orderly_bind (orderly_attempt (hs c.name handler hget _)) fun outcome ↦ ?_
      rcases outcome with e | _ | next | _
      · exact orderly_bind (orderly_record p _ e) fun _ ↦ orderly_pure none
      · exact orderly_bind (orderly_changeReport _) fun _ ↦ orderly_pure none
      · refine orderly_bind (orderly_changeReport _) fun _ ↦ ?_
        cases rest with
        | nil => exact orderly_pure _
        | cons d rest => exact orderly_bind (orderly_record p _ _) fun _ ↦ orderly_pure _
      · cases rest with
        | nil => exact orderly_finish p c
        | cons d rest => exact ih

theorem orderly_dispatch (p : Placeholder) (cs : Commands) : (s.dispatch p cs).Orderly := by
  refine orderly_bind orderly_get fun r ↦ ?_
  dsimp only
  cases (cs.map r.aliases.expand).find? fun c ↦ !s.registry.has c.name with
  | none => exact orderly_carryOut hs p _
  | some c =>
    cases s.settings.unknownCommand with
    | ignore => exact orderly_bind (orderly_log _) fun _ ↦ orderly_bind (orderly_changeReport _) fun _ ↦ orderly_pure none
    | fail => exact orderly_throw _

theorem orderly_visit (id : NodeId) : (s.visit id).Orderly := by
  refine orderly_bind orderly_document fun d ↦ ?_
  dsimp only
  cases d.payload? s.toolkit.delimiters id with
  | none => exact orderly_pure _
  | some payload =>
    refine orderly_bind (orderly_log _) fun _ ↦ ?_
    cases Payload.read payload with
    | ok cs => exact orderly_bind (orderly_dispatch hs _ cs) fun next? ↦ orderly_resume _ next?
    | error e => exact orderly_bind (orderly_changeReport _) fun _ ↦ orderly_bind (orderly_record _ none _) fun _ ↦ orderly_pure _

end Scanner

/-! ### Where a scan goes on -/

namespace Document

variable {d : Document} {id next : NodeId}

theorem Forest.attached_nextAfter (hd : d.Forest) (hid : d.Attached id) (h : d.nextAfter? id = some next) : d.Attached next := by
  obtain ⟨T, hT, htops, -⟩ := hd.exists_root
  rw [hd.attached_iff_mem hT htops] at hid ⊢
  obtain ⟨sub, data, fs, rfl⟩ := hT.exists_place hid
  rw [hT.nextAfter?] at h
  rw [Grove.order_plug]
  exact List.mem_append_right _ (List.mem_of_mem_head? h)

end Document

namespace Scanner

open Run

variable {s : Scanner} {d : Document} {p : Placeholder} {next found : NodeId} {met after : RunState}

theorem attached_resumption {c : Continuation} (hd : d.WellFormed) (h : resumption d p c = some next) : d.Attached next := by
  have hfallback : p.successor?.filter d.isAttached = some next → d.Attached next := fun hfilter ↦
    hd.forest.attached_iff.2 (Option.filter_eq_some_iff.1 hfilter).2
  cases c with
  | proceed =>
    rw [resumption] at h
    split at h
    · next hnode => exact hd.forest.attached_nextAfter (hd.forest.attached_iff.2 hnode) h
    · exact hfallback h
  | «at» target =>
    rw [resumption] at h
    split at h
    · next htarget => exact Option.some.inj h ▸ hd.forest.attached_iff.2 htarget
    · exact hfallback h
  | stop => cases h

theorem resume_eq_ok {next? : Option Continuation} (h : (resume p next?).on met = (.ok (some next), after)) :
    after.document = met.document ∧ resumption met.document p (next?.getD .proceed) = some next := by
  rw [resume, on_bind_ok (on_document met)] at h
  dsimp only at h
  split at h
  · next hnone =>
    rw [on_bind_ok (on_log _ _)] at h
    obtain ⟨hplace, rfl⟩ := Prod.mk.inj h
    exact ⟨rfl, Except.ok.inj hplace⟩
  · obtain ⟨hplace, rfl⟩ := Prod.mk.inj h
    exact ⟨rfl, Except.ok.inj hplace⟩

theorem record_document {command? : Option String} {e : RunError} {r r' : RunState} {result : Except RunError Unit}
    (h : (s.record p command? e).on r = (result, r')) : r'.document = r.document := by
  rw [record] at h
  split at h <;>
  · obtain ⟨-, rfl⟩ := Prod.mk.inj h
    rfl

/-- A visit leaves a well-formed document, and goes on in its tree. -/
theorem visit_attached (hs : ∀ name h, s.registry.get? name = some h → h.Orderly) (hd : met.document.WellFormed)
    (hfound : met.document.Attached found) (h : (s.visit found).on met = (.ok (some next), after)) :
    after.document.WellFormed ∧ after.document.Attached next := by
  have hsuccessor : ∀ {r : RunState}, r.document = met.document → met.document.nextAfter? found = some next →
      r.document.WellFormed ∧ r.document.Attached next := fun hdocument hnext ↦ by
    rw [hdocument]
    exact ⟨hd, hd.forest.attached_nextAfter hfound hnext⟩
  rw [visit, on_bind_ok (on_document met)] at h
  dsimp only at h
  cases hpayload : met.document.payload? s.toolkit.delimiters found with
  | none =>
    rw [hpayload] at h
    obtain ⟨hnext, rfl⟩ := Prod.mk.inj h
    exact hsuccessor rfl (Except.ok.inj hnext)
  | some payload =>
    rw [hpayload] at h
    dsimp only at h
    rw [on_bind_ok (on_log _ _)] at h
    cases hread : Payload.read payload with
    | ok cs =>
      rw [hread] at h
      obtain ⟨next?, r₁, hdispatch, hresume⟩ := on_bind_eq_ok h
      have hkept := (orderly_dispatch hs _ cs).wellFormed hdispatch hd
      obtain ⟨hdocument, hplace⟩ := resume_eq_ok hresume
      rw [hdocument]
      exact ⟨hkept, attached_resumption hkept hplace⟩
    | error e =>
      rw [hread] at h
      dsimp only at h
      obtain ⟨⟨⟩, r₁, hcount, hrest⟩ := on_bind_eq_ok h
      obtain ⟨⟨⟩, r₂, hrecord, hlast⟩ := on_bind_eq_ok hrest
      obtain ⟨-, rfl⟩ := Prod.mk.inj hcount
      have hdocument := record_document hrecord
      obtain ⟨hnext, rfl⟩ := Prod.mk.inj hlast
      exact hsuccessor hdocument (Except.ok.inj hnext)

end Scanner

/-! ### Whole runs -/

/-- A visit of a placeholder of the tree, from a place of the tree on; the scan goes on in the tree it leaves. -/
structure Visit.InTree (v : Visit) : Prop where
  met : v.met.document.WellFormed
  left : v.left.document.WellFormed
  place : v.before.document.Attached v.place
  node : v.met.document.Attached v.node
  next : ∀ next, v.next? = some next → v.left.document.Attached next

namespace Scanner

open Run

/-- A scan from a node on, with nothing but the steps of the program to bound it: searches, visits, and
the placeholders met so far counted against the limit. -/
inductive Scans (s : Scanner) (t : Delimiters) : ℕ → NodeId → RunState → List Visit → Except RunError Unit × RunState → Prop where
  | refused {k : ℕ} {id : NodeId} {r : RunState} {search : Search} {e : DocumentError} :
      r.document.Seeks t id search → search.result = .error e → Scans s t k id r [] (.error (.document e), r.sought search)
  | nothing {k : ℕ} {id : NodeId} {r : RunState} {search : Search} :
      r.document.Seeks t id search → search.result = .ok none → Scans s t k id r [] (.ok (), r.sought search)
  | limit {k : ℕ} {id found : NodeId} {r : RunState} {search : Search} :
      r.document.Seeks t id search → search.result = .ok (some found) → s.settings.maxSteps ≤ k →
      Scans s t k id r [] (.error (.stepLimit s.settings.maxSteps), r.sought search)
  | failed {k : ℕ} {id found : NodeId} {r after : RunState} {search : Search} {e : RunError} :
      r.document.Seeks t id search → search.result = .ok (some found) → k < s.settings.maxSteps →
      (s.visit found).on (r.sought search) = (.error e, after) →
      Scans s t k id r [⟨id, found, r, r.sought search, after, none⟩] (.error e, after)
  | last {k : ℕ} {id found : NodeId} {r after : RunState} {search : Search} :
      r.document.Seeks t id search → search.result = .ok (some found) → k < s.settings.maxSteps →
      (s.visit found).on (r.sought search) = (.ok none, after) →
      Scans s t k id r [⟨id, found, r, r.sought search, after, none⟩] (.ok (), after)
  | visit {k : ℕ} {id found next : NodeId} {r after : RunState} {search : Search} {vs : List Visit}
      {out : Except RunError Unit × RunState} :
      r.document.Seeks t id search → search.result = .ok (some found) → k < s.settings.maxSteps →
      (s.visit found).on (r.sought search) = (.ok (some next), after) → Scans s t (k + 1) next after vs out →
      Scans s t k id r (⟨id, found, r, r.sought search, after, some next⟩ :: vs) out

variable {s : Scanner} {t : Delimiters}

/-- A scan of a well-formed document comes to an end within the limit, and stays in the tree. -/
theorem scans (hs : ∀ name h, s.registry.get? name = some h → h.Orderly) (htoolkit : s.toolkit = .ofDelimiters t) (left : ℕ) :
    ∀ (k : ℕ) (id : NodeId) (r : RunState), k + left = s.settings.maxSteps → r.document.WellFormed → r.document.Attached id →
      s.Scans t k id r (s.visits left id r) ((s.scanFrom left id).on r) ∧ ∀ v ∈ s.visits left id r, v.InTree := by
  induction left using Nat.strong_induction_on with
  | _ left ih =>
    intro k id r hk hd hid
    have hseeks := hd.forest.seeks t hid
    have hsearch := on_search s.toolkit id r
    rw [htoolkit, show (Toolkit.ofDelimiters t).search (r.searches + 1) r.document id = r.document.search t id from rfl,
      ← htoolkit] at hsearch
    cases hresult : (r.document.search t id).result with
    | error e =>
      rw [hresult] at hsearch
      have hvisits : s.visits left id r = [] := visits_nil fun found hfound ↦ by rw [hsearch] at hfound; cases hfound
      rw [hvisits, scanFrom, on_bind_error hsearch]
      exact ⟨.refused hseeks hresult, by simp⟩
    | ok found? =>
      rw [hresult] at hsearch
      obtain ⟨hforest, hfound⟩ := hd.forest.search_attached hid hresult
      cases found? with
      | none =>
        have hvisits : s.visits left id r = [] := visits_nil fun found hfound ↦ by rw [hsearch] at hfound; cases hfound
        rw [hvisits, scanFrom, on_bind_ok hsearch]
        exact ⟨.nothing hseeks hresult, by simp⟩
      | some found =>
        have hnode : (r.sought (r.document.search t id)).document.Attached found := hfound found rfl
        rw [scanFrom, on_bind_ok hsearch]
        dsimp only
        cases left with
        | zero =>
          rw [visits_zero]
          exact ⟨.limit hseeks hresult (by omega), by simp⟩
        | succ n =>
          have hlimit : k < s.settings.maxSteps := by omega
          have hkept := orderly_visit hs found (r.sought (r.document.search t id)) hforest.wellFormed
          dsimp only
          rcases hvisit : (s.visit found).on (r.sought (r.document.search t id)) with ⟨e | next?, after⟩
          · rw [visits_last hsearch fun next hnext ↦ (by rw [hvisit] at hnext; cases hnext), on_bind_error hvisit, hvisit]
            rw [hvisit] at hkept
            refine ⟨.failed hseeks hresult hlimit hvisit, ?_⟩
            simpa using ⟨hforest.wellFormed, hkept, hid, hnode, fun _ h ↦ by cases h⟩
          · rw [on_bind_ok hvisit]
            rw [hvisit] at hkept
            cases next? with
            | none =>
              rw [visits_last hsearch fun next hnext ↦ (by rw [hvisit] at hnext; cases hnext), hvisit]
              refine ⟨.last hseeks hresult hlimit hvisit, ?_⟩
              simpa using ⟨hforest.wellFormed, hkept, hid, hnode, fun _ h ↦ by cases h⟩
            | some next =>
              rw [visits_cons hsearch hvisit]
              obtain ⟨hafter, hnext⟩ := visit_attached hs hforest.wellFormed hnode hvisit
              obtain ⟨hrest, hin⟩ := ih n (Nat.lt_succ_self n) (k + 1) next after (by omega) hafter hnext
              refine ⟨.visit hseeks hresult hlimit hvisit hrest, fun v hv ↦ ?_⟩
              rcases List.mem_cons.1 hv with rfl | hv
              · exact ⟨hforest.wellFormed, hkept, hid, hnode, fun _ h ↦ Option.some.inj h ▸ hnext⟩
              · exact hin v hv

end Scanner

namespace Renderer

variable (R : Renderer)

/-- A run comes to an end, whatever its commands do to the document, as long as it stays well-formed. The
scan ends with nothing but the steps of the program to bound it, and so do the search for a marker in
each text and the way up from each node; no more placeholders are met than the limit says; each of them is in the tree when it is met;
and so is each place where the scan goes on. -/
theorem run_ends (hregistry : ∀ name h, R.registry.get? name = some h → h.Orderly) {t : Delimiters} (ht : t.opening ≠ "")
    {d : Document} (hd : d.WellFormed) (w : Workshop) (M : Model) :
    (∃ out, (R.scanner (.ofDelimiters t)).Scans t 0 d.root (R.begun w d M) (R.visits (.ofDelimiters t) w d M) out ∧
      (R.run (.ofDelimiters t) w d M).result = out.1.map fun _ ↦ out.2.report) ∧
    (∀ s, t.Cuts s (t.cut? s)) ∧ (∀ e : Document, e.WellFormed → ∀ id, e.Succeeds id (e.nextAfter? id)) ∧
    (R.visits (.ofDelimiters t) w d M).length ≤ R.settings.maxSteps ∧
    ∀ v ∈ R.visits (.ofDelimiters t) w d M, v.InTree := by
  have hroot : (R.begun w d M).document.Attached d.root := .refl
  obtain ⟨hscans, hin⟩ := Scanner.scans (s := R.scanner (.ofDelimiters t)) hregistry rfl R.settings.maxSteps 0 d.root
    (R.begun w d M) (Nat.zero_add _) hd hroot
  have hopening : t.opening.toList ≠ [] := fun hnil ↦ ht (String.toList_eq_nil_iff.1 hnil)
  refine ⟨⟨_, hscans, ?_⟩, Delimiters.cuts hopening, fun e he ↦ he.forest.succeeds, Scanner.length_visits_le .., hin⟩
  have hrun : (R.run (.ofDelimiters t) w d M).result = ((R.scanner (.ofDelimiters t)).scan.on (R.start w d M)).1 := rfl
  rw [hrun, Scanner.scan, Run.on_bind_ok (Run.on_log _ _), Run.on_bind_ok (Run.on_document _)]
  have hbegun : ({ R.start w d M with log := .started :: (R.start w d M).log } : RunState) = R.begun w d M := rfl
  rw [hbegun, show (R.begun w d M).document.root = d.root from rfl,
    show (R.scanner (.ofDelimiters t)).settings.maxSteps = R.settings.maxSteps from rfl]
  rcases hscan : ((R.scanner (.ofDelimiters t)).scanFrom R.settings.maxSteps d.root).on (R.begun w d M) with ⟨e | ⟨⟩, r'⟩
  · rw [Run.on_bind_error hscan]
    rfl
  · rw [Run.on_bind_ok hscan]
    rfl

def leaver : Handler := ⟨["Leave"], fun s ↦ do
  Run.detach s.node
  return .executed (.at s.node)⟩

theorem orderly_leaver : leaver.Orderly := fun _ ↦
  Run.orderly_bind (Run.orderly_edit fun _ _ h hdetach ↦ h.detach hdetach) fun _ ↦ Run.orderly_pure _

def leaving : Renderer := ⟨.default, .ofList [leaver], [], .empty, ⟨⟨0, 1⟩, .midnight⟩⟩

def twoLeaves : Document := Document.ofText 0 "$\x7bLeave\x7d and $\x7bLeave\x7d"

/-- Both placeholders ask to go on at a place that is gone, and both are met in the tree. -/
theorem run_ends_twoLeaves : (leaving.run (.ofDelimiters .default) leaving.workshop twoLeaves (.ofData .null)).result =
      .ok ⟨2, 0, []⟩ ∧
    (leaving.visits (.ofDelimiters .default) leaving.workshop twoLeaves (.ofData .null)).map Visit.node = [⟨0, 2⟩, ⟨0, 4⟩] ∧
    ∀ v ∈ leaving.visits (.ofDelimiters .default) leaving.workshop twoLeaves (.ofData .null), v.InTree := by
  have hregistry : ∀ name h, leaving.registry.get? name = some h → h.Orderly := fun name h hget ↦ by
    obtain rfl := List.mem_singleton.1 (Registry.mem_of_get? hget).1
    exact orderly_leaver
  have hd : twoLeaves.WellFormed := (Document.forest_ofText 0 _).wellFormed
  obtain ⟨-, -, -, -, hin⟩ := leaving.run_ends hregistry (t := .default) (by decide) hd leaving.workshop (.ofData .null)
  exact ⟨by decide +kernel, by decide +kernel, hin⟩

end Renderer

end Stencil
