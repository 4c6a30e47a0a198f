import Stencil.Document.Plain
import Stencil.Proofs.Edits.Settled
/-!
Documents that edits lead to. Whatever handles the edits are given, a document stays a well-formed
forest, no edit misses the arena, and one that is refused leaves everything as it was.
-/

namespace Stencil.Document

open Grove

variable {d e : Document} {c : NodeId}

/-! ### Calls -/

inductive Call where
  | createElement (tag : String)
  | createText (s : String)
  | setText (id : NodeId) (s : String)
  | setAttr (id : NodeId) (name value : String)
  | appendChild (parent id : NodeId)
  | insert (side : Side) (ref id : NodeId)
  | detach (id : NodeId)
  | replace (old new : NodeId)
  | deepClone (id : NodeId)
  | importSubtree (source : Document) (id : NodeId)
  | splitOff (ancestor id : NodeId) (side : Side)

namespace Call

/-- What a call makes of a document, and the node it gives. -/
def apply (d : Document) : Call → Except DocumentError (Option NodeId × Document)
  | createElement tag => .ok (some (d.createElement tag).1, (d.createElement tag).2)
  | createText s => .ok (some (d.createText s).1, (d.createText s).2)
  | setText id s => (d.setText id s).map (none, ·)
  | setAttr id name value => .ok (none, d.setAttr id name value)
  | appendChild parent id => (d.appendChild parent id).map (none, ·)
  | insert .before ref id => (d.insertBefore ref id).map (none, ·)
  | insert .after ref id => (d.insertAfter ref id).map (none, ·)
  | detach id => (d.detach id).map (none, ·)
  | replace old new => (d.replace old new).map (none, ·)
  | deepClone id => (d.deepClone id).map fun p ↦ (some p.1, p.2)
  | importSubtree source id => (d.importSubtree source id).map fun p ↦ (some p.1, p.2)
  | splitOff ancestor id side => d.splitOff ancestor id side

def steps : Call → Steps (Option NodeId)
  | createElement tag => some <$> Steps.create (.element tag [])
  | createText s => some <$> Steps.create (.text s)
  | setText id s => (fun _ ↦ none) <$> Steps.setText id s
  | setAttr id name value => (fun _ ↦ none) <$> Steps.setAttr id name value
  | appendChild parent id => (fun _ ↦ none) <$> Steps.appendChild parent id
  | insert side ref id => (fun _ ↦ none) <$> Steps.insert side ref id
  | detach id => (fun _ ↦ none) <$> Steps.detach id
  | replace old new => (fun _ ↦ none) <$> Steps.replace old new
  | deepClone id => do some <$> Steps.copy node? (← Steps.look fun d ↦ .ok (d.size + 1)) id
  | importSubtree source id => some <$> Steps.copy (fun _ ↦ source.node?) (source.size + 1) id
  | splitOff ancestor id side => Steps.splitOff ancestor id side

def handles : Call → List NodeId
  | createElement _ | createText _ | setAttr .. => []
  | setText id _ | detach id | deepClone id | importSubtree _ id => [id]
  | appendChild a b | insert _ a b | replace a b | splitOff a b _ => [a, b]

/-- The document whose handles a call is given. -/
def home (d : Document) : Call → Document
  | importSubtree source _ => source
  | _ => d

def source? : Call → Option Document
  | importSubtree source _ => some source
  | _ => none

theorem settles_unit {s : Steps Unit} {r : Except DocumentError Document} (h : d.Settles s (r.map ((), ·))) :
    d.Settles ((fun _ ↦ (none : Option NodeId)) <$> s) (r.map (none, ·)) := by
  have := h.map fun _ ↦ (none : Option NodeId)
  cases r <;> exact this

/-- On a forest the steps of a call come out as it is defined. -/
theorem settles (hd : d.Forest) : ∀ c : Call, (∀ source, c.source? = some source → source.Forest) →
    d.Settles c.steps (c.apply d)
  | createElement tag, _ => (hd.settles_create _).map some
  | createText s, _ => (hd.settles_create _).map some
  | setText id s, _ => settles_unit (hd.settles_setText id s)
  | setAttr id name value, _ => (hd.settles_setAttr id name value).map fun _ ↦ none
  | appendChild parent id, _ => settles_unit (hd.settles_appendChild parent id)
  | insert .before ref id, _ => settles_unit (hd.settles_insert .before ref id)
  | insert .after ref id, _ => settles_unit (hd.settles_insert .after ref id)
  | detach id, _ => settles_unit (hd.settles_detach id)
  | replace old new, _ => settles_unit (hd.settles_replace old new)
  | deepClone id, _ => by
    have h := (hd.settles_copy hd (fun e he x hx ↦ he.stay x hx) fun hid ↦ hid : d.Settles (Steps.copy node? (d.size + 1) id) _).map some
    have hsteps : (deepClone id).steps.on d = (some <$> Steps.copy node? (d.size + 1) id).on d := by
      rw [steps]
      exact Steps.on_bind_ok (Steps.on_look ..)
    exact ⟨hsteps.trans h.on, h.forest, h.grows⟩
  | importSubtree source id, hsource =>
    (hd.settles_copy (hsource source rfl) (fun _ _ _ _ ↦ rfl) fun hid ↦ hid).map some
  | splitOff ancestor id side, _ => hd.settles_splitOff side ancestor id

theorem known_pair {a b : NodeId} (ha : d.node? a ≠ none) (hb : d.node? b ≠ none) : ∀ id ∈ [a, b], d.node? id ≠ none := by
  simpa using ⟨ha, hb⟩

/-- A call that may fail succeeds only with handles of the document. -/
theorem known_of_ok {r : Option NodeId × Document} : ∀ {c : Call}, c.apply d = .ok r → ∀ id ∈ c.handles, (c.home d).node? id ≠ none
  | createElement _, _, _, hid | createText _, _, _, hid | setAttr .., _, _, hid => by simp [handles] at hid
  | setText .., h, _, hid => by
    obtain ⟨_, h, -⟩ := except_map_eq_ok.1 h
    obtain ⟨⟨⟩, hcheck, -⟩ := except_bind_eq_ok.1 h
    obtain rfl := List.mem_singleton.1 hid
    exact known_of_check hcheck
  | appendChild .., h, _, hid => by
    obtain ⟨_, h, -⟩ := except_map_eq_ok.1 h
    obtain ⟨⟨⟩, hcheck, -⟩ := except_bind_eq_ok.1 h
    exact known_pair ((checkInsertable_ok hcheck).1) ((checkInsertable_ok hcheck).2.1) _ hid
  | insert .before .., h, _, hid | insert .after .., h, _, hid => by
    obtain ⟨_, h, -⟩ := except_map_eq_ok.1 h
    obtain ⟨_, hparent, hcheck, -⟩ := insertBeside_eq_ok h
    exact known_pair (known_of_parent? hparent) ((checkInsertable_ok hcheck).2.1) _ hid
  | replace .., h, _, hid => by
    obtain ⟨_, h, -⟩ := except_map_eq_ok.1 h
    obtain ⟨_, h, -⟩ := except_bind_eq_ok.1 h
    obtain ⟨_, hparent, hcheck, -⟩ := insertBeside_eq_ok h
    exact known_pair (known_of_parent? hparent) ((checkInsertable_ok hcheck).2.1) _ hid
  | detach .., h, _, hid => by
    obtain ⟨_, h, -⟩ := except_map_eq_ok.1 h
    obtain ⟨⟨⟩, hcheck, -⟩ := except_bind_eq_ok.1 h
    obtain rfl := List.mem_singleton.1 hid
    exact known_of_check hcheck
  | deepClone .., h, _, hid | importSubtree .., h, _, hid => by
    obtain ⟨_, h, -⟩ := except_map_eq_ok.1 h
    obtain rfl := List.mem_singleton.1 hid
    intro hnone
    simp only [home] at hnone
    simp [Document.deepClone, Document.importSubtree, copyFrom, hnone] at h
  | splitOff .., h, _, hid => by
    obtain ⟨⟨⟩, hancestor, h⟩ := except_bind_eq_ok.1 h
    obtain ⟨⟨⟩, hcheck, -⟩ := except_bind_eq_ok.1 h
    exact known_pair (known_of_check hancestor) (known_of_check hcheck) _ hid

end Call

/-! ### Documents that calls lead to -/

/-- The documents that calls lead to, one after another, from a new document or that of a text.
A document that is read comes from calls itself; calls that are refused count as well. -/
inductive Reachable : Document → Prop where
  | ofRoot (serial : ℕ) (tag : String) : Reachable (ofRoot serial (.element tag []))
  | ofText (serial : ℕ) (text : String) : Reachable (ofText serial text)
  | call {d e : Document} {r : Except DocumentError (Option NodeId)} (c : Call) : Reachable d →
      (∀ source, c.source? = some source → Reachable source) → c.steps.on d = some (r, e) → Reachable e

theorem forest_ofRoot (serial : ℕ) (data : NodeData) : (ofRoot serial data).Forest ∧
    (ofRoot serial data).Stands (.single (ofRoot serial data).root data .bare) := by
  have hnode : ∀ id, (ofRoot serial data).node? id ≠ none → id = (ofRoot serial data).root := fun id hid ↦ by
    obtain ⟨n, hn⟩ := Option.ne_none_iff_exists'.1 hid
    have hindex : id.index < 1 := index_lt_size hn
    exact NodeId.ext (document_eq hn) (Nat.lt_one_iff.1 hindex)
  have hstands : (ofRoot serial data).Stands (.single (ofRoot serial data).root data .bare) :=
    ⟨⟨_, _, _, rfl⟩, holds_single.2 ⟨by simp [ofRoot, node?, root, handle], trivial⟩, by simp,
      proper_single.2 ⟨fun _ ↦ rfl, trivial⟩⟩
  exact ⟨⟨⟨_, hstands, rfl⟩, fun id hid ↦ ⟨_, hstands, by simp [hnode id hid]⟩⟩, hstands⟩

theorem forest_addParagraph {sub : Grove} {tag : String} (hd : d.Forest) (hroot : d.Stands (.single d.root (.element tag []) sub))
    (line : List Char) : (d.addParagraph line).Forest ∧
      ∃ sub, (d.addParagraph line).Stands (.single (d.addParagraph line).root (.element tag []) sub) := by
  have hElement : ∀ tag attrs, ¬(NodeData.element tag attrs).IsText := by rintro _ _ ⟨_, hs⟩; contradiction
  -- the paragraph and its run, on their own
  let d₁ := (d.create (.element paragraphTag [])).2
  let d₂ := (d₁.create (.text (String.ofList line))).2
  have hd₁ : d₁.Forest := hd.create _
  have hd₂ : d₂.Forest := hd₁.create _
  have hparagraph₁ : d₁.Stands (.single d.fresh (.element paragraphTag []) .bare) := Stands.create d _
  have hext₁ : Extends d d₁ := .create ..
  have hext₂ : Extends d₁ d₂ := .create ..
  have hparagraph₂ : d₂.Stands (.single d.fresh (.element paragraphTag []) .bare) :=
    hparagraph₁.congr fun id hid ↦ hext₂.stay id (hparagraph₁.holds.known id hid)
  have hrun : d₂.Stands (.single d₁.fresh (.text (String.ofList line)) .bare) := Stands.create d₁ _
  have hrootknown : d.node? d.root ≠ none := hroot.holds.known _ (by simp)
  have hne : d₁.fresh ≠ d.fresh := fun heq ↦ hparagraph₁.holds.known d.fresh (by simp) (heq ▸ node?_fresh d₁)
  have hrunroot : d₁.fresh ≠ d₂.root := fun heq ↦ hext₁.grows.known _ hrootknown (heq ▸ node?_fresh d₁)
  obtain ⟨hd₃, hparagraph⟩ := hd₂.appendNew hparagraph₂ hrun hne (hElement _ _) hrunroot
  -- the root takes the paragraph
  have hroot₃ : (d₂.appendNew d.fresh d₁.fresh).Stands (.single d.root (.element tag []) sub) :=
    hroot.congr fun id hid ↦ by
      have hknown := hroot.holds.known id hid
      have hid₁ : id ≠ d.fresh := fun heq ↦ hknown (heq ▸ node?_fresh d)
      have hid₂ : id ≠ d₁.fresh := fun heq ↦ hext₁.grows.known id hknown (heq ▸ node?_fresh d₁)
      rw [appendNew, node?_modify_of_ne hid₁, node?_modify_of_ne hid₂, (hext₁.trans hext₂).stay id hknown]
  have hfresh : d.fresh ≠ d.root := fun heq ↦ hrootknown (heq ▸ node?_fresh d)
  have hsame : (d₂.appendNew d.fresh d₁.fresh).root = d.root := by simp [appendNew, d₂, d₁]
  obtain ⟨hforest, hstands⟩ := hd₃.appendNew hroot₃ hparagraph hfresh (hElement _ _) (hsame ▸ hfresh)
  have hrest : (d.addParagraph line).root = d.root := by simp [addParagraph, appendNew, createElement, createText]
  refine ⟨hforest, ?_⟩
  rw [hrest]
  exact ⟨_, hstands⟩

theorem forest_ofText (serial : ℕ) (text : String) : (ofText serial text).Forest := by
  have hall : ∀ (lines : List (List Char)) (d : Document), d.Forest → (∃ sub, d.Stands (.single d.root (.element rootTag []) sub)) →
      (lines.foldl addParagraph d).Forest := fun lines ↦ by
    induction lines with
    | nil => exact fun d hd _ ↦ hd
    | cons line lines ih =>
      rintro d hd ⟨sub, hroot⟩
      obtain ⟨hforest, hstands⟩ := forest_addParagraph hd hroot line
      exact ih _ hforest hstands
  obtain ⟨hforest, hstands⟩ := forest_ofRoot serial (.element rootTag [])
  exact hall _ _ hforest ⟨_, hstands⟩

theorem Reachable.forest (h : d.Reachable) : d.Forest := by
  induction h with
  | ofRoot serial tag => exact (forest_ofRoot serial _).1
  | ofText serial text => exact forest_ofText serial text
  | @call d e r c hd hsource hon hforest hsources =>
    have hsettles := c.settles hforest hsources
    rw [hsettles.on] at hon
    cases happly : c.apply d with
    | error x =>
      rw [happly] at hon
      obtain ⟨-, rfl⟩ := Prod.mk.inj (Option.some.inj hon)
      exact hforest
    | ok p =>
      rw [happly] at hon
      obtain ⟨-, rfl⟩ := Prod.mk.inj (Option.some.inj hon)
      exact hsettles.forest _ _ happly

/-- Whatever calls have led to it, a document is a well-formed forest, and the handles it holds are
its own. A further call, with whatever handles, comes to an end without missing an index, with the
outcome of the edit as it is defined; when it is refused it leaves the document as it was, and given
the handle of another document it is refused, unless it cannot fail. -/
theorem Reachable.intact (h : d.Reachable) : d.WellFormed ∧
    (∀ id p, d.parent? id = some p → d.node? p ≠ none) ∧ (∀ p id, id ∈ d.children p → d.node? id ≠ none) ∧
    ∀ c : Call, (∀ source, c.source? = some source → source.Reachable) →
      ∃ r e, c.steps.on d = some (r, e) ∧ c.apply d = r.map (·, e) ∧ (∀ x, r = .error x → e = d) ∧
        ((∃ id ∈ c.handles, id.document ≠ (c.home d).serial) → ∃ x, r = .error x) := by
  have hwf := h.forest.wellFormed
  refine ⟨hwf, fun _ _ ↦ hwf.known_parent, fun _ _ ↦ hwf.known_child, fun c hsource ↦ ?_⟩
  have hsettles := c.settles h.forest fun source hs ↦ (hsource source hs).forest
  cases happly : c.apply d with
  | error x =>
    rw [happly] at hsettles
    exact ⟨_, _, hsettles.on, rfl, fun _ _ ↦ rfl, fun _ ↦ ⟨x, rfl⟩⟩
  | ok p =>
    rw [happly] at hsettles
    refine ⟨_, _, hsettles.on, rfl, by simp, fun ⟨id, hin, hforeign⟩ ↦ ?_⟩
    exact absurd (if_neg hforeign) (Call.known_of_ok happly id hin)

theorem Reachable.intact_cycle : ∃ d : Document, d.Reachable ∧ d.WellFormed ∧ d.parent? ⟨0, 2⟩ = some ⟨0, 1⟩ ∧
    (Call.appendChild ⟨0, 2⟩ ⟨0, 1⟩).steps.on d = some (.error (.cycle ⟨0, 2⟩ ⟨0, 1⟩), d) := by
  have hnone : ∀ {c : Call}, c.source? = none → ∀ source, c.source? = some source → source.Reachable := fun h source hs ↦ by
    rw [h] at hs
    contradiction
  have hparagraph := (Reachable.ofRoot 0 "doc").call (.createElement "p") (hnone rfl) rfl
  have htext := hparagraph.call (.createText "a") (hnone rfl) rfl
  have hlinked := htext.call (.appendChild ⟨0, 1⟩ ⟨0, 2⟩) (hnone rfl) rfl
  obtain ⟨hwf, -, -, hcalls⟩ := Reachable.intact hlinked
  obtain ⟨r, e, hon, happly, hkept, -⟩ := hcalls (.appendChild ⟨0, 2⟩ ⟨0, 1⟩) (hnone rfl)
  refine ⟨_, hlinked, hwf, rfl, ?_⟩
  cases r with
  | ok a => contradiction
  | error x =>
    obtain rfl := hkept x rfl
    obtain rfl : _ = x := Except.error.inj happly
    exact hon

end Stencil.Document
