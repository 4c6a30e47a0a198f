import Stencil.Proofs.Grove.Deletion
import Stencil.Proofs.Run.Atomic
import Stencil.Proofs.Run.Passing
/-!
What a failure may leave of a run: the variables, the cursor and the aliases as they were, and a tree
in which texts have at most been cut around the markers in them, with the placeholder in its place.
-/

namespace Stencil

open Grove

/-- A command at work in a text of the tree of a document. -/
structure Selection.InPlace (t : Delimiters) (s : Selection) (d : Document) : Prop where
  toolkit : s.toolkit? = some (Toolkit.ofDelimiters t)
  wellFormed : d.WellFormed
  attached : d.isAttached s.node = true
  text : d.isText s.node = true

/-- A state that a failure of a command at a node may leave. -/
structure RunState.Spared (t : Delimiters) (id : NodeId) (r r' : RunState) : Prop where
  model : r'.model = r.model
  aliases : r'.aliases = r.aliases
  wellFormed : r'.document.WellFormed
  marker : r'.document.text? id = r.document.text? id
  attached : r'.document.isAttached id = true
  tree : ∃ T T', r.document.Stands T ∧ T.tops = [r.document.root] ∧ r'.document.Stands T' ∧
    T'.tops = [r'.document.root] ∧ T.Sliced t T'

variable {t : Delimiters} {s : Selection} {r r₁ r₂ : RunState}

theorem Selection.InPlace.exists_tree {d : Document} (h : s.InPlace t d) : ∃ T xs zs, d.Stands T ∧ T.tops = [d.root] ∧
    T.order = xs ++ s.node :: zs := by
  obtain ⟨T, hT, htops, horder⟩ := h.wellFormed.forest.exists_root
  have hin := h.attached
  rw [h.wellFormed.forest.isAttached_iff_mem, horder] at hin
  obtain ⟨xs, zs, hsplit⟩ := List.append_of_mem hin
  exact ⟨T, xs, zs, hT, htops, hsplit⟩

namespace RunState.Spared

theorem refl (h : s.InPlace t r.document) : r.Spared t s.node r := by
  obtain ⟨T, _, _, hT, htops, -⟩ := h.exists_tree
  exact ⟨rfl, rfl, h.wellFormed, rfl, h.attached, T, T, hT, htops, hT, htops, .refl⟩

theorem same {id : NodeId} (h : r.Spared t id r₁) (hs : r₁.Same r₂) : r.Spared t id r₂ where
  model := hs.model.trans h.model
  aliases := hs.aliases.trans h.aliases
  wellFormed := hs.document ▸ h.wellFormed
  marker := hs.document ▸ h.marker
  attached := hs.document ▸ h.attached
  tree := hs.document ▸ h.tree

theorem of_same {id : NodeId} (hs : r.Same r₁) (h : r₁.Spared t id r₂) : r.Spared t id r₂ where
  model := h.model.trans hs.model
  aliases := h.aliases.trans hs.aliases
  wellFormed := h.wellFormed
  marker := hs.document ▸ h.marker
  attached := h.attached
  tree := hs.document ▸ h.tree

theorem of_stay (h : s.InPlace t r.document) (hr : r₁.model = r.model ∧ r₁.aliases = r.aliases) (he : r₁.document.Forest)
    (hgrows : Document.Grows r.document r₁.document)
    (hstay : ∀ id, r.document.node? id ≠ none → r₁.document.node? id = r.document.node? id) : r.Spared t s.node r₁ := by
  obtain ⟨T, xs, zs, hT, htops, horder⟩ := h.exists_tree
  have hT₁ : r₁.document.Stands T := hT.congr fun id hid ↦ hstay id (hT.holds.known id hid)
  have hin : s.node ∈ T.order := by simp [horder]
  have htops₁ : T.tops = [r₁.document.root] := by rw [htops, hgrows.root]
  refine ⟨hr.1, hr.2, he.wellFormed, ?_, (hT₁.isAttached_iff he.wellFormed.topmost hin).2 htops₁, T, T, hT, htops, hT₁, htops₁, .refl⟩
  rw [Document.text?, Document.text?, Document.data?, Document.data?, hstay _ (hT.holds.known _ hin)]

/-- Cuts of texts behind the placeholder are all that a search makes. -/
theorem of_passes {T T' : Grove} {xs : List NodeId} {id : NodeId} (hT : r.document.Stands T) (htops : T.tops = [r.document.root])
    (h : r.Passes t r₁ T T' xs) (hid : id ∈ xs) : r.Spared t id r₁ where
  model := h.model
  aliases := h.aliases
  wellFormed := h.forest.wellFormed
  marker := by rw [Document.text?, Document.text?, h.front id hid]
  attached := by
    rw [h.stands.isAttached_iff h.forest.wellFormed.topmost (h.order.subset hid), Document.tops_sliced h.sliced, htops,
      h.keeps.toGrows.root]
  tree := ⟨T, T', hT, htops, h.stands, by rw [Document.tops_sliced h.sliced, htops, h.keeps.toGrows.root], h.sliced⟩

end RunState.Spared

/-! ### Texts of a tree that is cut -/

theorem Payload.Cut.join_pieces {u : String} {c : Payload.Cut} (h : t.cut? u.toList = some c) : String.join (c.pieces t) = u := by
  have hwhole : u = String.ofList c.before ++ (String.ofList (t.enclose c.payload) ++ String.ofList c.after) := by
    rw [← String.ofList_append, ← String.ofList_append, ← List.append_assoc, ← Delimiters.cut?_eq_append h, String.ofList_toList]
  rw [Payload.Cut.pieces]
  cases hbefore : c.before <;> cases hafter : c.after <;> simp_all

theorem Grove.filterMap_row (ts : List (NodeId × String)) (above : List NodeData) :
    ((row ts).lineages above).filterMap Lineage.text? = ts.map Prod.snd := by
  induction ts with
  | nil => rfl
  | cons u ts ih => simp [row, lineages, Lineage.text?, ih]

/-- Cuts leave the texts of a tree, one after another, as they were. -/
theorem Grove.Sliced.join_text {g g' : Grove} (h : g.Sliced t g') :
    String.join ((g'.lineages []).filterMap Lineage.text?) = String.join ((g.lineages []).filterMap Lineage.text?) := by
  induction h with
  | refl => rfl
  | @cut f fs x u first c rest _ hcut hpieces ih =>
    have hjoin := Payload.Cut.join_pieces hcut
    rw [hpieces] at hjoin
    have hparts : ∀ (v : String) (ts : List (NodeId × String)),
        ((plug ({ f with right := row ts ++ f.right } :: fs) (.single x (.text v) .bare)).lineages []).filterMap Lineage.text? =
          (linesBefore [] (f :: fs)).filterMap Lineage.text? ++ ((v :: ts.map Prod.snd) ++
            (linesBehind [] (f :: fs)).filterMap Lineage.text?) := fun v ts ↦ by
      rw [lineages_plug, lineages_single, List.filterMap_append, List.filterMap_append, linesBehind, linesBehind, lineages_append,
        List.filterMap_append, List.filterMap_append, List.filterMap_append, filterMap_row]
      simp [linesBefore, Lineage.text?]
    have hwhole := hparts u []
    rw [row, bare_append] at hwhole
    rw [← ih, hwhole, hparts, String.join_append, String.join_append, hjoin, String.join_append, String.join_append]
    simp

theorem RunState.Spared.textContent {id : NodeId} (h : r.Spared t id r₁) :
    r₁.document.textContent r₁.document.root = r.document.textContent r.document.root := by
  obtain ⟨T, T', hT, htops, hT', htops', hsliced⟩ := h.tree
  have hread : ∀ {d : Document} {g : Grove}, d.Stands g → g.tops = [d.root] →
      d.textContent d.root = String.join ((g.lineages []).filterMap Lineage.text?) := fun {d g} hg htops ↦ by
    obtain ⟨top, data, sub, rfl⟩ := hg.single
    obtain rfl : top = d.root := (List.cons.inj htops).1
    have hplace : d.Stands (plug [] (.single d.root data sub)) := hg
    have hids : ((Grove.single d.root data sub).lineages []).map Lineage.id = _ := lineages_id
    rw [Document.textContent, hplace.descendants, ← order_single, ← hids, Area.filterMap_text hg.agrees]
  rw [hread hT' htops', hread hT htops, hsliced.join_text]

namespace Run

variable {α β : Type} {x : Run α} {k : α → Run β} {id : NodeId} {a : α}

/-- Whenever a step fails that is taken in a state to which a command at a node has led, it leaves a
state that a failure of the command may leave. -/
def Spares (t : Delimiters) (id : NodeId) (r : RunState) (x : Run α) (r₁ : RunState) : Prop :=
  ∀ e r', x.on r₁ = (.error e, r') → r.Spared t id r'

theorem Atomic.spares (hx : Atomic x) (h : r.Spared t id r₁) : Spares t id r x r₁ := fun e r' hon ↦ h.same (hx r₁ e r' hon)

theorem Total.spares (hx : Total x) : Spares t id r x r₁ := fun e r' hon ↦ by
  obtain ⟨a, r₂, hok⟩ := hx r₁
  simp [hok] at hon

theorem spares_of_ok (hx : x.on r₁ = (.ok a, r₂)) : Spares t id r x r₁ := fun e r' hon ↦ by
  simp [hx] at hon

theorem spares_bind (hx : Atomic x) (h : r.Spared t id r₁)
    (hk : ∀ a r₂, x.on r₁ = (.ok a, r₂) → Spares t id r (k a) r₂) : Spares t id r (x >>= k) r₁ := fun e r' hon ↦ by
  rcases hon₁ : x.on r₁ with ⟨e₁ | a, r₂⟩
  · rw [on_bind_error hon₁] at hon
    exact (Prod.mk.inj hon).2 ▸ h.same (hx r₁ e₁ r₂ hon₁)
  · rw [on_bind_ok hon₁] at hon
    exact hk a r₂ hon₁ e r' hon

/-- A step that only looks may come first. -/
theorem Quiet.spares_bind (hx : Quiet x) (h : s.InPlace t r.document)
    (hk : ∀ a r₁, x.on r = (.ok a, r₁) → r.Same r₁ → s.InPlace t r₁.document → Spares t s.node r₁ (k a) r₁) :
    Spares t s.node r (x >>= k) r :=
  Run.spares_bind hx.atomic (.refl h) fun a r₁ hon e r' hfail ↦ by
    have hsame := hx r
    rw [hon] at hsame
    exact .of_same hsame (hk a r₁ hon hsame (hsame.document ▸ h) e r' hfail)

theorem spares_bind_ok (hx : x.on r₁ = (.ok a, r₂)) (hk : Spares t id r (k a) r₂) : Spares t id r (x >>= k) r₁ := fun e r' hon ↦ by
  rw [on_bind_ok hx] at hon
  exact hk e r' hon

theorem spares_bind_error {e₁ : RunError} (hx : x.on r₁ = (.error e₁, r₂)) (h : r.Spared t id r₂) : Spares t id r (x >>= k) r₁ :=
  fun e r' hon ↦ by
    rw [on_bind_error hx] at hon
    exact (Prod.mk.inj hon).2 ▸ h

theorem spares_ofExcept {ε : Type} {wrap : ε → RunError} {y : Except ε α} (h : r.Spared t id r₁)
    (hk : ∀ a, y = .ok a → Spares t id r (k a) r₁) : Spares t id r (ofExcept wrap y >>= k) r₁ :=
  spares_bind (quiet_ofExcept wrap y).atomic h fun a r₂ hon ↦ by
    obtain ⟨hok, rfl⟩ := on_ofExcept_eq_ok hon
    exact hk a hok

end Run

end Stencil
