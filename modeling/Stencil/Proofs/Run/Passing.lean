import Stencil.Command.Missing
import Stencil.Proofs.Grove.Slices
import Stencil.Proofs.Run.Ahead
/-!
Searches in a run, over trees of any shape. A command that looks for the end of its block goes
forward from its placeholder, cuts texts around the markers that it passes, and touches nothing else.
The end that it finds is the marker that the payloads behind its placeholder say.
-/

namespace Stencil

open Grove

/-- A later state of a run, up to which the tree has only been cut around markers behind some of its
nodes. -/
structure RunState.Passes (t : Delimiters) (r r' : RunState) (T T' : Grove) (xs : List NodeId) : Prop where
  model : r'.model = r.model
  aliases : r'.aliases = r.aliases
  keeps : Document.Keeps r.document r'.document
  forest : r'.document.Forest
  stands : r'.document.Stands T'
  sliced : T.Sliced t T'
  order : xs <+: T'.order
  front : ∀ id ∈ xs, r'.document.data? id = r.document.data? id
  apart : ∀ id, r.document.Past T xs id → r'.document.node? id = r.document.node? id
  fresh : ∀ id ∈ T'.order, id ∈ T.order ∨ r.document.node? id = none
  made : ∀ id, r'.document.node? id ≠ none → r.document.node? id ≠ none ∨ id ∈ T'.order

namespace RunState.Passes

variable {t : Delimiters} {r r' r'' : RunState} {T T' T'' : Grove} {xs ys : List NodeId}

theorem refl (t : Delimiters) (hd : r.document.Forest) (h : r.document.Stands T) (hxs : xs <+: T.order) :
    r.Passes t r T T xs := ⟨rfl, rfl, .refl _, hd, h, .refl, hxs, fun _ _ ↦ rfl, fun _ _ ↦ rfl, fun _ hid ↦ .inl hid,
  fun _ hid ↦ .inl hid⟩

theorem trans (h : r.Passes t r' T T' xs) (h' : r'.Passes t r'' T' T'' ys) (hxs : xs <+: ys) : r.Passes t r'' T T'' xs where
  model := h'.model.trans h.model
  aliases := h'.aliases.trans h.aliases
  keeps := h.keeps.trans h'.keeps
  forest := h'.forest
  stands := h'.stands
  sliced := h.sliced.trans h'.sliced
  order := hxs.trans h'.order
  front id hid := (h'.front id (hxs.subset hid)).trans (h.front id hid)
  apart id hid := by
    have hnode := h.apart id hid
    have hchildren : r'.document.children id = r.document.children id := by
      rw [Document.children, Document.children, hnode]
    refine (h'.apart id fun y hy ↦ ?_).trans hnode
    rw [hchildren] at hy
    obtain ⟨hknown, hpast⟩ := hid y hy
    refine ⟨h.keeps.known y hknown, fun hin ↦ ?_⟩
    rcases h.fresh y hin with hin | hnone
    · exact hxs.subset (hpast hin)
    · exact absurd hnone hknown
  fresh id hid := by
    rcases h'.fresh id hid with hin | hnew
    · exact h.fresh id hin
    · exact .inr (h.keeps.unknown hnew)
  made id hid := by
    rcases h'.made id hid with hknown | hin
    · exact (h.made id hknown).imp_right fun hin ↦ Document.order_sliced h'.sliced hin
    · exact .inr hin

end RunState.Passes

variable {t : Delimiters} {r : RunState} {T : Grove} {xs zs : List NodeId} {id x : NodeId}

/-- A text behind some nodes of a tree, in document order. -/
def Document.Behind (d : Document) (T : Grove) (xs : List NodeId) (m : NodeId) : Prop :=
  d.isText m = true ∧ ∃ ys zs, T.order = xs ++ (ys ++ m :: zs)

theorem Document.Stands.nextAfter?_text {d : Document} (h : d.Stands T) (horder : T.order = xs ++ x :: zs)
    (hx : d.isText x = true) : d.nextAfter? x = zs.head? := by
  obtain ⟨sub, xdata, fs, rfl, -, rfl⟩ := h.exists_place_of_order horder
  rw [h.nextAfter?, h.bare_of_text hx]
  rfl

/-- The marker of a number among those in the texts of some nodes, as a text of its own. -/
structure Document.Numbered (t : Delimiters) (d : Document) (ids : List NodeId) (ps : List (List Char)) (k : ℕ) (m : NodeId) :
    Prop where
  split : ∃ ys us p, ids = ys ++ m :: us ∧ d.payloadsAt t ys = ps.take k ∧ ps[k]? = some p ∧
    d.text? m = some (String.ofList (t.enclose p)) ∧ d.payloadsAt t us = ps.drop (k + 1)

theorem Document.length_payloadsAt_lt {d : Document} {ids : List NodeId} (ht : t.Proper) (hnodup : ids.Nodup)
    (hknown : ∀ id ∈ ids, d.node? id ≠ none) : (d.payloadsAt t ids).length < Selection.placeholderBound d := by
  refine lt_of_le_of_lt ?_ (shares_lt hnodup hknown)
  rw [payloadsAt, List.length_flatMap]
  apply List.sum_le_sum
  intro id hid
  obtain ⟨⟨data, parent?, children⟩, hnode⟩ := Option.ne_none_iff_exists'.1 (hknown id hid)
  have hslot : d.nodes[id.index]? = some ⟨data, parent?, children⟩ := by
    have h := hnode
    rwa [node?, if_pos (document_eq hnode)] at h
  rw [text?, data?, hnode, shareAt, hslot]
  cases data with
  | element => exact Nat.zero_le _
  | text s =>
    have hle := Delimiters.markers_pieces_le ht s.toList
    rw [String.length_toList, ← Piece.length_payloads] at hle
    exact Nat.le_succ_of_le hle

theorem Delimiters.payloads_of_payload? (ht : t.Proper) {s p : List Char} (h : t.payload? s = some p) : t.payloads s = [p] := by
  rw [payload?] at h
  split at h
  · next hcut =>
    obtain rfl := Option.some.inj h
    rw [payloads_cut ht hcut, payloads_nil ht]
  · contradiction

theorem Run.search_passes (hd : r.document.Forest) (h : r.document.Stands T) (horder : T.order = xs ++ id :: zs) (hxs : xs ≠ []) :
    ∃ found? r' T' zs', (Run.search (Toolkit.ofDelimiters t) id).on r = (.ok found?, r') ∧ r.Passes t r' T T' xs ∧
      T'.order = xs ++ zs' ∧ (∀ m ∈ found?, r.document.Meets t r'.document (id :: zs) zs' m) ∧
      (found? = none → r.document.payloadsAt t (id :: zs) = []) := by
  obtain ⟨e, split?, found?, T', zs', hsearch, hsearched, hfound, hnothing⟩ :=
    h.searchFrom t (r.document.size + 1) hd horder hxs
  have hresult : (Toolkit.ofDelimiters t).search (r.searches + 1) r.document id = ⟨e, split?, .ok found?⟩ := hsearch
  have hpasses : ∀ log, r.Passes t { r with document := e, searches := r.searches + 1, log } T T' xs := fun log ↦
    ⟨rfl, rfl, hsearched.toKeeps, hsearched.forest, hsearched.stands, hsearched.sliced, ⟨_, hsearched.order.symm⟩,
      hsearched.front, hsearched.apart, hsearched.fresh, hsearched.made⟩
  have hsize : zs.length < r.document.size + 1 := by
    have hlength := h.order_length
    rw [horder, List.length_append, List.length_cons] at hlength
    omega
  refine ⟨found?, r.sought ⟨e, split?, .ok found?⟩, T', id :: zs', ?_, hpasses _, hsearched.order, hfound,
    fun hnone ↦ hnothing hnone hsize⟩
  rw [Run.on_search, hresult]
  rfl

namespace Selection

theorem nameOf?_looks (t : Toolkit) (id : NodeId) (r : RunState) : ∃ name?, (nameOf? t id).on r = (.ok name?, r) :=
  ⟨_, rfl⟩

/-- What the search for a closing marker finds among the markers of some payloads: the one that these say. -/
def Finds (t : Delimiters) (r : RunState) (openers : List String) (closer : String) (nesting : Nesting) (ps : List (List Char))
    (d : Document) (ids : List NodeId) : Option NodeId → Prop
  | none => nesting.closing? r.aliases openers closer ps = none
  | some m => ∃ k, nesting.closing? r.aliases openers closer ps = some k ∧ d.Numbered t ids ps k m

/-- A marker behind one that does not close the block. -/
theorem Finds.behind {r' r'' : RunState} {openers : List String} {closer : String} {nesting : Nesting} {p : List Char}
    {ps : List (List Char)} {ys us : List NodeId} {found : NodeId} {found? : Option NodeId} (ht : t.Proper)
    (hcloses : nesting.closes closer (r.aliases.nameOf? p) = false) (hys : r'.document.payloadsAt t ys = [])
    (htext : r'.document.text? found = some (String.ofList (t.enclose p))) (hread : t.payload? (t.enclose p) = some p)
    (haliases : r'.aliases = r.aliases)
    (hdata : ∀ id ∈ ys ++ [found], r''.document.data? id = r'.document.data? id)
    (h : Finds t r' openers closer (nesting.pass openers closer (r.aliases.nameOf? p)) ps r''.document us found?) :
    Finds t r openers closer nesting (p :: ps) r''.document (ys ++ found :: us) found? := by
  have hstep : nesting.closing? r.aliases openers closer (p :: ps) =
      ((nesting.pass openers closer (r.aliases.nameOf? p)).closing? r.aliases openers closer ps).map (· + 1) := by
    rw [Nesting.closing?, if_neg (by simp [hcloses])]
  cases found? with
  | none =>
    rw [Finds, haliases] at h
    rw [Finds, hstep, h]
    rfl
  | some m =>
    obtain ⟨k, hk, vs, ws, q, rfl, hvs, hq, hm, hws⟩ := h
    rw [haliases] at hk
    have hfront : r''.document.payloadsAt t (ys ++ [found]) = [p] := by
      rw [Document.payloadsAt_congr hdata, Document.payloadsAt_append, hys, Document.payloadsAt_text t htext,
        String.toList_ofList, Delimiters.payloads_of_payload? ht hread, List.nil_append]
    refine ⟨k + 1, by rw [hstep, hk]; rfl, ys ++ [found] ++ vs, ws, q, by simp, ?_, by simpa using hq, hm, by simpa using hws⟩
    rw [Document.payloadsAt_append, hfront, hvs, List.take_succ_cons]
    rfl

/-- The search for the end of a block finds a text behind the nodes in front of where it begins. -/
theorem seekEnd_passes (openers : List String) (closer : String) : ∀ (n : ℕ) (nesting : Nesting) {r : RunState} {T : Grove}
    {xs zs : List NodeId}, r.document.Forest → r.document.Stands T → xs ≠ [] → T.order = xs ++ zs → ∃ found? r' T' zs',
      (seekEnd (Toolkit.ofDelimiters t) openers closer n nesting zs.head?).on r = (.ok found?, r') ∧ r.Passes t r' T T' xs ∧
      T'.order = xs ++ zs' ∧ (∀ m ∈ found?, r'.document.isText m = true ∧ m ∈ zs') ∧
      (t.Proper → (r.document.payloadsAt t zs).length < n →
        Finds t r openers closer nesting (r.document.payloadsAt t zs) r'.document zs' found?)
  | 0, _, r, T, xs, zs, hd, h, _, horder =>
    ⟨none, r, T, zs, rfl, .refl t hd h ⟨zs, horder.symm⟩, horder, by simp, fun _ hlt ↦ absurd hlt (Nat.not_lt_zero _)⟩
  | _ + 1, _, r, T, xs, [], hd, h, _, horder =>
    ⟨none, r, T, [], rfl, .refl t hd h ⟨[], horder.symm⟩, horder, by simp, fun _ _ ↦ rfl⟩
  | n + 1, nesting, r, T, xs, id :: zs, hd, h, hxs, horder => by
    obtain ⟨found?, r₁, T₁, zs₁, hsearch, hpasses, horder₁, hfound, hnothing⟩ := Run.search_passes (t := t) hd h horder hxs
    rw [List.head?_cons, seekEnd, Run.on_bind_ok hsearch]
    cases found? with
    | none =>
      refine ⟨none, r₁, T₁, zs₁, rfl, hpasses, horder₁, by simp, fun _ _ ↦ ?_⟩
      rw [hnothing rfl]
      rfl
    | some found =>
      obtain ⟨htext, ys, us, rfl, hfirst⟩ := hfound found rfl
      obtain ⟨name?, hname⟩ := nameOf?_looks (Toolkit.ofDelimiters t) found r₁
      have hnamed : ∀ {p}, r₁.document.text? found = some (String.ofList (t.enclose p)) →
          t.payload? (t.enclose p) = some p → name? = r.aliases.nameOf? p := by
        intro p hp hread
        have := (nameOf?_met hp hread).symm.trans hname
        rw [hpasses.aliases] at this
        simpa using this.symm
      dsimp only
      rw [Run.on_bind_ok hname]
      by_cases hcloses : nesting.closes closer name? = true
      · rw [if_pos hcloses]
        refine ⟨some found, r₁, T₁, ys ++ found :: us, rfl, hpasses, horder₁, ?_, fun ht _ ↦ ?_⟩
        · intro m hm
          obtain rfl : found = m := by simpa using hm
          exact ⟨htext, by simp⟩
        · obtain ⟨p, hys, hp, hread, hold⟩ := hfirst ht
          rw [hnamed hp hread] at hcloses
          rw [hold]
          exact ⟨0, by rw [Nesting.closing?, if_pos hcloses], ys, us, p, rfl, hys, rfl, hp, rfl⟩
      · -- the search goes on behind what was found
        rw [if_neg hcloses, Run.on_bind_ok (Run.on_document r₁)]
        have hsplit : T₁.order = (xs ++ ys) ++ found :: us := by rw [horder₁, List.append_assoc]
        have hsplit' : T₁.order = (xs ++ (ys ++ [found])) ++ us := by rw [horder₁]; simp
        have hsome : xs ++ (ys ++ [found]) ≠ [] := by simp
        rw [hpasses.stands.nextAfter?_text hsplit htext]
        obtain ⟨found?, r₂, T₂, us', hseek, hpasses₂, horder₂, hfound₂, hfinds⟩ := seekEnd_passes openers closer n
          (nesting.pass openers closer name?) hpasses.forest hpasses.stands hsome hsplit'
        refine ⟨found?, r₂, T₂, ys ++ found :: us', hseek, hpasses.trans hpasses₂ (List.prefix_append ..), ?_, ?_, fun ht hlt ↦ ?_⟩
        · rw [horder₂]
          simp
        · intro m hm
          obtain ⟨hm, hin⟩ := hfound₂ m hm
          exact ⟨hm, by simp [hin]⟩
        · obtain ⟨p, hys, hp, hread, hold⟩ := hfirst ht
          obtain rfl := hnamed hp hread
          rw [hold] at hlt ⊢
          have hrest := hfinds ht (by simpa using hlt)
          exact hrest.behind ht (by simpa using hcloses) hys hp hread hpasses.aliases fun id hid ↦
            hpasses₂.front id (List.mem_append_right _ hid)

/-- The search for the end of a block from behind a place in the tree. -/
theorem areaEnd_finds {s : Selection} (htoolkit : s.toolkit? = some (Toolkit.ofDelimiters t)) (hd : r.document.Forest)
    (h : r.document.Stands T) (hxs : xs ≠ []) (horder : T.order = xs ++ zs) (hnext : r.document.nextAfter? s.node = zs.head?)
    (openers : List String) (closer : String) : ∃ found? r' T' zs', (s.areaEnd openers closer).on r = (match found? with
        | some id => .ok id
        | none => .error (.structure (.noClosing s.command.name closer)), r') ∧ r.Passes t r' T T' xs ∧ T'.order = xs ++ zs' ∧
      (∀ m ∈ found?, r'.document.isText m = true ∧ m ∈ zs') ∧
      (t.Proper → Finds t r openers closer ⟨0, false⟩ (r.document.payloadsAt t zs) r'.document zs' found?) := by
  obtain ⟨found?, r', T', zs', hseek, hpasses, horder', hfound, hfinds⟩ := seekEnd_passes (t := t) openers closer
    (placeholderBound r.document) ⟨0, false⟩ hd h hxs horder
  have hnodup := h.nodup
  rw [horder] at hnodup
  have hknown : ∀ id ∈ zs, r.document.node? id ≠ none := by
    intro id hid
    exact h.holds.known id (by rw [horder]; exact List.mem_append_right _ hid)
  refine ⟨found?, r', T', zs', ?_, hpasses, horder', hfound, fun ht ↦
    hfinds ht (Document.length_payloadsAt_lt ht (List.nodup_append.1 hnodup).2.1 hknown)⟩
  rw [areaEnd, toolkit, htoolkit, Run.on_bind_ok (Run.on_pure _ r), Run.on_bind_ok (Run.on_document r), hnext,
    Run.on_bind_ok hseek]
  cases found? <;> rfl

/-- The end of a block is a text behind the placeholder, or there is none. -/
theorem areaEnd_passes {s : Selection} (htoolkit : s.toolkit? = some (Toolkit.ofDelimiters t)) (hd : r.document.Forest)
    (h : r.document.Stands T) (horder : T.order = xs ++ s.node :: zs) (hnode : r.document.isText s.node = true)
    (openers : List String) (closer : String) : ∃ r' T', r.Passes t r' T T' (xs ++ [s.node]) ∧
      ((s.areaEnd openers closer).on r = (.error (.structure (.noClosing s.command.name closer)), r') ∨
        ∃ c, (s.areaEnd openers closer).on r = (.ok c, r') ∧ r'.document.Behind T' (xs ++ [s.node]) c) := by
  have hbehind : T.order = (xs ++ [s.node]) ++ zs := by rw [horder]; simp
  obtain ⟨found?, r', T', zs', hon, hpasses, horder', hfound, -⟩ := areaEnd_finds htoolkit hd h (by simp) hbehind
    (h.nextAfter?_text horder hnode) openers closer
  refine ⟨r', T', hpasses, ?_⟩
  cases found? with
  | none => exact .inl hon
  | some c =>
    obtain ⟨htext, hin⟩ := hfound c rfl
    obtain ⟨ys, us, rfl⟩ := List.append_of_mem hin
    exact .inr ⟨c, hon, htext, ys, us, horder'⟩

end Selection

end Stencil
