import Stencil.Proofs.Grove.Fork
import Stencil.Proofs.Grove.Division
import Stencil.Proofs.Payload.Endings
/-!
Texts of a tree cut around the markers in them. A search for a placeholder finds the first marker at or
behind the node where it begins. It cuts the text that the marker stands in, and does nothing else to the
document.
-/

namespace Stencil

open Grove

/-- The texts that a cut leaves, in order: what stands before the marker, unless that is nothing,
the marker, and what follows it, unless that is nothing. -/
def Payload.Cut.pieces (t : Delimiters) (c : Payload.Cut) : List String :=
  (if c.before.isEmpty then [] else [String.ofList c.before]) ++ String.ofList (t.enclose c.payload) ::
    if c.after.isEmpty then [] else [String.ofList c.after]

namespace Grove

def row : List (NodeId × String) → Grove
  | [] => bare
  | (id, s) :: ts => tree id (.text s) bare (row ts)

theorem row_nil : row [] = bare := rfl

theorem row_cons (id : NodeId) (s : String) (ts : List (NodeId × String)) :
    row ((id, s) :: ts) = single id (.text s) bare ++ row ts := rfl

@[simp] theorem tops_row (ts : List (NodeId × String)) : (row ts).tops = ts.map Prod.fst := by
  induction ts with
  | nil => rfl
  | cons t ts ih => rw [row, tops, ih, List.map_cons]

@[simp] theorem order_row (ts : List (NodeId × String)) : (row ts).order = ts.map Prod.fst := by
  induction ts with
  | nil => rfl
  | cons t ts ih => rw [row, order, ih, order_bare, List.nil_append, List.map_cons]

/-- A tree some of whose texts have been cut around their first markers, one cut after another. Of
the texts that a cut leaves the first stays in the node, and the others stand behind it in nodes of
their own. -/
inductive Sliced (t : Delimiters) (g : Grove) : Grove → Prop where
  | refl : Sliced t g g
  | cut {f : Frame} {fs : List Frame} {x : NodeId} {s first : String} {c : Payload.Cut} {rest : List (NodeId × String)} :
      Sliced t g (plug (f :: fs) (.single x (.text s) .bare)) → t.cut? s.toList = some c →
      c.pieces t = first :: rest.map Prod.snd →
      Sliced t g (plug ({ f with right := row rest ++ f.right } :: fs) (.single x (.text first) .bare))

variable {t : Delimiters} {g g' g'' : Grove} {f : Frame} {fs : List Frame} {x y : NodeId} {xdata ydata : NodeData}
  {sub ysub r : Grove}

theorem Sliced.trans (h : g.Sliced t g') (h' : g'.Sliced t g'') : g.Sliced t g'' := by
  induction h' with
  | refl => exact h
  | cut _ hcut hpieces ih => exact .cut ih hcut hpieces

end Grove

namespace Document

variable {t : Delimiters} {d e : Document} {g g' : Grove} {f : Frame} {fs : List Frame} {id x : NodeId}
  {xdata : NodeData} {sub sub' : Grove}

theorem tops_sliced (h : g.Sliced t g') : g'.tops = g.tops := by
  induction h with
  | refl => rfl
  | cut _ _ _ ih => rw [← ih, tops_plug, tops_plug, summit_cons, summit_cons]

theorem order_sliced (h : g.Sliced t g') : g.order ⊆ g'.order := by
  induction h with
  | refl => exact List.Subset.refl _
  | cut _ _ _ ih =>
    refine List.Subset.trans ih fun id hid ↦ ?_
    simp only [order_plug, order_single, before, behind, order_append, order_row, order_bare, List.mem_append, List.mem_cons] at hid ⊢
    tauto

/-- A later state of a document: the nodes there were have the parents that they had. -/
structure Keeps (d e : Document) : Prop extends Grows d e where
  parents : ∀ id, d.node? id ≠ none → e.parent? id = d.parent? id

theorem Keeps.refl (d : Document) : Keeps d d := ⟨.refl d, fun _ _ ↦ rfl⟩

theorem Keeps.trans {m : Document} (h : Keeps d m) (h' : Keeps m e) : Keeps d e :=
  ⟨h.toGrows.trans h'.toGrows, fun id hid ↦ (h'.parents id (h.known id hid)).trans (h.parents id hid)⟩

/-- Another grove below a node leaves the node and all others with the parents and the contents that
they had. -/
theorem Stands.keeps (h : d.Stands (plug fs (.single x xdata sub))) (h' : e.Stands (plug fs (.single x xdata sub')))
    (hgrows : Grows d e) (hstay : ∀ id, d.node? id ≠ none → id ≠ x → e.node? id = d.node? id) :
    Keeps d e ∧ ∀ id, d.node? id ≠ none → e.data? id = d.data? id := by
  have hnode : ∀ id, d.node? id ≠ none → e.parent? id = d.parent? id ∧ e.data? id = d.data? id := fun id hid ↦ by
    by_cases hx : id = x
    · rw [hx, h.parent?, h'.parent?, h.data?, h'.data?]
      exact ⟨rfl, rfl⟩
    · simp only [Document.parent?, Document.data?, hstay id hid hx, and_self]
  exact ⟨⟨hgrows, fun id hid ↦ (hnode id hid).1⟩, fun id hid ↦ (hnode id hid).2⟩

theorem Stands.addTextAfter (hd : d.Forest) (h : d.Stands (plug (f :: fs) (.single x xdata sub))) (s : String) :
    ∃ e, d.addTextAfter x s = (e, .ok d.fresh) ∧ e.Forest ∧
      e.Stands (plug ({ f with right := .tree d.fresh (.text s) .bare f.right } :: fs) (.single x xdata sub)) ∧
      Keeps d e ∧ (∀ id, d.node? id ≠ none → e.data? id = d.data? id) ∧
      ∀ id, id ≠ d.fresh → id ≠ f.id → e.node? id = d.node? id := by
  have hcreated : ∀ id, d.node? id ≠ none → (d.create (.text s)).2.node? id = d.node? id := fun id hid ↦ by
    rw [node?_create, if_neg]
    rintro rfl
    exact hid (node?_fresh d)
  have hfresh : d.fresh ∉ (plug (f :: fs) (.single x xdata sub)).order := fun hin ↦
    h.holds.known _ hin (node?_fresh d)
  have hplace : (d.create (.text s)).2.Stands (plug fs (.single f.id f.data (f.left ++ .single x xdata sub ++ f.right))) :=
    h.congr fun id hid ↦ hcreated id (h.holds.known id hid)
  have hroot : d.fresh ≠ (d.create (.text s)).2.root := fun heq ↦ hd.wellFormed.rooted (heq ▸ node?_fresh d)
  obtain ⟨e, hinsert, hforest, hstands, hgrows, hstay⟩ := hplace.insert (hd.create (.text s)) (tops_single ..)
    (Stands.create d (.text s)) hfresh hroot .after
  have hnew : e.Stands (plug ({ f with right := .tree d.fresh (.text s) .bare f.right } :: fs) (.single x xdata sub)) := by
    simpa only [plug_cons, Side.lay, tree_eq .bare f.right, append_assoc] using hstands
  -- the parent has one more child, and the other nodes are what they were
  have hupper : d.Stands (plug fs (.single f.id f.data (f.left ++ .single x xdata sub ++ f.right))) := h
  have hothers : ∀ id, id ≠ d.fresh → id ≠ f.id → e.node? id = d.node? id := by
    intro id hid hparent
    rw [hstay id hparent hid, node?_create, if_neg hid]
  obtain ⟨hkeeps, hdata⟩ := hupper.keeps hnew ((Grows.create d _).trans hgrows) fun id hid ↦
    hothers id fun heq ↦ hid (heq ▸ node?_fresh d)
  refine ⟨e, ?_, hforest, hnew, hkeeps, hdata, hothers⟩
  have hafter : (d.create (.text s)).2.insertAfter x d.fresh = .ok e := hinsert
  simp only [Document.addTextAfter, createText, create_fst, hafter]

theorem Stands.made_addTextAfter (h : d.Stands (plug (f :: fs) (.single x xdata sub)))
    (hnode : ∀ id, id ≠ d.fresh → id ≠ f.id → e.node? id = d.node? id) (id : NodeId) (hid : e.node? id ≠ none) :
    d.node? id ≠ none ∨ id = d.fresh := by
  by_cases hfresh : id = d.fresh
  · exact .inr hfresh
  · left
    by_cases hparent : id = f.id
    · rw [hparent, h.around.1]
      exact Option.some_ne_none _
    · rwa [← hnode id hfresh hparent]

theorem Stands.putText {s : String} (hd : d.Forest) (h : d.Stands (plug fs (.single x (.text s) .bare))) (s' : String) :
    (d.putText x s').Forest ∧ (d.putText x s').Stands (plug fs (.single x (.text s') .bare)) ∧
      Keeps d (d.putText x s') ∧ ∀ id, id ≠ x → (d.putText x s').node? id = d.node? id := by
  have hnodes : ∀ id, (d.putText x s').node? id =
      if id = x then some ⟨.text s', (chain fs).head?, Grove.bare.tops⟩ else d.node? id := fun id ↦ by
    rw [Document.putText, node?_modify, h.node?]
    rfl
  refine ⟨hd.relabel (by simp [Document.putText]) h (fun _ ↦ ⟨s, rfl⟩) hnodes, h.relabel (fun _ ↦ ⟨s, rfl⟩) hnodes,
    ⟨Grows.modify _ _ _, fun id _ ↦ ?_⟩, fun id hid ↦ by rw [hnodes, if_neg hid]⟩
  rw [Document.parent?, Document.parent?, hnodes]
  split
  · next heq =>
    subst heq
    rw [h.node?]
    rfl
  · rfl

/-- The texts that a split leaves in the place of a text. -/
structure SplitInto (f : Frame) (fs : List Frame) (x : NodeId) (before marker after : String) (d e : Document) (m : NodeId)
    (front back : List (NodeId × String)) : Prop extends Keeps d e where
  forest : e.Forest
  stands : e.Stands (plug fs (.single f.id f.data (f.left ++ row (front ++ (m, marker) :: back) ++ f.right)))
  first : ∃ s rest, front ++ (m, marker) :: back = (x, s) :: rest
  front_texts : front.map Prod.snd = if before.isEmpty then [] else [before]
  back_texts : back.map Prod.snd = if after.isEmpty then [] else [after]
  others : ∀ id, d.node? id ≠ none → id ≠ x → e.data? id = d.data? id
  apart : ∀ id, d.node? id ≠ none → id ≠ x → id ≠ f.id → e.node? id = d.node? id
  fresh : ∀ u ∈ front ++ (m, marker) :: back, u.1 = x ∨ d.node? u.1 = none
  made : ∀ id, e.node? id ≠ none → d.node? id ≠ none ∨ ∃ u ∈ front ++ (m, marker) :: back, u.1 = id

theorem row_append (ts us : List (NodeId × String)) : row (ts ++ us) = row ts ++ row us := by
  induction ts with
  | nil => rfl
  | cons t ts ih => rw [List.cons_append, row, ih, row, tree_append]

/-- The text in front of a marker keeps the node, and the marker gets one behind it; without such a
text the marker keeps the node. -/
theorem Stands.splitFront {s : String} (hd : d.Forest) (h : d.Stands (plug (f :: fs) (.single x (.text s) .bare)))
    (before marker : String) : ∃ e front m,
      (if before.isEmpty then (d.putText x marker, .ok x) else (d.putText x before).addTextAfter x marker) = (e, .ok m) ∧
      SplitInto f fs x before marker "" d e m front [] := by
  have hput : ∀ {e : Document}, (∀ id, id ≠ x → e.node? id = d.node? id) → ∀ id, e.node? id ≠ none → d.node? id ≠ none := by
    intro e hnode id hid
    by_cases hx : id = x
    · rw [hx, h.node?]
      exact Option.some_ne_none _
    · rwa [← hnode id hx]
  cases hempty : before.isEmpty with
  | true =>
    obtain ⟨hforest, hstands, hkeeps, hnode⟩ := h.putText hd marker
    refine ⟨_, [], x, rfl, hkeeps, hforest, hstands, ⟨marker, [], rfl⟩, by simp [hempty], rfl, fun id _ hid ↦ ?_,
      fun id _ hid _ ↦ hnode id hid, by simp, fun id hid ↦ .inl (hput hnode id hid)⟩
    rw [Document.data?, hnode id hid, Document.data?]
  | false =>
    obtain ⟨hforest, hstands, hkeeps, hnode⟩ := h.putText hd before
    obtain ⟨e, hadd, hforest', hstands', hkeeps', hdata', hnode'⟩ := hstands.addTextAfter hforest marker
    have hfresh : d.node? (d.putText x before).fresh = none := hkeeps.unknown (node?_fresh _)
    refine ⟨e, [(x, before)], _, hadd, hkeeps.trans hkeeps', hforest', ?_, ⟨before, _, rfl⟩, by simp [hempty], rfl,
      fun id hid hne ↦ ?_, fun id hid hne hparent ↦ ?_, by simp [hfresh], fun id hid ↦ ?_⟩
    · simpa only [plug_cons, List.singleton_append, row_cons, row_nil, tree_eq, append_assoc, append_bare] using hstands'
    · rw [hdata' id (hkeeps.known id hid), Document.data?, hnode id hne, Document.data?]
    · rw [hnode' id (fun heq ↦ hid (heq ▸ hfresh)) hparent, hnode id hne]
    · rcases hstands.made_addTextAfter hnode' id hid with hknown | rfl
      · exact .inl (hput hnode id hknown)
      · exact .inr ⟨_, List.mem_append_right _ (List.mem_cons_self ..), rfl⟩

/-- The text behind a marker gets a node behind it. -/
theorem SplitInto.splitBack {before marker : String} {m : NodeId} {front : List (NodeId × String)}
    (h : SplitInto f fs x before marker "" d e m front []) (after : String) : ∃ e' back,
      (if after.isEmpty then (e, .ok m) else ((e.addTextAfter m after).1, (e.addTextAfter m after).2.map fun _ ↦ m)) =
        (e', Except.ok (ε := DocumentError) m) ∧ SplitInto f fs x before marker after d e' m front back := by
  cases hempty : after.isEmpty with
  | true =>
    exact ⟨e, [], rfl, h.toKeeps, h.forest, h.stands, h.first, h.front_texts, by simp [hempty], h.others, h.apart, h.fresh, h.made⟩
  | false =>
    have hplace : e.Stands (plug ({ f with left := f.left ++ row front } :: fs) (.single m (.text marker) .bare)) := by
      simpa only [plug_cons, row_append, row_cons, row_nil, append_bare, append_assoc] using h.stands
    obtain ⟨e', hadd, hforest, hstands, hkeeps, hdata, hnode⟩ := hplace.addTextAfter h.forest after
    obtain ⟨s, rest, hfirst⟩ := h.first
    have hnew : d.node? e.fresh = none := h.unknown (node?_fresh e)
    refine ⟨e', [(e.fresh, after)], by rw [hadd]; rfl, h.toKeeps.trans hkeeps, hforest, ?_, ⟨s, rest ++ [(e.fresh, after)], ?_⟩,
      h.front_texts, by simp [hempty], fun id hid hne ↦ (hdata id (h.known id hid)).trans (h.others id hid hne),
      fun id hid hne hparent ↦ ?_, fun u hu ↦ ?_, fun id hid ↦ ?_⟩
    · simpa only [plug_cons, row_append, row_cons, row_nil, tree_eq, append_assoc, bare_append, append_bare] using hstands
    · rw [← List.cons_append, ← hfirst]
      simp
    · have hne' : id ≠ e.fresh := fun heq ↦ hid (heq ▸ hnew)
      exact (hnode id hne' hparent).trans (h.apart id hid hne hparent)
    · rw [show front ++ (m, marker) :: [(e.fresh, after)] = front ++ [(m, marker)] ++ [(e.fresh, after)] by simp] at hu
      rcases List.mem_append.1 hu with hu | hu
      · exact h.fresh u hu
      · obtain rfl := List.mem_singleton.1 hu
        exact .inr hnew
    · rcases hplace.made_addTextAfter hnode id hid with hknown | rfl
      · rcases h.made id hknown with hknown | ⟨u, hu, rfl⟩
        · exact .inl hknown
        · have hmem : u ∈ front ++ (m, marker) :: [(e.fresh, after)] := by
            simp only [List.mem_append, List.mem_cons, List.not_mem_nil, or_false] at hu ⊢
            tauto
          exact .inr ⟨u, hmem, rfl⟩
      · exact .inr ⟨_, List.mem_append_right _ (List.mem_cons_of_mem _ (List.mem_singleton_self _)), rfl⟩

theorem Stands.splitAround {s : String} (hd : d.Forest) (h : d.Stands (plug (f :: fs) (.single x (.text s) .bare)))
    (before marker after : String) : ∃ e m front back, d.splitAround x before marker after = (e, .ok m) ∧
      SplitInto f fs x before marker after d e m front back := by
  obtain ⟨e₁, front, m, hfront, h₁⟩ := h.splitFront hd before marker
  obtain ⟨e, back, hback, hsplit⟩ := h₁.splitBack after
  refine ⟨e, m, front, back, ?_, hsplit⟩
  rw [Document.splitAround, hfront]
  exact hback

theorem SplitInto.text?_eq {before marker after : String} {m : NodeId} {front back : List (NodeId × String)}
    (h : SplitInto f fs x before marker after d e m front back) :
    ∀ u ∈ front ++ (m, marker) :: back, e.text? u.1 = some u.2 := by
  rintro ⟨y, v⟩ hu
  obtain ⟨us, vs, hsplit⟩ := List.append_of_mem hu
  have hplace : e.Stands (plug ({ f with left := f.left ++ row us, right := row vs ++ f.right } :: fs)
      (.single y (.text v) .bare)) := by
    have := h.stands
    rw [hsplit] at this
    simpa only [plug_cons, row_append, row_cons, append_assoc] using this
  rw [text?, hplace.data?]

/-! ### Searches -/

theorem Stands.exists_place_of_order {T : Grove} {xs zs : List NodeId} (h : d.Stands T) (horder : T.order = xs ++ x :: zs) :
    ∃ sub xdata fs, T = plug fs (.single x xdata sub) ∧ xs = before fs ∧ zs = sub.order ++ behind fs := by
  obtain ⟨sub, xdata, fs, rfl⟩ := h.exists_place (show x ∈ T.order by rw [horder]; simp)
  have hnodup := h.nodup
  rw [horder] at hnodup
  rw [order_plug, order_single, List.append_assoc, List.cons_append] at horder
  exact ⟨sub, xdata, fs, rfl, split_unique horder.symm hnodup⟩

theorem Stands.nextInOrder?_eq {T : Grove} {xs zs : List NodeId} (h : d.Stands T) (horder : T.order = xs ++ x :: zs) :
    d.nextInOrder? x = zs.head? := by
  obtain ⟨sub, xdata, fs, rfl, -, rfl⟩ := h.exists_place_of_order horder
  rw [nextInOrder?, firstChild?, h.children, h.nextAfter?, ← head?_order, List.head?_append]
  cases sub.order.head? <;> rfl

/-- A node that a search behind some nodes of a tree does not reach: it and its children stand in front, or in
other trees. -/
def Past (d : Document) (T : Grove) (xs : List NodeId) (id : NodeId) : Prop :=
  ∀ y ∈ id :: d.children id, d.node? y ≠ none ∧ (y ∈ T.order → y ∈ xs)

theorem Past.mono {T : Grove} {xs ys : List NodeId} (h : d.Past T xs id) (hxs : xs ⊆ ys) : d.Past T ys id :=
  fun y hy ↦ ⟨(h y hy).1, fun hin ↦ hxs ((h y hy).2 hin)⟩

/-- What a search that begins at a node leaves: the tree cut around markers at and behind the node,
with all that stands in front of the node or in other trees as it was. -/
structure Searched (t : Delimiters) (d e : Document) (T T' : Grove) (xs : List NodeId) (x : NodeId) (zs : List NodeId) : Prop
    extends Keeps d e where
  forest : e.Forest
  stands : e.Stands T'
  sliced : T.Sliced t T'
  order : T'.order = xs ++ x :: zs
  front : ∀ id ∈ xs, e.data? id = d.data? id
  apart : ∀ id, d.Past T xs id → e.node? id = d.node? id
  fresh : ∀ id ∈ T'.order, id ∈ T.order ∨ d.node? id = none
  made : ∀ id, e.node? id ≠ none → d.node? id ≠ none ∨ id ∈ T'.order

variable {T : Grove} {xs zs : List NodeId}

theorem Searched.refl (t : Delimiters) (hd : d.Forest) (h : d.Stands T) (horder : T.order = xs ++ x :: zs) :
    Searched t d d T T xs x zs :=
  ⟨.refl d, hd, h, .refl, horder, fun _ _ ↦ rfl, fun _ _ ↦ rfl, fun _ hid ↦ .inl hid, fun _ hid ↦ .inl hid⟩

def payloadsAt (t : Delimiters) (d : Document) (ids : List NodeId) : List (List Char) :=
  ids.flatMap fun id ↦ ((d.text? id).map fun s ↦ t.payloads s.toList).getD []

theorem payloadsAt_append (t : Delimiters) (d : Document) (xs ys : List NodeId) :
    d.payloadsAt t (xs ++ ys) = d.payloadsAt t xs ++ d.payloadsAt t ys := List.flatMap_append

theorem payloadsAt_cons (t : Delimiters) (d : Document) (id : NodeId) (ids : List NodeId) :
    d.payloadsAt t (id :: ids) = d.payloadsAt t [id] ++ d.payloadsAt t ids := payloadsAt_append t d [id] ids

theorem payloadsAt_text {s : String} (t : Delimiters) (h : d.text? x = some s) : d.payloadsAt t [x] = t.payloads s.toList := by
  rw [payloadsAt, List.flatMap_singleton, h]
  rfl

theorem payloadsAt_uncut (h : ((d.text? x).bind fun s ↦ t.cut? s.toList) = none) : d.payloadsAt t [x] = [] := by
  cases htext : d.text? x with
  | none => simp [payloadsAt, htext]
  | some s =>
    rw [htext, Option.bind_some] at h
    rw [payloadsAt_text t htext, Delimiters.payloads_words h]

theorem payloadsAt_congr {ids : List NodeId} (h : ∀ id ∈ ids, e.data? id = d.data? id) :
    e.payloadsAt t ids = d.payloadsAt t ids := by
  apply List.flatMap_congr
  intro id hid
  rw [text?, text?, h id hid]

theorem payloadsAt_texts {us : List (NodeId × String)} (h : ∀ u ∈ us, d.text? u.1 = some u.2) :
    d.payloadsAt t (us.map Prod.fst) = (us.map Prod.snd).flatMap fun s ↦ t.payloads s.toList := by
  rw [payloadsAt, List.flatMap_map, List.flatMap_map]
  apply List.flatMap_congr
  intro u hu
  rw [h u hu]
  rfl

/-- The first marker in the texts of some nodes, found as a text of its own among nodes that stand for these. -/
structure Meets (t : Delimiters) (d e : Document) (old new : List NodeId) (m : NodeId) : Prop where
  text : e.isText m = true
  first : ∃ ys us, new = ys ++ m :: us ∧ (t.Proper → ∃ p, e.payloadsAt t ys = [] ∧
    e.text? m = some (String.ofList (t.enclose p)) ∧ t.payload? (t.enclose p) = some p ∧
    d.payloadsAt t old = p :: e.payloadsAt t us)

theorem Meets.mem {old new : List NodeId} {m : NodeId} (h : Meets t d e old new m) : m ∈ new := by
  obtain ⟨ys, us, rfl, -⟩ := h.first
  simp

theorem Meets.cons {old new : List NodeId} {m : NodeId} (h : Meets t d e old new m) (hx : d.payloadsAt t [x] = [])
    (hdata : e.data? x = d.data? x) : Meets t d e (x :: old) (x :: new) m := by
  obtain ⟨ys, us, rfl, hfirst⟩ := h.first
  refine ⟨h.text, x :: ys, us, rfl, fun ht ↦ ?_⟩
  obtain ⟨p, hys, htext, hread, hold⟩ := hfirst ht
  have hx' : e.payloadsAt t [x] = [] := by
    rw [payloadsAt_congr (d := d) (by simpa using hdata), hx]
  exact ⟨p, by rw [payloadsAt_cons, hx', hys]; rfl, htext, hread, by rw [payloadsAt_cons, hx, hold]; rfl⟩

theorem meets_whole {s : String} {c : Payload.Cut} (hs : d.text? x = some s) (hc : t.cut? s.toList = some c)
    (hone : (c.before.isEmpty && c.after.isEmpty) = true) (zs : List NodeId) : Meets t d d (x :: zs) (x :: zs) x := by
  simp only [Bool.and_eq_true, List.isEmpty_iff] at hone
  have hwhole := Delimiters.cut?_eq_append hc
  rw [hone.1, hone.2, List.nil_append, List.append_nil] at hwhole
  refine ⟨by rw [isText, hs]; rfl, [], zs, rfl, fun ht ↦ ⟨c.payload, rfl, ?_, Delimiters.payload?_enclose ht.closing hc, ?_⟩⟩
  · rw [hs, ← hwhole, String.ofList_toList]
  · have hnil := Delimiters.payloads_nil ht
    rw [payloadsAt_cons, payloadsAt_text t hs, Delimiters.payloads_cut ht hc, hone.2, hnil]
    rfl

theorem SplitInto.meets {s : String} {c : Payload.Cut} {m : NodeId} {front back : List (NodeId × String)} {zs : List NodeId}
    (h : SplitInto f fs x (String.ofList c.before) (String.ofList (t.enclose c.payload)) (String.ofList c.after) d e m front back)
    (hs : d.text? x = some s) (hc : t.cut? s.toList = some c) (hzs : ∀ id ∈ zs, e.data? id = d.data? id) :
    Meets t d e (x :: zs) (front.map Prod.fst ++ m :: (back.map Prod.fst ++ zs)) m := by
  have htexts := h.text?_eq
  have hmarker : e.text? m = some (String.ofList (t.enclose c.payload)) := htexts (m, _) (List.mem_append_right _ (List.mem_cons_self ..))
  refine ⟨by rw [isText, hmarker]; rfl, _, _, rfl, fun ht ↦ ⟨c.payload, ?_, hmarker,
    Delimiters.payload?_enclose ht.closing hc, ?_⟩⟩
  · rw [payloadsAt_texts fun u hu ↦ htexts u (List.mem_append_left _ hu), h.front_texts]
    split
    · rfl
    · rw [List.flatMap_singleton, String.toList_ofList, Delimiters.payloads_words (Delimiters.cut?_before ht hc)]
  · have hafter : e.payloadsAt t (back.map Prod.fst) = t.payloads c.after := by
      rw [payloadsAt_texts fun u hu ↦ htexts u (List.mem_append_right _ (List.mem_cons_of_mem _ hu)), h.back_texts]
      split
      · next hempty =>
        obtain hnil : c.after = [] := by simpa [String.isEmpty_iff] using hempty
        rw [hnil, Delimiters.payloads_nil ht]
        rfl
      · rw [List.flatMap_singleton, String.toList_ofList]
    rw [payloadsAt_append, hafter, payloadsAt_congr hzs, payloadsAt_cons, payloadsAt_text t hs, Delimiters.payloads_cut ht hc]
    rfl

/-- A search at a node below the root cuts the text there around its first marker, if it has one. -/
theorem Stands.isolate (hd : d.Forest) (h : d.Stands T) (horder : T.order = xs ++ x :: zs) (hxs : xs ≠ []) :
    (d.isolate t x = ⟨d, none, .ok none⟩ ∧ d.payloadsAt t [x] = []) ∨
      ∃ e split? m T' zs', d.isolate t x = ⟨e, split?, .ok (some m)⟩ ∧ Searched t d e T T' xs x zs' ∧
        Meets t d e (x :: zs) (x :: zs') m := by
  cases hcut : (d.text? x).bind fun s ↦ t.cut? s.toList with
  | none => exact .inl ⟨by simp only [Document.isolate, hcut], payloadsAt_uncut hcut⟩
  | some c =>
    obtain ⟨s, hs, hc⟩ := Option.bind_eq_some_iff.1 hcut
    have htext : d.isText x = true := by rw [isText, hs]; rfl
    right
    by_cases hone : (c.before.isEmpty && c.after.isEmpty) = true
    · refine ⟨d, none, x, T, zs, ?_, .refl t hd h horder, meets_whole hs hc hone zs⟩
      simp only [Document.isolate, hcut, if_pos hone]
    · have hxs' : x ∉ xs := fun hin ↦ (List.nodup_append.1 (horder ▸ h.nodup)).2.2 x hin x (List.mem_cons_self ..) rfl
      obtain ⟨sub, xdata, fs, rfl, rfl, rfl⟩ := h.exists_place_of_order horder
      obtain rfl := h.bare_of_text htext
      obtain rfl : xdata = .text s := by
        rw [text?, h.data?] at hs
        cases xdata with
        | element => simp at hs
        | text s' => exact congrArg _ (Option.some.inj hs)
      obtain ⟨f, fs, rfl⟩ := List.exists_cons_of_ne_nil (show fs ≠ [] by rintro rfl; exact hxs rfl)
      obtain ⟨e, m, front, back, hsplit, hinto⟩ := h.splitAround hd (String.ofList c.before)
        (String.ofList (t.enclose c.payload)) (String.ofList c.after)
      obtain ⟨first, rest, hfirst⟩ := hinto.first
      have hempty : ∀ u : List Char, (String.ofList u).isEmpty = u.isEmpty := fun u ↦ by
        cases u <;> simp [String.isEmpty_iff]
      have hpieces : c.pieces t = first :: rest.map Prod.snd := by
        have hmap := congrArg (List.map Prod.snd) hfirst
        rw [List.map_append, List.map_cons, hinto.front_texts, hinto.back_texts, hempty, hempty] at hmap
        exact hmap
      have hstands : e.Stands (plug ({ f with right := row rest ++ f.right } :: fs) (.single x (.text first) .bare)) := by
        have := hinto.stands
        rw [hfirst] at this
        simpa only [plug_cons, row_cons, append_assoc] using this
      have hids : ∀ ids, front.map Prod.fst ++ m :: (back.map Prod.fst ++ ids) = x :: (rest.map Prod.fst ++ ids) := by
        intro ids
        have := congrArg (fun us ↦ us.map Prod.fst ++ ids) hfirst
        simpa only [List.map_append, List.map_cons, List.append_assoc, List.cons_append] using this
      have hdata : ∀ id, id ∈ before (f :: fs) ∨ id ∈ Grove.bare.order ∨ id ∈ behind (f :: fs) → e.data? id = d.data? id := by
        intro id hid
        exact hinto.others id (h.holds.known id (mem_order_parts.2 (.inr hid))) (ne_of_mem_parts h.nodup hid)
      have hx : x ∈ (plug (f :: fs) (.single x (.text s) .bare)).order := chain_subset_order (List.mem_cons_self ..)
      have hchild : x ∈ d.children f.id := by
        rw [h.siblings.2.1]
        simp
      have hmeets : Meets t d e (x :: (Grove.bare.order ++ behind (f :: fs)))
          (front.map Prod.fst ++ m :: (back.map Prod.fst ++ (Grove.bare.order ++ behind (f :: fs)))) m := by
        apply hinto.meets hs hc
        intro id hid
        exact hdata id (.inr (List.mem_append.1 hid))
      rw [hids] at hmeets
      refine ⟨e, some (x, String.ofList (t.enclose c.payload)), m, _, rest.map Prod.fst ++ (f.right.order ++ behind fs), ?_,
        ⟨hinto.toKeeps, hinto.forest, hstands, .cut .refl hc hpieces, ?_, fun id hid ↦ ?_, fun id hid ↦ ?_, ?_, fun id hid ↦ ?_⟩, ?_⟩
      · simp only [Document.isolate, hcut, if_neg hone, hsplit]
        rfl
      · rw [order_plug, order_single, behind]
        simp [before]
      · exact hdata id (.inl hid)
      · have hreach : x ∉ id :: d.children id := fun hin ↦ hxs' ((hid x hin).2 hx)
        refine hinto.apart id (hid id (List.mem_cons_self ..)).1 ?_ ?_
        · rintro rfl
          exact hreach (List.mem_cons_self ..)
        · rintro rfl
          exact hreach (List.mem_cons_of_mem _ hchild)
      · intro id hid
        have hcases : id ∈ (plug (f :: fs) (.single x (.text s) .bare)).order ∨ id ∈ rest.map Prod.fst := by
          simp only [order_plug, order_single, before, behind, order_append, order_row, order_bare, List.mem_append,
            List.mem_cons] at hid ⊢
          tauto
        rcases hcases with hin | hin
        · exact .inl hin
        · obtain ⟨u, hu, rfl⟩ := List.mem_map.1 hin
          rcases hinto.fresh u (by rw [hfirst]; exact List.mem_cons_of_mem _ hu) with heq | hnew
          · exact .inl (heq ▸ hx)
          · exact .inr hnew
      · rcases hinto.made id hid with hknown | ⟨u, hu, rfl⟩
        · exact .inl hknown
        · right
          rw [hfirst] at hu
          simp only [order_plug, order_single, before, behind, order_append, order_row, order_bare, List.mem_append,
            List.mem_cons, List.mem_map] at hu ⊢
          rcases hu with rfl | hu
          · simp
          · exact .inr (.inl (.inl ⟨u, hu, rfl⟩))
      · exact hmeets

/-- A search that begins at a node below the root finds the first marker at or behind that node. -/
theorem Stands.searchFrom (t : Delimiters) : ∀ (n : ℕ) {d : Document} {T : Grove} {xs zs : List NodeId} {x : NodeId},
    d.Forest → d.Stands T → T.order = xs ++ x :: zs → xs ≠ [] → ∃ e split? found? T' zs',
      d.searchFrom t n x = ⟨e, split?, .ok found?⟩ ∧ Searched t d e T T' xs x zs' ∧
      (∀ m ∈ found?, Meets t d e (x :: zs) (x :: zs') m) ∧
      (found? = none → zs.length < n → d.payloadsAt t (x :: zs) = [])
  | 0, d, T, xs, zs, x, hd, h, horder, _ =>
    ⟨d, none, none, T, zs, rfl, .refl t hd h horder, by simp, fun _ hlt ↦ absurd hlt (Nat.not_lt_zero _)⟩
  | n + 1, d, T, xs, zs, x, hd, h, horder, hxs => by
    rcases h.isolate (t := t) hd horder hxs with ⟨hnone, hwords⟩ | ⟨e, split?, m, T', zs', hisolate, hsearched, hm⟩
    · have hnext := h.nextInOrder?_eq horder
      cases zs with
      | nil =>
        refine ⟨d, none, none, T, [], ?_, .refl t hd h horder, by simp, fun _ _ ↦ hwords⟩
        simp only [Document.searchFrom, hnone, hnext, List.head?_nil]
      | cons z zs =>
        have hbehind : T.order = (xs ++ [x]) ++ z :: zs := by simpa using horder
        obtain ⟨e, split?, found?, T', zs', hsearch, hsearched, hfound, hnothing⟩ := searchFrom t n hd h hbehind (by simp)
        have hfront : ∀ id ∈ xs, e.data? id = d.data? id := fun id hid ↦ hsearched.front id (List.mem_append_left _ hid)
        refine ⟨e, split?, found?, T', z :: zs', ?_, ⟨hsearched.toKeeps, hsearched.forest, hsearched.stands, hsearched.sliced,
          by simpa using hsearched.order, hfront, fun id hid ↦ hsearched.apart id (hid.mono (List.subset_append_left ..)),
          hsearched.fresh, hsearched.made⟩, fun m hm ↦ ?_, fun hfound? hlt ↦ ?_⟩
        · simp only [Document.searchFrom, hnone, hnext, List.head?_cons]
          exact hsearch
        · exact (hfound m hm).cons hwords (hsearched.front x (by simp))
        · rw [payloadsAt_cons, hwords, hnothing hfound? (by simpa using hlt)]
          rfl
    · refine ⟨e, split?, some m, T', zs', ?_, hsearched, fun m' hm' ↦ ?_, fun hfound? ↦ by cases hfound?⟩
      · simp only [Document.searchFrom, hisolate]
      · obtain rfl : m = m' := by simpa using hm'
        exact hm

end Document

end Stencil
