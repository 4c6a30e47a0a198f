import Stencil.Proofs.Grove.Copy
import Stencil.Proofs.Grove.Deletion
import Stencil.Proofs.Grove.Removal
import Stencil.Proofs.Edits.Settled
/-!
Copies put beside trees, and areas of trees of any shape put in many copies. A copy looks like what
it is a copy of, so that the way down to a marker leads to a text in the copy as well.
-/

namespace Stencil

open Grove Document

namespace Grove

variable {f g g' : Grove} {fs : List Frame}

def steps (fs : List Frame) : List ℕ := (fs.map fun f ↦ f.left.tops.length).reverse

theorem steps_cons (f : Frame) (fs : List Frame) : steps (f :: fs) = steps fs ++ [f.left.tops.length] := by
  simp [steps]

theorem Alike.length_tops (h : g.Alike g') : g'.tops.length = g.tops.length := by
  induction h with
  | bare => rfl
  | tree _ _ _ ih => rw [tops, tops, List.length_cons, List.length_cons, ih]

theorem Alike.exists_append : ∀ {f g h : Grove}, (f ++ g).Alike h → ∃ f' g', h = f' ++ g' ∧ f.Alike f' ∧ g.Alike g'
  | .bare, g, h, hall => ⟨.bare, h, rfl, .bare, hall⟩
  | .tree _ _ below rest, _, _, .tree hbelow hall => by
    obtain ⟨rest', g', rfl, hrest, hg⟩ := hall.exists_append
    exact ⟨.tree _ _ _ rest', g', rfl, .tree hbelow hrest, hg⟩

theorem Alike.exists_single {id : NodeId} {data : NodeData} {sub : Grove} (h : (Grove.single id data sub).Alike g') :
    ∃ id' sub', g' = .single id' data sub' ∧ sub.Alike sub' := by
  rw [single] at h
  cases h with
  | tree hsub hbare =>
    cases hbare
    exact ⟨_, _, rfl, hsub⟩

theorem Alike.append {f f' : Grove} (h : f.Alike f') (hg : g.Alike g') : (f ++ g).Alike (f' ++ g') := by
  induction h with
  | bare => exact hg
  | tree hbelow _ _ ih => exact .tree hbelow ih

theorem Alike.single {sub sub' : Grove} (h : sub.Alike sub') (id id' : NodeId) (data : NodeData) :
    (Grove.single id data sub).Alike (.single id' data sub') := .tree h .bare

/-- What looks like a tree with another one at a place has a tree like that at a place like that, where
trees that look alike can be exchanged. -/
theorem Alike.exists_plug : ∀ (fs : List Frame) {g h : Grove}, (plug fs g).Alike h →
    ∃ fs' g', h = plug fs' g' ∧ g.Alike g' ∧ steps fs' = steps fs ∧ ∀ {k k' : Grove}, k.Alike k' → (plug fs k).Alike (plug fs' k')
  | [], _, h, hall => ⟨[], h, rfl, hall, rfl, id⟩
  | f :: fs, _, _, hall => by
    obtain ⟨fs', _, rfl, hsingle, hsteps, hplug⟩ := Alike.exists_plug fs hall
    obtain ⟨id, _, rfl, hsub⟩ := hsingle.exists_single
    obtain ⟨_, right, rfl, hrest, hright⟩ := hsub.exists_append
    obtain ⟨left, g', rfl, hleft, hg⟩ := hrest.exists_append
    refine ⟨⟨id, f.data, left, right⟩ :: fs', g', rfl, hg, by rw [steps_cons, steps_cons, hsteps, hleft.length_tops], ?_⟩
    intro k k' hk
    exact hplug (((hleft.append hk).append hright).single f.id id f.data)

def join : List Grove → Grove
  | [] => bare
  | g :: gs => g ++ join gs

@[simp] theorem tops_join (gs : List Grove) : (join gs).tops = gs.flatMap tops := by
  induction gs with
  | nil => rfl
  | cons g gs ih => rw [join, tops_append, ih, List.flatMap_cons]

@[simp] theorem order_join (gs : List Grove) : (join gs).order = gs.flatMap order := by
  induction gs with
  | nil => rfl
  | cons g gs ih => rw [join, order_append, ih, List.flatMap_cons]

end Grove

namespace Document

variable {source d e : Document} {fs gs outer : List Frame} {f : Frame} {p x top : NodeId} {data xdata : NodeData}
  {left right sub xsub g : Grove}

theorem Stands.exists_text (h : d.Stands (plug fs (.single x xdata sub))) (hx : d.isText x = true) : xdata.IsText := by
  rw [isText, text?, h.data?] at hx
  cases xdata with
  | element => simp at hx
  | text s => exact ⟨s, rfl⟩

theorem Stands.pathBelow? : ∀ {fs : List Frame} {x : NodeId} {xdata : NodeData} {sub : Grove} {n : ℕ} (below : List ℕ),
    d.Stands (plug (fs ++ f :: outer) (.single x xdata sub)) → fs.length < n →
      Area.pathBelow? d (summit fs x) n x below = some (steps fs ++ below)
  | [], x, _, _, n + 1, below, _, _ => by simp [Area.pathBelow?, summit, steps]
  | i :: fs, x, _, _, n + 1, below, h, hn => by
    have hplace : d.Stands (plug (i :: (fs ++ f :: outer)) (.single x _ _)) := h
    have hup : d.Stands (plug (fs ++ f :: outer) (.single i.id i.data (i.left ++ .single x _ _ ++ i.right))) := h
    have hrest := hup.pathBelow? (n := n) (i.left.tops.length :: below) (by simpa using hn)
    rw [Area.pathBelow?, if_neg (ne_summit h), hplace.indexInParent?, hplace.parent?, summit_cons, steps_cons]
    simpa using hrest

theorem Stands.followDown? : ∀ {fs : List Frame} {x : NodeId} {xdata : NodeData} {sub : Grove} (below : List ℕ),
    d.Stands (plug (fs ++ outer) (.single x xdata sub)) →
      Area.followDown? d (summit fs x) (steps fs ++ below) = Area.followDown? d x below
  | [], _, _, _, _, _ => rfl
  | i :: fs, x, _, _, below, h => by
    have hplace : d.Stands (plug (i :: (fs ++ outer)) (.single x _ _)) := h
    have hup : d.Stands (plug (fs ++ outer) (.single i.id i.data (i.left ++ .single x _ _ ++ i.right))) := h
    obtain ⟨-, hchildren, -⟩ := hplace.siblings
    rw [summit_cons, steps_cons, List.append_assoc, hup.followDown?, List.singleton_append, Area.followDown?, hchildren]
    simp

theorem Stands.copyBefore {n : ℕ} (hd : d.Forest) (h : d.Stands (plug fs (.single p data (left ++ g ++ right)))) (htop : g.tops = [top])
    (hsource : source.Stands (plug gs (.single x xdata xsub))) (hn : source.size < n) : ∃ e e' sub',
      Document.copyFrom source n d x = .ok (d.fresh, e) ∧ e.insertBefore top d.fresh = .ok e' ∧ xsub.Alike sub' ∧ e'.Forest ∧
      e'.Stands (plug fs (.single p data (left ++ .single d.fresh xdata sub' ++ g ++ right))) ∧ Keeps d e' ∧
      (∀ id, d.node? id ≠ none → e'.data? id = d.data? id) ∧ ∀ id ∈ sub'.order, d.node? id = none := by
  obtain ⟨sub', e, hcopy, halike, he, hx, hgrows, hnew, hstay⟩ := hsource.copyFrom hn hd
  have hapart : d.fresh ∉ (plug fs (.single p data (left ++ g ++ right))).order := fun hin ↦ h.holds.known _ hin (node?_fresh d)
  have hroot : d.fresh ≠ e.root := fun heq ↦ by
    rw [hgrows.root] at heq
    exact hd.wellFormed.rooted (heq ▸ node?_fresh d)
  have he' : e.Stands (plug fs (.single p data (left ++ g ++ right))) :=
    h.congr fun id hid ↦ hstay id (h.holds.known id hid)
  obtain ⟨e', hinsert, hforest, hstands, hgrows', hframe⟩ := he'.insert he htop hx hapart hroot .before
  obtain ⟨hkeeps, hdata⟩ := h.keeps hstands (hgrows.trans hgrows') fun id hid hp ↦ by
    rw [hframe id hp fun heq ↦ hid (heq ▸ node?_fresh d), hstay id hid]
  refine ⟨e, e', sub', hcopy, hinsert, halike, hforest, ?_, hkeeps, hdata, hnew⟩
  simpa only [Side.lay, append_assoc] using hstands

/-- A copy of a node, under a new name, may be put beside any node that has a parent, and behind the
last of its siblings. -/
theorem Forest.insertable_copy {y : NodeId} (hd : d.Forest) (hx : d.node? x ≠ none) (hy : d.parent? y = some p) (name value : String) :
    ∃ e, d.deepClone x = .ok (d.fresh, e) ∧ (∃ e', (e.setAttr d.fresh name value).insertBefore y d.fresh = .ok e') ∧
      ∃ e', (e.setAttr d.fresh name value).appendChild p d.fresh = .ok e' := by
  obtain ⟨xsub, xdata, gs, hplace⟩ := hd.exists_place hx
  obtain ⟨sub', e, hcopy, -, he, hstands, hgrows, -, hstay⟩ := hplace.copyFrom (Nat.lt_succ_self _) hd
  have hforest : (e.setAttr d.fresh name value).Forest := (he.settles_setAttr d.fresh name value).forest () _ rfl
  have hparent : ∀ id, (e.setAttr d.fresh name value).parent? id = e.parent? id := fun id ↦ by
    refine parent?_modify ?_ id
    intro n
    cases n.data <;> rfl
  have hother : ∀ id, d.node? id ≠ none → (e.setAttr d.fresh name value).node? id = d.node? id := fun id hid ↦ by
    have hne : id ≠ d.fresh := fun heq ↦ hid (heq ▸ node?_fresh d)
    rw [setAttr, node?_modify_of_ne hne, hstay id hid]
  -- the parent, with a child, is an element
  obtain ⟨psub, pdata, fs, hp⟩ := hd.exists_place (hd.wellFormed.known_parent hy)
  have hchild : y ∈ psub.tops := by
    rw [← hp.children]
    exact (hd.wellFormed.linked p y).2 hy
  have helement : ¬pdata.IsText := fun ht ↦ by
    rw [(Grove.proper_single.1 hp.proper_at).1 ht] at hchild
    simp at hchild
  have hp' : (e.setAttr d.fresh name value).Stands (plug fs (.single p pdata (psub ++ bare))) := by
    rw [append_bare]
    exact hp.congr fun id hid ↦ hother id (hp.holds.known id hid)
  have hapart : d.fresh ∉ (plug fs (.single p pdata (psub ++ bare))).order := fun hin ↦ by
    rw [append_bare] at hin
    exact hp.holds.known _ hin (node?_fresh d)
  -- the copy stands on its own
  have horphan : (e.setAttr d.fresh name value).parent? d.fresh = none := by
    rw [hparent]
    exact hstands.holds.parent?_top _ (by simp)
  have hknown : (e.setAttr d.fresh name value).node? d.fresh ≠ none :=
    (Grows.modify e d.fresh _).known _ (hstands.holds.known _ (by simp))
  obtain ⟨csub, cdata, cs, hcopied⟩ := hforest.exists_place hknown
  rw [hcopied.parent?] at horphan
  obtain rfl : cs = [] := by simpa using horphan
  have hroot : d.fresh ≠ (e.setAttr d.fresh name value).root := fun heq ↦ by
    have hsame : (e.setAttr d.fresh name value).root = d.root := (hgrows.trans (Grows.modify e d.fresh _)).root
    rw [hsame] at heq
    exact hd.wellFormed.rooted (heq ▸ node?_fresh d)
  have hcheck := hp'.checkInsertable hcopied hapart helement hroot
  obtain ⟨n, hn⟩ := Option.ne_none_iff_exists'.1 (known_of_parent? hy)
  have hnode := (hother y (known_of_parent? hy)).trans hn
  refine ⟨e, hcopy, ?_, ?_⟩
  · simp [insertBefore, insertBeside, check_ok hnode, parent?_eq_of_node?_eq (hother y (known_of_parent? hy)), hy, hcheck,
      bind, Except.bind]
  · simp [appendChild, hcheck, bind, Except.bind]

end Document

namespace Area

variable {r : RunState} {t : Toolkit} {area : Area} {paths : MarkerPaths} {outer : List Frame} {p : NodeId} {pdata : NodeData}
  {a c g : Grove}

/-- A run in which a tree stands below a node, behind some trees and before others. -/
structure Shelf (outer : List Frame) (p : NodeId) (pdata : NodeData) (a g c : Grove) (r : RunState) : Prop where
  forest : r.document.Forest
  stands : r.document.Stands (plug outer (.single p pdata (a ++ g ++ c)))

def marked (t : Toolkit) (inner : List Frame) (x : NodeId) (b : Grove) (gs : List Frame) (y : NodeId) (markers : CopyMarkers) : Grove :=
  plug inner (.single x (.text (t.delimiters.marker markers.opening)) .bare) ++ b ++
    plug gs (.single y (.text (t.delimiters.marker markers.closing)) .bare)

def Fresh (d : Document) (m : Grove) : Prop := ∀ id ∈ m.order, d.node? id = none

theorem Fresh.append {d e : Document} {m m' : Grove} (h : Fresh d m) (h' : Fresh e m') (hgrows : Grows d e) : Fresh d (m ++ m') := by
  intro id hid
  rw [order_append, List.mem_append] at hid
  exact hid.elim (h id) fun hid ↦ hgrows.unknown (h' id hid)

namespace Shelf

theorem clone {id : NodeId} {data : NodeData} {l k sub : Grove} (h : Shelf outer p pdata a g c r)
    (hfirst : g.tops = [area.first]) (hin : g ++ c = l ++ (.single id data sub ++ k)) : ∃ copy sub' e,
      Shelf outer p pdata (a ++ .single copy data sub') g c { r with document := e } ∧ sub.Alike sub' ∧
      Fresh r.document (.single copy data sub') ∧ Grows r.document e ∧
      ∀ {α : Type} (f : NodeId → Run α), (do
        let clone ← Run.editFor fun d ↦ d.deepClone id
        Run.edit fun d ↦ d.insertBefore area.first clone
        f clone : Run α).on r = (f copy).on { r with document := e } := by
  have hplace : r.document.Stands (plug (⟨p, pdata, a ++ l, k⟩ :: outer) (.single id data sub)) := by
    have := h.stands
    rw [append_assoc, hin] at this
    simpa only [plug_cons, append_assoc] using this
  obtain ⟨e, e', sub', hcopy, hinsert, halike, hforest, hstands, hkeeps, -, hnew⟩ :=
    h.stands.copyBefore h.forest hfirst hplace (Nat.lt_succ_self _)
  have hfresh : Fresh r.document (.single r.document.fresh data sub') := fun n hn ↦ by
    rw [order_single, List.mem_cons] at hn
    exact hn.elim (fun heq ↦ heq ▸ node?_fresh _) (hnew n)
  refine ⟨_, sub', e', ⟨hforest, hstands⟩, halike, hfresh, hkeeps.toGrows, fun f ↦ ?_⟩
  have hclone : (Run.editFor fun d ↦ d.deepClone id).on r = (.ok r.document.fresh, { r with document := e }) :=
    Run.on_editFor hcopy
  have hedit : (Run.edit fun d ↦ d.insertBefore area.first r.document.fresh).on { r with document := e } =
      (.ok (), { r with document := e' }) := Run.on_edit (r := { r with document := e }) hinsert
  rw [Run.on_bind_ok hclone, Run.on_bind_ok hedit]

theorem relabel {fs : List Frame} {z copy : NodeId} {s : String} {data : NodeData} {sub : Grove}
    (h : Shelf outer p pdata (a ++ .single copy data sub) g c r)
    (halike : (plug fs (.single z (.text s) .bare)).Alike (.single copy data sub)) (which : AreaEnd) (cs : Commands) :
    ∃ k e, (Area.relabel t which copy (steps fs) cs).on r = (.ok (), { r with document := e }) ∧
      Shelf outer p pdata (a ++ k) g c { r with document := e } ∧
      (plug fs (.single z (.text (t.delimiters.marker cs)) .bare)).Alike k ∧ k.tops = [copy] ∧
      k.order = (Grove.single copy data sub).order ∧ Grows r.document e := by
  obtain ⟨fs', _, heq, hmarker, hsteps, hplug⟩ := Alike.exists_plug fs halike
  obtain ⟨z', _, rfl, hbare⟩ := hmarker.exists_single
  cases hbare
  have hcopy : copy = summit fs' z' := by
    have := congrArg tops heq
    rw [tops_plug, tops_single] at this
    exact (List.cons.inj this).1
  have hplace : r.document.Stands (plug (fs' ++ ⟨p, pdata, a, g ++ c⟩ :: outer) (.single z' (.text s) .bare)) := by
    have := h.stands
    rw [heq] at this
    rw [plug_append, plug_cons]
    simpa only [append_assoc] using this
  have hfollow := hplace.followDown? []
  rw [List.append_nil, ← hcopy, hsteps, followDown?] at hfollow
  obtain ⟨hforest, hstands, hkeeps, -⟩ := hplace.putText h.forest (t.delimiters.marker cs)
  have hset : r.document.setPlaceholder t.delimiters z' cs = .ok (r.document.putText z' (t.delimiters.marker cs)) := by
    have htext : r.document.isText z' = true := by rw [isText, text?, hplace.data?]; rfl
    simp [setPlaceholder, setText, check_ok hplace.node?, htext, bind, Except.bind]
  refine ⟨plug fs' (.single z' (.text (t.delimiters.marker cs)) .bare),
    r.document.putText z' (t.delimiters.marker cs), ?_, ⟨hforest, ?_⟩, hplug (.single .bare ..), ?_, ?_, hkeeps.toGrows⟩
  · rw [Area.relabel, Run.on_bind_ok (Run.on_document r), hfollow]
    exact Run.on_edit hset
  · rw [plug_append, plug_cons] at hstands
    simpa only [append_assoc] using hstands
  · rw [tops_plug, hcopy]
  · rw [heq, order_plug, order_plug, order_single, order_single]

theorem copyNodes_rest (t : Toolkit) (markers : CopyMarkers) {gs : List Frame} {y : NodeId} {sy : String} {c₀ : Grove} (hfirst : g.tops = [area.first])
    (hclosing : paths.closing = steps gs) : ∀ {k l a : Grove} {r : RunState}, Shelf outer p pdata a g c r →
      g ++ c = l ++ (k ++ plug gs (.single y (.text sy) .bare) ++ c₀) → ∃ m e,
        (copyNodes t area paths markers false (k.tops ++ [summit gs y])).on r = (.ok m.tops, { r with document := e }) ∧
        Shelf outer p pdata (a ++ m) g c { r with document := e } ∧
        (k ++ plug gs (.single y (.text (t.delimiters.marker markers.closing)) .bare)).Alike m ∧ Fresh r.document m ∧
        Grows r.document e := by
  intro k
  induction k with
  | bare =>
    intro l a r h hin
    obtain ⟨ydata, ysub, hlast⟩ := exists_summit gs y (.text sy) bare
    rw [bare_append, hlast] at hin
    obtain ⟨copy, sub', e, h₁, halike, hfresh, hgrows, hclone⟩ := h.clone hfirst hin
    obtain ⟨m, e', hrelabel, h₂, halike', htops, horder, hgrows'⟩ :=
      h₁.relabel (t := t) (by rw [hlast]; exact halike.single ..) .last markers.closing
    refine ⟨m, e', ?_, h₂, halike', fun id hid ↦ hfresh id (horder ▸ hid), hgrows.trans hgrows'⟩
    rw [tops_bare, List.nil_append, copyNodes, hclone, htops]
    simp only [Bool.false_eq_true, if_false, List.isEmpty_nil, if_true]
    rw [hclosing, Run.on_bind_ok hrelabel]
    rfl
  | tree id data below rest _ ih =>
    intro l a r h hin
    have hnext : g ++ c = l ++ (.single id data below ++ (rest ++ plug gs (.single y (.text sy) .bare) ++ c₀)) := by
      rw [hin, tree_eq below rest id]
      simp only [append_assoc]
    obtain ⟨copy, sub', e, h₁, halike, hfresh, hgrows, hclone⟩ := h.clone hfirst hnext
    obtain ⟨m, e', hrest, h₂, halike', hfresh', hgrows'⟩ := ih h₁ (hnext.trans (append_assoc l _ _).symm)
    refine ⟨.single copy data sub' ++ m, e', ?_, by rwa [append_assoc] at h₂, ?_, hfresh.append hfresh' hgrows,
      hgrows.trans hgrows'⟩
    · have hmore : (rest.tops ++ [summit gs y]).isEmpty = false := by simp
      rw [tops, List.cons_append, copyNodes, hclone]
      simp only [Bool.false_eq_true, if_false, hmore]
      rw [Run.on_bind_ok hrest]
      rfl
    · rw [tree_eq below rest id, append_assoc]
      exact (halike.single ..).append halike'

theorem copyNodes (t : Toolkit) (markers : CopyMarkers) {inner gs : List Frame} {x y : NodeId} {sx sy : String} {b c₀ : Grove}
    (h : Shelf outer p pdata a (plug inner (.single x (.text sx) .bare)) (b ++ plug gs (.single y (.text sy) .bare) ++ c₀) r)
    (hfirst : area.first = summit inner x) (hopening : paths.opening = steps inner) (hclosing : paths.closing = steps gs) :
    ∃ m e, (Area.copyNodes t area paths markers true (summit inner x :: (b.tops ++ [summit gs y]))).on r =
        (.ok m.tops, { r with document := e }) ∧
      Shelf outer p pdata (a ++ m) (plug inner (.single x (.text sx) .bare)) (b ++ plug gs (.single y (.text sy) .bare) ++ c₀)
        { r with document := e } ∧ (marked t inner x b gs y markers).Alike m ∧ Fresh r.document m ∧ Grows r.document e := by
  have htop : (plug inner (.single x (.text sx) .bare)).tops = [area.first] := by rw [tops_plug, hfirst]
  obtain ⟨xdata, xsub, hleft⟩ := exists_summit inner x (.text sx) bare
  have hin : plug inner (.single x (.text sx) .bare) ++ (b ++ plug gs (.single y (.text sy) .bare) ++ c₀) =
      .bare ++ (.single (summit inner x) xdata xsub ++ (b ++ plug gs (.single y (.text sy) .bare) ++ c₀)) := by
    rw [bare_append, hleft]
  obtain ⟨copy, sub', e, h₁, halike, hfresh, hgrows, hclone⟩ := h.clone htop hin
  obtain ⟨k, e₁, hrelabel, h₂, halike₁, htops, horder, hgrows₁⟩ :=
    h₁.relabel (t := t) (by rw [hleft]; exact halike.single ..) .first markers.opening
  obtain ⟨m, e', hrest, h₃, halike', hfresh', hgrows'⟩ := h₂.copyNodes_rest t markers htop hclosing rfl
  have hmore : (b.tops ++ [summit gs y]).isEmpty = false := by simp
  have hfresh₁ : Fresh r.document k := fun id hid ↦ hfresh id (horder ▸ hid)
  refine ⟨k ++ m, e', ?_, by rwa [append_assoc] at h₃, ?_, hfresh₁.append hfresh' (hgrows.trans hgrows₁),
    (hgrows.trans hgrows₁).trans hgrows'⟩
  · rw [Area.copyNodes, hclone]
    simp only [if_true, hmore]
    rw [hopening, Run.on_bind_ok hrelabel]
    simp only [Bool.false_eq_true, if_false]
    rw [Run.on_bind_ok hrest, tops_append, htops]
    rfl
  · rw [marked, append_assoc]
    exact halike₁.append halike'

/-- Copies of the trees of an area, one for each of some markers. -/
theorem copyAll (t : Toolkit) {inner gs : List Frame} {x y : NodeId} {sx sy : String} {b c₀ : Grove} (hfirst : area.first = summit inner x)
    (hopening : paths.opening = steps inner) (hclosing : paths.closing = steps gs) (all : List CopyMarkers) : ∀ {a : Grove}
    {r : RunState}, Shelf outer p pdata a (plug inner (.single x (.text sx) .bare)) (b ++ plug gs (.single y (.text sy) .bare) ++ c₀) r →
      ∃ ms e, (Area.copyAll t area paths (summit inner x :: (b.tops ++ [summit gs y])) all).on r =
          (.ok (join ms).tops, { r with document := e }) ∧
        Shelf outer p pdata (a ++ join ms) (plug inner (.single x (.text sx) .bare)) (b ++ plug gs (.single y (.text sy) .bare) ++ c₀)
          { r with document := e } ∧
        List.Forall₂ (fun markers m ↦ (marked t inner x b gs y markers).Alike m) all ms ∧ Fresh r.document (join ms) ∧
        Grows r.document e := by
  induction all with
  | nil => exact fun {a r} h ↦ ⟨[], r.document, rfl, by rwa [join, append_bare], .nil, by simp [Fresh, join], .refl _⟩
  | cons markers all ih =>
    intro a r h
    obtain ⟨m, e, hcopy, h₁, halike, hfresh, hgrows⟩ := h.copyNodes t markers hfirst hopening hclosing
    obtain ⟨ms, e', hrest, h₂, hall, hfresh', hgrows'⟩ := ih h₁
    refine ⟨m :: ms, e', ?_, by rwa [append_assoc] at h₂, .cons halike hall, hfresh.append hfresh' hgrows, hgrows.trans hgrows'⟩
    rw [Area.copyAll, Run.on_bind_ok hcopy, Run.on_bind_ok hrest, join, tops_append]
    rfl

end Shelf

theorem data?_forM_detach {ids : List NodeId} {r' : RunState} (h : (ids.forM Run.detach).on r = (.ok (), r')) (id : NodeId) :
    r'.document.data? id = r.document.data? id := by
  induction ids generalizing r with
  | nil =>
    obtain rfl := (Prod.mk.inj h).2
    rfl
  | cons x ids ih =>
    obtain ⟨⟨⟩, r₁, hdetach, hrest⟩ := Run.on_bind_eq_ok (show (Run.detach x >>= fun _ ↦ ids.forM Run.detach).on r = _ from h)
    obtain ⟨e, he, rfl⟩ := Run.on_edit_eq_ok hdetach
    rw [ih hrest]
    exact (detach_eq_ok he).2.2.1 id

section Replicas

variable {inner gs : List Frame} {x y : NodeId} {sx sy : String} {b : Grove} (hd : r.document.Forest)
  (h : r.document.Stands (fork outer p pdata a (plug inner (.single x (.text sx) .bare)) b (plug gs (.single y (.text sy) .bare)) c))

include hd h

omit hd h in
theorem notMem_of_nodup {m : Grove} {id : NodeId} (hnodup : (plug outer (.single p pdata (a ++ m ++ c))).order.Nodup) (hid : id ∈ m.order) :
    id ∉ (plug outer (.single p pdata (a ++ c))).order := by
  have hcount := List.nodup_iff_count_le_one.1 hnodup id
  have hpos := List.count_pos_iff.2 hid
  rw [← List.count_eq_zero]
  simp only [order_plug, order_single, order_append, List.count_append, List.count_cons] at hcount ⊢
  omega

/-- Copies of an area between two texts take its place, one for each of some markers, and the scan goes
on at the first of them. -/
theorem replicate_copies {all : List CopyMarkers} (hall : all ≠ []) : ∃ ms r',
    (replicate (pure t) ⟨p, x, y, summit inner x, summit gs y, .ofEnds a.tops.length (a.tops.length + 1 + b.tops.length)⟩ all).on r =
      (.ok (some (.toward (join ms).tops.head?)), r') ∧ r'.document.Forest ∧ Grows r.document r'.document ∧
    r'.document.Stands (plug outer (.single p pdata (a ++ (join ms ++ c)))) ∧
    List.Forall₂ (fun markers m ↦ (marked t inner x b gs y markers).Alike m) all ms ∧ Fresh r.document (join ms) ∧
    ∀ id ∈ (plug inner (.single x (.text sx) .bare) ++ b ++ plug gs (.single y (.text sy) .bare)).order,
      id ∉ (plug outer (.single p pdata (a ++ (join ms ++ c)))).order ∧ r'.document.data? id = r.document.data? id := by
  have hshort : ∀ {fs : List Frame} {f : Frame} {z : NodeId} {data : NodeData} {sub : Grove},
      r.document.Stands (plug (fs ++ f :: outer) (.single z data sub)) → fs.length < r.document.size + 1 := fun hplace ↦ by
    have := hplace.length_frames
    simp only [List.length_append] at this
    omega
  have hleft := h.fork_left.pathBelow? [] (hshort h.fork_left)
  have hright := h.fork_right.pathBelow? [] (hshort h.fork_right)
  rw [List.append_nil] at hleft hright
  have hshelf : Shelf outer p pdata a (plug inner (.single x (.text sx) .bare)) (b ++ plug gs (.single y (.text sy) .bare) ++ c) r :=
    ⟨hd, by simpa only [fork, append_assoc] using h⟩
  let o : Area := ⟨p, x, y, summit inner x, summit gs y, .ofEnds a.tops.length (a.tops.length + 1 + b.tops.length)⟩
  let m : Grove := plug inner (.single x (.text sx) .bare) ++ b ++ plug gs (.single y (.text sy) .bare)
  have hfirst : o.first = summit inner x := rfl
  have hopening : (MarkerPaths.mk (steps inner) (steps gs)).opening = steps inner := rfl
  obtain ⟨ms, e, hcopies, h₁, halike, hfresh, hgrows⟩ := hshelf.copyAll t hfirst hopening rfl all
  have hcopied : e.Stands (plug outer (.single p pdata (a ++ join ms ++ m ++ c))) := by
    simpa only [m, append_assoc] using h₁.stands
  obtain ⟨e', hdetach, hforest, hstands, hgrows'⟩ := detach_tops m { r with document := e } h₁.forest hcopied
  rw [append_assoc] at hstands
  have hdata : ∀ id, e'.data? id = e.data? id := data?_forM_detach hdetach
  rw [tops_area] at hdetach
  refine ⟨ms, { r with document := e', log := .clonedArea all.length :: r.log }, ?_, hforest, hgrows.trans hgrows', hstands, halike,
    hfresh, fun id hid ↦ ⟨?_, ?_⟩⟩
  · rw [replicate, if_neg (by simpa using hall), Run.on_bind_ok (Run.on_pure t r), Run.on_bind_ok (Run.on_document r), nodes_fork h,
      hleft, hright]
    dsimp only
    rw [Run.on_bind_ok hcopies, Run.on_bind_ok hdetach, Run.on_bind_ok (Run.on_log _ _), Run.on_bind_ok (Run.on_document _),
      Continuation.ofNode_here]
    rfl
  · -- the originals stood beside what is left
    have hout := notMem_of_nodup hcopied.nodup hid
    rwa [append_assoc] at hout
  · have hold : r.document.Holds (some p) m := (holds_append.1 (holds_append.1 (by simpa only [m, append_assoc] using h.below)).1).2
    have hnew : e.Holds (some p) m := (holds_append.1 (holds_append.1 hcopied.below).1).2
    rw [hdata, data?, data?, hold.node?_eq hnew id hid]

/-- The copies of an area between two texts are made, whatever its markers are to hold. -/
theorem replicate_fork (all : List CopyMarkers) : ∃ next? r',
    (replicate (pure t) ⟨p, x, y, summit inner x, summit gs y, .ofEnds a.tops.length (a.tops.length + 1 + b.tops.length)⟩ all).on r =
      (.ok next?, r') := by
  by_cases hall : all = []
  · obtain ⟨r', hdelete, -⟩ := delete_fork hd h
    rw [hall]
    exact ⟨_, r', hdelete⟩
  · obtain ⟨ms, r', hreplicate, -⟩ := replicate_copies (t := t) hd h hall
    exact ⟨_, r', hreplicate⟩

end Replicas

/-- Between two texts of the tree, the first before the second, an area is isolated, and what is done
with it then does not fail: neither is its deletion refused nor are copies of it. -/
theorem isolate_texts {g : Grove} {xs ys zs : List NodeId} {x y : NodeId} (hd : r.document.Forest) (h : r.document.Stands g)
    (htops : g.tops = [r.document.root]) (horder : g.order = xs ++ x :: (ys ++ y :: zs)) (hx : r.document.isText x = true)
    (hy : r.document.isText y = true) : ∃ area r₁, (isolate x y).on r = (.ok area, r₁) ∧
      (∃ next? r₂, (area.delete none true).on r₁ = (.ok next?, r₂)) ∧
      ∀ t all, ∃ next? r₂, (area.replicate (pure t) all).on r₁ = (.ok next?, r₂) := by
  obtain ⟨outer, p, pdata, a, inner, xdata, b, gs, ydata, c, rfl, -, -⟩ := h.exists_fork horder hx hy
  obtain ⟨sx, rfl⟩ := h.fork_left.exists_text hx
  obtain ⟨sy, rfl⟩ := h.fork_right.exists_text hy
  have htop : summit outer p = r.document.root := by
    rw [tops_plug] at htops
    exact (List.cons.inj htops).1
  obtain ⟨r₁, q, q', hisolate, -, -, hd₁, -, h₁⟩ := isolate_fork hd h htop
  refine ⟨_, r₁, hisolate, ?_, fun t all ↦ ?_⟩
  · obtain ⟨r₂, hdelete, -⟩ := delete_fork hd₁ h₁
    rw [summit_clear, summit_clear] at hdelete
    exact ⟨_, r₂, hdelete⟩
  · have hreplicate := replicate_fork (t := t) hd₁ h₁ all
    rwa [summit_clear, summit_clear] at hreplicate

end Area

end Stencil
