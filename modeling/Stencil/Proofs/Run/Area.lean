import Stencil.Proofs.Document.Row
import Stencil.Proofs.Run.Search
/-!
Areas of a page: what their isolation, deletion and replication come to. An area is a stretch of a
row; its first item begins with the opening marker, and its last item ends in the closing one.
-/

namespace Stencil

open Document

def Continuation.toward : Option NodeId → Continuation
  | some id => .at id
  | none => .stop

theorem Continuation.ofNode_behind (d : Document) (id : NodeId) :
    Continuation.ofNode d (some id) true = .toward (d.nextAfter? id) := by
  cases h : d.nextAfter? id <;> simp [ofNode, toward, h]

theorem Continuation.toward_eq_at {id? : Option NodeId} {id : NodeId} (h : Continuation.toward id? = .at id) : id? = some id := by
  cases id? with
  | none => contradiction
  | some n => exact congrArg some (Continuation.at.inj h)

theorem Continuation.ofNode_here (d : Document) (id? : Option NodeId) :
    Continuation.ofNode d id? false = .toward id? := by
  cases id? <;> rfl

namespace Area

section Rows

variable {R : Row} (hR : R.Lawful) {left right mid : List R.Item} {first last m : R.Item} {r : RunState} {t : Toolkit}

include hR

theorem detach_items : ∀ (items : List R.Item) (r : RunState), r.document.Shows (R.page (left ++ (items ++ right))) →
    ∃ e, ((items.map R.id).forM Run.detach).on r = (.ok (), { r with document := e }) ∧
      e.Shows (R.page (left ++ right)) ∧ Grows r.document e := by
  intro items
  induction items with
  | nil => exact fun r h ↦ ⟨r.document, rfl, h, .refl _⟩
  | cons x xs ih =>
    intro r h
    obtain ⟨e₁, he₁, h₁, hg₁⟩ := hR.detach (show r.document.Shows (R.page (left ++ x :: (xs ++ right))) from h)
    obtain ⟨e₂, he₂, h₂, hg₂⟩ := ih { r with document := e₁ } h₁
    refine ⟨e₂, ?_, h₂, hg₁.trans hg₂⟩
    have hdetach : (Run.detach (R.id x)).on r = (.ok (), { r with document := e₁ }) := Run.on_edit he₁
    have hcons : ((x :: xs).map R.id).forM Run.detach = (do
        Run.detach (R.id x)
        (xs.map R.id).forM Run.detach) := rfl
    rw [hcons, Run.on_bind_ok hdetach, he₂]

theorem relabel_on {y : R.Item} {front back : List Content} {s : String} (which : AreaEnd) (cs : Commands)
    (h : r.document.Shows (R.page (left ++ y :: right))) (hcontents : R.contents y = front ++ .text s :: back) :
    ∃ z e, (relabel t which (R.id y) (R.path front.length) cs).on r = (.ok (), { r with document := e }) ∧
      e.Shows (R.page (left ++ z :: right)) ∧ Grows r.document e ∧ R.id z = R.id y ∧ R.ids z = R.ids y ∧
      R.contents z = front ++ .text (t.delimiters.marker cs) :: back := by
  obtain ⟨z, e, marker, hfollow, hset, hshows, hgrows, hid, hids, hnew⟩ :=
    hR.relabel h hcontents (t.delimiters.marker cs)
  refine ⟨z, e, ?_, hshows, hgrows, hid, hids, hnew⟩
  rw [relabel, Run.on_bind_ok (Run.on_document r), hfollow]
  exact Run.on_edit hset

variable {a : Area}

theorem clone_on {x : R.Item} (h : r.document.Shows (R.page (left ++ m :: right))) (hx : x ∈ left ++ m :: right)
    (ha : a.first = R.id m) {α : Type} (f : NodeId → Run α) :
    ∃ y e, (do
        let clone ← Run.editFor fun d ↦ d.deepClone (R.id x)
        Run.edit fun d ↦ d.insertBefore a.first clone
        f clone : Run α).on r = (f (R.id y)).on { r with document := e } ∧
      e.Shows (R.page (left ++ y :: m :: right)) ∧ Grows r.document e ∧ R.contents y = R.contents x ∧
      ∀ id ∈ R.ids y, r.document.node? id = none := by
  obtain ⟨y, e, e', hclone, hinsert, hshows, hgrows, hcontents, hnew⟩ := hR.clone h hx
  refine ⟨y, e', ?_, hshows, hgrows, hcontents, hnew⟩
  have hedit : (Run.edit fun d ↦ d.insertBefore a.first (R.id y)).on { r with document := e } =
      (.ok (), { r with document := e' }) := by
    rw [ha]
    exact Run.on_edit (r := { r with document := e }) hinsert
  rw [Run.on_bind_ok (Run.on_editFor hclone), Run.on_bind_ok hedit]

variable {paths : MarkerPaths} (markers : CopyMarkers) (ha : a.first = R.id m)

include ha

theorem copyNodes_rest {front : List Content} {s : String} (hlast : R.contents last = front ++ [.text s])
    (hpath : paths.closing = R.path front.length) : ∀ (mid done : List R.Item) (r : RunState),
    r.document.Shows (R.page (left ++ done ++ m :: right)) → (∀ x ∈ mid ++ [last], x ∈ left ++ m :: right) →
    ∃ news e, (copyNodes t a paths markers false ((mid ++ [last]).map R.id)).on r =
        (.ok (news.map R.id), { r with document := e }) ∧ e.Shows (R.page (left ++ (done ++ news) ++ m :: right)) ∧
      Grows r.document e ∧ (∀ id ∈ news.flatMap R.ids, r.document.node? id = none) ∧
      news.map R.contents = mid.map R.contents ++ [front ++ [.text (t.delimiters.marker markers.closing)]] := by
  have hstill : ∀ {done : List R.Item} {x}, x ∈ left ++ m :: right → x ∈ left ++ done ++ m :: right := fun hx ↦ by
    rcases List.mem_append.1 hx with hx | hx
    · exact List.mem_append_left _ (List.mem_append_left _ hx)
    · exact List.mem_append_right _ hx
  intro mid
  induction mid with
  | nil =>
    intro done r h hmem
    obtain ⟨y, e, hon, hshows, hgrows, hcontents, hnew⟩ := clone_on hR (x := last) h
      (hstill (hmem last (by simp))) ha fun clone ↦ do
        relabel t .last clone paths.closing markers.closing
        pure [clone]
    obtain ⟨z, e', hrelabel, hshows', hgrows', hid, hids, hcontents'⟩ := relabel_on hR (t := t)
      (r := { r with document := e }) .last markers.closing hshows (hcontents.trans hlast)
    refine ⟨[z], e', ?_, by simpa using hshows', hgrows.trans hgrows', ?_, by simpa using hcontents'⟩
    · have hcopy : copyNodes t a paths markers false [R.id last] = (do
          let clone ← Run.editFor fun d ↦ d.deepClone (R.id last)
          Run.edit fun d ↦ d.insertBefore a.first clone
          relabel t .last clone paths.closing markers.closing
          pure [clone]) := rfl
      rw [List.nil_append, List.map_singleton, hcopy, hon, hpath, Run.on_bind_ok hrelabel, List.map_singleton, hid]
      rfl
    · intro id hin
      rw [List.flatMap_singleton, hids] at hin
      exact hnew id hin
  | cons x mid ih =>
    intro done r h hmem
    obtain ⟨y, e, hon, hshows, hgrows, hcontents, hnew⟩ := clone_on hR (x := x) h
      (hstill (hmem x (by simp))) ha fun clone ↦ do
        let clones ← copyNodes t a paths markers false ((mid ++ [last]).map R.id)
        pure (clone :: clones)
    obtain ⟨news, e', hon', hshows', hgrows', hnew', hcontents'⟩ := ih (done ++ [y]) { r with document := e }
      (by simpa using hshows) fun z hz ↦ hmem z (List.mem_cons_of_mem _ hz)
    refine ⟨y :: news, e', ?_, by simpa using hshows', hgrows.trans hgrows', ?_, ?_⟩
    · have hcopy : copyNodes t a paths markers false ((x :: mid ++ [last]).map R.id) = (do
          let clone ← Run.editFor fun d ↦ d.deepClone (R.id x)
          Run.edit fun d ↦ d.insertBefore a.first clone
          let clones ← copyNodes t a paths markers false ((mid ++ [last]).map R.id)
          pure (clone :: clones)) := by
        rw [List.cons_append, List.map_cons, copyNodes]
        have hne : ((mid ++ [last]).map R.id).isEmpty = false := by simp
        simp only [hne]
        rfl
      rw [hcopy, hon, Run.on_bind_ok hon']
      rfl
    · intro id hin
      rcases List.mem_append.1 hin with hin | hin
      · exact hnew id hin
      · exact hgrows.unknown (hnew' id hin)
    · rw [List.map_cons, hcontents, hcontents', List.map_cons, List.cons_append]

def copyContents (t : Toolkit) (back : List Content) (mid : List (List Content)) (front : List Content)
    (markers : CopyMarkers) : List (List Content) :=
  (.text (t.delimiters.marker markers.opening) :: back) ::
    (mid ++ [front ++ [.text (t.delimiters.marker markers.closing)]])

variable {front back : List Content} {s s' : String} (hfirst : R.contents m = .text s :: back)
  (hlast : R.contents last = front ++ [.text s']) (hopening : paths.opening = R.path 0)
  (hclosing : paths.closing = R.path front.length)

include hfirst hlast hopening hclosing

theorem copyNodes_on (done : List R.Item) (h : r.document.Shows (R.page (left ++ done ++ m :: right)))
    (hmem : ∀ x ∈ mid ++ [last], x ∈ left ++ m :: right) :
    ∃ news e, (copyNodes t a paths markers true ((m :: mid ++ [last]).map R.id)).on r =
        (.ok (news.map R.id), { r with document := e }) ∧ e.Shows (R.page (left ++ (done ++ news) ++ m :: right)) ∧
      Grows r.document e ∧ (∀ id ∈ news.flatMap R.ids, r.document.node? id = none) ∧
      news.map R.contents = copyContents t back (mid.map R.contents) front markers := by
  obtain ⟨y, e₁, hon, h₁, hg₁, hcontents₁, hnew₁⟩ := clone_on hR (x := m) h
    (List.mem_append_right _ (List.mem_cons_self ..)) ha fun clone ↦ do
      relabel t .first clone paths.opening markers.opening
      let clones ← copyNodes t a paths markers false ((mid ++ [last]).map R.id)
      pure (clone :: clones)
  obtain ⟨z, e₂, hrelabel, h₂, hg₂, hid, hids, hcontents₂⟩ := relabel_on hR (t := t)
    (r := { r with document := e₁ }) .first markers.opening h₁
    (show R.contents y = [] ++ .text s :: back from hcontents₁.trans hfirst)
  obtain ⟨news, e₃, hon₃, h₃, hg₃, hnew₃, hcontents₃⟩ := copyNodes_rest hR (t := t) markers ha hlast hclosing mid (done ++ [z]) { r with document := e₂ } (by simpa using h₂) hmem
  rw [List.length_nil] at hrelabel
  refine ⟨z :: news, e₃, ?_, by simpa using h₃, (hg₁.trans hg₂).trans hg₃, ?_, ?_⟩
  · have hcopy : copyNodes t a paths markers true ((m :: mid ++ [last]).map R.id) = (do
        let clone ← Run.editFor fun d ↦ d.deepClone (R.id m)
        Run.edit fun d ↦ d.insertBefore a.first clone
        relabel t .first clone paths.opening markers.opening
        let clones ← copyNodes t a paths markers false ((mid ++ [last]).map R.id)
        pure (clone :: clones)) := by
      rw [List.cons_append, List.map_cons, copyNodes]
      have hne : ((mid ++ [last]).map R.id).isEmpty = false := by simp
      simp only [hne]
      rfl
    rw [hcopy, hon, hopening, Run.on_bind_ok hrelabel, Run.on_bind_ok hon₃, List.map_cons, hid]
    rfl
  · intro id hin
    rcases List.mem_append.1 hin with hin | hin
    · exact hnew₁ id (hids ▸ hin)
    · exact (hg₁.trans hg₂).unknown (hnew₃ id hin)
  · rw [List.map_cons, hcontents₂, hcontents₃, copyContents, List.nil_append]

theorem copyAll_on : ∀ (all : List CopyMarkers) (done : List R.Item) (r : RunState),
    r.document.Shows (R.page (left ++ done ++ m :: right)) → (∀ x ∈ mid ++ [last], x ∈ left ++ m :: right) →
    ∃ news e, (copyAll t a paths ((m :: mid ++ [last]).map R.id) all).on r =
        (.ok (news.map R.id), { r with document := e }) ∧ e.Shows (R.page (left ++ (done ++ news) ++ m :: right)) ∧
      Grows r.document e ∧ (∀ id ∈ news.flatMap R.ids, r.document.node? id = none) ∧
      news.map R.contents = all.flatMap (copyContents t back (mid.map R.contents) front) := by
  intro all
  induction all with
  | nil => exact fun done r h _ ↦ ⟨[], r.document, rfl, by simpa using h, .refl _, by simp, rfl⟩
  | cons markers all ih =>
    intro done r h hmem
    obtain ⟨news, e, hon, h₁, hg₁, hnew₁, hcontents₁⟩ := copyNodes_on hR (t := t) markers ha hfirst hlast hopening
      hclosing done h hmem
    obtain ⟨more, e', hon', h₂, hg₂, hnew₂, hcontents₂⟩ := ih (done ++ news) { r with document := e } h₁ hmem
    refine ⟨news ++ more, e', ?_, by simpa using h₂, hg₁.trans hg₂, ?_, ?_⟩
    · rw [copyAll, Run.on_bind_ok hon, Run.on_bind_ok hon', List.map_append]
      rfl
    · intro id hin
      rw [List.flatMap_append] at hin
      rcases List.mem_append.1 hin with hin | hin
      · exact hnew₁ id hin
      · exact hg₁.unknown (hnew₂ id hin)
    · rw [List.map_append, hcontents₁, hcontents₂, List.flatMap_cons]

end Rows

/-! ### Deletion and replication -/

section Stretch

variable {R : Row} (hR : R.Lawful) {left right mid : List R.Item} {first last : R.Item} {r : RunState}

def ofStretch (R : Row) (d : Document) (left mid : List R.Item) (first last : R.Item) (opening closing : NodeId) :
    Area :=
  ⟨R.parent d, opening, closing, R.id first, R.id last, .ofEnds left.length (left.length + mid.length + 1)⟩

variable (h : r.document.Shows (R.page (left ++ first :: (mid ++ last :: right)))) (o c : NodeId)

include hR h

theorem nodes_ofStretch : (ofStretch R r.document left mid first last o c).nodes r.document =
    (first :: mid ++ [last]).map R.id := by
  have hchildren := hR.children h
  have hlow : min left.length (left.length + mid.length + 1) = left.length := by omega
  have hhigh : max left.length (left.length + mid.length + 1) = left.length + mid.length + 1 := by omega
  have hsplit : (left ++ first :: (mid ++ last :: right)).map R.id =
      left.map R.id ++ ((first :: mid ++ [last]).map R.id ++ right.map R.id) := by simp
  rw [nodes, nodesIn, ofStretch, IndexRange.ofEnds]
  dsimp only
  rw [hchildren, hlow, hhigh, hsplit, List.drop_take, List.drop_left' (by simp)]
  exact List.take_left' (by simp; omega)

theorem delete_on : ∃ r', ((ofStretch R r.document left mid first last o c).delete none true).on r =
      (.ok (some (.toward (R.next? right))), r') ∧ r.Keeps r' ∧ r'.document.Shows (R.page (left ++ right)) := by
  have h' : r.document.Shows (R.page ((left ++ first :: mid) ++ last :: right)) := by simpa using h
  have hnodes := nodes_ofStretch hR h o c
  let a := ofStretch R r.document left mid first last o c
  have hrange : (a.range.contains a.range.low && a.range.contains a.range.high) = true := by
    have := a.range.low_le_high
    simp [this]
  let r₁ : RunState := { r with log := .deletingArea (a.nodesIn r.document a.range).length a.range :: r.log }
  have hshown : r₁.document.Shows (R.page (left ++ ((first :: mid ++ [last]) ++ right))) := by simpa [r₁] using h
  obtain ⟨e, hon, hshows, hgrows⟩ := detach_items hR (first :: mid ++ [last]) r₁ hshown
  refine ⟨{ r₁ with document := e }, ?_, (RunState.keeps_log rfl).trans (RunState.keeps_document (r := r₁) hgrows),
    hshows⟩
  have hdoomed : a.nodesIn r.document a.range = (first :: mid ++ [last]).map R.id := hnodes
  have hnext : Continuation.ofNode r.document (some a.last) true = .toward (R.next? right) := by
    rw [Continuation.ofNode_behind]
    exact congrArg _ (hR.nextAfter? h')
  have hwhole : (a.delete none true).on r = (do
      (a.nodesIn r.document a.range).forM Run.detach
      return some (Continuation.ofNode r.document (some a.last) true) : Run (Option Continuation)).on r₁ := by
    rw [delete, Option.getD_none, hrange]
    rfl
  rw [hwhole, hdoomed, Run.on_bind_ok hon, hnext, Run.on_pure]

theorem replicate_on {t : Toolkit} {toolkit : Run Toolkit} (htoolkit : ∀ r, toolkit.on r = (.ok t, r)) {s s' : String}
    {front back : List Leaf} (hfirst : R.leaves first = ⟨o, .text s⟩ :: back)
    (hlast : R.leaves last = front ++ [⟨c, .text s'⟩]) (markers : List CopyMarkers) :
    ∃ (copies : List R.Item) (r' : RunState),
      ((ofStretch R r.document left mid first last o c).replicate toolkit markers).on r =
        (.ok (some (.toward (R.next? (copies ++ right)))), r') ∧ r.Keeps r' ∧
      r'.document.Shows (R.page (left ++ (copies ++ right))) ∧
      (∀ id ∈ copies.flatMap R.ids, r.document.node? id = none) ∧
      copies.map R.contents = markers.flatMap
        (copyContents t (back.map Leaf.content) (mid.map R.contents) (front.map Leaf.content)) := by
  cases markers with
  | nil =>
    obtain ⟨r', hon, hkeeps, hshows⟩ := delete_on hR h o c
    refine ⟨[], r', ?_, hkeeps, hshows, by simp, rfl⟩
    exact hon
  | cons mk rest =>
    let a := ofStretch R r.document left mid first last o c
    have hnodes := nodes_ofStretch hR h o c
    have hopening : pathBelow? r.document a.first (r.document.size + 1) a.opening [] = some (R.path 0) :=
      hR.pathBelow h (show R.leaves first = [] ++ ⟨o, .text s⟩ :: back from hfirst)
    have hclosing : pathBelow? r.document a.last (r.document.size + 1) a.closing [] = some (R.path front.length) :=
      hR.pathBelow (show r.document.Shows (R.page ((left ++ first :: mid) ++ last :: right)) by simpa using h) hlast
    have hopens : R.contents first = .text s :: back.map Leaf.content := by rw [Row.contents, hfirst, List.map_cons]
    have hcloses : R.contents last = front.map Leaf.content ++ [.text s'] := by
      rw [Row.contents, hlast, List.map_append, List.map_singleton]
    have hshown : r.document.Shows (R.page (left ++ [] ++ first :: (mid ++ last :: right))) := by simpa using h
    have hpaths : (⟨R.path 0, R.path front.length⟩ : MarkerPaths).opening = R.path 0 ∧
        (⟨R.path 0, R.path front.length⟩ : MarkerPaths).closing = R.path (front.map Leaf.content).length := by simp
    have hmem : ∀ x ∈ mid ++ [last], x ∈ left ++ first :: (mid ++ last :: right) := fun x hx ↦ by
      rcases List.mem_append.1 hx with hx | hx
      · simp [hx]
      · simp [List.mem_singleton.1 hx]
    obtain ⟨copies, e, hcopy, hshows, hgrows, hnew, hcontents⟩ := copyAll_on hR (t := t) (a := a) rfl hopens hcloses
      hpaths.1 hpaths.2 (mk :: rest) [] r hshown hmem
    obtain ⟨e', hdetach, hshows', hgrows'⟩ := detach_items hR
      (first :: mid ++ [last]) { r with document := e }
      (show e.Shows (R.page ((left ++ copies) ++ ((first :: mid ++ [last]) ++ right))) by simpa using hshows)
    have hhead : ∃ x xs, copies = x :: xs := by
      cases copies with
      | nil => simp [copyContents] at hcontents
      | cons x xs => exact ⟨x, xs, rfl⟩
    have hnext : Continuation.ofNode e' (copies.map R.id).head? false = .toward (R.next? (copies ++ right)) := by
      obtain ⟨x, xs, rfl⟩ := hhead
      rw [Continuation.ofNode_here, List.cons_append, hR.next?_cons, List.map_cons, List.head?_cons]
    refine ⟨copies, { r with document := e', log := .clonedArea (mk :: rest).length :: r.log }, ?_, ?_,
      by simpa using hshows', hnew, hcontents⟩
    · have hwhole : (a.replicate toolkit (mk :: rest)).on r = (do
          let clones ← copyAll t a ⟨R.path 0, R.path front.length⟩ (a.nodes r.document) (mk :: rest)
          (a.nodes r.document).forM Run.detach
          Run.log (.clonedArea (mk :: rest).length)
          return some (Continuation.ofNode (← Run.document) clones.head? false) : Run (Option Continuation)).on r := by
        rw [replicate, List.isEmpty_cons, if_neg (by simp), Run.on_bind_ok (htoolkit r),
          Run.on_bind_ok (Run.on_document r)]
        simp only [hopening, hclosing]
      have hnodes' : a.nodes r.document = (first :: mid ++ [last]).map R.id := hnodes
      rw [hwhole, hnodes', Run.on_bind_ok hcopy, Run.on_bind_ok hdetach, Run.on_bind_ok (Run.on_log _ _),
        Run.on_bind_ok (Run.on_document _), Run.on_pure]
      dsimp only
      rw [hnext]
    · exact (RunState.keeps_document (hgrows.trans hgrows')).trans
        (RunState.keeps_log (r := { r with document := e' }) rfl)

end Stretch

/-! ### Isolation -/

section Isolation

variable {d : Document} {above mid below : List Paragraph} {bid bid' : NodeId} {left inner first front rest : List Leaf}
  {o c : Leaf} {r : RunState}

theorem resolve_of {ancestor top top' : NodeId} {i j : ℕ} (hancestor : ancestorOf d o.id c.id = .ok ancestor)
    (hfirst : d.ancestorChild? ancestor o.id = some top) (hlast : d.ancestorChild? ancestor c.id = some top')
    (hi : d.indexInParent? top = some i) (hj : d.indexInParent? top' = some j) (hij : i ≤ j) :
    resolve d o.id c.id = .ok ⟨ancestor, o.id, c.id, top, top', .ofEnds i j⟩ := by
  simp only [resolve, hancestor, bind, Except.bind, hfirst, hlast, hi, hj, if_neg (Nat.not_lt.2 hij)]

theorem ancestorOf_of {a : NodeId} (hne : o.id ≠ c.id) (hcommon : d.commonAncestor? o.id c.id = some a)
    (hattached : d.isAttached a = true) (hopening : a ≠ o.id) (hclosing : a ≠ c.id) :
    ancestorOf d o.id c.id = .ok a := by
  simp [ancestorOf, hne, hcommon, hattached, hopening, hclosing]

theorem resolve_here (h : d.Shows (above ++ ⟨bid, left ++ o :: (inner ++ c :: rest)⟩ :: below)) :
    resolve d o.id c.id = .ok ⟨bid, o.id, c.id, o.id, c.id, .ofEnds left.length (left.length + inner.length + 1)⟩ := by
  let b : Paragraph := ⟨bid, left ++ o :: (inner ++ c :: rest)⟩
  have hb : b ∈ above ++ b :: below := by simp
  have ho : o ∈ b.leaves := by simp [b]
  have hc : c ∈ b.leaves := by simp [b]
  have h' : d.Shows (above ++ ⟨bid, (left ++ o :: inner) ++ c :: rest⟩ :: below) := by simpa using h
  have hne : o.id ≠ c.id := fun heq ↦ h'.notMem_left (heq ▸ by simp)
  have hroot := h.leaf_ne_root hb hc
  have hblock := h.leaf_ne_block hb hc
  have hcommon : d.commonAncestor? o.id c.id = some bid := by
    rw [commonAncestor?, h.ancestors_leaf hb ho, h.ancestors_leaf hb hc]
    simp [hne.symm, hroot, hblock, b]
  refine resolve_of (ancestorOf_of hne hcommon (h.isAttached_block hb) (h.leaf_ne_block hb ho).symm hblock.symm)
    (h.ancestorChild?_block hb ho) (h.ancestorChild?_block hb hc) h.indexInParent?_leaf ?_ (by omega)
  rw [h'.indexInParent?_leaf, List.length_append, List.length_cons]
  exact congrArg some (by omega)

theorem resolve_there
    (h : d.Shows (above ++ ⟨bid, left ++ o :: first⟩ :: (mid ++ ⟨bid', front ++ c :: rest⟩ :: below))) :
    resolve d o.id c.id =
      .ok ⟨d.root, o.id, c.id, bid, bid', .ofEnds above.length (above.length + mid.length + 1)⟩ := by
  let page := above ++ ⟨bid, left ++ o :: first⟩ :: (mid ++ ⟨bid', front ++ c :: rest⟩ :: below)
  let b : Paragraph := ⟨bid, left ++ o :: first⟩
  let b' : Paragraph := ⟨bid', front ++ c :: rest⟩
  have hb : b ∈ page := by simp [page, b]
  have hb' : b' ∈ page := by simp [page, b']
  have ho : o ∈ b.leaves := by simp [b]
  have hc : c ∈ b'.leaves := by simp [b']
  have h' : d.Shows ((above ++ b :: mid) ++ b' :: below) := by simpa [b, b'] using h
  have hblocks : bid ≠ bid' := fun heq ↦ h'.notMem_above (by simp [b, b', heq])
  have hparent : d.parent? o.id = some bid := h.parent?_leaf hb ho
  have hparent' : d.parent? c.id = some bid' := h.parent?_leaf hb' hc
  have hroot : d.parent? bid = some d.root := h.parent?_block hb
  have hroot' : d.parent? bid' = some d.root := h.parent?_block hb'
  have hne : o.id ≠ c.id := fun heq ↦ by
    rw [heq, hparent'] at hparent
    exact hblocks (Option.some.inj hparent).symm
  have hcb : c.id ≠ bid := fun heq ↦ by
    rw [heq, hroot] at hparent'
    exact h.block_ne_root hb' (Option.some.inj hparent').symm
  have hbo : bid' ≠ o.id := fun heq ↦ by
    rw [← heq, hroot'] at hparent
    exact h.block_ne_root hb (Option.some.inj hparent).symm
  have hrootb : bid' ≠ d.root := h.block_ne_root hb'
  have hcommon : d.commonAncestor? o.id c.id = some d.root := by
    rw [commonAncestor?, h.ancestors_leaf hb ho, h.ancestors_leaf hb' hc]
    simp [hne.symm, hcb, h.leaf_ne_root hb' hc, hbo, hblocks.symm, hrootb, b, b']
  refine resolve_of (ancestorOf_of hne hcommon (by simp [isAttached]) (h.leaf_ne_root hb ho).symm
    (h.leaf_ne_root hb' hc).symm) (h.ancestorChild?_root hb ho) (h.ancestorChild?_root hb' hc)
    h.indexInParent?_block ?_ (by omega)
  have hindex := h'.indexInParent?_block
  rw [List.length_append, List.length_cons] at hindex
  exact hindex.trans (congrArg some (by omega))

/-- The markers of an area in one block stand among its leaves; nothing is split. -/
theorem isolate_here (h : r.document.Shows (above ++ ⟨bid, left ++ o :: (inner ++ c :: rest)⟩ :: below)) :
    (isolate o.id c.id).on r =
      (.ok (ofStretch (.ofLeaves above bid below) r.document left inner o c o.id c.id), r) := by
  let b : Paragraph := ⟨bid, left ++ o :: (inner ++ c :: rest)⟩
  have hb : b ∈ above ++ b :: below := by simp
  have hsplit : ∀ (l : Leaf) (side : Side), l ∈ b.leaves →
      (Run.editFor fun d ↦ d.splitOff bid l.id side).on r = (.ok none, r) := fun l side hl ↦
    Run.on_editFor (h.splitOff_block hb hl)
  rw [isolate, Run.on_bind_ok (Run.on_document r), resolve_here h, Run.on_bind_ok (Run.on_ofExcept_ok _ _ r),
    Run.on_bind_ok (hsplit o .before (by simp [b])), Run.on_bind_ok (hsplit c .after (by simp [b]))]
  rfl

/-- An area over several blocks: what stands before the opening marker in its block, and behind the
closing one in its, are put into blocks of their own. -/
theorem isolate_there
    (h : r.document.Shows (above ++ ⟨bid, left ++ o :: first⟩ :: (mid ++ ⟨bid', front ++ c :: rest⟩ :: below))) :
    ∃ r' part part', (isolate o.id c.id).on r = (.ok (ofStretch .ofBlocks r'.document (above ++ Paragraph.part part left)
        mid ⟨bid, o :: first⟩ ⟨bid', front ++ [c]⟩ o.id c.id), r') ∧ r.Keeps r' ∧
      r'.document.Shows ((above ++ Paragraph.part part left) ++ ⟨bid, o :: first⟩ ::
        (mid ++ ⟨bid', front ++ [c]⟩ :: (Paragraph.part part' rest ++ below))) ∧
      r.document.node? part = none ∧ r.document.node? part' = none := by
  obtain ⟨before?, e, hbefore, hnone, h₁, hg₁⟩ := h.splitOff_before
  have h₁' : e.Shows (((above ++ Paragraph.part r.document.fresh left) ++ ⟨bid, o :: first⟩ :: mid) ++
      ⟨bid', front ++ c :: rest⟩ :: below) := by simpa using h₁
  obtain ⟨after?, e', hafter, hnone', h₂, hg₂⟩ := h₁'.splitOff_after
  have h₂' : e'.Shows ((above ++ Paragraph.part r.document.fresh left) ++ ⟨bid, [] ++ o :: first⟩ ::
      (mid ++ ⟨bid', front ++ c :: []⟩ :: (Paragraph.part e.fresh rest ++ below))) := by simpa using h₂
  have hnew : r.document.node? e.fresh = none := hg₁.unknown (node?_fresh e)
  have hstart : (isolate o.id c.id).on r = (do
      if before?.isNone && after?.isNone then
        return (⟨r.document.root, o.id, c.id, bid, bid', .ofEnds above.length (above.length + mid.length + 1)⟩ : Area)
      Run.log (.splitBoundaries before?.isSome after?.isSome)
      Run.ofExcept .area (resolve (← Run.document) o.id c.id) : Run Area).on { r with document := e' } := by
    have hbefore' : (Run.editFor fun d ↦ d.splitOff r.document.root o.id .before).on r =
        (.ok before?, { r with document := e }) := Run.on_editFor hbefore
    have hafter' : (Run.editFor fun d ↦ d.splitOff r.document.root c.id .after).on { r with document := e } =
        (.ok after?, { r with document := e' }) := by
      refine Run.on_editFor (r := { r with document := e }) ?_
      rw [← hafter, hg₁.root]
    rw [isolate, Run.on_bind_ok (Run.on_document r), resolve_there h, Run.on_bind_ok (Run.on_ofExcept_ok _ _ r),
      Run.on_bind_ok hbefore', Run.on_bind_ok hafter']
  by_cases hboth : (before?.isNone && after?.isNone) = true
  · obtain ⟨hb, ha⟩ : before? = none ∧ after? = none := by simpa using hboth
    obtain ⟨he, rfl⟩ := hnone hb
    obtain ⟨he', rfl⟩ := hnone' ha
    refine ⟨{ r with document := e' }, r.document.fresh, e.fresh, ?_, RunState.keeps_document (hg₁.trans hg₂), ?_,
      node?_fresh _, hnew⟩
    · have hroot : e'.root = r.document.root := by rw [he', he]
      rw [hstart, if_pos hboth, Run.on_pure]
      simp [ofStretch, Row.ofBlocks, Paragraph.part, hroot]
    · simpa using h₂'
  · refine ⟨{ r with document := e', log := .splitBoundaries before?.isSome after?.isSome :: r.log },
      r.document.fresh, e.fresh, ?_, (RunState.keeps_document (hg₁.trans hg₂)).trans
        (RunState.keeps_log (r := { r with document := e' }) rfl), by simpa using h₂', node?_fresh _, hnew⟩
    rw [hstart, if_neg hboth, Run.on_bind_ok (Run.on_log _ _), Run.on_bind_ok (Run.on_document _)]
    dsimp only
    rw [resolve_there h₂', Run.on_ofExcept_ok]
    rfl

variable {t : Toolkit} {toolkit : Run Toolkit} (htoolkit : ∀ r, toolkit.on r = (.ok t, r)) {s s' : String}
  (ho : o.content = .text s) (hc : c.content = .text s') (markers : List CopyMarkers)

include htoolkit ho hc

theorem replicate_here (h : r.document.Shows (above ++ ⟨bid, left ++ o :: (inner ++ c :: rest)⟩ :: below)) :
    ∃ (copies : List Leaf) (r' : RunState), (do
        let area ← isolate o.id c.id
        area.replicate toolkit markers : Run (Option Continuation)).on r =
        (.ok (some (.toward (ahead? (copies ++ rest) below))), r') ∧ r.Keeps r' ∧
      r'.document.Shows (above ++ ⟨bid, left ++ (copies ++ rest)⟩ :: below) ∧
      (∀ id ∈ copies.map Leaf.id, r.document.node? id = none) ∧
      copies.map Leaf.content = markers.flatMap fun m ↦ .text (t.delimiters.marker m.opening) ::
        (inner.map Leaf.content ++ [.text (t.delimiters.marker m.closing)]) := by
  obtain ⟨oid, ocontent⟩ := o
  obtain ⟨cid, ccontent⟩ := c
  obtain rfl : ocontent = .text s := ho
  obtain rfl : ccontent = .text s' := hc
  let R := Row.ofLeaves above bid below
  obtain ⟨copies, r', hon, hkeeps, hshows, hnew, hcontents⟩ := replicate_on (R := R) Row.lawful_ofLeaves h oid cid
    htoolkit (show R.leaves ⟨oid, .text s⟩ = ⟨oid, .text s⟩ :: [] from rfl)
    (show R.leaves ⟨cid, .text s'⟩ = [] ++ [⟨cid, .text s'⟩] from rfl) markers
  refine ⟨copies, r', (Run.on_bind_ok (isolate_here h)).trans hon, hkeeps, hshows, fun id hid ↦ hnew id ?_, ?_⟩
  · obtain ⟨l, hl, rfl⟩ := List.mem_map.1 hid
    exact List.mem_flatMap.2 ⟨l, hl, List.mem_cons_self ..⟩
  · have hsingle : ∀ ls : List Leaf, (ls.map fun l ↦ [l.content]).flatten = ls.map Leaf.content := by
      intro ls
      induction ls with
      | nil => rfl
      | cons l ls ih => rw [List.map_cons, List.flatten_cons, ih, List.map_cons, List.singleton_append]
    have hmarked : (markers.flatMap (copyContents t [] (inner.map fun l ↦ [l.content]) [])).flatten =
        markers.flatMap fun m ↦ .text (t.delimiters.marker m.opening) ::
          (inner.map Leaf.content ++ [.text (t.delimiters.marker m.closing)]) := by
      rw [← List.flatMap_id, List.flatMap_assoc]
      refine List.flatMap_congr fun m _ ↦ ?_
      rw [List.flatMap_id, copyContents, List.flatten_cons, List.flatten_append, hsingle]
      simp
    exact (hsingle copies).symm.trans ((congrArg List.flatten hcontents).trans hmarked)

theorem replicate_there
    (h : r.document.Shows (above ++ ⟨bid, left ++ o :: first⟩ :: (mid ++ ⟨bid', front ++ c :: rest⟩ :: below))) :
    ∃ (copies : List Paragraph) (part part' : NodeId) (r' : RunState), (do
        let area ← isolate o.id c.id
        area.replicate toolkit markers : Run (Option Continuation)).on r =
        (.ok (some (.toward ((copies ++ (Paragraph.part part' rest ++ below)).map Paragraph.id).head?)), r') ∧ r.Keeps r' ∧
      r'.document.Shows ((above ++ Paragraph.part part left) ++ (copies ++ (Paragraph.part part' rest ++ below))) ∧
      r.document.node? part' = none ∧ (∀ id ∈ copies.flatMap Paragraph.ids, r.document.node? id = none) ∧
      copies.map (fun b ↦ b.leaves.map Leaf.content) = markers.flatMap fun m ↦
        (.text (t.delimiters.marker m.opening) :: first.map Leaf.content) ::
          (mid.map (fun b ↦ b.leaves.map Leaf.content) ++
            [front.map Leaf.content ++ [.text (t.delimiters.marker m.closing)]]) := by
  obtain ⟨r₁, part, part', hisolate, hkeeps, hshows, _, hpart'⟩ := isolate_there h
  obtain ⟨oid, ocontent⟩ := o
  obtain ⟨cid, ccontent⟩ := c
  obtain rfl : ocontent = .text s := ho
  obtain rfl : ccontent = .text s' := hc
  obtain ⟨copies, r', hon, hkeeps', hshows', hnew, hcontents⟩ := replicate_on (R := .ofBlocks) Row.lawful_ofBlocks hshows
    oid cid htoolkit (show Row.ofBlocks.leaves ⟨bid, ⟨oid, .text s⟩ :: first⟩ = ⟨oid, .text s⟩ :: first from rfl)
    (show Row.ofBlocks.leaves ⟨bid', front ++ [⟨cid, .text s'⟩]⟩ = front ++ [⟨cid, .text s'⟩] from rfl) markers
  exact ⟨copies, part, part', r', (Run.on_bind_ok hisolate).trans hon, hkeeps.trans hkeeps', hshows', hpart',
    fun id hid ↦ hkeeps.grows.unknown (hnew id hid), hcontents⟩

end Isolation

end Area

end Stencil
