import Stencil.Proofs.Attempt
import Stencil.Proofs.Edits.Steps
/-!
Edits of a forest. The steps of an edit come to an end, with the outcome that the edit has as a
whole: a refusal leaves the document as it was, and what an edit makes of a forest is one again.
-/

namespace Stencil.Document

open Grove

variable {α β : Type} {d e : Document} {s : Steps α} {r : Except DocumentError (α × Document)} {a : α} {x : DocumentError}
  {id p : NodeId} {fs : List Frame} {f : Frame} {data : NodeData} {sub : Grove}

/-- On a document, steps have the outcome of an edit, which is refused without a trace or makes a
forest in which no node is lost. -/
structure Settles (d : Document) (s : Steps α) (r : Except DocumentError (α × Document)) : Prop where
  on : s.on d = some (match r with
    | .ok (a, e) => (.ok a, e)
    | .error x => (.error x, d))
  forest : ∀ a e, r = .ok (a, e) → e.Forest
  grows : ∀ a e, r = .ok (a, e) → Grows d e

namespace Settles

theorem ok (h : s.on d = some (.ok a, e)) (he : e.Forest) (hgrows : Grows d e) : d.Settles s (.ok (a, e)) := by
  refine ⟨h, ?_, ?_⟩ <;>
  · rintro _ _ ⟨⟩
    assumption

theorem error (h : s.on d = some (.error x, d)) : d.Settles s (.error x) := ⟨h, by simp, by simp⟩

theorem map (h : d.Settles s r) (f : α → β) : d.Settles (f <$> s) (r.map fun p ↦ (f p.1, p.2)) := by
  obtain ⟨on, forest, grows⟩ := h
  rw [map_eq_pure_bind]
  cases r with
  | error x => exact error (Steps.on_bind_error on)
  | ok p => exact ok (Steps.on_bind_ok on) (forest _ _ rfl) (grows _ _ rfl)

end Settles

/-! ### Nodes put below others -/

theorem checkInsertable_ok (h : d.checkInsertable p id = .ok ()) : d.node? p ≠ none ∧ d.node? id ≠ none ∧ id ≠ d.root ∧
    d.parent? id = none ∧ d.contains id p = false ∧ d.isText p = false := by
  rw [checkInsertable, check, check] at h
  cases hp : d.node? p with
  | none => simp [hp, bind, Except.bind] at h
  | some n =>
    cases hid : d.node? id with
    | none => simp [hp, hid, bind, Except.bind] at h
    | some m =>
      simp only [hp, hid, Option.isSome_some, if_true, bind, Except.bind] at h
      split_ifs at h with hroot hparent hcontains htext
      exact ⟨by simp, by simp, hroot, by simpa using hparent, by simpa using hcontains, by simpa using htext⟩

/-- What may be put below a node stands apart from its tree. -/
theorem Forest.insertable (hd : d.Forest) (h : d.checkInsertable p id = .ok ()) (hp : d.Stands (plug fs (.single p data sub))) :
    ∃ xdata xsub, d.Stands (.single id xdata xsub) ∧ id ∉ (plug fs (.single p data sub)).order ∧ ¬data.IsText := by
  obtain ⟨-, hid, -, horphan, hcontains, htext⟩ := checkInsertable_ok h
  obtain ⟨xsub, xdata, xfs, hx⟩ := hd.exists_place hid
  obtain rfl : xfs = [] := by
    have := hx.parent?
    rw [horphan] at this
    simpa using this.symm
  refine ⟨xdata, xsub, hx, fun hin ↦ ?_, fun ht ↦ ?_⟩
  · have htops := congrArg tops (hp.unique hx hin (by simp))
    rw [tops_plug, plug_nil, tops_single] at htops
    have hsummit := summit_mem fs p
    rw [(List.cons.inj htops).1, List.mem_cons] at hsummit
    rw [hp.contains_iff.2 (hsummit.imp_left Eq.symm)] at hcontains
    contradiction
  · obtain ⟨text, rfl⟩ := ht
    simp [isText, text?, hp.data?] at htext

theorem link_grows (d : Document) (p id : NodeId) (children : List NodeId) : Grows d (d.link p id children) :=
  (Grows.modify _ _ _).trans (Grows.modify _ _ _)

theorem Steps.on_link {n m : Node} {g : List NodeId → List NodeId} {children : List NodeId} (hp : d.node? p = some n)
    (hid : d.node? id = some m) (hne : id ≠ p) (hg : g n.children = children) :
    (do put id.index fun n ↦ { n with parent? := some p }
        put p.index fun n ↦ { n with children := g n.children } : Steps Unit).on d =
      some (.ok (), d.link p id children) := by
  have hp' : (d.modify id fun n ↦ { n with parent? := some p }).node? p = some n := by
    rw [node?_modify_of_ne hne.symm, hp]
  rw [on_bind_ok (on_put hid rfl)]
  exact on_put hp' (by rw [hg])

theorem Forest.settles_appendChild (hd : d.Forest) (p id : NodeId) :
    d.Settles (Steps.appendChild p id) ((d.appendChild p id).map ((), ·)) := by
  rw [Document.appendChild]
  cases hcheck : d.checkInsertable p id with
  | error x => exact .error (Steps.on_bind_error (by rw [Steps.on_look, hcheck]))
  | ok =>
    obtain ⟨hp, hid, hroot, -⟩ := checkInsertable_ok hcheck
    obtain ⟨sub, data, fs, hp⟩ := hd.exists_place hp
    obtain ⟨xdata, xsub, hx, hapart, helement⟩ := hd.insertable hcheck hp
    have hne : id ≠ p := fun heq ↦ hapart (mem_order_parts.2 (.inl heq))
    refine .ok ?_ ?_ (link_grows ..)
    · rw [Steps.appendChild, Steps.on_bind_ok (by rw [Steps.on_look, hcheck])]
      exact Steps.on_link (g := (· ++ [id])) hp.node? (holds_single.1 hx.holds).1 hne (by rw [hp.children])
    · rw [hp.children]
      have hp' : d.Stands (plug fs (.single p data (sub ++ bare))) := by rwa [append_bare]
      exact hd.link hp' hx (by rwa [append_bare]) helement hroot

/-! ### Nodes put beside others -/

theorem insertIdx_append {id : NodeId} (front back : List NodeId) : (front ++ back).insertIdx front.length id = front ++ id :: back := by
  induction front with
  | nil => rfl
  | cons c cs ih => simp [ih]

def Side.place : Side → NodeId → NodeId → List NodeId → List NodeId
  | .before => putBefore
  | .after => putBehind

theorem insert_eq (side : Side) (d : Document) (ref id : NodeId) : side.insert d ref id = d.insertBeside side.place ref id := by
  cases side <;> rfl

theorem Steps.on_insert {n m : Node} {ref : NodeId} {front back : List NodeId} (side : Side) (href : ref ∉ front)
    (hp : d.node? p = some n) (hid : d.node? id = some m) (hne : id ≠ p) (hchildren : n.children = front ++ ref :: back)
    (hcheck : d.check ref = .ok ()) (hparent : d.parent? ref = some p) (hinsertable : d.checkInsertable p id = .ok ()) :
    (insert side ref id).on d = some (.ok (), d.link p id (side.place ref id n.children)) := by
  have hindex : d.indexInParent? ref = some front.length := by
    rw [indexInParent?, hparent, Option.bind_some, children, hp]
    dsimp only [Option.map_some, Option.getD_some]
    rw [hchildren, findIdx?_append href]
  have hp' : (d.modify id fun n ↦ { n with parent? := some p }).node? p = some n := by
    rw [node?_modify_of_ne hne.symm, hp]
  have hat : ∀ offset, front.length + offset ≤ n.children.length →
      n.children.insertIdx (front.length + offset) id = side.place ref id n.children →
      (insertAt ref id offset).on d = some (.ok (), d.link p id (side.place ref id n.children)) := fun offset hwithin hplace ↦ by
    rw [insertAt, on_bind_ok (by rw [on_look, hcheck]), on_bind_ok (on_demand_some hparent),
      on_bind_ok (by rw [on_look, hinsertable]), on_bind_ok (on_demand_some hindex), on_bind_ok (on_put hid rfl),
      on_bind_ok (on_slot hp'), on_bind_ok (on_within hwithin)]
    exact on_put hp' (by rw [hplace])
  cases side with
  | before =>
    refine hat 0 (by simp [hchildren]) ?_
    rw [hchildren, Side.place, putBefore_append href, Nat.add_zero, insertIdx_append]
  | after =>
    refine hat 1 (by simp [hchildren]) ?_
    rw [hchildren, Side.place, putBehind_append href]
    simpa using insertIdx_append (front ++ [ref]) back

theorem Forest.settles_insert (hd : d.Forest) (side : Side) (ref id : NodeId) :
    d.Settles (Steps.insert side ref id) ((side.insert d ref id).map ((), ·)) := by
  -- a refusal comes before anything has changed
  have hrefused : ∀ x, side.insert d ref id = .error x → (∀ offset, (Steps.insertAt ref id offset).on d = some (.error x, d)) →
      d.Settles (Steps.insert side ref id) ((side.insert d ref id).map ((), ·)) := fun x hx h ↦ by
    rw [hx]
    exact .error (by cases side <;> exact h _)
  have hinsert : side.insert d ref id = _ := insert_eq side d ref id
  rw [insertBeside] at hinsert
  cases href : d.check ref with
  | error x =>
    exact hrefused x (by rw [hinsert, href]; rfl) fun _ ↦ Steps.on_bind_error (by rw [Steps.on_look, href])
  | ok =>
    have hread : ∀ offset, (Steps.insertAt ref id offset).on d = _ := fun offset ↦
      Steps.on_bind_ok (by rw [Steps.on_look, href])
    cases hparent : d.parent? ref with
    | none =>
      exact hrefused _ (by rw [hinsert, href, hparent]; rfl) fun offset ↦ by
        rw [hread, Steps.on_bind_error (Steps.on_demand_none hparent)]
    | some p =>
      cases hcheck : d.checkInsertable p id with
      | error x =>
        exact hrefused x (by rw [hinsert, href, hparent]; dsimp only; rw [hcheck]; rfl) fun offset ↦ by
          rw [hread, Steps.on_bind_ok (Steps.on_demand_some hparent), Steps.on_bind_error (by rw [Steps.on_look, hcheck])]
      | ok =>
        obtain ⟨sub, data, fs, hT⟩ := hd.exists_place (known_of_parent? hparent)
        obtain ⟨f, fs, rfl⟩ : ∃ f fs', fs = f :: fs' := by
          cases fs with
          | nil => simp [hT.parent?] at hparent
          | cons f fs => exact ⟨f, fs, rfl⟩
        obtain rfl : f.id = p := by simpa [hT.parent?] using hparent
        have hup : d.Stands (plug fs (.single f.id f.data (f.left ++ .single ref data sub ++ f.right))) := hT
        obtain ⟨xdata, xsub, hx, hapart, -⟩ := hd.insertable hcheck hup
        obtain ⟨-, hchildren, hleft⟩ := hT.siblings
        have hne : id ≠ f.id := fun heq ↦ hapart (mem_order_parts.2 (.inl heq))
        have hlink : side.insert d ref id = .ok (d.link f.id id (side.place ref id (d.children f.id))) := by
          rw [hinsert, href, hparent]
          dsimp only
          rw [hcheck]
          rfl
        obtain ⟨e, he, hforest, -⟩ := hup.insert hd (tops_single ..) hx hapart (checkInsertable_ok hcheck).2.2.1 side
        obtain rfl := Except.ok.inj (hlink.symm.trans he)
        rw [hlink]
        refine .ok ?_ hforest (link_grows ..)
        have hsiblings : f.left.tops ++ [ref] ++ f.right.tops = f.left.tops ++ ref :: f.right.tops := by simp
        have hon := Steps.on_insert side hleft hT.around.1 (holds_single.1 hx.holds).1 hne hsiblings href hparent hcheck
        rwa [hchildren, ← hsiblings]

/-! ### Nodes taken away -/

theorem known_of_check (h : d.check id = .ok ()) : d.node? id ≠ none := by
  rw [check] at h
  split at h
  · next hsome => simpa [Option.isSome_iff_ne_none] using hsome
  · contradiction

theorem Forest.settles_detach (hd : d.Forest) (id : NodeId) :
    d.Settles (Steps.detach id) ((d.detach id).map ((), ·)) := by
  rw [Document.detach]
  cases hcheck : d.check id with
  | error x => exact .error (Steps.on_bind_error (by rw [Steps.on_look, hcheck]))
  | ok =>
    have hread : (Steps.detach id).on d = _ := Steps.on_bind_ok (by rw [Steps.on_look, hcheck])
    rw [Steps.on_bind_ok (by rfl)] at hread
    by_cases hroot : id = d.root
    · rw [if_pos hroot] at hread ⊢
      exact .error hread
    rw [if_neg hroot] at hread
    obtain ⟨sub, data, fs, hT⟩ := hd.exists_place (known_of_check hcheck)
    rcases fs with _ | ⟨f, fs⟩
    · have hparent : d.parent? id = none := hT.parent?
      simp only [bind, Except.bind, hroot, if_false, hparent]
      exact .error (hread.trans (Steps.on_bind_error (Steps.on_demand_none hparent)))
    · obtain ⟨hparent, hchildren, -⟩ := hT.siblings
      have hne : id ≠ f.id := fun heq ↦ hT.notMem_chain (heq ▸ List.mem_cons_self ..)
      have hnodup := hd.wellFormed.distinct f.id
      rw [hchildren] at hnodup
      have hgrows : Grows d ((d.modify f.id fun n ↦ { n with children := n.children.filter (· ≠ id) }).modify id fun n ↦
        { n with parent? := none }) := (Grows.modify _ _ _).trans (Grows.modify _ _ _)
      simp only [bind, Except.bind, hroot, if_false, hparent]
      refine .ok ?_ (Forest.prune hT (fun other ↦ ?_) hd hgrows.serial) hgrows
      · have hnode : (d.modify f.id fun n ↦ { n with children := n.children.filter (· ≠ id) }).node? id =
          some ⟨data, some f.id, sub.tops⟩ := by rw [node?_modify_of_ne hne, hT.node?, chain_cons, List.head?_cons]
        rw [hread, Steps.on_bind_ok (Steps.on_demand_some hparent), Steps.on_bind_ok (Steps.on_put hT.around.1 rfl),
          Steps.on_put hnode rfl]
      · rw [node?_release hT.around.1 hT.node? hne, List.append_assoc, List.singleton_append, filter_append_ne hnodup]

/-! ### New nodes and new contents -/

theorem Forest.settles_create (hd : d.Forest) (data : NodeData) : d.Settles (Steps.create data) (.ok (d.create data)) :=
  .ok rfl (hd.create data) (Grows.create d data)

theorem Forest.settles_setText (hd : d.Forest) (id : NodeId) (s : String) :
    d.Settles (Steps.setText id s) ((d.setText id s).map ((), ·)) := by
  rw [Document.setText, check]
  cases hid : d.node? id with
  | none => exact .error (Steps.on_bind_error (Steps.on_demand_none hid))
  | some n =>
    have hread : (Steps.setText id s).on d = _ := Steps.on_bind_ok (Steps.on_demand_some hid)
    obtain ⟨sub, data, fs, hT⟩ := hd.exists_place (by rw [hid]; simp)
    obtain rfl := Option.some.inj (hid.symm.trans hT.node?)
    cases data with
    | element tag attrs =>
      have htext : d.isText id = false := by simp [isText, text?, data?, hid]
      simp only [Option.isSome_some, if_true, bind, Except.bind, htext, Bool.false_eq_true, if_false]
      exact .error hread
    | text old =>
      have htext : d.isText id = true := by simp [isText, text?, data?, hid]
      simp only [Option.isSome_some, if_true, bind, Except.bind, htext]
      refine .ok (hread.trans (Steps.on_put hid rfl)) ?_ (Grows.modify ..)
      refine hd.relabel (modify_serial ..) hT (fun _ : (NodeData.text s).IsText ↦ ⟨old, rfl⟩) fun other ↦ ?_
      rw [putText, node?_modify, hid]
      rfl

theorem Forest.settles_setAttr (hd : d.Forest) (id : NodeId) (name value : String) :
    d.Settles (Steps.setAttr id name value) (.ok ((), d.setAttr id name value)) := by
  have hread : (Steps.setAttr id name value).on d = _ := Steps.on_bind_ok (by rfl)
  cases hid : d.node? id with
  | none =>
    rw [hid] at hread
    rw [setAttr, modify_of_fixed (by simp [hid])]
    exact .ok hread hd (.refl d)
  | some n =>
    obtain ⟨sub, data, fs, hT⟩ := hd.exists_place (by rw [hid]; simp)
    obtain rfl := Option.some.inj (hid.symm.trans hT.node?)
    rw [hid] at hread
    cases data with
    | text s =>
      rw [setAttr, modify_of_fixed (by simp [hid])]
      exact .ok hread hd (.refl d)
    | element tag attrs =>
      refine .ok (hread.trans (Steps.on_put hid rfl)) ?_ (Grows.modify ..)
      refine hd.relabel (modify_serial ..) hT (fun ht : (NodeData.element tag (attrs.put name value)).IsText ↦ ?_) fun other ↦ ?_
      · obtain ⟨s, hs⟩ := ht
        contradiction
      · rw [setAttr, node?_modify, hid]
        rfl

/-! ### Copies -/

/-- A later state of a document in which the nodes there were are as they were. -/
structure Extends (d e : Document) : Prop where
  serial : e.serial = d.serial
  stay : ∀ id, d.node? id ≠ none → e.node? id = d.node? id

namespace Extends

theorem refl (d : Document) : Extends d d := ⟨rfl, fun _ _ ↦ rfl⟩

theorem trans {d e f : Document} (h : Extends d e) (k : Extends e f) : Extends d f :=
  ⟨k.serial.trans h.serial, fun id hid ↦ (k.stay id (by rwa [h.stay id hid])).trans (h.stay id hid)⟩

theorem grows {d e : Document} (h : Extends d e) : Grows d e := ⟨h.serial, fun id hid ↦ by rwa [h.stay id hid]⟩

theorem create (d : Document) (data : NodeData) : Extends d (d.create data).2 :=
  ⟨rfl, fun id hid ↦ by rw [node?_create, if_neg fun heq : id = d.fresh ↦ hid (heq ▸ node?_fresh d)]⟩

end Extends

def Finds (find : Document → NodeId → Option Node) (source d : Document) : Prop :=
  ∀ e, Extends d e → ∀ id, source.node? id ≠ none → find e id = source.node? id

theorem Steps.on_appendFresh {child : NodeId} (hp : d.node? p ≠ none) (hchild : d.node? child ≠ none) :
    (appendFresh p child).on d = some (.ok (), d.appendNew p child) := by
  obtain ⟨n, hn⟩ := Option.ne_none_iff_exists'.1 hp
  obtain ⟨m, hm⟩ := Option.ne_none_iff_exists'.1 hchild
  obtain ⟨k, hk⟩ := Option.ne_none_iff_exists'.1
    ((Grows.modify d child fun n ↦ { n with parent? := some p }).known p (by rw [hn]; simp))
  have hread : (appendFresh p child).on d = _ := on_bind_ok (by rfl)
  rw [hn, on_bind_ok (by rfl), hm] at hread
  exact hread.trans ((on_bind_ok (on_put hm rfl)).trans (on_put hk rfl))

/-- The steps of a copy, node by node: what is there stays, and the copy is new. -/
structure Steps.Copied (find : Document → NodeId → Option Node) (n : ℕ) (d e : Document) (id c : NodeId) : Prop where
  on : (Steps.copy find n id).on d = some (.ok c, e)
  fresh : c = d.fresh
  known : e.node? c ≠ none
  stay : Extends d e

section Copies

variable {find : Document → NodeId → Option Node} {source : Document} {n : ℕ}

theorem Steps.on_children {start : Document} {copied : NodeId} (hfind : Finds find source start) (hnew : start.node? copied = none)
    (ih : ∀ {d e : Document} {id c : NodeId}, copyFrom source n d id = .ok (c, e) → Finds find source d → Steps.Copied find n d e id c) :
    ∀ {ids : List NodeId} {d e : Document} {top : NodeId}, Extends start d → d.node? copied ≠ none →
      ids.foldlM (fun (p : NodeId × Document) child ↦ do
        let (c, e) ← copyFrom source n p.2 child
        .ok (copied, e.appendNew copied c)) (copied, d) = .ok (top, e) →
      (ids.forM fun child ↦ do appendFresh copied (← copy find n child)).on d = some (.ok (), e) ∧ top = copied ∧
        e.node? copied ≠ none ∧ Extends start e
  | [], d, e, top, hext, hknown, h => by
    obtain ⟨rfl, rfl⟩ := Prod.mk.inj (Except.ok.inj h)
    exact ⟨rfl, rfl, hknown, hext⟩
  | id :: ids, d, e, top, hext, hknown, h => by
    rw [List.foldlM_cons, except_bind_eq_ok] at h
    obtain ⟨p, hp, hrest⟩ := h
    obtain ⟨⟨c, m⟩, hcopy, hp⟩ := except_bind_eq_ok.1 hp
    obtain rfl := Except.ok.inj hp
    obtain ⟨hon, rfl, hc, hextc⟩ := ih hcopy fun e he ↦ hfind e (hext.trans he)
    have hcopied : m.node? copied ≠ none := hextc.grows.known copied hknown
    have happend : Extends start (m.appendNew copied d.fresh) := by
      refine ⟨by simp [appendNew, hextc.serial, hext.serial], fun x hx ↦ ?_⟩
      have hknownx : d.node? x ≠ none := hext.grows.known x hx
      have hxc : x ≠ copied := fun heq ↦ hx (heq ▸ hnew)
      have hxf : x ≠ d.fresh := fun heq ↦ hknownx (heq ▸ node?_fresh d)
      rw [appendNew, node?_modify_of_ne hxc, node?_modify_of_ne hxf, hextc.stay x hknownx, hext.stay x hx]
    obtain ⟨hons, htop, hknowns, hexts⟩ := on_children hfind hnew ih happend ((appendNew_grows ..).known copied hcopied) hrest
    refine ⟨?_, htop, hknowns, hexts⟩
    rw [List.forM, on_bind_ok (a := ()) ((on_bind_ok hon).trans (on_appendFresh hcopied hc))]
    exact hons

theorem Steps.on_copy : ∀ {n : ℕ} {d e : Document} {id c : NodeId}, copyFrom source n d id = .ok (c, e) → Finds find source d →
    Steps.Copied find n d e id c
  | 0, _, _, _, _, h, _ => by simp [copyFrom] at h
  | n + 1, d, e, id, c, h, hfind => by
    rw [copyFrom] at h
    cases hid : source.node? id with
    | none => simp [hid] at h
    | some node =>
      rw [hid] at h
      dsimp only at h
      rw [create_fst] at h
      obtain ⟨hon, rfl, hknown, hext⟩ := on_children hfind (node?_fresh d) on_copy (Extends.create d node.data)
        (by rw [node?_create, if_pos rfl]; simp) h
      refine ⟨?_, rfl, hknown, hext⟩
      have hfound : find d id = some node := by rw [hfind d (.refl d) id (by rw [hid]; simp), hid]
      rw [copy, on_bind_ok (on_demand_some hfound), on_bind_ok (on_create ..), on_bind_ok hon]
      rfl

/-- A copy of a node of a forest, which may be that of the copy. -/
theorem Forest.settles_copy (hd : d.Forest) (hsource : source.Forest) (hfind : Finds find source d)
    (hnone : source.node? id = none → find d id = none) :
    d.Settles (Steps.copy find (source.size + 1) id) (copyFrom source (source.size + 1) d id) := by
  cases hid : source.node? id with
  | none =>
    rw [copyFrom, hid]
    exact .error (Steps.on_bind_error (Steps.on_demand_none (hnone hid)))
  | some node =>
    obtain ⟨sub, data, fs, hT⟩ := hsource.exists_place (by rw [hid]; simp)
    obtain ⟨sub', e, hcopy, -, hforest, -, hgrows, -⟩ := hT.copyFrom (Nat.lt_succ_self _) hd
    rw [hcopy]
    exact .ok (Steps.on_copy hcopy hfind).on hforest hgrows

end Copies

/-! ### Divisions -/

section Division

variable {outer : List Frame} {x : NodeId} {xdata : NodeData} {c : Grove} (side : Side)

theorem Steps.span_eq (f : Frame) (id : NodeId) : span side f.left.tops.length (f.left.tops ++ id :: f.right.tops) =
    ((side.of f).tops, (side.clear f).left.tops ++ id :: (side.clear f).right.tops) := by
  cases side
  · simp [span, Side.of, Side.clear]
  · simp [span, Side.of, Side.clear, List.drop_append, List.take_append]

theorem Steps.on_moveOut {moved kept : List NodeId} {node : Node} {s : NodeId → Steps α} (hp : d.node? p = some node)
    (hknown : ∀ id ∈ moved, d.node? id ≠ none) :
    (do put p.index fun n ↦ { n with children := kept }
        let m ← slot p.index
        let shell ← create m.data
        moved.forM fun c ↦ put c.index fun n ↦ { n with parent? := some shell }
        put shell.index fun n ↦ { n with children := moved }
        s shell : Steps α).on d = (s (d.moveOut p moved kept).1).on (d.moveOut p moved kept).2 := by
  have hdata : (d.data? p).getD (.text "") = node.data := by simp [data?, hp]
  have hkept : (d.modify p fun n ↦ { n with children := kept }).node? p = some { node with children := kept } := by
    rw [node?_modify_self, hp]
    rfl
  have hgrows : Grows d ((d.modify p fun n ↦ { n with children := kept }).create node.data).2 :=
    (Grows.modify _ _ _).trans (Grows.create _ _)
  obtain ⟨m, hshell⟩ := Option.ne_none_iff_exists'.1 <| (foldl_modify_grows (f := fun n ↦
    { n with parent? := some (d.modify p fun n ↦ { n with children := kept }).fresh }) moved
      ((d.modify p fun n ↦ { n with children := kept }).create node.data).2).known
    (d.modify p fun n ↦ { n with children := kept }).fresh (by rw [node?_create, if_pos rfl]; simp)
  rw [on_bind_ok (on_put hp rfl), on_bind_ok (on_slot hkept), on_bind_ok (on_create ..),
    on_bind_ok (on_forM_put fun id hid ↦ hgrows.known id (hknown id hid)), on_bind_ok (on_put hshell rfl), moveOut, hdata]
  rfl

theorem Carries.on_step {n : ℕ} (h : d.Carries (f :: fs) x xdata sub c) (top : NodeId) (hne : x ≠ top) :
    (Steps.carry side top (n + 1) x c.tops.head?).on d =
      match (side.lay (side.of f) c).tops with
      | [] => (Steps.carry side top n f.id none).on d
      | moved =>
        let (shell, d) := d.moveOut f.id moved ((side.clear f).left.tops ++ x :: (side.clear f).right.tops)
        (Steps.carry side top n f.id (some shell)).on d := by
  have hT := h.stands
  have hindex := hT.indexInParent?
  have hchildren : f.left.tops ++ [x] ++ f.right.tops = f.left.tops ++ x :: f.right.tops := by simp
  have hnode := hT.around.1
  rw [tops_lay]
  rw [hchildren] at hnode
  have hwithin : f.left.tops.length < (f.left.tops ++ x :: f.right.tops).length := by simp
  rw [Steps.carry, if_neg hne, Steps.on_bind_ok (Steps.on_demand_some hT.parent?),
    Steps.on_bind_ok (Steps.on_demand_some hindex), Steps.on_bind_ok (Steps.on_slot hnode),
    Steps.on_bind_ok (Steps.on_within hwithin), Steps.span_eq]
  dsimp only
  rw [gather_eq, toList_tops h.carried]
  cases hmoved : side.lay (side.of f).tops c.tops with
  | nil =>
    -- nothing moves, and all the children are kept
    obtain ⟨hof, hc⟩ := lay_eq_nil.1 hmoved
    have hsame : d.modify f.id (fun n ↦ { n with children := (side.clear f).left.tops ++ x :: (side.clear f).right.tops }) = d :=
      modify_of_fixed fun n hn ↦ by
        obtain rfl := Option.some.inj (hnode.symm.trans hn)
        rw [clear_of_bare (eq_bare_of_tops hof)]
    rw [Steps.on_bind_ok (Steps.on_put hnode rfl), hsame, hc]
    rfl
  | cons m ms =>
    have hknown : ∀ id ∈ side.lay (side.of f).tops c.tops, d.node? id ≠ none := fun id hid ↦ by
      rcases mem_lay.1 hid with hin | hin
      · have hof : d.Holds (some f.id) (side.of f) := by
          cases side
          · exact hT.around.2.1
          · exact hT.around.2.2.1
        exact hof.known id ((side.of f).tops_sublist.subset hin)
      · rcases h.carried with rfl | hc
        · simp at hin
        · exact hc.holds.known id (c.tops_sublist.subset hin)
    dsimp only
    rw [← hmoved]
    exact Steps.on_moveOut hnode hknown

/-- The steps of a division have its outcome. -/
theorem Carries.on_carry : ∀ {fs : List Frame} {d : Document} {n m : ℕ} {x : NodeId} {xdata : NodeData} {sub c : Grove},
    d.Carries (fs ++ outer) x xdata sub c → fs.length < n → fs.length ≤ m →
      (Steps.carry side (summit fs x) n x c.tops.head?).on d =
        some (.ok (carry side (summit fs x) m d x c.tops.head?).1, (carry side (summit fs x) m d x c.tops.head?).2)
  | [], d, n, m, x, xdata, sub, c, h, hn, _ => by
    obtain ⟨n, rfl⟩ : ∃ k, n = k + 1 := ⟨n - 1, by omega⟩
    rw [show summit [] x = x from rfl, carry_top, Steps.carry, if_pos rfl, Steps.on_pure]
  | f :: fs, d, n, m, x, xdata, sub, c, h, hn, hm => by
    simp only [List.length_cons] at hn hm
    obtain ⟨n, rfl⟩ : ∃ k, n = k + 1 := ⟨n - 1, by omega⟩
    obtain ⟨m, rfl⟩ : ∃ k, m = k + 1 := ⟨m - 1, by omega⟩
    have h' : d.Carries (f :: (fs ++ outer)) x xdata sub c := h
    rw [h'.step side _ (ne_summit h.stands), h'.on_step side _ (ne_summit h.stands), summit_cons]
    by_cases hnone : side.lay (side.of f) c = bare
    · obtain ⟨-, hcbare⟩ := lay_eq_nil.1 ((tops_lay side (side.of f) c).symm.trans (by rw [hnone, tops_bare]))
      obtain rfl : c = bare := eq_bare_of_tops hcbare
      rw [hnone]
      exact h'.pass.on_carry (by omega) (by omega)
    · obtain ⟨d', hmove, hnext, -⟩ := h'.move side
      obtain ⟨m, ms, hms⟩ : ∃ m ms, (side.lay (side.of f) c).tops = m :: ms :=
        List.exists_cons_of_ne_nil fun heq ↦ hnone (eq_bare_of_tops heq)
      rw [hms]
      dsimp only
      rw [← hms, tops_lay, hmove]
      exact hnext.on_carry (by omega) (by omega)

/-- A node has a child above another only if it is above that one. -/
theorem Stands.exists_above (h : d.Stands (plug fs (.single x xdata sub))) {y : NodeId} (hy : d.ancestorChild? p x = some y) :
    ∃ inner outer f, fs = inner ++ f :: outer ∧ f.id = p := by
  have hparent : d.parent? y = some p := by simpa using List.find?_some hy
  have hmem := List.mem_of_find?_eq_some hy
  rw [h.ancestors, List.mem_cons] at hmem
  have hin : p ∈ chain fs := by
    rcases hmem with rfl | hmem
    · rw [h.parent?] at hparent
      exact List.mem_of_mem_head? hparent
    · obtain ⟨f, hf, rfl⟩ := List.mem_map.1 hmem
      obtain ⟨inner, outer, rfl⟩ := List.append_of_mem hf
      rw [plug_append] at h
      have hup : d.Stands (plug outer (.single f.id f.data (f.left ++ plug inner (.single x xdata sub) ++ f.right))) := h
      rw [hup.parent?] at hparent
      rw [chain, List.map_append, List.map_cons]
      exact List.mem_append_right _ (List.mem_cons_of_mem _ (List.mem_of_mem_head? hparent))
  obtain ⟨f, hf, rfl⟩ := List.mem_map.1 hin
  obtain ⟨inner, outer, rfl⟩ := List.append_of_mem hf
  exact ⟨inner, outer, f, rfl, rfl⟩

theorem Forest.settles_splitOff (hd : d.Forest) (ancestor id : NodeId) :
    d.Settles (Steps.splitOff ancestor id side) (d.splitOff ancestor id side) := by
  cases hancestor : d.check ancestor with
  | error x =>
    rw [Document.splitOff, hancestor]
    exact .error (Steps.on_bind_error (by rw [Steps.on_look, hancestor]))
  | ok =>
  cases hid : d.check id with
  | error x =>
    rw [Document.splitOff, hancestor, hid]
    exact .error ((Steps.on_bind_ok (by rw [Steps.on_look, hancestor])).trans (Steps.on_bind_error (by rw [Steps.on_look, hid])))
  | ok =>
  have hread : (Steps.splitOff ancestor id side).on d = _ := Steps.on_bind_ok (by rw [Steps.on_look, hancestor])
  rw [Steps.on_bind_ok (by rw [Steps.on_look, hid])] at hread
  cases hchild : d.ancestorChild? ancestor id with
  | none =>
    rw [Document.splitOff, hancestor, hid, hchild]
    exact .error (hread.trans (Steps.on_bind_error (Steps.on_demand_none hchild)))
  | some top =>
    rw [Steps.on_bind_ok (Steps.on_demand_some hchild), Steps.on_bind_ok (by rfl)] at hread
    obtain ⟨sub, data, fs, hT⟩ := hd.exists_place (known_of_check hid)
    obtain ⟨inner, outer, f, rfl, rfl⟩ := hT.exists_above hchild
    obtain rfl : summit inner id = top := Option.some.inj (hT.ancestorChild?.symm.trans hchild)
    have hinner : inner.length < d.size := by
      have := hT.length_frames
      simp only [List.length_append] at this
      omega
    obtain ⟨q, e, hq, -, hforest, -, hgrows, -⟩ := hT.splitOff side hd
    obtain ⟨p, m, hcarried, hdiv⟩ : ∃ p m, carry side (summit inner id) d.size d id none = (p.tops.head?, m) ∧
        Divides side d m inner (f :: outer) (.single id data sub) bare p := (Carries.ofPlace hd hT).divides hinner.le
    have hcarry : (Steps.carry side (summit inner id) (d.size + 1) id none).on d = some (.ok p.tops.head?, m) := by
      have := (Carries.ofPlace hd hT).on_carry side (Nat.lt_succ_of_lt hinner) hinner.le
      rwa [tops_bare, List.head?_nil, hcarried] at this
    rw [Steps.on_bind_ok hcarry] at hread
    rw [Document.splitOff, hancestor, hid, hchild] at hq ⊢
    simp only [bind, Except.bind, hcarried] at hq ⊢
    cases hp : p.tops.head? with
    | none =>
      rw [hp] at hread
      exact .ok hread hdiv.forest hdiv.grows
    | some part =>
      rw [hp] at hq hread
      -- the insertion succeeds, since the whole does
      have hinsert := hdiv.forest.settles_insert side (summit inner id) part
      cases hside : side.insert m (summit inner id) part with
      | error x => cases side <;> simp only [Side.insert] at hside <;> simp [hside] at hq
      | ok e' =>
        rw [hside] at hinsert
        have hon := hread.trans (Steps.on_bind_ok hinsert.on)
        have hedit := Settles.ok hon (hinsert.forest _ _ rfl) (hdiv.grows.trans (hinsert.grows _ _ rfl))
        cases side <;> simp only [Side.insert] at hside <;> simpa [hside] using hedit

end Division

/-! ### Nodes replaced -/

theorem insertBeside_eq_ok {place : NodeId → NodeId → List NodeId → List NodeId} {ref : NodeId}
    (h : d.insertBeside place ref id = .ok e) :
    ∃ p, d.parent? ref = some p ∧ d.checkInsertable p id = .ok () ∧ e = d.link p id (place ref id (d.children p)) := by
  rw [insertBeside, except_bind_eq_ok] at h
  obtain ⟨-, -, h⟩ := h
  cases hparent : d.parent? ref with
  | none => simp [hparent] at h
  | some p =>
    rw [hparent] at h
    obtain ⟨⟨⟩, hcheck, h⟩ := except_bind_eq_ok.1 h
    exact ⟨p, rfl, hcheck, (Except.ok.inj h).symm⟩

theorem Forest.detach_inserted (hd : d.Forest) {old new : NodeId} (h : d.insertBefore old new = .ok e) :
    ∃ e', e.detach old = .ok e' := by
  obtain ⟨p, hparent, hcheck, rfl⟩ := insertBeside_eq_ok h
  obtain ⟨n, hn⟩ := Option.ne_none_iff_exists'.1 (known_of_parent? hparent)
  have hp : n.parent? = some p := (parent?_of_node hn).symm.trans hparent
  have hroot : old ≠ d.root := fun heq ↦ by
    rw [heq, hd.wellFormed.topmost] at hparent
    contradiction
  have hnew : old ≠ new := fun heq ↦ by
    rw [heq, (checkInsertable_ok hcheck).2.2.2.1] at hparent
    contradiction
  -- its parent is still what it was
  obtain ⟨m, hm, hmp⟩ : ∃ m, (d.link p new (putBefore old new (d.children p))).node? old = some m ∧ m.parent? = some p := by
    rw [Document.link, node?_modify]
    split
    · next heq =>
      subst heq
      rw [node?_modify_of_ne hnew, hn]
      exact ⟨_, rfl, hp⟩
    · rw [node?_modify_of_ne hnew]
      exact ⟨n, hn, hp⟩
  have hroot' : old ≠ (d.link p new (putBefore old new (d.children p))).root := by simpa [Document.link] using hroot
  simp [Document.detach, check_ok hm, hroot', parent?_of_node hm, hmp, bind, Except.bind]

theorem Forest.settles_replace (hd : d.Forest) (old new : NodeId) :
    d.Settles (Steps.replace old new) ((d.replace old new).map ((), ·)) := by
  have hinsert := hd.settles_insert .before old new
  rw [Document.replace]
  cases hside : d.insertBefore old new with
  | error x =>
    rw [Side.insert, hside] at hinsert
    exact .error (Steps.on_bind_error hinsert.on)
  | ok e =>
    rw [Side.insert, hside] at hinsert
    have hdetach := (hinsert.forest _ _ rfl).settles_detach old
    obtain ⟨e', hcut⟩ := hd.detach_inserted hside
    rw [hcut] at hdetach
    change d.Settles _ ((e.detach old).map ((), ·))
    rw [hcut]
    exact .ok ((Steps.on_bind_ok hinsert.on).trans hdetach.on) (hdetach.forest _ _ rfl)
      ((hinsert.grows _ _ rfl).trans (hdetach.grows _ _ rfl))

end Stencil.Document
