import Stencil.Proofs.Command.Merge
import Stencil.Proofs.Sheet.Scan
import Stencil.Proofs.Entries
/-!
What a command comes to at a slot. A deed is done at the marker alone; together with the commands that
open blocks this covers every command that has a counterpart on sheets. A manual tells of the deeds of the
commands that every renderer knows.
-/

namespace Stencil

variable {t : Delimiters} {s s' : Slot} {r r' r₁ : RunState} {p : Placeholder} {c : Selection} {payload : List Char}

namespace Slot

theorem Stands.of_idles (h : r.Idles r₁) (k : s.Stands t s' r₁ r') : s.Stands t s' r r' :=
  ⟨h.toLeads.trans k.leads, k.page, k.above, k.bid, k.left, k.mark, h.document ▸ k.right, h.document ▸ k.below⟩

theorem Comes.of_idles {result : Except RunError Outcome} {upshot? : Option (Except RunError Upshot)} (h : r.Idles r₁)
    (k : s.Comes t p r₁ r' result upshot?) : s.Comes t p r r' result upshot? := by
  have hdoc := h.document
  cases k with
  | failed hstands => exact .failed (hstands.of_idles h)
  | ignored hstands => exact .ignored (hstands.of_idles h)
  | consumed hidles => exact .consumed (h.trans hidles)
  | moved hleads hpage hnext honward => exact .moved (h.toLeads.trans hleads) hpage hnext (hdoc ▸ honward)
  | strayed hleads hpage hnext honward => exact .strayed (h.toLeads.trans hleads) hpage hnext (hdoc ▸ honward)
  | merged hgrows hreport hlog hmerges hpage hnext honward =>
    obtain ⟨new, hnew, _⟩ := h.log
    exact .merged (hdoc ▸ hgrows) (hreport.trans h.report) (by rw [hlog, hnew, List.append_assoc])
      (List.mem_append_left _ hmerges) hpage hnext (hdoc ▸ honward)

theorem onward_passed {d : Document} {l : Leaf} (h : l.id = s.mark.id ∨ d.node? l.id = none) :
    s.Onward d [] (s.passed l) := by
  refine .intro (fun id hid ↦ .inl hid) fun x hx ↦ ?_
  rw [passed, Galley.behind, ← List.append_assoc] at hx
  rcases List.mem_append.1 hx with hx | hx
  · exact .inl hx
  · obtain rfl := List.mem_singleton.1 hx
    exact .inr (h.imp_right .inr)

theorem write_on (h : r.document.Shows s.page) (hp : s.Meets p) (hc : s.Hosts t c payload) (text : String) :
    ∃ r', (c.write text).on r = (.ok (.executed .proceed), r') ∧ s.Reaches t p r r' .proceed (s.passed ⟨s.mark.id, .text text⟩) := by
  have h' : r.document.Shows
      (s.above ++ ⟨s.bid, s.left ++ ⟨s.mark.id, .text (String.ofList (t.enclose payload))⟩ :: s.right⟩ :: s.below) := by
    rw [← hc.content]
    exact h
  obtain ⟨e, he, hshows, hgrows⟩ := h'.setText text
  have htext : r.document.isText s.mark.id = true := by
    rw [Document.isText, h'.text?_leaf (l := ⟨s.mark.id, .text (String.ofList (t.enclose payload))⟩)
      (List.mem_append_right _ (List.mem_cons_self ..)) (by simp)]
    rfl
  let s₂ : Slot := ⟨s.above, s.bid, s.left, ⟨s.mark.id, .text text⟩, s.right, s.below⟩
  refine ⟨{ r with document := e }, ?_, RunState.keeps_document hgrows, by simpa [passed, Galley.page] using hshows, ?_,
    onward_passed (.inl rfl)⟩
  · have hreplace : (c.replaceWithText text).on r = (.ok (some .proceed), { r with document := e }) := by
      rw [Selection.replaceWithText, hc.toolkit, if_neg (by simp), Run.on_bind_ok (Run.on_document r), hc.node,
        if_pos htext, Run.on_bind_ok (Run.on_edit he), Run.on_pure]
    rw [Selection.write, Run.on_bind_ok hreplace, Run.on_pure]
    rfl
  · exact Slot.resumption_proceed (s := s₂) hshows hp.node

theorem remove_on (h : r.document.Shows s.page) (hc : s.Hosts t c payload) :
    ∃ r', c.remove.on r = (.ok (.executed (.toward s.removed.next?)), r') ∧
      s.Reaches t p r r' (.toward s.removed.next?) s.removed := by
  obtain ⟨r', hon, hkeeps, hshows, _⟩ := s.removed_on h
  refine ⟨r', ?_, .of_keeps hkeeps hshows (.intro (fun id hid ↦ .inl (s.ahead_removed id hid))
    fun l hl ↦ .inl (s.behind_removed l hl))⟩
  have hdelete : c.deletePlaceholder.on r = (.ok (some (.toward s.removed.next?)), r') := by
    rw [Selection.deletePlaceholder, hc.toolkit]
    dsimp only
    rw [hc.node, Run.on_bind_ok hon, Run.on_pure]
  rw [Selection.remove, Run.on_bind_ok hdelete, Run.on_pure]
  rfl

theorem insert_on (h : r.document.Shows s.page) (hc : s.Hosts t c payload) (image : Image) :
    ∃ next r', (c.perform (.insert image)).on r = (.ok (.executed next), r') ∧
      s.Reaches t p r r' next (s.passed ⟨r.document.fresh, .image image.attrs⟩) := by
  obtain ⟨e, he, hshows, hgrows⟩ := Document.Shows.insertImage h image
  have hpage : (s.passed ⟨r.document.fresh, .image image.attrs⟩).page =
      s.above ++ ⟨s.bid, s.left ++ ⟨r.document.fresh, .image image.attrs⟩ :: s.right⟩ :: s.below := by
    simp [passed, Galley.page]
  have hnext : e.nextAfter? r.document.fresh = (s.passed ⟨r.document.fresh, .image image.attrs⟩).next? :=
    hshows.nextAfter?_leaf (l := ⟨r.document.fresh, .image image.attrs⟩)
  refine ⟨.toward (s.passed ⟨r.document.fresh, .image image.attrs⟩).next?, { r with document := e }, ?_,
    .of_keeps (RunState.keeps_document hgrows) (by rw [hpage]; exact hshows)
      (onward_passed (.inr (Document.node?_fresh _)))⟩
  have hedit : (Run.editFor fun d ↦ d.insertImage c.node image).on r = (.ok r.document.fresh, { r with document := e }) :=
    Run.on_editFor (by rw [hc.node]; exact he)
  rw [Selection.perform, Run.on_bind_ok hedit, Run.on_bind_ok (Run.on_document _), Run.on_pure,
    Continuation.ofNode_behind, hnext]

theorem perform_on (h : r.document.Shows s.page) (hp : s.Meets p) (hc : s.Hosts t c payload) (deed : Deed) :
    s.Answers t p r (c.perform deed) (some (.ok ((s.gap t payload).perform t deed), r.desk)) := by
  cases deed with
  | leave => exact ⟨_, _, r, rfl, .ignored (.refl h), fun _ a ha ↦ by rw [← Option.some.inj ha]; exact ⟨rfl, rfl⟩⟩
  | consume => exact ⟨_, _, r, rfl, .consumed (.refl r), fun _ a ha ↦ by rw [← Option.some.inj ha]; exact ⟨rfl, rfl⟩⟩
  | write text =>
    obtain ⟨r', hon, hreaches⟩ := write_on h hp hc text
    exact .of_reaches hon hreaches fun _ ↦ by rw [sheet_passed s payload]; rfl
  | remove =>
    obtain ⟨r', hon, hreaches⟩ := remove_on (p := p) h hc
    exact .of_reaches hon hreaches fun ht ↦ by rw [sheet_removed ht s payload]; rfl
  | insert image =>
    obtain ⟨next, r', hon, hreaches⟩ := insert_on (p := p) h hc image
    exact .of_reaches hon hreaches fun _ ↦ by rw [sheet_passed s payload]; rfl
  | merge text bounds => exact merge_on h hc text bounds

/-- A step that comes to a deed of the desk's choice does on the sheet what the deed does. -/
theorem acts_on {x : Run Outcome} {f : Desk → Except RunError Deed × Desk} (h : r.document.Shows s.page) (hp : s.Meets p)
    (hc : s.Hosts t c payload) (hx : c.Acts x f) :
    s.Answers t p r x (some ((f r.desk).1.map ((s.gap t payload).perform t), (f r.desk).2)) := by
  obtain ⟨r₁, hidles, hdesk, hon⟩ := hx r
  cases hf : (f r.desk).1 with
  | error e =>
    rw [hf] at hon
    have hshows : r₁.document.Shows s.page := hidles.document ▸ h
    refine ⟨.error e, some (.error e), r₁, hon, .failed ((Stands.refl hshows).of_idles hidles), fun _ a ha ↦ ?_⟩
    rw [← Option.some.inj ha]
    exact ⟨rfl, hdesk⟩
  | ok deed =>
    rw [hf] at hon
    obtain ⟨result, upshot?, r', hon', hcomes, hexact⟩ := perform_on (hidles.document ▸ h) hp hc deed
    refine ⟨result, upshot?, r', hon.trans hon', hcomes.of_idles hidles, fun ht a ha ↦ ?_⟩
    obtain ⟨hupshot, hdesk'⟩ := hexact ht _ rfl
    rw [← Option.some.inj ha]
    exact ⟨hupshot, hdesk'.trans hdesk⟩

end Slot

/-! ### Commands that every renderer knows -/

namespace Registry

def Orderly (hs : List Handler) (r : Registry) : Prop := ∀ e ∈ r.handlers, e.2 ∈ hs ∧ e.1 ∈ e.2.names

theorem Orderly.register {hs : List Handler} {r : Registry} {h : Handler} (hr : r.Orderly hs) (hin : h ∈ hs) :
    (r.register h).Orderly hs := by
  have hput : ∀ (names : List String) (es : Entries Handler), names ⊆ h.names → Orderly hs ⟨es⟩ →
      Orderly hs ⟨names.foldl (fun es name ↦ es.put name h) es⟩ := fun names ↦ by
    induction names with
    | nil => exact fun es _ hes ↦ hes
    | cons name names ih =>
      intro es hsub hes
      refine ih _ (fun x hx ↦ hsub (List.mem_cons_of_mem _ hx)) fun e he ↦ ?_
      rcases Entries.mem_put he with rfl | he
      · exact ⟨hin, hsub (List.mem_cons_self ..)⟩
      · exact hes e he
  exact hput h.names r.handlers (List.Subset.refl _) hr

theorem orderly_ofList (hs : List Handler) : (ofList hs).Orderly hs := by
  have hfold : ∀ (l : List Handler) (r : Registry), l ⊆ hs → r.Orderly hs → (l.foldl register r).Orderly hs := fun l ↦ by
    induction l with
    | nil => exact fun r _ hr ↦ hr
    | cons h l ih =>
      exact fun r hsub hr ↦ ih _ (fun x hx ↦ hsub (List.mem_cons_of_mem _ hx)) (hr.register (hsub (List.mem_cons_self ..)))
  exact hfold hs empty (List.Subset.refl _) (by simp [Orderly, empty])

theorem mem_of_get? {hs : List Handler} {name : String} {h : Handler} (hget : (ofList hs).get? name = some h) :
    h ∈ hs ∧ name ∈ h.names := orderly_ofList hs _ (Entries.mem_of_get? hget)

end Registry

namespace Handler

theorem local_builtin {name : String} {h : Handler} (hget : Registry.builtin.get? name = some h)
    (hclone : name ≠ "Clone") (halias : name ≠ "Alias") (himport : name ≠ "Import") (hopen : name ∉ Manual.openers) : h.Local := by
  obtain ⟨hin, hname⟩ := Registry.mem_of_get? hget
  simp only [builtins, List.mem_cons, List.not_mem_nil, or_false] at hin
  rcases hin with rfl | rfl | rfl | rfl | rfl | rfl | rfl | rfl | rfl | rfl | rfl | rfl | rfl | rfl | rfl | rfl | rfl | rfl | rfl
  · exact local_insertion
  · exact absurd (List.mem_singleton.1 hname ▸ by simp [Manual.openers]) hopen
  · exact absurd (List.mem_singleton.1 hname ▸ by simp [Manual.openers]) hopen
  · exact local_closing
  · exact local_push
  · exact local_pop
  · exact local_cursor
  · exact absurd (List.mem_singleton.1 hname) himport
  · exact local_picture
  · exact local_joined
  · exact local_moment _ _
  · exact local_moment _ _
  · exact local_number
  · exact local_counter
  · exact local_concatenation
  · exact local_calculation
  · exact absurd (List.mem_singleton.1 hname ▸ by simp [Manual.openers]) hopen
  · exact absurd (List.mem_singleton.1 hname) halias
  · exact absurd (List.mem_singleton.1 hname) hclone

/-- Every command without a block comes to a deed, apart from the one that copies an element. But for the one
that defines an alias, none of them feels what is kept of resources; but for the one that merges, none of them
brings blocks in. -/
theorem performs_builtin {name : String} {h : Handler} (hget : Registry.builtin.get? name = some h)
    (hclone : name ≠ "Clone") (hopen : name ∉ Manual.openers) (s : Selection) :
    ∃ f, (name ≠ "Alias" → Desk.Fairly s.provider f) ∧ (name ≠ "Import" → ∀ k deed, (f k).1 = .ok deed → deed.merges = false) ∧
      ∀ id t, (s.placed id t).Acts (h.execute (s.placed id t)) f := by
  by_cases halias : name = "Alias"
  · subst halias
    obtain rfl : definition = h := Option.some.inj hget
    refine ⟨defined s.command, fun hne ↦ absurd rfl hne, fun _ k deed hdeed ↦ ?_, fun id t ↦ definition_acts (s.placed id t)⟩
    rw [defined] at hdeed
    split at hdeed
    · rw [← Except.ok.inj hdeed]
      rfl
    · cases hdeed
  by_cases himport : name = "Import"
  · subst himport
    obtain rfl : fragment = h := Option.some.inj hget
    exact ⟨(mergeDeed s).told, fun _ ↦ steady_mergeDeed.fair.told, fun hne ↦ absurd rfl hne, fragment_acts s⟩
  · obtain ⟨f, hfair, hmerges, hf⟩ := local_builtin hget hclone halias himport hopen s
    exact ⟨f, fun _ ↦ hfair, fun _ ↦ hmerges, hf⟩

end Handler

namespace Scanner

variable {s : Scanner}

/-- A manual that tells what the commands without a block come to, apart from those that it leaves out. -/
structure Follows (s : Scanner) (m : Manual) : Prop where
  clone : "Clone" ∈ m.omits
  acts : ∀ (c : Command) (h : Handler), s.registry.get? c.name = some h → c.name ∉ m.omits → c.name ∉ Manual.openers →
    ∀ p, (s.selection p c).Acts (h.execute (s.selection p c)) (m.tells c)

/-- There is a manual of the commands that every renderer knows. But for those that define aliases, what it
tells is the same whatever is kept of resources; but for those that merge, it tells of no blocks brought in. -/
theorem exists_tells (hs : s.registry = .builtin) {omits : List String} (hclone : "Clone" ∈ omits) :
    ∃ m, s.Follows m ∧ m.omits = omits ∧ (∀ c : Command, c.name ≠ "Alias" → Desk.Fairly s.provider (m.tells c)) ∧
      ∀ c : Command, c.name ≠ "Import" → ∀ k deed, (m.tells c k).1 = .ok deed → deed.merges = false := by
  have hacts : ∀ c : Command, ∃ f, (c.name ≠ "Alias" → Desk.Fairly s.provider f) ∧
      (c.name ≠ "Import" → ∀ k deed, (f k).1 = .ok deed → deed.merges = false) ∧ ∀ h, s.registry.get? c.name = some h →
      c.name ∉ omits → c.name ∉ Manual.openers → ∀ p, (s.selection p c).Acts (h.execute (s.selection p c)) f := fun c ↦ by
    by_cases hknown : ∃ h, s.registry.get? c.name = some h ∧ c.name ∉ omits ∧ c.name ∉ Manual.openers
    · obtain ⟨h, hget, homit, hopen⟩ := hknown
      have hbuiltin : Registry.builtin.get? c.name = some h := hs ▸ hget
      have hname : c.name ≠ "Clone" := fun hname ↦ homit (hname ▸ hclone)
      obtain ⟨f, hfair, hmerges, hf⟩ := Handler.performs_builtin hbuiltin hname hopen ⟨⟨0, 0⟩, c, none, s.provider, s.now⟩
      refine ⟨f, hfair, hmerges, fun h' hget' _ _ p ↦ ?_⟩
      obtain rfl : h = h' := Option.some.inj (hget.symm.trans hget')
      exact hf p.node s.toolkit
    · exact ⟨fun k ↦ (.ok .leave, k), fun _ _ _ h ↦ ⟨rfl, h, rfl⟩, fun _ _ _ h ↦ Except.ok.inj h ▸ rfl,
        fun h hget homit hopen ↦ absurd ⟨h, hget, homit, hopen⟩ hknown⟩
  choose f hfair hmerges hf using hacts
  exact ⟨⟨omits, f⟩, ⟨hclone, hf⟩, rfl, hfair, hmerges⟩

theorem exists_follows (hs : s.registry = .builtin) {omits : List String} (hclone : "Clone" ∈ omits) :
    ∃ m, s.Follows m ∧ m.omits = omits ∧ ∀ c : Command, c.name ≠ "Alias" → Desk.Fairly s.provider (m.tells c) := by
  obtain ⟨m, hm, homits, hfair, -⟩ := exists_tells hs hclone
  exact ⟨m, hm, homits, hfair⟩

theorem Follows.tell {m : Manual} {name : String} {f : Command → Desk → Except RunError Deed × Desk} {h : Handler} (hm : s.Follows m)
    (hget : s.registry.get? name = some h)
    (hf : ∀ (c : Command) (p : Placeholder), (s.selection p c).Acts (h.execute (s.selection p c)) (f c)) : s.Follows (m.tell name f) := by
  refine ⟨hm.clone, fun c h' hget' homit hopen p ↦ ?_⟩
  rw [Manual.tell]
  dsimp only
  split
  · next hname =>
    obtain rfl : h = h' := Option.some.inj (hget.symm.trans (hname ▸ hget'))
    exact hf c p
  · exact hm.acts c h' hget' homit hopen p

end Scanner

end Stencil
