import Stencil.Proofs.Run.Search
/-!
The page of a text: a block for each line, which holds the line as its only leaf.
-/

namespace Stencil

def Paragraph.contents (b : Paragraph) : List Content := b.leaves.map Leaf.content

namespace Document

variable {d : Document} {page : List Paragraph}

theorem appendNew_eq_link {parent child : NodeId} {n : Node} (hn : d.node? parent = some n) (hne : child ≠ parent) :
    d.appendNew parent child = d.link parent child (n.children ++ [child]) := by
  refine modify_congr fun m hm ↦ ?_
  rw [node?_modify_of_ne hne.symm, hn] at hm
  rw [Option.some.inj hm]

/-- A block of one line, in nodes that come next in the arena. -/
def lineBlock (d : Document) (line : List Char) : Paragraph :=
  ⟨d.fresh, [⟨(d.create (.element paragraphTag [])).2.fresh, .text (String.ofList line)⟩]⟩

theorem Shows.addParagraph (h : d.Shows page) (line : List Char) :
    (d.addParagraph line).Shows (page ++ [d.lineBlock line]) := by
  let d₁ := (d.create (.element paragraphTag [])).2
  let d₂ := (d₁.create (.text (String.ofList line))).2
  have h₁ : d₁.Shows page := h.create _
  have h₂ : d₂.Shows page := h₁.create _
  have hblock₁ : d₁.node? d.fresh = some ⟨.element paragraphTag [], none, []⟩ := by rw [node?_create, if_pos rfl]
  have hne : d₁.fresh ≠ d.fresh := (ne_fresh hblock₁).symm
  have hblock : d₂.node? d.fresh = some ⟨.element paragraphTag [], none, []⟩ := by
    rw [node?_create, if_neg hne.symm, hblock₁]
  have hrun : d₂.node? d₁.fresh = some ⟨.text (String.ofList line), none, []⟩ := by rw [node?_create, if_pos rfl]
  have hroot : d.fresh ≠ d₂.root := h.fresh_ne_root
  have hrunroot : d₁.fresh ≠ d₂.root := h₁.fresh_ne_root
  -- the run below its paragraph, apart from the page
  let d₃ := d₂.link d.fresh d₁.fresh [d₁.fresh]
  have hlink : d₂.appendNew d.fresh d₁.fresh = d₃ := appendNew_eq_link hblock hne
  have hnode := node?_link hblock hne [d₁.fresh]
  have hapart : d₃.HasBlock none (d.lineBlock line) := by
    refine ⟨?_, fun l hl ↦ ?_⟩
    · exact (hnode d.fresh).trans (if_pos rfl)
    · obtain rfl := List.mem_singleton.1 hl
      refine (hnode d₁.fresh).trans ?_
      rw [if_neg hne, if_pos rfl, hrun]
      rfl
  have h₃ : d₃.Shows page := by
    refine h₂.congr (by simp [d₃, link]) (h₂.linked.attach [d₁.fresh] hblock hne (by simp) (by simp) hnode) fun id hid ↦ ?_
    have hblockout := h₂.notMem_of_orphan hroot (parent?_of_node hblock)
    have hrunout := h₂.notMem_of_orphan hrunroot (parent?_of_node hrun)
    rw [hnode, if_neg (ne_of_mem_of_not_mem hid hblockout), if_neg (ne_of_mem_of_not_mem hid hrunout)]
  have hnodup : (d.lineBlock line).ids.Nodup := by simpa [lineBlock, Paragraph.ids] using hne.symm
  have hroot₃ : d₃.root = d.root := by simp [d₃, link, d₂, d₁]
  have hshows := Shows.link_block (show d₃.Shows (page ++ []) by simpa using h₃) hapart hnodup (hroot₃ ▸ h.fresh_ne_root)
  have heq : d.addParagraph line = d₃.link d₃.root d.fresh ((page ++ [d.lineBlock line]).map Paragraph.id) := by
    have happend : d₃.appendNew d₃.root d.fresh = _ := appendNew_eq_link h₃.root (hroot₃ ▸ h.fresh_ne_root)
    rw [List.map_append]
    refine Eq.trans ?_ happend
    rw [hroot₃, ← hlink]
    rfl
  rw [heq]
  exact hshows

theorem shows_ofRoot (serial : ℕ) : (ofRoot serial (.element rootTag [])).Shows [] where
  root := by simp [ofRoot, node?, root, handle]
  blocks := by simp
  nodup := by simp
  linked id p hp := by
    have hnode : (ofRoot serial (.element rootTag [])).parent? id = none := by
      cases hn : (ofRoot serial (.element rootTag [])).node? id with
      | none => simp [parent?, hn]
      | some n =>
        have hindex : id.index < 1 := index_lt_size hn
        have hid : id = (ofRoot serial (.element rootTag [])).root :=
          NodeId.ext (document_eq hn) (Nat.lt_one_iff.1 hindex)
        simp [parent?, hid, ofRoot, node?, root, handle]
    rw [hnode] at hp
    contradiction

theorem shows_ofText (serial : ℕ) (text : String) : ∃ page, (ofText serial text).Shows page ∧
    page.map Paragraph.contents = (Text.lines text.toList).map fun l ↦ [.text (String.ofList l)] := by
  have hfold : ∀ (lines : List (List Char)) (d : Document) (page : List Paragraph), d.Shows page →
      ∃ new, (lines.foldl Document.addParagraph d).Shows (page ++ new) ∧
        new.map Paragraph.contents = lines.map fun l ↦ [.text (String.ofList l)] := fun lines ↦ by
    induction lines with
    | nil => exact fun d page h ↦ ⟨[], by simpa using h, rfl⟩
    | cons line lines ih =>
      intro d page h
      obtain ⟨new, hshows, hnew⟩ := ih _ _ (h.addParagraph line)
      exact ⟨d.lineBlock line :: new, by simpa using hshows, by rw [List.map_cons, hnew]; rfl⟩
  exact hfold _ _ [] (shows_ofRoot serial)

theorem lines_ofText {t : Delimiters} {text : String}
    (h : page.map Paragraph.contents = (Text.lines text.toList).map fun l ↦ [.text (String.ofList l)]) :
    page.map (Paragraph.line t) = (Text.lines text.toList).map t.pieces := by
  have hline : ∀ b : Paragraph, b.line t = b.contents.flatMap (Content.pieces t) := fun b ↦ by
    rw [Paragraph.line, Leaf.piecesOf, Paragraph.contents, List.flatMap_map]
  have hmap := congrArg (List.map fun cs ↦ cs.flatMap (Content.pieces t)) h
  rw [List.map_map, List.map_map] at hmap
  rw [funext hline]
  simpa [Function.comp_def, Content.pieces] using hmap

end Document

end Stencil
