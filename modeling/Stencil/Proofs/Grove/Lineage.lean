import Stencil.Proofs.Grove.Division
/-!
Nodes with what they hold and what the nodes above them hold. A division makes new nodes and leaves
the nodes above its place, but all others keep their order, what they hold and what is above them.
-/

namespace Stencil

open Grove

/-- A node, what it holds, and what the nodes above it hold, the nearest first. -/
structure Lineage where
  id : NodeId
  data : NodeData
  above : List NodeData

namespace Grove

/-- The nodes of trees below others, in document order. -/
def lineages (above : List NodeData) : Grove → List Lineage
  | bare => []
  | tree id data below rest => ⟨id, data, above⟩ :: (lineages (data :: above) below ++ lineages above rest)

abbrev datas (fs : List Frame) : List NodeData := fs.map Frame.data

def linesBefore (above : List NodeData) : List Frame → List Lineage
  | [] => []
  | f :: fs => linesBefore above fs ++ ⟨f.id, f.data, datas fs ++ above⟩ :: f.left.lineages (f.data :: (datas fs ++ above))

@[inherit_doc linesBefore]
def linesBehind (above : List NodeData) : List Frame → List Lineage
  | [] => []
  | f :: fs => f.right.lineages (f.data :: (datas fs ++ above)) ++ linesBehind above fs

variable {above : List NodeData} {fs : List Frame} {f g : Grove}

@[simp] theorem lineages_bare : bare.lineages above = [] := rfl

@[simp] theorem lineages_append : (f ++ g).lineages above = f.lineages above ++ g.lineages above := by
  induction f with
  | bare => rfl
  | tree id data below rest _ ih => simp only [tree_append, lineages, ih, List.cons_append, List.append_assoc]

@[simp] theorem lineages_single (id : NodeId) (data : NodeData) :
    (single id data g).lineages above = ⟨id, data, above⟩ :: g.lineages (data :: above) := by
  simp [single, lineages]

theorem lineages_plug : (plug fs g).lineages above =
    linesBefore above fs ++ g.lineages (datas fs ++ above) ++ linesBehind above fs := by
  induction fs generalizing g with
  | nil => simp [linesBefore, linesBehind]
  | cons f fs ih => simp [plug_cons, ih, linesBefore, linesBehind]

theorem lineages_id : (g.lineages above).map Lineage.id = g.order := by
  induction g generalizing above with
  | bare => rfl
  | tree id data below rest ihb ihr => simp [lineages, order, ihb, ihr]

theorem linesBefore_id : (linesBefore above fs).map Lineage.id = before fs := by
  induction fs with
  | nil => rfl
  | cons f fs ih => simp [linesBefore, before, ih, lineages_id]

theorem linesBehind_id : (linesBehind above fs).map Lineage.id = behind fs := by
  induction fs with
  | nil => rfl
  | cons f fs ih => simp [linesBehind, behind, ih, lineages_id]

end Grove

namespace Document

variable {d : Document} {fs : List Frame} {above : List NodeData} {g c q : Grove}

/-- A document has a node as a tree has it. -/
def Agrees (d : Document) (l : Lineage) : Prop :=
  d.data? l.id = some l.data ∧ (d.ancestors l.id).map d.data? = l.above.map some

theorem Around.datas {tops : List NodeId} (h : d.Around tops fs) : (chain fs).map d.data? = (Grove.datas fs).map some := by
  induction fs generalizing tops with
  | nil => rfl
  | cons f fs ih =>
    have hdata : d.data? f.id = some f.data := by simp [data?, h.1]
    simp only [List.map_cons, hdata, ih h.2.2.2]

/-- In a document the nodes of a tree hold what the tree says, and so do those above them. -/
theorem Stands.agrees_below : ∀ {g left right : Grove} {fs : List Frame} {p : NodeId} {pdata : NodeData},
    d.Stands (plug fs (.single p pdata (left ++ g ++ right))) → ∀ l ∈ g.lineages (pdata :: Grove.datas fs), d.Agrees l
  | .bare, _, _, _, _, _, _ => by simp
  | .tree id data below rest, left, right, fs, p, pdata, h => by
    have hplace : d.Stands (plug (⟨p, pdata, left, rest ++ right⟩ :: fs) (.single id data below)) := by
      rw [tree_eq, append_assoc, append_assoc, ← append_assoc left] at h
      exact h
    rw [lineages, List.forall_mem_cons, List.forall_mem_append]
    refine ⟨⟨hplace.data?, ?_⟩, ?_, ?_⟩
    · rw [hplace.ancestors]
      exact hplace.around.datas
    · have hbelow : d.Stands (plug (⟨p, pdata, left, rest ++ right⟩ :: fs) (.single id data (bare ++ below ++ bare))) := by
        simpa using hplace
      exact hbelow.agrees_below
    · have hrest : d.Stands (plug fs (.single p pdata (left ++ .single id data below ++ rest ++ right))) := by
        rw [tree_eq, ← append_assoc] at h
        exact h
      exact hrest.agrees_below

theorem Stands.agrees (h : d.Stands g) : ∀ l ∈ g.lineages [], d.Agrees l := by
  obtain ⟨top, data, sub, rfl⟩ := h.single
  have htop : d.Stands (plug [] (.single top data sub)) := h
  have hsub : d.Stands (plug [] (.single top data (bare ++ sub ++ bare))) := by simpa using h
  rw [lineages_single, List.forall_mem_cons]
  exact ⟨⟨htop.data?, by rw [htop.ancestors]; rfl⟩, hsub.agrees_below⟩

/-! ### What a division makes -/

def Side.lines (side : Side) (above : List NodeData) (fs : List Frame) : List Lineage :=
  match side with
  | .before => linesBefore above fs
  | .after => linesBehind above fs

/-- Seen by a reading that passes over new nodes and over those above the place, a division makes
what stood on its side. -/
theorem Parts.filterMap_lineages {α : Type} {side : Side} (φ : Lineage → Option α) (h : Parts side d fs c q)
    (hframe : ∀ f ∈ fs, ∀ above, φ ⟨f.id, f.data, above⟩ = none)
    (hshell : ∀ f ∈ fs, ∀ shell above, d.node? shell = none → φ ⟨shell, f.data, above⟩ = none) :
    (q.lineages above).filterMap φ = (side.lay (side.lines above fs) (c.lineages (Grove.datas fs ++ above))).filterMap φ := by
  induction h with
  | @done c => cases side <;> simp [Side.lay, Side.lines, linesBefore, linesBehind]
  | @pass f fs q hof _ ih =>
    rw [List.forall_mem_cons] at hframe hshell
    rw [ih hframe.2 hshell.2]
    cases side with
    | before => simp [Side.lay, Side.lines, linesBefore, show f.left = bare from hof, hframe.1]
    | after => simp [Side.lay, Side.lines, linesBehind, show f.right = bare from hof]
  | @move f fs c q shell _ hnew _ ih =>
    rw [List.forall_mem_cons] at hframe hshell
    rw [ih hframe.2 hshell.2]
    cases side with
    | before => simp [Side.lay, Side.lines, Side.of, linesBefore, hframe.1, hshell.1 shell _ hnew]
    | after => simp [Side.lay, Side.lines, Side.of, linesBehind, hshell.1 shell _ hnew]

def Side.beyond (side : Side) (fs : List Frame) : List NodeId :=
  match side with
  | .before => Grove.before fs
  | .after => behind fs

theorem Side.mem_beyond_cons {side : Side} {f : Frame} {id : NodeId} (h : id ∈ (side.of f).order ∨ id ∈ side.beyond fs) :
    id ∈ side.beyond (f :: fs) := by
  cases side
  · rcases h with h | h
    · exact List.mem_append_right _ (List.mem_cons_of_mem _ h)
    · exact List.mem_append_left _ h
  · exact List.mem_append.2 h

theorem Side.mem_beyond {side : Side} {f : Frame} {id : NodeId} (hf : f ∈ fs) (h : id ∈ (side.of f).order) : id ∈ side.beyond fs := by
  induction fs with
  | nil => simp at hf
  | cons f' fs ih =>
    rcases List.mem_cons.1 hf with rfl | hf
    · exact Side.mem_beyond_cons (.inl h)
    · exact Side.mem_beyond_cons (.inr (ih hf))

/-- What a division makes has no nodes but new ones and those that stood on its side. -/
theorem Parts.mem {side : Side} {id : NodeId} (h : Parts side d fs c q) (hid : d.node? id ≠ none) (hin : id ∈ q.order) :
    id ∈ c.order ∨ id ∈ side.beyond fs := by
  induction h with
  | done => exact .inl hin
  | pass _ _ ih => exact (ih hin).imp_right fun h ↦ side.mem_beyond_cons (.inr h)
  | move shell _ hnew _ ih =>
    rcases ih hin with h | h
    · rw [order_single, List.mem_cons, order_lay, mem_lay] at h
      rcases h with rfl | h | h
      · exact absurd hnew hid
      · exact .inr (side.mem_beyond_cons (.inl h))
      · exact .inl h
    · exact .inr (side.mem_beyond_cons (.inr h))

/-- Below every new node of a grove there is one that is not new. -/
def Filled (d : Document) : Grove → Prop
  | .bare => True
  | .tree id _ below rest => (d.node? id = none → ∃ x ∈ below.order, d.node? x ≠ none) ∧ d.Filled below ∧ d.Filled rest

theorem filled_append : d.Filled (g ++ c) ↔ d.Filled g ∧ d.Filled c := by
  induction g with
  | bare => simp [Filled]
  | tree id data below rest _ ih => rw [tree_append, Filled, ih, Filled, and_assoc, and_assoc]

theorem filled_single {id : NodeId} {data : NodeData} : d.Filled (.single id data g) ↔
    (d.node? id = none → ∃ x ∈ g.order, d.node? x ≠ none) ∧ d.Filled g := by
  simp [Grove.single, Filled]

theorem filled_of_known (h : ∀ id ∈ g.order, d.node? id ≠ none) : d.Filled g := by
  induction g with
  | bare => trivial
  | tree id data below rest ihb ihr =>
    rw [order, List.forall_mem_cons, List.forall_mem_append] at h
    exact ⟨fun hnone ↦ absurd hnone h.1, ihb h.2.1, ihr h.2.2⟩

/-- A grove without a node that is not new is empty. -/
theorem Filled.exists_known (h : d.Filled g) (hne : g ≠ bare) : ∃ x ∈ g.order, d.node? x ≠ none := by
  cases g with
  | bare => exact absurd rfl hne
  | tree id data below rest =>
    by_cases hid : d.node? id = none
    · obtain ⟨x, hx, hknown⟩ := h.1 hid
      exact ⟨x, List.mem_cons_of_mem _ (List.mem_append_left _ hx), hknown⟩
    · exact ⟨id, List.mem_cons_self .., hid⟩

theorem Filled.of_plug (h : d.Filled (plug fs g)) : d.Filled g := by
  induction fs generalizing g with
  | nil => exact h
  | cons f fs ih => exact (filled_append.1 (filled_append.1 (filled_single.1 (ih h)).2).1).2

/-- Nothing that a division makes is without a node that stood on its side. -/
theorem Parts.filled {side : Side} (h : Parts side d fs c q) (hfs : ∀ f ∈ fs, ∀ id ∈ (side.of f).order, d.node? id ≠ none)
    (hc : d.Filled c) : d.Filled q := by
  induction h with
  | done => exact hc
  | pass _ _ ih => exact ih (fun f hf ↦ hfs f (List.mem_cons_of_mem _ hf)) hc
  | @move f fs c q shell hsome hnew _ ih =>
    have hlay : d.Filled (side.lay (side.of f) c) := by
      have hof := filled_of_known (hfs f (List.mem_cons_self ..))
      cases side
      · exact filled_append.2 ⟨hof, hc⟩
      · exact filled_append.2 ⟨hc, hof⟩
    exact ih (fun f hf ↦ hfs f (List.mem_cons_of_mem _ hf)) (filled_single.2 ⟨fun _ ↦ hlay.exists_known hsome, hlay⟩)

end Document

end Stencil
