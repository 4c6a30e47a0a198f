import Mathlib.Data.List.Infix
import Stencil.Proofs.Edits.Reachable
import Stencil.Proofs.Run.Spared
import Stencil.Proofs.Scan.Visits
/-!
The end of a block. Among the markers behind its placeholder it is the first of the closing name before
which as many blocks are opened as closed, where the regions that do not count are left out. The search
for it cuts texts and changes nothing else.
-/

namespace Stencil

open Grove

/-! ### Markers and their names -/

namespace Selection

/-- Markers by their names, each with the number of those in front of it. -/
abbrev Signs := List (Option String × ℕ)

/-- What follows the end of a region that does not count. -/
def behindRegion (ms : Signs) : Signs := (ms.dropWhile fun m ↦ m.1 != some "EndIgnore").tail

theorem length_behindRegion (ms : Signs) : (behindRegion ms).length ≤ ms.length := by
  have hdrop := (List.dropWhile_suffix (l := ms) fun m ↦ m.1 != some "EndIgnore").length_le
  rw [behindRegion, List.length_tail]
  omega

/-- The markers outside of regions, each of which goes from an `Ignore` through the next `EndIgnore`. -/
def outsideRegions : Signs → Signs
  | [] => []
  | m :: ms => if m.1 = some "Ignore" then outsideRegions (behindRegion ms) else m :: outsideRegions ms
termination_by ms => ms.length
decreasing_by
  · exact Nat.lt_succ_of_le (length_behindRegion ms)
  · exact Nat.lt_succ_self _

/-- The markers that count for a closing one. -/
def counted (closer : String) (ms : Signs) : Signs := if closer = "EndIgnore" then ms else outsideRegions ms

def opened (openers : List String) (ms : Signs) : ℕ := ms.countP fun m ↦ m.1.any openers.contains

def closed (closer : String) (ms : Signs) : ℕ := ms.countP fun m ↦ m.1 == some closer

/-- The first marker of the closing name before which as many blocks are closed as opened, those included
that are open in front of all. -/
def ending? (openers : List String) (closer : String) (depth : ℕ) (ms : Signs) : Option ℕ :=
  ((ms.inits.zip ms).find? fun p ↦
    p.2.1 == some closer && depth + opened openers p.1 == closed closer p.1).map fun p ↦ p.2.2

variable {openers : List String} {closer : String} {m : Option String × ℕ} {ms : Signs}

theorem counted_nil (closer : String) : counted closer [] = [] := by
  rw [counted, outsideRegions, ite_self]

theorem counted_cons (h : ¬(m.1 = some "Ignore" ∧ closer ≠ "EndIgnore")) : counted closer (m :: ms) = m :: counted closer ms := by
  rw [counted, counted]
  split
  · rfl
  · next hcloser => rw [outsideRegions, if_neg fun hm ↦ h ⟨hm, hcloser⟩]

theorem counted_ignore (hm : m.1 = some "Ignore") (hcloser : closer ≠ "EndIgnore") :
    counted closer (m :: ms) = counted closer (behindRegion ms) := by
  rw [counted, counted, if_neg hcloser, if_neg hcloser, outsideRegions, if_pos hm]

theorem behindRegion_end (hm : m.1 = some "EndIgnore") : behindRegion (m :: ms) = ms := by
  rw [behindRegion, List.dropWhile_cons_of_neg (by simp [hm]), List.tail_cons]

theorem behindRegion_cons (hm : m.1 ≠ some "EndIgnore") : behindRegion (m :: ms) = behindRegion ms := by
  rw [behindRegion, List.dropWhile_cons_of_pos (by simpa using hm), behindRegion]

theorem opened_append (openers : List String) (ms ms' : Signs) :
    opened openers (ms ++ ms') = opened openers ms + opened openers ms' :=
  List.countP_append

theorem closed_append (closer : String) (ms ms' : Signs) :
    closed closer (ms ++ ms') = closed closer ms + closed closer ms' :=
  List.countP_append

theorem ending?_cons (openers : List String) (closer : String) (depth : ℕ) (m : Option String × ℕ) (ms : Signs) :
    ending? openers closer depth (m :: ms) = if m.1 = some closer ∧ depth = 0 then some m.2
      else ((ms.inits.zip ms).find? fun p ↦ p.2.1 == some closer &&
        depth + opened openers (m :: p.1) == closed closer (m :: p.1)).map fun p ↦ p.2.2 := by
  rw [ending?, List.inits_cons, List.zip_cons_cons, List.find?_cons]
  have hhead : ((m.1 == some closer) && depth + opened openers [] == closed closer []) = true ↔
      m.1 = some closer ∧ depth = 0 := by
    simp [opened, closed]
  split
  · next h =>
    rw [if_pos (hhead.1 h)]
    rfl
  · next h =>
    rw [if_neg fun h' ↦ by simp [hhead.2 h'] at h, List.zip_map_left, List.find?_map, Option.map_map]
    rfl

/-- A marker that does not end the block is passed, with the blocks that are then open. -/
theorem ending?_pass {depth depth' : ℕ} (h : ¬(m.1 = some closer ∧ depth = 0))
    (hdepth : depth + opened openers [m] = depth' + closed closer [m]) :
    ending? openers closer depth (m :: ms) = ending? openers closer depth' ms := by
  rw [ending?_cons, if_neg h, ending?]
  congr 2
  funext p
  have hopened := opened_append openers [m] p.1
  have hclosed := closed_append closer [m] p.1
  rw [List.singleton_append] at hopened hclosed
  rw [hopened, hclosed]
  congr 1
  rw [Bool.eq_iff_iff, beq_iff_eq, beq_iff_eq]
  omega

namespace Nesting

/-- The markers that still count in a search that has come so far. -/
def reads (n : Nesting) (closer : String) (ms : Signs) : Signs := counted closer (if n.ignoring then behindRegion ms else ms)

theorem closes_iff {n : Nesting} {name? : Option String} :
    n.closes closer name? = true ↔ name? = some closer ∧ n.depth = 0 ∧ n.ignoring = false := by
  simp [closes, and_assoc]

theorem pass_ignoring (depth : ℕ) (openers : List String) (closer : String) (name? : Option String) :
    (⟨depth, true⟩ : Nesting).pass openers closer name? = ⟨depth, name? != some "EndIgnore"⟩ := by
  cases name? with
  | none => rfl
  | some name =>
    by_cases hend : name = "EndIgnore"
    · simp [pass, hend]
    · simp [pass, hend]

/-- A marker outside of regions that begins none: it opens a block, closes one or does neither. -/
theorem pass_counted (hcloser : closer ∉ openers) {depth : ℕ} (hcounts : ¬(m.1 = some "Ignore" ∧ closer ≠ "EndIgnore"))
    (h : ¬(m.1 = some closer ∧ depth = 0)) : ((⟨depth, false⟩ : Nesting).pass openers closer m.1).ignoring = false ∧
      depth + opened openers [m] = ((⟨depth, false⟩ : Nesting).pass openers closer m.1).depth + closed closer [m] := by
  obtain ⟨_ | name, i⟩ := m
  · simp [pass, opened, closed]
  · rw [pass, if_neg (by simpa using hcounts)]
    rw [if_neg (by simp), if_neg (by simp)]
    split
    · next heq =>
      subst heq
      have hpos : depth ≠ 0 := fun hzero ↦ h ⟨rfl, hzero⟩
      simp only [opened, closed, List.countP_singleton, List.contains_eq_mem, Option.any_some, hcloser, decide_false,
        Bool.false_eq_true, if_false, beq_self_eq_true, if_true, true_and]
      omega
    · next hne =>
      split
      · next hin => simp [opened, closed, hne, List.contains_iff_mem.1 hin]
      · next hout => simp [opened, closed, hne, show name ∉ openers by simpa using hout]

/-- What a search reads of a marker that is not the closing one: nothing, or the marker itself, which then
opens a block, closes one or does neither. -/
theorem pass_reads (hcloser : closer ∉ openers) (n : Nesting) (m : Option String × ℕ) (h : n.closes closer m.1 = false) :
    ∃ seen : Signs, (∀ ms, n.reads closer (m :: ms) = seen ++ (n.pass openers closer m.1).reads closer ms) ∧
      n.depth + opened openers seen = (n.pass openers closer m.1).depth + closed closer seen ∧
      ∀ ms, ending? openers closer n.depth (seen ++ ms) = ending? openers closer (n.pass openers closer m.1).depth ms := by
  obtain ⟨depth, ignoring⟩ := n
  cases ignoring with
  | true =>
    rw [pass_ignoring]
    refine ⟨[], fun ms ↦ ?_, rfl, fun _ ↦ rfl⟩
    by_cases hend : m.1 = some "EndIgnore"
    · simp [reads, hend, behindRegion_end]
    · simp [reads, hend, behindRegion_cons]
  | false =>
    by_cases hregion : m.1 = some "Ignore" ∧ closer ≠ "EndIgnore"
    · have hpass : (⟨depth, false⟩ : Nesting).pass openers closer m.1 = ⟨depth, true⟩ := by
        simp [hregion.1, pass, hregion.2]
      rw [hpass]
      exact ⟨[], fun ms ↦ counted_ignore hregion.1 hregion.2, rfl, fun _ ↦ rfl⟩
    · have hopen : ¬(m.1 = some closer ∧ depth = 0) := fun hcloses ↦ by
        rw [(closes_iff (n := ⟨depth, false⟩)).2 ⟨hcloses.1, hcloses.2, rfl⟩] at h
        contradiction
      obtain ⟨hout, hdepth⟩ := pass_counted hcloser hregion hopen
      refine ⟨[m], fun ms ↦ ?_, hdepth, fun ms ↦ ending?_pass hopen hdepth⟩
      rw [reads, reads, hout]
      exact counted_cons hregion

/-- The search for a closing marker ends at the one that the markers that count say. -/
theorem closing?_eq_ending? (hcloser : closer ∉ openers) (hignore : closer ≠ "Ignore") (as : Aliases) :
    ∀ (ps : List (List Char)) (n : Nesting) (i : ℕ), (n.closing? as openers closer ps).map (· + i) =
      ending? openers closer n.depth (n.reads closer ((ps.map as.nameOf?).zipIdx i))
  | [], n, i => by
    rw [closing?, List.map_nil, List.zipIdx_nil, reads, behindRegion, List.dropWhile_nil, List.tail_nil, ite_self, counted_nil]
    rfl
  | p :: ps, n, i => by
    rw [closing?, List.map_cons, List.zipIdx_cons]
    by_cases hcloses : n.closes closer (as.nameOf? p) = true
    · obtain ⟨hname, hdepth, hout⟩ := closes_iff.1 hcloses
      have hreads : ∀ ms, n.reads closer ((as.nameOf? p, i) :: ms) = (as.nameOf? p, i) :: counted closer ms := by
        intro ms
        rw [reads, hout]
        apply counted_cons
        rintro ⟨hregion, -⟩
        exact hignore (Option.some.inj (hname.symm.trans hregion))
      rw [if_pos hcloses, hreads, ending?_cons, if_pos ⟨hname, hdepth⟩, Option.map_some, Nat.zero_add]
    · obtain ⟨seen, hreads, -, hending⟩ := pass_reads hcloser n (as.nameOf? p, i) (by simpa using hcloses)
      have hrest := closing?_eq_ending? hcloser hignore as ps (n.pass openers closer (as.nameOf? p)) (i + 1)
      rw [if_neg hcloses, hreads, hending, ← hrest, Option.map_map]
      congr 1
      funext k
      exact Nat.add_right_comm k 1 i

/-- As long as the search goes on, the number of open blocks is exactly what the markers say. -/
theorem depth_foldl (hcloser : closer ∉ openers) (as : Aliases) : ∀ (ps : List (List Char)) (n : Nesting) (i : ℕ),
    n.closing? as openers closer ps = none →
      (((ps.map as.nameOf?).zipIdx i).foldl (fun n m ↦ n.pass openers closer m.1) n).depth +
        closed closer (n.reads closer ((ps.map as.nameOf?).zipIdx i)) =
      n.depth + opened openers (n.reads closer ((ps.map as.nameOf?).zipIdx i))
  | [], n, i, _ => by
    rw [List.map_nil, List.zipIdx_nil, reads, behindRegion, List.dropWhile_nil, List.tail_nil, ite_self, counted_nil]
    rfl
  | p :: ps, n, i, hnone => by
    rw [closing?] at hnone
    split at hnone
    · contradiction
    · next hcloses =>
      obtain ⟨seen, hreads, hdepth, -⟩ := pass_reads hcloser n (as.nameOf? p, i) (by simpa using hcloses)
      have hrest := depth_foldl hcloser as ps (n.pass openers closer (as.nameOf? p)) (i + 1) (Option.map_eq_none_iff.1 hnone)
      rw [List.map_cons, List.zipIdx_cons, List.foldl_cons, hreads, opened_append, closed_append]
      dsimp only at hdepth ⊢
      omega

/-- How far the search for a closing marker has come behind some markers. -/
def behind (openers : List String) (closer : String) (ms : Signs) : Nesting :=
  ms.foldl (fun n m ↦ n.pass openers closer m.1) ⟨0, false⟩

/-- No marker in front of the closing one is taken for it. -/
theorem closing?_take (as : Aliases) : ∀ (ps : List (List Char)) (n : Nesting) (j : ℕ),
    (∀ k ∈ n.closing? as openers closer ps, j ≤ k) → n.closing? as openers closer (ps.take j) = none
  | [], n, j, _ => by rw [List.take_nil, closing?]
  | p :: ps, n, 0, _ => by rw [List.take_zero, closing?]
  | p :: ps, n, j + 1, h => by
    rw [closing?] at h
    rw [List.take_succ_cons, closing?]
    split at h
    · have := h 0 rfl
      omega
    · next hcloses =>
      rw [if_neg hcloses, closing?_take as ps, Option.map_none]
      intro k hk
      have := h (k + 1) (Option.mem_map.2 ⟨k, hk, rfl⟩)
      omega

/-- Where no marker has a name, none closes a block. -/
theorem closing?_unnamed {as : Aliases} : ∀ {ps : List (List Char)}, (∀ p ∈ ps, as.nameOf? p = none) → ∀ n : Nesting,
    n.closing? as openers closer ps = none
  | [], _, n => by rw [closing?]
  | p :: ps, h, n => by
    rw [List.forall_mem_cons] at h
    rw [closing?, if_neg (by simp [closes, h.1]), closing?_unnamed h.2, Option.map_none]

end Nesting

end Selection

/-! ### The nodes behind a node -/

namespace Document

variable {t : Delimiters} {d e : Document} {T T' g g' : Grove} {f : Frame} {fs : List Frame} {id : NodeId} {data : NodeData}
  {sub : Grove} {p? : Option NodeId}

def nodesBehind (d : Document) (id : NodeId) : List NodeId :=
  ((d.descendants ((d.ancestors id).getLast?.getD id)).dropWhile (· != id)).drop (d.descendants id).length

theorem Stands.nodesBehind (h : d.Stands (plug fs (.single id data sub))) : d.nodesBehind id = behind fs := by
  obtain ⟨topData, below, htree⟩ := exists_summit fs id data sub
  have htop : d.Stands (plug [] (.single (summit fs id) topData below)) := by
    rw [plug, ← htree]
    exact h
  have horder : d.descendants (summit fs id) = before fs ++ id :: (sub.order ++ behind fs) := by
    have hsingle : (Grove.single (summit fs id) topData below).order = summit fs id :: below.order := order_single ..
    rw [htop.descendants, ← hsingle, ← htree, order_plug, order_single, List.append_assoc, List.cons_append]
  have hnodup := h.nodup_parts
  have hfront : ∀ x ∈ before fs, (x != id) = true := by
    intro x hx
    rw [bne_iff_ne]
    rintro rfl
    exact (List.nodup_append.1 hnodup).2.2 x hx x (List.mem_cons_self ..) rfl
  rw [Document.nodesBehind, h.ancestors, ← summit, horder, List.dropWhile_append_of_pos hfront,
    List.dropWhile_cons_of_neg (by simp), h.descendants, ← List.cons_append, List.drop_left]

theorem nodesBehind_unknown (hid : d.node? id = none) : d.nodesBehind id = [] := by
  have hchildren : d.children id = [] := by rw [Document.children, hid]; rfl
  rw [Document.nodesBehind, ancestors_unknown hid, List.getLast?_nil, Option.getD_none, descendants]
  cases d.size <;> simp [preorder, hchildren]

end Document

/-! ### Lines of a tree that is cut -/

namespace Grove

def shown : Grove → List String
  | bare => []
  | tree _ (.text s) _ rest => s :: shown rest
  | tree _ (.element tag attrs) below rest =>
    (if tag = Document.imageTag then Document.imageText attrs else String.join (shown below)) :: shown rest

def inner : Grove → Grove
  | bare => bare
  | tree _ _ below _ => below

def heads : Grove → List NodeData
  | bare => []
  | tree _ data _ rest => data :: heads rest

variable {t : Delimiters} {g g' : Grove} {f : Frame} {fs : List Frame}

theorem shown_append (g g' : Grove) : shown (g ++ g') = shown g ++ shown g' := by
  induction g with
  | bare => rfl
  | tree id data below rest _ ih => cases data <;> simp [shown, ih]

theorem heads_append (g g' : Grove) : heads (g ++ g') = heads g ++ heads g' := by
  induction g with
  | bare => rfl
  | tree id data below rest _ ih => simp [heads, ih]

theorem length_shown (g : Grove) : (shown g).length = g.tops.length := by
  induction g with
  | bare => rfl
  | tree id data below rest _ ih => cases data <;> simp [shown, tops, ih]

theorem shown_row (ts : List (NodeId × String)) : shown (row ts) = ts.map Prod.snd := by
  induction ts with
  | nil => rfl
  | cons u ts ih => rw [row, shown, ih, List.map_cons]

/-- An element shows what its parts show one after another. -/
theorem shown_single (f : Frame) (h : String.join (shown g) = String.join (shown g')) :
    shown (.single f.id f.data (f.left ++ g ++ f.right)) = shown (.single f.id f.data (f.left ++ g' ++ f.right)) := by
  cases f.data with
  | text s => rfl
  | element tag attrs => simp only [single, shown, shown_append, String.join_append, h]

theorem inner_plug (hshown : shown g = shown g') (hheads : heads g = heads g') :
    heads (plug (f :: fs) g').inner = heads (plug (f :: fs) g).inner ∧
      shown (plug (f :: fs) g').inner = shown (plug (f :: fs) g).inner := by
  induction fs generalizing f g g' with
  | nil =>
    have hinner : ∀ h, (plug [f] h).inner = f.left ++ h ++ f.right := fun _ ↦ rfl
    simp only [hinner, heads_append, shown_append, hshown, hheads, and_self]
  | cons f' fs ih =>
    rw [plug_cons, plug_cons f]
    exact ih (shown_single f (by rw [hshown])) rfl

/-- A cut leaves the lines of a tree as they were, unless it makes two of one that is a text. -/
theorem inner_cut {x : NodeId} {s first : String} {c : Payload.Cut} {rest : List (NodeId × String)} (f : Frame) (fs : List Frame)
    (hcut : t.cut? s.toList = some c) (hpieces : c.pieces t = first :: rest.map Prod.snd) {h h' : Grove}
    (hh : h = plug (f :: fs) (.single x (.text s) .bare))
    (hh' : h' = plug ({ f with right := row rest ++ f.right } :: fs) (.single x (.text first) .bare)) :
    (heads h'.inner = heads h.inner ∧ shown h'.inner = shown h.inner) ∨
      (h.inner.tops.length < h'.inner.tops.length ∧ ∃ s, .text s ∈ heads h.inner) := by
  have hjoin := Payload.Cut.join_pieces hcut
  rw [hpieces] at hjoin
  have hright : plug ({ f with right := row rest ++ f.right } :: fs) (.single x (.text first) .bare) =
      plug (f :: fs) (row ((x, first) :: rest)) := by
    rw [plug_cons, plug_cons, row_cons, append_assoc, append_assoc, append_assoc]
  subst hh hh'
  rw [hright]
  cases fs with
  | cons f' fs =>
    left
    rw [plug_cons, plug_cons f]
    refine inner_plug (shown_single f ?_) rfl
    rw [shown_row, List.map_cons, hjoin]
    simp [single, shown]
  | nil =>
    have hinner : ∀ h, (plug [f] h).inner = f.left ++ h ++ f.right := fun _ ↦ rfl
    rw [hinner, hinner]
    cases rest with
    | nil =>
      left
      obtain rfl : first = s := by simpa using hjoin
      exact ⟨rfl, rfl⟩
    | cons u rest =>
      right
      refine ⟨?_, s, ?_⟩
      · simp [single, tops]
      · simp [single, heads, heads_append]

/-- Cuts leave the lines of a tree as they were, unless they make two of one that is a text. -/
theorem Sliced.inner (h : g.Sliced t g') : (heads g'.inner = heads g.inner ∧ shown g'.inner = shown g.inner) ∨
    (g.inner.tops.length < g'.inner.tops.length ∧ ∃ s, .text s ∈ heads g.inner) := by
  induction h with
  | refl => exact .inl ⟨rfl, rfl⟩
  | @cut f fs x s first c rest _ hcut hpieces ih =>
    rcases ih with ⟨hheads, hshown⟩ | ⟨hlt, htext⟩ <;>
    rcases inner_cut f fs hcut hpieces rfl rfl with ⟨hheads', hshown'⟩ | ⟨hlt', htext'⟩
    · exact .inl ⟨hheads'.trans hheads, hshown'.trans hshown⟩
    · right
      have hlength := congrArg List.length hshown
      rw [length_shown, length_shown] at hlength
      exact ⟨hlength ▸ hlt', hheads ▸ htext'⟩
    · right
      have hlength := congrArg List.length hshown'
      rw [length_shown, length_shown] at hlength
      exact ⟨hlength ▸ hlt, htext⟩
    · exact .inr ⟨hlt.trans hlt', htext⟩

end Grove

/-! ### Documents in which texts are cut -/

namespace Document

variable {t : Delimiters} {d e : Document} {T T' g : Grove} {p? : Option NodeId}

theorem Holds.inlineText (h : d.Holds p? g) {n : ℕ} (hn : g.order.length ≤ n) : g.tops.map (d.inlineText n) = g.shown := by
  induction g generalizing p? n with
  | bare => rfl
  | tree id data below rest ihb ihr =>
    simp only [order, List.length_cons, List.length_append] at hn
    obtain ⟨n, rfl⟩ : ∃ k, n = k + 1 := ⟨n - 1, by omega⟩
    rw [tops, List.map_cons, ihr h.2.2 (by omega), Document.inlineText, h.1]
    cases data with
    | text s => rfl
    | element tag attrs => 
      have hbelow := ihb h.2.1 (n := n) (by omega)
      rw [shown]
      dsimp only
      rw [hbelow]

theorem Stands.textLines (h : d.Stands T) (htops : T.tops = [d.root]) : d.textLines = T.inner.shown := by
  obtain ⟨top, data, sub, rfl⟩ := h.single
  obtain rfl : top = d.root := (List.cons.inj htops).1
  have hplace : d.Stands (plug [] (.single d.root data sub)) := h
  have hlength := h.order_length
  rw [order_single, List.length_cons] at hlength
  rw [Document.textLines, hplace.children]
  exact hplace.below.inlineText (by omega)

theorem Stands.children_root (h : d.Stands T) (htops : T.tops = [d.root]) : d.children d.root = T.inner.tops := by
  obtain ⟨top, data, sub, rfl⟩ := h.single
  obtain rfl : top = d.root := (List.cons.inj htops).1
  have hplace : d.Stands (plug [] (.single d.root data sub)) := h
  exact hplace.children

theorem Holds.exists_head (h : d.Holds p? g) {data : NodeData} (hdata : data ∈ g.heads) :
    ∃ id ∈ g.tops, d.data? id = some data := by
  induction g with
  | bare => simp [heads] at hdata
  | tree id data' below rest _ ih =>
    rcases List.mem_cons.1 hdata with rfl | hdata
    · exact ⟨id, List.mem_cons_self .., by rw [Document.data?, h.1]; rfl⟩
    · obtain ⟨id, hid, hdata⟩ := ih h.2.2 hdata
      exact ⟨id, List.mem_cons_of_mem _ hid, hdata⟩

/-- A later state of a document, in which texts have been cut around the markers in them. Its text is the one
it was, unless a text that is a line of its own has been cut in two. -/
structure CutUp (t : Delimiters) (d e : Document) : Prop where
  wellFormed : e.WellFormed
  root : e.root = d.root
  trees : ∀ T, d.Stands T → ∃ T', e.Stands T' ∧ T.Sliced t T'
  only : ∀ T', e.Stands T' → ∃ T, d.Stands T ∧ T.Sliced t T'
  text : e.children e.root = d.children d.root → e.toText = d.toText
  elements : (∀ c ∈ d.children d.root, d.isText c = false) → e.toText = d.toText

theorem cutUp_of_trees (hd : d.WellFormed) (he : e.WellFormed) (hroot : e.root = d.root)
    (htrees : ∀ T, d.Stands T → ∃ T', e.Stands T' ∧ T.Sliced t T')
    (hmade : ∀ id, e.node? id ≠ none → ∃ T T', d.Stands T ∧ e.Stands T' ∧ T.Sliced t T' ∧ id ∈ T'.order) : CutUp t d e := by
  obtain ⟨T, hT, htops, -⟩ := hd.forest.exists_root
  obtain ⟨T', hT', hsliced⟩ := htrees T hT
  have htops' : T'.tops = [e.root] := by rw [tops_sliced hsliced, htops, hroot]
  have htext : T'.inner.shown = T.inner.shown → e.toText = d.toText := by
    intro hshown
    rw [toText, toText, hT.textLines htops, hT'.textLines htops', hshown]
  refine ⟨he, hroot, htrees, fun U' hU' ↦ ?_, fun hchildren ↦ ?_, fun helements ↦ ?_⟩
  · obtain ⟨top, data, sub, rfl⟩ := hU'.single
    have htop : top ∈ (Grove.single top data sub).order := by rw [order_single]; exact List.mem_cons_self ..
    obtain ⟨U, V, hU, hV, hcut, hin⟩ := hmade top (hU'.holds.known top htop)
    obtain rfl := hV.unique hU' hin htop
    exact ⟨U, hU, hcut⟩
  · rcases hsliced.inner with ⟨-, hshown⟩ | ⟨hlt, -⟩
    · exact htext hshown
    · rw [hT.children_root htops, hT'.children_root htops'] at hchildren
      rw [hchildren] at hlt
      exact absurd hlt (Nat.lt_irrefl _)
  · rcases hsliced.inner with ⟨-, hshown⟩ | ⟨-, s, hs⟩
    · exact htext hshown
    · obtain ⟨top, data, sub, rfl⟩ := hT.single
      obtain rfl : top = d.root := (List.cons.inj htops).1
      have hplace : d.Stands (plug [] (.single d.root data sub)) := hT
      obtain ⟨c, hc, hdata⟩ := hplace.below.exists_head hs
      have hnot := helements c (hplace.children ▸ hc)
      rw [isText, Document.text?, hdata] at hnot
      simp at hnot

theorem CutUp.refl (t : Delimiters) (hd : d.WellFormed) : CutUp t d d := by
  refine cutUp_of_trees hd hd rfl (fun T hT ↦ ⟨T, hT, .refl⟩) fun id hid ↦ ?_
  obtain ⟨T, hT, hin⟩ := hd.forest.all id hid
  exact ⟨T, T, hT, hT, .refl, hin⟩

end Document

/-! ### The end of a block -/

namespace RunState.Passes

variable {t : Delimiters} {r r' : RunState} {T T' sub : Grove} {fs : List Frame} {id : NodeId} {data : NodeData} {xs zs : List NodeId}

/-- What stands in front of all cuts, or in another tree, stays. -/
theorem stands_apart (h : r.Passes t r' T T' xs) (hT : r.document.Stands T) {U : Grove} (hU : r.document.Stands U) (hne : U ≠ T) :
    r'.document.Stands U := by
  apply hU.congr
  intro id hid
  apply h.apart
  intro y hy
  have hin : y ∈ U.order := by
    rcases List.mem_cons.1 hy with rfl | hy
    · exact hid
    · exact hU.holds.children_mem id hid y hy
  exact ⟨hU.holds.known y hin, fun hy ↦ absurd (hU.unique hT hin hy) hne⟩

theorem cutUp (h : r.Passes t r' T T' xs) (hd : r.document.WellFormed) (hT : r.document.Stands T) :
    r.document.CutUp t r'.document := by
  have htrees : ∀ U, r.document.Stands U → ∃ U', r'.document.Stands U' ∧ U.Sliced t U' := by
    intro U hU
    by_cases heq : U = T
    · subst heq
      exact ⟨T', h.stands, h.sliced⟩
    · exact ⟨U, h.stands_apart hT hU heq, .refl⟩
  refine Document.cutUp_of_trees hd h.forest.wellFormed h.keeps.toGrows.root htrees fun id hid ↦ ?_
  rcases h.made id hid with hknown | hin
  · obtain ⟨U, hU, hin⟩ := hd.forest.all id hknown
    obtain ⟨U', hU', hcut⟩ := htrees U hU
    exact ⟨U, U', hU, hU', hcut, Document.order_sliced hcut hin⟩
  · exact ⟨T, T', hT, h.stands, h.sliced, hin⟩

/-- What is below a node in front of all cuts stays, so that behind it there is what the cuts leave. -/
theorem nodesBehind (hT : r.document.Stands (plug fs (.single id data sub)))
    (h : r.Passes t r' (plug fs (.single id data sub)) T' (before fs ++ id :: sub.order))
    (horder : T'.order = (before fs ++ id :: sub.order) ++ zs) : r'.document.nodesBehind id = zs := by
  have hsubtree := (Document.holds_plug.1 hT.holds).2
  have hstay : ∀ y ∈ id :: sub.order, r'.document.node? y = r.document.node? y := by
    intro y hy
    apply h.apart
    intro z hz
    have hin : z ∈ id :: sub.order := by
      rcases List.mem_cons.1 hz with rfl | hz
      · exact hy
      · have hmem := hsubtree.children_mem y (by rwa [order_single]) z hz
        rwa [order_single] at hmem
    exact ⟨hsubtree.known z (by rwa [order_single]), fun _ ↦ List.mem_append_right _ hin⟩
  have horder' : T'.order = before fs ++ id :: (sub.order ++ zs) := by rw [horder, List.append_assoc, List.cons_append]
  obtain ⟨sub', data', fs', rfl, -, hzs⟩ := h.stands.exists_place_of_order horder'
  have hbelow : r'.document.Holds (some id) sub := hT.below.congr fun y hy ↦ hstay y (List.mem_cons_of_mem _ hy)
  have htops : sub'.tops = sub.tops := by
    rw [← h.stands.children, ← hT.children, Document.children, Document.children, hstay id (List.mem_cons_self ..)]
  obtain rfl := h.stands.below.unique hbelow htops
  rw [h.stands.nodesBehind]
  exact (List.append_cancel_left hzs).symm

end RunState.Passes

namespace Delimiters

variable {t : Delimiters}

/-- Where nothing ends a marker, a marker has no payload. -/
theorem payloads_of_closing_nil (ht : t.closing = "") {s p : List Char} (hp : p ∈ t.payloads s) : p = [] := by
  have hcut : ∀ {s : List Char} {c : Payload.Cut}, t.cut? s = some c → c.payload = [] := by
    intro s c hcut
    obtain ⟨r, hclose⟩ := exists_close hcut
    rw [ht, String.toList_empty] at hclose
    cases r with
    | nil => simp [Payload.close] at hclose
    | cons x r =>
      simp only [Payload.close, if_pos, Text.stripPrefix?, Option.some.injEq, Prod.mk.injEq] at hclose
      exact hclose.1.symm
  have hwithin : ∀ (n : ℕ) (s : List Char), ∀ p ∈ Piece.payloads (t.piecesWithin n s), p = [] := by
    intro n
    induction n with
    | zero => simp [piecesWithin, Piece.payloads, Piece.payload?]
    | succ n ih =>
      intro s p hp
      rw [piecesWithin] at hp
      cases hs : t.cut? s with
      | none => simp [hs, Piece.payloads, Piece.payload?] at hp
      | some c =>
        have hwords : Piece.payloads (wordsOf c.before) = [] := by
          rw [wordsOf]
          split <;> rfl
        simp only [hs, Piece.payloads_append, hwords, List.nil_append, Piece.payloads_marker, List.mem_cons, hcut hs] at hp
        rcases hp with rfl | hp
        · rfl
        · split at hp
          · simp [Piece.payloads] at hp
          · exact ih _ _ hp
  exact hwithin _ _ p hp

end Delimiters

namespace Selection

variable {t : Delimiters} {s : Selection} {r : RunState} {openers : List String} {closer : String}

/-- Where nothing ends a marker, no search comes to a closing one. -/
theorem seekEnd_of_closing_nil (ht : t.closing = "") : ∀ (n : ℕ) (nesting : Nesting) (start? : Option NodeId) (r : RunState)
    (m : NodeId), ((seekEnd (Toolkit.ofDelimiters t) openers closer n nesting start?).on r).1 ≠ .ok (some m)
  | 0, _, _, r, m => by simp [seekEnd]
  | n + 1, _, none, r, m => by simp [seekEnd]
  | n + 1, nesting, some id, r, m => by
    intro hfound
    rw [seekEnd, Run.on_bind] at hfound
    split at hfound
    · next found? r₁ hsearch =>
      cases found? with
      | none => simp at hfound
      | some found =>
        have hname : (nameOf? (Toolkit.ofDelimiters t) found).on r₁ = (.ok none, r₁) := by
          have hpayload : r₁.document.payload? (Toolkit.ofDelimiters t).delimiters found = none :=
            Document.payload?_of_closing_nil ht found
          rw [nameOf?, Run.on_bind_ok (Run.on_get r₁), hpayload]
          rfl
        dsimp only at hfound
        rw [Run.on_bind_ok hname, if_neg (by simp [Nesting.closes]), Run.on_bind_ok (Run.on_document r₁)] at hfound
        exact seekEnd_of_closing_nil ht n _ _ r₁ m hfound
    · simp at hfound

def payloadsBehind (t : Delimiters) (r : RunState) (id : NodeId) : List (List Char) :=
  r.document.payloadsAt t (r.document.nodesBehind id)

def signsBehind (t : Delimiters) (r : RunState) (id : NodeId) : Signs := ((payloadsBehind t r id).map r.aliases.nameOf?).zipIdx

theorem take_zipIdx (names : List (Option String)) (j : ℕ) : names.zipIdx.take j = (names.take j).zipIdx := by
  apply List.ext_getElem?
  intro i
  rw [List.getElem?_take, List.getElem?_zipIdx, List.getElem?_zipIdx, List.getElem?_take]
  split <;> rfl

theorem payload_behind_of_closing_nil (ht : t.closing = "") {x : NodeId} {p : List Char} (hp : p ∈ payloadsBehind t r x) :
    p = [] := by
  obtain ⟨x, -, hp⟩ := List.mem_flatMap.1 hp
  cases htext : r.document.text? x with
  | none => simp [htext] at hp
  | some u => exact Delimiters.payloads_of_closing_nil ht (by simpa [htext] using hp)

theorem areaEnd_of_closing_nil (htoolkit : s.toolkit? = some (Toolkit.ofDelimiters t)) (ht : t.closing = "") (c : NodeId) :
    ((s.areaEnd openers closer).on r).1 ≠ .ok c := by
  intro hc
  rw [areaEnd, toolkit, htoolkit, Run.on_bind_ok (Run.on_pure _ r), Run.on_bind_ok (Run.on_document r), Run.on_bind] at hc
  have hnone : ∀ m, ((seekEnd (Toolkit.ofDelimiters t) openers closer (placeholderBound r.document) ⟨0, false⟩
      (r.document.nextAfter? s.node)).on r).1 ≠ .ok (some m) := seekEnd_of_closing_nil ht _ _ _ r
  split at hc
  · next found? r₁ hseek =>
    rw [hseek] at hnone
    cases found? with
    | none => simp at hc
    | some m => exact hnone m rfl
  · simp at hc

theorem closing?_behind (hcloser : closer ∉ openers) (hignore : closer ≠ "Ignore") (x : NodeId) :
    Nesting.closing? r.aliases openers closer ⟨0, false⟩ (payloadsBehind t r x) =
      ending? openers closer 0 (counted closer (signsBehind t r x)) := by
  have hclosing := Nesting.closing?_eq_ending? hcloser hignore r.aliases (payloadsBehind t r x) ⟨0, false⟩ 0
  rwa [show (fun k ↦ k + 0) = (id : ℕ → ℕ) from rfl, Option.map_id] at hclosing

/-- Whatever the markers behind a node, the number of open blocks that the search for a closing one counts is
the number of blocks opened less that of blocks closed, up to where it ends. -/
theorem depth_behind (hcloser : closer ∉ openers) (hignore : closer ≠ "Ignore") (x : NodeId) (j : ℕ)
    (hj : ∀ k ∈ ending? openers closer 0 (counted closer (signsBehind t r x)), j ≤ k) :
    (Nesting.behind openers closer ((signsBehind t r x).take j)).depth + closed closer (counted closer ((signsBehind t r x).take j)) =
      opened openers (counted closer ((signsBehind t r x).take j)) := by
  rw [← closing?_behind hcloser hignore] at hj
  have hfront := Nesting.closing?_take r.aliases (payloadsBehind t r x) ⟨0, false⟩ j hj
  have hdepth := Nesting.depth_foldl hcloser r.aliases _ _ 0 hfront
  rw [List.map_take, ← take_zipIdx, Nat.zero_add] at hdepth
  exact hdepth

theorem areaEnd_unknown (htoolkit : s.toolkit? = some (Toolkit.ofDelimiters t)) (hid : r.document.node? s.node = none) :
    (s.areaEnd openers closer).on r = (.error (.structure (.noClosing s.command.name closer)), r) := by
  have hseek : ∀ n nesting, (seekEnd (Toolkit.ofDelimiters t) openers closer n nesting none).on r = (.ok none, r) := by
    intro n nesting
    cases n <;> rfl
  rw [areaEnd, toolkit, htoolkit, Run.on_bind_ok (Run.on_pure _ r), Run.on_bind_ok (Run.on_document r),
    Document.nextAfter?_unknown hid, Run.on_bind_ok (hseek _ _)]
  rfl

/-- The search from behind a node of the document, wherever it stands. -/
theorem areaEnd_known (htoolkit : s.toolkit? = some (Toolkit.ofDelimiters t)) (hopening : t.opening ≠ "")
    (hd : r.document.WellFormed) (hid : r.document.node? s.node ≠ none) (openers : List String) (closer : String) :
    ∃ found? r', (s.areaEnd openers closer).on r = (match found? with
        | some id => .ok id
        | none => .error (.structure (.noClosing s.command.name closer)), r') ∧
      Finds t r openers closer ⟨0, false⟩ (payloadsBehind t r s.node) r'.document (r'.document.nodesBehind s.node) found? ∧
      r'.model = r.model ∧ r'.aliases = r.aliases ∧ r.document.CutUp t r'.document := by
  obtain ⟨sub, data, fs, hT⟩ := hd.forest.exists_place hid
  have horder : (plug fs (.single s.node data sub)).order = (before fs ++ s.node :: sub.order) ++ Grove.behind fs := by
    rw [order_plug, order_single]
  obtain ⟨found?, r', T', zs', hon, hpasses, horder', -, hfinds⟩ := areaEnd_finds htoolkit hd.forest hT (by simp) horder
    hT.nextAfter? openers closer
  refine ⟨found?, r', hon, ?_, hpasses.model, hpasses.aliases, hpasses.cutUp hd hT⟩
  by_cases ht : t.closing = ""
  · -- no marker has a name
    have hnames : ∀ p ∈ payloadsBehind t r s.node, r.aliases.nameOf? p = none := by
      intro p hp
      obtain rfl := payload_behind_of_closing_nil ht hp
      rfl
    cases found? with
    | none => exact Nesting.closing?_unnamed hnames _
    | some c => exact absurd (congrArg Prod.fst hon) (areaEnd_of_closing_nil htoolkit ht c)
  · have hproper : t.Proper := ⟨by simpa using hopening, by simpa using ht⟩
    rw [hpasses.nodesBehind hT horder', payloadsBehind, hT.nodesBehind]
    exact hfinds hproper

/-- The search for the end of a block. It comes to the first marker of the closing name behind the placeholder
before which as many blocks are opened as closed, and fails when there is none. -/
theorem areaEnd_ending (htoolkit : s.toolkit? = some (Toolkit.ofDelimiters t)) (hopening : t.opening ≠ "")
    (hd : r.document.WellFormed) (hcloser : closer ∉ openers) (hignore : closer ≠ "Ignore") : ∃ result r',
      (s.areaEnd openers closer).on r = (result, r') ∧
      (match ending? openers closer 0 (counted closer (signsBehind t r s.node)) with
        | none => result = .error (.structure (.noClosing s.command.name closer))
        | some k => ∃ c, result = .ok c ∧
          r'.document.Numbered t (r'.document.nodesBehind s.node) (payloadsBehind t r s.node) k c) ∧
      (∀ j, (∀ k ∈ ending? openers closer 0 (counted closer (signsBehind t r s.node)), j ≤ k) →
        (Nesting.behind openers closer ((signsBehind t r s.node).take j)).depth +
            closed closer (counted closer ((signsBehind t r s.node).take j)) =
          opened openers (counted closer ((signsBehind t r s.node).take j))) ∧
      r'.model = r.model ∧ r'.aliases = r.aliases ∧ r.document.CutUp t r'.document := by
  have hdepth := depth_behind (t := t) (r := r) hcloser hignore s.node
  have hclosing := closing?_behind (t := t) (r := r) hcloser hignore s.node
  by_cases hid : r.document.node? s.node = none
  · have hpayloads : payloadsBehind t r s.node = [] := by rw [payloadsBehind, Document.nodesBehind_unknown hid]; rfl
    rw [hpayloads, Nesting.closing?] at hclosing
    refine ⟨_, r, areaEnd_unknown htoolkit hid, ?_, hdepth, rfl, rfl, .refl t hd⟩
    rw [← hclosing]
  · obtain ⟨found?, r', hon, hfinds, hmodel, haliases, hcut⟩ := areaEnd_known htoolkit hopening hd hid openers closer
    refine ⟨_, r', hon, ?_, hdepth, hmodel, haliases, hcut⟩
    rw [← hclosing]
    cases found? with
    | none => rw [show Nesting.closing? _ _ _ _ _ = none from hfinds]
    | some c =>
      obtain ⟨k, hk, hnumbered⟩ := hfinds
      rw [hk]
      exact ⟨c, rfl, hnumbered⟩

def outerCondition (node : NodeId) : Selection where
  node := node
  command := ⟨"If", [("a", .int 1)], none⟩
  toolkit? := some (Toolkit.ofDelimiters Delimiters.default)
  provider := .empty
  now := ⟨⟨0, 1⟩, .midnight⟩

def outerRun (d : Document) : RunState where
  document := d
  model := .ofData .null
  aliases := [("Wenn", ⟨"Wenn", "If", [], []⟩)]
  services := .ofTtl 0
  report := .empty
  searches := 0
  nextSerial := 1
  log := []

/-- Behind the condition there is another one under its alias, an end that does not count, a marker that
does not read as a command, the end of the inner condition and then its own. -/
def nestedConditions : Document :=
  Document.ofText 0 "$\x7bIf a:1\x7d\n$\x7bWenn b:1\x7d $\x7bIgnore\x7d$\x7bEndIf\x7d$\x7bEndIgnore\x7d\n$\x7b?\x7d$\x7bEndIf\x7d x$\x7bEndIf\x7dy"

/-- Six markers are passed before the end of the condition. -/
theorem areaEnd_ending_nested : ∃ c r',
    ((outerCondition ⟨0, 2⟩).areaEnd ["If"] "EndIf").on (outerRun nestedConditions) = (.ok c, r') ∧
      r'.document.text? c = some "$\x7bEndIf\x7d" ∧
      (∃ ys us, r'.document.nodesBehind ⟨0, 2⟩ = ys ++ c :: us ∧ (r'.document.payloadsAt .default ys).length = 6) ∧
      r'.document.toText = nestedConditions.toText := by
  have hd : nestedConditions.WellFormed := (Document.forest_ofText 0 _).wellFormed
  obtain ⟨result, r', hon, hresult, -, -, -, hcut⟩ := areaEnd_ending (s := outerCondition ⟨0, 2⟩)
    (r := outerRun nestedConditions) rfl (by decide) hd (show "EndIf" ∉ ["If"] by decide) (by decide)
  have hending : ending? ["If"] "EndIf" 0 (counted "EndIf" (signsBehind .default (outerRun nestedConditions) ⟨0, 2⟩)) = some 6 := by
    decide +kernel
  have hpayload : (payloadsBehind .default (outerRun nestedConditions) ⟨0, 2⟩)[6]? = some "EndIf".toList := by decide +kernel
  have hlength : ((payloadsBehind .default (outerRun nestedConditions) ⟨0, 2⟩).take 6).length = 6 := by decide +kernel
  have helements : ∀ c ∈ nestedConditions.children nestedConditions.root, nestedConditions.isText c = false := by decide +kernel
  rw [show (outerCondition ⟨0, 2⟩).node = ⟨0, 2⟩ from rfl, hending] at hresult
  obtain ⟨c, rfl, ys, us, p, hsplit, hys, hp, htext, -⟩ := hresult
  obtain rfl : p = "EndIf".toList := Option.some.inj (hp.symm.trans hpayload)
  exact ⟨c, r', hon, htext, ⟨ys, us, hsplit, by rw [hys, hlength]⟩, hcut.elements helements⟩

/-- A document of two texts without paragraphs. -/
def bareTexts : Document :=
  ⟨0, #[⟨.element "doc" [], none, [⟨0, 1⟩, ⟨0, 2⟩]⟩, ⟨.text "$\x7bIf a:1\x7d", some ⟨0, 0⟩, []⟩,
    ⟨.text "x$\x7bEndIf\x7dy", some ⟨0, 0⟩, []⟩]⟩

theorem wellFormed_bareTexts : bareTexts.WellFormed := by
  apply Document.Forest.wellFormed
  let tree : Grove := .single ⟨0, 0⟩ (.element "doc" [])
    (.tree ⟨0, 1⟩ (.text "$\x7bIf a:1\x7d") .bare (.single ⟨0, 2⟩ (.text "x$\x7bEndIf\x7dy") .bare))
  have htree : bareTexts.Stands tree := by
    refine ⟨⟨_, _, _, rfl⟩, ⟨rfl, ⟨rfl, trivial, rfl, trivial, trivial⟩, trivial⟩, by decide, ?_⟩
    simp [tree, Grove.single, Grove.Proper, NodeData.IsText]
  refine ⟨⟨tree, htree, rfl⟩, fun id hid ↦ ⟨tree, htree, ?_⟩⟩
  obtain ⟨n, hn⟩ := Option.ne_none_iff_exists'.1 hid
  obtain ⟨serial, index⟩ := id
  obtain rfl : serial = 0 := Document.document_eq hn
  have hindex : index < 3 := Document.index_lt_size hn
  interval_cases index <;> decide

/-- A text that stands directly below the root is a line: cut in three, it makes three lines. -/
theorem areaEnd_ending_bareTexts : bareTexts.WellFormed ∧
    (((outerCondition ⟨0, 1⟩).areaEnd ["If"] "EndIf").on (outerRun bareTexts)).1 = .ok ⟨0, 3⟩ ∧
    bareTexts.toText = "$\x7bIf a:1\x7d\nx$\x7bEndIf\x7dy" ∧
    (((outerCondition ⟨0, 1⟩).areaEnd ["If"] "EndIf").on (outerRun bareTexts)).2.document.toText =
      "$\x7bIf a:1\x7d\nx\n$\x7bEndIf\x7d\ny" :=
  ⟨wellFormed_bareTexts, by decide +kernel, by decide +kernel, by decide +kernel⟩

end Selection

end Stencil
