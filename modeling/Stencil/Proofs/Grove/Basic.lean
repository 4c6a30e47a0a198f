import Stencil.Document.Basic
import Mathlib.Tactic
/-!
Trees as values, and places in them. A grove is trees next to one another. A place in one is given
by its frames: the nodes above it, the nearest first, each with the trees on both sides of the way
down. What stands before a place in document order is what its frames have on the left, and what
stands behind it what they have on the right.
-/

namespace Stencil

/-- Trees next to one another: the first one's topmost node, what is below it, and the others. -/
inductive Grove where
  | bare
  | tree (id : NodeId) (data : NodeData) (below rest : Grove)

namespace Grove

def append : Grove → Grove → Grove
  | bare, g => g
  | tree id data below rest, g => tree id data below (append rest g)

instance : Append Grove := ⟨append⟩

def single (id : NodeId) (data : NodeData) (below : Grove) : Grove := tree id data below bare

def tops : Grove → List NodeId
  | bare => []
  | tree id _ _ rest => id :: tops rest

def order : Grove → List NodeId
  | bare => []
  | tree id _ below rest => id :: (order below ++ order rest)

variable (f g h : Grove)

@[simp] theorem bare_append : bare ++ g = g := rfl

@[simp] theorem tree_append (id : NodeId) (data : NodeData) (below rest : Grove) :
    tree id data below rest ++ g = tree id data below (rest ++ g) := rfl

@[simp] theorem append_bare : g ++ bare = g := by
  induction g with
  | bare => rfl
  | tree id data below rest _ ih => rw [tree_append, ih]

theorem append_assoc : f ++ g ++ h = f ++ (g ++ h) := by
  induction f with
  | bare => rfl
  | tree id data below rest _ ih => rw [tree_append, tree_append, ih, tree_append]

@[simp] theorem tops_append : (f ++ g).tops = f.tops ++ g.tops := by
  induction f with
  | bare => rfl
  | tree id data below rest _ ih => rw [tree_append, tops, ih, tops, List.cons_append]

@[simp] theorem order_append : (f ++ g).order = f.order ++ g.order := by
  induction f with
  | bare => rfl
  | tree id data below rest _ ih => rw [tree_append, order, ih, order, List.cons_append, List.append_assoc]

@[simp] theorem tops_bare : bare.tops = [] := rfl

@[simp] theorem order_bare : bare.order = [] := rfl

@[simp] theorem tops_single (id : NodeId) (data : NodeData) : (single id data g).tops = [id] := rfl

@[simp] theorem order_single (id : NodeId) (data : NodeData) : (single id data g).order = id :: g.order := by
  rw [single, order, order_bare, List.append_nil]

theorem tree_eq (id : NodeId) (data : NodeData) : tree id data f g = single id data f ++ g := rfl

theorem tops_sublist : g.tops.Sublist g.order := by
  induction g with
  | bare => exact .slnil
  | tree id data below rest _ ih => exact (ih.trans (List.sublist_append_right ..)).cons_cons id

theorem eq_bare_of_tops {g : Grove} (h : g.tops = []) : g = bare := by
  cases g with
  | bare => rfl
  | tree => simp [tops] at h

/-! ### Places -/

/-- A node above a place, with the trees left and right of the way down. -/
structure Frame where
  id : NodeId
  data : NodeData
  left : Grove
  right : Grove

def plug : List Frame → Grove → Grove
  | [], g => g
  | f :: fs, g => plug fs (single f.id f.data (f.left ++ g ++ f.right))

/-- The nodes above a place, the nearest first. -/
abbrev chain (fs : List Frame) : List NodeId := fs.map Frame.id

def before : List Frame → List NodeId
  | [] => []
  | f :: fs => before fs ++ f.id :: f.left.order

def behind : List Frame → List NodeId
  | [] => []
  | f :: fs => f.right.order ++ behind fs

variable {g}

@[simp] theorem chain_nil : chain [] = [] := rfl

@[simp] theorem chain_cons (f : Frame) (fs : List Frame) : chain (f :: fs) = f.id :: chain fs := rfl

@[simp] theorem plug_nil : plug [] g = g := rfl

theorem plug_cons (f : Frame) (fs : List Frame) :
    plug (f :: fs) g = plug fs (single f.id f.data (f.left ++ g ++ f.right)) := rfl

theorem plug_append (fs fs' : List Frame) : plug (fs ++ fs') g = plug fs' (plug fs g) := by
  induction fs generalizing g with
  | nil => rfl
  | cons f fs ih => rw [List.cons_append, plug_cons, ih, plug_cons]

theorem before_append (fs fs' : List Frame) : before (fs ++ fs') = before fs' ++ before fs := by
  induction fs with
  | nil => simp [before]
  | cons f fs ih => rw [List.cons_append, before, before, ih, List.append_assoc]

theorem behind_append (fs fs' : List Frame) : behind (fs ++ fs') = behind fs ++ behind fs' := by
  induction fs with
  | nil => rfl
  | cons f fs ih => rw [List.cons_append, behind, behind, ih, List.append_assoc]

theorem order_plug (fs : List Frame) : (plug fs g).order = before fs ++ g.order ++ behind fs := by
  induction fs generalizing g with
  | nil => simp [before, behind]
  | cons f fs ih =>
    rw [plug_cons, ih, order_single, order_append, order_append, before, behind]
    simp only [List.append_assoc, List.cons_append]

theorem tops_plug_cons (f : Frame) (fs : List Frame) : (plug (f :: fs) g).tops = [((f :: fs).getLast (by simp)).id] := by
  induction fs generalizing f g with
  | nil => rfl
  | cons f' fs ih =>
    rw [plug_cons, ih]
    simp

theorem chain_subset_before (fs : List Frame) : ∀ id ∈ chain fs, id ∈ before fs := by
  intro id hid
  induction fs with
  | nil => simp at hid
  | cons f fs ih =>
    rw [before]
    rcases List.mem_cons.1 hid with rfl | hid
    · exact List.mem_append_right _ (List.mem_cons_self ..)
    · exact List.mem_append_left _ (ih hid)

theorem chain_subset_order {id z : NodeId} {data : NodeData} {sub : Grove} {fs : List Frame} (h : id ∈ z :: chain fs) :
    id ∈ (plug fs (single z data sub)).order := by
  rw [order_plug, order_single]
  rcases List.mem_cons.1 h with rfl | h
  · simp
  · exact List.mem_append_left _ (List.mem_append_left _ (chain_subset_before fs id h))

theorem nodup_chain {fs : List Frame} (h : (before fs).Nodup) : (chain fs).Nodup := by
  induction fs with
  | nil => exact List.nodup_nil
  | cons f fs ih =>
    rw [before, List.nodup_append] at h
    obtain ⟨hbefore, _, hdisjoint⟩ := h
    refine List.nodup_cons.2 ⟨fun hin ↦ ?_, ih hbefore⟩
    exact hdisjoint _ (chain_subset_before fs _ hin) _ (List.mem_cons_self ..) rfl

/-- Every node of a grove stands at a place in one of its trees. -/
theorem exists_place {id : NodeId} : ∀ {g : Grove}, id ∈ g.order → ∃ (left right below : Grove) (data : NodeData)
    (fs : List Frame), g = left ++ plug fs (single id data below) ++ right
  | tree i data below rest, h => by
    rcases List.mem_cons.1 h with rfl | h
    · exact ⟨bare, rest, below, data, [], rfl⟩
    rcases List.mem_append.1 h with h | h
    · obtain ⟨left, right, below', data', fs, rfl⟩ := exists_place h
      refine ⟨bare, rest, below', data', fs ++ [⟨i, data, left, right⟩], ?_⟩
      rw [plug_append]
      rfl
    · obtain ⟨left, right, below', data', fs, rfl⟩ := exists_place h
      exact ⟨single i data below ++ left, right, below', data', fs, by rw [tree_eq, append_assoc, append_assoc, append_assoc]⟩

theorem tops_plug_single (fs : List Frame) (id : NodeId) (data : NodeData) (below : Grove) :
    (plug fs (single id data below)).tops.length = 1 := by
  cases fs with
  | nil => rfl
  | cons f fs => rw [tops_plug_cons]; rfl

theorem exists_single_plug (fs : List Frame) (id : NodeId) (data : NodeData) (below : Grove) :
    ∃ top topData sub, plug fs (single id data below) = single top topData sub := by
  induction fs generalizing id data below with
  | nil => exact ⟨id, data, below, rfl⟩
  | cons f fs ih => exact ih ..

theorem exists_place_single {id top : NodeId} {topData : NodeData} {below : Grove}
    (h : id ∈ (single top topData below).order) : ∃ (below' : Grove) (data : NodeData) (fs : List Frame),
      single top topData below = plug fs (single id data below') := by
  obtain ⟨left, right, below', data, fs, heq⟩ := exists_place h
  have hlength := congrArg (fun g ↦ g.tops.length) heq
  simp only [tops_append, List.length_append, tops_plug_single, tops_single, List.length_singleton] at hlength
  obtain rfl : left = bare := eq_bare_of_tops (List.eq_nil_of_length_eq_zero (by omega))
  obtain rfl : right = bare := eq_bare_of_tops (List.eq_nil_of_length_eq_zero (by omega))
  exact ⟨below', data, fs, by rw [heq, bare_append, append_bare]⟩

/-- What stands behind a place stands right of the way down at some level. -/
theorem exists_of_mem_behind {id : NodeId} : ∀ {fs : List Frame}, id ∈ behind fs →
    ∃ (inner outer : List Frame) (f : Frame), fs = inner ++ f :: outer ∧ id ∈ f.right.order
  | f :: fs, h => by
    rcases List.mem_append.1 h with h | h
    · exact ⟨[], fs, f, rfl, h⟩
    · obtain ⟨inner, outer, f', rfl, hid⟩ := exists_of_mem_behind h
      exact ⟨f :: inner, outer, f', rfl, hid⟩

end Grove

end Stencil
