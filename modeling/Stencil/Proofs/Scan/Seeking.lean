import Stencil.Proofs.Grove.Slices
import Stencil.Proofs.Scan.Visits
/-!
Searches without bounds. What a search does step by step: a text is cut at its first marker, however
many opening delimiters have to be tried; the nodes behind a node are found by climbing, however deep
the tree is; and node after node is looked at, however many there are. In a well-formed document each
of these comes to an end, with what the bounded search gives.
-/

namespace Stencil

open Grove

namespace Delimiters

/-- How text is cut at its first marker: an opening delimiter without a closing one is passed by. -/
inductive Cuts (t : Delimiters) : List Char → Option Payload.Cut → Prop where
  | absent {s : List Char} : Text.breakOn? t.opening.toList s = none → Cuts t s none
  | closed {s a r p b : List Char} : Text.breakOn? t.opening.toList s = some (a, r) →
      Payload.close t.closing.toList .outside 0 r = some (p, b) → Cuts t s (some ⟨a, p, b⟩)
  | unclosed {s a r : List Char} {c? : Option Payload.Cut} : Text.breakOn? t.opening.toList s = some (a, r) →
      Payload.close t.closing.toList .outside 0 r = none → Cuts t r c? →
      Cuts t s (c?.map fun c ↦ { c with before := a ++ t.opening.toList ++ c.before })

/-- Each opening delimiter that is passed by leaves less text. -/
theorem cuts {t : Delimiters} (hopening : t.opening.toList ≠ []) (s : List Char) : t.Cuts s (t.cut? s) := by
  induction hn : s.length using Nat.strong_induction_on generalizing s with
  | _ n ih =>
    cases hbreak : Text.breakOn? t.opening.toList s with
    | none =>
      rw [cut?_of_break_none hbreak]
      exact .absent hbreak
    | some ar =>
      obtain ⟨a, r⟩ := ar
      rw [cut?_of_break hopening hbreak]
      cases hclose : Payload.close t.closing.toList .outside 0 r with
      | some pb => exact .closed hbreak hclose
      | none =>
        have hlen := congrArg List.length (Text.eq_append_of_breakOn? hbreak)
        have hpos := List.length_pos_iff.2 hopening
        simp only [List.length_append] at hlen
        exact .unclosed hbreak hclose (ih r.length (by omega) r rfl)

end Delimiters

namespace Document

variable {t : Delimiters} {d e : Document} {id x m : NodeId} {T : Grove}

/-- A node is in the tree: its chain of parents leads to the root. -/
def Attached (d : Document) (id : NodeId) : Prop := Relation.ReflTransGen d.Climbs id d.root

theorem Forest.attached_iff_mem (hd : d.Forest) (hT : d.Stands T) (htops : T.tops = [d.root]) : d.Attached id ↔ id ∈ T.order := by
  have hroot : d.root ∈ T.order := T.tops_sublist.subset (by rw [htops]; exact List.mem_singleton_self _)
  refine ⟨hd.wellFormed.mem_order_of_climbs hT.holds hroot, fun hid ↦ ?_⟩
  obtain ⟨top, htop, hclimb⟩ := WellFormed.exists_climbs hT.holds id hid
  rw [htops, List.mem_singleton] at htop
  rw [Attached, ← htop]
  exact hclimb

theorem Forest.attached_iff (hd : d.Forest) : d.Attached id ↔ d.isAttached id = true := by
  obtain ⟨T, hT, htops, horder⟩ := hd.exists_root
  rw [hd.isAttached_iff_mem, horder, hd.attached_iff_mem hT htops]

/-- The node behind a node and all below it: its next sibling, else the node behind its parent, as far up
as it takes. -/
inductive Succeeds (d : Document) : NodeId → Option NodeId → Prop where
  | sibling {id next : NodeId} : d.nextSibling? id = some next → Succeeds d id (some next)
  | parent {id p : NodeId} {next? : Option NodeId} : d.nextSibling? id = none → d.parent? id = some p → Succeeds d p next? →
      Succeeds d id next?
  | top {id : NodeId} : d.nextSibling? id = none → d.parent? id = none → Succeeds d id none

theorem Forest.succeeds (hd : d.Forest) (id : NodeId) : d.Succeeds id (d.nextAfter? id) := by
  by_cases hid : d.node? id = none
  · have hparent := parent?_unknown hid
    have hsibling : d.nextSibling? id = none := by rw [nextSibling?, hparent]; rfl
    rw [nextAfter?, ancestors_unknown hid, List.findSome?_cons, hsibling]
    exact .top hsibling hparent
  · obtain ⟨sub, data, fs, hplace⟩ := hd.exists_place hid
    rw [nextAfter?, hplace.ancestors]
    -- the way up is as long as there are frames
    clear hid
    induction fs generalizing id data sub with
    | nil =>
      have hsibling : d.nextSibling? id = none := by rw [hplace.nextSibling?]; rfl
      rw [chain_nil, List.findSome?_cons, hsibling]
      exact .top hsibling hplace.parent?
    | cons f fs ih =>
      have hup : d.Stands (plug fs (.single f.id f.data (f.left ++ .single id data sub ++ f.right))) := hplace
      rw [List.findSome?_cons]
      cases hsibling : d.nextSibling? id with
      | some next => exact .sibling hsibling
      | none => exact .parent hsibling hplace.parent? (ih f.id _ _ hup)

/-- The next node in document order: the first child, else the node behind. -/
inductive Follows (d : Document) (id : NodeId) : Option NodeId → Prop where
  | child {next : NodeId} : d.firstChild? id = some next → Follows d id (some next)
  | behind {next? : Option NodeId} : d.firstChild? id = none → d.Succeeds id next? → Follows d id next?

theorem Forest.follows (hd : d.Forest) (id : NodeId) : d.Follows id (d.nextInOrder? id) := by
  rw [nextInOrder?]
  cases hchild : d.firstChild? id with
  | some next => exact .child hchild
  | none => exact .behind hchild (hd.succeeds id)

/-- A search from a node on: node after node is looked at, until one has a marker or none follows. -/
inductive Seeks (t : Delimiters) (d : Document) : NodeId → Search → Prop where
  | here {id : NodeId} : (d.isolate t id).result ≠ .ok none → Seeks t d id (d.isolate t id)
  | onward {id next : NodeId} {s : Search} : (d.isolate t id).result = .ok none → d.Follows id (some next) → Seeks t d next s →
      Seeks t d id s
  | last {id : NodeId} : (d.isolate t id).result = .ok none → d.Follows id none → Seeks t d id (d.isolate t id)

theorem Stands.seeks_searchFrom (t : Delimiters) (hd : d.Forest) (hT : d.Stands T) (n : ℕ) : ∀ {xs zs : List NodeId} {x : NodeId},
    T.order = xs ++ x :: zs → zs.length < n → Seeks t d x (d.searchFrom t n x) := by
  induction n with
  | zero => exact fun _ hn ↦ absurd hn (Nat.not_lt_zero _)
  | succ n ih =>
    intro xs zs x horder hn
    have hfollows := hd.follows x
    rw [hT.nextInOrder?_eq horder] at hfollows
    rw [Document.searchFrom, hT.nextInOrder?_eq horder]
    by_cases hnone : (d.isolate t x).result = .ok none
    · cases zs with
      | nil =>
        simp only [hnone, List.head?_nil]
        exact .last hnone hfollows
      | cons z zs =>
        simp only [hnone, List.head?_cons]
        have hlength : zs.length < n := by simpa using hn
        have hbehind : T.order = (xs ++ [x]) ++ z :: zs := by simpa using horder
        exact .onward hnone hfollows (ih hbehind hlength)
    · split
      · next h => exact absurd h hnone
      · exact .here hnone

/-- A search from a node of the tree comes to an end, with what the bounded search gives. -/
theorem Forest.seeks (t : Delimiters) (hd : d.Forest) (hid : d.Attached id) : Seeks t d id (d.search t id) := by
  obtain ⟨T, hT, htops, -⟩ := hd.exists_root
  obtain ⟨xs, zs, horder⟩ := List.append_of_mem ((hd.attached_iff_mem hT htops).1 hid)
  have hsize := hT.order_length
  rw [horder, List.length_append, List.length_cons] at hsize
  exact hT.seeks_searchFrom t hd _ horder (by omega)

/-! ### What a search finds in the tree -/

/-- No text comes behind a node without a parent. -/
theorem addTextAfter_top (hid : d.node? id ≠ none) (hparent : d.parent? id = none) (s : String) :
    (d.addTextAfter id s).2 = .error (.detached id) := by
  obtain ⟨n, hn⟩ := Option.ne_none_iff_exists'.1 hid
  have hcreated : (d.create (.text s)).2.node? id = some n := by rw [node?_create, if_neg (ne_fresh hn), hn]
  have hrefused : (d.create (.text s)).2.insertAfter id d.fresh = .error (.detached id) := by
    rw [insertAfter, insertBeside, check_ok hcreated, parent?_of_node hcreated, ← parent?_of_node hn, hparent]
    rfl
  simp only [addTextAfter, createText, create_fst, hrefused]

theorem splitAround_top (before marker after : String) (hid : d.node? id ≠ none) (hparent : d.parent? id = none)
    (hsplit : (before.isEmpty && after.isEmpty) = false) :
    (d.splitAround id before marker after).2 = .error (.detached id) := by
  have hput : ∀ s : String, (d.putText id s).node? id ≠ none ∧ (d.putText id s).parent? id = none := fun s ↦ by
    refine ⟨by rw [putText, node?_modify_self]; simpa using hid, (parent?_modify ?_ id).trans hparent⟩
    exact fun _ ↦ rfl
  rw [splitAround]
  cases hbefore : before.isEmpty with
  | false =>
    have hrefused := addTextAfter_top (hput before).1 (hput before).2 marker
    rcases hadd : (d.putText id before).addTextAfter id marker with ⟨e, x | m⟩ <;> rw [hadd] at hrefused <;> cases hrefused
    simp only [Bool.false_eq_true, if_false]
  | true =>
    have hafter : after.isEmpty = false := by simpa [hbefore] using hsplit
    have hrefused := addTextAfter_top (hput marker).1 (hput marker).2 after
    simp only [if_true, hafter, Bool.false_eq_true, if_false, hrefused]
    rfl

/-- A node without a parent is not split: it is found when it is one marker from end to end. -/
theorem isolate_top (hparent : d.parent? id = none) (h : (d.isolate t id).result = .ok (some m)) :
    m = id ∧ (d.isolate t id).document = d := by
  rw [isolate] at h ⊢
  cases hcut : (d.text? id).bind fun s ↦ t.cut? s.toList with
  | none =>
    rw [hcut] at h
    cases h
  | some c =>
    rw [hcut] at h
    dsimp only at h ⊢
    split at h
    · next hone =>
      rw [if_pos hone]
      exact ⟨(Option.some.inj (Except.ok.inj h)).symm, rfl⟩
    · next hone =>
      exfalso
      obtain ⟨s, hs, -⟩ := Option.bind_eq_some_iff.1 hcut
      have hid : d.node? id ≠ none := fun hnone ↦ by simp [text?, data?, hnone] at hs
      have hempty : ∀ u : List Char, (String.ofList u).isEmpty = u.isEmpty := fun u ↦ by
        cases u <;> simp [String.isEmpty_iff]
      have hrefused := splitAround_top (String.ofList c.before) (String.ofList (t.enclose c.payload))
        (String.ofList c.after) hid hparent (by rw [hempty, hempty]; simpa using hone)
      simp only [hrefused] at h
      cases h

theorem isolate_of_none (h : (d.isolate t id).result = .ok none) : (d.isolate t id).document = d := by
  rw [isolate] at h ⊢
  cases hcut : (d.text? id).bind fun s ↦ t.cut? s.toList with
  | none => rfl
  | some c =>
    rw [hcut] at h
    dsimp only at h ⊢
    split at h
    · cases h
    · exfalso
      rcases hsplit : d.splitAround id (String.ofList c.before) (String.ofList (t.enclose c.payload)) (String.ofList c.after)
        with ⟨f, x | place⟩ <;>
      · rw [hsplit] at h
        cases h

/-- A search from a node of the tree finds a node of the tree that it leaves. -/
theorem Forest.search_attached {found? : Option NodeId} (hd : d.Forest) (hid : d.Attached id)
    (h : (d.search t id).result = .ok found?) :
    (d.search t id).document.Forest ∧ ∀ m ∈ found?, (d.search t id).document.Attached m := by
  obtain ⟨T, hT, htops, -⟩ := hd.exists_root
  have hin := (hd.attached_iff_mem hT htops).1 hid
  -- below the root
  have hbelow : ∀ {xs zs : List NodeId} {x : NodeId} {n : ℕ}, T.order = xs ++ x :: zs → xs ≠ [] →
      (d.searchFrom t n x).result = .ok found? →
        (d.searchFrom t n x).document.Forest ∧ ∀ m ∈ found?, (d.searchFrom t n x).document.Attached m := by
    intro xs zs x n horder hxs hresult
    obtain ⟨e, split?, found?', T', zs', hsearch, hsearched, hfound, -⟩ := Stands.searchFrom t n hd hT horder hxs
    rw [hsearch] at hresult ⊢
    obtain rfl : found?' = found? := Except.ok.inj hresult
    refine ⟨hsearched.forest, fun m hm ↦ ?_⟩
    have htops' : T'.tops = [e.root] := by rw [tops_sliced hsearched.sliced, htops, hsearched.toGrows.root]
    rw [hsearched.forest.attached_iff_mem hsearched.stands htops', hsearched.order]
    exact List.mem_append_right _ (hfound m hm).mem
  obtain ⟨xs, zs, horder⟩ := List.append_of_mem hin
  by_cases hxs : xs = []
  · -- at the root
    subst hxs
    obtain ⟨top, data, sub, rfl⟩ := hT.single
    obtain rfl : top = d.root := (List.cons.inj htops).1
    rw [order_single] at horder
    obtain ⟨rfl, rfl⟩ := List.cons.inj horder
    have hroot : (single d.root data sub).order = [] ++ d.root :: sub.order := by rw [order_single, List.nil_append]
    have hnext := hT.nextInOrder?_eq hroot
    rw [search, Document.searchFrom] at h ⊢
    split at h
    · next hnone =>
      split at h
      · next hlast =>
        rw [hnone] at h
        obtain rfl := Except.ok.inj h
        rw [isolate_of_none hnone]
        exact ⟨hd, by simp⟩
      · next next hfirst =>
        obtain ⟨zs, hzs⟩ : ∃ zs, sub.order = next :: zs := by
          cases hsub : sub.order with
          | nil => simp [hnext, hsub] at hfirst
          | cons z zs => exact ⟨zs, by simpa [hnext, hsub] using hfirst⟩
        have hbehind : (single d.root data sub).order = [d.root] ++ next :: zs := by rw [order_single, hzs, List.singleton_append]
        exact hbelow hbehind (by simp) h
    · next hfound =>
      cases found? with
      | none => exact absurd h hfound
      | some m =>
        obtain ⟨rfl, hdocument⟩ := isolate_top hd.wellFormed.topmost h
        rw [hdocument]
        exact ⟨hd, fun m hm ↦ Option.some.inj hm ▸ hid⟩
  · exact hbelow horder hxs h

end Document

end Stencil
