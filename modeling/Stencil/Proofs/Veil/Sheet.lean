import Stencil.Proofs.Run.Galley
import Stencil.Proofs.Run.Likeness
/-!
Sheets with a marker in them that no command is carried out for, beside the same sheets with a word in its
place. The marker may stand in what the scan has passed and in what is still ahead, as often as it was copied;
whatever deletes, copies or searches through it deletes, copies or searches through the word.
-/

namespace Stencil

open Delimiters (wordsOf)

/-- A marker amid words, and a token that may stand in its place. -/
structure Veil where
  before : List Char
  payload : List Char
  token : List Char
  behind : List Char

namespace Veil

variable (V : Veil) (t : Delimiters)

def pieces : Line := wordsOf V.before ++ .marker V.payload :: wordsOf V.behind

def words : List Char := V.before ++ (V.token ++ V.behind)

/-- A veil that is read as it was written, with a token that is not blank. -/
structure Legible : Prop where
  token : Text.allBlank V.token = false
  pieces : ∀ q ∈ V.pieces, (q.content t).pieces t = [q]
  words : t.pieces V.words = [.words V.words]

/-! ### Lines -/

abbrev Lines : Line → Line → Prop := Swaps V.pieces [.words V.words]

abbrev Contents : List Content → List Content → Prop := Swaps (V.pieces.map (Piece.content t)) [.text (String.ofList V.words)]

/-- Texts with the text of the marker in the one where the token stands in the other. -/
def Texts (s s' : String) : Prop := Swaps (t.enclose V.payload) V.token s.toList s'.toList

variable {V t}

theorem Lines.contents {l l' : Line} (h : V.Lines l l') : V.Contents t (l.map (Piece.content t)) (l'.map (Piece.content t)) :=
  h.map (Piece.content t)

theorem toList_line (cs : List Content) : (Content.line cs).toList = cs.flatMap fun c ↦ c.shown.toList := by
  rw [Content.line, String.toList_join, List.flatMap_map]

theorem toList_wordsOf (s : List Char) : ((wordsOf s).map (Piece.content t)).flatMap (fun c ↦ c.shown.toList) = s := by
  cases s <;> simp [wordsOf, Piece.content, Content.shown]

theorem Contents.line {cs cs' : List Content} (h : V.Contents t cs cs') : V.Texts t (Content.line cs) (Content.line cs') := by
  rw [Texts, toList_line, toList_line]
  refine h.flatMap ?_
  have hpieces : ((V.pieces.map (Piece.content t)).flatMap fun c ↦ c.shown.toList) = V.before ++ (t.enclose V.payload ++ V.behind) := by
    rw [Veil.pieces, List.map_append, List.flatMap_append, toList_wordsOf, List.map_cons, List.flatMap_cons, toList_wordsOf]
    simp [Piece.content, Content.shown]
  have hwords : ([Content.text (String.ofList V.words)].flatMap fun c ↦ c.shown.toList) = V.before ++ (V.token ++ V.behind) := by
    simp [Content.shown, Veil.words]
  rw [hpieces, hwords]
  exact .prepend _ (.here (.refl _))

theorem Lines.line {l l' : Line} (h : V.Lines l l') : V.Texts t (Piece.line t l) (Piece.line t l') := h.contents.line

theorem Contents.pieces (hV : V.Legible t) {cs cs' : List Content} (h : V.Contents t cs cs') :
    V.Lines (cs.flatMap (Content.pieces t)) (cs'.flatMap (Content.pieces t)) := by
  refine h.flatMap ?_
  have hpieces : (V.pieces.map (Piece.content t)).flatMap (Content.pieces t) = V.pieces := by
    rw [List.flatMap_map, List.flatMap_congr hV.pieces, List.flatMap_singleton']
  have hwords : [Content.text (String.ofList V.words)].flatMap (Content.pieces t) = [.words V.words] := by
    rw [List.flatMap_singleton, Content.pieces, String.toList_ofList, hV.words]
  rw [hpieces, hwords]
  exact .single

section Blanks

variable (ht : t.Visible) (hV : V.Legible t)

include ht hV

theorem Lines.blank {l l' : Line} (h : V.Lines l l') : l.all (Piece.isBlank t) = l'.all (Piece.isBlank t) := by
  refine h.all_eq ?_
  have hwords : Text.allBlank V.words = false := by
    have htoken := hV.token
    rw [Text.allBlank] at htoken ⊢
    rw [Veil.words, List.all_append, List.all_append, htoken, Bool.false_and, Bool.and_false]
  rw [Veil.pieces, List.all_append, List.all_cons, Piece.isBlank_marker ht, Bool.false_and, Bool.and_false, List.all_cons,
    Piece.isBlank_words, hwords, Bool.false_and]

theorem Contents.blank {cs cs' : List Content} (h : V.Contents t cs cs') : cs.all Content.isBlank = cs'.all Content.isBlank := by
  have hall : ∀ cs : List Content, cs.all Content.isBlank = (cs.flatMap (Content.pieces t)).all (Piece.isBlank t) := fun cs ↦ by
    rw [List.all_flatMap]
    exact congrArg _ (funext fun c ↦ Content.isBlank_eq ht c)
  rw [hall, hall, (h.pieces hV).blank ht hV]

theorem Lines.kept {l l' : Line} (h : V.Lines l l') : List.Forall₂ V.Lines (Piece.kept t l) (Piece.kept t l') := by
  rw [Piece.kept, Piece.kept, h.blank ht hV]
  split
  · exact .nil
  · exact .cons h .nil

end Blanks

/-! ### Sheets -/

variable (V t) in
inductive Sheets : Sheet → Sheet → Prop where
  | within {above above' : List String} {left left' : List Content} {right right' : Line} {below below' : List Line} :
      List.Forall₂ (V.Texts t) above above' → V.Contents t left left' → V.Lines right right' → List.Forall₂ V.Lines below below' →
      Sheets (.within above left right below) (.within above' left' right' below')
  | between {above above' : List String} {below below' : List Line} : List.Forall₂ (V.Texts t) above above' →
      List.Forall₂ V.Lines below below' → Sheets (.between above below) (.between above' below')
  | halted {lines lines' : List String} : List.Forall₂ (V.Texts t) lines lines' → Sheets (.halted lines) (.halted lines')

variable (V t) in
structure Gaps (g g' : Gap) : Prop where
  above : List.Forall₂ (V.Texts t) g.above g'.above
  left : V.Contents t g.left g'.left
  payload : g.payload = g'.payload
  right : V.Lines g.right g'.right
  below : List.Forall₂ V.Lines g.below g'.below

variable (V) in
inductive Reaches : Reach → Reach → Prop where
  | here {mid mid' rest rest' : Line} : V.Lines mid mid' → V.Lines rest rest' → Reaches (.here mid rest) (.here mid' rest')
  | there {first first' front front' rest rest' : Line} {mid mid' below below' : List Line} : V.Lines first first' →
      List.Forall₂ V.Lines mid mid' → V.Lines front front' → V.Lines rest rest' → List.Forall₂ V.Lines below below' →
      Reaches (.there first mid front rest below) (.there first' mid' front' rest' below')

theorem lines_line {ls ls' : List Line} (h : List.Forall₂ V.Lines ls ls') :
    List.Forall₂ (V.Texts t) (ls.map (Piece.line t)) (ls'.map (Piece.line t)) := List.rel_map (fun _ _ h ↦ h.line) h

theorem Sheets.lines {S S' : Sheet} (h : V.Sheets t S S') : List.Forall₂ (V.Texts t) (S.lines t) (S'.lines t) := by
  cases h with
  | within habove hleft hright hbelow =>
    exact List.rel_append habove (.cons (Contents.line (hleft.append hright.contents)) (lines_line hbelow))
  | between habove hbelow => exact List.rel_append habove (lines_line hbelow)
  | halted hlines => exact hlines

namespace Gaps

variable {g g' : Gap} (h : V.Gaps t g g')

include h

theorem passed (c : Content) : V.Sheets t (g.passed c) (g'.passed c) :=
  .within h.above (h.left.append (.refl _)) h.right h.below

variable (ht : t.Visible) (hV : V.Legible t)

include ht hV

theorem removed : V.Sheets t (g.removed t) (g'.removed t) := by
  rw [Gap.removed, Gap.removed, h.left.blank ht hV, h.right.blank ht hV]
  split
  · exact .between h.above h.below
  · exact .within h.above h.left h.right h.below

theorem merged (ls : List Line) : V.Sheets t (g.merged t ls) (g'.merged t ls) := by
  rw [Gap.merged, Gap.merged]
  split
  · exact h.removed ht hV
  · have hline : V.Lines (g.left.flatMap (Content.pieces t) ++ g.right) (g'.left.flatMap (Content.pieces t) ++ g'.right) :=
      (h.left.pieces hV).append h.right
    exact .between h.above (List.rel_append (List.forall₂_same.2 fun _ _ ↦ .refl _) (List.rel_append (hline.kept ht hV) h.below))

theorem opened {R R' : Reach} (hR : V.Reaches R R') : V.Sheets t (g.opened t R) (g'.opened t R') := by
  cases hR with
  | here hmid hrest => exact removed ⟨h.above, h.left, h.payload, hmid.append hrest, h.below⟩ ht hV
  | there hfirst hmid hfront hrest hbelow =>
    exact removed ⟨h.above, h.left, h.payload, hfirst, List.rel_append hmid (List.rel_append (Lines.kept ht hV (hfront.append hrest)) hbelow)⟩ ht hV

theorem skipped {R? R'? : Option Reach} (hR : Option.Rel V.Reaches R? R'?) : V.Sheets t (g.skipped t R?) (g'.skipped t R'?) := by
  cases hR with
  | none => exact .halted (h.removed ht hV).lines
  | some hR =>
    cases hR with
    | @here mid mid' rest rest' hmid hrest =>
      have hleft : V.Contents t (g.left ++ mid.map (Piece.content t)) (g'.left ++ mid'.map (Piece.content t)) := h.left.append hmid.contents
      rw [Gap.skipped, Gap.skipped]
      rw [hleft.blank ht hV, hrest.blank ht hV, hrest.isEmpty_eq (by simp [Veil.pieces]) (by simp)]
      split
      · split
        · exact .between h.above h.below
        · exact .halted (List.rel_append h.above (lines_line h.below))
      · exact .within h.above hleft hrest h.below
    | @there first first' front front' rest rest' mid mid' below below' hfirst hmid hfront hrest hbelow =>
      have hopener : V.Contents t (g.left ++ first.map (Piece.content t)) (g'.left ++ first'.map (Piece.content t)) :=
        h.left.append hfirst.contents
      rw [Gap.skipped, Gap.skipped]
      rw [hopener.blank ht hV, hfront.blank ht hV, hrest.blank ht hV]
      have habove : List.Forall₂ (V.Texts t)
          (g.above ++ (if (g'.left ++ first'.map (Piece.content t)).all Content.isBlank then [] else
            [Content.line (g.left ++ first.map (Piece.content t))]) ++ mid.map (Piece.line t))
          (g'.above ++ (if (g'.left ++ first'.map (Piece.content t)).all Content.isBlank then [] else
            [Content.line (g'.left ++ first'.map (Piece.content t))]) ++ mid'.map (Piece.line t)) := by
        refine List.rel_append (List.rel_append h.above ?_) (lines_line hmid)
        split
        · exact .nil
        · exact .cons hopener.line .nil
      split
      · exact .between habove hbelow
      · exact .within habove hfront.contents hrest hbelow

omit ht hV in
theorem replicated (markers : List (Line × Line)) {R R' : Reach} (hR : V.Reaches R R') :
    V.Sheets t (g.replicated markers R) (g'.replicated markers R') := by
  cases hR with
  | @here mid mid' rest rest' hmid hrest =>
    have hcopies : V.Lines (markers.flatMap (fun m ↦ m.1 ++ (mid ++ m.2))) (markers.flatMap (fun m ↦ m.1 ++ (mid' ++ m.2))) :=
      .flatMap_of (fun m ↦ .prepend m.1 (hmid.append (.refl m.2))) markers
    exact .within h.above h.left (hcopies.append hrest) h.below
  | @there first first' front front' rest rest' mid mid' below below' hfirst hmid hfront hrest hbelow =>
    have hcopies : List.Forall₂ V.Lines (markers.flatMap fun m ↦ (m.1 ++ first) :: (mid ++ [front ++ m.2]))
        (markers.flatMap fun m ↦ (m.1 ++ first') :: (mid' ++ [front' ++ m.2])) := by
      refine List.rel_flatMap (List.forall₂_same.2 fun m _ ↦ rfl) ?_
      rintro m _ rfl
      exact .cons (.prepend m.1 hfirst) (List.rel_append hmid (.cons (hfront.append (.refl m.2)) .nil))
    have hleft : List.Forall₂ (V.Texts t) ((Sheet.part g.left).map Content.line) ((Sheet.part g'.left).map Content.line) := by
      rw [Sheet.part, Sheet.part, h.left.isEmpty_eq (by simp [Veil.pieces]) (by simp)]
      split
      · exact .nil
      · exact .cons h.left.line .nil
    have hrest : List.Forall₂ V.Lines (Sheet.part rest) (Sheet.part rest') := by
      rw [Sheet.part, Sheet.part, hrest.isEmpty_eq (by simp [Veil.pieces]) (by simp)]
      split
      · exact .nil
      · exact .cons hrest .nil
    exact .between (List.rel_append h.above hleft) (List.rel_append hcopies (List.rel_append hrest hbelow))

end Gaps

end Veil

end Stencil
