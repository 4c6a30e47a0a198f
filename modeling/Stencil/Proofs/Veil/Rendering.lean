import Stencil.Proofs.Inclusion.Rendering
import Stencil.Proofs.Run.Fair
import Stencil.Proofs.Veil.Sheet
/-!
Markers that are left alone. Where commands that are not known are ignored, a marker with one among its commands is
no more to a run than a word in its place would be, but for being counted; unless the search for the end of a block
takes notice of it, which goes by the first of its commands alone.

A scan of a sheet with such a marker meets it, counts it as ignored and goes on; for the rest it takes the same turns
as the scan of the sheet with a word in its place.
-/

namespace Stencil

open Delimiters (wordsOf)
open Selection (Nesting)

variable {t : Delimiters} {V : Veil}

theorem Piece.isMarker_wordsOf {s : List Char} : ∀ q ∈ wordsOf s, q.isMarker = false := by
  intro q hq
  rw [wordsOf] at hq
  split at hq
  · cases hq
  · rw [List.mem_singleton.1 hq]
    rfl

/-! ### Searches -/

namespace Reach

variable {as : Aliases} {openers : List String} {closer : String} {n n' : Nesting}

theorem alongLine_cons {q : Piece} (h : alongLine as openers closer n [q] = .inr n') (l : Line) :
    alongLine as openers closer n (q :: l) = (alongLine as openers closer n' l).map (Prod.map (q :: ·) id) id := by
  cases q with
  | words s =>
    obtain rfl := Sum.inr.inj h
    rw [alongLine]
    · rcases alongLine as openers closer n l with ⟨_, _⟩ | _ <;> rfl
    · rintro _ ⟨⟩
  | image attrs =>
    obtain rfl := Sum.inr.inj h
    rw [alongLine]
    · rcases alongLine as openers closer n l with ⟨_, _⟩ | _ <;> rfl
    · rintro _ ⟨⟩
  | marker p =>
    rw [alongLine] at h ⊢
    split at h
    · cases h
    · next hcloses =>
      obtain rfl := Sum.inr.inj h
      rw [if_neg hcloses]
      rcases alongLine as openers closer (n.pass openers closer (as.nameOf? p)) l with ⟨_, _⟩ | _ <;> rfl

/-- Where a search along a line ends: at the same marker of both, or behind them, as deep. -/
inductive Parts (V : Veil) : (Line × Line) ⊕ Nesting → (Line × Line) ⊕ Nesting → Prop where
  | cut {front front' back back' : Line} : V.Lines front front' → V.Lines back back' → Parts V (.inl (front, back)) (.inl (front', back'))
  | passed (n : Nesting) : Parts V (.inr n) (.inr n)

/-- Where a search along lines ends: at the same marker of both. -/
inductive Splits (V : Veil) : List Line × Line × Line × List Line → List Line × Line × Line × List Line → Prop where
  | mk {mid mid' below below' : List Line} {front front' rest rest' : Line} : List.Forall₂ V.Lines mid mid' → V.Lines front front' →
      V.Lines rest rest' → List.Forall₂ V.Lines below below' → Splits V (mid, front, rest, below) (mid', front', rest', below')

variable (hname : ∀ name ∈ as.nameOf? V.payload, name ∉ blockNames) (hcloser : closer ∈ blockNames)
  (hopeners : ∀ opener ∈ openers, opener ∈ blockNames)

include hname hcloser hopeners

theorem alongLine_pieces (n : Nesting) (l : Line) :
    alongLine as openers closer n (V.pieces ++ l) = (alongLine as openers closer n l).map (Prod.map (V.pieces ++ ·) id) id := by
  have hmarker : alongLine as openers closer n [.marker V.payload] = .inr n := by
    rw [alongLine, if_neg (by simp [Nesting.closes_other hname hcloser]), Nesting.pass_other hname hcloser hopeners]
    rfl
  rw [Veil.pieces, List.append_assoc, List.cons_append, alongLine_append Piece.isMarker_wordsOf, alongLine_cons hmarker,
    alongLine_append Piece.isMarker_wordsOf]
  rcases alongLine as openers closer n l with ⟨_, _⟩ | _ <;> simp

theorem alongLine_veiled {l l' : Line} (h : V.Lines l l') (n : Nesting) :
    Parts V (alongLine as openers closer n l) (alongLine as openers closer n l') := by
  have hextend : ∀ {a b : Line} {c c' : (Line × Line) ⊕ Nesting}, V.Lines a b → Parts V c c' →
      Parts V (c.map (Prod.map (a ++ ·) id) id) (c'.map (Prod.map (b ++ ·) id) id) := fun hab hc ↦ by
    cases hc with
    | cut hfront hback => exact .cut (hab.append hfront) hback
    | passed n => exact .passed n
  induction h generalizing n with
  | nil => exact .passed n
  | @same q l l' h ih =>
    cases hq : alongLine as openers closer n [q] with
    | inr n' =>
      rw [alongLine_cons hq, alongLine_cons hq]
      exact hextend (.refl [q]) (ih n')
    | inl cut =>
      cases q with
      | words s => cases hq
      | image attrs => cases hq
      | marker p =>
        rw [alongLine, alongLine]
        split
        · exact .cut .nil h
        · next hcloses =>
          rw [alongLine, if_neg hcloses] at hq
          cases hq
  | @here l l' h ih =>
    rw [alongLine_pieces hname hcloser hopeners, List.singleton_append, alongLine_cons rfl]
    exact hextend .single (ih n)

theorem alongLines_veiled {ls ls' : List Line} (h : List.Forall₂ V.Lines ls ls') (n : Nesting) :
    Option.Rel (Splits V) (alongLines as openers closer n ls) (alongLines as openers closer n ls') := by
  induction h generalizing n with
  | nil => exact .none
  | @cons l l' ls ls' hline h ih =>
    have hparts := alongLine_veiled hname hcloser hopeners hline n
    rw [alongLines, alongLines]
    generalize alongLine as openers closer n l = c at hparts ⊢
    generalize alongLine as openers closer n l' = c' at hparts ⊢
    cases hparts with
    | cut hfront hback => exact .some (.mk .nil hfront hback h)
    | passed n' =>
      refine rel_map ?_ (ih n')
      rintro _ _ ⟨hmid, hfront, hrest, hbelow⟩
      exact .mk (.cons hline hmid) hfront hrest hbelow

theorem seek?_veiled {right right' : Line} (hright : V.Lines right right') {below below' : List Line} (hbelow : List.Forall₂ V.Lines below below')
    (n : Nesting) : Option.Rel V.Reaches (seek? as openers closer n right below) (seek? as openers closer n right' below') := by
  have hparts := alongLine_veiled hname hcloser hopeners hright n
  rw [seek?, seek?]
  generalize alongLine as openers closer n right = c at hparts ⊢
  generalize alongLine as openers closer n right' = c' at hparts ⊢
  cases hparts with
  | cut hfront hback => exact .some (.here hfront hback)
  | passed n' =>
    refine rel_map ?_ (alongLines_veiled hname hcloser hopeners hbelow n')
    rintro _ _ ⟨hmid, hfront, hrest, hbelow⟩
    exact .there hright hmid hfront hrest hbelow

end Reach

/-! ### The marker that comes next -/

namespace Veil

variable {s : Scanner} {m : Manual} {as : Aliases}

/-- Where the first marker of a line stands: nowhere, or at the same place of both lines, or where the other has the
token. -/
inductive Breaks (V : Veil) (l l' : Line) : Prop where
  | nowhere : (∀ q ∈ l, q.isMarker = false) → l = l' → Breaks V l l'
  | marker {front back back' : Line} {p : List Char} : (∀ q ∈ front, q.isMarker = false) → l = front ++ .marker p :: back →
      l' = front ++ .marker p :: back' → V.Lines back back' → Breaks V l l'
  | veiled {front back back' : Line} : (∀ q ∈ front, q.isMarker = false) → l = front ++ (V.pieces ++ back) →
      l' = front ++ .words V.words :: back' → V.Lines back back' → Breaks V l l'

theorem Lines.breaks {l l' : Line} (h : V.Lines l l') : V.Breaks l l' := by
  have hnil : ∀ q ∈ ([] : Line), q.isMarker = false := List.forall_mem_nil _
  induction h with
  | nil => exact .nowhere hnil rfl
  | @same q l l' h ih =>
    cases hq : q.isMarker with
    | true =>
      cases q with
      | marker p => exact .marker hnil rfl rfl h
      | words s => cases hq
      | image attrs => cases hq
    | false =>
      have hfront : ∀ {front : Line}, (∀ q ∈ front, q.isMarker = false) → ∀ x ∈ q :: front, x.isMarker = false := fun h ↦
        List.forall_mem_cons.2 ⟨hq, h⟩
      cases ih with
      | nowhere hwords hsame => exact .nowhere (hfront hwords) (hsame ▸ rfl)
      | marker hwords hl hl' hback => exact .marker (hfront hwords) (congrArg (q :: ·) hl) (congrArg (q :: ·) hl') hback
      | veiled hwords hl hl' hback => exact .veiled (hfront hwords) (congrArg (q :: ·) hl) (congrArg (q :: ·) hl') hback
  | @here l l' h ih => exact .veiled hnil rfl rfl h

/-- A marker that is left alone wherever it stands: some command of it is not known, and the search for the end of a
block passes it. -/
structure Inert (V : Veil) (s : Scanner) (as : Aliases) : Prop where
  visible : s.toolkit.delimiters.Visible
  legible : V.Legible s.toolkit.delimiters
  policy : s.settings.unknownCommand = .ignore
  unknown : ∃ cs, Payload.read V.payload = .ok cs ∧ ∃ c ∈ cs, s.registry.has (as.expand c).name = false
  name : ∀ name ∈ as.nameOf? V.payload, name ∉ Reach.blockNames

theorem Inert.visit (hV : V.Inert s as) {g : Gap} (hg : g.payload = V.payload) {k : Desk} (hk : k.aliases = as) (r : Report) :
    g.visit s m k r = some (.ok ⟨g.kept s.toolkit.delimiters, k, r.addIgnored⟩) := by
  obtain ⟨cs, hread, c, hc, hunknown⟩ := hV.unknown
  have hread : Payload.read g.payload = .ok cs := hg ▸ hread
  rw [g.visit_read s m hread, Gap.dispatch, hk]
  cases hfind : (cs.map as.expand).find? fun c ↦ !s.registry.has c.name with
  | none =>
    have hknown := List.find?_eq_none.1 hfind _ (List.mem_map_of_mem hc)
    simp [hunknown] at hknown
  | some c =>
    dsimp only
    rw [hV.policy]

/-- Scans up to the same place, of which the first has ignored more markers. -/
def likeness (V : Veil) (t : Delimiters) (provider : Provider) (as : Aliases) : Likeness where
  sheets := V.Sheets t
  gaps := V.Gaps t
  reaches := V.Reaches
  desks k k' := k = k' ∧ k.aliases = as ∧ k.services.Coherent provider
  reports r r' := ∃ n, r = { r' with ignored := r'.ignored + n }
  lines := List.Forall₂ (V.Texts t)

namespace Inert

variable (hV : V.Inert s as) {k k' : Desk} {r r' : Report} {below below' : List Line}
  (hk : (V.likeness s.toolkit.delimiters s.provider as).desks k k') (hr : (V.likeness s.toolkit.delimiters s.provider as).reports r r')
  (hbelow : List.Forall₂ V.Lines below below')

include hV hk hr hbelow

theorem meets_within
    (hmeets : ∀ {above above'}, List.Forall₂ (V.Texts s.toolkit.delimiters) above above' →
      (V.likeness s.toolkit.delimiters s.provider as).Meets s m ⟨.between above below, k, r⟩ ⟨.between above' below', k', r'⟩)
    {above above' : List String} (habove : List.Forall₂ (V.Texts s.toolkit.delimiters) above above') {left left' : List Content}
    (hleft : V.Contents s.toolkit.delimiters left left') {right right' : Line} (hright : V.Lines right right') :
    (V.likeness s.toolkit.delimiters s.provider as).Meets s m ⟨.within above left right below, k, r⟩ ⟨.within above' left' right' below', k', r'⟩ := by
  cases hright.breaks with
  | nowhere hwords hsame =>
    subst hsame
    have hline : V.Texts s.toolkit.delimiters (Content.line (left ++ right.map (Piece.content s.toolkit.delimiters)))
        (Content.line (left' ++ right.map (Piece.content s.toolkit.delimiters))) := Contents.line (hleft.append (.refl _))
    exact (hmeets (List.rel_append habove (.cons hline .nil))).of_alike (Draft.alike_line hwords ..) (Draft.alike_line hwords ..)
  | @marker front back back' p hwords hl hl' hback =>
    subst hl hl'
    exact .marker (Sheet.find?_within _ hwords ..) (Sheet.find?_within _ hwords ..) ⟨habove, hleft.append (.refl _), rfl, hback, hbelow⟩
  | @veiled front back back' hwords hl hl' hback =>
    have hbefore : ∀ q ∈ front ++ wordsOf V.before, q.isMarker = false := List.forall_mem_append.2 ⟨hwords, Piece.isMarker_wordsOf⟩
    have hsplit : right = (front ++ wordsOf V.before) ++ .marker V.payload :: (wordsOf V.behind ++ back) := by simp [hl, Veil.pieces]
    let g : Gap := ⟨above, left ++ (front ++ wordsOf V.before).map (Piece.content s.toolkit.delimiters), V.payload, wordsOf V.behind ++ back, below⟩
    refine .alone (g := g) (hsplit ▸ Sheet.find?_within _ hbefore ..) fun D₁ hvisit ↦ ?_
    obtain rfl := Except.ok.inj (Option.some.inj ((hV.visit rfl (hk.1 ▸ hk.2.1) r).symm.trans hvisit))
    -- the first goes on behind the words behind its marker, where the second comes to without meeting one
    have htoken : ∀ q ∈ front ++ [Piece.words V.words], q.isMarker = false := List.forall_mem_append.2 ⟨hwords, by simp [Piece.isMarker]⟩
    have hpassed' := Draft.alike_passes (t := s.toolkit.delimiters) (k := k') (r := r') htoken above' left' back' below'
    rw [List.append_assoc, List.singleton_append, ← hl'] at hpassed'
    refine ⟨_, _, Draft.alike_passes Piece.isMarker_wordsOf .., hpassed', .within habove ?_ hback hbelow, hk, ?_⟩
    · have hcontents : V.Contents s.toolkit.delimiters (left ++ (front.map (Piece.content s.toolkit.delimiters) ++
          V.pieces.map (Piece.content s.toolkit.delimiters))) (left' ++ (front.map (Piece.content s.toolkit.delimiters) ++
            [.text (String.ofList V.words)])) := hleft.append (.prepend _ .single)
      simpa [Veil.pieces, g, Gap.marker, Piece.content] using hcontents
    · obtain ⟨n, rfl⟩ := hr
      exact ⟨n + 1, rfl⟩

theorem meets_between {above above' : List String} (habove : List.Forall₂ (V.Texts s.toolkit.delimiters) above above') :
    (V.likeness s.toolkit.delimiters s.provider as).Meets s m ⟨.between above below, k, r⟩ ⟨.between above' below', k', r'⟩ := by
  induction hbelow generalizing above above' with
  | nil => exact .nothing rfl rfl (Sheets.lines (.between habove .nil))
  | cons hline hbelow ih =>
    have hwithin := hV.meets_within (m := m) hk hr hbelow (fun habove ↦ ih habove) habove .nil hline
    exact hwithin.of_alike (Draft.alike_enter ..) (Draft.alike_enter ..)

omit hk hr hbelow in
theorem meets {D D' : Draft} (h : (V.likeness s.toolkit.delimiters s.provider as).Drafts D D') :
    (V.likeness s.toolkit.delimiters s.provider as).Meets s m D D' := by
  obtain ⟨S, k, r⟩ := D
  obtain ⟨S', k', r'⟩ := D'
  obtain ⟨hsheet, hk, hr⟩ := h
  have hsheet : V.Sheets s.toolkit.delimiters S S' := hsheet
  cases hsheet with
  | within habove hleft hright hbelow => exact hV.meets_within hk hr hbelow (hV.meets_between hk hr hbelow) habove hleft hright
  | between habove hbelow => exact hV.meets_between hk hr hbelow habove
  | halted hlines => exact .nothing rfl rfl hlines

omit hk hr hbelow in
/-- A scan goes by the marker as the scan of the sheet with the token in its place goes by the token. -/
theorem lasts (hfair : ∀ c : Command, c.name ∉ m.omits → Desk.Fairly s.provider (m.tells c)) :
    (V.likeness s.toolkit.delimiters s.provider as).Lasts s m as where
  payload hg := hg.payload
  passed hg c := hg.passed c
  removed hg := hg.removed hV.visible hV.legible
  merged hg ls := hg.merged hV.visible hV.legible ls
  opened hg hR := hg.opened hV.visible hV.legible hR
  replicated hg hR markers := hg.replicated markers hR
  skipped hg _ _ _ := hg.skipped hV.visible hV.legible
    (Reach.seek?_veiled hV.name (by simp [Reach.blockNames]) (fun _ h ↦ by cases h) hg.right hg.below _)
  sought hg _ hpairs := Reach.seek?_veiled hV.name hpairs.closer hpairs.openers hg.right hg.below _
  model hk := congrArg Desk.model hk.1
  aliases hk := ⟨hk.2.1, hk.1 ▸ hk.2.1⟩
  told {k k'} hk c homit := by
    obtain ⟨rfl, haliases, hcoherent⟩ := hk
    obtain ⟨_, hdesk, haliases'⟩ := hfair c homit k k (.refl hcoherent)
    exact ⟨rfl, rfl, haliases'.trans haliases, hdesk.left⟩
  executed hr := by
    obtain ⟨n, rfl⟩ := hr
    exact ⟨n, rfl⟩
  ignored hr := by
    obtain ⟨n, rfl⟩ := hr
    exact ⟨n, by simp only [Report.addIgnored, Nat.add_right_comm]⟩
  found hr f := by
    obtain ⟨n, rfl⟩ := hr
    exact ⟨n, rfl⟩
  meets := hV.meets

end Inert

end Veil

end Stencil

/-! ### Texts -/

namespace Stencil

variable {t : Delimiters} {V : Veil}

theorem Delimiters.pieces_content (ht : t.Proper) (s : List Char) : ∀ q ∈ t.pieces s, (q.content t).pieces t = [q] := by
  have hwords : ∀ {s : List Char}, t.cut? s = none → ((Piece.words s).content t).pieces t = [.words s] := fun {s} hcut ↦ by
    rw [Piece.content, Content.pieces, String.toList_ofList, pieces_words hcut]
  induction hlength : s.length using Nat.strong_induction_on generalizing s with
  | _ n ih =>
    intro q hq
    cases hcut : t.cut? s with
    | none =>
      rw [pieces_words hcut] at hq
      rw [List.mem_singleton.1 hq]
      exact hwords hcut
    | some c =>
      rw [pieces_cut ht hcut] at hq
      rcases List.mem_append.1 hq with hq | hq
      · rw [wordsOf] at hq
        split at hq
        · cases hq
        · rw [List.mem_singleton.1 hq]
          exact hwords (cut?_before ht hcut)
      rcases List.mem_cons.1 hq with rfl | hq
      · rw [Piece.content, Content.pieces, String.toList_ofList, pieces_enclose ht hcut]
      · split at hq
        · cases hq
        · exact ih _ (hlength ▸ after_length ht hcut) _ rfl q hq

namespace Veil

/-- A marker and words that are read from lines are read again from what they are written as. -/
theorem legible_of_pieces (ht : t.Proper) (htoken : Text.allBlank V.token = false) {line line' : List Char} {front back : Line}
    (hline : t.pieces line = front ++ (V.pieces ++ back)) (hline' : t.pieces line' = front ++ .words V.words :: back) : V.Legible t where
  token := htoken
  pieces q hq := t.pieces_content ht line q (by simp [hline, hq])
  words := by
    have hwords := t.pieces_content ht line' (.words V.words) (by simp [hline'])
    rwa [Piece.content, Content.pieces, String.toList_ofList] at hwords

theorem texts_intercalate {ls ls' : List String} (h : List.Forall₂ (V.Texts t) ls ls') :
    V.Texts t ("\n".intercalate ls) ("\n".intercalate ls') := by
  rw [Texts, String.toList_intercalate, String.toList_intercalate]
  induction h with
  | nil => exact .nil
  | @cons s s' ls ls' hs h ih =>
    cases h with
    | nil =>
      rw [List.map_singleton, List.map_singleton, List.intercalate_singleton, List.intercalate_singleton]
      exact hs
    | cons hs' h =>
      rw [List.map_cons, List.map_cons, List.map_cons, List.map_cons, List.intercalate_cons_cons, List.intercalate_cons_cons]
      exact (Swaps.append hs (.refl _)).append ih

end Veil

namespace Renderer

/-- A marker with a command that is not known is inert under the policy that ignores it, unless its first command opens
or closes a block. A run over a text with the marker finds the same wrong as one over the text with any token in its place
that is not blank and is no marker, carries out as much and leaves the desk the same; the texts are the same but for the
marker's text where the token stands, and the reports but for how often the marker was ignored. It may stand anywhere,
within blocks that are left out, kept or repeated too, when the run comes to no command that defines an alias or copies an
element. -/
theorem renderText_inert {R : Renderer} (hregistry : R.registry = .builtin) (ht : R.settings.delimiters.Visible)
    (hpolicy : R.settings.unknownCommand = .ignore) {w : Workshop} (hw : w.services.Coherent R.provider)
    {above below : List (List Char)} {line line' : List Char} (hlines : ∀ l ∈ above ++ line :: below, Text.IsLine l) (hisLine : Text.IsLine line')
    {front back : Line} (hline : R.settings.delimiters.pieces line = front ++ (V.pieces ++ back))
    (hline' : R.settings.delimiters.pieces line' = front ++ .words V.words :: back) (htoken : Text.allBlank V.token = false)
    {cs : Commands} (hread : Payload.read V.payload = .ok cs) (hunknown : ∃ c ∈ cs, R.registry.has (R.aliases.expand c).name = false)
    (hname : ∀ name ∈ R.aliases.nameOf? V.payload, name ∉ Reach.blockNames) (M : Model) {report : Report}
    (hok : (R.renderText w (Text.ofLines (above ++ line :: below)) M).result = .ok report)
    (hcommands : ∀ name ∈ ["Alias", "Clone"], name ∉ (R.renderText w (Text.ofLines (above ++ line :: below)) M).dispatched) :
    ∃ report' ignored, (R.renderText w (Text.ofLines (above ++ line' :: below)) M).result = .ok report' ∧
      report = { report' with ignored := report'.ignored + ignored } ∧
      Swaps (R.settings.delimiters.enclose V.payload) V.token (R.renderText w (Text.ofLines (above ++ line :: below)) M).text.toList
        (R.renderText w (Text.ofLines (above ++ line' :: below)) M).text.toList ∧
      (R.renderText w (Text.ofLines (above ++ line :: below)) M).state.desk =
        (R.renderText w (Text.ofLines (above ++ line' :: below)) M).state.desk := by
  let s : Scanner := R.scanner (.ofDelimiters R.settings.delimiters)
  obtain ⟨m, hm, homits, hfair⟩ := Scanner.exists_follows (s := s) hregistry (show "Clone" ∈ ["Alias", "Clone"] by simp)
  have hV : V.Inert s R.aliases := ⟨ht, Veil.legible_of_pieces ht.toProper htoken hline hline', hpolicy, ⟨cs, hread, hunknown⟩, hname⟩
  have hlasts := hV.lasts (m := m) fun c homit ↦ hfair c fun halias ↦ homit (by simp [homits, halias])
  have hhost : Text.lines (Text.ofLines (above ++ line :: below)).toList = above ++ line :: below := Text.lines_ofLines hlines
  have hhost' : Text.lines (Text.ofLines (above ++ line' :: below)).toList = above ++ line' :: below := by
    obtain ⟨habove, hbelow⟩ := List.forall_mem_append.1 hlines
    exact Text.lines_ofLines (List.forall_mem_append.2 ⟨habove, List.forall_mem_cons.2 ⟨hisLine, (List.forall_mem_cons.1 hbelow).2⟩⟩)
  have hsame : ∀ ls : List Line, List.Forall₂ V.Lines ls ls := fun ls ↦ List.forall₂_same.2 fun _ _ ↦ .refl _
  have hsheet : V.Sheets R.settings.delimiters (.between [] ((Text.lines (Text.ofLines (above ++ line :: below)).toList).map R.settings.delimiters.pieces))
      (.between [] ((Text.lines (Text.ofLines (above ++ line' :: below)).toList).map R.settings.delimiters.pieces)) := by
    rw [hhost, hhost', List.map_append, List.map_append, List.map_cons, List.map_cons, hline, hline']
    exact .between .nil (List.rel_append (hsame _) (.cons (.prepend _ (.here (.refl _))) (hsame _)))
  have hdrafts : (V.likeness R.settings.delimiters R.provider R.aliases).Drafts (R.draft w (Text.ofLines (above ++ line :: below)) M)
      (R.draft w (Text.ofLines (above ++ line' :: below)) M) := ⟨hsheet, ⟨rfl, rfl, hw⟩, 0, rfl⟩
  obtain ⟨report', ls, ls', hok', ⟨ignored, hreport⟩, ⟨hdesk, _⟩, htext, htext', htexts⟩ :=
    hlasts.renderText hregistry ht hm hdrafts hok fun hstrays ↦ by
      obtain ⟨name, hname, hmem⟩ := RunResult.strays_dispatched hstrays
      rw [homits] at hname
      exact hcommands name hname hmem
  refine ⟨report', ignored, hok', hreport, ?_, hdesk⟩
  rw [htext, htext']
  exact Veil.texts_intercalate htexts

def rowOf (word : String) : List Char := ("$\x7b$n\x7d: (" ++ word ++ ")").toList

def rowsOf (word : String) : String :=
  Text.ofLines (["$\x7bFor value:[0,1], $as:'n'\x7d".toList] ++ rowOf word :: ["$\x7bEndFor\x7d".toList])

theorem renderText_inert_rows :
    ((holding "part" "").renderText plain.workshop (rowsOf "$\x7bPush; Nope\x7d") (.ofData (.map []))).text =
      "0: ($\x7bPush; Nope\x7d)\n1: ($\x7bPush; Nope\x7d)" ∧
    ∃ report report' ignored,
      ((holding "part" "").renderText plain.workshop (rowsOf "$\x7bPush; Nope\x7d") (.ofData (.map []))).result = .ok report ∧
      ((holding "part" "").renderText plain.workshop (rowsOf "none") (.ofData (.map []))).result = .ok report' ∧
      report = { report' with ignored := report'.ignored + ignored } ∧
      Swaps "$\x7bPush; Nope\x7d".toList "none".toList
        ((holding "part" "").renderText plain.workshop (rowsOf "$\x7bPush; Nope\x7d") (.ofData (.map []))).text.toList
        ((holding "part" "").renderText plain.workshop (rowsOf "none") (.ofData (.map []))).text.toList := by
  let V : Veil := ⟨": (".toList, "Push; Nope".toList, "none".toList, ")".toList⟩
  let cs : Commands := [⟨"Push", [], some ⟨0, 4⟩⟩, ⟨"Nope", [], some ⟨0, 4⟩⟩]
  obtain ⟨report, hok⟩ : ∃ report, ((holding "part" "").renderText plain.workshop (rowsOf "$\x7bPush; Nope\x7d") (.ofData (.map []))).result =
      .ok report := except_toBool.1 (by decide +kernel)
  have hregistry : (holding "part" "").registry = .builtin := rfl
  have hdelimiters : (holding "part" "").settings.delimiters.Visible := Delimiters.visible_default
  have hpolicy : (holding "part" "").settings.unknownCommand = .ignore := rfl
  have hcoherent : plain.workshop.services.Coherent (holding "part" "").provider := .ofTtl (Provider.faithful_ofEntries _) _
  have hlines : ∀ l ∈ ["$\x7bFor value:[0,1], $as:'n'\x7d".toList] ++ rowOf "$\x7bPush; Nope\x7d" :: ["$\x7bEndFor\x7d".toList], Text.IsLine l := by
    decide +kernel
  have hisLine : Text.IsLine (rowOf "none") := by decide +kernel
  have hline : Delimiters.default.pieces (rowOf "$\x7bPush; Nope\x7d") = [.marker "$n".toList] ++ (V.pieces ++ []) := by decide +kernel
  have hline' : Delimiters.default.pieces (rowOf "none") = [.marker "$n".toList] ++ .words V.words :: [] := by decide +kernel
  have htoken : Text.allBlank V.token = false := by decide +kernel
  have hread : Payload.read V.payload = .ok cs := rfl
  have hunknown : ∃ c ∈ cs, Registry.builtin.has (Aliases.expand [] c).name = false :=
    ⟨_, List.mem_cons_of_mem _ (List.mem_singleton_self _), by decide +kernel⟩
  have hname : ∀ name ∈ Aliases.nameOf? [] V.payload, name ∉ Reach.blockNames := by decide +kernel
  have hcommands : ∀ name ∈ ["Alias", "Clone"], name ∉ ((holding "part" "").renderText plain.workshop (rowsOf "$\x7bPush; Nope\x7d")
      (.ofData (.map []))).dispatched := by decide +kernel
  obtain ⟨report', ignored, hok', hreport, htext, -⟩ := renderText_inert hregistry hdelimiters hpolicy hcoherent hlines hisLine hline hline' htoken
    hread hunknown hname (.ofData (.map [])) hok hcommands
  exact ⟨by decide +kernel, report, report', ignored, hok, hok', hreport, htext⟩

-- the search for the end of a block goes by the first command of a marker, known or not what comes behind it
example : (plain.renderText plain.workshop "$\x7bIf a:1\x7d\nx\n$\x7bEndIf; Nope\x7d" (.ofData (.map [("a", .leaf (.int 1))]))).text = "x" := by
  decide +kernel

end Renderer

end Stencil
