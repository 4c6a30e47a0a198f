import Stencil.Proofs.Command.Binding
import Stencil.Proofs.Payload.Endings
import Stencil.Proofs.Run.Course
/-!
Texts of plain substitutions. Every marker in them writes a value, or cannot be read, or names a command
that nobody knows; what becomes of each is told by the marker and the model alone, and a text by the
places of its markers.

They are rendered line by line, as if each line had been searched at once. The scan cuts a line at the
markers that it comes to and looks at the rest anew; what it leaves behind is never searched again, and
what it finds next is the next marker of the line.
-/

namespace Stencil

/-! ### Places in a text -/

namespace Text

theorem splitBytes?_append (s t : List Char) : splitBytes? (width s) (s ++ t) = some (s, t) := by
  induction s with
  | nil => cases t <;> rfl
  | cons c s ih =>
    obtain ⟨n, hn⟩ : ∃ n, c.utf8Size = n + 1 := ⟨c.utf8Size - 1, by have := c.utf8Size_pos; omega⟩
    have hwidth : width (c :: s) = n + width s + 1 := by
      rw [width_cons]
      omega
    rw [hwidth, List.cons_append, splitBytes?, if_pos (by omega), show n + width s + 1 - c.utf8Size = width s by omega, ih]
    rfl

end Text

namespace Delimiters

variable (d : Delimiters) (f : List Char → Option (List Char))

/-- A text that starts at byte `i`, with what stands at each of some markers replaced, as far as there is
something to put in its place. -/
def splice (i : ℕ) : List Marker → List Char → List Char
  | [], s => s
  | m :: ms, s => match Text.splitBytes? ((d.span m).start - i) s with
    | none => s
    | some (before, r) => match Text.splitBytes? ((d.span m).stop - (d.span m).start) r with
      | none => s
      | some (found, after) => before ++ (f m.payload).getD found ++ splice (d.span m).stop ms after

def substitute (s : List Char) : List Char := d.splice f 0 (d.markers s) s

end Delimiters

/-- A piece of a text with a marker replaced, as far as there is something to put in its place. -/
def Piece.substituted (t : Delimiters) (f : List Char → Option (List Char)) : Piece → List Char
  | words s => s
  | marker p => (f p).getD (t.enclose p)
  | image attrs => (Document.imageText attrs).toList

namespace Delimiters

variable {d : Delimiters} {f : List Char → Option (List Char)}

theorem substituted_wordsOf (s : List Char) : (wordsOf s).flatMap (Piece.substituted d f) = s := by
  rw [wordsOf]
  split
  · next h => rw [List.isEmpty_iff.1 h, List.flatMap_nil]
  · rw [List.flatMap_singleton, Piece.substituted]

/-- Replacing what stands at the places of the markers replaces the markers among the pieces. -/
theorem substitute_eq_pieces (hd : d.Proper) (s : List Char) :
    d.substitute f s = (d.pieces s).flatMap (Piece.substituted d f) := by
  have hfrom : ∀ (n i : ℕ) (s : List Char), s.length < n →
      d.splice f i (d.markersFrom n i s) s = (d.pieces s).flatMap (Piece.substituted d f) := by
    intro n
    induction n with
    | zero =>
      intro i s h
      omega
    | succ n ih =>
      intro i s h
      rw [markersFrom]
      cases hcut : d.cut? s with
      | none => rw [pieces_words hcut, splice, List.flatMap_singleton, Piece.substituted]
      | some c =>
        have hafter := after_length hd hcut
        have hrest := ih (i + Text.width c.before + Text.width (d.enclose c.payload)) c.after (by omega)
        have hpieces : (if c.after.isEmpty then [] else d.pieces c.after).flatMap (Piece.substituted d f) =
            (d.pieces c.after).flatMap (Piece.substituted d f) := by
          split
          · next hempty =>
            rw [List.isEmpty_iff.1 hempty]
            rfl
          · rfl
        have hbefore : Text.splitBytes? (i + Text.width c.before - i) s = some (c.before, d.enclose c.payload ++ c.after) := by
          rw [Nat.add_sub_cancel_left]
          conv_lhs => rw [cut?_eq_append hcut, List.append_assoc]
          exact Text.splitBytes?_append _ _
        have hfound : Text.splitBytes? (i + Text.width c.before + Text.width (d.enclose c.payload) - (i + Text.width c.before))
            (d.enclose c.payload ++ c.after) = some (d.enclose c.payload, c.after) := by
          rw [Nat.add_sub_cancel_left]
          exact Text.splitBytes?_append _ _
        simp only [splice, span, hbefore, hfound]
        rw [hrest, pieces_cut hd hcut, List.flatMap_append, substituted_wordsOf, List.flatMap_cons, hpieces,
          Piece.substituted, List.append_assoc]
  exact hfrom _ 0 s (Nat.lt_succ_self _)

end Delimiters

/-! ### Markers -/

/-- What becomes of a marker: a text takes its place, or it stays, be it because it should, because it
cannot be read, or because its command fails. -/
inductive Fate where
  | replaced (text : String)
  | kept
  | unreadable (e : Payload.Error)
  | failed (e : RunError)

/-- What becomes of a marker with a command that writes a value. -/
def Command.fate (c : Command) (M : Model) : Fate :=
  match c.written ⟨M, [], .ofTtl 0⟩ with
  | .ok (.write text) => .replaced text
  | .ok _ => .kept
  | .error e => .failed e

namespace Payload

/-- Whether a payload is of a marker that cannot be read, that names a command which nobody knows, or
that writes a value without being removed where there is none. -/
def isPlain (p : List Char) : Bool :=
  match read p with
  | .error _ => true
  | .ok [c] => !Registry.builtin.has c.name || c.name == insertion && c.str? "onNull" != some "deletePlaceholder"
  | .ok _ => false

def fate (M : Model) (p : List Char) : Fate :=
  match read p with
  | .error e => .unreadable e
  | .ok [c] => if c.name = insertion then c.fate M else .kept
  | .ok _ => .kept

end Payload

namespace Fate

def text? : Fate → Option String
  | replaced text => some text
  | _ => none

def isIgnored : Fate → Bool
  | kept | unreadable _ => true
  | _ => false

def finding? (p : List Char) : Fate → Option Finding
  | unreadable e => some ⟨.payload e, none, String.ofList (Delimiters.default.enclose p)⟩
  | failed e => some ⟨e, some Payload.insertion, String.ofList (Delimiters.default.enclose p)⟩
  | _ => none

end Fate

namespace Payload

def result? (M : Model) (p : List Char) : Option (List Char) := (fate M p).text?.map String.toList

/-- The report of a run over the markers of some payloads: those replaced count as carried out, those that
cannot be read, are not known or stay as they should count as left alone, and what went wrong is told in order. -/
def reportOf (M : Model) (ps : List (List Char)) : Report where
  executed := ps.countP fun p ↦ (fate M p).text?.isSome
  ignored := ps.countP fun p ↦ (fate M p).isIgnored
  findings := ps.filterMap fun p ↦ (fate M p).finding? p

end Payload

end Stencil

/-! ### The scan -/

namespace Stencil

variable {s : Scanner} {m : Manual} {k : Desk} {M : Model}

/-! ### One marker -/

theorem Command.written_congr (c : Command) {k k' : Desk} (h : k.model = k'.model) : c.written k = c.written k' := by
  rw [written, written, h]

theorem MissingPolicy.word_of_ofCommand {c : Command} (h : MissingPolicy.ofCommand c = .ok .delete) :
    c.str? "onNull" = some "deletePlaceholder" := by
  rw [ofCommand] at h
  split at h
  · split at h <;> cases h
  · next word hword =>
    split at h
    · next policy hpolicy =>
      obtain rfl := Except.ok.inj h
      have hfound := List.find?_some hpolicy
      rw [hword, ← of_decide_eq_true hfound]
      rfl
    · cases h

/-- A marker that writes a value is replaced or left alone, unless it is to be removed. -/
theorem Command.written_plain {c : Command} (h : c.str? "onNull" ≠ some "deletePlaceholder") {deed : Deed}
    (hdeed : c.written k = .ok deed) : (∃ text, deed = .write text) ∨ deed = .leave := by
  have hmissing : ∀ {deed}, c.missing = .ok deed → (∃ text, deed = .write text) ∨ deed = .leave := by
    intro deed hdeed
    obtain ⟨policy, hpolicy, hdeed⟩ := except_bind_eq_ok.1 hdeed
    cases policy with
    | empty => exact .inl ⟨_, (Except.ok.inj hdeed).symm⟩
    | fallback => exact .inl ⟨_, (Except.ok.inj hdeed).symm⟩
    | keep => exact .inr (Except.ok.inj hdeed).symm
    | delete => exact absurd (MissingPolicy.word_of_ofCommand hpolicy) h
    | fail => cases hdeed
  obtain ⟨v?, -, hdeed⟩ := except_bind_eq_ok.1 hdeed
  rcases v? with _ | ⟨_ | _ | _ | _ | _⟩ | _ | _
  all_goals first
    | exact hmissing hdeed
    | exact .inl ⟨_, (Except.ok.inj hdeed).symm⟩
    | cases hdeed

namespace Report

def settle (r : Report) (M : Model) (p : List Char) : Report := match Payload.fate M p with
  | .replaced _ => r.addExecuted
  | .kept => r.addIgnored
  | .unreadable e => { r.addIgnored with findings := r.findings ++ [⟨.payload e, none, String.ofList (Delimiters.default.enclose p)⟩] }
  | .failed e => { r with findings := r.findings ++ [⟨e, some Payload.insertion, String.ofList (Delimiters.default.enclose p)⟩] }

theorem settle_eq (M : Model) (ps : List (List Char)) : ps.foldl (settle · M) empty = Payload.reportOf M ps := by
  have hfold : ∀ (ps : List (List Char)) (r : Report), ps.foldl (settle · M) r =
      ⟨r.executed + (Payload.reportOf M ps).executed, r.ignored + (Payload.reportOf M ps).ignored,
        r.findings ++ (Payload.reportOf M ps).findings⟩ := by
    intro ps
    induction ps with
    | nil =>
      intro r
      simp [Payload.reportOf]
    | cons p ps ih =>
      intro r
      rw [List.foldl_cons, ih]
      cases hfate : Payload.fate M p <;>
        simp [settle, Payload.reportOf, hfate, Fate.text?, Fate.isIgnored, Fate.finding?, addExecuted, addIgnored] <;> omega
  rw [hfold ps empty]
  simp [empty]

end Report

def Payload.left (M : Model) (p : List Char) : List Char := (result? M p).getD (Delimiters.default.enclose p)

namespace Gap

variable (hs : s.registry = .builtin) (hsettings : s.settings = .default) (htoolkit : s.toolkit = .ofDelimiters .default)
  (hm : s.Reads m) (haliases : k.aliases = []) {g : Gap}

include hs hsettings htoolkit hm haliases

/-- A turn at a plain marker: what becomes of it stands in its place, and the scan goes on behind it. -/
theorem visit_plain (hplain : Payload.isPlain g.payload = true) (r : Report) :
    g.visit s m k r = some (.ok ⟨g.passed (.text (String.ofList (Payload.left k.model g.payload))), k, r.settle k.model g.payload⟩) := by
  have hdelimiters : s.toolkit.delimiters = .default := congrArg Toolkit.delimiters htoolkit
  have hlenient : s.settings.failFast = false := by rw [hsettings]; rfl
  have hunknown : s.settings.unknownCommand = .ignore := by rw [hsettings]; rfl
  have hexpand : k.aliases.expand = id := by
    rw [haliases]
    rfl
  have hleft : ∀ {fate}, Payload.fate k.model g.payload = fate →
      Payload.left k.model g.payload = (fate.text?.map String.toList).getD (Delimiters.default.enclose g.payload) := by
    rintro _ rfl
    rfl
  rw [Payload.isPlain] at hplain
  split at hplain
  · next e hread =>
    have hfate : Payload.fate k.model g.payload = .unreadable e := by rw [Payload.fate, hread]
    rw [Gap.visit, hread, hleft hfate, Report.settle, hfate]
    simp only [Gap.record, hlenient, hdelimiters]
    rfl
  · next c hread =>
    rw [Gap.visit, hread]
    dsimp only
    rw [Gap.dispatch, hexpand, List.map_id, List.find?_singleton]
    cases hknown : Registry.builtin.has c.name with
    | false =>
      have hname : c.name ≠ Payload.insertion := by
        intro hname
        rw [hname] at hknown
        exact absurd hknown (by decide +kernel)
      have hfate : Payload.fate k.model g.payload = .kept := by
        rw [Payload.fate, hread]
        exact if_neg hname
      rw [hs, hknown, hleft hfate, Report.settle, hfate]
      simp only [Bool.not_false, if_true, hunknown, hdelimiters]
      rfl
    | true =>
      rw [hknown, Bool.not_true, Bool.false_or, Bool.and_eq_true, beq_iff_eq, bne_iff_ne] at hplain
      obtain ⟨hname, honNull⟩ := hplain
      have hname' : c.name = "String" := hname
      have hget : s.registry.get? c.name = some Handler.insertion := by rw [hs, hname']; rfl
      have hwritten : c.written ⟨k.model, [], .ofTtl 0⟩ = c.written k := c.written_congr rfl
      have hfate : Payload.fate k.model g.payload = c.fate k.model := by
        rw [Payload.fate, hread]
        exact if_pos hname
      have hanswer : g.answer m s.toolkit.delimiters c k =
          some ((c.written k).map (g.perform s.toolkit.delimiters), k) := by
        simp only [Gap.answer, hname', hm.omits, hm.insertion c hname']
        rfl
      rw [hs, hknown]
      simp only [Bool.not_true, Bool.false_eq_true, if_false, Gap.carryOut, hget, hanswer, List.isEmpty_nil, if_true]
      rw [Command.fate, hwritten] at hfate
      cases hdeed : c.written k with
      | error e =>
        rw [hdeed] at hfate
        rw [hleft hfate, Report.settle, hfate]
        simp only [Except.map, Gap.record, hlenient, hname, hdelimiters]
        rfl
      | ok deed =>
        rw [hdeed] at hfate
        obtain ⟨text, rfl⟩ | rfl := Command.written_plain honNull hdeed
        · rw [hleft hfate, Report.settle, hfate]
          simp [Except.map, Gap.perform, Fate.text?]
        · rw [hleft hfate, Report.settle, hfate]
          simp only [Except.map, Gap.perform, hdelimiters]
          rfl
  · cases hplain

end Gap

/-! ### Lines -/

def Line.settled (M : Model) (l : Line) : String :=
  String.ofList (l.flatMap (Piece.substituted .default (Payload.result? M)))

theorem Content.line_concat (cs : List Content) (c : Content) : line (cs ++ [c]) = line cs ++ c.shown := by
  rw [Content.line_append]
  simp [line, String.join]

theorem Line.settled_cons (M : Model) (q : Piece) (l : Line) :
    Line.settled M (q :: l) = String.ofList (q.substituted .default (Payload.result? M)) ++ Line.settled M l := by
  rw [settled, List.flatMap_cons, String.ofList_append, settled]

section Lines

variable (hs : s.registry = .builtin) (hsettings : s.settings = .default) (htoolkit : s.toolkit = .ofDelimiters .default)
  (hm : s.Reads m) (haliases : k.aliases = [])

include hs hsettings htoolkit hm haliases

theorem Line.passes_rest (above : List String) (below : List Line) (right : Line) :
    (∀ p ∈ Piece.payloads right, Payload.isPlain p = true) → ∀ (left : List Content) (r : Report),
      Draft.Passes s m 0 ⟨.within above left right below, k, r⟩
        ⟨.between (above ++ [Content.line left ++ Line.settled k.model right]) below, k,
          (Piece.payloads right).foldl (Report.settle · k.model) r⟩ := by
  have hdelimiters : s.toolkit.delimiters = .default := congrArg Toolkit.delimiters htoolkit
  induction right with
  | nil =>
    intro _ left r
    have hend : Content.line left ++ Line.settled k.model [] = Content.line left := String.append_empty
    rw [hend]
    exact .of_alike (Draft.alike_leave above left below)
  | cons q right ih =>
    intro hplain left r
    have hjoin : ∀ c : Content, c.shown = String.ofList (q.substituted .default (Payload.result? k.model)) →
        Content.line (left ++ [c]) ++ Line.settled k.model right = Content.line left ++ Line.settled k.model (q :: right) := by
      intro c hc
      rw [Content.line_concat, Line.settled_cons, hc, String.append_assoc]
    cases hq : q.isMarker with
    | false =>
      have hpayloads : Piece.payloads (q :: right) = Piece.payloads right := by cases q <;> first | rfl | cases hq
      have hshown : (q.content .default).shown = String.ofList (q.substituted .default (Payload.result? k.model)) := by
        cases q with
        | marker => cases hq
        | words => rfl
        | image attrs => exact String.ofList_toList.symm
      rw [hpayloads] at hplain ⊢
      have hrest := ih hplain (left ++ [q.content .default]) r
      rw [hjoin _ hshown] at hrest
      have hpass := Draft.alike_pass (t := s.toolkit.delimiters) (k := k) (r := r) hq above left right below
      rw [hdelimiters] at hpass
      refine Draft.Passes.trans (.of_alike ?_) hrest
      rwa [hdelimiters]
    | true =>
      obtain ⟨p, rfl⟩ : ∃ p, q = .marker p := by cases q <;> first | exact ⟨_, rfl⟩ | cases hq
      let g : Gap := ⟨above, left, p, right, below⟩
      have hfind : (Sheet.within above left (.marker p :: right) below).find? s.toolkit.delimiters = some g := by
        simp [Sheet.find?, Piece.breakMarker?, g]
      have hvisit := Gap.visit_plain hs hsettings htoolkit hm haliases (g := g) (hplain p (List.mem_cons_self ..)) r
      have hrest := ih (fun x hx ↦ hplain x (List.mem_cons_of_mem _ hx)) (left ++ [.text (String.ofList (Payload.left k.model p))])
        (r.settle k.model p)
      rw [hjoin (.text (String.ofList (Payload.left k.model p))) rfl] at hrest
      have hpasses : Draft.Passes s m 1 ⟨.within above left (.marker p :: right) below, k, r⟩ _ := .of_visit hfind hvisit
      exact (hpasses.trans hrest).mono (Nat.zero_le _)

theorem Line.passes_lines (below : List Line) :
    (∀ l ∈ below, ∀ p ∈ Piece.payloads l, Payload.isPlain p = true) → ∀ (above : List String) (r : Report),
      Draft.Passes s m 0 ⟨.between above below, k, r⟩
        ⟨.between (above ++ below.map (Line.settled k.model)) [], k,
          (below.flatMap Piece.payloads).foldl (Report.settle · k.model) r⟩ := by
  induction below with
  | nil =>
    intro _ above r
    rw [List.map_nil, List.append_nil]
    exact .refl _
  | cons l below ih =>
    intro hplain above r
    have hline := Line.passes_rest hs hsettings htoolkit hm haliases above below l (hplain l (List.mem_cons_self ..)) [] r
    have hempty : Content.line [] ++ Line.settled k.model l = Line.settled k.model l := String.empty_append
    rw [hempty] at hline
    have hrest := ih (fun x hx ↦ hplain x (List.mem_cons_of_mem _ hx)) (above ++ [Line.settled k.model l])
      ((Piece.payloads l).foldl (Report.settle · k.model) r)
    rw [List.append_assoc, List.singleton_append, ← List.map_cons, ← List.foldl_append, ← List.flatMap_cons] at hrest
    exact (Draft.Passes.of_alike (Draft.alike_enter above l below)).trans (hline.trans hrest)

end Lines

namespace Renderer

def payloadsOf (template : String) : List (List Char) :=
  (Text.lines template.toList).flatMap fun l ↦ (Delimiters.default.markers l).map Delimiters.Marker.payload

/-- A text of plain substitutions is rendered line by line. Where the run ends with a report, what becomes of
the markers that are found in each line stands in their places, and all else is left as it is; the
report is that of these markers in order, and the model stays. -/
theorem renderText_substituted {R : Renderer} (hsettings : R.settings = .default) (hregistry : R.registry = .builtin)
    (haliases : R.aliases = []) (w : Workshop) {template : String}
    (hplain : ∀ p ∈ payloadsOf template, Payload.isPlain p = true) (M : Model) {report : Report}
    (hok : (R.renderText w template M).result = .ok report) :
    (R.renderText w template M).text = "\n".intercalate ((Text.lines template.toList).map fun l ↦
        String.ofList (Delimiters.default.substitute (Payload.result? M) l)) ∧
      report = Payload.reportOf M (payloadsOf template) ∧ (R.renderText w template M).state.model = M := by
  obtain ⟨settings, registry, aliases, provider, now⟩ := R
  obtain rfl : settings = .default := hsettings
  obtain rfl : registry = .builtin := hregistry
  obtain rfl : aliases = [] := haliases
  let R : Renderer := ⟨.default, .builtin, [], provider, now⟩
  let s : Scanner := R.scanner (.ofDelimiters .default)
  obtain ⟨m, hm⟩ := Scanner.exists_reads (s := s) rfl
  have hpayloads : payloadsOf template = ((Text.lines template.toList).map Delimiters.default.pieces).flatMap Piece.payloads := by
    rw [payloadsOf, List.flatMap_map]
    exact List.flatMap_congr fun l _ ↦ Delimiters.markers_payload Delimiters.proper_default l
  have hlines : ∀ l ∈ (Text.lines template.toList).map Delimiters.default.pieces, ∀ p ∈ Piece.payloads l, Payload.isPlain p = true := by
    intro l hl p hp
    refine hplain p ?_
    rw [hpayloads]
    exact List.mem_flatMap.2 ⟨l, hl, hp⟩
  have hpasses := Line.passes_lines (s := s) (k := ⟨M, [], w.services⟩) rfl rfl rfl hm rfl _ hlines [] .empty
  have hrender := fun x ↦ Renderer.renderText_on (x := x) R rfl Delimiters.visible_default hm.follows w template M
  rcases hpasses.scan_eq rfl with hscan | hscan
  · have hstopped := (hrender _ hscan).1
    rw [hok] at hstopped
    cases hstopped
  · obtain ⟨hresult, htext⟩ := hrender _ hscan
    obtain ⟨htext, hdesk⟩ := htext _ rfl
    rw [hok] at hresult
    refine ⟨?_, ?_, congrArg Desk.model hdesk⟩
    · rw [htext]
      simp only [Draft.finish, Sheet.lines, List.nil_append, List.map_nil, List.append_nil, List.map_map]
      refine congrArg ("\n".intercalate ·) (List.map_congr_left fun l _ ↦ ?_)
      rw [Function.comp_apply, Line.settled, Delimiters.substitute_eq_pieces Delimiters.proper_default]
    · rw [hpayloads, ← Report.settle_eq]
      exact Except.ok.inj hresult

def threeMarkers : String := "$\x7b@a\x7d, $\x7bNo b:1\x7d, $\x7b!\x7d"

theorem renderText_substituted_threeMarkers : ∃ report,
    (plain.renderText plain.workshop threeMarkers (.ofData (.map [("a", .leaf (.int 5))]))).result = .ok report ∧
      (plain.renderText plain.workshop threeMarkers (.ofData (.map [("a", .leaf (.int 5))]))).text =
        "5, $\x7bNo b:1\x7d, $\x7b!\x7d" ∧ report.executed = 1 ∧ report.ignored = 2 := by
  have hplain : ∀ p ∈ payloadsOf threeMarkers, Payload.isPlain p = true := by decide +kernel
  obtain ⟨report, hok⟩ : ∃ report, (plain.renderText plain.workshop threeMarkers
      (.ofData (.map [("a", .leaf (.int 5))]))).result = .ok report := except_toBool.1 (by decide +kernel)
  have hsettings : plain.settings = .default := rfl
  have hregistry : plain.registry = .builtin := rfl
  have haliases : plain.aliases = [] := rfl
  obtain ⟨htext, hreport, -⟩ := renderText_substituted hsettings hregistry haliases plain.workshop hplain
    (.ofData (.map [("a", .leaf (.int 5))])) hok
  refine ⟨report, hok, ?_, ?_, ?_⟩
  · rw [htext]
    decide +kernel
  · rw [hreport]
    decide +kernel
  · rw [hreport]
    decide +kernel

end Renderer

end Stencil
