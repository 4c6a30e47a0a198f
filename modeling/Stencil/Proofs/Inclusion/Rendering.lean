import Stencil.Proofs.Inclusion.Scan
import Stencil.Proofs.Run.Course
import Stencil.Proofs.Text.Lines
/-!
Merging a resource comes to the same as writing its lines out. The lines take the place of the marker before
the scan looks at any of them; and whatever looked over the marker before would have looked over the lines, since
their conditions and loops are closed.
-/

namespace Stencil

variable {s : Scanner} {m : Manual} {as : Aliases} {p : List Char} {handle text : String}

/-! ### The marker -/

/-- The resource that a command merges whole. -/
def Command.included? (c : Command) : Option String :=
  if c.name = "Import" ∧ c.str? "beginFragment" = none ∧ c.str? "endFragment" = none then c.str? "resource" else none

theorem Command.included?_eq_some {c : Command} (h : c.included? = some handle) :
    c.name = "Import" ∧ c.str? "beginFragment" = none ∧ c.str? "endFragment" = none ∧ c.str? "resource" = some handle := by
  rw [included?] at h
  split at h
  · next hc => exact ⟨hc.1, hc.2.1, hc.2.2, h⟩
  · cases h

/-- The resource that a marker of one command merges whole. -/
def Payload.included? (as : Aliases) (p : List Char) : Option String :=
  match Payload.read p with
  | .ok [c] => (as.expand c).included?
  | _ => none

theorem Payload.included?_eq_some (h : included? as p = some handle) :
    ∃ c, Payload.read p = .ok [c] ∧ (as.expand c).included? = some handle := by
  rw [included?] at h
  split at h
  · next c hread => exact ⟨c, hread, h⟩
  · cases h

/-- The search for the end of a block takes no notice of a marker that merges a resource. -/
theorem Payload.level_included (h : included? as p = some handle) {openers : List String} {closer : String}
    (hpairs : Reach.Pairs openers closer) : Reach.Level as openers closer [[.marker p]] := by
  obtain ⟨c, hread, hc⟩ := included?_eq_some h
  have hname : as.nameOf? p = some "Import" := by
    rw [Aliases.nameOf?, hread]
    dsimp only
    rw [as.target_eq, (Command.included?_eq_some hc).1]
  have hbalanced : Reach.Balanced ([[Piece.marker p]].flatMap (Piece.names as)) := by
    simp only [List.flatMap_singleton, Piece.names, List.filterMap_cons, Piece.name?, List.filterMap_nil, hname]
    exact .other (by simp [Reach.blockNames]) .nil
  exact hbalanced.level hpairs

/-! ### A turn -/

theorem FragmentBounds.lines_whole (t : Delimiters) (text : String) :
    FragmentBounds.lines t ⟨none, none⟩ text = (Text.lines text.toList).map t.pieces := by
  simp [lines, chosen, choose, untilClosing, Function.comp_def]

theorem Gap.merged_alone (t : Delimiters) (above : List String) (below lines : List Line) :
    Gap.merged t ⟨above, [], p, [], below⟩ lines = .between above (lines ++ below) := by
  rw [merged]
  split
  -- without any lines the marker goes, and its line with it
  · next hempty => simp [removed, List.isEmpty_iff.1 hempty]
  · simp [Piece.kept]

open Handler in
/-- What a merge of a whole resource takes from the desk: the resource's text, whether it was kept or not. -/
theorem Handler.serves_mergeDeed {s : Selection} (h : s.command.included? = some handle) {id : String}
    (hid : s.provider.identify handle = .ok id) (htext : s.provider.text handle = .ok text) :
    (mergeDeed s).Serves s.provider (.ok (.merge text ⟨none, none⟩)) := by
  obtain ⟨-, hbegin, hend, hresource⟩ := Command.included?_eq_some h
  have hresource : s.str? "resource" = some handle := hresource
  have hsource : (fragmentSource s).Serves s.provider (.ok text) := by
    rw [fragmentSource, hresource]
    dsimp only
    rw [resourceText]
    split
    · exact htext ▸ Run.serves_fetchText handle
    · have hserves := Run.serves_fragmentText (p := s.provider) handle
      rwa [hid, htext] at hserves
  rw [mergeDeed, pattern?, hbegin, pattern?, hend]
  exact Run.serves_seq (Run.serves_ofExcept _ _) (Run.serves_seq (Run.serves_ofExcept _ _)
    (Run.serves_seq hsource (Run.serves_pure _)))

/-- A manual that tells of merges what they take from the desk, and leaves out the commands that could tell a
resource from its lines. -/
structure Scanner.Merges (s : Scanner) (m : Manual) : Prop where
  follows : s.Follows m
  omits : m.omits = ["Ignore", "Alias", "Clone"]
  fair : ∀ c : Command, c.name ∉ m.omits → Desk.Fairly s.provider (m.tells c)
  merge : ∀ c : Command, c.name = "Import" → m.tells c = (Handler.mergeDeed ⟨⟨0, 0⟩, c, none, s.provider, s.now⟩).told

theorem Scanner.exists_merges (hs : s.registry = .builtin) : ∃ m, s.Merges m := by
  obtain ⟨m, hm, homits, hfair⟩ := Scanner.exists_follows hs (show "Clone" ∈ ["Ignore", "Alias", "Clone"] by simp)
  let selection (c : Command) : Selection := ⟨⟨0, 0⟩, c, none, s.provider, s.now⟩
  have hget : s.registry.get? "Import" = some Handler.fragment := hs ▸ rfl
  refine ⟨m.tell "Import" fun c ↦ (Handler.mergeDeed (selection c)).told,
    hm.tell hget fun c q ↦ Handler.fragment_acts (selection c) q.node s.toolkit, homits, fun c hc ↦ ?_, fun c hc ↦ if_pos hc⟩
  have halias : c.name ≠ "Alias" := by
    rintro hname
    simp [Manual.tell, homits, hname] at hc
  rw [Manual.tell]
  dsimp only
  split
  · exact (Handler.steady_mergeDeed (s := selection c)).fair.told
  · exact hfair c halias

theorem Scanner.Merges.brings (hm : s.Merges m) (hs : s.registry = .builtin) (hp : Payload.included? as p = some handle) {id : String}
    (hid : s.provider.identify handle = .ok id) (htext : s.provider.text handle = .ok text)
    (hbalanced : Reach.Balanced (((Text.lines text.toList).map s.toolkit.delimiters.pieces).flatMap (Piece.names as))) :
    m.Brings s as p ((Text.lines text.toList).map s.toolkit.delimiters.pieces) where
  ignore := by simp [hm.omits]
  fair := hm.fair
  marker hpairs := Payload.level_included hp hpairs
  lines hpairs := hbalanced.level hpairs
  turn {above below k r D} haliases hk hvisit := by
    obtain ⟨c, hread, hc⟩ := Payload.included?_eq_some hp
    obtain ⟨hname, -⟩ := Command.included?_eq_some hc
    let g : Gap := ⟨above, [], p, [], below⟩
    let selection : Selection := ⟨⟨0, 0⟩, as.expand c, none, s.provider, s.now⟩
    obtain ⟨hdeed, hserved⟩ := Handler.serves_mergeDeed (s := selection) hc hid htext k.state hk
    have hget : s.registry.get? (as.expand c).name = some Handler.fragment := by rw [hname, hs]; rfl
    have htells : m.tells (as.expand c) k = (.ok (.merge text ⟨none, none⟩), ((Handler.mergeDeed selection).told k).2) := by
      rw [hm.merge _ hname]
      exact Prod.ext hdeed rfl
    have hanswer : g.answer m s.toolkit.delimiters (as.expand c) k = some (.ok (.moved (.between above
        ((Text.lines text.toList).map s.toolkit.delimiters.pieces ++ below))), ((Handler.mergeDeed selection).told k).2) := by
      rw [← Gap.merged_alone (p := p) s.toolkit.delimiters, ← FragmentBounds.lines_whole]
      simp [Gap.answer, hm.omits, hname, htells, Except.map, Gap.perform, g]
    have hvisit' := g.visit_moved s m (r := r) hread (haliases ▸ rfl) hget hanswer
    obtain rfl := Except.ok.inj (Option.some.inj (hvisit.symm.trans hvisit'))
    exact ⟨rfl, hserved.alike hk, rfl⟩

/-! ### Texts -/

def Event.dispatched? : Event → Option String
  | dispatching name _ => some name
  | _ => none

def RunResult.dispatched (r : RunResult) : List String := r.events.filterMap Event.dispatched?

theorem RunResult.strays_dispatched {r : RunResult} (h : m.Strays r.state.log) : ∃ name ∈ m.omits, name ∈ r.dispatched := by
  obtain ⟨name, hname, id, hmem⟩ := h
  exact ⟨name, hname, List.mem_filterMap.2 ⟨_, List.mem_reverse.2 hmem, rfl⟩⟩

namespace Renderer

/-- A text with markers that bring lines in is rendered as the text with the lines written out. -/
theorem renderText_includes {R : Renderer} (hregistry : R.registry = .builtin) (ht : R.settings.delimiters.Visible)
    (hm : (R.scanner (.ofDelimiters R.settings.delimiters)).Follows m) {F : List Line}
    (hbrings : m.Brings (R.scanner (.ofDelimiters R.settings.delimiters)) R.aliases p F) {w : Workshop}
    (hw : w.services.Coherent R.provider) {host host' : String}
    (hincludes : Includes p F ((Text.lines host.toList).map R.settings.delimiters.pieces) ((Text.lines host'.toList).map R.settings.delimiters.pieces))
    (M : Model) {report : Report} (hok : (R.renderText w host M).result = .ok report)
    (hstrays : ¬ m.Strays (R.renderText w host M).state.log) :
    ∃ report', (R.renderText w host' M).result = .ok report' ∧ report'.findings = report.findings ∧
      (R.renderText w host' M).text = (R.renderText w host M).text ∧
      (R.renderText w host' M).state.model = (R.renderText w host M).state.model := by
  have hdrafts : (Likeness.inclusion R.provider R.aliases p F).Drafts (R.draft w host M) (R.draft w host' M) :=
    ⟨.between [] hincludes, ⟨.refl hw, rfl⟩, rfl⟩
  obtain ⟨report', ls, _, hok', hfindings, ⟨hdesk, _⟩, htext, htext', rfl⟩ :=
    hbrings.lasts.renderText hregistry ht hm hdrafts hok hstrays
  exact ⟨report', hok', hfindings.symm, htext'.trans htext.symm, hdesk.model.symm⟩

/-- Merging a resource is writing its lines out. A text with a line that is a marker for a resource held in
memory leaves the same text, finds the same wrong and leaves the model the same as the text with the lines of the
resource in its place, wherever it stands, when the conditions and loops of the resource are closed and the run
comes to no command that ignores a region, defines an alias or copies an element. -/
theorem renderText_imported {R : Renderer} (hregistry : R.registry = .builtin) (ht : R.settings.delimiters.Visible)
    {es : Entries (List UInt8)} (hprovider : R.provider = .ofEntries es) {w : Workshop} (hw : w.services.Coherent R.provider)
    {bytes : List UInt8} {fragment : String} (hresource : es.get? handle = some bytes) (hdecode : Text.decode bytes = .ok fragment)
    (hreturn : '\r' ∉ fragment.toList)
    (hbalanced : Reach.Balanced (((Text.lines fragment.toList).map R.settings.delimiters.pieces).flatMap (Piece.names R.aliases)))
    {above below : List (List Char)} {line : List Char} (hlines : ∀ l ∈ above ++ line :: below, Text.IsLine l)
    (hline : R.settings.delimiters.pieces line = [.marker p]) (hmarker : Payload.included? R.aliases p = some handle)
    (M : Model) {report : Report} (hok : (R.renderText w (Text.ofLines (above ++ line :: below)) M).result = .ok report)
    (hcommands : ∀ name ∈ ["Ignore", "Alias", "Clone"], name ∉ (R.renderText w (Text.ofLines (above ++ line :: below)) M).dispatched) :
    ∃ report', (R.renderText w (Text.ofLines (above ++ (Text.lines fragment.toList ++ below))) M).result = .ok report' ∧
      report'.findings = report.findings ∧
      (R.renderText w (Text.ofLines (above ++ (Text.lines fragment.toList ++ below))) M).text =
        (R.renderText w (Text.ofLines (above ++ line :: below)) M).text ∧
      (R.renderText w (Text.ofLines (above ++ (Text.lines fragment.toList ++ below))) M).state.model =
        (R.renderText w (Text.ofLines (above ++ line :: below)) M).state.model := by
  let s : Scanner := R.scanner (.ofDelimiters R.settings.delimiters)
  let F : List Line := (Text.lines fragment.toList).map R.settings.delimiters.pieces
  obtain ⟨m, hm⟩ := Scanner.exists_merges (s := s) hregistry
  have hprovider : s.provider = .ofEntries es := hprovider
  have hid : s.provider.identify handle = .ok ("memory:" ++ handle) := hprovider ▸ Provider.identify_ofEntries hresource
  have htext : s.provider.text handle = .ok fragment := hprovider ▸ Provider.text_ofEntries hresource hdecode
  have hbrings : m.Brings s R.aliases p F := hm.brings hregistry hmarker hid htext hbalanced
  have hhost : Text.lines (Text.ofLines (above ++ line :: below)).toList = above ++ line :: below := Text.lines_ofLines hlines
  have hhost' : Text.lines (Text.ofLines (above ++ (Text.lines fragment.toList ++ below))).toList =
      above ++ (Text.lines fragment.toList ++ below) := by
    refine Text.lines_ofLines fun l hl ↦ ?_
    rcases List.mem_append.1 hl with hl | hl
    · exact hlines l (List.mem_append_left _ hl)
    rcases List.mem_append.1 hl with hl | hl
    · exact Text.isLine_of_mem_lines hreturn hl
    · exact hlines l (List.mem_append_right _ (List.mem_cons_of_mem _ hl))
  refine renderText_includes hregistry ht hm.follows hbrings hw ?_ M hok fun hstrays ↦ ?_
  · rw [hhost, hhost', List.map_append, List.map_cons, hline, List.map_append, List.map_append]
    exact .prepend _ (.here (.refl _))
  · obtain ⟨name, hname, hmem⟩ := RunResult.strays_dispatched hstrays
    rw [hm.omits] at hname
    exact hcommands name hname hmem

def holding (handle text : String) : Renderer := { plain with provider := .ofEntries [(handle, text.toUTF8.data.toList)] }

def rounds : String := "$\x7bIf '$index':0\x7d\nfirst\n$\x7bEndIf\x7d\n- $\x7b$n\x7d"

theorem renderText_imported_rounds : ((holding "part" rounds).renderText plain.workshop
    (Text.ofLines (["$\x7bFor value:[0,1], $as:'n'\x7d".toList] ++ (Text.lines rounds.toList ++ ["$\x7bEndFor\x7d".toList])))
    (.ofData (.map []))).text = "first\n- 0\n- 1" := by
  let above : List (List Char) := ["$\x7bFor value:[0,1], $as:'n'\x7d".toList]
  let line : List Char := "$\x7bImport resource:'part'\x7d".toList
  let below : List (List Char) := ["$\x7bEndFor\x7d".toList]
  obtain ⟨report, hok⟩ : ∃ report, ((holding "part" rounds).renderText plain.workshop (Text.ofLines (above ++ line :: below))
      (.ofData (.map []))).result = .ok report := except_toBool.1 (by decide +kernel)
  have hregistry : (holding "part" rounds).registry = .builtin := rfl
  have hdelimiters : (holding "part" rounds).settings.delimiters.Visible := Delimiters.visible_default
  have hprovider : (holding "part" rounds).provider = .ofEntries [("part", rounds.toUTF8.data.toList)] := rfl
  have hcoherent : plain.workshop.services.Coherent (holding "part" rounds).provider := .ofTtl (Provider.faithful_ofEntries _) _
  have hresource : Entries.get? "part" [("part", rounds.toUTF8.data.toList)] = some rounds.toUTF8.data.toList := rfl
  have hdecode : Text.decode rounds.toUTF8.data.toList = .ok rounds := by decide +kernel
  have hreturn : '\r' ∉ rounds.toList := by decide +kernel
  have hnames : ((Text.lines rounds.toList).map Delimiters.default.pieces).flatMap (Piece.names []) =
      [some "If", some "EndIf", some "String"] := by decide +kernel
  have hbalanced : Reach.Balanced (((Text.lines rounds.toList).map Delimiters.default.pieces).flatMap (Piece.names [])) := by
    rw [hnames]
    have hrest : Reach.Balanced [some "String"] := .other (by decide) .nil
    exact Reach.Balanced.block .conditions .nil hrest
  have hlines : ∀ l ∈ above ++ line :: below, Text.IsLine l := by decide +kernel
  have hline : Delimiters.default.pieces line = [.marker "Import resource:'part'".toList] := by decide +kernel
  have hmarker : Payload.included? [] "Import resource:'part'".toList = some "part" := by decide +kernel
  have hcommands : ∀ name ∈ ["Ignore", "Alias", "Clone"], name ∉ ((holding "part" rounds).renderText plain.workshop
      (Text.ofLines (above ++ line :: below)) (.ofData (.map []))).dispatched := by decide +kernel
  obtain ⟨_, -, -, htext, -⟩ := renderText_imported hregistry hdelimiters hprovider hcoherent hresource hdecode hreturn hbalanced
    hlines hline hmarker (.ofData (.map [])) hok hcommands
  rw [htext]
  decide +kernel

def fromData : List Char := "$\x7bImport @value:'x'\x7d".toList

def fromPart : List Char := "$\x7bImport resource:'part'\x7d".toList

def leavingOut : Model := .ofData (.map [("x", .leaf (.str "$\x7bIgnore\x7d"))])

/-- A text of the data that ignores all that follows it tells a resource from its lines. -/
theorem renderText_imported_leftOut :
    ([fromData, fromPart].map Delimiters.default.pieces).flatMap (Piece.names []) = [some "Import", some "Import"] ∧
      Delimiters.default.pieces fromPart = [.marker "Import resource:'part'".toList] ∧
      Payload.included? [] "Import resource:'part'".toList = some "part" ∧
      ((Text.lines "hello".toList).map Delimiters.default.pieces).flatMap (Piece.names []) = [] ∧
      ((holding "part" "hello").renderText plain.workshop (Text.ofLines [fromData, fromPart]) leavingOut).result.toBool = true ∧
      ((holding "part" "hello").renderText plain.workshop (Text.ofLines [fromData, "hello".toList]) leavingOut).result.toBool = true ∧
      ((holding "part" "hello").renderText plain.workshop (Text.ofLines [fromData, fromPart]) leavingOut).text =
        "$\x7bImport resource:'part'\x7d" ∧
      ((holding "part" "hello").renderText plain.workshop (Text.ofLines [fromData, "hello".toList]) leavingOut).text = "hello" := by
  decide +kernel

end Renderer

end Stencil
