import Stencil.Command.Builtin
import Stencil.Proofs.Data.Cursor
import Stencil.Proofs.Data.Datum
import Stencil.Proofs.Data.Scope
import Stencil.Proofs.Payload.Pieces
import Stencil.Proofs.Payload.Writing
import Stencil.Proofs.Run.Step
/-!
The placeholders around the copies of a loop. Each opens with commands that put an element and its
index at hand and closes with commands that give back the very model that was there before, as long
as the text of the element's path, or of the cursor, reads back as the path.
-/

namespace Stencil

/-- A text that is one marker, and the commands in it. -/
def Delimiters.Holds (d : Delimiters) (text : String) (cs : Commands) : Prop :=
  ∃ payload, d.cut? text.toList = some ⟨[], payload, []⟩ ∧ d.enclose payload = text.toList ∧
    Payload.read payload = .ok cs

/-- Commands that are carried out one after another, each of which leaves the placeholder to be
removed. -/
inductive Selection.Consumes (s : Selection) : Commands → RunState → RunState → Prop where
  | nil (r : RunState) : Consumes s [] r r
  | cons {h : Handler} {c : Command} {cs : Commands} {r r₁ r₂ : RunState} :
      Registry.builtin.get? c.name = some h →
      (h.execute { s with command := c }).on r = (.ok .consumed, r₁) →
      Consumes s cs r₁ r₂ → Consumes s (c :: cs) r r₂

theorem Delimiters.holds_marker (cs : Commands) (hne : cs ≠ []) (h : ∀ c ∈ cs, c.Writable) :
    ∃ ds, Delimiters.default.Holds (Delimiters.default.marker cs) ds ∧ Payload.Commands.Agree ds cs := by
  have hclosing : Payload.EndsBracket Delimiters.default.closing.toList := ⟨'\x7d', [], rfl, .inl rfl⟩
  have hcut := Delimiters.cut?_enclose_level hclosing (Payload.level_write fun c hc ↦ (h c hc).word) []
  rw [List.append_nil] at hcut
  obtain ⟨ds, hread, hagree⟩ := Payload.read_write hne h
  refine ⟨ds, ⟨Payload.write cs, ?_, ?_, hread⟩, hagree⟩
  · rw [Delimiters.marker, String.toList_ofList, hcut]
  · rw [Delimiters.marker, String.toList_ofList]

namespace Handler

variable {s : Selection} {r : RunState}

end Handler

namespace ElementBinding

def ReadsBack (i : ℕ) : ElementBinding → Prop
  | ofVariable _ (.literal _) => True
  | ofVariable _ (.ofVariable p) => Path.parseVariable (p.elementText i) = .ok (p.push (.index i))
  | ofVariable _ (.ofModel p) => Path.parse (p.elementText i) = .ok (p.push (.index i))
  | ofCursor list restore =>
    Path.parse ("^" ++ list.elementText i) = .ok ⟨.root :: (list.push (.index i)).steps⟩ ∧
      Path.parse ("^" ++ restore.display) = .ok ⟨.root :: restore.steps⟩

/-- A list named by a data path is not `.`, and the text of its path does not begin with a blank;
the text of a cursor to come back to does not end with one. -/
def Faithful : ElementBinding → Prop
  | ofVariable _ (.ofModel p) => p.steps ≠ [.current] ∧ ∀ c ∈ p.display.toList.head?, Text.isBlank c = false
  | ofVariable _ _ => True
  | ofCursor _ restore => ∀ c ∈ restore.display.toList.getLast?, Text.isBlank c = false

def Shows (m : Model) (d : Datum) : ElementBinding → Prop
  | ofVariable name _ => m.scope.get? name = some d
  | ofCursor _ _ => m.current = some d

def Apart (index : String) : ElementBinding → Prop
  | ofVariable name _ => name ≠ index
  | ofCursor _ _ => True

section Commands

variable (name : String) (i : ℕ)

def pushing (key : String) (v : Json) : Command :=
  ((Command.bare "Push").put "key" (.str name)).put key v

theorem pushElement_eq (source : Source) : pushElement name i source = match source with
    | .literal list => pushing name "value" (((list.at? i).map Datum.toJson).getD .null)
    | .ofVariable p => pushing name "$value" (.str (p.elementText i))
    | .ofModel p => pushing name "@value" (.str (p.elementText i)) := by cases source <;> rfl

theorem pushing_params {key : String} (h : key ≠ "key") (v : Json) :
    (pushing name key v).params = [("key", .str name), (key, v)] := by
  simp [pushing, Command.bare, Command.put, Entries.put, Ne.symm h]

theorem pushing_writable {key : String} (h : key ≠ "key") {v : Json} (hv : v.Readable) :
    (pushing name key v).Writable where
  word := by
    change Payload.IsWord "Push".toList
    exact ⟨'P', ['u', 's', 'h'], by decide, rfl, List.all_eq_true.1 rfl⟩
  ident := by
    change Payload.wordToken "Push".toList = .ident "Push".toList
    decide
  keys := by
    rw [pushing_params name h]
    simp [Entries.keys, Ne.symm h]
  values := by
    rw [pushing_params name h]
    exact ⟨trivial, hv, trivial⟩

theorem release_writable : (release name).Writable where
  word := by
    change Payload.IsWord "Pop".toList
    exact ⟨'P', ['o', 'p'], by decide, rfl, List.all_eq_true.1 rfl⟩
  ident := by
    change Payload.wordToken "Pop".toList = .ident "Pop".toList
    decide
  keys := by simp [release, Command.bare, Command.put, Entries.put, Entries.keys]
  values := ⟨trivial, trivial⟩

theorem pushing_source_literal (v : Json) (span? : Option Payload.Span) :
    Command.source? { pushing name "value" v with span? } "value" = .ok (some (.literal (Datum.ofJson v))) := rfl

theorem pushing_source_variable {text : String} {p : Path} (h : Path.parseVariable text = .ok p)
    (span? : Option Payload.Span) :
    Command.source? { pushing name "$value" (.str text) with span? } "value" = .ok (some (.ofVariable p)) := by
  change (do
    let p ← Command.liftPath (Path.parseVariable text)
    .ok (some (.ofVariable p)) : Except RunError (Option Source)) = _
  rw [h]
  rfl

theorem pushing_source_model {text : String} {p : Path} (h : Path.parse text = .ok p)
    (span? : Option Payload.Span) :
    Command.source? { pushing name "@value" (.str text) with span? } "value" =
      .ok (some (Command.sourceOfPath p)) := by
  change (do
    let p ← Command.liftPath (Path.parse text)
    .ok (some (Command.sourceOfPath p)) : Except RunError (Option Source)) = _
  rw [h]
  rfl

theorem readable_int (h : i < 2 ^ 63) : (Json.int i).Readable := by
  have hmin : Json.minInt = -9223372036854775808 := rfl
  have hmax : Json.maxInt = 9223372036854775807 := rfl
  simp only [Json.Readable, Json.fitsInt, hmin, hmax, Bool.and_eq_true, decide_eq_true_eq]
  omega

theorem ofJson_int (h : i < 2 ^ 63) : Datum.ofJson (.int i) = .leaf (.int i) := by
  have hfits : Json.fitsInt i = true := readable_int i h
  rw [Datum.ofJson, if_pos hfits]

end Commands

section Paths

variable {p : Path} {i : ℕ}

theorem writeSteps_push (afterNamed : Bool) (steps : List Step) (i : ℕ) :
    Path.writeSteps afterNamed (steps ++ [.index i]) =
      Path.writeSteps afterNamed steps ++ '[' :: (Decimal.natText i ++ [']']) := by
  induction steps generalizing afterNamed with
  | nil => simp [Path.writeSteps, Path.writeStep]
  | cons s ss ih => rw [List.cons_append, Path.writeSteps, Path.writeSteps, ih, List.append_assoc]

theorem elementText_toList (p : Path) (i : ℕ) :
    (p.elementText i).toList = p.display.toList ++ '[' :: (Decimal.natText i ++ [']']) := by
  rw [Path.elementText, Path.display, String.toList_ofList, Path.push, writeSteps_push, Path.display,
    String.toList_ofList]

theorem getLast?_elementText (p : Path) (i : ℕ) : (p.elementText i).toList.getLast? = some ']' := by
  rw [elementText_toList, ← List.cons_append, ← List.append_assoc, List.getLast?_append]
  rfl

theorem regular_push (h : Path.Regular p.steps) (hi : i ≤ Path.maxIndex) :
    Path.Regular (p.push (.index i)).steps where
  valid s hs := by
    rcases List.mem_append.1 hs with hs | hs
    · exact h.valid s hs
    · exact List.mem_singleton.1 hs ▸ hi
  inside s hs := by
    cases hp : p.steps with
    | nil => rw [Path.push, hp] at hs; simp at hs
    | cons t ts =>
      rw [Path.push, hp, List.cons_append, List.tail_cons] at hs
      rcases List.mem_append.1 hs with hs | hs
      · exact h.inside s (by rw [hp]; exact hs)
      · exact List.mem_singleton.1 hs ▸ rfl

/-- The text of an element's path reads back as the path just when the list is not `.` and its own
text does not begin with a blank. -/
theorem parse_elementText_iff (h : p.steps = [.current] ∨ Path.Regular p.steps) (hi : i ≤ Path.maxIndex) :
    Path.parse (p.elementText i) = .ok (p.push (.index i)) ↔
      p.steps ≠ [.current] ∧ ∀ c ∈ p.display.toList.head?, Text.isBlank c = false := by
  rcases h with hcur | hreg
  · refine iff_of_false (fun hread ↦ ?_) fun hne ↦ hne.1 hcur
    rcases Path.parse_spec hread with ⟨hsteps, _⟩ | ⟨hreg, _⟩
    · rw [Path.push, hcur] at hsteps
      simp at hsteps
    · exact hreg.valid .current (by simp [Path.push, hcur])
  · have hne : p.steps ≠ [.current] := by
      intro hcur
      exact hreg.valid .current (by simp [hcur])
    have hhead : (∀ c ∈ (p.elementText i).toList.head?, Text.isBlank c = false) ↔
        ∀ c ∈ p.display.toList.head?, Text.isBlank c = false := by
      rw [elementText_toList]
      cases p.display.toList with
      | nil => simp; rfl
      | cons c s => simp
    have hlast : ∀ c ∈ (p.elementText i).toList.getLast?, Text.isBlank c = false := by
      rw [getLast?_elementText]
      rintro c ⟨⟩
      rfl
    have hiff := Path.parse_display_iff (regular_push hreg hi)
    rw [Path.elementText] at hhead hlast ⊢
    rw [hiff, Text.trim_eq_self_iff, hhead]
    exact ⟨fun h ↦ ⟨hne, h.1⟩, fun h ↦ ⟨h.2, hlast⟩⟩

theorem parseVariable_elementText (h : Path.Regular p.steps) (hvar : p.hasVariable = true)
    (hi : i ≤ Path.maxIndex) : Path.parseVariable (p.elementText i) = .ok (p.push (.index i)) := by
  obtain ⟨n, rest, hp⟩ : ∃ n rest, p.steps = .variableName n :: rest := by
    obtain ⟨s, hs, hsv⟩ := List.any_eq_true.1 hvar
    cases hp : p.steps with
    | nil => rw [hp] at hs; simp at hs
    | cons t ts =>
      rw [hp] at hs
      rcases List.mem_cons.1 hs with rfl | hs
      · cases s <;> simp [Path.isVariable] at hsv
        exact ⟨_, _, rfl⟩
      · have := h.inside s (by rw [hp]; exact hs)
        rw [hsv] at this
        contradiction
  have hdisplay : p.display.toList = '$' :: (n.toList ++ Path.writeSteps true rest) := by
    rw [Path.display, String.toList_ofList, hp]
    rfl
  have htrim : Text.trim (p.elementText i).toList = (p.elementText i).toList := by
    rw [Text.trim_eq_self_iff, getLast?_elementText]
    constructor
    · rw [elementText_toList, hdisplay]
      rintro c ⟨⟩
      rfl
    · rintro c ⟨⟩
      rfl
  have hread := (parse_elementText_iff (.inr h) hi).2
    ⟨by simp [hp], by rw [hdisplay]; rintro c ⟨⟩; rfl⟩
  have hstart : (p.elementText i).toList = '$' :: (n.toList ++ Path.writeSteps true rest ++
      '[' :: (Decimal.natText i ++ [']'])) := by
    rw [elementText_toList, hdisplay, List.cons_append]
  simp only [Path.parseVariable, htrim, String.ofList_toList]
  split
  · exact hread
  · next hno => exact absurd hstart (hno _)

end Paths

section Brackets

variable {m : Model} {name index : String} {i : ℕ} {d : Datum}

theorem agree_two {cs : Commands} {a b : Command} (h : Payload.Commands.Agree cs [a, b]) :
    ∃ sa sb, cs = [{ a with span? := sa }, { b with span? := sb }] := by
  cases h with
  | cons h₁ h =>
    cases h with
    | cons h₂ h =>
      cases h
      obtain ⟨sa, rfl⟩ := h₁
      obtain ⟨sb, rfl⟩ := h₂
      exact ⟨sa, sb, rfl⟩

end Brackets

end ElementBinding

inductive Source.Given (c : Command) (key : String) : Source → Prop where
  | literal {v : Json} : c.param? key = some v → Given c key (.literal (Datum.ofJson v))
  | ofVariable {p : Path} : Path.Regular p.steps → p.hasVariable = true → Given c key (.ofVariable p)
  | ofModel {p : Path} : p.Written → p.hasVariable = false → Given c key (.ofModel p)

theorem Command.liftPath_eq_ok {α : Type} {x : Except PathError α} {a : α} :
    Command.liftPath x = .ok a ↔ x = .ok a := by cases x <;> simp [Command.liftPath]

theorem Path.Written.regular_of_variable {p : Path} (h : p.Written) (hvar : p.hasVariable = true) :
    Regular p.steps := by
  rcases h.steps with hcur | hreg
  · rw [hasVariable, hcur] at hvar
    simp [isVariable] at hvar
  · exact hreg

theorem Command.source?_given {c : Command} {key : String} {source : Source}
    (h : c.source? key = .ok (some source)) : source.Given c key := by
  simp only [source?] at h
  split at h
  · next v hv =>
    obtain rfl := Option.some.inj (Except.ok.inj h)
    exact .literal hv
  · next v _ _ =>
    obtain ⟨text, _, h⟩ := except_bind_eq_ok.1 h
    obtain ⟨p, hp, h⟩ := except_bind_eq_ok.1 h
    obtain rfl := Option.some.inj (Except.ok.inj h)
    have hread := liftPath_eq_ok.1 hp
    have hvar := Path.parseVariable_hasVariable hread
    exact .ofVariable (Path.Written.regular_of_variable ⟨text, .inr hread⟩ hvar) hvar
  · next v _ _ _ =>
    obtain ⟨text, _, h⟩ := except_bind_eq_ok.1 h
    obtain ⟨p, hp, h⟩ := except_bind_eq_ok.1 h
    obtain rfl := Option.some.inj (Except.ok.inj h)
    have hread := liftPath_eq_ok.1 hp
    have hwritten : p.Written := ⟨text, .inl hread⟩
    rw [sourceOfPath]
    split
    · next hvar => exact .ofVariable (hwritten.regular_of_variable hvar) hvar
    · next hvar => exact .ofModel hwritten (by simpa using hvar)
  · simp at h

namespace Handler

end Handler

namespace ElementBinding

variable {m : Model} {b : ElementBinding} {name? : Option String} {source : Source} {c : Command} {i : ℕ}

theorem pushElement_name (name : String) (i : ℕ) (source : Source) : (pushElement name i source).name = "Push" := by
  cases source <;> rfl

theorem pushElement_key (name : String) (i : ℕ) (source : Source) :
    (pushElement name i source).str? "key" = some name := by cases source <;> rfl

theorem pushElement_reads {name : String} {items : List Datum} {d : Datum} (hgiven : source.Given c "value")
    (hparams : ∀ v, c.param? "value" = some v → v.Sound) (hitems : m.value? source = some (.list items))
    (hd : items[i]? = some d) (hreads : (ofVariable name source).ReadsBack i) :
    (pushElement name i source).Writable ∧ ∀ span?, ∃ src,
      Command.source? { pushElement name i source with span? } "value" = .ok (some src) ∧ m.value? src = some d := by
  cases hgiven with
  | @literal v hv =>
    have hlist : Datum.ofJson v = .list items := Option.some.inj hitems
    have hsound : d.Sound := by
      have := Datum.sound_ofJson v (hparams v hv)
      rw [hlist] at this
      exact Datum.SoundItems.at this hd
    have helement : pushElement name i (.literal (Datum.ofJson v)) = pushing name "value" d.toJson := by
      rw [pushElement_eq, hlist]
      simp only [Datum.at?, hd, Option.map_some, Option.getD_some]
    refine ⟨?_, fun span? ↦ ⟨.literal d, ?_, rfl⟩⟩
    · rw [helement]
      exact pushing_writable _ (by decide) (Datum.readable_toJson d hsound)
    · rw [helement, pushing_source_literal, Datum.ofJson_toJson d hsound]
  | @ofVariable p hreg hvar =>
    refine ⟨pushing_writable _ (by decide) trivial, fun span? ↦ ⟨_, pushing_source_variable _ hreads span?, ?_⟩⟩
    rw [Model.value?, Model.resolve, Path.resolve_push hitems, hd]
  | @ofModel p hp hvar =>
    refine ⟨pushing_writable _ (by decide) trivial, fun span? ↦ ⟨_, pushing_source_model _ hreads span?, ?_⟩⟩
    have hvalue : m.value? (Command.sourceOfPath (p.push (.index i))) = m.resolve (p.push (.index i)) := by
      rw [Command.sourceOfPath]
      split <;> rfl
    rw [hvalue, Model.resolve, Path.resolve_push hitems, hd]

end ElementBinding

namespace Handler

/-- What a loop that is carried out has done: it has found its list, and put copies in the place of
its area, each between markers for an element. -/
theorem loop_on {s : Selection} {r r' : RunState} {o : Outcome}
    (h : (Handler.loop.execute s).on r = (.ok o, r')) :
    ∃ source n b area r₁ next, s.command.source? "value" = .ok (some source) ∧
      Scope.isName ((s.str? "index").getD "index") = true ∧ countElements (r.model.value? source) = .ok n ∧
      bindingOf r.model.cursor (s.str? "$as" <|> s.str? "as") source = .ok b ∧
      (Area.replicate s.toolkit area
        ((List.range n).map (b.markers ((s.str? "index").getD "index")))).on r₁ = (.ok next, r') ∧
      o = .ofEdit next := by
  simp only [Handler.loop] at h
  obtain ⟨source?, r₁, hgiven, h₁⟩ := Run.on_bind_eq_ok h
  obtain ⟨hsource, rfl⟩ := Run.on_ofExcept_eq_ok hgiven
  cases source? with
  | none => simp at h₁
  | some source =>
    obtain ⟨_, r₂, hcheck, h₂⟩ := Run.on_bind_eq_ok h₁
    obtain ⟨hindex, rfl⟩ := Run.on_ofExcept_eq_ok hcheck
    rw [Run.on_bind_ok (Run.on_model _)] at h₂
    obtain ⟨n, r₃, hcount, h₃⟩ := Run.on_bind_eq_ok h₂
    obtain ⟨hn, rfl⟩ := Run.on_ofExcept_eq_ok hcount
    obtain ⟨b, r₄, hbinding, h₄⟩ := Run.on_bind_eq_ok h₃
    obtain ⟨hb, rfl⟩ := Run.on_ofExcept_eq_ok hbinding
    obtain ⟨closing, r₅, _, h₅⟩ := Run.on_bind_eq_ok h₄
    rw [Run.on_bind_ok (Run.on_log _ _)] at h₅
    obtain ⟨area, r₆, _, h₆⟩ := Run.on_bind_eq_ok h₅
    obtain ⟨next, r₇, hnext, h₇⟩ := Run.on_bind_eq_ok h₆
    simp only [Run.on_pure, Prod.mk.injEq, Except.ok.injEq] at h₇
    obtain ⟨rfl, rfl⟩ := h₇
    refine ⟨source, n, b, area, r₆, next, hsource, ?_, hn, hb, hnext, rfl⟩
    by_contra hno
    simp [Scope.checkName, hno] at hindex

def rowsLoop : Selection where
  node := ⟨0, 2⟩
  command := ⟨"For", [("@value", .str "rows"), ("$as", .str "row")], none⟩
  toolkit? := some (Toolkit.ofDelimiters Delimiters.default)
  provider := .empty
  now := ⟨⟨0, 1⟩, .midnight⟩

example : ¬ElementBinding.Faithful (.ofVariable "row" (.ofModel ⟨[.current]⟩)) := fun h ↦ h.1 rfl

end Handler

end Stencil
