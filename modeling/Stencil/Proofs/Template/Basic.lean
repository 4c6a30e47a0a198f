import Stencil.Command.Loop
import Stencil.Condition.Reading
import Stencil.Proofs.Payload.Pieces
import Stencil.Proofs.Sheet.Balance
import Stencil.Proofs.Text.Lines
/-!
Structured templates and their reference evaluation. A template is made of lines of text with values to
insert, of conditions and of loops; what it evaluates to is told by its structure alone, without a
document and without a scan. Its blocks are nested and closed, so that the search for a closing marker
leaves it as it came to it.
-/

namespace Stencil

def Payload.single? (p : List Char) : Option Command :=
  match read p with
  | .ok [c] => some c
  | _ => none

theorem Payload.single?_eq_some {p : List Char} {c : Command} : single? p = some c ↔ read p = .ok [c] := by
  rw [single?]
  constructor
  · intro h
    split at h
    · next hread => rw [hread, Option.some.inj h]
    · cases h
  · intro h
    rw [h]

namespace Command

/-- Whether a command is the short form that inserts the value at a path. -/
def isInsertion (c : Command) : Bool :=
  c.name == Payload.insertion && match c.params with
    | [(key, .str _)] => key == "$value" || key == "@value"
    | _ => false

def elementName (c : Command) : String := (c.str? "$as" <|> c.str? "as").getD "item"

def indexName (c : Command) : String := (c.str? "index").getD "index"

end Command

/-- Whether a piece is words, or a marker that inserts a value. -/
def Piece.isInline : Piece → Bool
  | words _ => true
  | marker p => (Payload.single? p).any Command.isInsertion
  | image _ => false

/-- Whether a value is written out or a variable leads to it. -/
def Source.isFree : Source → Bool
  | ofModel _ => false
  | _ => true

/-! ### Templates -/

/-- A line of text in which every marker inserts a value. -/
structure TextLine where
  text : List Char
  single : Text.IsLine text
  inserts : ∀ q ∈ Delimiters.default.pieces text, q.isInline = true

/-- A line that is one marker with one command. -/
structure Tag where
  payload : List Char
  command : Command
  single : Text.IsLine payload
  whole : Delimiters.default.payload? (Delimiters.default.enclose payload) = some payload
  read : Payload.single? payload = some command

structure Conditional where
  opener : Tag
  closer : Tag
  condition : Condition
  opens : opener.command.name = "If"
  accepted : Condition.ofParams opener.command.params = .ok condition
  closes : closer.command.name = "EndIf"

/-- The markers of a loop over a list that is written out or that a variable leads to. -/
structure Loop where
  opener : Tag
  closer : Tag
  source : Source
  opens : opener.command.name = "For"
  given : opener.command.source? "value" = .ok (some source)
  free : source.isFree = true
  element : Scope.isName opener.command.elementName = true
  index : Scope.isName opener.command.indexName = true
  closes : closer.command.name = "EndFor"

def TextLine.of? (text : List Char) : Option TextLine :=
  if h : Text.IsLine text ∧ ∀ q ∈ Delimiters.default.pieces text, q.isInline = true then some ⟨text, h.1, h.2⟩ else none

def Tag.of? (p : List Char) : Option Tag :=
  match h : Payload.single? p with
  | some c =>
    if hp : Text.IsLine p ∧ Delimiters.default.payload? (Delimiters.default.enclose p) = some p
    then some ⟨p, c, hp.1, hp.2, h⟩ else none
  | none => none

def Conditional.of? (opener closer : Tag) : Option Conditional :=
  match h : Condition.ofParams opener.command.params with
  | .ok condition =>
    if hn : opener.command.name = "If" ∧ closer.command.name = "EndIf"
    then some ⟨opener, closer, condition, hn.1, h, hn.2⟩ else none
  | .error _ => none

def Loop.of? (opener closer : Tag) : Option Loop :=
  match h : opener.command.source? "value" with
  | .ok (some source) =>
    if hn : opener.command.name = "For" ∧ source.isFree = true ∧ Scope.isName opener.command.elementName = true ∧
      Scope.isName opener.command.indexName = true ∧ closer.command.name = "EndFor"
    then some ⟨opener, closer, source, hn.1, h, hn.2.1, hn.2.2.1, hn.2.2.2.1, hn.2.2.2.2⟩ else none
  | _ => none

/-- Lines of text, conditions and loops, one below the other and nested at will. -/
inductive Template where
  | nil
  | line (l : TextLine) (rest : Template)
  | conditional (b : Conditional) (body rest : Template)
  | loop (b : Loop) (body rest : Template)

/-! ### Source -/

def Tag.text (g : Tag) : List Char := Delimiters.default.enclose g.payload

namespace Template

def lines : Template → List (List Char)
  | nil => []
  | line l rest => l.text :: rest.lines
  | conditional b body rest => b.opener.text :: (body.lines ++ b.closer.text :: rest.lines)
  | loop b body rest => b.opener.text :: (body.lines ++ b.closer.text :: rest.lines)

/-- The text of a template, in which every line is ended. -/
def source (T : Template) : String := String.ofList (T.lines.flatMap fun l ↦ l ++ ['\n'])

end Template

/-! ### Evaluation -/

/-- The text of a single value; one that is missing has none to show. -/
def Datum.shown? : Option Datum → Option String
  | none => some ""
  | some (.leaf v) => some v.text
  | some _ => none

/-- The elements of a list; one that is missing has none. -/
def Datum.elements? : Option Datum → Option (List Datum)
  | none => some []
  | some (.leaf .null) => some []
  | some (.list items) => some items
  | some _ => none

/-- What a piece of a line stands for: words for themselves, a marker for its value. -/
def Piece.eval (m : Model) : Piece → Option String
  | words s => some (String.ofList s)
  | marker p => (Payload.single? p).bind fun c ↦ match c.source? "value" with
    | .ok (some source) => Datum.shown? (m.value? source)
    | _ => none
  | image _ => none

/-- A line with a value in the place of every marker. -/
def TextLine.eval (l : TextLine) (m : Model) : Option String :=
  ((Delimiters.default.pieces l.text).mapM (Piece.eval m)).map String.join

/-- The bindings that the body of a loop is evaluated in, element by element. -/
def Loop.models (b : Loop) (m : Model) : Option (List Model) := do
  let items ← Datum.elements? (m.value? b.source)
  items.zipIdx.mapM fun (d, i) ↦ do
    let inner ← (m.push b.opener.command.elementName d).toOption
    (inner.push b.opener.command.indexName (.leaf (.int i))).toOption

/-- The lines that a template stands for. There are none when a loop is over something else than a list,
or a marker for something else than a single value. -/
def Template.eval : Template → Model → Option (List String)
  | nil, _ => some []
  | line l rest, m => do
    let text ← l.eval m
    let below ← rest.eval m
    some (text :: below)
  | conditional b body rest, m => do
    let inner ← (if b.condition.holds (Condition.orderIn m) then body.eval m else some [])
    let below ← rest.eval m
    some (inner ++ below)
  | loop b body rest, m => do
    let models ← b.models m
    let copies ← models.mapM fun m ↦ body.eval m
    let below ← rest.eval m
    some (copies.flatten ++ below)

end Stencil

/-! ### Looking ahead -/

namespace Stencil

theorem Tag.pieces_text (g : Tag) : Delimiters.default.pieces g.text = [.marker g.payload] := by
  have hcut : Delimiters.default.cut? g.text = some ⟨[], g.payload, []⟩ := by
    have hwhole := g.whole
    rw [Delimiters.payload?] at hwhole
    split at hwhole
    · next hcut =>
      rw [← Option.some.inj hwhole]
      rw [Tag.text, hcut, Option.some.inj hwhole]
    · cases hwhole
  rw [Delimiters.pieces_cut Delimiters.proper_default hcut]
  rfl

theorem Command.isInsertion_iff {c : Command} : c.isInsertion = true ↔
    c.name = "String" ∧ ∃ key path, (key = "$value" ∨ key = "@value") ∧ c.params = [(key, .str path)] := by
  rw [isInsertion, Bool.and_eq_true, beq_iff_eq]
  refine and_congr Iff.rfl ⟨fun h ↦ ?_, ?_⟩
  · split at h
    · next key path hparams => exact ⟨key, path, by simpa using h, hparams⟩
    · cases h
  · rintro ⟨key, path, hkey, hparams⟩
    rw [hparams]
    simpa using hkey

theorem Piece.inserts_of_isInline {p : List Char} (h : (Piece.marker p).isInline = true) :
    ∃ c, Payload.read p = .ok [c] ∧ c.isInsertion = true := by
  obtain ⟨c, hc, hinsertion⟩ := (Option.any_eq_true _ _).1 h
  exact ⟨c, Payload.single?_eq_some.1 hc, hinsertion⟩

theorem Tag.nameOf? (g : Tag) : Aliases.nameOf? [] g.payload = some g.command.name := by
  rw [Aliases.nameOf?, Payload.single?_eq_some.1 g.read]
  rfl

namespace Template

def sheet (T : Template) : List Line := T.lines.map Delimiters.default.pieces

theorem sheet_nil : nil.sheet = [] := rfl

theorem sheet_line (l : TextLine) (rest : Template) :
    (line l rest).sheet = [Delimiters.default.pieces l.text] ++ rest.sheet := rfl

theorem sheet_conditional (b : Conditional) (body rest : Template) : (conditional b body rest).sheet =
    ([.marker b.opener.payload] :: (body.sheet ++ [[.marker b.closer.payload]])) ++ rest.sheet := by
  simp [sheet, lines, Tag.pieces_text]

theorem sheet_loop (b : Loop) (body rest : Template) : (loop b body rest).sheet =
    ([.marker b.opener.payload] :: (body.sheet ++ [[.marker b.closer.payload]])) ++ rest.sheet := by
  simp [sheet, lines, Tag.pieces_text]

end Template

open Reach in
theorem TextLine.balanced (l : TextLine) {names : List (Option String)} (h : Balanced names) :
    Balanced (Piece.names [] (Delimiters.default.pieces l.text) ++ names) := by
  have hline : ∀ qs : Line, (∀ p, .marker p ∈ qs → Aliases.nameOf? [] p = some "String") → Balanced (Piece.names [] qs ++ names) :=
    fun qs ↦ by
      induction qs with
      | nil => exact fun _ ↦ h
      | cons q qs ih =>
        intro hqs
        have htail := ih fun p hp ↦ hqs p (List.mem_cons_of_mem _ hp)
        cases q with
        | words => exact htail
        | image => exact htail
        | marker p =>
          have hname : ∀ name ∈ Aliases.nameOf? [] p, name ∉ blockNames := by
            rw [hqs p (List.mem_cons_self ..)]
            decide
          exact .other hname htail
  refine hline _ fun p hp ↦ ?_
  obtain ⟨c, hread, hc⟩ := Piece.inserts_of_isInline (l.inserts _ hp)
  rw [Aliases.nameOf?, hread]
  exact congrArg some (Command.isInsertion_iff.1 hc).1

open Reach in
theorem Template.balanced : ∀ (T : Template), Balanced (T.sheet.flatMap (Piece.names []))
  | nil => .nil
  | line l rest => by
    rw [sheet_line, List.singleton_append, List.flatMap_cons]
    exact l.balanced rest.balanced
  | conditional b body rest => by
    have hnames : (conditional b body rest).sheet.flatMap (Piece.names []) =
        some "If" :: (body.sheet.flatMap (Piece.names []) ++ some "EndIf" :: rest.sheet.flatMap (Piece.names [])) := by
      rw [sheet_conditional]
      simp [Piece.names, Piece.name?, b.opener.nameOf?, b.closer.nameOf?, b.opens, b.closes]
    rw [hnames]
    exact .block .conditions body.balanced rest.balanced
  | loop b body rest => by
    have hnames : (loop b body rest).sheet.flatMap (Piece.names []) =
        some "For" :: (body.sheet.flatMap (Piece.names []) ++ some "EndFor" :: rest.sheet.flatMap (Piece.names [])) := by
      rw [sheet_loop]
      simp [Piece.names, Piece.name?, b.opener.nameOf?, b.closer.nameOf?, b.opens, b.closes]
    rw [hnames]
    exact .block .loops body.balanced rest.balanced

end Stencil
