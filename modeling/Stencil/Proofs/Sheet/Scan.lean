import Stencil.Command.Builtin
import Stencil.Proofs.Run.Search
import Stencil.Run.Scan
/-!
Scans of sheets. A scan is carried out on a sheet marker by marker, as far as the commands that it meets
have a counterpart there: conditions, loops and regions to ignore. What the commands without a block come to
is told by a manual.
-/

namespace Stencil

def Area.CopyMarkers.lines (t : Delimiters) (m : Area.CopyMarkers) : Line × Line :=
  (t.pieces (t.marker m.opening).toList, t.pieces (t.marker m.closing).toList)

namespace Gap

variable (t : Delimiters) (c : Command) (k : Desk) (g : Gap)

/-- Where the closing marker of the block stands that a command opens. -/
def reach (openers : List String) (closer : String) : Except RunError Reach :=
  match Reach.seek? k.aliases openers closer ⟨0, false⟩ g.right g.below with
  | some reach => .ok reach
  | none => .error (.structure (.noClosing c.name closer))

def conditional : Except RunError Upshot := do
  let condition ← (Condition.ofParams c.params).mapError .condition
  let reach ← g.reach c k ["If"] "EndIf"
  .ok (.moved (if condition.holds (Condition.orderIn k.model) then g.opened t reach else g.replicated [] reach))

def loopMarkers : Except RunError (List Area.CopyMarkers) := do
  match ← c.source? "value" with
  | none => .error (.structure (.missingParam "For" "value"))
  | some source => do
    let index := (c.str? "index").getD "index"
    (Scope.checkName index).mapError .path
    let copies ← Handler.countElements (k.model.value? source)
    let binding ← Handler.bindingOf k.model.cursor (c.str? "$as" <|> c.str? "as") source
    .ok ((List.range copies).map (binding.markers index))

def loop : Except RunError Upshot := do
  let markers ← loopMarkers c k
  let reach ← g.reach c k ["For"] "EndFor"
  .ok (.moved (g.replicated (markers.map (·.lines t)) reach))

theorem loop_eq : g.loop t c k = (c.source? "value").mapError id >>= fun source? ↦ match source? with
    | none => .error (.structure (.missingParam "For" "value"))
    | some source => (Scope.checkName ((c.str? "index").getD "index")).mapError .path >>= fun _ ↦
      (Handler.countElements (k.model.value? source)).mapError id >>= fun copies ↦
        (Handler.bindingOf k.model.cursor (c.str? "$as" <|> c.str? "as") source).mapError id >>= fun binding ↦
          g.reach c k ["For"] "EndFor" >>= fun reach ↦ .ok (.moved (g.replicated
            (((List.range copies).map (binding.markers ((c.str? "index").getD "index"))).map (·.lines t)) reach)) := by
  rw [loop, loopMarkers]
  rcases c.source? "value" with e | _ | source
  · rfl
  · rfl
  · dsimp only [bind, Except.bind, Except.mapError, id]
    cases Scope.checkName ((c.str? "index").getD "index") with
    | error e => rfl
    | ok =>
      cases Handler.countElements (k.model.value? source) with
      | error e => rfl
      | ok copies => cases Handler.bindingOf k.model.cursor (c.str? "$as" <|> c.str? "as") source <;> rfl

def ignored : Upshot :=
  .moved (g.skipped t (Reach.seek? k.aliases [] "EndIgnore" ⟨0, false⟩ g.right g.below))

end Gap

/-! ### Scans -/

/-- What commands without a block come to, and the desk that each of them leaves; and the names of the commands
that are not told of. -/
structure Manual where
  omits : List String
  tells : Command → Desk → Except RunError Deed × Desk

/-- A manual that tells of the commands of a name what is given. -/
def Manual.tell (m : Manual) (name : String) (f : Command → Desk → Except RunError Deed × Desk) : Manual :=
  { m with tells := fun c ↦ if c.name = name then f c else m.tells c }

structure Draft where
  sheet : Sheet
  desk : Desk
  report : Report

namespace Report

def addExecuted (r : Report) : Report := { r with executed := r.executed + 1 }

def addIgnored (r : Report) : Report := { r with ignored := r.ignored + 1 }

end Report

def Manual.openers : List String := ["If", "For", "Ignore"]

namespace Gap

variable (s : Scanner) (m : Manual) (g : Gap)

def answer (t : Delimiters) (c : Command) (k : Desk) : Option (Except RunError Upshot × Desk) :=
  if c.name ∈ m.omits then none
  else if c.name = "If" then some (g.conditional t c k, k)
  else if c.name = "For" then some (g.loop t c k, k)
  else if c.name = "Ignore" then some (.ok (g.ignored t k), k)
  else some ((m.tells c k).1.map (g.perform t), (m.tells c k).2)

theorem mem_omits_of_answer {m : Manual} {g : Gap} {t : Delimiters} {c : Command} {k : Desk} (h : g.answer m t c k = none) :
    c.name ∈ m.omits := by
  rw [answer] at h
  split at h
  · assumption
  · split_ifs at h

/-- Notes what went wrong at a marker, or ends the scan with it. -/
def record (name? : Option String) (e : RunError) (r : Report) : Except RunError Report :=
  if s.settings.failFast then .error e
  else .ok { r with findings := r.findings ++ [⟨e, name?, g.marker s.toolkit.delimiters⟩] }

/-- Carries out the commands of a marker one after another, up to the first that moves the scan on or
leaves the marker alone. -/
def carryOut : Commands → Desk → Report → Option (Except RunError Draft)
  | [], k, r => some (.ok ⟨g.kept s.toolkit.delimiters, k, r⟩)
  | c :: rest, k, r => match s.registry.get? c.name with
    | none => some (.error (.unknownCommand c.name))
    | some _ => match g.answer m s.toolkit.delimiters c k with
      | none => none
      | some (.ok .consumed, k) =>
        if rest.isEmpty then some (.ok ⟨g.removed s.toolkit.delimiters, k, r.addExecuted⟩) else carryOut rest k r
      | some (.ok .ignored, k) => some (.ok ⟨g.kept s.toolkit.delimiters, k, r.addIgnored⟩)
      | some (.ok (.moved sheet), k) =>
        if rest.isEmpty then some (.ok ⟨sheet, k, r.addExecuted⟩)
        else some ((g.record s (some c.name) (.structure (.leftover rest.length c.name)) r.addExecuted).map
          fun r ↦ ⟨sheet, k, r⟩)
      | some (.error e, k) =>
        some ((g.record s (some c.name) e r).map fun r ↦ ⟨g.kept s.toolkit.delimiters, k, r⟩)

/-- Carries out the commands of a marker, none of them unless all are known. -/
def dispatch (cs : Commands) (k : Desk) (r : Report) : Option (Except RunError Draft) :=
  let commands := cs.map k.aliases.expand
  match commands.find? fun c ↦ !s.registry.has c.name with
  | none => g.carryOut s m commands k r
  | some c => match s.settings.unknownCommand with
    | .ignore => some (.ok ⟨g.kept s.toolkit.delimiters, k, r.addIgnored⟩)
    | .fail => some (.error (.unknownCommand c.name))

def visit (k : Desk) (r : Report) : Option (Except RunError Draft) :=
  match Payload.read g.payload with
  | .ok cs => g.dispatch s m cs k r
  | .error e =>
    some ((g.record s none (.payload e) r.addIgnored).map fun r ↦ ⟨g.kept s.toolkit.delimiters, k, r⟩)

theorem dispatch_known {cs cs' : Commands} {k : Desk} {r : Report} (hexpand : cs.map k.aliases.expand = cs')
    (hknown : ∀ c ∈ cs', s.registry.has c.name = true) : g.dispatch s m cs k r = g.carryOut s m cs' k r := by
  have hfind : (cs'.find? fun c ↦ !s.registry.has c.name) = none := by
    rw [List.find?_eq_none]
    intro c hc
    simp [hknown c hc]
  rw [dispatch, hexpand]
  simp only [hfind]

theorem visit_read {cs : Commands} {k : Desk} {r : Report} (hread : Payload.read g.payload = .ok cs) : g.visit s m k r = g.dispatch s m cs k r := by
  rw [visit, hread]

theorem visit_moved {c c' : Command} {h : Handler} {sheet : Sheet} {k k' : Desk} {r : Report} (hread : Payload.read g.payload = .ok [c])
    (hexpand : k.aliases.expand c = c') (hget : s.registry.get? c'.name = some h)
    (hanswer : g.answer m s.toolkit.delimiters c' k = some (.ok (.moved sheet), k')) :
    g.visit s m k r = some (.ok ⟨sheet, k', r.addExecuted⟩) := by
  have hexpand : [c].map k.aliases.expand = [c'] := by rw [List.map_singleton, hexpand]
  have hknown : ∀ c ∈ [c'], s.registry.has c.name = true := by simp [Registry.has, hget]
  rw [visit_read s m g hread, dispatch_known s m g hexpand hknown, carryOut]
  simp only [hget, hanswer, List.isEmpty_nil, if_true]

end Gap

namespace Draft

variable (s : Scanner) (m : Manual)

def finish (t : Delimiters) (D : Draft) : Draft := { D with sheet := .halted (D.sheet.lines t) }

/-- Goes on with a scan. The first argument is how many markers may still be met. -/
def scan : ℕ → Draft → Option (Except RunError Draft)
  | left, D => match D.sheet.find? s.toolkit.delimiters with
    | none => some (.ok (D.finish s.toolkit.delimiters))
    | some g => match left with
      | 0 => some (.error (.stepLimit s.settings.maxSteps))
      | n + 1 => match g.visit s m D.desk D.report with
        | none => none
        | some (.error e) => some (.error e)
        | some (.ok D) => scan n D

variable {s m} {D D' : Draft} {g : Gap} {n : ℕ}

theorem scan_done (h : D.sheet.find? s.toolkit.delimiters = none) (n : ℕ) :
    scan s m n D = some (.ok (D.finish s.toolkit.delimiters)) := by
  rw [scan.eq_def]
  simp only [h]

theorem scan_zero (h : D.sheet.find? s.toolkit.delimiters = some g) :
    scan s m 0 D = some (.error (.stepLimit s.settings.maxSteps)) := by
  rw [scan.eq_def]
  simp only [h]

theorem scan_succ (h : D.sheet.find? s.toolkit.delimiters = some g) (n : ℕ) :
    scan s m (n + 1) D = match g.visit s m D.desk D.report with
      | none => none
      | some (.error e) => some (.error e)
      | some (.ok D) => scan s m n D := by
  rw [scan.eq_def]
  simp only [h]

theorem scan_visit (h : D.sheet.find? s.toolkit.delimiters = some g)
    (hvisit : g.visit s m D.desk D.report = some (.ok D')) (n : ℕ) : scan s m (n + 1) D = scan s m n D' := by
  rw [scan_succ h, hvisit]

/-- A scan that may meet a marker more comes to the same, unless it was stopped. -/
theorem scan_more {x : Except RunError Draft} (h : scan s m n D = some x)
    (hstop : x ≠ .error (.stepLimit s.settings.maxSteps)) : scan s m (n + 1) D = some x := by
  induction n generalizing D with
  | zero =>
    cases hfind : D.sheet.find? s.toolkit.delimiters with
    | none => rw [scan_done hfind] at h ⊢; exact h
    | some g =>
      rw [scan_zero hfind] at h
      exact absurd (Option.some.inj h).symm hstop
  | succ n ih =>
    cases hfind : D.sheet.find? s.toolkit.delimiters with
    | none => rw [scan_done hfind] at h ⊢; exact h
    | some g =>
      rw [scan_succ hfind] at h ⊢
      cases hvisit : g.visit s m D.desk D.report with
      | none => simp [hvisit] at h
      | some y =>
        rw [hvisit] at h
        cases y with
        | error e => exact h
        | ok D₁ => exact ih h

theorem scan_le {x : Except RunError Draft} {k : ℕ} (h : scan s m n D = some x)
    (hstop : x ≠ .error (.stepLimit s.settings.maxSteps)) (hk : n ≤ k) : scan s m k D = some x := by
  induction k, hk using Nat.le_induction with
  | base => exact h
  | succ k _ ih => exact scan_more ih hstop

/-- Drafts whose sheets have the same marker ahead and are written as the same lines. -/
structure Alike (t : Delimiters) (D D' : Draft) : Prop where
  find : D.sheet.find? t = D'.sheet.find? t
  lines : D.sheet.lines t = D'.sheet.lines t
  desk : D.desk = D'.desk
  report : D.report = D'.report

theorem Alike.scan (h : D.Alike s.toolkit.delimiters D') (n : ℕ) : Draft.scan s m n D = Draft.scan s m n D' := by
  obtain ⟨hfind, hlines, hdesk, hreport⟩ := h
  cases hg : D.sheet.find? s.toolkit.delimiters with
  | none =>
    rw [scan_done hg, scan_done (hfind ▸ hg), finish, finish, hlines]
    obtain ⟨_, _, _⟩ := D
    obtain ⟨_, _, _⟩ := D'
    simp_all
  | some g =>
    have hg' := hfind ▸ hg
    cases n with
    | zero => rw [scan_zero hg, scan_zero hg']
    | succ n => rw [scan_succ hg, scan_succ hg', hdesk, hreport]

variable {t : Delimiters} {k : Desk} {r : Report}

theorem Alike.trans {D'' : Draft} (h : D.Alike t D') (h' : D'.Alike t D'') : D.Alike t D'' :=
  ⟨h.find.trans h'.find, h.lines.trans h'.lines, h.desk.trans h'.desk, h.report.trans h'.report⟩

theorem alike_enter (above : List String) (l : Line) (below : List Line) :
    Alike t ⟨.between above (l :: below), k, r⟩ ⟨.within above [] l below, k, r⟩ := by
  refine ⟨?_, by simp [Sheet.lines, Piece.line], rfl, rfl⟩
  simp only [Sheet.find?, Sheet.findBelow?]
  cases Piece.breakMarker? l <;> simp [Piece.line]

theorem alike_pass {q : Piece} (hq : q.isMarker = false) (above : List String) (left : List Content) (right : Line) (below : List Line) :
    Alike t ⟨.within above left (q :: right) below, k, r⟩ ⟨.within above (left ++ [q.content t]) right below, k, r⟩ := by
  refine ⟨?_, by simp [Sheet.lines], rfl, rfl⟩
  have hbreak : Piece.breakMarker? (q :: right) = (Piece.breakMarker? right).map (Prod.map (q :: ·) id) := by
    cases q with
    | marker => contradiction
    | words => rfl
    | image => rfl
  simp only [Sheet.find?, hbreak]
  cases Piece.breakMarker? right <;> simp

theorem alike_passes {qs : Line} (hqs : ∀ q ∈ qs, q.isMarker = false) (above : List String) (left : List Content) (right : Line)
    (below : List Line) : Alike t ⟨.within above left (qs ++ right) below, k, r⟩ ⟨.within above (left ++ qs.map (Piece.content t)) right below, k, r⟩ := by
  induction qs generalizing left with
  | nil =>
    rw [List.map_nil, List.append_nil]
    exact ⟨rfl, rfl, rfl, rfl⟩
  | cons q qs ih =>
    have hpass := ih (fun x hx ↦ hqs x (List.mem_cons_of_mem _ hx)) (left ++ [q.content t])
    rw [List.append_assoc] at hpass
    exact (alike_pass (hqs q (List.mem_cons_self ..)) above left _ below).trans hpass

theorem alike_leave (above : List String) (left : List Content) (below : List Line) :
    Alike t ⟨.within above left [] below, k, r⟩ ⟨.between (above ++ [Content.line left]) below, k, r⟩ := by
  refine ⟨?_, ?_, rfl, rfl⟩ <;> simp [Sheet.find?, Sheet.lines, Piece.breakMarker?]

theorem alike_line {l : Line} (hl : ∀ q ∈ l, q.isMarker = false) (above : List String) (left : List Content) (below : List Line) :
    Alike t ⟨.within above left l below, k, r⟩ ⟨.between (above ++ [Content.line (left ++ l.map (Piece.content t))]) below, k, r⟩ := by
  have hpasses := alike_passes (t := t) (k := k) (r := r) hl above left [] below
  rw [List.append_nil] at hpasses
  exact hpasses.trans (alike_leave ..)

/-! ### Scans that go on -/

/-- A scan comes from one draft to another by meeting so many markers, and not with fewer. -/
structure Takes (s : Scanner) (m : Manual) (j : ℕ) (D D' : Draft) : Prop where
  goes : ∀ n, scan s m (n + j) D = scan s m n D'
  stops : ∀ n < j, scan s m n D = some (.error (.stepLimit s.settings.maxSteps))

/-- A scan comes from one draft to another by meeting so many markers or more, unless it is stopped on
the way. -/
inductive Passes (s : Scanner) (m : Manual) (i : ℕ) (D D' : Draft) : Prop where
  | takes {j : ℕ} : i ≤ j → Takes s m j D D' → Passes s m i D D'
  | overruns : (∀ n ≤ s.settings.maxSteps, scan s m n D = some (.error (.stepLimit s.settings.maxSteps))) →
      Passes s m i D D'

namespace Takes

variable {D₁ D₂ D₃ : Draft} {i j : ℕ}

theorem of_alike (h : D₁.Alike s.toolkit.delimiters D₂) : Takes s m 0 D₁ D₂ :=
  ⟨fun n ↦ h.scan n, fun n hn ↦ absurd hn (Nat.not_lt_zero n)⟩

theorem of_visit (h : D₁.sheet.find? s.toolkit.delimiters = some g)
    (hvisit : g.visit s m D₁.desk D₁.report = some (.ok D₂)) : Takes s m 1 D₁ D₂ :=
  ⟨fun n ↦ scan_visit h hvisit n, fun n hn ↦ by
    obtain rfl : n = 0 := by omega
    exact scan_zero h⟩

theorem trans (h : Takes s m i D₁ D₂) (k : Takes s m j D₂ D₃) : Takes s m (i + j) D₁ D₃ where
  goes n := by rw [← k.goes n, ← h.goes (n + j), Nat.add_assoc, Nat.add_comm j i]
  stops n hn := by
    rcases Nat.lt_or_ge n i with hni | hni
    · exact h.stops n hni
    · obtain ⟨l, rfl⟩ := Nat.exists_eq_add_of_le' hni
      rw [h.goes l]
      exact k.stops l (by omega)

end Takes

namespace Passes

variable {D₁ D₂ D₃ : Draft} {i j : ℕ}

theorem refl (D : Draft) : Passes s m 0 D D := .takes le_rfl (.of_alike ⟨rfl, rfl, rfl, rfl⟩)

theorem of_alike (h : D₁.Alike s.toolkit.delimiters D₂) : Passes s m 0 D₁ D₂ := .takes le_rfl (.of_alike h)

theorem of_visit (h : D₁.sheet.find? s.toolkit.delimiters = some g)
    (hvisit : g.visit s m D₁.desk D₁.report = some (.ok D₂)) : Passes s m 1 D₁ D₂ := .takes le_rfl (.of_visit h hvisit)

theorem trans (h : Passes s m i D₁ D₂) (k : Passes s m j D₂ D₃) : Passes s m (i + j) D₁ D₃ := by
  cases h with
  | overruns hstop => exact .overruns hstop
  | @takes l hi htakes =>
    cases k with
    | takes hj ktakes => exact .takes (Nat.add_le_add hi hj) (htakes.trans ktakes)
    | overruns hstop =>
      refine .overruns fun n hn ↦ ?_
      rcases Nat.lt_or_ge n l with hnl | hnl
      · exact htakes.stops n hnl
      · obtain ⟨k, rfl⟩ := Nat.exists_eq_add_of_le' hnl
        rw [htakes.goes k]
        exact hstop k (by omega)

theorem mono (h : Passes s m i D₁ D₂) (hj : j ≤ i) : Passes s m j D₁ D₂ := by
  cases h with
  | takes hi htakes => exact .takes (hj.trans hi) htakes
  | overruns hstop => exact .overruns hstop

theorem of_long (h : Passes s m i D₁ D₂) (hi : s.settings.maxSteps < i) : Passes s m j D₁ D₃ := by
  cases h with
  | takes hij htakes => exact .overruns fun n hn ↦ htakes.stops n (by omega)
  | overruns hstop => exact .overruns hstop

/-- A scan that comes to a draft without markers comes to its end, unless it is stopped. -/
theorem scan_eq (h : Passes s m i D₁ D₂) (hfind : D₂.sheet.find? s.toolkit.delimiters = none) :
    scan s m s.settings.maxSteps D₁ = some (.error (.stepLimit s.settings.maxSteps)) ∨
      scan s m s.settings.maxSteps D₁ = some (.ok (D₂.finish s.toolkit.delimiters)) := by
  cases h with
  | overruns hstop => exact .inl (hstop _ le_rfl)
  | @takes j _ htakes =>
    rcases Nat.lt_or_ge s.settings.maxSteps j with hlt | hge
    · exact .inl (htakes.stops _ hlt)
    · obtain ⟨k, hk⟩ := Nat.exists_eq_add_of_le' hge
      rw [hk, htakes.goes k, scan_done hfind]
      exact .inr rfl

end Passes

end Draft

end Stencil
