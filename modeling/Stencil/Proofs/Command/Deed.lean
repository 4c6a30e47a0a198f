import Stencil.Command.Builtin
import Stencil.Proofs.Run.Fair
/-!
Commands without a block. Each of them works with the desk alone and comes to one deed at its marker,
so that what it does depends neither on the document nor on where it stands in it.
-/

namespace Stencil

namespace Selection

variable (s : Selection)

def perform : Deed → Run Outcome
  | .leave => return .ignored
  | .consume => return .consumed
  | .write text => s.write text
  | .remove => s.remove
  | .insert image => do
    let element ← Run.editFor fun d ↦ d.insertImage s.node image
    return .executed (Continuation.ofNode (← Run.document) (some element) true)
  | .merge text bounds => do
    let source ← Run.newDocument text
    let anchor := (← Run.document).blockOf s.node
    let blocks := (source.children source.root).map fun id ↦ (source.textContent id, id)
    let copies ← (bounds.choose blocks).mapM fun b ↦ Handler.importBefore source anchor b.2
    Run.log (.imported copies.length)
    let next ← Selection.removePlaceholder s.node
    match copies with
    | first :: _ => return .executed (.at first)
    | [] => return .executed next

/-- What a step comes to: a deed that the desk decides on. -/
def Acts (x : Run Outcome) (f : Desk → Except RunError Deed × Desk) : Prop :=
  ∀ r, ∃ r', r.Idles r' ∧ r'.desk = (f r.desk).2 ∧ x.on r = match (f r.desk).1 with
    | .ok deed => (s.perform deed).on r'
    | .error e => (.error e, r')

def placed (id : NodeId) (t : Toolkit) : Selection := { s with node := id, toolkit? := some t }

/-- A value that is the same wherever the command stands. -/
def Constant {α : Type} (a : Selection → α) : Prop := ∀ id t, a (s.placed id t) = a s

/-- A step that works with the desk alone, in the same way wherever the command stands and whatever is
kept of resources. It defines no alias. -/
structure Steady {α : Type} (x : Selection → Run α) : Prop where
  plain : (x s).Plain
  constant : s.Constant x
  fair : (x s).Fair s.provider

/-- A step that comes to the same deed wherever the command stands, and merges nothing. -/
def Performs (x : Selection → Run Outcome) : Prop :=
  ∃ f, Desk.Fairly s.provider f ∧ (∀ k deed, (f k).1 = .ok deed → deed.merges = false) ∧
    ∀ id t, (s.placed id t).Acts (x (s.placed id t)) f

variable {s} {α ε : Type}

/-! ### Steady steps -/

theorem steady_plain {x : Run α} (hx : x.Plain) (hfair : x.Fair s.provider) : s.Steady fun _ ↦ x :=
  ⟨hx, fun _ _ ↦ rfl, hfair⟩

theorem steady_ofExcept {wrap : ε → RunError} {x : Selection → Except ε α} (hx : s.Constant x) :
    s.Steady fun s ↦ Run.ofExcept wrap (x s) :=
  ⟨Run.plain_ofExcept wrap (x s), fun id t ↦ congrArg (Run.ofExcept wrap) (hx id t), Run.fair_ofExcept _ _⟩

theorem steady_throw {e : Selection → RunError} (he : s.Constant e) :
    s.Steady fun s ↦ (throw (e s) : Run α) :=
  ⟨Run.plain_throw (e s), fun id t ↦ congrArg _ (he id t), Run.fair_throw _⟩

theorem steady_pure (a : α) : s.Steady fun _ ↦ pure a := steady_plain (Run.plain_pure a) (Run.fair_pure a)

theorem steady_model : s.Steady fun _ ↦ Run.model := steady_plain Run.plain_model Run.fair_model

theorem steady_setModel (m : Model) : s.Steady fun _ ↦ Run.setModel m :=
  steady_plain (Run.plain_setModel m) (Run.fair_setModel m)

theorem steady_log {e : Event} (he : e.merges = false) : s.Steady fun _ ↦ Run.log e :=
  steady_plain (Run.plain_log he) (Run.fair_log e)

theorem steady_push (name : String) (value : Datum) : s.Steady fun _ ↦ Run.push name value :=
  steady_plain (Run.plain_push name value) (Run.fair_push name value)

theorem steady_enter (p : Path) : s.Steady fun _ ↦ Run.enter p := steady_plain (Run.plain_enter p) (Run.fair_enter p)

theorem steady_requireStr (key : String) : s.Steady fun s ↦ s.requireStr key :=
  ⟨s.plain_requireStr key, fun _ _ ↦ rfl, s.fair_requireStr key⟩

theorem steady_source? (key : String) : s.Steady fun s ↦ s.source? key :=
  ⟨s.plain_source? key, fun _ _ ↦ rfl, s.fair_source? key⟩

theorem steady_value? (key : String) : s.Steady fun s ↦ s.value? key :=
  ⟨s.plain_value? key, fun _ _ ↦ rfl, s.fair_value? key⟩

theorem steady_bind {β : Type} {x : Selection → Run α} {k : α → Selection → Run β} (hx : s.Steady x)
    (hk : ∀ a, s.Steady (k a)) : s.Steady fun s ↦ x s >>= fun a ↦ k a s := by
  refine ⟨Run.plain_bind hx.plain fun a ↦ (hk a).plain, fun id t ↦ ?_, Run.fair_bind hx.fair fun a ↦ (hk a).fair⟩
  have hrest : (fun a ↦ k a (s.placed id t)) = fun a ↦ k a s := funext fun a ↦ (hk a).constant id t
  rw [hx.constant id t, hrest]

/-! ### Deeds -/

theorem performs_deed {a : Selection → Deed} (ha : s.Constant a) (hmerges : (a s).merges = false) :
    s.Performs fun s ↦ s.perform (a s) :=
  ⟨fun k ↦ (.ok (a s), k), fun _ _ h ↦ ⟨rfl, h, rfl⟩, fun _ _ h ↦ Except.ok.inj h ▸ hmerges,
    fun id t r ↦ ⟨r, .refl r, rfl, by dsimp only; rw [ha id t]⟩⟩

theorem performs_throw {e : Selection → RunError} (he : s.Constant e) :
    s.Performs fun s ↦ throw (e s) :=
  ⟨fun k ↦ (.error (e s), k), fun _ _ h ↦ ⟨rfl, h, rfl⟩, fun _ _ h ↦ (by cases h),
    fun id t r ↦ ⟨r, .refl r, rfl, by dsimp only; rw [he id t, Run.on_throw]⟩⟩

theorem Performs.congr {x y : Selection → Run Outcome} (hy : s.Performs y)
    (h : ∀ id t, x (s.placed id t) = y (s.placed id t)) : s.Performs x := by
  obtain ⟨f, hfair, hmerges, hf⟩ := hy
  exact ⟨f, hfair, hmerges, fun id t ↦ by rw [h id t]; exact hf id t⟩

theorem performs_consumed : s.Performs fun _ ↦ pure .consumed := performs_deed (a := fun _ ↦ .consume) (fun _ _ ↦ rfl) rfl

theorem performs_ignored : s.Performs fun _ ↦ pure .ignored := performs_deed (a := fun _ ↦ .leave) (fun _ _ ↦ rfl) rfl

theorem performs_write {a : Selection → String} (ha : s.Constant a) : s.Performs fun s ↦ s.write (a s) :=
  performs_deed (a := fun s ↦ .write (a s)) (fun id t ↦ congrArg Deed.write (ha id t)) rfl

theorem performs_remove : s.Performs fun s ↦ s.remove := performs_deed (a := fun _ ↦ .remove) (fun _ _ ↦ rfl) rfl

theorem performs_bind {x : Selection → Run α} {k : α → Selection → Run Outcome} (hx : s.Steady x)
    (hk : ∀ a, s.Performs (k a)) : s.Performs fun s ↦ x s >>= fun a ↦ k a s := by
  choose g hfair hmerges hg using hk
  refine ⟨Run.andThen (x s).told g, Desk.fairly_andThen hx.fair.told hfair, fun k' deed hdeed ↦ ?_, fun id t r ↦ ?_⟩
  · rw [Run.andThen] at hdeed
    rcases htold : (x s).told k' with ⟨e | a, k⟩ <;> rw [htold] at hdeed
    · cases hdeed
    · exact hmerges a k deed hdeed
  dsimp only
  rw [hx.constant id t]
  obtain ⟨r₁, hon, hdesk, hidles⟩ := hx.plain.told r
  rcases hfr : (x s).told r.desk with ⟨e | a, k⟩
  · rw [hfr] at hon hdesk
    rw [Run.andThen, hfr]
    exact ⟨r₁, hidles, hdesk, Run.on_bind_error hon⟩
  · rw [hfr] at hon hdesk
    rw [Run.andThen, hfr]
    obtain ⟨r₂, hidles₂, hdesk₂, hon₂⟩ := hg a id t r₁
    obtain rfl : r₁.desk = k := hdesk
    exact ⟨r₂, hidles.trans hidles₂, hdesk₂, (Run.on_bind_ok hon).trans hon₂⟩

theorem Steady.acts {x : Selection → Run Deed} (hx : s.Steady x) (id : NodeId) (t : Toolkit) :
    (s.placed id t).Acts (x (s.placed id t) >>= (s.placed id t).perform) (x s).told := by
  intro r
  obtain ⟨r', hon, hdesk, hidles⟩ := hx.plain.told r
  refine ⟨r', hidles, hdesk, ?_⟩
  rw [hx.constant id t]
  rcases htold : (x s).told r.desk with ⟨e | deed, k⟩ <;> rw [htold] at hon
  · exact Run.on_bind_error hon
  · exact Run.on_bind_ok hon

theorem performs_seq {x : Run α} {y : Selection → Run Outcome} (hx : s.Steady fun _ ↦ x) (hy : s.Performs y) :
    s.Performs fun s ↦ x >>= fun _ ↦ y s := performs_bind hx fun _ ↦ hy

theorem performs_writeMissing : s.Performs fun s ↦ s.writeMissing := by
  refine performs_bind (steady_ofExcept fun _ _ ↦ rfl) fun policy ↦ ?_
  cases policy with
  | empty => exact performs_write fun _ _ ↦ rfl
  | fallback => exact performs_write fun _ _ ↦ rfl
  | keep => exact performs_ignored
  | delete => exact performs_remove
  | fail => exact performs_throw fun _ _ ↦ rfl

end Selection

/-- A handler whose command comes to the same deed wherever it stands, given that the document holds
text. -/
def Handler.Local (h : Handler) : Prop := ∀ s : Selection, s.Performs h.execute

namespace Handler

open Selection Run

theorem local_insertion : insertion.Local := fun s ↦ by
  refine performs_bind (steady_value? "value") fun v? ↦ ?_
  split
  · exact performs_writeMissing
  · exact performs_writeMissing
  · exact performs_write fun _ _ ↦ rfl
  · exact performs_throw fun _ _ ↦ rfl

theorem local_closing : closing.Local := fun _ ↦ performs_throw fun _ _ ↦ rfl

theorem local_push : push.Local := fun _ ↦
  performs_bind (steady_requireStr "key") fun key ↦ performs_bind (steady_value? "value") fun v? ↦
    performs_seq (steady_log rfl) (performs_seq (steady_push key (v?.getD .null)) performs_consumed)

theorem local_pop : pop.Local := fun _ ↦ by
  refine performs_bind (steady_requireStr "key") fun key ↦ performs_seq (steady_log rfl)
    (performs_bind steady_model fun m ↦ ?_)
  cases m.scope.pop? key with
  | none => exact performs_throw fun _ _ ↦ rfl
  | some bound => exact performs_seq (steady_setModel _) performs_consumed

theorem local_cursor : cursor.Local := fun _ ↦
  performs_bind (steady_requireStr "value") fun _ ↦ performs_bind (steady_ofExcept fun _ _ ↦ rfl) fun p ↦
    performs_seq (steady_enter p) performs_consumed

theorem performs_insertImage {s : Selection} {name : Selection → String} (hname : s.Constant name) (handle : String)
    (policy : SizePolicy) : s.Performs fun s ↦ do return .ofEdit (← s.insertImage handle (name s) policy) := by
  have hperforms : s.Performs fun s ↦ (do
      let source ← identify s.provider handle
      let natural ← imageSize s.provider handle
      s.perform (.insert ⟨name s, source, (policy.apply natural).width, (policy.apply natural).height⟩)) := by
    refine performs_bind ⟨plain_identify _ _, fun _ _ ↦ rfl, fair_ofExcept _ _⟩ fun source ↦
      performs_bind ⟨plain_imageSize _ _, fun _ _ ↦ rfl, (serves_imageSize _).fair⟩ fun natural ↦ performs_deed (fun id t ↦ ?_) rfl
    rw [hname id t]
  refine hperforms.congr fun id t ↦ ?_
  simp only [insertImage, placed, Option.isNone_some, Bool.false_eq_true, if_false, bind_assoc, pure_bind]
  rfl

theorem local_picture : picture.Local := fun _ ↦
  performs_bind (steady_requireStr "resource") fun handle ↦ performs_bind (steady_ofExcept fun _ _ ↦ rfl) fun _ ↦
    performs_bind (steady_ofExcept fun _ _ ↦ rfl) fun _ ↦ performs_insertImage (fun _ _ ↦ rfl) handle _

theorem performs_writeJoined {s : Selection} (items : List String) : s.Performs fun s ↦ writeJoined s items :=
  performs_bind (steady_ofExcept fun _ _ ↦ rfl) fun _ ↦ performs_write fun _ _ ↦ rfl

theorem local_joined : joined.Local := fun _ ↦ by
  refine performs_bind (steady_value? "value") fun v? ↦ ?_
  split
  · exact performs_writeMissing
  · exact performs_writeMissing
  · exact performs_writeJoined _
  · exact performs_bind (steady_ofExcept fun _ _ ↦ rfl) fun _ ↦ performs_writeJoined _
  · exact performs_throw fun _ _ ↦ rfl

theorem performs_writeMoment {s : Selection} {m : Selection → Calendar.Moment} {format : Selection → String}
    (hm : s.Constant m) (hformat : s.Constant format) :
    s.Performs fun s ↦ writeMoment s (m s) (format s) := by
  cases htext : (m s).format? (format s) with
  | none =>
    refine (performs_throw (e := fun _ ↦ .value (.badOutputFormat (format s))) fun _ _ ↦ rfl).congr fun id t ↦ ?_
    rw [hm id t, hformat id t, writeMoment, htext]
  | some text =>
    refine (performs_write (a := fun _ ↦ text) fun _ _ ↦ rfl).congr fun id t ↦ ?_
    rw [hm id t, hformat id t, writeMoment, htext]

theorem local_moment (name : String) (formats : MomentFormats) : (moment name formats).Local := fun s ↦ by
  refine performs_bind (steady_source? "value") fun source? ↦ ?_
  cases source? with
  | none => exact performs_writeMoment (fun _ _ ↦ rfl) fun _ _ ↦ rfl
  | some source =>
    refine performs_bind steady_model fun m ↦ ?_
    split
    · exact performs_bind (steady_ofExcept fun _ _ ↦ rfl) fun _ ↦ performs_writeMoment (fun _ _ ↦ rfl) fun _ _ ↦ rfl
    · exact performs_writeMissing
    · split
      · exact performs_writeMissing
      · exact performs_throw fun _ _ ↦ rfl

theorem local_number : number.Local := fun s ↦ by
  refine performs_bind (steady_value? "value") fun v? ↦ ?_
  split
  · split
    · exact performs_bind (steady_ofExcept fun _ _ ↦ rfl) fun _ ↦ performs_write fun _ _ ↦ rfl
    · exact performs_writeMissing
  · exact performs_writeMissing

theorem local_counter : counter.Local := fun s ↦ by
  have hindex : s.Steady loopIndex? := by
    refine steady_bind steady_model fun m ↦ steady_bind (steady_source? "index") fun source? ↦ ?_
    cases source? <;> exact steady_pure _
  refine performs_bind hindex fun v? ↦ ?_
  split
  · exact performs_write fun _ _ ↦ rfl
  · exact performs_remove

theorem steady_operand {s : Selection} (key : String) : s.Steady fun s ↦ operand s key := by
  refine steady_bind (steady_value? key) fun v? ↦ ?_
  split
  · exact steady_pure _
  · exact steady_pure _
  · split
    · exact steady_throw fun _ _ ↦ rfl
    · exact steady_throw fun _ _ ↦ rfl
  · exact steady_throw fun _ _ ↦ rfl

theorem local_calculation : calculation.Local := fun _ ↦
  performs_bind (steady_requireStr "key") fun key ↦ performs_bind (steady_ofExcept fun _ _ ↦ rfl) fun _ ↦
    performs_bind (steady_operand "a") fun _ ↦ performs_bind (steady_operand "b") fun _ ↦
      performs_bind (steady_ofExcept fun _ _ ↦ rfl) fun result ↦ performs_seq (steady_log rfl)
        (performs_seq (steady_push key (.leaf result)) performs_consumed)

theorem steady_slots {s : Selection} : s.Steady fun s ↦ slots.filterMapM s.value? := by
  refine ⟨plain_filterMapM (fun slot ↦ s.plain_value? slot) slots, fun id t ↦ ?_,
    fair_filterMapM (fun slot ↦ s.fair_value? slot) slots⟩
  have hvalue : (s.placed id t).value? = s.value? := funext fun key ↦ (steady_value? key).constant id t
  rw [hvalue]

theorem local_concatenation : concatenation.Local := fun _ ↦
  performs_bind (steady_requireStr "key") fun key ↦ performs_bind steady_slots fun _ ↦
    performs_bind (steady_ofExcept fun _ _ ↦ rfl) fun bound ↦ performs_seq (steady_log rfl)
      (performs_seq (steady_push key bound) performs_consumed)

/-! ### Aliases -/

def defined (c : Command) (k : Desk) : Except RunError Deed × Desk :=
  match c.definedAlias with
  | .ok a => (.ok .consume, { k with aliases := k.aliases.define a })
  | .error e => (.error e, k)

theorem definition_acts (s : Selection) : s.Acts (definition.execute s) (defined s.command) := by
  intro r
  rw [defined]
  cases ha : s.command.definedAlias with
  | error e => exact ⟨r, .refl r, rfl, by simp only [definition, ha]; rfl⟩
  | ok a =>
    refine ⟨{ r with aliases := r.aliases.define a, log := .aliasDefined a.key a.target :: r.log },
      ⟨⟨⟨[_], rfl, by simp [Event.merges]⟩, .refl _, rfl⟩, rfl⟩, rfl, ?_⟩
    simp only [definition, ha]
    rfl

/-! ### Merging -/

def mergeDeed (s : Selection) : Run Deed := do
  let opening? ← ofExcept id (pattern? s.command "beginFragment")
  let closing? ← ofExcept id (pattern? s.command "endFragment")
  return .merge (← fragmentSource s) ⟨opening?, closing?⟩

theorem steady_fragmentSource {s : Selection} : s.Steady fragmentSource := by
  refine ⟨?_, fun _ _ ↦ rfl, ?_⟩
  · rw [fragmentSource]
    split
    · rw [resourceText]
      split
      · exact plain_fetchText _ _
      · exact plain_fragmentText _ _
    · refine plain_bind (s.plain_value? "value") fun v? ↦ ?_
      split
      · exact plain_pure _
      · exact plain_throw _
      · exact plain_throw _
  · rw [fragmentSource]
    split
    · rw [resourceText]
      split
      · exact (serves_fetchText _).fair
      · exact (serves_fragmentText _).fair
    · refine fair_bind (s.fair_value? "value") fun v? ↦ ?_
      split
      · exact fair_pure _
      · exact fair_throw _
      · exact fair_throw _

theorem steady_mergeDeed {s : Selection} : s.Steady mergeDeed :=
  steady_bind (steady_ofExcept fun _ _ ↦ rfl) fun _ ↦ steady_bind (steady_ofExcept fun _ _ ↦ rfl) fun _ ↦
    steady_bind steady_fragmentSource fun _ ↦ steady_pure _

theorem fragment_execute (s : Selection) (id : NodeId) (t : Toolkit) :
    fragment.execute (s.placed id t) = mergeDeed (s.placed id t) >>= (s.placed id t).perform := by
  have htoolkit : (s.placed id t).toolkit = pure t := rfl
  rw [fragment]
  simp only [mergeDeed, bind_assoc, pure_bind, htoolkit]
  rfl

theorem fragment_acts (s : Selection) (id : NodeId) (t : Toolkit) :
    (s.placed id t).Acts (fragment.execute (s.placed id t)) (mergeDeed s).told := by
  rw [fragment_execute s id t]
  exact steady_mergeDeed.acts id t

end Handler

end Stencil
