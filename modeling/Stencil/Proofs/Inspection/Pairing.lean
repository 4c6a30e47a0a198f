import Stencil.Command.Builtin
import Stencil.Proofs.Inspection.Sites
/-!
An inspection and the search for a closing marker pair blocks alike. The inspection keeps one stack
for all kinds of blocks and looks at every command of a payload. The search counts the blocks of one
kind and goes by the first command, so that they agree where nothing but the first command of a payload
opens or ends anything.
-/

namespace Stencil

namespace Inspection

def delimits (name : String) : Bool :=
  ["For", "EndFor", "If", "EndIf", "Ignore", "EndIgnore"].contains name

/-- Whether no command of a payload but the first opens or ends anything, and none defines an alias. -/
def isLed (payload : List Char) : Bool :=
  match Payload.read payload with
  | .ok (c :: cs) => c.name != "Alias" && cs.all fun x ↦ x.name != "Alias" && !delimits x.name
  | _ => true

variable {i j : Inspection} {s : Site} {known : String → Bool} {c : Command}

theorem closer?_eq_some {name closer : String} (h : closer? name = some closer) :
    name = "For" ∧ closer = "EndFor" ∨ name = "If" ∧ closer = "EndIf" := by
  rw [closer?] at h
  split at h
  · next hname => exact .inl ⟨hname, (Option.some.inj h).symm⟩
  · split at h
    · next hname => exact .inr ⟨hname, (Option.some.inj h).symm⟩
    · contradiction

/-! ### What stays wrong -/

theorem not_clean_warn (w : Warning) : (i.warn w).isClean = false := by simp [isClean, warn]

theorem clean_of_closeBlock {name : String} (h : (i.closeBlock name s).isClean = true) : i.isClean = true := by
  rw [closeBlock] at h
  split at h
  · simp [not_clean_warn] at h
  · split at h
    · exact h
    · simp [not_clean_warn] at h

theorem clean_of_meet {name : String} (h : (i.meet s c name).isClean = true) : i.isClean = true := by
  rw [meet] at h
  split at h
  · exact h
  · split at h
    · exact h
    split at h
    · rw [define] at h
      split at h <;> exact h
    split at h
    · simp [not_clean_warn] at h
    split at h
    · exact clean_of_closeBlock h
    · exact h

theorem clean_of_passCommand (h : (i.passCommand known s c).isClean = true) : i.isClean = true := by
  simp only [passCommand] at h
  split at h
  · exact h
  · split at h
    · exact clean_of_meet h
    · have := clean_of_meet h
      simp [not_clean_warn] at this

theorem clean_of_passCommands {cs : Commands} (h : (cs.foldl (fun j c ↦ j.passCommand known s c) i).isClean = true) :
    i.isClean = true := by
  induction cs generalizing i with
  | nil => exact h
  | cons c cs ih => exact clean_of_passCommand (ih h)

theorem clean_of_passSite (h : (i.passSite known s).isClean = true) : i.isClean = true := by
  rw [passSite] at h
  split at h
  · exact clean_of_passCommands h
  · split at h
    · exact h
    · simp [isClean] at h

theorem clean_of_passSites {sites : List Site} (h : (sites.foldl (fun i s ↦ i.passSite known s) i).isClean = true) :
    i.isClean = true := by
  induction sites generalizing i with
  | nil => exact h
  | cons s sites ih => exact clean_of_passSite (ih h)

theorem finish_clean (h : i.finish.isClean = true) : i.isClean = true ∧ i.opened = [] := by
  simp only [isClean, finish, Bool.and_eq_true, List.isEmpty_iff, List.append_eq_nil_iff, List.map_eq_nil_iff,
    List.reverse_eq_nil_iff] at h ⊢
  exact ⟨⟨h.1, h.2.1⟩, h.2.2⟩

/-! ### A site -/

/-- What an inspection makes of a site, by the first command of its payload. -/
inductive Passes (s : Site) (i j : Inspection) : Option String → Prop where
  | opens {name closer : String} : closer? name = some closer → i.ignoring = false → j.ignoring = false →
      j.opened = ⟨closer, s⟩ :: i.opened → j.blocks = i.blocks → Passes s i j (some name)
  | closes {b : OpenBlock} {rest : List OpenBlock} : b.closer = "EndFor" ∨ b.closer = "EndIf" → i.ignoring = false →
      j.ignoring = false → i.opened = b :: rest → j.opened = rest → j.blocks = i.blocks ++ [⟨b.closer, b.first, s⟩] →
      Passes s i j (some b.closer)
  | ignores : j.ignoring = true → j.opened = i.opened → j.blocks = i.blocks → Passes s i j (some "Ignore")
  | heeds : i.ignoring = true → j.ignoring = false → j.opened = i.opened → j.blocks = i.blocks →
      Passes s i j (some "EndIgnore")
  | skips {name? : Option String} : i.ignoring = true → j.ignoring = true → name? ≠ some "EndIgnore" →
      j.opened = i.opened → j.blocks = i.blocks → Passes s i j name?
  | plain {name? : Option String} : (∀ name ∈ name?, delimits name = false) → j.ignoring = i.ignoring →
      j.opened = i.opened → j.blocks = i.blocks → Passes s i j name?

/-- An inspection with the same blocks, which heeds and knows what the other does. -/
structure Alike (i j : Inspection) : Prop where
  opened : j.opened = i.opened
  blocks : j.blocks = i.blocks
  aliases : j.aliases = i.aliases
  ignoring : j.ignoring = i.ignoring

theorem Alike.passes {k : Inspection} {name? : Option String} (h : Passes s i j name?) (hk : Alike j k) :
    Passes s i k name? := by
  cases h with
  | opens h₁ h₂ h₃ h₄ h₅ => exact .opens h₁ h₂ (hk.ignoring.trans h₃) (hk.opened.trans h₄) (hk.blocks.trans h₅)
  | closes h₁ h₂ h₃ h₄ h₅ h₆ =>
    exact .closes h₁ h₂ (hk.ignoring.trans h₃) h₄ (hk.opened.trans h₅) (hk.blocks.trans h₆)
  | ignores h₁ h₂ h₃ => exact .ignores (hk.ignoring.trans h₁) (hk.opened.trans h₂) (hk.blocks.trans h₃)
  | heeds h₁ h₂ h₃ h₄ => exact .heeds h₁ (hk.ignoring.trans h₂) (hk.opened.trans h₃) (hk.blocks.trans h₄)
  | skips h₁ h₂ h₃ h₄ h₅ => exact .skips h₁ (hk.ignoring.trans h₂) h₃ (hk.opened.trans h₄) (hk.blocks.trans h₅)
  | plain h₁ h₂ h₃ h₄ => exact .plain h₁ (hk.ignoring.trans h₂) (hk.opened.trans h₃) (hk.blocks.trans h₄)

theorem delimits_eq_false {name : String} : delimits name = false ↔ name ≠ "For" ∧ name ≠ "EndFor" ∧ name ≠ "If" ∧
    name ≠ "EndIf" ∧ name ≠ "Ignore" ∧ name ≠ "EndIgnore" := by
  simp [delimits]

theorem target_of_no_aliases (h : i.aliases = []) (name : String) : i.target name = name := by
  rw [target, h]
  rfl

theorem alike_passCommand (known : String → Bool) (s : Site) (haliases : i.aliases = []) (halias : c.name ≠ "Alias")
    (hplain : delimits c.name = false) : Alike i (i.passCommand known s c) := by
  obtain ⟨hfor, hendfor, hif, hendif, hignore, hendignore⟩ := delimits_eq_false.1 hplain
  simp only [passCommand, target_of_no_aliases haliases]
  split
  · next hignoring => exact ⟨rfl, rfl, rfl, by simp [hignoring, hendignore]⟩
  · simp only [meet, closer?, if_neg hfor, if_neg hif, if_neg hignore, if_neg halias, if_neg hendignore,
      if_neg (not_or.2 ⟨hendfor, hendif⟩)]
    split <;> exact ⟨rfl, rfl, rfl, rfl⟩

theorem alike_passCommands {cs : Commands} (known : String → Bool) (s : Site) (haliases : i.aliases = [])
    (hplain : ∀ x ∈ cs, x.name ≠ "Alias" ∧ delimits x.name = false) :
    Alike i (cs.foldl (fun j c ↦ j.passCommand known s c) i) := by
  induction cs generalizing i with
  | nil => exact ⟨rfl, rfl, rfl, rfl⟩
  | cons c cs ih =>
    obtain ⟨halias, hc⟩ := hplain c (List.mem_cons_self ..)
    have hhead := alike_passCommand known s haliases halias hc
    have htail := ih (hhead.aliases.trans haliases) fun x hx ↦ hplain x (List.mem_cons_of_mem _ hx)
    exact ⟨htail.opened.trans hhead.opened, htail.blocks.trans hhead.blocks, htail.aliases.trans hhead.aliases,
      htail.ignoring.trans hhead.ignoring⟩

theorem passes_passCommand (haliases : i.aliases = []) (halias : c.name ≠ "Alias")
    (hclean : (i.passCommand known s c).isClean = true) :
    Passes s i (i.passCommand known s c) (some c.name) ∧ (i.passCommand known s c).aliases = [] := by
  by_cases hplain : delimits c.name = false
  · have halike := alike_passCommand known s haliases halias hplain
    refine ⟨.plain ?_ halike.ignoring halike.opened halike.blocks, halike.aliases.trans haliases⟩
    simpa using hplain
  simp only [passCommand, target_of_no_aliases haliases] at hclean ⊢
  split at hclean
  · next hignoring =>
    rw [if_pos hignoring]
    refine ⟨?_, haliases⟩
    by_cases hend : c.name = "EndIgnore"
    · rw [hend]
      exact .heeds hignoring (by simp) rfl rfl
    · exact .skips hignoring (by simpa using hend) (by simpa using hend) rfl rfl
  · next hignoring =>
    have hheeds : i.ignoring = false := by simpa using hignoring
    rw [if_neg hignoring]
    by_cases hknown : known c.name = true
    swap
    · rw [if_neg hknown] at hclean
      have := clean_of_meet hclean
      simp [not_clean_warn] at this
    rw [if_pos hknown] at hclean ⊢
    cases hcloser : closer? c.name with
    | some closer =>
      simp only [meet, hcloser]
      exact ⟨.opens hcloser hheeds hheeds rfl rfl, haliases⟩
    | none =>
      simp only [meet, hcloser] at hclean ⊢
      by_cases hignore : c.name = "Ignore"
      · rw [if_pos hignore, hignore]
        exact ⟨.ignores rfl rfl rfl, haliases⟩
      rw [if_neg hignore, if_neg halias] at hclean ⊢
      by_cases hendignore : c.name = "EndIgnore"
      · rw [if_pos hendignore] at hclean
        simp [not_clean_warn] at hclean
      rw [if_neg hendignore] at hclean ⊢
      have hend : c.name = "EndFor" ∨ c.name = "EndIf" := by
        have hfor : c.name ≠ "For" := fun heq ↦ by simp [closer?, heq] at hcloser
        have hif : c.name ≠ "If" := fun heq ↦ by simp [closer?, heq] at hcloser
        by_contra hnot
        exact hplain (delimits_eq_false.2 ⟨hfor, (not_or.1 hnot).1, hif, (not_or.1 hnot).2, hignore, hendignore⟩)
      rw [if_pos hend] at hclean ⊢
      rw [closeBlock] at hclean ⊢
      cases hopened : i.opened with
      | nil =>
        rw [hopened] at hclean
        simp [not_clean_warn] at hclean
      | cons b rest =>
        rw [hopened] at hclean
        by_cases hsame : b.closer = c.name
        · dsimp only
          rw [if_pos hsame, ← hsame]
          exact ⟨.closes (hsame ▸ hend) hheeds hheeds hopened rfl rfl, haliases⟩
        · dsimp only at hclean
          rw [if_neg hsame] at hclean
          simp [not_clean_warn] at hclean

theorem passes_passSite (haliases : i.aliases = []) (hled : isLed s.payload = true)
    (hclean : (i.passSite known s).isClean = true) :
    Passes s i (i.passSite known s) (Aliases.nameOf? [] s.payload) ∧ (i.passSite known s).aliases = [] := by
  rw [passSite] at hclean ⊢
  rw [Aliases.nameOf?]
  cases hread : Payload.read s.payload with
  | error e =>
    rw [hread] at hclean
    dsimp only at hclean ⊢
    cases hignoring : i.ignoring with
    | true => exact ⟨.skips hignoring hignoring (by simp) rfl rfl, haliases⟩
    | false =>
      rw [hignoring] at hclean
      simp [isClean] at hclean
  | ok cs =>
    rw [hread] at hclean
    cases cs with
    | nil => exact ⟨.plain (by simp) rfl rfl rfl, haliases⟩
    | cons c cs =>
      have hplain : c.name ≠ "Alias" ∧ ∀ x ∈ cs, x.name ≠ "Alias" ∧ delimits x.name = false := by
        simpa [isLed, hread] using hled
      obtain ⟨halias, hplain⟩ := hplain
      dsimp only at hclean ⊢
      rw [List.foldl_cons] at hclean ⊢
      obtain ⟨hpasses, haliases'⟩ := passes_passCommand haliases halias (clean_of_passCommands hclean)
      have halike := alike_passCommands known s haliases' hplain
      exact ⟨halike.passes hpasses, halike.aliases.trans haliases'⟩

/-! ### A run -/

theorem Passes.blocks_mono {name? : Option String} (h : Passes s i j name?) : ∀ b ∈ i.blocks, b ∈ j.blocks := by
  intro b hb
  cases h with
  | closes _ _ _ _ _ hblocks => rw [hblocks]; exact List.mem_append_left _ hb
  | opens _ _ _ _ hblocks => exact hblocks ▸ hb
  | ignores _ _ hblocks => exact hblocks ▸ hb
  | heeds _ _ _ hblocks => exact hblocks ▸ hb
  | skips _ _ _ _ hblocks => exact hblocks ▸ hb
  | plain _ _ _ hblocks => exact hblocks ▸ hb

def passSites (known : String → Bool) (i : Inspection) (sites : List Site) : Inspection :=
  sites.foldl (fun i s ↦ i.passSite known s) i

@[simp] theorem passSites_cons (sites : List Site) :
    i.passSites known (s :: sites) = (i.passSite known s).passSites known sites := rfl

theorem blocks_passSites {sites : List Site} (haliases : i.aliases = []) (hled : ∀ s ∈ sites, isLed s.payload = true)
    (hclean : (i.passSites known sites).isClean = true) : ∀ b ∈ i.blocks, b ∈ (i.passSites known sites).blocks := by
  induction sites generalizing i with
  | nil => exact fun b hb ↦ hb
  | cons s sites ih =>
    have hsite : (i.passSite known s).isClean = true := clean_of_passSites hclean
    obtain ⟨hpasses, haliases'⟩ := passes_passSite haliases (hled s (List.mem_cons_self ..)) hsite
    exact fun b hb ↦ ih haliases' (fun x hx ↦ hled x (List.mem_cons_of_mem _ hx)) hclean b (hpasses.blocks_mono b hb)

open Selection (Nesting)

/-- How deep a search from an open block is, by the blocks that were opened since. -/
def depth (closer : String) (inner : List OpenBlock) : ℕ := inner.countP fun b ↦ b.closer == closer

theorem depth_cons (closer : String) (b : OpenBlock) (inner : List OpenBlock) :
    depth closer (b :: inner) = depth closer inner + if b.closer = closer then 1 else 0 := by
  rw [depth, List.countP_cons, ← depth]
  simp

/-- The search for the end of an open block comes to the site that the inspection ends it at. -/
theorem closing?_of_opened {sites : List Site} {inner outer : List OpenBlock} {b : OpenBlock} {name : String}
    (hname : closer? name = some b.closer) (hopened : i.opened = inner ++ b :: outer) (haliases : i.aliases = [])
    (hled : ∀ s ∈ sites, isLed s.payload = true) (hclean : (i.passSites known sites).isClean = true)
    (hended : (i.passSites known sites).opened = []) :
    ∃ k last, sites[k]? = some last ∧ Nesting.closing? [] [name] b.closer ⟨depth b.closer inner, i.ignoring⟩
      (sites.map Site.payload) = some k ∧ ⟨b.closer, b.first, last⟩ ∈ (i.passSites known sites).blocks := by
  induction sites generalizing i inner with
  | nil =>
    have hnone : i.opened = [] := hended
    simp [hopened] at hnone
  | cons s sites ih =>
    have hsite : (i.passSite known s).isClean = true := clean_of_passSites hclean
    obtain ⟨hpasses, haliases'⟩ := passes_passSite haliases (hled s (List.mem_cons_self ..)) hsite
    have hled' : ∀ x ∈ sites, isLed x.payload = true := fun x hx ↦ hled x (List.mem_cons_of_mem _ hx)
    -- a marker that is not the closing one is passed
    have hpass : ∀ {inner' : List OpenBlock} {nesting : Nesting}, (i.passSite known s).opened = inner' ++ b :: outer →
        nesting.closes b.closer (Aliases.nameOf? [] s.payload) = false →
        nesting.pass [name] b.closer (Aliases.nameOf? [] s.payload) =
          ⟨depth b.closer inner', (i.passSite known s).ignoring⟩ →
        ∃ k last, (s :: sites)[k]? = some last ∧
          nesting.closing? [] [name] b.closer ((s :: sites).map Site.payload) = some k ∧
          ⟨b.closer, b.first, last⟩ ∈ (i.passSites known (s :: sites)).blocks := by
      intro inner' nesting hopened' hcloses hnesting
      obtain ⟨k, last, hlast, hk, hblock⟩ := ih hopened' haliases' hled' hclean hended
      refine ⟨k + 1, last, hlast, ?_, hblock⟩
      rw [List.map_cons, Nesting.closing?, hcloses, hnesting, if_neg Bool.false_ne_true, hk]
      rfl
    have hends : b.closer = "EndFor" ∨ b.closer = "EndIf" := (closer?_eq_some hname).imp And.right And.right
    generalize hfirst : Aliases.nameOf? [] s.payload = name? at hpasses hpass
    cases hpasses with
    | @opens name' closer hcloser hignoring hignoring' hopened' =>
      refine @hpass (⟨closer, s⟩ :: inner) _ (by rw [hopened', hopened]; rfl) ?_ ?_
      · rcases closer?_eq_some hcloser with ⟨rfl, -⟩ | ⟨rfl, -⟩ <;> rcases hends with hend | hend <;>
          simp [Nesting.closes, hend]
      · rw [hignoring, hignoring', depth_cons]
        rcases closer?_eq_some hcloser with ⟨rfl, rfl⟩ | ⟨rfl, rfl⟩ <;>
          rcases closer?_eq_some hname with ⟨rfl, hend⟩ | ⟨rfl, hend⟩ <;> simp [Nesting.pass, hend]
    | @closes top rest hend hignoring hignoring' hstack hopened' hblocks =>
      cases inner with
      | nil =>
        -- the block itself is the innermost one
        obtain ⟨rfl, rfl⟩ : b = top ∧ outer = rest := by simpa using hopened.symm.trans hstack
        refine ⟨0, s, rfl, ?_, blocks_passSites haliases' hled' hclean _ (by simp [hblocks])⟩
        rw [List.map_cons, Nesting.closing?, hfirst, if_pos]
        simp [Nesting.closes, hignoring, depth]
      | cons inside inner =>
        obtain ⟨rfl, rfl⟩ : inside = top ∧ inner ++ b :: outer = rest := by simpa using hopened.symm.trans hstack
        refine @hpass inner _ hopened' ?_ ?_
        · rw [depth_cons]
          by_cases hsame : inside.closer = b.closer <;> simp [Nesting.closes, hsame]
        · rw [hignoring, hignoring', depth_cons]
          rcases closer?_eq_some hname with ⟨rfl, hb⟩ | ⟨rfl, hb⟩ <;> rcases hend with hinside | hinside <;>
            simp [Nesting.pass, hb, hinside]
    | ignores hignoring' hopened' =>
      refine @hpass inner _ (hopened'.trans hopened) ?_ ?_
      · rcases hends with hend | hend <;> simp [Nesting.closes, hend]
      · rcases hends with hend | hend <;> simp [Nesting.pass, hend, hignoring']
    | heeds hignoring hignoring' hopened' =>
      refine @hpass inner _ (hopened'.trans hopened) ?_ ?_
      · rcases hends with hend | hend <;> simp [Nesting.closes, hend]
      · simp [Nesting.pass, hignoring, hignoring']
    | skips hignoring hignoring' hne hopened' =>
      refine @hpass inner _ (hopened'.trans hopened) (by simp [Nesting.closes, hignoring]) ?_
      rw [hignoring, hignoring']
      cases name? with
      | none => rfl
      | some first =>
        have hne' : first ≠ "EndIgnore" := fun heq ↦ hne (heq ▸ rfl)
        simp [Nesting.pass, hne']
    | plain hplain hignoring' hopened' =>
      refine @hpass inner _ (hopened'.trans hopened) ?_ ?_
      · cases name? with
        | none => simp [Nesting.closes]
        | some first =>
          obtain ⟨-, hfor, -, hif, -⟩ := delimits_eq_false.1 (hplain first rfl)
          rcases hends with hend | hend <;> simp [Nesting.closes, hend, hfor, hif]
      · rw [hignoring']
        cases name? with
        | none => rfl
        | some first =>
          obtain ⟨hfor, hendfor, hif, hendif, hignore, hendignore⟩ := delimits_eq_false.1 (hplain first rfl)
          rcases closer?_eq_some hname with ⟨rfl, hend⟩ | ⟨rfl, hend⟩ <;>
            simp [Nesting.pass, hend, hfor, hendfor, hif, hendif, hignore, hendignore]

/-! ### Blocks by their first markers -/

/-- Where the blocks of an inspection begin, those that are open still included. -/
def firsts (i : Inspection) : List Site := i.blocks.map Block.first ++ i.opened.map OpenBlock.first

theorem Passes.firsts {name? : Option String} {seen : List Site} (h : Passes s i j name?)
    (hseen : i.firsts.Subperm seen) : j.firsts.Subperm (seen ++ [s]) := by
  have hsame : j.firsts = i.firsts → j.firsts.Subperm (seen ++ [s]) := fun heq ↦
    (heq ▸ hseen).trans (List.sublist_append_left ..).subperm
  cases h with
  | opens _ _ _ hopened hblocks =>
    have hperm : j.firsts.Perm (i.firsts ++ [s]) := by
      rw [Inspection.firsts, Inspection.firsts, hopened, hblocks, List.map_cons, List.append_assoc]
      exact (List.perm_append_singleton ..).symm.append_left _
    exact hperm.subperm.trans ((List.subperm_append_right _).2 hseen)
  | closes _ _ _ hstack hopened hblocks =>
    exact hsame (by simp [Inspection.firsts, hstack, hopened, hblocks])
  | ignores _ hopened hblocks => exact hsame (by rw [Inspection.firsts, Inspection.firsts, hopened, hblocks])
  | heeds _ _ hopened hblocks => exact hsame (by rw [Inspection.firsts, Inspection.firsts, hopened, hblocks])
  | skips _ _ _ hopened hblocks => exact hsame (by rw [Inspection.firsts, Inspection.firsts, hopened, hblocks])
  | plain _ _ hopened hblocks => exact hsame (by rw [Inspection.firsts, Inspection.firsts, hopened, hblocks])

/-- Every block begins at a site of its own. -/
theorem firsts_passSites {sites seen : List Site} (haliases : i.aliases = [])
    (hled : ∀ s ∈ sites, isLed s.payload = true) (hclean : (i.passSites known sites).isClean = true)
    (hseen : i.firsts.Subperm seen) : (i.passSites known sites).firsts.Subperm (seen ++ sites) := by
  induction sites generalizing i seen with
  | nil => rwa [List.append_nil]
  | cons s sites ih =>
    obtain ⟨hpasses, haliases'⟩ :=
      passes_passSite haliases (hled s (List.mem_cons_self ..)) (clean_of_passSites hclean)
    have hrest := ih haliases' (fun x hx ↦ hled x (List.mem_cons_of_mem _ hx)) hclean (hpasses.firsts hseen)
    simpa using hrest

/-! ### A template -/

variable {d : Delimiters} {source : String} {serial n : ℕ} {cs : Commands} {closer : String} {r : RunState}

theorem aliases_passSites {sites : List Site} (haliases : i.aliases = []) (hled : ∀ s ∈ sites, isLed s.payload = true)
    (hclean : (i.passSites known sites).isClean = true) : (i.passSites known sites).aliases = [] := by
  induction sites generalizing i with
  | nil => exact haliases
  | cons s sites ih =>
    obtain ⟨-, haliases'⟩ := passes_passSite haliases (hled s (List.mem_cons_self ..)) (clean_of_passSites hclean)
    exact ih haliases' (fun x hx ↦ hled x (List.mem_cons_of_mem _ hx)) hclean

theorem filter_blocks (hd : d.Proper) (hclean : (ofTemplate known d source).isClean = true)
    (hled : ∀ s ∈ Site.ofTemplate d source, isLed s.payload = true) {b : Block}
    (hb : b ∈ (ofTemplate known d source).blocks) :
    (ofTemplate known d source).blocks.filter (fun x ↦ x.first = b.first) = [b] := by
  have hnodup : ((ofTemplate known d source).blocks.map Block.first).Nodup := by
    obtain ⟨sites, hperm, hsub⟩ := firsts_passSites (i := empty) rfl hled (finish_clean hclean).1 (List.Subperm.refl [])
    have hsites := (Site.nodup_ofTemplate hd source).sublist hsub
    exact (List.nodup_append.1 (hperm.nodup_iff.1 hsites)).1
  obtain ⟨front, back, hsplit⟩ := List.append_of_mem hb
  rw [hsplit, List.map_append, List.map_cons, List.nodup_append, List.nodup_cons] at hnodup
  obtain ⟨-, ⟨hback, -⟩, hfront⟩ := hnodup
  have hfront' : front.filter (fun x ↦ x.first = b.first) = [] := List.filter_eq_nil_iff.2 fun x hx ↦ by
    simpa using hfront _ (List.mem_map_of_mem hx) _ (List.mem_cons_self ..)
  have hback' : back.filter (fun x ↦ x.first = b.first) = [] := List.filter_eq_nil_iff.2 fun x hx ↦ by
    have hne : x.first ≠ b.first := fun heq ↦ hback (heq ▸ List.mem_map_of_mem hx)
    simpa using hne
  rw [hsplit, List.filter_append, hfront', List.nil_append, List.filter_cons_of_pos (by simp), hback']

/-- The block that an inspection finds at an opening marker, and the search for its end. -/
theorem exists_block {sites : List Site} (hclean : (ofSites known sites).isClean = true)
    (hled : ∀ s ∈ sites, isLed s.payload = true) (hs : sites[n]? = some s)
    (hread : Payload.read s.payload = .ok (c :: cs)) (hcloser : closer? c.name = some closer)
    (hheeds : (empty.passSites known (sites.take n)).ignoring = false) :
    ∃ last k, ⟨closer, s, last⟩ ∈ (ofSites known sites).blocks ∧ (sites.drop (n + 1))[k]? = some last ∧
      Nesting.closing? [] [c.name] closer ⟨0, false⟩ ((sites.drop (n + 1)).map Site.payload) = some k := by
  obtain ⟨hclean, hended⟩ := finish_clean hclean
  have hsplit : sites = sites.take n ++ s :: sites.drop (n + 1) := by
    obtain ⟨hn, rfl⟩ := List.getElem?_eq_some_iff.1 hs
    rw [List.cons_getElem_drop_succ, List.take_append_drop]
  have hrun : sites.foldl (fun i s ↦ i.passSite known s) empty =
      ((empty.passSites known (sites.take n)).passSite known s).passSites known (sites.drop (n + 1)) := by
    conv_lhs => rw [hsplit, List.foldl_append]
    rfl
  rw [hrun] at hclean hended
  have hfront := clean_of_passSites hclean
  have haliases := aliases_passSites (i := empty) rfl (fun x hx ↦ hled x (List.mem_of_mem_take hx))
    (clean_of_passSite hfront)
  obtain ⟨hpasses, haliases'⟩ := passes_passSite haliases (hled s (List.mem_of_getElem? hs)) hfront
  have hname : Aliases.nameOf? [] s.payload = some c.name := by
    rw [Aliases.nameOf?, hread]
    rfl
  rw [hname] at hpasses
  have hopened : ((empty.passSites known (sites.take n)).passSite known s).opened =
      [] ++ ⟨closer, s⟩ :: (empty.passSites known (sites.take n)).opened ∧
        ((empty.passSites known (sites.take n)).passSite known s).ignoring = false := by
    generalize hfirst : some c.name = name? at hpasses
    cases hpasses with
    | opens hcloser' _ hignoring hopened =>
      obtain rfl := Option.some.inj hfirst
      rw [hcloser] at hcloser'
      obtain rfl := Option.some.inj hcloser'
      exact ⟨hopened, hignoring⟩
    | closes hend =>
      have hname := Option.some.inj hfirst
      rcases closer?_eq_some hcloser with ⟨hopener, -⟩ | ⟨hopener, -⟩ <;> rcases hend with hend | hend <;>
        simp [hopener, hend] at hname
    | ignores => rcases closer?_eq_some hcloser with ⟨hopener, -⟩ | ⟨hopener, -⟩ <;> simp [hopener] at hfirst
    | heeds hignoring => simp [hheeds] at hignoring
    | skips hignoring => simp [hheeds] at hignoring
    | plain hplain =>
      obtain ⟨hfor, -, hif, -⟩ := delimits_eq_false.1 (hplain _ hfirst.symm)
      rcases closer?_eq_some hcloser with ⟨hopener, -⟩ | ⟨hopener, -⟩ <;> contradiction
  obtain ⟨k, last, hlast, hk, hblock⟩ := closing?_of_opened (b := ⟨closer, s⟩) hcloser hopened.1 haliases'
    (fun x hx ↦ hled x (List.mem_of_mem_drop hx)) hclean hended
  refine ⟨last, k, ?_, hlast, by rwa [hopened.2] at hk⟩
  rw [ofSites, finish, hrun]
  exact hblock

/-- In a template in which nothing is wrong, and where no command but the first of a payload opens or
ends anything, the search for the end of a block leads to the very marker that the inspection pairs
with the block's first one. -/
theorem areaEnd_pairs (hd : d.Inline) (hclean : (ofTemplate known d source).isClean = true)
    (hled : ∀ s ∈ Site.ofTemplate d source, isLed s.payload = true) (hs : (Site.ofTemplate d source)[n]? = some s)
    (hread : Payload.read s.payload = .ok (c :: cs)) (hcloser : closer? c.name = some closer)
    (hheeds : (empty.passSites known ((Site.ofTemplate d source).take n)).ignoring = false)
    (hdocument : r.document = Document.ofText serial source) (haliases : r.aliases = []) :
    ∃ last m node r₁, (ofTemplate known d source).blocks.filter (fun b ↦ b.first = s) = [⟨closer, s, last⟩] ∧
      (Site.ofTemplate d source)[m]? = some last ∧
      (Run.meet (.ofDelimiters d) n (some r.document.root)).on r = (.ok (some node), r₁) ∧
      r₁.document.text? node = some s.marker ∧
      ∀ selection : Selection, selection.node = node → selection.toolkit? = some (.ofDelimiters d) →
        ∃ found r₂, (selection.areaEnd [c.name] closer).on r₁ = (.ok found, r₂) ∧
          (Run.meet (.ofDelimiters d) m (some r.document.root)).on r = (.ok (some found), r₂) ∧
          r₂.document.text? found = some last.marker := by
  obtain ⟨last, k, hblock, hlast, hk⟩ := exists_block hclean hled hs hread hcloser hheeds
  have hahead := Site.ahead_ofText hd serial source
  rw [← hdocument] at hahead
  obtain ⟨node, r₁, hmeet, hkeeps, htext, hbehind⟩ := hahead.meet hd.toProper (k := n) (by rw [List.getElem?_map, hs]; rfl)
  have hm : (Site.ofTemplate d source)[n + 1 + k]? = some last := by rwa [List.getElem?_drop] at hlast
  refine ⟨last, n + 1 + k, node, r₁, filter_blocks hd.toProper hclean hled hblock, hm, hmeet, ?_, ?_⟩
  · rw [htext, Site.marker_of_mem (List.mem_of_getElem? hs)]
  · rintro selection rfl htoolkit
    rw [← List.map_drop] at hbehind
    obtain ⟨found, r₂, hend, hfound⟩ := Selection.areaEnd_ahead htoolkit hbehind hd.toProper
      (by rw [hkeeps.aliases, haliases]; exact hk)
    have hmeet' := (Run.meet_add k hmeet).trans hfound
    refine ⟨found, r₂, hend, hmeet', ?_⟩
    obtain ⟨found', r₂', hon, -, htext', -⟩ := hahead.meet hd.toProper (k := n + 1 + k) (by rw [List.getElem?_map, hm]; rfl)
    obtain ⟨rfl, rfl⟩ : found' = found ∧ r₂' = r₂ := by simpa using hon.symm.trans hmeet'
    rw [htext', Site.marker_of_mem (List.mem_of_getElem? hm)]

/-- A loop of two commands with a block in it, and with an ignored region that does not end the loop. -/
def nestedLoop : String :=
  "$\x7bFor value:[1]; Push key:'x', value:2\x7d $\x7bIf ok:true\x7d\n$\x7bIgnore\x7d$\x7bEndFor\x7d" ++
    "$\x7bEndIgnore\x7d$\x7bEndIf\x7d\n$\x7bEndFor\x7d"

def nestedLoopRun : RunState where
  document := Document.ofText 0 nestedLoop
  model := .ofData (.map [])
  aliases := []
  services := .ofTtl 0
  report := .empty
  searches := 0
  nextSerial := 1
  log := []

theorem areaEnd_pairs_nestedLoop :
    ∃ s last m node r₁, (Site.ofTemplate .default nestedLoop)[0]? = some s ∧
      (ofTemplate Registry.builtin.has .default nestedLoop).blocks.filter (fun b ↦ b.first = s) = [⟨"EndFor", s, last⟩] ∧
      (Site.ofTemplate .default nestedLoop)[m]? = some last ∧
      (Run.meet (.ofDelimiters .default) 0 (some nestedLoopRun.document.root)).on nestedLoopRun = (.ok (some node), r₁) ∧
      r₁.document.text? node = some s.marker ∧
      ∀ selection : Selection, selection.node = node → selection.toolkit? = some (.ofDelimiters .default) →
        ∃ found r₂, (selection.areaEnd ["For"] "EndFor").on r₁ = (.ok found, r₂) ∧
          (Run.meet (.ofDelimiters .default) m (some nestedLoopRun.document.root)).on nestedLoopRun =
            (.ok (some found), r₂) ∧ r₂.document.text? found = some last.marker := by
  have hfirst : ((Site.ofTemplate .default nestedLoop)[0]?.any fun s ↦ match Payload.read s.payload with
      | .ok (c :: _) => c.name == "For"
      | _ => false) = true := by decide +kernel
  have hclean : (ofTemplate Registry.builtin.has .default nestedLoop).isClean = true := by decide +kernel
  obtain ⟨s, hs, hname⟩ := (Option.any_eq_true _ _).1 hfirst
  split at hname
  · next c cs hread =>
    have hcloser : closer? c.name = some "EndFor" := by rw [eq_of_beq hname]; rfl
    have hled : ∀ s ∈ Site.ofTemplate .default nestedLoop, isLed s.payload = true := by decide +kernel
    have hdocument : nestedLoopRun.document = Document.ofText 0 nestedLoop := by simp only [nestedLoopRun]
    have hheeds : (empty.passSites Registry.builtin.has ((Site.ofTemplate .default nestedLoop).take 0)).ignoring = false := rfl
    have haliases : nestedLoopRun.aliases = [] := by simp only [nestedLoopRun]
    obtain ⟨last, m, node, r₁, h⟩ :=
      areaEnd_pairs Delimiters.inline_default hclean hled hs hread hcloser hheeds hdocument haliases
    rw [eq_of_beq hname] at h
    exact ⟨s, last, m, node, r₁, hs, h⟩
  · exact absurd hname Bool.false_ne_true

end Inspection

end Stencil
