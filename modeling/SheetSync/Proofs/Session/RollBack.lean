import SheetSync.Proofs.Session.Failure
import SheetSync.Proofs.Session.Transfer
/-!
What a local store has after a change of workbook that fails and is rolled back. A store that did
not turn keeps its workbook. One that turned is given what the file of the workbook before holds, or
the blank workbook, with the document's sheets over it: `achieves_swap_putBack`. What is in neither
of them, such as names that were defined since, is lost.
-/
namespace SheetSync.Session

variable {may : Session → Event → Prop} {s t m : Session} {L K M : Ledger}

/-- Others leave document, schedules and store as they are while no workbook is bound. -/
def Unattended (s : Session) (e : Event) : Prop :=
  s.phase.isTurning → e.IsAside ∧ ∀ workbook files switches, e ≠ .store workbook files switches

/-- What stays known of a session with a local store on its way from a state `m`: nobody else
changed the files and the sheets. -/
structure Backed (m s : Session) : Prop where
  kind : s.store.kind = .local
  files : s.store.files = m.store.files
  sheets : s.document.sheets = m.document.sheets

theorem survivesSwap_backed (hmay : ∀ s e, may s e → Unattended s e) (m : Session)
    (P : Option Workbook → Prop) :
    SurvivesSwap may (fun _ => True) fun s _ => Apart m s ∧ Backed m s ∧ P s.store.workbook := by
  refine .and_apart m ?_ ?_ ?_ ?_ ?_ ?_
  · rintro s L e he hs ⟨hbacked, hbook⟩
    obtain ⟨haside, hstore⟩ := hmay s e he hs.phase
    have hsame : (e.apply s).store = s.store := by
      rcases Event.store_apply hs.waiting e with h | ⟨workbook, files, switches, h⟩
      · exact h
      · exact absurd h (hstore workbook files switches)
    refine ⟨⟨?_, ?_, ?_⟩, ?_⟩
    · rw [hsame]
      exact hbacked.kind
    · rw [hsame]
      exact hbacked.files
    · exact (sameContent_apply haside s).sheets.trans hbacked.sheets
    · rw [hsame]
      exact hbook
  · exact fun _ h => ⟨⟨h.1.kind, h.1.files, h.1.sheets⟩, h.2⟩
  · exact fun h => ⟨⟨h.1.kind, h.1.files, h.1.sheets⟩, h.2⟩
  · exact fun h => ⟨⟨h.1.kind, h.1.files, h.1.sheets⟩, h.2⟩
  · exact fun _ h => ⟨⟨h.1.kind, h.1.files, h.1.sheets⟩, h.2⟩
  · exact fun h => ⟨⟨h.1.kind, h.1.files, h.1.sheets⟩, h.2⟩

theorem overwriting_backed (hmay : ∀ s e, may s e → Unattended s e) (m : Session) :
    Overwriting (Rely may)
      fun b s _ => Apart m s ∧ Backed m s ∧ s.store.workbook = some b where
  kind hs := hs.2.1.kind
  workbook hs := hs.2.2
  lasting b := (survivesSwap_backed hmay m (· = some b)).lasting
  book _ hs := ⟨hs.1.withStore _, ⟨hs.2.1.kind, hs.2.1.files, hs.2.1.sheets⟩, rfl⟩

/-- A store that is put back without a fault has the document's sheets over the workbook that it
turned back to. `I` is what is known until it has turned, and `I'` what is known of its workbook
from then on. -/
theorem achieves_restoreStore_over {I : Session → Ledger → Prop}
    {I' : Workbook → Session → Ledger → Prop} {sheets : Keyed Sheet} {P : Workbook → Prop}
    (hI : Lasting (Rely may) (fun _ => True) I) (hI' : Overwriting (Rely may) I')
    {w : ActiveWorkbook}
    (hturned : ∀ d s t K, I s K → Turned w.source d s t →
      ∃ base, d = base.descriptor ∧ P base ∧ I' base t K)
    (hdocument : ∀ b s K, I' b s K → s.document.WellFormed ∧ s.document.sheets = sheets)
    (hs : I { s with store := s.store.logged w.source.call } L) :
    Achieves (Rely may) (restoreStore w) s L fun
      | .ok (), t, K => ∃ base b, P base ∧ Workbook.Restored base sheets b ∧ I' b t K
      | .error _, _, _ => True := by
  refine achieves_bind.mpr ((achieves_turnStore hI hs).imp ?_)
  rintro (e | d) t K ht
  · trivial
  obtain ⟨u, hu, hturn⟩ := ht
  obtain ⟨base, rfl, hbase, ht⟩ := hturned d u t K hu hturn
  obtain ⟨hformed, hsheets⟩ := hdocument base t K ht
  refine achieves_bind.mpr (achieves_get.mpr (achieves_bind.mpr (achieves_command.mpr
    ((hI'.replaySnapshot hformed ht).imp ?_))))
  rintro (e | n) x N hx
  · trivial
  · obtain ⟨b, hb, hx⟩ := hx
    -- what is written over the workbook is the document, which nobody changed
    rw [hsheets] at hb
    exact (achieves_pure _).mpr ⟨base, b, hbase, hb, hx⟩

theorem achieves_restoreStore_of_backed (hmay : ∀ s e, may s e → Unattended s e)
    {w : ActiveWorkbook} (hapart : Apart m s) (hs : Backed m s) :
    Achieves (Rely may) (restoreStore w) s L fun
      | .ok (), t, _ => Backed m t ∧ ∃ base b, w.source.Gives m.store.files base ∧
          t.store.workbook = some b ∧ Workbook.Restored base m.document.sheets b
      | .error _, _, _ => True := by
  have hI := survivesSwap_backed hmay m fun _ => True
  have hdocument : ∀ b s (_ : Ledger), Apart m s ∧ Backed m s ∧ s.store.workbook = some b →
      s.document.WellFormed ∧ s.document.sheets = m.document.sheets :=
    fun b s K hs => ⟨hs.1.wired.document, hs.2.1.sheets⟩
  refine (achieves_restoreStore_over (P := fun base => w.source.Gives m.store.files base)
    hI.lasting (overwriting_backed hmay m) ?_ hdocument
    (hI.log (L := L) trivial ⟨hapart, hs, trivial⟩)).imp ?_
  · rintro d s _ K ⟨hapart, hs, -⟩ (⟨base, rfl, rfl, hgives⟩ | ⟨rfl, hkind, -⟩)
    · -- the files are those of the state `m`, since nobody else changes them meanwhile
      rw [hs.files] at hgives
      exact ⟨base, rfl, hgives, hapart.withStore _, ⟨hs.kind, hs.files, hs.sheets⟩, rfl⟩
    · exact absurd hs.kind hkind
  · rintro (e | _) t K ht
    · trivial
    · obtain ⟨base, b, hgives, hb, -, ht, hbook⟩ := ht
      exact ⟨ht, base, b, hgives, hbook, hb⟩

/-- What a store has after a change of workbook that failed with `e` and was rolled back: what it
had, if it refused to turn, or the document's sheets over what the workbook is had from again. -/
def PutBack (may : Session → Event → Prop) (target : Target) (w : ActiveWorkbook) (e : SyncError)
    (m : Session) (M : Ledger) (t : Session) : Prop :=
  (RefusedTurn may target m M e ∧ t.store.workbook = m.store.workbook) ∨
    ∃ base b, w.source.Gives m.store.files base ∧ t.store.workbook = some b ∧
      Workbook.Restored base m.document.sheets b

theorem achieves_swap_putBack (hmay : ∀ s e, may s e → Unattended s e) {target : Target}
    {w : ActiveWorkbook} (hm : m.Wired) (hidle : m.isIdle)
    (hphase : m.phase = .draining ∨ m.phase = .beforeClose) (hkind : m.store.kind = .local) :
    Achieves (Rely may) (swap target (some w)) m M fun r t _ =>
      ∀ e, r = .error e → ¬ e.IsRestoreFailed →
        t.document.sheets = m.document.sheets ∧ PutBack may target w e m M t := by
  have hI := survivesSwap_backed hmay m (· = m.store.workbook)
  have hI' := survivesSwap_backed hmay m fun _ => True
  have hdetached := sameContent_detached ({ m with phase := .closing } : Session)
  refine achieves_swap hphase _
    (fun _ s _ => Apart m s ∧ Backed m s ∧ True) (fun _ r _ => AnyContent r) hI
    ⟨.start hm hidle _, ⟨hkind, rfl, hdetached.sheets⟩, rfl⟩ ?_ ?_ (fun _ => hI')
    (fun _ => trivial) ?_ ?_ ?_
  · rintro fault s L hrefused ⟨-, hs, hbook⟩
    refine achieves_recover_unturned ⟨_, rfl, fun e he _ => ⟨hs.sheets, .inl ⟨?_, hbook⟩⟩⟩
    obtain rfl := Except.error.inj he
    exact hrefused
  · rintro d s _ L ⟨hapart, hs, -⟩ (⟨b, rfl, -⟩ | ⟨rfl, -⟩)
    · exact ⟨hapart.withStore _, ⟨hs.kind, hs.files, hs.sheets⟩, trivial⟩
    · exact ⟨hapart, hs, trivial⟩
  · intro d s L hs hloading
    exact achieves_loadContent hI' (fun _ _ => trivial) hs hloading
  · rintro d e s L ⟨hapart, hs, -⟩ -
    refine achieves_recover_turned (Achieves.imp
      (achieves_restoreStore_of_backed hmay (hapart.withPhase rfl)
        ⟨hs.kind, hs.files, hs.sheets⟩) ?_)
    rintro (e' | _) t K ht
    · refine ⟨_, rfl, fun e he hnot => absurd ?_ hnot⟩
      cases he
      trivial
    · obtain ⟨ht, hback⟩ := ht
      exact ⟨_, rfl, fun e he _ => ⟨ht.sheets, .inr hback⟩⟩
  · intro d s L content t hs _ _ e he
    cases he

theorem survivesClosing_kind (k : StoreKind) :
    SurvivesClosing may fun s _ => s.Wired ∧ s.store.kind = k where
  event s _ e _ hs := ⟨hs.1.apply e, (kind_apply s e).trans hs.2⟩
  phase _ hs := ⟨hs.1.congr rfl rfl rfl, hs.2⟩
  hook _ _ hs := ⟨hs.1.congr rfl rfl rfl, hs.2⟩

/-- A change of workbook that fails and is rolled back leaves a local store with the workbook that
it had in the state `m`, where the store was to turn and refused, or with the document's sheets over
what the file of the workbook holds, or over the blank workbook where it has none. This is the
workbook that the store had just if it had the sheets, names and tables that are had from there, and
showed the same. -/
theorem rolled_back_workbook {s₀ : Session} {target : Target} {w : ActiveWorkbook} {e : SyncError}
    (hnew : s₀.IsNew) (hrun : Run may s₀ s L) (hkind : s.store.kind = .local)
    (hactive : s.active = some w) (hmay : ∀ s e, may s e → Unattended s e)
    (h : Activity.Runs (Rely may) (request (.switch target)).run s L (.error e) t K)
    (hback : ¬ e.IsRestoreFailed) :
    ∃ m M, TurnsAt may target s L (.error e) t K m M ∧ t.document.sheets = m.document.sheets ∧
      ((RefusedTurn may target m M e ∧ t.store.workbook = m.store.workbook) ∨
        ∃ base b, w.source.Gives m.store.files base ∧ t.store.workbook = some b ∧
          Workbook.Restored base t.document.sheets b ∧ ∀ old, m.store.workbook = some old →
            (Workbook.Same old b ↔ Workbook.SameFrame old base ∧ ∀ id p,
              CellEdit.ofState (base.overlaid t.document.sheets id p) =
                .ofState (old.cell id p))) := by
  have hs := hrun.atRest hnew.atRest
  rcases exists_turnsAt hs.isBusy hs.stable.phase_eq h with ⟨⟨⟩, -⟩ | ⟨m, M, hturn⟩
  obtain ⟨hidle, hphase, -, hwired, hlocal⟩ := hturn.closing (survivesClosing_kind .local)
    fun prompts => ⟨hs.wired.congr rfl rfl rfl, hkind⟩
  have hswap : Achieves (Rely may) (swap target (some w)) m M _ :=
    achieves_swap_putBack hmay hwired hidle hphase hlocal
  rw [← hactive] at hswap
  obtain ⟨u, hu, rfl⟩ := hturn.ends hswap
  obtain ⟨hsheets, hu⟩ := hu e rfl hback
  refine ⟨m, M, hturn, hsheets, hu.imp_right ?_⟩
  rintro ⟨base, b, hgives, hbook, hb⟩
  rw [← hsheets] at hb
  exact ⟨base, b, hgives, hbook, hb, fun old _ => hb.same_iff old⟩

/-! ## Names that are defined meanwhile -/

/-- A name that is defined in a blank workbook. -/
def named : Workbook := Workbook.blank.defineName { name := "rate", refersTo := "Sheet1!A1" }

/-- The name is defined in the store, and its next read is made to fail. -/
def naming : Event := .store (some named) {} { failingReads := 1 }

/-- Nothing but that may happen, and not while no workbook is bound. -/
def MayName (s : Session) (e : Event) : Prop := s.phase.isTurning = false ∧ e = naming

theorem unattended_of_mayName (s : Session) (e : Event) (h : MayName s e) : Unattended s e := by
  intro hturning
  rw [h.1] at hturning
  cases hturning

/-- A blank workbook in which a name is defined, and a change of workbook that then fails. -/
theorem exists_run_naming : ∃ s L t K w fault b, Run MayName (.on { watch := some {} }) s L ∧
    s.store.kind = .local ∧ s.store.workbook = some named ∧ s.active = some w ∧
    Activity.Runs (Rely MayName) (request (.switch .blank)).run s L (.error (.store fault)) t K ∧
    t.store.workbook = some b ∧ b.names = [] := by
  -- the whole run is evaluated: a blank workbook, the name, and a change whose first read fails
  have hends : ((request (.switch .blank)).run (.on { watch := some {} })).end?.any fun first =>
      (first.2.phase.isTurning == false && (naming.apply first.2).active.isSome &&
        (naming.apply first.2).store.kind == .local) &&
          ((request (.switch .blank)).run (naming.apply first.2)).end?.any fun second =>
            isStoreFault second.1 && second.2.store.workbook.any fun b => b.names == [] := by
    decide +kernel
  obtain ⟨⟨r, s⟩, hs, hends⟩ := (Option.any_eq_true _ _).mp hends
  obtain ⟨hstate, hends⟩ := Bool.and_eq_true_iff.mp hends
  obtain ⟨hstate, hkind⟩ := Bool.and_eq_true_iff.mp hstate
  obtain ⟨hphase, hactive⟩ := Bool.and_eq_true_iff.mp hstate
  obtain ⟨⟨r', t⟩, ht, hends⟩ := (Option.any_eq_true _ _).mp hends
  obtain ⟨hfault, hbook⟩ := Bool.and_eq_true_iff.mp hends
  obtain ⟨b, hb, hnames⟩ := (Option.any_eq_true _ _).mp hbook
  obtain ⟨w, hw⟩ := Option.isSome_iff_exists.mp hactive
  have hstart : Run MayName _ s _ := Run.of_end? hs
  have hrun := hstart.event naming ⟨eq_of_beq hphase, rfl⟩
  obtain ⟨fault, rfl⟩ := exists_of_isStoreFault hfault
  exact ⟨_, _, t, _, w, fault, b, hrun, eq_of_beq hkind, rfl, hw, Progress.runs_of_end? ht, hb,
    eq_of_beq hnames⟩

theorem survivesClosing_named : SurvivesClosing MayName fun s _ => s.store.workbook = some named where
  event s L e he hs := by
    rw [he.2]
    rfl
  phase _ hs := hs
  hook _ _ hs := hs

/-- What is defined in the store's workbook only does not come back. -/
theorem rolled_back_without_names : ∃ s L t K m M w e old b,
    Run MayName (.on { watch := some {} }) s L ∧ s.store.kind = .local ∧ s.active = some w ∧
    Activity.Runs (Rely MayName) (request (.switch .blank)).run s L (.error e) t K ∧
    ¬ e.IsRestoreFailed ∧ TurnsAt MayName .blank s L (.error e) t K m M ∧
    m.store.workbook = some old ∧ t.store.workbook = some b ∧ old.names.length = 1 ∧
    b.names = [] := by
  obtain ⟨s, L, t, K, w, fault, b, hrun, hkind, hnamed, hactive, h, hb, hnames⟩ := exists_run_naming
  have hnew := isNew_on { watch := some {} }
  have hs := hrun.atRest hnew.atRest
  rcases exists_turnsAt hs.isBusy hs.stable.phase_eq h with ⟨⟨⟩, -⟩ | ⟨m, M, hturn⟩
  obtain ⟨-, -, -, hm⟩ := hturn.closing survivesClosing_named fun _ => hnamed
  exact ⟨s, L, t, K, m, M, w, _, named, b, hrun, hkind, hactive, h, id, hturn, hm, hb, rfl, hnames⟩

/-- The document's sheets come back over a workbook without the name. -/
theorem rolled_back_over_base : ∃ s L t K w e base b, Run MayName (.on { watch := some {} }) s L ∧
    s.active = some w ∧
    Activity.Runs (Rely MayName) (request (.switch .blank)).run s L (.error e) t K ∧
    t.store.workbook = some b ∧ Workbook.Restored base t.document.sheets b ∧ base.names = [] := by
  obtain ⟨s, L, t, K, w, fault, b, hrun, hkind, hnamed, hactive, h, hb, hnames⟩ := exists_run_naming
  have hnew := isNew_on { watch := some {} }
  obtain ⟨m, M, hturn, -, hback⟩ :=
    rolled_back_workbook hnew hrun hkind hactive unattended_of_mayName h id
  obtain ⟨-, -, -, hm⟩ := hturn.closing survivesClosing_named fun _ => hnamed
  rcases hback with ⟨-, hsame⟩ | ⟨base, b', -, hb', hrestored, -⟩
  · obtain rfl := Option.some.inj (hb.symm.trans (hsame.trans hm))
    cases hnames
  · obtain rfl := Option.some.inj (hb.symm.trans hb')
    exact ⟨s, L, t, K, w, _, base, b, hrun, hactive, h, hb, hrestored,
      hrestored.names.symm.trans hnames⟩

end SheetSync.Session
