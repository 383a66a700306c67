import SheetSync.Proofs.Refresh
import SheetSync.Proofs.Session.Refusal
import SheetSync.Proofs.Session.Saved
/-!
What becomes of refresh schedules in a session. Others put schedules, note runs, move and remove
them at any time; the session itself does nothing to them, but for a save under another path, which
moves those of the active workbook to its new identity: `AtRest.saved_schedules`. So a book that
came about by its operations stays one, and no query gets two schedules.

Main statement: `Session.schedules_survive`.
-/
namespace SheetSync

variable {may : Session → Event → Prop} {s s₀ t m : Session} {L K M : Ledger}

namespace Session

/-- Whether an event does to the book of schedules no more than one of its operations. -/
def Tends (s : Session) : Event → Prop
  | .refresh book => s.refresh.Step book
  | _ => True

theorem Tends.evolves {e : Event} (h : Tends s e) : s.refresh.Evolves (e.apply s).refresh := by
  cases e with
  | refresh book => exact .single h
  | _ => exact .refl

theorem survives_evolves (hmay : ∀ u e, may u e → Tends u e) (b : RefreshBook) :
    Survives may fun u _ => b.Evolves u.refresh :=
  fun u _ e he hu => hu.trans (hmay u e he).evolves

/-! ## Saves -/

/-- Until a save has its result, the book changes as others change it. -/
theorem SavesAt.evolves {path : String} {result : Except StoreError Unit}
    (h : SavesAt may path s L result t K m M) (hmay : ∀ u e, may u e → Tends u e) :
    s.refresh.Evolves t.refresh := by
  have hI : Lasting (Rely may) (fun call => call = .saveWorkbook (some path)) fun u _ =>
      s.refresh.Evolves u.refresh :=
    ⟨(survives_evolves hmay _).rely, fun _ hu => hu, fun hu => hu⟩
  have hkept := h.keeps hI (fun _ hu => hu) .refl
  cases result with
  | error => exact hkept
  | ok =>
    obtain ⟨v, target, hv, rfl⟩ := hkept
    exact hv

theorem SavesAt.refresh_eq {path : String} {result : Except StoreError Unit}
    (h : SavesAt may path s L result t K m M) (hphase : s.phase = .saving)
    (hspares : Spares may (·.refresh)) : t.refresh = s.refresh := by
  have hleft := h.leaves hphase (f := (·.refresh)) hspares fun _ _ _ => rfl
  cases result with
  | error => exact hleft
  | ok =>
    obtain ⟨v, target, hv, rfl⟩ := hleft
    exact hv

/-- How a save under another path leaves the schedules, if the book was `book` when the workbook got
its new identity. -/
structure Carried (may : Session → Event → Prop) (w : ActiveWorkbook) (path : String)
    (s t : Session) (book : RefreshBook) : Prop where
  evolves : s.refresh.Evolves book
  spared : Spares may (·.refresh) → book = s.refresh
  active : t.active.map (·.id) = some (.ofPath path)
  refresh : t.refresh = (book.migrate w.id (.ofPath path)).2

theorem AtRest.saved_schedules (hs : s.AtRest) (hmay : ∀ u e, may u e → Tends u e) {r : Request}
    (hr : ∀ target, r ≠ .switch target) {w : ActiveWorkbook} (hactive : s.active = some w)
    {reply : Except SyncError Reply}
    (h : Activity.Runs (Rely may) (Session.request r).run s L reply t K) :
    s.refresh.Evolves t.refresh ∧
      ∀ path, r.isInPlace w = false → reply = .ok (.saved path) →
        ∃ book, Carried may w path s t book := by
  rcases hs.saves_cases hactive hr h with
    hcancelled | ⟨path, prompts, result, u, m, M, hsaves, rfl, rfl⟩
  · obtain ⟨rfl, rfl, -⟩ := hcancelled.eq_of_runs h
    exact ⟨.refl, by rintro path - ⟨⟩⟩
  have hevolves : s.refresh.Evolves u.refresh := hsaves.evolves hmay
  have hspared : Spares may (·.refresh) → u.refresh = s.refresh := hsaves.refresh_eq rfl
  cases result with
  | error fault => exact ⟨hevolves, by rintro path - ⟨⟩⟩
  | ok =>
    cases hinPlace : r.isInPlace w with
    | true =>
      rw [told_of_inPlace hinPlace]
      exact ⟨hevolves, by rintro path ⟨⟩⟩
    | false =>
      rw [told_of_not_inPlace hinPlace]
      refine ⟨hevolves.tail (.migrate w.id (.ofPath path)), ?_⟩
      rintro path' - ⟨⟩
      exact ⟨u.refresh, hevolves, hspared, rfl, rfl⟩

/-! ## Runs -/

/-- Whatever a request comes to, the book changes by its operations only. -/
theorem AtRest.evolves (hs : s.AtRest) (hmay : ∀ u e, may u e → Tends u e) {r : Request}
    {reply : Except SyncError Reply}
    (h : Activity.Runs (Rely may) (Session.request r).run s L reply t K) :
    s.refresh.Evolves t.refresh := by
  have hsave : (∀ target, r ≠ .switch target) → s.refresh.Evolves t.refresh := by
    intro hr
    obtain hactive | ⟨w, hactive⟩ := Option.eq_none_or_eq_some s.active
    · obtain ⟨-, rfl, -⟩ := (atOnce_noActiveWorkbook hs.isBusy hactive hr).eq_of_runs h
      exact .refl
    · exact (hs.saved_schedules hmay hr hactive h).1
  cases r with
  | save => exact hsave (by simp)
  | saveAs path => exact hsave (by simp)
  | switch target =>
    cases hgrants : s.grantsDiscard with
    | false =>
      obtain ⟨-, rfl, -⟩ := (atOnce_declined hs.isBusy hs.stable.phase_eq hgrants).eq_of_runs h
      exact .refl
    | true =>
      have hI : SurvivesClosing may fun u _ => s.refresh.Evolves u.refresh :=
        ⟨survives_evolves hmay _, fun _ hu => hu, fun _ _ hu => hu⟩
      refine (hs.achieves_granted hgrants hI.event ?_ ?_ _ _ _ h).1
      · intro u v _ hu _ _ hrefresh
        rw [hrefresh]
        exact hu
      · exact Achieves.imp (achieves_conclude hI rfl .refl) fun _ _ _ hm => hm.2.2.2.2

end Session

theorem Run.evolves (hnew : s₀.AtRest) (hmay : ∀ u e, may u e → Session.Tends u e)
    (h : Run may s₀ s L) : s₀.refresh.Evolves s.refresh := by
  induction h with
  | start => exact .refl
  | event e _ he ih => exact ih.trans (hmay _ e he).evolves
  | request r hrun hreq ih => exact ih.trans ((hrun.atRest hnew).evolves hmay hreq)

namespace Session

/-- In a book that came about by its operations, a workbook has one schedule for a query. Migration
between two identities tells how many schedules moved, leaves the old one none, and gives the new
one those that it had for other queries, and then those that moved, each in their order and as they
were; every other workbook keeps its own. Migration to the same identity does nothing. In a session
that starts with such a book, and while others do no more to it than one operation after the other,
a save under another path that succeeds has moved all schedules of the active workbook to its new
identity in this way, and again no query has two. -/
theorem schedules_survive {b : RefreshBook} (hb : b.Reachable) :
    b.IsProper ∧
    (∀ id, b.migrate id id = (0, b)) ∧
    (∀ old new, old ≠ new → (b.migrate old new).1 = (b.schedules old).length ∧
      b.Moved old new (b.migrate old new).2) ∧
    ∀ {may : Session → Event → Prop} {s₀ s t : Session} {L K : Ledger} {r : Request}
      {w : ActiveWorkbook} {path : String},
      s₀.IsNew → s₀.refresh = b → (∀ u e, may u e → Tends u e) → Run may s₀ s L →
      (∀ target, r ≠ .switch target) → s.active = some w → r.isInPlace w = false →
      Activity.Runs (Rely may) (request r).run s L (.ok (.saved path)) t K →
      t.refresh.IsProper ∧ ∃ book, Carried may w path s t book ∧
        (w.id ≠ .ofPath path → book.Moved w.id (.ofPath path) t.refresh) ∧
        ∀ f ∈ book.schedules w.id, f ∈ t.refresh.schedules (.ofPath path) := by
  refine ⟨hb.isProper, b.migrate_self, fun old new => RefreshBook.moved_migrate hb.isProper, ?_⟩
  rintro may s₀ s t L K r w path hnew rfl hmay hrun hr hactive hinPlace h
  have hs := hrun.atRest hnew.atRest
  have hreachable : s.refresh.Reachable := hb.evolves (hrun.evolves hnew.atRest hmay)
  obtain ⟨hevolves, hcarried⟩ := hs.saved_schedules hmay hr hactive h
  obtain ⟨book, hbook⟩ := hcarried path hinPlace rfl
  have hproper : book.IsProper := (hreachable.evolves hbook.evolves).isProper
  refine ⟨(hreachable.evolves hevolves).isProper, book, hbook, fun hne => ?_, ?_⟩
  · rw [hbook.refresh]
    exact (RefreshBook.moved_migrate hproper hne).2
  · rw [hbook.refresh]
    exact fun f => RefreshBook.mem_schedules_migrate hproper _ _

/-- Moreover, nothing happens while the session saves. -/
def TendsBetween (s : Session) (e : Event) : Prop := Tends s e ∧ s.phase ≠ .saving

/-- A schedule that runs from 1970 on. -/
def running (query : String) (interval : Nat) : Schedule :=
  { query, interval, lastRun := none, nextRun := ⟨0, 0⟩ }

/-- A session on an empty store, where two queries are scheduled for a path. -/
def scheduled : Session :=
  { Session.on {} with
    refresh := (({} : RefreshBook).put (.ofPath "book") (running "a" 60)).put
      (.ofPath "book") (running "b" 60) }

theorem isNew_scheduled : scheduled.IsNew := ⟨_, rfl, rfl⟩

/-- A new workbook that gets a schedule and is then saved under the path. -/
theorem exists_runs_scheduled : ∃ s L t w, Run TendsBetween scheduled s L ∧ s.active = some w ∧
    w.id ≠ .ofPath "book" ∧ s.refresh = scheduled.refresh.put w.id (running "a" 5) ∧
    Activity.Runs (Rely TendsBetween) (request (.saveAs (some "book"))).run s L
      (.ok (.saved "book")) t L := by
  have hends : ((request (.switch .blank)).run scheduled).end?.any fun first =>
      let s := first.2
      s.active.any (·.id != .ofPath "book") && s.refresh == scheduled.refresh &&
        (s.config.ticks == 0 && s.isIdle && s.store.files == {}) &&
        (s.store.kind == .local && s.store.watch == none && s.store.workbook.isSome) := by
    decide +kernel
  obtain ⟨⟨reply, s⟩, hs, hends⟩ := (Option.any_eq_true _ _).mp hends
  simp only [Bool.and_eq_true, beq_iff_eq, Option.any_eq_true, bne_iff_ne] at hends
  obtain ⟨⟨⟨⟨w, hactive, hne⟩, hrefresh⟩, ⟨hticks, hidle⟩, hfiles⟩, ⟨hkind, hwatch⟩, hworkbook⟩ :=
    hends
  obtain ⟨b, hworkbook⟩ := Option.isSome_iff_exists.mp hworkbook
  have hstart : Run TendsBetween scheduled s _ := .request _ .start (Progress.runs_of_end? hs)
  have hphase := (hstart.atRest isNew_scheduled.atRest).phase_eq_active hactive
  have hrun := hstart.event (.refresh (s.refresh.put w.id (running "a" 5)))
    ⟨.put _ _, by rw [hphase]; decide⟩
  have hreplace := Store.run_replace_book (.text (WorkbookFile.ofWorkbook b).text)
  rw [← hfiles] at hreplace
  obtain ⟨t, hsaved, -⟩ := exists_runs_saveAs (hrun.atRest isNew_scheduled.atRest).isBusy hactive
    hphase hticks hidle ⟨hkind, hwatch, hworkbook⟩ hreplace
  rw [← hrefresh]
  exact ⟨_, _, t, w, hrun, hactive, hne, rfl, hsaved⟩

/-- Its schedule goes along with the workbook, and takes the place of the one for the same query. -/
theorem schedules_survive_overlap : ∃ s L t w, scheduled.refresh.Reachable ∧
    Run TendsBetween scheduled s L ∧ s.active = some w ∧
    s.refresh.schedules w.id = [running "a" 5] ∧
    Activity.Runs (Rely TendsBetween) (request (.saveAs (some "book"))).run s L
      (.ok (.saved "book")) t L ∧
    t.refresh.schedules (.ofPath "book") = [running "b" 60, running "a" 5] ∧
    t.refresh.schedules w.id = [] := by
  obtain ⟨s, L, t, w, hrun, hactive, hne, hput, hsaved⟩ := exists_runs_scheduled
  have hreachable : scheduled.refresh.Reachable := .tail (.single (.put _ _)) (.put _ _)
  obtain ⟨-, -, -, hsurvives⟩ := schedules_survive hreachable
  obtain ⟨-, book, hbook, hmoved, -⟩ := hsurvives isNew_scheduled rfl (fun _ _ he => he.1) hrun
    (by rintro target ⟨⟩) hactive rfl hsaved
  obtain rfl : book = s.refresh := hbook.spared fun u e he hsaving => absurd hsaving he.2
  have hold : s.refresh.schedules w.id = [running "a" 5] := by
    rw [hput, RefreshBook.schedules_put, if_pos rfl, scheduled, RefreshBook.schedules_put,
      if_neg hne, RefreshBook.schedules_put, if_neg hne]
    rfl
  have hnew : s.refresh.schedules (.ofPath "book") = [running "a" 60, running "b" 60] := by
    rw [hput, RefreshBook.schedules_put, if_neg (Ne.symm hne)]
    decide
  refine ⟨s, L, t, w, hreachable, hrun, hactive, hold, hsaved, ?_, (hmoved hne).source⟩
  rw [(hmoved hne).target, hold, hnew]
  decide

end Session

end SheetSync
