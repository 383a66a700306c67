import SheetSync.Proofs.Session.Command
import SheetSync.Proofs.Transfer
/-!
Copies of whole workbooks that a session moves to and from its store. Main statements:
`commands_loadSnapshot`, by which a store that is not watched gives the copy of its workbook, and
`Overwriting.replaySnapshot`, by which a copy that is written over a workbook without a fault makes
it show what the copy does.
-/
namespace SheetSync.Session

variable {α γ : Type} {rely : Pause → Session → γ → Session → γ → Prop} {s : Session} {g : γ}
  {b : Workbook}

/-! ## Loading from a store that is not watched -/

/-- What a command comes to that gives `a`, but may fail unless something is `within` limits. -/
def Gives (within : Prop) (a : α) (r : Except StoreError α) : Prop :=
  r = .ok a ∨ (¬ within ∧ ∃ e, r = .error e)

theorem Gives.eq_ok {within : Prop} {a : α} {r : Except StoreError α} (h : Gives within a r)
    (hwithin : within) : r = .ok a := h.resolve_right fun hfails => hfails.1 hwithin

section Loading

theorem commands_log (hwatch : s.store.watch = none) (call : Call)
    {post : Except StoreError Unit → Session → γ → Prop} :
    Commands rely (Store.log call) s g post ↔ post (.ok ()) s g := by
  refine (commands_modify _).trans ?_
  have hstore := Store.logged_of_watch_eq_none call hwatch
  show post (.ok ()) { s with store := s.store.logged call } g ↔ _
  rw [hstore]

theorem commands_passRead (hwatch : s.store.watch = none)
    {post : Except StoreError Unit → Session → γ → Prop} :
    Commands rely Store.passRead s g post ↔ post (.ok ()) s g := by
  simp [Store.passRead, Store.switches, commands_bind, hwatch]

section Sheets

variable (h : s.store.Holds b) {id : String} {sheet : Sheet} (hsheet : b.sheets.get? id = some sheet)
include h hsheet

theorem commands_getRange {rect : Rect} (hvalid : rect.isValid)
    {post : Except StoreError (List (List CellState)) → Session → γ → Prop}
    (hpost : ∀ r, Gives (rect.area ≤ rangeLimit) (rect.grid sheet.read) r → post r s g) :
    Commands rely (Store.getRange id rect) s g post := by
  have hread : b.readRange id rect = .ok (rect.grid sheet.read) := by
    simp only [Workbook.readRange, Workbook.sheet, hsheet]
    rfl
  simp only [Store.getRange, commands_bind, commands_log h.watch, commands_passRead h.watch,
    commands_get, h.kind, commands_liftM]
  by_cases harea : rect.area ≤ rangeLimit
  · simp only [Workbook.checkRange_eq_ok_iff.mpr ⟨hvalid, harea⟩, commands_current h.workbook,
      hread]
    exact hpost _ (.inl rfl)
  · cases hcheck : checkRange rect with
    | ok => exact absurd (Workbook.checkRange_eq_ok_iff.mp hcheck).2 harea
    | error e => exact hpost _ (.inr ⟨harea, e, rfl⟩)

theorem commands_usedRange?
    {post : Except StoreError (Option Rect) → Session → γ → Prop} :
    Commands rely (Store.usedRange? id) s g post ↔ post (.ok sheet.usedRange?) s g := by
  have hfound : b.sheet id = .ok sheet := by simp only [Workbook.sheet, hsheet]
  simp only [Store.usedRange?, commands_bind, commands_log h.watch, commands_passRead h.watch,
    commands_get, h.kind, commands_liftM, commands_current h.workbook, hfound, commands_pure]

theorem commands_readChunks {within : Prop} {chunks : List Rect}
    (hchunks : ∀ c ∈ chunks, c.isValid ∧ (within → c.area ≤ rangeLimit))
    {post : Except StoreError (List (Position × CellState)) → Session → γ → Prop}
    (hpost : ∀ r, Gives within (chunks.flatMap fun c => c.entries (c.grid sheet.read)) r →
      post r s g) :
    Commands rely (Store.readChunks id chunks) s g post := by
  induction chunks generalizing post with
  | nil => exact (commands_pure _).mpr (hpost _ (.inl rfl))
  | cons c chunks ih =>
    obtain ⟨hvalid, harea⟩ := hchunks c List.mem_cons_self
    refine commands_bind.mpr (commands_getRange h hsheet hvalid fun r hr => ?_)
    obtain rfl | ⟨hnot, e, rfl⟩ := hr
    · refine commands_bind.mpr (ih (fun e he => hchunks e (List.mem_cons_of_mem c he)) ?_)
      rintro r (rfl | ⟨hnot, e, rfl⟩)
      · exact (commands_pure _).mpr (hpost _ (.inl rfl))
      · exact hpost _ (.inr ⟨hnot, e, rfl⟩)
    · exact hpost _ (.inr ⟨mt harea hnot, e, rfl⟩)

end Sheets

theorem commands_loadSheet (h : s.store.Holds b) {rows cols : Nat} {info : SheetInfo}
    (hinfo : (b.sheets.get? info.id).isSome)
    {post : Except StoreError SheetSnapshot → Session → γ → Prop}
    (hpost : ∀ r, Gives (max rows 1 * max cols 1 ≤ rangeLimit) (b.copyOf rows cols info) r →
      post r s g) :
    Commands rely (Store.loadSheet rows cols info) s g post := by
  obtain ⟨sheet, hsheet⟩ := Option.isSome_iff_exists.mp hinfo
  have hcopy : b.copyOf rows cols info = .ofCells info.id info.name (sheet.chunked rows cols) := by
    rw [Workbook.copyOf, hsheet]
    rfl
  rw [hcopy, Sheet.chunked] at hpost
  refine commands_bind.mpr ((commands_usedRange? h hsheet).mpr ?_)
  cases hused : sheet.usedRange? with
  | none =>
    rw [hused] at hpost
    exact commands_bind.mpr ((commands_pure _).mpr ((commands_pure _).mpr (hpost _ (.inl rfl))))
  | some used =>
    rw [hused] at hpost
    have hchunks : ∀ c ∈ used.chunks rows cols, c.isValid ∧
        (max rows 1 * max cols 1 ≤ rangeLimit → c.area ≤ rangeLimit) := fun c hc =>
      (Rect.chunk_bounds hc).imp_right Nat.le_trans
    refine commands_bind.mpr (commands_readChunks h hsheet hchunks ?_)
    rintro r (rfl | ⟨hnot, e, rfl⟩)
    · exact (commands_pure _).mpr (hpost _ (.inl rfl))
    · exact hpost _ (.inr ⟨hnot, e, rfl⟩)

theorem commands_loadSheets (h : s.store.Holds b) {rows cols : Nat} {infos : List SheetInfo}
    (hinfos : ∀ info ∈ infos, (b.sheets.get? info.id).isSome)
    {post : Except StoreError (List SheetSnapshot) → Session → γ → Prop}
    (hpost : ∀ r, Gives (max rows 1 * max cols 1 ≤ rangeLimit)
      (infos.map (b.copyOf rows cols)) r → post r s g) :
    Commands rely (Store.loadSheets rows cols infos) s g post := by
  induction infos generalizing post with
  | nil => exact (commands_pure _).mpr (hpost _ (.inl rfl))
  | cons info infos ih =>
    refine commands_bind.mpr (commands_loadSheet h (hinfos info List.mem_cons_self) ?_)
    rintro r (rfl | ⟨hnot, e, rfl⟩)
    · refine commands_bind.mpr (ih (fun i hi => hinfos i (List.mem_cons_of_mem info hi)) ?_)
      rintro r (rfl | ⟨hnot, e, rfl⟩)
      · exact (commands_pure _).mpr (hpost _ (.inl rfl))
      · exact hpost _ (.inr ⟨hnot, e, rfl⟩)
    · exact hpost _ (.inr ⟨hnot, e, rfl⟩)

/-- A local store that is not watched gives the copy of its workbook, or fails where chunks may be
beyond its limit. -/
theorem commands_loadSnapshot (h : s.store.Holds b) {rows cols : Nat}
    {post : Except StoreError Snapshot → Session → γ → Prop}
    (hpost : ∀ r, Gives (max rows 1 * max cols 1 ≤ rangeLimit) (b.copy rows cols) r →
      post r s g) :
    Commands rely (Store.loadSnapshot b.descriptor rows cols) s g post := by
  refine commands_bind.mpr (commands_loadSheets h (fun info hinfo => ?_) ?_)
  · exact Workbook.isSome_get?_iff.mpr ⟨info, hinfo, rfl⟩
  · rintro r (rfl | ⟨hnot, e, rfl⟩)
    · exact (commands_pure _).mpr (hpost _ (.inl rfl))
    · exact hpost _ (.inr ⟨hnot, e, rfl⟩)

/-- What opening a file on a local store that is not watched comes to. -/
theorem commands_openWorkbook (hkind : s.store.kind = .local) (hwatch : s.store.watch = none)
    (path : String) {post : Except StoreError Descriptor → Session → γ → Prop} :
    Commands rely (Store.openWorkbook path) s g post ↔ ∀ t i, rely .read s g t i →
      match WorkbookFile.found path ((t.store.files.read path).map Prod.fst) with
      | .error e => post (.error e) t i
      | .ok b => post (.ok b.descriptor) (t.withBook b) i := by
  simp only [Store.openWorkbook, Store.switches, commands_bind, commands_log hwatch, commands_get,
    hwatch, commands_pure, Option.getD_none, Bool.false_eq_true, if_false, hkind, commands_pause]
  refine forall_congr' fun t => forall_congr' fun i => forall_congr' fun _ => ?_
  rcases t.store.files.read path with fault | ⟨content, time⟩
  · exact commands_throw _
  · dsimp only [Except.map, WorkbookFile.found]
    cases WorkbookFile.ofContent? content with
    | none => exact commands_throw _
    | some file => exact commands_bind.trans ((commands_modify _).trans (commands_pure _))

end Loading

/-! ## Saving from a store that is not watched -/

/-- What a store that is not watched saves is what it has before it waits for the file. -/
theorem commands_saveWorkbook (h : s.store.Holds b) (p : String)
    {post : Except StoreError Unit → Session → γ → Prop} :
    Commands rely (Store.saveWorkbook (some p)) s g post ↔ ∀ t i, rely .write s g t i →
      match (FileTree.replace p (.text (WorkbookFile.ofWorkbook b).text)).run t.store.files with
      | (.error fault, files) =>
        post (.error (.file p fault)) { t with store := { t.store with files } } i
      | (.ok (), files) => post (.ok ()) { t with store := { t.store with
          files, workbook := t.store.workbook.map ({ · with path := some p }) } } i := by
  have hwrite : ∀ {post : Except StoreError Unit → Session → γ → Prop},
      Commands rely (Store.writeFile p b) s g post ↔ ∀ t i, rely .write s g t i →
        match (FileTree.replace p (.text (WorkbookFile.ofWorkbook b).text)).run t.store.files with
        | (.error fault, files) =>
          post (.error (.file p fault)) { t with store := { t.store with files } } i
        | (.ok (), files) => post (.ok ()) { t with store := { t.store with files } } i := by
    intro post
    unfold Store.writeFile
    generalize FileTree.replace p (.text (WorkbookFile.ofWorkbook b).text) = m
    refine commands_bind.trans ((commands_pause _).trans ?_)
    refine forall_congr' fun t => forall_congr' fun i => forall_congr' fun _ => ?_
    refine commands_bind.trans (commands_get.trans ?_)
    refine commands_bind.trans ((commands_set _).trans ?_)
    dsimp only [ExceptT.run]
    rcases m t.store.files with ⟨fault | _, files⟩
    · exact commands_throw _
    · exact commands_pure _
  simp only [Store.saveWorkbook, Store.switches, commands_bind, commands_log h.watch, commands_get,
    h.watch, commands_pure, Option.getD_none, Bool.false_eq_true, if_false, h.kind,
    commands_current h.workbook, Option.some_or, hwrite]
  refine forall_congr' fun t => forall_congr' fun i => forall_congr' fun _ => ?_
  rcases (FileTree.replace p (.text (WorkbookFile.ofWorkbook b).text)).run t.store.files with
    ⟨fault | _, files⟩
  · exact Iff.rfl
  · exact commands_modify _

/-! ## Writing a copy over a workbook -/

/-- What is known of a session whose local store has a workbook, whatever becomes of the
workbook. -/
structure Overwriting (rely : Pause → Session → γ → Session → γ → Prop)
    (I : Workbook → Session → γ → Prop) : Prop where
  kind : ∀ {b s g}, I b s g → s.store.kind = .local
  workbook : ∀ {b s g}, I b s g → s.store.workbook = some b
  lasting : ∀ b, Lasting rely (fun _ => True) (I b)
  book : ∀ {b s g} (b' : Workbook), I b s g →
    I b' { s with store := { s.store with workbook := some b' } } g

namespace Overwriting

variable {I : Workbook → Session → γ → Prop} (hI : Overwriting rely I)
include hI

theorem usedRange? {id : String} (hs : I b s g) :
    Commands rely (Store.usedRange? id) s g fun
      | .ok used, t, h => I b t h ∧ ∃ sheet, b.sheets.get? id = some sheet ∧
          used = sheet.usedRange?
      | .error _, _, _ => True := by
  refine commands_bind.mpr ((commands_modify _).mpr ?_)
  refine commands_bind.mpr
    (((hI.lasting b).readable.passRead _ _ ((hI.lasting b).log trivial hs)).imp ?_)
  rintro (e | _) t h ht
  · trivial
  refine commands_bind.mpr (commands_get.mpr ?_)
  simp only [hI.kind ht]
  refine commands_bind.mpr ((commands_current (hI.workbook ht)).mpr ?_)
  refine commands_bind.mpr ((commands_liftM _).mpr ?_)
  cases hsheet : b.sheets.get? id with
  | none => simp only [Workbook.sheet, hsheet]
  | some sheet =>
    simp only [Workbook.sheet, hsheet]
    exact (commands_pure _).mpr ⟨ht, sheet, rfl, rfl⟩

theorem setRange {id : String} {rect : Rect} {values : List (List CellEdit)} (hs : I b s g) :
    Commands rely (Store.setRange id rect values) s g fun
      | .ok _, t, h => (Write.range id rect values).Fits rangeLimit ∧
          I (b.after (.range id rect values)) t h
      | .error _, _, _ => True := by
  refine commands_bind.mpr ((commands_modify _).mpr ?_)
  refine commands_bind.mpr
    (((hI.lasting b).passWrite id _ _ ((hI.lasting b).log trivial hs)).imp ?_)
  rintro (e | _) t h ht
  · trivial
  refine commands_bind.mpr (commands_get.mpr ?_)
  simp only [hI.kind ht]
  have hreceive : b.receive (.range id rect values) = (do
    let _ ← checkRange rect
    let _ ← checkShape rect values
    b.writeAll id (rect.entries values)) := rfl
  refine commands_bind.mpr ((commands_liftM _).mpr ?_)
  -- a command that fails at a check has written nothing
  cases hrange : checkRange rect with
  | error e => trivial
  | ok =>
    refine commands_bind.mpr ((commands_liftM _).mpr ?_)
    cases hshape : checkShape rect values with
    | error e => trivial
    | ok =>
      refine commands_bind.mpr ((commands_current (hI.workbook ht)).mpr ?_)
      refine commands_bind.mpr ((commands_liftM _).mpr ?_)
      cases hwrite : b.writeAll id (rect.entries values) with
      | error e => trivial
      | ok b' =>
        rw [hrange, hshape] at hreceive
        have hreceive : b.receive (.range id rect values) = .ok b' := hreceive.trans hwrite
        refine (commands_modify _).mpr ⟨Workbook.fits_of_receive hreceive, ?_⟩
        rw [Workbook.after_of_receive hreceive]
        exact hI.book b' ht

theorem writeChunks {id : String} (cells : ByPosition CellState) (chunks : List Rect)
    (hs : I b s g) :
    Commands rely (Store.writeChunks id cells chunks) s g fun
      | .ok _, t, h => (∀ w ∈ chunks.map (Store.chunkWrite id cells), w.Fits rangeLimit) ∧
          I ((chunks.map (Store.chunkWrite id cells)).foldl Workbook.after b) t h
      | .error _, _, _ => True := by
  induction chunks generalizing b s g with
  | nil =>
    refine (commands_pure _).mpr ⟨?_, hs⟩
    intro w hw
    cases hw
  | cons c chunks ih =>
    refine commands_bind.mpr ((hI.setRange hs).imp ?_)
    rintro (e | _) t h ht
    · trivial
    refine commands_bind.mpr ((ih ht.2).imp ?_)
    rintro (e | n) u i hu
    · trivial
    refine (commands_pure _).mpr ⟨?_, hu.2⟩
    intro w hw
    rcases List.mem_cons.mp hw with rfl | hw
    · exact ht.1
    · exact hu.1 w hw

/-- A sheet is written over the workbook's sheet of the id, if there is one. -/
theorem replaySheet {id : String} (sheet : Sheet) (rows cols : Nat) (hs : I b s g) :
    Commands rely (Store.replaySheet b.descriptor rows cols (sheet.snapshot id)) s g fun
      | .ok _, t, h => (b.sheets.get? id = none ∧ I b t h) ∨
          ∃ there, b.sheets.get? id = some there ∧
            (∀ w ∈ Store.replayWrites rows cols id sheet there, w.Fits rangeLimit) ∧
            I ((Store.replayWrites rows cols id sheet there).foldl Workbook.after b) t h
      | .error _, _, _ => True := by
  unfold Store.replaySheet
  show Commands rely (if (b.descriptor.sheet? id).isNone then _ else _) s g _
  rw [← Option.not_isSome, b.isSome_sheet?_descriptor]
  cases hthere : b.sheets.get? id with
  | none => exact (commands_pure _).mpr (.inl ⟨rfl, hs⟩)
  | some there =>
    refine commands_bind.mpr ((hI.usedRange? hs).imp ?_)
    rintro (e | used) t h ht
    · trivial
    obtain ⟨ht, there', hthere', rfl⟩ := ht
    obtain rfl := Option.some.inj (hthere'.symm.trans hthere)
    dsimp only
    have hwrites : Store.replayWrites rows cols id sheet there' = (Store.replayChunks rows cols
      (Store.lastStates (sheet.snapshot id).cells) there').map
        (Store.chunkWrite id (Store.lastStates (sheet.snapshot id).cells)) := rfl
    -- nothing to write and nothing there: then there is no area to go through
    unfold Store.replayChunks at hwrites
    cases harea : Store.replayArea? (Store.lastStates (sheet.snapshot id).cells)
        there'.usedRange? with
    | none =>
      rw [harea] at hwrites
      refine (commands_pure _).mpr (.inr ⟨there', rfl, ?_, ?_⟩)
      · intro w hw
        rw [hwrites] at hw
        cases hw
      · rw [hwrites]
        exact ht
    | some area =>
      rw [harea] at hwrites
      refine (hI.writeChunks _ _ ht).imp ?_
      rintro (e | n) u i hu
      · trivial
      · refine .inr ⟨there', rfl, ?_⟩
        rw [hwrites]
        exact hu

/-- The sheets of a document that the workbook has are written over it, one after the other. -/
theorem replaySheets {rows cols : Nat} {sheets : Keyed Sheet}
    (hnodup : (Keyed.keys sheets).Nodup) (hs : I b s g) :
    Commands rely (Store.replaySheets b.descriptor rows cols
        (sheets.map fun e => e.2.snapshot e.1)) s g fun
      | .ok _, t, h => ∃ b', Workbook.Restored b sheets b' ∧ I b' t h
      | .error _, _, _ => True := by
  induction sheets generalizing b s g with
  | nil => exact (commands_pure _).mpr ⟨b, .nil b, hs⟩
  | cons e sheets ih =>
    obtain ⟨id, sheet⟩ := e
    obtain ⟨hnot, hnodup⟩ := List.nodup_cons.mp hnodup
    refine commands_bind.mpr ((hI.replaySheet sheet rows cols hs).imp ?_)
    rintro (e | n) t h ht
    · trivial
    rcases ht with ⟨hnone, ht⟩ | ⟨there, hthere, hfits, ht⟩
    · refine commands_bind.mpr ((ih hnodup ht).imp ?_)
      rintro (e | n) u i hu
      · trivial
      · obtain ⟨b', hb', hu⟩ := hu
        exact (commands_pure _).mpr ⟨b', hb'.skip hnone, hu⟩
    · have hrest := ih hnodup ht
      -- the descriptor is that of before, and the writes leave it as it is
      rw [(b.sameFrame_foldl_after _).descriptor] at hrest
      refine commands_bind.mpr (hrest.imp ?_)
      rintro (e | n) u i hu
      · trivial
      · obtain ⟨b', hb', hu⟩ := hu
        exact (commands_pure _).mpr ⟨b', .cons hthere hnot hfits hb', hu⟩

/-- A copy of a document that is written over a workbook without a fault makes it show what the
document does, on all sheets that both have. -/
theorem replaySnapshot {rows cols : Nat} {d : Document} (hd : d.WellFormed) (hs : I b s g) :
    Commands rely (Store.replaySnapshot b.descriptor d.snapshot rows cols) s g fun
      | .ok _, t, h => ∃ b', Workbook.Restored b d.sheets b' ∧ I b' t h
      | .error _, _, _ => True :=
  hI.replaySheets hd.sheets hs

end Overwriting

end SheetSync.Session
