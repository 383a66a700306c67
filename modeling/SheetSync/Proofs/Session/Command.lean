import SheetSync.Proofs.Session.Run
/-!
Commands to a store that a session gives. While a command waits for a file or the clock, others go
on with the session, so a command is judged step by step on the whole session: `commands_bind`. Main
statements: `Readable.loadSnapshot` and the lemmas before it, by which reading commands keep
whatever a call in the log cannot break, and `Rewritable.replaySnapshot`, for those that write.
-/
namespace SheetSync

/-- Whether a workbook is what the file at a path holds. -/
def Workbook.IsAt (b : Workbook) (path : String) (files : FileTree) : Prop :=
  ∃ content time file, files.read path = .ok (content, time) ∧
    WorkbookFile.ofContent? content = some file ∧ b = file.toWorkbook path

/-- The workbook that a file is of, by what was found at its path. -/
def WorkbookFile.found (path : String) : Except FileFault Content → Except StoreError Workbook
  | .error fault => .error (.file path fault)
  | .ok content =>
    match ofContent? content with
    | none => .error (.malformed path)
    | some file => .ok (file.toWorkbook path)

theorem Workbook.IsAt.found {b : Workbook} {path : String} {files : FileTree}
    (h : b.IsAt path files) :
    WorkbookFile.found path ((files.read path).map Prod.fst) = .ok b := by
  obtain ⟨content, time, file, hread, hfile, rfl⟩ := h
  simp only [hread, Except.map, WorkbookFile.found, hfile]

/-- A file holds one workbook. -/
theorem Workbook.IsAt.unique {b b' : Workbook} {path : String} {files : FileTree}
    (h : b.IsAt path files) (h' : b'.IsAt path files) : b' = b :=
  Except.ok.inj (h'.found.symm.trans h.found)

namespace Session

variable {α β γ : Type} {rely : Pause → Session → γ → Session → γ → Prop} {s : Session} {g : γ}

/-- What happens to the store of a session. -/
def onStore (m : Activity Store α) : Activity Session α :=
  Activity.zoom (fun s => s.store) (fun store s => { s with store }) m

theorem onStore_bind (m : Activity Store α) (f : α → Activity Store β) :
    onStore (m >>= f) = onStore m >>= fun a => onStore (f a) := by
  unfold onStore
  apply Activity.zoom_bind
  · intro s store
    rfl
  · intro s store store'
    rfl

theorem ensures_onStore_bind {m : Activity Store α} {f : α → Activity Store β}
    {post : β → Session → γ → Prop} :
    Activity.Ensures rely (onStore (m >>= f)) s g post ↔
      Activity.Ensures rely (onStore m) s g fun a t h =>
        Activity.Ensures rely (onStore (f a)) t h post := by
  rw [onStore_bind, Activity.ensures_bind]

/-- Wherever a command that a session gives to its store comes to an end, `post` holds. -/
def Commands (rely : Pause → Session → γ → Session → γ → Prop) (m : StoreM α) (s : Session) (g : γ)
    (post : Except StoreError α → Session → γ → Prop) : Prop :=
  Activity.Ensures rely (onStore m.run) s g post

theorem achieves_command {m : StoreM α} {post : Except SyncError α → Session → γ → Prop} :
    Achieves rely (command m) s g post ↔
      Commands rely m s g fun r t h => post (r.mapError .store) t h := by
  refine Activity.ensures_bind.trans ?_
  exact forall_congr' fun r => forall_congr' fun t => forall_congr' fun h => forall_congr' fun _ =>
    Activity.ensures_pure _

/-- A command that runs alone does to the store of a session what it does to the store. -/
theorem commands_alone {m : StoreM α} {post : Except StoreError α → Session → Unit → Prop} :
    Commands (fun _ s (_ : Unit) t _ => t = s) m s () post ↔
      post (m.perform s.store).1 { s with store := (m.perform s.store).2 } () := by
  show (∀ r t h, Progress.Runs _ ((m.run s.store).zoom _ _ s) () r t h → post r t h) ↔
    post ((m.run s.store).finish _).1 { s with store := ((m.run s.store).finish _).2 } ()
  -- at a pause the store stays in the session as it is
  generalize m.run s.store = p
  induction p generalizing s with
  | done r store =>
    constructor
    · intro h
      exact h _ _ _ (.done ..)
    · intro h r' t i hr
      obtain ⟨rfl, rfl, rfl⟩ := Progress.runs_done.mp hr
      exact h
  | paused k store resume ih =>
    refine Iff.trans ?_ (ih store (s := { s with store }))
    constructor
    · intro h r t i hr
      exact h r t i (.paused rfl hr)
    · intro h r t i hr
      obtain ⟨u, j, rfl, hr⟩ := Progress.runs_paused.mp hr
      exact h r t i hr

section Steps

variable {post : Except StoreError α → Session → γ → Prop}

theorem Commands.imp {m : StoreM α} {post' : Except StoreError α → Session → γ → Prop}
    (h : Commands rely m s g post) (himp : ∀ r t i, post r t i → post' r t i) :
    Commands rely m s g post' := Activity.Ensures.imp h himp

@[simp] theorem commands_pure (a : α) :
    Commands rely (pure a : StoreM α) s g post ↔ post (.ok a) s g :=
  Activity.ensures_of_done rfl

@[simp] theorem commands_throw (e : StoreError) :
    Commands rely (throw e : StoreM α) s g post ↔ post (.error e) s g :=
  Activity.ensures_of_done rfl

@[simp] theorem commands_get {post : Except StoreError Store → Session → γ → Prop} :
    Commands rely (get : StoreM Store) s g post ↔ post (.ok s.store) s g :=
  Activity.ensures_of_done rfl

@[simp] theorem commands_set (store : Store) {post : Except StoreError PUnit → Session → γ → Prop} :
    Commands rely (set store : StoreM PUnit) s g post ↔ post (.ok ⟨⟩) { s with store } g :=
  Activity.ensures_of_done rfl

@[simp] theorem commands_modify (f : Store → Store)
    {post : Except StoreError PUnit → Session → γ → Prop} :
    Commands rely (modify f : StoreM PUnit) s g post ↔
      post (.ok ⟨⟩) { s with store := f s.store } g :=
  Activity.ensures_of_done rfl

@[simp] theorem commands_liftM (r : Except StoreError α) :
    Commands rely (liftM r : StoreM α) s g post ↔ post r s g :=
  Activity.ensures_of_done rfl

@[simp] theorem commands_pause (k : Pause) {post : Except StoreError Unit → Session → γ → Prop} :
    Commands rely (Store.pause k) s g post ↔ ∀ t h, rely k s g t h → post (.ok ()) t h := by
  constructor
  · intro h t i hk
    exact h _ _ _ (.paused hk (.done ..))
  · intro h r t i hr
    obtain ⟨u, j, hk, hd⟩ := Progress.runs_paused.mp hr
    obtain ⟨rfl, rfl, rfl⟩ := Progress.runs_done.mp hd
    exact h _ _ hk

theorem commands_bind {m : StoreM α} {f : α → StoreM β}
    {post : Except StoreError β → Session → γ → Prop} :
    Commands rely (m >>= f) s g post ↔
      Commands rely m s g fun
        | .ok a, t, h => Commands rely (f a) t h post
        | .error e, t, h => post (.error e) t h := by
  refine ensures_onStore_bind.trans (forall_congr' fun r => ?_)
  cases r with
  | ok a => exact Iff.rfl
  | error e =>
    refine forall_congr' fun t => forall_congr' fun h => forall_congr' fun _ => ?_
    exact Activity.ensures_of_done rfl

theorem commands_tryCatch {m : StoreM α} {f : StoreError → StoreM α} :
    Commands rely (tryCatch m f) s g post ↔
      Commands rely m s g fun
        | .ok a, t, h => post (.ok a) t h
        | .error e, t, h => Commands rely (f e) t h post := by
  refine ensures_onStore_bind.trans (forall_congr' fun r => ?_)
  cases r with
  | error e => exact Iff.rfl
  | ok a =>
    refine forall_congr' fun t => forall_congr' fun h => forall_congr' fun _ => ?_
    exact Activity.ensures_of_done rfl

end Steps

theorem commands_current {b : Workbook} (hbook : s.store.workbook = some b)
    {post : Except StoreError Workbook → Session → γ → Prop} :
    Commands rely Store.current s g post ↔ post (.ok b) s g := by
  refine commands_bind.trans (commands_get.trans ?_)
  simp only [hbook]
  exact commands_pure b

/-! ## What commands keep -/

/-- Whatever a command comes to, `I` holds after it if it held before. -/
def CommandKeeps (rely : Pause → Session → γ → Session → γ → Prop) (I : Session → γ → Prop)
    (m : StoreM α) : Prop := ∀ s g, I s g → Commands rely m s g fun _ t h => I t h

variable {I : Session → γ → Prop}

namespace CommandKeeps

theorem keeps {m : StoreM α} (h : CommandKeeps rely I m) : Keeps rely I (command m) :=
  fun s g hI => achieves_command.mpr ((h s g hI).imp fun _ _ _ ht => ht)

/-- A command fails with an error of the store. -/
theorem achieves {m : StoreM α} (h : CommandKeeps rely I m) (hs : I s g) :
    Achieves rely (command m) s g fun r t h =>
      I t h ∧ ∀ e, r = .error e → ∃ fault, e = .store fault := by
  refine achieves_command.mpr ((h s g hs).imp fun r t h ht => ⟨ht, ?_⟩)
  rintro e he
  cases r with
  | ok a => cases he
  | error fault => exact ⟨fault, (Except.error.inj he).symm⟩

theorem pure (a : α) : CommandKeeps rely I (pure a : StoreM α) :=
  fun _ _ hI => (commands_pure a).mpr hI

/-- What comes after an error is not done. -/
theorem throw_bind (e : StoreError) (f : α → StoreM β) :
    CommandKeeps rely I ((throw e : StoreM α) >>= f) :=
  fun _ _ hI => commands_bind.mpr ((commands_throw e).mpr hI)

theorem throw (e : StoreError) : CommandKeeps rely I (throw e : StoreM α) :=
  fun _ _ hI => (commands_throw e).mpr hI

theorem get : CommandKeeps rely I (get : StoreM Store) := fun _ _ hI => commands_get.mpr hI

theorem liftM (r : Except StoreError α) : CommandKeeps rely I (liftM r : StoreM α) :=
  fun _ _ hI => (commands_liftM r).mpr hI

theorem bind {m : StoreM α} {f : α → StoreM β} (hm : CommandKeeps rely I m)
    (hf : ∀ a, CommandKeeps rely I (f a)) : CommandKeeps rely I (m >>= f) := by
  intro s g hI
  refine commands_bind.mpr ((hm s g hI).imp fun r t h ht => ?_)
  cases r with
  | ok a => exact hf a t h ht
  | error e => exact ht

theorem ite {c : Prop} [Decidable c] {m n : StoreM α} (hm : CommandKeeps rely I m)
    (hn : CommandKeeps rely I n) : CommandKeeps rely I (if c then m else n) := by
  split
  · exact hm
  · exact hn

theorem current : CommandKeeps rely I Store.current := by
  refine bind get fun s => ?_
  cases s.workbook with
  | none => exact throw _
  | some b => exact pure b

theorem switches : CommandKeeps rely I Store.switches := bind get fun _ => pure _

end CommandKeeps

/-- What survives a read that fails, and every call of some kinds in the log. -/
structure Readable (loggable : Call → Prop) (I : Session → γ → Prop) : Prop where
  log : ∀ {s g call}, loggable call → I s g → I { s with store := s.store.logged call } g
  spend : ∀ {s g}, I s g → I { s with store := s.store.spent } g

namespace Readable

variable {loggable : Call → Prop} (hI : Readable loggable I)
include hI

theorem logged {call : Call} (hcall : loggable call) : CommandKeeps rely I (Store.log call) :=
  fun _ _ hs => (commands_modify _).mpr (hI.log hcall hs)

theorem passRead : CommandKeeps rely I Store.passRead := by
  have hspend : CommandKeeps rely I (modify Store.spent : StoreM PUnit) :=
    fun _ _ hs => (commands_modify _).mpr (hI.spend hs)
  refine .bind .switches fun w => ?_
  exact .ite (.bind hspend fun _ => .throw_bind _ _) (.ite (.throw _) (.pure _))

theorem getRange {sheet : String} {rect : Rect} (hcall : loggable (.getRange sheet rect)) :
    CommandKeeps rely I (Store.getRange sheet rect) := by
  refine .bind (hI.logged hcall) fun _ => .bind hI.passRead fun _ => .bind .get fun s => ?_
  split
  · split
    · exact .pure _
    · exact .throw _
  · exact .bind (.liftM _) fun _ => .bind .current fun _ => .liftM _

theorem usedRange? {sheet : String} (hcall : loggable (.usedRange sheet)) :
    CommandKeeps rely I (Store.usedRange? sheet) := by
  refine .bind (hI.logged hcall) fun _ => .bind hI.passRead fun _ => .bind .get fun s => ?_
  split
  · exact .pure _
  · exact .bind .current fun _ => .bind (.liftM _) fun _ => .pure _

theorem readChunks {sheet : String} (hread : ∀ rect, loggable (.getRange sheet rect))
    (chunks : List Rect) : CommandKeeps rely I (Store.readChunks sheet chunks) := by
  induction chunks with
  | nil => exact .pure _
  | cons chunk chunks ih =>
    exact .bind (hI.getRange (hread chunk)) fun _ => .bind ih fun _ => .pure _

theorem loadSheet (hread : ∀ call : Call, call.isRead → loggable call) (rows cols : Nat)
    (info : SheetInfo) : CommandKeeps rely I (Store.loadSheet rows cols info) := by
  refine .bind (hI.usedRange? (hread _ rfl)) fun used => ?_
  cases used with
  | none => exact .bind (.pure _) fun _ => .pure _
  | some used =>
    exact .bind (hI.readChunks (fun _ => hread _ rfl) _) fun _ => .pure _

theorem loadSheets (hread : ∀ call : Call, call.isRead → loggable call) (rows cols : Nat)
    (infos : List SheetInfo) : CommandKeeps rely I (Store.loadSheets rows cols infos) := by
  induction infos with
  | nil => exact .pure _
  | cons info infos ih =>
    exact .bind (hI.loadSheet hread rows cols info) fun _ => .bind ih fun _ => .pure _

theorem loadSnapshot (hread : ∀ call : Call, call.isRead → loggable call) (d : Descriptor)
    (rows cols : Nat) : CommandKeeps rely I (Store.loadSnapshot d rows cols) :=
  .bind (hI.loadSheets hread rows cols d.sheets) fun _ => .pure _

end Readable

/-- What survives all that others do while a command waits, a read that fails, and every call of
some kinds in the log. -/
structure Lasting (rely : Pause → Session → γ → Session → γ → Prop) (loggable : Call → Prop)
    (I : Session → γ → Prop) : Prop where
  rely : ∀ {k s g t h}, rely k s g t h → I s g → I t h
  log : ∀ {s g call}, loggable call → I s g → I { s with store := s.store.logged call } g
  spend : ∀ {s g}, I s g → I { s with store := s.store.spent } g

namespace Lasting

variable {loggable : Call → Prop} (hI : Lasting rely loggable I)
include hI

theorem readable : Readable loggable I := ⟨hI.log, hI.spend⟩

theorem pause (k : Pause) : CommandKeeps rely I (Store.pause k) :=
  fun _ _ hs => (commands_pause k).mpr fun _ _ hk => hI.rely hk hs

theorem passWrite (sheet : String) : CommandKeeps rely I (Store.passWrite sheet) := by
  refine .bind .switches fun w => ?_
  have hlast : CommandKeeps rely I (Store.switches >>= fun w =>
      if sheet ∈ w.closedSheets then throw (.rejected s!"writes to {sheet} rejected")
      else pure () : StoreM Unit) :=
    .bind .switches fun w => .ite (.throw _) (.pure _)
  exact .ite (.bind (hI.pause _) fun _ => hlast) hlast

theorem statFile {path : String} (hcall : loggable (.statFile path)) :
    CommandKeeps rely I (Store.statFile path) := by
  refine .bind (hI.readable.logged hcall) fun _ => .bind .switches fun w => ?_
  split
  · exact .pure _
  · refine .bind .get fun s => ?_
    split
    · exact .throw _
    · refine .bind (hI.pause _) fun _ => .bind .get fun s => ?_
      split
      · exact .throw _
      · exact .pure _

/-- A signature can be had of every workbook. -/
theorem signature (hcall : ∀ path, loggable (.statFile path)) (d : Descriptor) (token : String)
    (hs : I s g) :
    Commands rely (Store.signature d token) s g fun r t h =>
      I t h ∧ ∃ signature, r = .ok signature := by
  unfold Store.signature
  split
  · exact (commands_pure _).mpr ⟨hs, _, rfl⟩
  · next path _ =>
    refine commands_tryCatch.mpr (commands_bind.mpr ((hI.statFile (hcall path) s g hs).imp ?_))
    -- a file that cannot be looked at gives a signature too
    rintro (e | stat) t h ht
    · exact (commands_pure _).mpr ⟨ht, _, rfl⟩
    · exact (commands_pure _).mpr ⟨ht, _, rfl⟩

end Lasting

/-- What moreover survives other cells in the store's workbook. -/
structure Rewritable (rely : Pause → Session → γ → Session → γ → Prop) (loggable : Call → Prop)
    (I : Session → γ → Prop) : Prop extends Lasting rely loggable I where
  book : ∀ {s g b b'}, s.store.workbook = some b → Workbook.SameFrame b b' → I s g →
    I { s with store := { s.store with workbook := some b' } } g

namespace Rewritable

variable {loggable : Call → Prop} (hI : Rewritable rely loggable I)
include hI

/-- Values that are written over cells of the workbook. -/
theorem writeAll (sheet : String) (edits : List (Position × CellEdit)) :
    CommandKeeps rely I (do Store.setCurrent (← (← Store.current).writeAll sheet edits)) := by
  intro s g hs
  refine commands_bind.mpr ?_
  cases hbook : s.store.workbook with
  | none =>
    refine commands_bind.mpr (commands_get.mpr ?_)
    simp only [hbook]
    exact (commands_throw _).mpr hs
  | some b =>
    refine (commands_current hbook).mpr (commands_bind.mpr ((commands_liftM _).mpr ?_))
    cases hwrite : b.writeAll sheet edits with
    | error e => exact hs
    | ok b' => exact (commands_modify _).mpr (hI.book hbook (Workbook.sameFrame_of_writeAll hwrite) hs)

theorem setRange {sheet : String} {rect : Rect} (hcall : loggable (.setRange sheet rect))
    (values : List (List CellEdit)) : CommandKeeps rely I (Store.setRange sheet rect values) := by
  refine .bind (hI.readable.logged hcall) fun _ => .bind (hI.passWrite sheet) fun _ =>
    .bind .get fun s => ?_
  split
  · exact .pure _
  · exact .bind (.liftM _) fun _ => .bind (.liftM _) fun _ => hI.writeAll sheet _

theorem writeChunks {sheet : String} (hwrite : ∀ rect, loggable (.setRange sheet rect))
    (cells : ByPosition CellState) (chunks : List Rect) :
    CommandKeeps rely I (Store.writeChunks sheet cells chunks) := by
  induction chunks with
  | nil => exact .pure _
  | cons chunk chunks ih =>
    exact .bind (hI.setRange (hwrite chunk) _) fun _ => .bind ih fun _ => .pure _

theorem replaySheet (hused : ∀ sheet, loggable (.usedRange sheet))
    (hwrite : ∀ sheet rect, loggable (.setRange sheet rect)) (d : Descriptor) (rows cols : Nat)
    (s : SheetSnapshot) : CommandKeeps rely I (Store.replaySheet d rows cols s) := by
  refine .ite (.pure _) (.bind (hI.readable.usedRange? (hused s.id)) fun used => ?_)
  split
  · exact .pure _
  · exact hI.writeChunks (hwrite s.id) _ _

theorem replaySnapshot (hused : ∀ sheet, loggable (.usedRange sheet))
    (hwrite : ∀ sheet rect, loggable (.setRange sheet rect)) (d : Descriptor) (s : Snapshot)
    (rows cols : Nat) : CommandKeeps rely I (Store.replaySnapshot d s rows cols) := by
  unfold Store.replaySnapshot
  induction s.sheets with
  | nil => exact .pure _
  | cons sheet sheets ih =>
    exact .bind (hI.replaySheet hused hwrite d rows cols sheet) fun _ => .bind ih fun _ => .pure _

end Rewritable

/-! ## Lists of names and tables -/

theorem commands_listNames {post : Except StoreError (List DefinedName) → Session → γ → Prop} :
    Commands rely Store.listNames s g post ↔
      post (Store.listNames.perform s.store).1 { s with store := s.store.logged .listNames } g := by
  have hdone : onStore Store.listNames.run s =
      .done (Store.listNames.perform s.store).1 { s with store := s.store.logged .listNames } := by
    rcases s with ⟨⟨⟨kind, workbook, watch, files⟩, queue, document, area⟩, config⟩
    cases kind <;> cases workbook <;> rfl
  exact Activity.ensures_of_done hdone

theorem commands_listTables {post : Except StoreError (List Table) → Session → γ → Prop} :
    Commands rely Store.listTables s g post ↔
      post (Store.listTables.perform s.store).1 { s with store := s.store.logged .listTables } g := by
  have hdone : onStore Store.listTables.run s =
      .done (Store.listTables.perform s.store).1 { s with store := s.store.logged .listTables } := by
    rcases s with ⟨⟨⟨kind, workbook, watch, files⟩, queue, document, area⟩, config⟩
    cases kind <;> cases workbook <;> rfl
  exact Activity.ensures_of_done hdone

/-! ## Turning to another workbook, and saving -/

/-- The session with a workbook put into its store. -/
def withBook (s : Session) (b : Workbook) : Session :=
  { s with store := { s.store with workbook := some b } }

/-- A store that opens a file holds the workbook of the file, and one that does not open it holds
what it held. -/
theorem Lasting.openWorkbook {loggable : Call → Prop} (hI : Lasting rely loggable I) {path : String}
    (hs : I { s with store := s.store.logged (.openWorkbook path) } g) :
    Commands rely (Store.openWorkbook path) s g fun
      | .ok d, t, h => ∃ u b, I u h ∧ t = u.withBook b ∧ b.IsAt path u.store.files ∧
          d = b.descriptor
      | .error _, t, h => I t h := by
  unfold Store.openWorkbook
  refine commands_bind.mpr ((commands_modify _).mpr ?_)
  refine commands_bind.mpr ((CommandKeeps.switches _ _ hs).imp fun r t h ht => ?_)
  cases r with
  | error e => exact ht
  | ok w =>
    dsimp only
    split
    · exact commands_bind.mpr ((commands_throw _).mpr ht)
    · refine commands_bind.mpr (commands_get.mpr ?_)
      dsimp only
      split
      · exact (commands_throw _).mpr ht
      · refine commands_bind.mpr ((commands_pause _).mpr fun u i hk => ?_)
        -- while the file is read, others go on
        have hu := hI.rely hk ht
        refine commands_bind.mpr (commands_get.mpr ?_)
        dsimp only
        split
        · exact (commands_throw _).mpr hu
        · next content time hread =>
          split
          · exact (commands_throw _).mpr hu
          · next file hfile =>
            refine commands_bind.mpr ((commands_modify _).mpr ?_)
            exact (commands_pure _).mpr
              ⟨u, file.toWorkbook path, hu, rfl, ⟨content, time, file, hread, hfile, rfl⟩, rfl⟩

/-- A local store turns to the blank workbook at once. -/
theorem commands_newWorkbook {post : Except StoreError Descriptor → Session → γ → Prop} :
    Commands rely Store.newWorkbook s g post ↔
      post (.ok Workbook.blank.descriptor)
        (if s.store.kind = .local then
          Session.withBook { s with store := s.store.logged .newWorkbook } .blank
        else { s with store := s.store.logged .newWorkbook }) g := by
  refine commands_bind.trans ((commands_modify _).trans ?_)
  refine commands_bind.trans (commands_get.trans ?_)
  dsimp only
  by_cases hkind : s.store.kind = .local
  · rw [if_pos hkind, if_pos hkind]
    exact commands_bind.trans ((commands_modify _).trans (commands_pure _))
  · rw [if_neg hkind, if_neg hkind]
    exact commands_pure _

/-- A workbook that is saved has the path from then on, and one that is not saved has the path that
it had. -/
theorem Lasting.saveWorkbook {loggable : Call → Prop} (hI : Lasting rely loggable I)
    (hfiles : ∀ {s g} (files : FileTree), I s g → I { s with store := { s.store with files } } g)
    {path : Option String} (hcall : loggable (.saveWorkbook path)) (hs : I s g) :
    Commands rely (Store.saveWorkbook path) s g fun
      | .ok _, t, h => ∃ u target, I u h ∧ t = { u with store := { u.store with
          workbook := u.store.workbook.map ({ · with path := some target }) } }
      | .error _, t, h => I t h := by
  have hwrite : ∀ target b, CommandKeeps rely I (Store.writeFile target b) := by
    intro target b
    refine .bind (hI.pause _) fun _ => fun t h ht => ?_
    refine commands_bind.mpr (commands_get.mpr ?_)
    refine commands_bind.mpr ((commands_set _).mpr ?_)
    -- directories made for the file stay, also when it cannot be put in place
    have ht := hfiles (FileTree.replace target (.text (WorkbookFile.ofWorkbook b).text)
      |>.run t.store.files).2 ht
    dsimp only
    split
    · exact (commands_throw _).mpr ht
    · exact (commands_pure _).mpr ht
  unfold Store.saveWorkbook
  refine commands_bind.mpr ((hI.readable.logged hcall s g hs).imp ?_)
  rintro (e | _) t h ht
  · exact ht
  refine commands_bind.mpr ((CommandKeeps.switches t h ht).imp ?_)
  rintro (e | w) t h ht
  · exact ht
  dsimp only
  split
  · exact commands_bind.mpr ((commands_throw _).mpr ht)
  refine commands_bind.mpr (commands_get.mpr ?_)
  dsimp only
  split
  · exact (commands_throw _).mpr ht
  refine commands_bind.mpr ((CommandKeeps.current t h ht).imp ?_)
  rintro (e | b) t h ht
  · exact ht
  dsimp only
  split
  · exact (commands_throw _).mpr ht
  · next target _ =>
    refine commands_bind.mpr ((hwrite target b t h ht).imp ?_)
    rintro (e | _) u i hu
    · exact hu
    · exact (commands_modify _).mpr ⟨u, target, hu, rfl⟩

/-- What survives what is saved and where. -/
structure Savable (rely : Pause → Session → γ → Session → γ → Prop) (loggable : Call → Prop)
    (I : Session → γ → Prop) : Prop extends Lasting rely loggable I where
  files : ∀ {s g} (files : FileTree), I s g → I { s with store := { s.store with files } } g
  path : ∀ {s g} (path : String), I s g →
    I { s with store := { s.store with
      workbook := s.store.workbook.map ({ · with path := some path }) } } g

theorem Savable.saveWorkbook {loggable : Call → Prop} (hI : Savable rely loggable I)
    {path : Option String} (hcall : loggable (.saveWorkbook path)) :
    CommandKeeps rely I (Store.saveWorkbook path) := by
  intro s g hs
  refine (hI.toLasting.saveWorkbook hI.files hcall hs).imp ?_
  rintro (e | _) t h ht
  · exact ht
  · obtain ⟨u, target, hu, rfl⟩ := ht
    exact hI.path target hu

end Session

end SheetSync
