import SheetSync.Proofs.Files
import SheetSync.Proofs.Session.Phases
/-!
What is bound to the active workbook. Between requests a session is idle with nothing bound, or it
is active, and then one listener hands changes on, the hook is installed for the workbook, both
caches are scoped to its signature, its id is that of its path, and a local store has the workbook
at this path. Each stage of a change of workbook and of a save is judged by what it leaves of this,
whatever fails on the way. Main statement: `binding_invariant`.
-/
namespace SheetSync

/-- An active workbook that is named for its place. An empty path is none. -/
structure ActiveWorkbook.IsPlaced (w : ActiveWorkbook) : Prop where
  id : w.descriptor.IsNamed w.id
  originPath : w.descriptor.originPath = none
  path : w.descriptor.path ≠ some ""

namespace Descriptor

theorem durablePath?_of_path {d : Descriptor} {path : String} (hd : d.path = some path)
    (hpath : path ≠ "") : d.durablePath? = some path := by
  have hfilter : d.path.filter (· ≠ "") = some path := by
    rw [hd]
    simp [Option.filter, hpath]
  rw [durablePath?, hfilter]

theorem durablePath?_eq {d : Descriptor} (horigin : d.originPath = none) (hpath : d.path ≠ some "") :
    d.durablePath? = d.path := by
  cases hd : d.path with
  | none => simp [durablePath?, hd, horigin]
  | some path => exact durablePath?_of_path hd fun h => hpath (by rw [hd, h])

theorem isNamed_withPath (d : Descriptor) {path : String} (hpath : path ≠ "") :
    (d.withPath path).IsNamed (.ofPath path) := by
  rw [IsNamed, durablePath?_of_path (d := d.withPath path) rfl hpath]

end Descriptor

/-- The path of the workbook that a target names. -/
def Target.path? : Target → Option String
  | .file path => some path
  | .blank => none

namespace Session

variable {s t m : Session} {L K M : Ledger} {w : ActiveWorkbook}

/-- Others leave the store's workbook at its path and the caches in their scope. -/
def Courteous (s : Session) : Event → Prop
  | .store workbook _ _ => workbook.map (·.path) = s.store.workbook.map (·.path)
  | .caches c => c.names.scope = s.caches.names.scope ∧ c.tables.scope = s.caches.tables.scope
  | _ => True

/-- Whether a local store has its workbook at a path. -/
def HasPath (path : Option String) (s : Session) : Prop :=
  s.store.kind = .local → s.store.workbook.map (·.path) = some path

theorem HasPath.apply {path : Option String} (h : HasPath path s) {e : Event} (he : Courteous s e) :
    HasPath path (e.apply s) := by
  intro hkind
  rw [kind_apply] at hkind
  have hs := h hkind
  cases e with
  | act a =>
    show (s.toLink.perform a).store.workbook.map (·.path) = some path
    rw [Link.store_perform]
    exact hs
  | carry => exact (path_carry s).trans hs
  | store workbook files switches => exact he.trans hs
  | _ => exact hs

theorem keepsScopes_courteous : KeepsScopes Courteous := by
  intro s e signature he hs
  cases e with
  | caches c => exact ⟨he.1.trans hs.names, he.2.trans hs.tables⟩
  | _ => exact hs

/-- What belongs to a workbook of a session: its name, the scope of the caches and the place of the
store's workbook. -/
structure Backs (w : ActiveWorkbook) (s : Session) : Prop where
  placed : w.IsPlaced
  caches : s.caches.IsFor w.signature
  store : HasPath w.descriptor.path s

/-- Whether all this is there for the active workbook. -/
def InPlace (s : Session) : Prop := ∀ w, s.active = some w → Backs w s

theorem InPlace.apply (h : s.InPlace) {e : Event} (he : Courteous s e) : (e.apply s).InPlace := by
  intro w hw
  have hw := h w ((congrArg Course.active (course_apply s e)).symm.trans hw)
  exact ⟨hw.placed, keepsScopes_courteous s e _ he hw.caches, hw.store.apply he⟩

theorem InPlace.congr (h : s.InPlace) (hactive : t.active = s.active) (hcaches : t.caches = s.caches)
    (hstore : t.store = s.store) : t.InPlace := by
  intro w hw
  have hw := h w (hactive.symm.trans hw)
  refine ⟨hw.placed, ?_, ?_⟩
  · rw [hcaches]
    exact hw.caches
  · unfold HasPath
    rw [hstore]
    exact hw.store

theorem survivesClosing_inPlace : SurvivesClosing Courteous fun s _ => s.Wired ∧ s.InPlace where
  event _ _ e he hs := ⟨hs.1.apply e, hs.2.apply he⟩
  phase _ hs := ⟨hs.1.congr rfl rfl rfl, hs.2.congr rfl rfl rfl⟩
  hook _ _ hs := ⟨hs.1.congr rfl rfl rfl, hs.2.congr rfl rfl rfl⟩

/-! ## Changing the workbook -/

/-- A workbook that a store turned to is at the path of its target. -/
theorem path_of_gives {target : Target} {files : FileTree} {b : Workbook}
    (h : target.Gives files b) :
    b.originPath = none ∧ b.path ≠ some "" ∧ b.path = target.path? := by
  cases target with
  | file path =>
    obtain ⟨content, time, file, hread, -, rfl⟩ := h
    refine ⟨rfl, ?_, rfl⟩
    intro hpath
    exact FileTree.ne_empty_of_read hread (Option.some.inj hpath)
  | blank =>
    obtain rfl := h
    exact ⟨rfl, by simp [Workbook.blank], rfl⟩

/-- A workbook that is put back comes to its own path. -/
theorem path_of_gives_source (hw : w.IsPlaced) {files : FileTree} {b : Workbook}
    (h : w.source.Gives files b) : b.path = w.descriptor.path := by
  rw [(path_of_gives h).2.2, ActiveWorkbook.source,
    Descriptor.durablePath?_eq hw.originPath hw.path]
  cases w.descriptor.path <;> rfl

/-- What is known of a session on its way, once its store has turned to a workbook. -/
structure Arrived (d : Descriptor) (s : Session) : Prop where
  store : HasPath d.path s
  originPath : d.originPath = none
  path : d.path ≠ some ""

theorem Turned.arrived {target : Target} {d : Descriptor} (h : Turned target d s t) :
    Arrived d t := by
  rcases h with ⟨b, rfl, rfl, hb⟩ | ⟨rfl, hkind, rfl⟩
  · obtain ⟨horigin, hpath, -⟩ := path_of_gives hb
    exact ⟨fun _ => rfl, horigin, hpath⟩
  · exact ⟨fun h => absurd h hkind, rfl, by simp [Workbook.blank, Workbook.descriptor]⟩

theorem Turned.hasPath (hw : w.IsPlaced) {d : Descriptor} (h : Turned w.source d s t) :
    HasPath w.descriptor.path t := by
  rcases h with ⟨b, rfl, rfl, hb⟩ | ⟨rfl, hkind, -⟩
  · exact fun _ => congrArg some (path_of_gives_source hw hb)
  · exact fun h => absurd h hkind

/-- Until the store has turned, it keeps the place of the workbook before. -/
theorem survivesSwap_hasPath (m : Session) : SurvivesSwap Courteous (fun _ => True) fun s _ =>
    Apart m s ∧ ∀ w, m.active = some w → HasPath w.descriptor.path s :=
  .and_apart m (fun _ _ _ he _ hs w hw => (hs w hw).apply he) (fun _ hs => hs) (fun hs => hs)
    (fun hs => hs) (fun _ hs => hs) (fun hs => hs)

theorem survivesSwap_arrived (m : Session) (d : Descriptor) :
    SurvivesSwap Courteous (fun _ => True) fun s _ => Apart m s ∧ Arrived d s :=
  .and_apart m (fun _ _ _ he _ hs => ⟨hs.store.apply he, hs.originPath, hs.path⟩)
    (fun _ hs => ⟨hs.store, hs.originPath, hs.path⟩) (fun hs => ⟨hs.store, hs.originPath, hs.path⟩)
    (fun hs => ⟨hs.store, hs.originPath, hs.path⟩) (fun _ hs => ⟨hs.store, hs.originPath, hs.path⟩)
    (fun hs => ⟨hs.store, hs.originPath, hs.path⟩)

/-- Where a session comes back to a workbook, its caches are scoped to it. -/
theorem inPlace_rebound (hw : w.IsPlaced) (hs : HasPath w.descriptor.path s) :
    (s.rebound w).InPlace := by
  intro v hv
  obtain rfl := Option.some.inj hv
  exact ⟨hw, s.caches.isFor_reset w.signature, hs⟩

theorem inPlace_released (s : Session) : s.released.InPlace := by
  rintro w ⟨⟩

theorem Installed.inPlace {d : Descriptor} {signature : Signature} {content : Snapshot}
    (h : Installed d signature content s t) (hs : Arrived d s)
    (hcaches : s.caches.IsFor signature) : t.InPlace := by
  obtain ⟨id, _, tokens, hid, rfl, rfl⟩ := h
  intro w hw
  obtain rfl := Option.some.inj hw
  exact ⟨⟨hid, hs.originPath, hs.path⟩, hcaches.populate .., hs.store⟩

/-- A store that is put back has its workbook at the path of the workbook before. -/
theorem achieves_restoreStore_hasPath {d : Descriptor} (hactive : m.active = some w)
    (hw : w.IsPlaced) (hs : Apart m s ∧ Arrived d s) :
    Achieves (Rely Courteous) (restoreStore w) s L fun
      | .ok (), t, _ => HasPath w.descriptor.path t
      | .error _, _, _ => True := by
  have hI := survivesSwap_arrived m d
  have hI' := survivesSwap_hasPath m
  have hwritable : Rewritable (Rely Courteous) (fun _ => True) fun s (_ : Ledger) =>
      Apart m s ∧ ∀ w, m.active = some w → HasPath w.descriptor.path s := by
    refine ⟨hI'.lasting, ?_⟩
    rintro s L b b' hbook hframe ⟨hapart, hpath⟩
    refine ⟨hapart.withStore _, fun w hw hkind => ?_⟩
    have hsame : b'.path = b.path := congrArg Descriptor.path hframe.descriptor
    rw [← hpath w hw hkind, hbook]
    exact congrArg some hsame
  refine (achieves_restoreStore_of hI.lasting hwritable (fun _ => trivial) (fun _ _ => trivial) ?_
    (hI.log (L := L) trivial hs)).imp ?_
  · rintro d' s t K ⟨hapart, -⟩ hturn
    refine ⟨?_, fun v hv => ?_⟩
    · rcases hturn with ⟨b, rfl, -⟩ | ⟨rfl, -⟩
      · exact hapart.withStore _
      · exact hapart
    · obtain rfl := Option.some.inj (hactive.symm.trans hv)
      exact hturn.hasPath hw
  · rintro (e | _) t K (⟨-, ht⟩ | ⟨-, e', he⟩)
    · trivial
    · trivial
    · exact ht w hactive
    · cases he

/-- However a change of workbook ends, what belongs to the active workbook is there. -/
theorem achieves_swap_inPlace {target : Target} (hm : m.Wired) (hidle : m.isIdle)
    (hphase : m.phase = .draining ∨ m.phase = .beforeClose) (h : m.InPlace) :
    Achieves (Rely Courteous) (swap target m.active) m M fun _ t _ => t.InPlace := by
  have hI := survivesSwap_hasPath m
  refine achieves_swap hphase
    (fun s _ => Apart m s ∧ ∀ w, m.active = some w → HasPath w.descriptor.path s)
    (fun d s _ => Apart m s ∧ Arrived d s) (fun _ r _ => AnyContent r) hI
    ⟨.start hm hidle _, fun w hw => (h w hw).store⟩ ?_ ?_ (survivesSwap_arrived m)
    (fun _ => trivial) ?_ ?_ ?_
  · rintro fault s L - ⟨-, hs⟩
    cases hactive : m.active with
    | none => exact achieves_recover_none false ⟨_, rfl, inPlace_released _⟩
    | some w =>
      exact achieves_recover_unturned ⟨_, rfl, inPlace_rebound (h w hactive).placed (hs w hactive)⟩
  · intro d s t L hs hturn
    refine ⟨?_, hturn.arrived⟩
    rcases hturn with ⟨b, rfl, -⟩ | ⟨rfl, -⟩
    · exact hs.1.withStore _
    · exact hs.1
  · intro d s L hs hloading
    exact achieves_loadContent (survivesSwap_arrived m d) (fun _ _ => trivial) hs hloading
  · intro d e s L hs _
    cases hactive : m.active with
    | none => exact achieves_recover_none true ⟨_, rfl, inPlace_released _⟩
    | some w =>
      have hw := (h w hactive).placed
      refine achieves_recover_turned ((achieves_restoreStore_hasPath hactive hw
        ((survivesSwap_arrived m d).phase (L := L) (p := .rollingBack) rfl hs)).imp ?_)
      rintro (e' | _) t K ht
      · exact ⟨_, rfl, inPlace_released t⟩
      · exact ⟨_, rfl, inPlace_rebound hw ht⟩
  · rintro d s L content t hs - ⟨signature, hcaches, ht⟩
    exact ht.inPlace hs.2 (hcaches keepsScopes_courteous)

/-! ## Saving -/

/-- What is known of a session that saves a workbook while the store has it at a path. -/
structure Keeping (w : ActiveWorkbook) (path : Option String) (s : Session) : Prop where
  placed : w.IsPlaced
  active : s.active = some w
  caches : s.caches.IsFor w.signature
  store : HasPath path s

variable {path : Option String}

namespace Keeping

theorem survives (w : ActiveWorkbook) (path : Option String) :
    Survives Courteous fun s _ => Keeping w path s := fun s _ e he hs =>
  ⟨hs.placed, (congrArg Course.active (course_apply s e)).trans hs.active,
    keepsScopes_courteous s e _ he hs.caches, hs.store.apply he⟩

theorem congr (h : Keeping w path s) (hactive : t.active = s.active) (hcaches : t.caches = s.caches)
    (hkind : t.store.kind = s.store.kind) (hbook : t.store.workbook = s.store.workbook) :
    Keeping w path t := by
  refine ⟨h.placed, hactive.trans h.active, ?_, ?_⟩
  · rw [hcaches]
    exact h.caches
  · unfold HasPath
    rw [hkind, hbook]
    exact h.store

/-- A workbook that is at its own path is in place. -/
theorem inPlace (h : Keeping w w.descriptor.path s) : s.InPlace := by
  intro v hv
  obtain rfl := Option.some.inj (h.active.symm.trans hv)
  exact ⟨h.placed, h.caches, h.store⟩

/-- A file that is written has a name, and writing it does not move the workbook. -/
theorem writeFile (h : Keeping w path s) (p : String) (b : Workbook) :
    Commands (Rely Courteous) (Store.writeFile p b) s L fun r t _ =>
      Keeping w path t ∧ (r = .ok () → p ≠ "") := by
  refine commands_bind.mpr ((commands_pause _).mpr fun t K hk => ?_)
  have ht := (survives w path).rely hk h
  refine commands_bind.mpr (commands_get.mpr ?_)
  refine commands_bind.mpr ((commands_set _).mpr ?_)
  dsimp only
  split
  · exact (commands_throw _).mpr ⟨ht.congr rfl rfl rfl rfl, by rintro ⟨⟩⟩
  · next hreplace =>
    refine (commands_pure _).mpr ⟨ht.congr rfl rfl rfl rfl, fun _ => ?_⟩
    obtain ⟨time, hread⟩ := FileTree.read_of_replace (Prod.ext hreplace rfl)
    exact FileTree.ne_empty_of_read hread

/-- A save that succeeds leaves the store's workbook at the new path, and one that fails where it
was. -/
theorem saveWorkbook (h : Keeping w path s) (p : String) :
    Commands (Rely Courteous) (Store.saveWorkbook (some p)) s L fun r t _ =>
      match r with
      | .ok () => p ≠ "" ∧ Keeping w (some p) t
      | .error _ => Keeping w path t := by
  refine commands_bind.mpr ((commands_modify _).mpr ?_)
  have hlogged : Keeping w path { s with store := s.store.logged (.saveWorkbook (some p)) } :=
    h.congr rfl rfl rfl rfl
  refine commands_bind.mpr
    ((CommandKeeps.switches (I := fun s (_ : Ledger) => Keeping w path s) _ L hlogged).imp ?_)
  rintro (e | switches) t K ht
  · exact ht
  dsimp only
  split
  · exact commands_bind.mpr ((commands_throw _).mpr ht)
  refine commands_bind.mpr (commands_get.mpr ?_)
  dsimp only
  split
  · exact (commands_throw _).mpr ht
  next hkind =>
    obtain ⟨b, hbook, -⟩ := Option.map_eq_some_iff.mp (ht.store hkind)
    refine commands_bind.mpr ((commands_current hbook).mpr ?_)
    refine commands_bind.mpr ((ht.writeFile p b).imp ?_)
    rintro (e | _) u M ⟨hu, hp⟩
    · exact hu
    · refine (commands_modify _).mpr ⟨hp rfl, hu.placed, hu.active, hu.caches, fun hkind => ?_⟩
      obtain ⟨c, hbook, -⟩ := Option.map_eq_some_iff.mp (hu.store hkind)
      show (u.store.workbook.map fun b => { b with path := some p }).map Workbook.path = _
      rw [hbook]
      rfl

/-- What `writeOut` comes to. -/
theorem writeOut (h : Keeping w path s) (p : String) :
    Achieves (Rely Courteous) (writeOut p) s L fun r t _ =>
      match r with
      | .ok () => p ≠ "" ∧ Keeping w (some p) t
      | .error _ => Keeping w path t := by
  have hsurvives := survives w path
  refine achieves_bind.mpr ((achieves_settle hsurvives.rely hsurvives.queue h).imp ?_)
  rintro _ t K ⟨rfl, -, ht⟩
  refine achieves_bind.mpr (achieves_command.mpr ((ht.saveWorkbook p).imp ?_))
  rintro (e | _) u M hu
  · exact hu
  · exact (achieves_modify _).mpr ⟨hu.1, (survives w (some p)) u M (.act .markSaved) trivial hu.2⟩

end Keeping

/-- A workbook that was written out under a path is in place once it has the path's identity. -/
theorem achieves_rename_inPlace {p : String} (hs : Keeping w (some p) s) (hp : p ≠ "") :
    Achieves (Rely Courteous) (rename w p) s L fun _ t _ => t.InPlace := by
  refine achieves_bind.mpr ((achieves_modify _).mpr ((achieves_modify _).mpr ?_))
  intro v hv
  obtain rfl := Option.some.inj hv
  refine ⟨⟨w.descriptor.isNamed_withPath hp, hs.placed.originPath, ?_⟩, hs.caches, hs.store⟩
  exact fun h => hp (Option.some.inj h)

theorem attempts_inPlace (w : ActiveWorkbook) : Attempts (Rely Courteous) w
    (fun s (_ : Ledger) => Keeping w w.descriptor.path s) fun _ _ s _ => s.InPlace where
  phase _ hs := hs.congr rfl rfl rfl rfl
  prompts _ hs := hs.congr rfl rfl rfl rfl
  attempted _ hs := hs.congr rfl rfl rfl
  refused _ hs := hs.inPlace
  stuck _ hs := hs
  under p s L hs := by
    refine achieves_bind.mpr ((hs.writeOut p).imp ?_)
    rintro (e | _) u M hu
    · exact Keeping.inPlace hu
    · exact achieves_rename_inPlace hu.2 hu.1
  inPlace {p s L} hp hs := by
    -- a save in place is one under the path that the workbook has
    have hpath : w.descriptor.path = some p := (Option.filter_eq_some_iff.mp hp).1
    refine (hs.writeOut p).imp ?_
    rintro (e | _) u M hu
    · exact Keeping.inPlace hu
    · exact Keeping.inPlace (hpath ▸ hu.2)

/-- However a request to save ends, what belongs to the active workbook is there. -/
theorem achieves_saveRequest_inPlace {r : Request} (hr : ∀ target, r ≠ .switch target)
    (hbusy : s.isBusy = false) (hs : s.InPlace) :
    Achieves (Rely Courteous) (request r) s L fun _ t _ => t.InPlace := by
  cases hactive : s.active with
  | none => exact (atOnce_noActiveWorkbook hbusy hactive hr).achieves.mpr hs
  | some w =>
    have hback := hs w hactive
    have hkeeping : Keeping w w.descriptor.path { s with isBusy := true } :=
      ⟨hback.placed, hactive, hback.caches, hback.store⟩
    refine ((attempts_inPlace w).request hr hbusy hactive hkeeping).imp ?_
    rintro reply _ K ⟨u, ⟨-, hu⟩ | ⟨-, -, -, hu⟩, rfl⟩
    · exact (Keeping.inPlace hu).congr rfl rfl rfl
    · exact InPlace.congr hu rfl rfl rfl

/-! ## Runs -/

/-- However a request ends, what belongs to the active workbook is there. -/
theorem achieves_request_inPlace (hrest : s.AtRest) (hs : s.InPlace) (r : Request) :
    Achieves (Rely Courteous) (request r) s L fun _ t _ => t.InPlace := by
  cases r with
  | switch target =>
    intro reply t K hreq
    rcases exists_turnsAt hrest.isBusy hrest.stable.phase_eq hreq with
      ⟨-, -, prompts, rfl⟩ | ⟨m, M, hturn⟩
    · exact hs.congr rfl rfl rfl
    · obtain ⟨hidle, hphase, hcourse, hwired, hm⟩ := hturn.closing survivesClosing_inPlace
        fun prompts => ⟨hrest.wired.congr rfl rfl rfl, hs.congr rfl rfl rfl⟩
      have hswap : Achieves (Rely Courteous) (swap target m.active) m M _ :=
        achieves_swap_inPlace hwired hidle hphase hm
      rw [show m.active = s.active from congrArg Course.active hcourse] at hswap
      obtain ⟨u, hu, rfl⟩ := hturn.ends hswap
      exact hu.congr rfl rfl rfl
  | save => exact achieves_saveRequest_inPlace (by simp) hrest.isBusy hs
  | saveAs path => exact achieves_saveRequest_inPlace (by simp) hrest.isBusy hs

theorem IsNew.inPlace (h : s.IsNew) : s.InPlace := by
  rw [h.eq]
  rintro w ⟨⟩

/-- Along a run, what belongs to the active workbook is there. -/
theorem InPlace.run {s₀ : Session} (hnew : s₀.AtRest) (h : s₀.InPlace)
    (hrun : Run Courteous s₀ s L) : s.InPlace := by
  induction hrun with
  | start => exact h
  | event e _ he ih => exact ih.apply he
  | request r hrun hreq ih => exact achieves_request_inPlace (hrun.atRest hnew) ih r _ _ _ hreq

/-- A session without a workbook. -/
structure IsUnbound (s : Session) : Prop where
  phase : s.phase = .idle
  active : s.active = none
  sync : s.sync = none
  forwards : s.document.forwards = []
  hookFor : s.hookFor = none

/-- A session that a workbook is bound to: exactly one listener hands changes on, and it is the
session's own; the hook, if there is one, is installed for the workbook. -/
structure IsBoundTo (w : ActiveWorkbook) (s : Session) : Prop where
  phase : s.phase = .active
  active : s.active = some w
  sync : ∃ id, s.sync = some id ∧ s.document.forwards = [id]
  hookFor : s.hookFor = if s.hook.isSome then some w.id else none
  caches : s.caches.IsFor w.signature
  id : w.descriptor.IsNamed w.id
  store : s.store.kind = .local → s.store.workbook.map (·.path) = some w.descriptor.path

/-- A session with a workbook and all that belongs to it, or with nothing. -/
def IsSettled (s : Session) : Prop := s.IsUnbound ∨ ∃ w, s.IsBoundTo w

theorem AtRest.isSettled (h : s.AtRest) (hs : s.InPlace) : s.IsSettled := by
  have hphase : s.phase = if s.active.isSome then .active else .idle := h.stable.phase
  have hsync : s.sync.isSome = s.active.isSome := h.stable.sync
  have hhook : s.hookFor = s.active.bind fun w => if s.hook.isSome then some w.id else none :=
    h.stable.hookFor
  have hforwards := h.wired.forwards
  cases hactive : s.active with
  | none =>
    have hsync := h.sync_eq_none hactive
    rw [hactive] at hphase hhook
    rw [hsync] at hforwards
    exact .inl ⟨hphase, hactive, hsync, hforwards, hhook⟩
  | some w =>
    have hback := hs w hactive
    rw [hactive] at hphase hhook hsync
    obtain ⟨id, hid⟩ := Option.isSome_iff_exists.mp hsync
    rw [hid] at hforwards
    exact .inr ⟨w, hphase, hactive, ⟨id, hid, hforwards⟩, hhook, hback.caches, hback.placed.id,
      hback.store⟩

theorem survives_settled : Survives Courteous fun s _ => s.AtRest ∧ s.InPlace :=
  fun _ _ e he hs => ⟨hs.1.apply e, hs.2.apply he⟩

/-- In every state of a run the session has a workbook and all that belongs to it, or nothing. So it
has after it waited for its writes, and after any request, whatever fails in it. Every change of
phase on the way of a request is an allowed one, and no request fails for its phase; one that comes
while another is under way is turned away and changes nothing. -/
theorem binding_invariant {s₀ : Session} (hnew : s₀.IsNew) (hrun : Run Courteous s₀ s L) :
    s.IsSettled ∧
      (Achieves (Rely Courteous) settle s L fun r t _ => r = .ok () ∧ t.IsSettled) ∧
      ∀ r, (outline r).Lawful Courteous s L ∧
        (Achieves (Rely Courteous) (request r) s L fun reply t _ => t.IsSettled ∧ Legal reply) ∧
        ∀ t K, t.isBusy → Achieves (Rely Courteous) (request r) t K fun reply u M =>
          reply = .error .transitionInProgress ∧ u = t ∧ M = K := by
  have hrest := hrun.atRest hnew.atRest
  have hs : s.InPlace := .run hnew.atRest hnew.inPlace hrun
  refine ⟨hrest.isSettled hs, ?_, fun r => ?_⟩
  · refine (achieves_settle survives_settled.rely survives_settled.queue ⟨hrest, hs⟩).imp ?_
    rintro r t K ⟨hr, -, ht⟩
    exact ⟨hr, ht.1.isSettled ht.2⟩
  · obtain ⟨hlawful, hlegal⟩ := hrest.lawful r L
    refine ⟨hlawful, fun reply t K hreq => ?_, fun t K hbusy => achieves_request_of_busy hbusy r⟩
    have ht := achieves_request_inPlace hrest hs r _ _ _ hreq
    exact ⟨(hrest.request r hreq).isSettled ht, hlegal _ _ _ hreq⟩

theorem binding_invariant_of_blank : ∃ s L w,
    Run Courteous { Session.on {} with hook := some {} } s L ∧ s.IsBoundTo w ∧
      s.hookFor = some w.id := by
  have hends : ((request (.switch .blank)).run { Session.on {} with hook := some {} }).end?.any
      fun e => e.2.active.isSome && e.2.hook.isSome := by decide +kernel
  obtain ⟨⟨r, s⟩, hs, hends⟩ := (Option.any_eq_true _ _).mp hends
  obtain ⟨hactive, hhook⟩ := Bool.and_eq_true_iff.mp hends
  have hrun : Run Courteous _ s _ := .request _ .start (Progress.runs_of_end? hs)
  rcases (binding_invariant ⟨_, rfl, rfl⟩ hrun).1 with hidle | ⟨w, hw⟩
  · rw [hidle.active] at hactive
    cases hactive
  · exact ⟨s, _, w, hrun, hw, hw.hookFor.trans (if_pos hhook)⟩

end Session

end SheetSync
