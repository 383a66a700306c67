import SheetSync.Proofs.Store
import SheetSync.Store.Transfer
/-!
Commands whose outcome the workbook settles: `Store.ByBook`. A local store that is not watched makes
such a command wait for nothing, and all that it leaves and answers depends on the store's workbook
alone. This holds of every command that reads or writes cells, and of what is made of those.
-/
namespace SheetSync

namespace Store

variable {α β : Type}

/-- Whether all that a command comes to on a local store that is not watched is settled by the
workbook; it does not wait for anything then. -/
def ByBook (m : StoreM α) : Prop :=
  ∃ F : Option Workbook → Except StoreError α × Option Workbook, ∀ s : Store, s.kind = .local →
    s.watch = none → m.run s = .done (F s.workbook).1 { s with workbook := (F s.workbook).2 }

namespace ByBook

theorem pure (a : α) : ByBook (pure a) := ⟨fun b => (.ok a, b), fun _ _ _ => rfl⟩

theorem liftM (r : Except StoreError α) : ByBook (liftM r) := ⟨fun b => (r, b), fun _ _ _ => rfl⟩

theorem throw (e : StoreError) : ByBook (throw e : StoreM α) :=
  ⟨fun b => (.error e, b), fun _ _ _ => rfl⟩

theorem bind {m : StoreM α} {f : α → StoreM β} (hm : ByBook m) (hf : ∀ a, ByBook (f a)) :
    ByBook (m >>= f) := by
  obtain ⟨F, hF⟩ := hm
  choose G hG using hf
  refine ⟨fun b => match F b with
    | (.ok a, b) => G a b
    | (.error e, b) => (.error e, b), fun s hkind hwatch => ?_⟩
  have hrun : (m >>= f).run s = (m.run s).bind (ExceptT.bindCont f) := rfl
  rw [hrun, hF s hkind hwatch]
  dsimp only
  rcases F s.workbook with ⟨e | a, b⟩
  · rfl
  · exact hG a { s with workbook := b } hkind hwatch

/-- A command that asks its store for its kind. -/
theorem kind {f : Store → StoreM α} {n : StoreM α} (hf : ∀ s, s.kind = .local → f s = n)
    (hn : ByBook n) : ByBook (get >>= f) := by
  obtain ⟨F, hF⟩ := hn
  refine ⟨F, fun s hkind hwatch => ?_⟩
  have hrun : (get >>= f).run s = (f s).run s := rfl
  rw [hrun, hf s hkind]
  exact hF s hkind hwatch

theorem log (call : Call) : ByBook (log call) :=
  ⟨fun b => (.ok (), b), fun s _ hwatch => by
    have hlogged := logged_of_watch_eq_none call hwatch
    exact congrArg (Progress.done (Except.ok ())) hlogged⟩

theorem passRead : ByBook passRead :=
  ⟨fun b => (.ok (), b), fun s _ hwatch => by
    obtain ⟨kind, workbook, watch, files⟩ := s
    obtain rfl : watch = none := hwatch
    rfl⟩

theorem passWrite (sheet : String) : ByBook (passWrite sheet) :=
  ⟨fun b => (.ok (), b), fun s _ hwatch => by
    obtain ⟨kind, workbook, watch, files⟩ := s
    obtain rfl : watch = none := hwatch
    rfl⟩

theorem current : ByBook current :=
  ⟨fun b => (b.elim (.error .noWorkbook) .ok, b), fun s _ _ => by
    obtain ⟨kind, workbook, watch, files⟩ := s
    cases workbook <;> rfl⟩

theorem setCurrent (b : Workbook) : ByBook (setCurrent b) :=
  ⟨fun _ => (.ok (), some b), fun _ _ _ => rfl⟩

theorem getRange (sheet : String) (rect : Rect) : ByBook (getRange sheet rect) :=
  .bind (.log _) fun _ => .bind .passRead fun _ =>
    .kind (fun s hs => by rw [hs]) (.bind (.liftM _) fun _ => .bind .current fun _ => .liftM _)

theorem usedRange? (sheet : String) : ByBook (usedRange? sheet) :=
  .bind (.log _) fun _ => .bind .passRead fun _ =>
    .kind (fun s hs => by rw [hs]) (.bind .current fun _ => .bind (.liftM _) fun _ => .pure _)

theorem setRange (sheet : String) (rect : Rect) (values : List (List CellEdit)) :
    ByBook (setRange sheet rect values) :=
  .bind (.log _) fun _ => .bind (.passWrite _) fun _ =>
    .kind (fun s hs => by rw [hs]) (.bind (.liftM _) fun _ => .bind (.liftM _) fun _ =>
      .bind .current fun _ => .bind (.liftM _) .setCurrent)

theorem newWorkbook : ByBook newWorkbook :=
  .bind (.log _) fun _ => .kind (fun s hs => by rw [if_pos hs])
    (.bind (.setCurrent _) fun _ => .pure _)

theorem readChunks (sheet : String) (chunks : List Rect) : ByBook (readChunks sheet chunks) := by
  induction chunks with
  | nil => exact .pure _
  | cons chunk chunks ih => exact .bind (.getRange _ _) fun _ => .bind ih fun _ => .pure _

theorem loadSheet (rows cols : Nat) (info : SheetInfo) : ByBook (loadSheet rows cols info) := by
  refine .bind (.usedRange? _) fun used => ?_
  cases used with
  | none => exact .bind (.pure _) fun _ => .pure _
  | some used => exact .bind (.readChunks _ _) fun _ => .pure _

theorem loadSheets (rows cols : Nat) (infos : List SheetInfo) :
    ByBook (loadSheets rows cols infos) := by
  induction infos with
  | nil => exact .pure _
  | cons info infos ih => exact .bind (.loadSheet _ _ _) fun _ => .bind ih fun _ => .pure _

theorem loadSnapshot (d : Descriptor) (rows cols : Nat) : ByBook (loadSnapshot d rows cols) :=
  .bind (.loadSheets _ _ _) fun _ => .pure _

theorem writeChunks (sheet : String) (cells : ByPosition CellState) (chunks : List Rect) :
    ByBook (writeChunks sheet cells chunks) := by
  induction chunks with
  | nil => exact .pure _
  | cons chunk chunks ih => exact .bind (.setRange _ _ _) fun _ => .bind ih fun _ => .pure _

theorem replaySheet (d : Descriptor) (rows cols : Nat) (s : SheetSnapshot) :
    ByBook (replaySheet d rows cols s) := by
  unfold Store.replaySheet
  split
  · exact .pure _
  · refine .bind (.usedRange? _) fun used => ?_
    split
    · exact .pure _
    · exact .writeChunks _ _ _

theorem replaySnapshot (d : Descriptor) (s : Snapshot) (rows cols : Nat) :
    ByBook (replaySnapshot d s rows cols) := by
  unfold Store.replaySnapshot
  induction s.sheets with
  | nil => exact .pure _
  | cons sheet sheets ih => exact .bind (.replaySheet _ _ _ _) fun _ => .bind ih fun _ => .pure _

end ByBook

end Store

end SheetSync
