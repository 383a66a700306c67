import SheetSync.Proofs.Document.Answers
import SheetSync.Proofs.Link
/-!
The order in which listeners are told of changes. Everyone who stays subscribed is told of every
change once. A change by which a listener answers is told at once, though, while those who come
after that listener have not yet been told of the change that it answers: they hear of the two the
wrong way round. A listener before whom no one answers hears of all changes in the order in which
they are made, so what it hears last of a cell is what the cell holds, and whoever takes over what
it hears comes to hold what the document does.

Main statement: `Document.told_in_order`.
-/
namespace SheetSync

/-! ## What changes say about cells -/

namespace CellDelta

/-- Whether a change is one of a cell. -/
def IsOf (δ : CellDelta) (id : String) (p : Position) : Prop :=
  δ.sheet = id ∧ δ.row = p.row ∧ δ.col = p.col

instance (δ : CellDelta) (id : String) (p : Position) : Decidable (δ.IsOf id p) :=
  inferInstanceAs (Decidable (_ ∧ _))

/-- Takes over a change into what one has for all cells. -/
def onto (held : String → Position → CellState) (δ : CellDelta) : String → Position → CellState :=
  fun id p => if δ.IsOf id p then δ.after else held id p

/-- What a cell shows after some changes, the last one of it counting. -/
def shown (deltas : List CellDelta) (id : String) (p : Position) (old : CellState) : CellState :=
  match deltas.findRev? (·.IsOf id p) with
  | some δ => (δ.after.stored?).getD .empty
  | none => old

theorem shown_append (deltas deltas' : List CellDelta) (id : String) (p : Position)
    (old : CellState) :
    shown (deltas ++ deltas') id p old = shown deltas' id p (shown deltas id p old) := by
  simp only [shown, List.findRev?_eq_find?_reverse, List.reverse_append, List.find?_append]
  cases deltas'.reverse.find? (fun δ => decide (δ.IsOf id p)) <;> rfl

theorem shown_cons (δ : CellDelta) (deltas : List CellDelta) (id : String) (p : Position)
    (old : CellState) : shown (δ :: deltas) id p old =
      shown deltas id p (if δ.IsOf id p then (δ.after.stored?).getD .empty else old) := by
  refine (shown_append [δ] deltas id p old).trans ?_
  by_cases h : δ.IsOf id p
  · simp [shown, List.findRev?, h]
  · simp [shown, List.findRev?, h]

theorem shown_of_forall_not {deltas : List CellDelta} {id : String} {p : Position}
    (h : ∀ δ ∈ deltas, ¬ δ.IsOf id p) (old : CellState) : shown deltas id p old = old := by
  have hnone : deltas.findRev? (·.IsOf id p) = none := Keyed.findRev?_eq_none (by simpa using h)
  rw [shown, hnone]

/-- Taking over changes one after the other comes to what they show. -/
theorem ofState_foldl_onto (deltas : List CellDelta) {held : String → Position → CellState}
    {id : String} {p : Position} {old : CellState}
    (h : CellEdit.ofState (held id p) = .ofState old) :
    CellEdit.ofState (deltas.foldl onto held id p) = .ofState (shown deltas id p old) := by
  induction deltas generalizing held old with
  | nil => exact h
  | cons δ deltas ih =>
    rw [List.foldl_cons, shown_cons]
    apply ih
    unfold onto
    split
    · exact (CellEdit.ofState_stored _).symm
    · exact h

end CellDelta

namespace Document

/-! ## Content -/

theorem sheet_of_mem_setCells {id : String} {s : Sheet} {cells : List (Position × CellState)}
    {δ : CellDelta} (h : δ ∈ (setCells id s cells).2) : δ.sheet = id := by
  induction cells generalizing s with
  | nil => cases h
  | cons c cells ih =>
    rcases List.mem_cons.mp h with rfl | h
    · rfl
    · exact ih h

/-- What a sheet shows after an edit is what the changes of the edit say. -/
theorem read_setCells (id : String) (s : Sheet) (cells : List (Position × CellState))
    (p : Position) :
    (setCells id s cells).1.read p = CellDelta.shown (setCells id s cells).2 id p (s.read p) := by
  induction cells generalizing s with
  | nil => rfl
  | cons c cells ih =>
    have hof : (⟨id, c.1.row, c.1.col, s.read c.1, c.2⟩ : CellDelta).IsOf id p ↔ p = c.1 := by
      obtain ⟨⟨row, col⟩, state⟩ := c
      obtain ⟨row', col'⟩ := p
      simp only [CellDelta.IsOf, Position.mk.injEq, true_and]
      omega
    rw [setCells, CellDelta.shown_cons]
    simp only [hof]
    rw [ih, Sheet.read_put]

/-- The sheet that an edit sets cells of. -/
def sheetFor (d : Document) (id : String) : Sheet := (d.sheets.get? id).getD { name := id }

theorem read_sheetFor (d : Document) (id : String) (p : Position) :
    (d.sheetFor id).read p = d.cell id p := by
  unfold sheetFor cell
  cases d.sheets.get? id with
  | none => simp [Sheet.read]
  | some s => rfl

theorem cell_unsubscribeLabel (d : Document) (label : Option String) :
    (d.unsubscribeLabel label).cell = d.cell := by
  unfold unsubscribeLabel
  split <;> rfl

end Document

/-- Whether an action changes no cell that it does not name; one that loads a copy may change
all. -/
def DocumentAction.IsEdit : DocumentAction → Prop
  | load _ => False
  | _ => True

namespace Listener

/-- Whether a listener answers by edits only. -/
def AnswersByEdits (l : Listener) : Prop := ∀ source a, l.answer? source = some a → a.IsEdit

theorem IsQuiet.answersByEdits {l : Listener} (h : l.IsQuiet) : l.AnswersByEdits := by
  intro source a ha
  rw [h.answer?] at ha
  cases ha

theorem answersByEdits_watcher {a : DocumentAction} (ha : a.IsEdit) (label : String)
    (unsubscribes : Option String) : (watcher label unsubscribes (some a)).AnswersByEdits := by
  intro source b hb
  obtain ⟨-, hb⟩ : source = .user ∧ some a = some b := by simpa [answer?] using hb
  exact Option.some.inj hb ▸ ha

end Listener

namespace Document

theorem cell_editSheet (d : Document) (source : ChangeSource) (sheet : String)
    (cells : List (Position × CellState)) (id : String) (p : Position) :
    (d.editSheet source sheet cells).1.cell id p =
      CellDelta.shown (d.editSheet source sheet cells).2 id p (d.cell id p) := by
  by_cases hid : id = sheet
  · subst hid
    rw [← d.read_sheetFor]
    refine Eq.trans ?_ (read_setCells id _ cells p)
    simp [cell, editSheet, Keyed.get?_set]
  · rw [CellDelta.shown_of_forall_not]
    · simp [cell, editSheet, Keyed.get?_set, hid]
    · intro δ hδ hof
      exact hid (hof.1.symm.trans (sheet_of_mem_setCells hδ))

/-- What a document shows after an edit is what the change says that is told. -/
theorem cell_change {d : Document} {a : DocumentAction} (ha : a.IsEdit) (id : String)
    (p : Position) :
    (d.change a).1.cell id p =
      CellDelta.shown (((d.change a).2.map (·.deltas)).getD []) id p (d.cell id p) := by
  cases a with
  | edit source sheet cells =>
    cases cells with
    | nil => rfl
    | cons c cells => exact d.cell_editSheet source sheet (c :: cells) id p
  | load s => cases ha
  | markSaved => rfl

/-- Whether a task and the answers to it are edits. -/
def Task.IsEdit : Task → Prop
  | act a => a.IsEdit
  | tell _ ls => ∀ k ∈ ls, k.2.AnswersByEdits

namespace Unfolds

variable {n : Nat} {t : Task} {d d' : Document} {es : List ChangeEvent} {ts : List Delivery}

/-- What a document shows in the end is what the changes say in the order in which they are made. -/
theorem cell_eq (h : Unfolds n t d d' es ts) (ht : t.IsEdit)
    (hd : ∀ k ∈ d.listeners, k.2.AnswersByEdits) (id : String) (p : Position) :
    d'.cell id p = CellDelta.shown (es.flatMap (·.deltas)) id p (d.cell id p) := by
  induction h with
  | silent hnone =>
    rw [cell_change ht, hnone]
    rfl
  | change hsome _ ih =>
    rw [ih hd (by simpa using hd), cell_change ht, hsome, List.flatMap_cons, CellDelta.shown_append]
    rfl
  | told => rfl
  | @listens _ _ k _ d _ _ _ _ _ ih =>
    have hrest := ih (fun k' hk' => ht k' (List.mem_cons_of_mem k hk')) fun k' hk' =>
      hd k' ((sublist_listeners_leave d k.2).subset hk')
    rw [hrest, leave, cell_unsubscribeLabel]
  | @answers _ _ k ls _ d _ _ _ _ _ _ hsome hanswer _ ihanswer ihrest =>
    have hleave : ∀ k' ∈ (d.leave k.2).listeners, k'.2.AnswersByEdits := fun k' hk' =>
      hd k' ((sublist_listeners_leave d k.2).subset hk')
    have hinner := ihanswer (ht k List.mem_cons_self _ _ hsome) hleave
    have hrest := ihrest (fun k' hk' => ht k' (List.mem_cons_of_mem k hk')) fun k' hk' =>
      hleave k' (hanswer.sublist_listeners.subset hk')
    rw [hrest, hinner, leave, cell_unsubscribeLabel, List.flatMap_append, CellDelta.shown_append]

end Unfolds

/-! ## What a listener hears -/

/-- The changes that a listener is told, in the order of the telling. -/
def heard (id : Nat) (ts : List Delivery) : List ChangeEvent :=
  (ts.filter (·.id = id)).map (·.event)

theorem heard_cons (id : Nat) (t : Delivery) (ts : List Delivery) :
    heard id (t :: ts) = if t.id = id then t.event :: heard id ts else heard id ts := by
  by_cases h : t.id = id
  · simp [heard, h]
  · simp [heard, h]

theorem heard_append (id : Nat) (ts ts' : List Delivery) :
    heard id (ts ++ ts') = heard id ts ++ heard id ts' := by
  simp [heard]

/-- The listeners that are told before one. -/
def before (id : Nat) (ls : List (Nat × Listener)) : List (Nat × Listener) :=
  ls.takeWhile (·.1 ≠ id)

theorem before_cons {id : Nat} {k : Nat × Listener} {ls : List (Nat × Listener)} (h : k.1 ≠ id) :
    before id (k :: ls) = k :: before id ls := List.takeWhile_cons_of_pos (by simpa using h)

/-- Of some listeners no others come before one than did among all. -/
theorem mem_before_of_sublist {id : Nat} {ls ms : List (Nat × Listener)} (h : ls.Sublist ms)
    (hnodup : (ms.map Prod.fst).Nodup) (hid : id ∈ ls.map Prod.fst) {k : Nat × Listener}
    (hk : k ∈ before id ls) : k ∈ before id ms := by
  induction h with
  | slnil => exact hk
  | @cons ls ms m hsub ih =>
    obtain ⟨hm, hnodup⟩ := List.nodup_cons.mp hnodup
    have hne : m.1 ≠ id := by
      rintro rfl
      exact hm ((hsub.map Prod.fst).subset hid)
    rw [before_cons hne]
    exact List.mem_cons_of_mem m (ih hnodup hid hk)
  | @cons_cons ls ms m hsub ih =>
    obtain ⟨hm, hnodup⟩ := List.nodup_cons.mp hnodup
    by_cases hne : m.1 = id
    · rw [before, List.takeWhile_cons_of_neg (by simpa using hne)] at hk
      cases hk
    · rw [before_cons hne] at hk ⊢
      rcases List.mem_cons.mp hk with rfl | hk
      · exact List.mem_cons_self
      · have hid : id ∈ ls.map Prod.fst := by
          rcases List.mem_cons.mp hid with h | h
          · exact absurd h.symm hne
          · exact h
        exact List.mem_cons_of_mem m (ih hnodup hid hk)

/-- The changes that a listener is to hear of a task: the change that is told, if it is told it, and
those by which it is answered. -/
def Task.due (id : Nat) (es : List ChangeEvent) : Task → List ChangeEvent
  | act _ => es
  | tell e ls => if id ∈ ls.map Prod.fst then e :: es else es

namespace Task

variable {id : Nat} {e : ChangeEvent} {k : Nat × Listener} {ls : List (Nat × Listener)}
  {es : List ChangeEvent}

theorem due_of_not_mem (h : id ∉ ls.map Prod.fst) : (tell e ls).due id es = es := if_neg h

theorem due_cons_self (h : k.1 = id) : (tell e (k :: ls)).due id es = e :: es :=
  if_pos (List.mem_cons.mpr (.inl h.symm))

theorem due_cons_of_ne (h : k.1 ≠ id) : (tell e (k :: ls)).due id es = (tell e ls).due id es := by
  simp only [due, List.map_cons, List.mem_cons, Ne.symm h, false_or]

/-- Answers that are told before the change that they answer are due with it. -/
theorem append_due_perm (es₁ : List ChangeEvent) :
    (es₁ ++ (tell e ls).due id es).Perm ((tell e ls).due id (es₁ ++ es)) := by
  by_cases h : id ∈ ls.map Prod.fst
  · simp only [due, h, if_true]
    exact List.perm_middle
  · rw [due_of_not_mem h, due_of_not_mem h]

end Task

/-- Whether a task names no listener twice. -/
def Task.NamesOnce : Task → Prop
  | act _ => True
  | tell _ ls => (ls.map Prod.fst).Nodup

/-- Whether no one who is told before a listener answers. -/
def Task.IsQuietBefore (id : Nat) : Task → Prop
  | act _ => True
  | tell _ ls => id ∈ ls.map Prod.fst → ∀ k ∈ before id ls, k.2.IsQuiet

theorem Task.isQuietBefore_of_cons {id : Nat} {e : ChangeEvent} {k : Nat × Listener}
    {ls : List (Nat × Listener)} (h : k.1 ≠ id) (hquiet : (tell e (k :: ls)).IsQuietBefore id) :
    (tell e ls).IsQuietBefore id := by
  intro hmem k' hk'
  apply hquiet (List.mem_cons_of_mem _ hmem)
  rw [before_cons h]
  exact List.mem_cons_of_mem k hk'

namespace Unfolds

variable {n : Nat} {t : Task} {d d' : Document} {es : List ChangeEvent} {ts : List Delivery}
  {id : Nat}

/-- A listener that stays is told every change once, and in the order in which they are made if no
one before it answers. -/
theorem heard_due (h : Unfolds n t d d' es ts) (hnames : t.NamesOnce)
    (hd : (d.listeners.map Prod.fst).Nodup) (hid : id ∈ d'.listeners.map Prod.fst) :
    (heard id ts).Perm (t.due id es) ∧
      (t.IsQuietBefore id → (∀ k ∈ before id d.listeners, k.2.IsQuiet) →
        heard id ts = t.due id es) := by
  induction h with
  | silent => exact ⟨.refl _, fun _ _ => rfl⟩
  | @change n a d d' e es ts hsome htell ih =>
    have hlisteners := d.listeners_change a
    rw [hlisteners] at ih
    have hmem : id ∈ d.listeners.map Prod.fst := by
      rw [← hlisteners]
      exact (htell.sublist_listeners.map Prod.fst).subset hid
    have hdue : (Task.tell e d.listeners).due id es = e :: es := if_pos hmem
    obtain ⟨hperm, heq⟩ := ih hd hd hid
    rw [hdue] at hperm heq
    exact ⟨hperm, fun _ hbefore => heq (fun _ => hbefore) hbefore⟩
  | told => exact ⟨.refl _, fun _ _ => rfl⟩
  | @listens n e k ls d d' es ts hnone hrest ih =>
    obtain ⟨hk, hls⟩ := List.nodup_cons.mp hnames
    have hleave := sublist_listeners_leave d k.2
    have hidleave := (hrest.sublist_listeners.map Prod.fst).subset hid
    obtain ⟨hperm, heq⟩ := ih hls ((hleave.map Prod.fst).nodup hd) hid
    have hbefore' : (∀ k ∈ before id d.listeners, k.2.IsQuiet) →
        ∀ k' ∈ before id (d.leave k.2).listeners, k'.2.IsQuiet := fun hbefore k' hk' =>
      hbefore k' (mem_before_of_sublist hleave hd hidleave hk')
    rw [heard_cons]
    by_cases hkid : k.1 = id
    · have hnot : id ∉ ls.map Prod.fst := hkid ▸ hk
      rw [Task.due_of_not_mem hnot] at hperm heq
      rw [if_pos hkid, Task.due_cons_self hkid]
      refine ⟨hperm.cons e, fun _ hbefore => ?_⟩
      rw [heq (fun hmem => absurd hmem hnot) (hbefore' hbefore)]
    · rw [if_neg hkid, Task.due_cons_of_ne hkid]
      refine ⟨hperm, fun hquiet hbefore => heq ?_ (hbefore' hbefore)⟩
      exact Task.isQuietBefore_of_cons hkid hquiet
  | @answers n e k ls a d d₁ d' es₁ es ts₁ ts hsome hanswer hrest ihanswer ihrest =>
    obtain ⟨hk, hls⟩ := List.nodup_cons.mp hnames
    have hleave := sublist_listeners_leave d k.2
    have hinner := hanswer.sublist_listeners.trans hleave
    have hid₁ := (hrest.sublist_listeners.map Prod.fst).subset hid
    have hidleave := (hanswer.sublist_listeners.map Prod.fst).subset hid₁
    obtain ⟨hperm₁, heq₁⟩ := ihanswer trivial ((hleave.map Prod.fst).nodup hd) hid₁
    obtain ⟨hperm, heq⟩ := ihrest hls ((hinner.map Prod.fst).nodup hd) hid
    rw [heard_cons, heard_append]
    by_cases hkid : k.1 = id
    · have hnot : id ∉ ls.map Prod.fst := hkid ▸ hk
      rw [Task.due_of_not_mem hnot] at hperm heq
      rw [if_pos hkid, Task.due_cons_self hkid]
      refine ⟨(hperm₁.append hperm).cons e, fun _ hbefore => ?_⟩
      rw [heq₁ trivial fun k' hk' => hbefore k' (mem_before_of_sublist hleave hd hidleave hk'),
        heq (fun hmem => absurd hmem hnot)
          fun k' hk' => hbefore k' (mem_before_of_sublist hinner hd hid₁ hk')]
      rfl
    · rw [if_neg hkid, Task.due_cons_of_ne hkid]
      refine ⟨(hperm₁.append hperm).trans (Task.append_due_perm es₁), fun hquiet hbefore => ?_⟩
      by_cases hmem : id ∈ ls.map Prod.fst
      · -- this listener comes before, so it does not answer
        have hmem' : k ∈ before id (k :: ls) := before_cons hkid ▸ List.mem_cons_self
        rw [(hquiet (List.mem_cons_of_mem _ hmem) k hmem').answer?] at hsome
        cases hsome
      · rw [Task.due_of_not_mem hmem] at heq ⊢
        rw [heq₁ trivial fun k' hk' => hbefore k' (mem_before_of_sublist hleave hd hidleave hk'),
          heq (fun hmem' => absurd hmem' hmem)
            fun k' hk' => hbefore k' (mem_before_of_sublist hinner hd hid₁ hk')]
        rfl

end Unfolds

/-! ## Where documents come from -/

/-- Whether a document has come about from the empty one. -/
inductive IsMade : Document → Prop
  | empty : IsMade {}
  | forward {d : Document} (h : d.IsMade) : (d.subscribe .forward).2.IsMade
  | watch {d : Document} (h : d.IsMade) (label : String) (unsubscribes : Option String)
      (answer : Option DocumentAction) : (d.watch label unsubscribes answer).IsMade
  | unsubscribe {d : Document} (h : d.IsMade) (id : Nat) : (d.unsubscribe id).IsMade
  | perform {d : Document} (h : d.IsMade) (a : DocumentAction) : (d.perform a).1.IsMade

/-- Whether listeners bear numbers that were given out, each its own. -/
structure IsNumbered (d : Document) : Prop where
  nodup : (d.listeners.map Prod.fst).Nodup
  lt : ∀ k ∈ d.listeners, k.1 < d.nextListener

namespace IsNumbered

variable {d : Document}

theorem of_sublist (h : d.IsNumbered) {f : Document} (hsub : f.listeners.Sublist d.listeners)
    (hnext : f.nextListener = d.nextListener) : f.IsNumbered where
  nodup := (hsub.map Prod.fst).nodup h.nodup
  lt k hk := hnext ▸ h.lt k (hsub.subset hk)

theorem unsubscribe (h : d.IsNumbered) (id : Nat) : (d.unsubscribe id).IsNumbered :=
  h.of_sublist List.filter_sublist rfl

theorem unsubscribeLabel (h : d.IsNumbered) (label : Option String) :
    (d.unsubscribeLabel label).IsNumbered := by
  unfold Document.unsubscribeLabel
  split
  · exact h.unsubscribe _
  · exact h

theorem subscribe (h : d.IsNumbered) (l : Listener) : (d.subscribe l).2.IsNumbered where
  nodup := by
    have hnew : d.nextListener ∉ d.listeners.map Prod.fst := by
      intro hmem
      obtain ⟨k, hk, hnext⟩ := List.mem_map.mp hmem
      exact absurd (h.lt k hk) (hnext ▸ Nat.lt_irrefl _)
    rw [Document.subscribe, List.map_append]
    exact h.nodup.append (List.nodup_singleton _) (List.disjoint_singleton.mpr hnew)
  lt k hk := by
    rcases List.mem_append.mp hk with hk | hk
    · exact Nat.lt_succ_of_lt (h.lt k hk)
    · obtain rfl := List.mem_singleton.mp hk
      exact Nat.lt_succ_self _

theorem watch (h : d.IsNumbered) (label : String) (unsubscribes : Option String)
    (answer : Option DocumentAction) : (d.watch label unsubscribes answer).IsNumbered := by
  have h := h.subscribe (.watcher label unsubscribes answer)
  exact ⟨h.nodup, h.lt⟩

theorem perform (h : d.IsNumbered) (a : DocumentAction) : (d.perform a).1.IsNumbered := by
  refine (performWithin_keeps (I := IsNumbered) (J := fun _ => True) ?_ ?_ ?_ _ a h).1
  · intro f b hf
    refine hf.of_sublist (f.listeners_change b ▸ .refl _) ?_
    unfold Document.change
    split <;> rfl
  · exact fun f label hf => hf.unsubscribeLabel label
  · exact fun _ _ _ _ _ _ => trivial

end IsNumbered

theorem IsMade.isNumbered {d : Document} (h : d.IsMade) : d.IsNumbered := by
  induction h with
  | empty => exact ⟨List.nodup_nil, fun _ hk => absurd hk List.not_mem_nil⟩
  | forward _ ih => exact ih.subscribe _
  | watch _ label unsubscribes answer ih => exact ih.watch label unsubscribes answer
  | unsubscribe _ id ih => exact ih.unsubscribe id
  | perform _ a ih => exact ih.perform a

/-! ## Runs of actions -/

/-- Does some actions and tells of them, one after the other. -/
def performAll (d : Document) (as : List DocumentAction) : Document × List Delivery :=
  as.foldl (fun done a => ((done.1.perform a).1, done.2 ++ (done.1.perform a).2)) (d, [])

/-- A document comes through some actions, one after the other. -/
inductive UnfoldsAll : List DocumentAction → Document → Document → List ChangeEvent →
    List Delivery → Prop
  | nil {d : Document} : UnfoldsAll [] d d [] []
  | cons {n : Nat} {a : DocumentAction} {as : List DocumentAction} {d d₁ d' : Document}
      {es₁ es : List ChangeEvent} {ts₁ ts : List Delivery} (h : Unfolds n (.act a) d d₁ es₁ ts₁)
      (hrest : UnfoldsAll as d₁ d' es ts) :
    UnfoldsAll (a :: as) d d' (es₁ ++ es) (ts₁ ++ ts)

/-- Where no listener answers by a user's change, all actions come to an end. -/
theorem exists_unfoldsAll {d : Document} (hd : ∀ k ∈ d.listeners, k.2.AnswersForOthers)
    (as : List DocumentAction) : ∃ d' es ts, UnfoldsAll as d d' es ts := by
  induction as generalizing d with
  | nil => exact ⟨_, _, _, .nil⟩
  | cons a as ih =>
    obtain ⟨d₁, es₁, ts₁, h⟩ := exists_unfolds hd a
    obtain ⟨d', es, ts, hrest⟩ := ih fun k hk => hd k (h.sublist_listeners.subset hk)
    exact ⟨d', _, _, .cons h hrest⟩

/-- Only those are told who are subscribed when an action starts. -/
theorem mem_listeners_of_told (d : Document) (a : DocumentAction) :
    ∀ t ∈ (d.perform a).2, (t.id, t.listener) ∈ d.listeners := by
  refine (performWithin_keeps (I := fun f => ∀ k ∈ f.listeners, k ∈ d.listeners)
    (J := fun t => (t.id, t.listener) ∈ d.listeners) ?_ ?_ ?_ _ a fun _ hk => hk).2
  · intro f b hf k hk
    rw [listeners_change] at hk
    exact hf k hk
  · intro f label hf k hk
    unfold unsubscribeLabel at hk
    split at hk
    · exact hf k (List.mem_of_mem_filter hk)
    · exact hf k hk
  · intro f id l e hf hmem
    exact hf _ hmem

/-- The writes that are called for when one listener hands changes on. -/
theorem flatMap_called (maxArea : Nat) {id : Nat} {ts : List Delivery}
    (hone : ∀ t ∈ ts, t.listener = .forward ↔ t.id = id) :
    ts.flatMap (Link.called maxArea) =
      ((heard id ts).filter (·.source ≠ .load)).flatMap fun e => Plan.writes maxArea e.deltas := by
  induction ts with
  | nil => rfl
  | cons t ts ih =>
    have hrest := ih fun t' ht' => hone t' (List.mem_cons_of_mem t ht')
    have ht := hone t List.mem_cons_self
    rw [List.flatMap_cons, hrest, heard_cons]
    obtain ⟨k, l, e⟩ := t
    by_cases hk : k = id
    · obtain rfl : l = .forward := ht.mpr hk
      by_cases he : e.source = .load
      · simp [Link.called, hk, he]
      · simp [Link.called, hk, he]
    · cases l with
      | forward => exact absurd (ht.mp rfl) hk
      | watcher => simp [Link.called, hk]

namespace UnfoldsAll

variable {as : List DocumentAction} {d d' : Document} {es : List ChangeEvent} {ts : List Delivery}
  {id : Nat}

theorem performAll_eq (h : UnfoldsAll as d d' es ts) : d.performAll as = (d', ts) := by
  have hfold : ∀ before, as.foldl
      (fun done a => ((done.1.perform a).1, done.2 ++ (done.1.perform a).2)) (d, before) =
        (d', before ++ ts) := by
    induction h with
    | nil => simp
    | cons h _ ih =>
      intro before
      rw [List.foldl_cons, h.perform_eq, ih, List.append_assoc]
  exact hfold []

theorem sublist_listeners (h : UnfoldsAll as d d' es ts) :
    d'.listeners.Sublist d.listeners := by
  induction h with
  | nil => exact .refl _
  | cons h _ ih => exact ih.trans h.sublist_listeners

theorem mem_listeners (h : UnfoldsAll as d d' es ts) :
    ∀ t ∈ ts, (t.id, t.listener) ∈ d.listeners := by
  induction h with
  | nil => exact fun _ ht => absurd ht List.not_mem_nil
  | @cons n a as d d₁ d' es₁ es ts₁ ts h hrest ih =>
    intro t ht
    rcases List.mem_append.mp ht with ht | ht
    · have htold := d.mem_listeners_of_told a
      rw [h.perform_eq] at htold
      exact htold t ht
    · exact h.sublist_listeners.subset (ih t ht)

theorem heard_due (h : UnfoldsAll as d d' es ts) (hd : (d.listeners.map Prod.fst).Nodup)
    (hid : id ∈ d'.listeners.map Prod.fst) :
    (heard id ts).Perm es ∧
      ((∀ k ∈ before id d.listeners, k.2.IsQuiet) → heard id ts = es) := by
  induction h with
  | nil => exact ⟨.refl _, fun _ => rfl⟩
  | @cons n a as d d₁ d' es₁ es ts₁ ts h hrest ih =>
    have hsub := h.sublist_listeners
    have hid₁ := (hrest.sublist_listeners.map Prod.fst).subset hid
    obtain ⟨hperm₁, heq₁⟩ := h.heard_due trivial hd hid₁
    obtain ⟨hperm, heq⟩ := ih ((hsub.map Prod.fst).nodup hd) hid
    rw [heard_append]
    refine ⟨hperm₁.append hperm, fun hbefore => ?_⟩
    rw [heq₁ trivial hbefore,
      heq fun k hk => hbefore k (mem_before_of_sublist hsub hd hid₁ hk)]
    rfl

theorem cell_eq (h : UnfoldsAll as d d' es ts) (has : ∀ a ∈ as, a.IsEdit)
    (hd : ∀ k ∈ d.listeners, k.2.AnswersByEdits) (id : String) (p : Position) :
    d'.cell id p = CellDelta.shown (es.flatMap (·.deltas)) id p (d.cell id p) := by
  induction h with
  | nil => rfl
  | @cons n a as d d₁ d' es₁ es ts₁ ts h hrest ih =>
    have hrest := ih (fun b hb => has b (List.mem_cons_of_mem a hb)) fun k hk =>
      hd k (h.sublist_listeners.subset hk)
    rw [hrest, h.cell_eq (has a List.mem_cons_self) hd, List.flatMap_append, CellDelta.shown_append]

end UnfoldsAll

/-- Whatever edits a document comes through and however its listeners answer them, one who stays
subscribed is told every change once. If no one who is told before it answers, it is told the
changes in the order in which they are made: what it hears last of a cell is then what the cell
holds, whoever takes over all that it hears comes to hold what the document does, and if it alone
hands changes on, the writes are called for in that order. -/
theorem told_in_order {as : List DocumentAction} {d d' : Document} {es : List ChangeEvent}
    {ts : List Delivery} {id : Nat} (hd : d.IsMade)
    (hanswers : ∀ k ∈ d.listeners, k.2.AnswersByEdits) (has : ∀ a ∈ as, a.IsEdit)
    (h : UnfoldsAll as d d' es ts) (hid : d'.isSubscribed id) :
    d.performAll as = (d', ts) ∧ (heard id ts).Perm es ∧
      ((∀ k ∈ before id d.listeners, k.2.IsQuiet) →
        heard id ts = es ∧
        (∀ sheet p, d'.cell sheet p =
          CellDelta.shown ((heard id ts).flatMap (·.deltas)) sheet p (d.cell sheet p)) ∧
        (∀ held : String → Position → CellState,
          (∀ sheet p, CellEdit.ofState (held sheet p) = .ofState (d.cell sheet p)) →
          ∀ sheet p, CellEdit.ofState
            (((heard id ts).flatMap (·.deltas)).foldl CellDelta.onto held sheet p) =
              .ofState (d'.cell sheet p)) ∧
        ∀ maxArea, (∀ k ∈ d.listeners, k.2 = .forward ↔ k.1 = id) →
          ts.flatMap (Link.called maxArea) =
            (es.filter (·.source ≠ .load)).flatMap fun e => Plan.writes maxArea e.deltas) := by
  have hmem : id ∈ d'.listeners.map Prod.fst := by
    simpa [isSubscribed] using hid
  obtain ⟨hperm, heq⟩ := h.heard_due hd.isNumbered.nodup hmem
  refine ⟨h.performAll_eq, hperm, fun hbefore => ?_⟩
  rw [heq hbefore]
  refine ⟨rfl, h.cell_eq has hanswers, ?_, ?_⟩
  · intro held hheld sheet p
    rw [h.cell_eq has hanswers]
    exact CellDelta.ofState_foldl_onto _ (hheld sheet p)
  · intro maxArea hone
    rw [flatMap_called maxArea fun t ht => hone _ (h.mem_listeners t ht), heq hbefore]

/-- With a listener that answers a user's change by one of a cell. -/
def answered (d : Document) : Document :=
  d.watch "a" none (some (.edit .external "S" [(⟨0, 0⟩, .ofValue (.int 2))]))

/-- One who hands changes on comes before one who answers, and that one is unsubscribed later. -/
def forwardedFirst : Document :=
  (({} : Document).subscribe .forward).2.answered.watch "b" (some "a") none

/-- One who listens comes after one who answers. -/
def answeredFirst : Document := ({} : Document).answered.watch "b" none none

/-- Changes by a user, the first of the cell that an answer changes. -/
def userEdits : List DocumentAction :=
  [.edit .user "S" [(⟨0, 0⟩, .ofValue (.int 1))], .edit .user "S" [(⟨1, 0⟩, .ofValue (.int 3))]]

theorem told_in_order_forwardedFirst : forwardedFirst.IsMade ∧
    (∀ k ∈ forwardedFirst.listeners, k.2.AnswersByEdits) ∧ (∀ a ∈ userEdits, a.IsEdit) ∧
    ∃ d' es ts, UnfoldsAll userEdits forwardedFirst d' es ts ∧ d'.isSubscribed 0 ∧
      (∀ k ∈ before 0 forwardedFirst.listeners, k.2.IsQuiet) ∧
      forwardedFirst.performAll userEdits = (d', ts) ∧ heard 0 ts = es ∧
      es.map (·.source) = [.user, .external, .user] ∧ d'.cell "S" ⟨0, 0⟩ = .ofValue (.int 2) := by
  have hmade : forwardedFirst.IsMade := (IsMade.empty.forward.watch _ _ _).watch _ _ _
  have hanswers : ∀ k ∈ forwardedFirst.listeners, k.2.AnswersByEdits := by
    simp only [show forwardedFirst.listeners = [_, _, _] from rfl, List.forall_mem_cons]
    exact ⟨Listener.IsQuiet.answersByEdits trivial,
      Listener.answersByEdits_watcher (by trivial) _ _, Listener.IsQuiet.answersByEdits rfl,
      List.forall_mem_nil _⟩
  have has : ∀ a ∈ userEdits, a.IsEdit := by
    simp only [userEdits, List.forall_mem_cons]
    exact ⟨trivial, trivial, List.forall_mem_nil _⟩
  have h : UnfoldsAll userEdits forwardedFirst _ _ _ := .cons (n := 2)
    (.change rfl (.listens rfl (.answers rfl
      (.change rfl (.listens rfl (.listens rfl (.listens rfl .told)))) (.listens rfl .told))))
    (.cons (n := 1) (.change rfl (.listens rfl (.listens rfl .told))) .nil)
  obtain ⟨hperform, -, hin⟩ := told_in_order hmade hanswers has h
    (show isSubscribed _ 0 by decide +kernel)
  have hbefore : ∀ k ∈ before 0 forwardedFirst.listeners, k.2.IsQuiet := List.forall_mem_nil _
  obtain ⟨hheard, hcell, -⟩ := hin hbefore
  exact ⟨hmade, hanswers, has, _, _, _, h, by decide +kernel, hbefore, hperform, hheard,
    by decide +kernel, (hcell _ _).trans (by decide +kernel)⟩

/-- The listener hears of the answer before it hears of what was answered. -/
theorem not_told_in_order_answeredFirst : answeredFirst.IsMade ∧ ∃ d' es ts,
    UnfoldsAll [.edit .user "S" [(⟨0, 0⟩, .ofValue (.int 1))]] answeredFirst d' es ts ∧
      d'.isSubscribed 1 ∧ heard 1 ts ≠ es ∧ d'.cell "S" ⟨0, 0⟩ = .ofValue (.int 2) ∧
      CellDelta.shown ((heard 1 ts).flatMap (·.deltas)) "S" ⟨0, 0⟩ .empty = .ofValue (.int 1) := by
  refine ⟨(IsMade.empty.watch _ _ _).watch _ _ _, _, _, _, .cons (n := 2) (.change rfl
    (.answers rfl (.change rfl (.listens rfl (.listens rfl .told))) (.listens rfl .told))) .nil, ?_⟩
  decide +kernel

end Document

end SheetSync
