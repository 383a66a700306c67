import SheetSync.Document
import SheetSync.Proofs.Keyed
/-!
What telling of changes leaves as it is. Listeners are numbered once, and a label means a watcher,
so whatever is done to a document, and however watchers answer it, those who hand changes on stay
subscribed: `WellFormed.perform`. Where no watcher answers, every listener is told of a change once,
and the content is what the change made of it.
-/
namespace SheetSync

/-- Tells nobody of anything but what it was told. -/
def Listener.IsQuiet : Listener → Prop
  | .forward => True
  | .watcher _ _ answer => answer = none

namespace Document

/-- The numbers of those who hand changes on. -/
def forwards (d : Document) : List Nat := (d.listeners.filter (·.2 = .forward)).map Prod.fst

/-- No two sheets have an id, every number in use was given out, and no label means one who hands
changes on. -/
structure WellFormed (d : Document) : Prop where
  sheets : (Keyed.keys d.sheets).Nodup
  listener : ∀ e ∈ d.listeners, e.1 < d.nextListener
  label : ∀ label id, d.labels.get? label = some id → id < d.nextListener ∧ id ∉ d.forwards

/-! ## Listeners -/

theorem mem_forwards {d : Document} {id : Nat} :
    id ∈ d.forwards ↔ (id, Listener.forward) ∈ d.listeners := by
  simp [forwards]

theorem forwards_subscribe (d : Document) : (d.subscribe .forward).2.forwards =
    d.forwards ++ [d.nextListener] := by
  simp [subscribe, forwards]

@[simp] theorem forwards_watch (d : Document) (label : String) (unsubscribes : Option String)
    (answer : Option DocumentAction) :
    (d.watch label unsubscribes answer).forwards = d.forwards := by
  simp [watch, subscribe, forwards]

theorem forwards_unsubscribe (d : Document) (id : Nat) :
    (d.unsubscribe id).forwards = d.forwards.filter (· ≠ id) := by
  simp only [unsubscribe, forwards, List.filter_filter, List.filter_map]
  congr 1
  refine List.filter_congr fun e _ => ?_
  simp [Bool.and_comm]

@[simp] theorem listeners_change (d : Document) (a : DocumentAction) :
    (d.change a).1.listeners = d.listeners := by
  unfold change
  split <;> rfl

@[simp] theorem forwards_change (d : Document) (a : DocumentAction) :
    (d.change a).1.forwards = d.forwards := by
  simp [forwards]

namespace WellFormed

variable {d : Document}

theorem lt_of_mem_forwards (h : d.WellFormed) {id : Nat} (hid : id ∈ d.forwards) :
    id < d.nextListener := h.listener _ (mem_forwards.mp hid)

theorem change (h : d.WellFormed) (a : DocumentAction) : (d.change a).1.WellFormed := by
  unfold Document.change
  split
  · exact h
  · exact ⟨Keyed.nodup_keys_set h.sheets _ _, h.listener, h.label⟩
  · exact ⟨Keyed.nodup_keys_ofList _, h.listener, h.label⟩
  · exact ⟨h.sheets, h.listener, h.label⟩

theorem unsubscribe (h : d.WellFormed) (id : Nat) : (d.unsubscribe id).WellFormed where
  sheets := h.sheets
  listener e he := h.listener e (List.mem_of_mem_filter he)
  label label id' hid := by
    obtain ⟨hlt, hnot⟩ := h.label label id' hid
    refine ⟨hlt, fun hmem => hnot ?_⟩
    rw [forwards_unsubscribe] at hmem
    exact List.mem_of_mem_filter hmem

theorem unsubscribeLabel (h : d.WellFormed) (label : Option String) :
    (d.unsubscribeLabel label).WellFormed := by
  unfold Document.unsubscribeLabel
  split
  · exact h.unsubscribe _
  · exact h

/-- The bearer of a label hands nothing on. -/
theorem forwards_unsubscribeLabel (h : d.WellFormed) (label : Option String) :
    (d.unsubscribeLabel label).forwards = d.forwards := by
  unfold Document.unsubscribeLabel
  split
  · next id hid =>
    obtain ⟨l, rfl, hl⟩ := Option.bind_eq_some_iff.mp hid
    rw [forwards_unsubscribe, List.filter_eq_self]
    intro f hf
    -- a label never means one who hands changes on
    have hne : f ≠ id := fun heq => (h.label l id hl).2 (heq ▸ hf)
    simpa using hne
  · rfl

theorem listener_append (h : d.WellFormed) (l : Listener) :
    ∀ e ∈ d.listeners ++ [(d.nextListener, l)], e.1 < d.nextListener + 1 := by
  intro e he
  rcases List.mem_append.mp he with he | he
  · exact Nat.lt_succ_of_lt (h.listener e he)
  · obtain rfl := List.mem_singleton.mp he
    exact Nat.lt_succ_self _

theorem subscribe (h : d.WellFormed) : (d.subscribe .forward).2.WellFormed where
  sheets := h.sheets
  listener := h.listener_append _
  label label id hid := by
    obtain ⟨hlt, hnot⟩ := h.label label id hid
    refine ⟨Nat.lt_succ_of_lt hlt, fun hmem => ?_⟩
    rw [forwards_subscribe] at hmem
    rcases List.mem_append.mp hmem with hmem | hmem
    · exact hnot hmem
    · exact absurd (List.mem_singleton.mp hmem) (Nat.ne_of_lt hlt)

theorem watch (h : d.WellFormed) (label : String) (unsubscribes : Option String)
    (answer : Option DocumentAction) : (d.watch label unsubscribes answer).WellFormed where
  sheets := h.sheets
  listener := h.listener_append _
  label l id hid := by
    rw [forwards_watch]
    have hid : Keyed.get? l (d.labels.set label d.nextListener) = some id := hid
    rw [Keyed.get?_set] at hid
    split at hid
    · obtain rfl := Option.some.inj hid
      refine ⟨Nat.lt_succ_self _, fun hmem => ?_⟩
      exact absurd (h.lt_of_mem_forwards hmem) (Nat.lt_irrefl _)
    · obtain ⟨hlt, hnot⟩ := h.label l id hid
      exact ⟨Nat.lt_succ_of_lt hlt, hnot⟩

end WellFormed

/-! ## Telling -/

section Telling

variable {I : Document → Prop} {J : Delivery → Prop}
  {answer : DocumentAction → Document → Document × List Delivery} {e : ChangeEvent}

theorem react_keeps (hunsubscribe : ∀ d label, I d → I (d.unsubscribeLabel label))
    (hanswer : ∀ a d, I d → I (answer a d).1 ∧ ∀ t ∈ (answer a d).2, J t) (l : Listener)
    {d : Document} (hd : I d) :
    I (react answer e l d).1 ∧ ∀ t ∈ (react answer e l d).2, J t := by
  cases l with
  | forward => exact ⟨hd, by simp [react]⟩
  | watcher _ unsubscribes reaction =>
    have hd := hunsubscribe d unsubscribes hd
    simp only [react]
    split
    · exact hanswer _ _ hd
    · exact ⟨hd, by simp⟩

theorem deliver_keeps (hunsubscribe : ∀ d label, I d → I (d.unsubscribeLabel label))
    (hanswer : ∀ a d, I d → I (answer a d).1 ∧ ∀ t ∈ (answer a d).2, J t)
    {ls : List (Nat × Listener)} (hls : ∀ l ∈ ls, J ⟨l.1, l.2, e⟩) {d : Document} (hd : I d) :
    I (deliver answer e ls d).1 ∧ ∀ t ∈ (deliver answer e ls d).2, J t := by
  induction ls generalizing d with
  | nil => exact ⟨hd, by simp [deliver]⟩
  | cons l ls ih =>
    obtain ⟨hreact, hinner⟩ := react_keeps (e := e) hunsubscribe hanswer l.2 hd
    obtain ⟨hrest, hothers⟩ := ih (fun l hl => hls l (List.mem_cons_of_mem _ hl)) hreact
    refine ⟨hrest, fun t ht => ?_⟩
    rcases List.mem_cons.mp ht with rfl | ht
    · exact hls l List.mem_cons_self
    · rcases List.mem_append.mp ht with ht | ht
      · exact hinner t ht
      · exact hothers t ht

/-- What every change and every unsubscription keeps is kept by all that follows from an action, and
what holds of every listener at its time holds of all that was told. -/
theorem performWithin_keeps (hchange : ∀ d a, I d → I (d.change a).1)
    (hunsubscribe : ∀ d label, I d → I (d.unsubscribeLabel label))
    (htold : ∀ d id l e, I d → (id, l) ∈ d.listeners → J ⟨id, l, e⟩) (depth : Nat)
    (a : DocumentAction) {d : Document} (hd : I d) :
    I (performWithin depth a d).1 ∧ ∀ t ∈ (performWithin depth a d).2, J t := by
  -- an answer is an action one level further down
  induction depth generalizing a d with
  | zero => exact ⟨hchange d a hd, by simp [performWithin]⟩
  | succ depth ih =>
    unfold performWithin
    have hd := hchange d a hd
    split
    · next heq =>
      rw [heq] at hd
      exact ⟨hd, by simp⟩
    · next d' e heq =>
      rw [heq] at hd
      refine deliver_keeps hunsubscribe (fun a d hd => ih a hd) ?_ hd
      intro l hl
      exact htold d' l.1 l.2 e hd hl

/-- Where no one answers, each listener is told once. -/
theorem deliver_quiet (answer : DocumentAction → Document → Document × List Delivery)
    (hunsubscribe : ∀ d label, I d → I (d.unsubscribeLabel label))
    {ls : List (Nat × Listener)} (hls : e.source = .user → ∀ l ∈ ls, l.2.IsQuiet) {d : Document}
    (hd : I d) :
    I (deliver answer e ls d).1 ∧ (deliver answer e ls d).2 = ls.map fun l => ⟨l.1, l.2, e⟩ := by
  induction ls generalizing d with
  | nil => exact ⟨hd, rfl⟩
  | cons l ls ih =>
    -- only changes by a user are answered
    have hreact : I (react answer e l.2 d).1 ∧ (react answer e l.2 d).2 = [] := by
      obtain ⟨id, l⟩ := l
      cases l with
      | forward => exact ⟨hd, rfl⟩
      | watcher _ unsubscribes reaction =>
        have hd := hunsubscribe d unsubscribes hd
        simp only [react]
        split
        · next hsource =>
          have hquiet := hls hsource _ List.mem_cons_self
          simp [Listener.IsQuiet] at hquiet
        · exact ⟨hd, rfl⟩
    obtain ⟨hrest, hothers⟩ := ih (fun hs l hl => hls hs l (List.mem_cons_of_mem _ hl)) hreact.1
    refine ⟨hrest, ?_⟩
    rw [List.map_cons, ← hothers]
    simp [deliver, hreact.2]

end Telling

/-- Those who hand changes on stay, whatever is done and answered. -/
theorem WellFormed.perform {d : Document} (h : d.WellFormed) (a : DocumentAction) :
    (d.perform a).1.WellFormed ∧ (d.perform a).1.forwards = d.forwards := by
  refine (performWithin_keeps (I := fun e => e.WellFormed ∧ e.forwards = d.forwards)
    (J := fun _ => True) ?_ ?_ ?_ _ a ⟨h, rfl⟩).1
  · rintro e a ⟨he, hf⟩
    exact ⟨he.change a, (forwards_change e a).trans hf⟩
  · rintro e label ⟨he, hf⟩
    exact ⟨he.unsubscribeLabel label, (he.forwards_unsubscribeLabel label).trans hf⟩
  · exact fun _ _ _ _ _ _ => trivial

/-- Without anyone who hands changes on, nothing is handed on. -/
theorem WellFormed.not_forward_of_told {d : Document} (h : d.WellFormed) (hnone : d.forwards = [])
    (a : DocumentAction) : ∀ t ∈ (d.perform a).2, t.listener ≠ .forward := by
  refine (performWithin_keeps (I := fun e => e.WellFormed ∧ e.forwards = [])
    (J := fun t => t.listener ≠ .forward) ?_ ?_ ?_ _ a ⟨h, hnone⟩).2
  · rintro e a ⟨he, hf⟩
    exact ⟨he.change a, (forwards_change e a).trans hf⟩
  · rintro e label ⟨he, hf⟩
    exact ⟨he.unsubscribeLabel label, (he.forwards_unsubscribeLabel label).trans hf⟩
  · rintro e id l event ⟨-, hf⟩ hmem rfl
    have : id ∈ e.forwards := mem_forwards.mpr hmem
    rw [hf] at this
    exact List.not_mem_nil this

/-- Where no one answers, all that unsubscriptions keep is as the change made it, and each listener
is told of the change once. -/
theorem perform_quiet_keeps {I : Document → Prop}
    (hunsubscribe : ∀ d label, I d → I (d.unsubscribeLabel label)) {d : Document}
    {a : DocumentAction}
    (hquiet : ∀ e, (d.change a).2 = some e → e.source = .user → ∀ l ∈ d.listeners, l.2.IsQuiet)
    (hd : I (d.change a).1) :
    I (d.perform a).1 ∧ (d.perform a).2 =
      ((d.change a).2.map fun e => d.listeners.map fun l => ⟨l.1, l.2, e⟩).getD [] := by
  have hsame := listeners_change d a
  unfold perform performWithin
  -- the change is all that matters, so it may be any pair
  generalize d.change a = c at hquiet hd hsame ⊢
  obtain ⟨d', e⟩ := c
  cases e with
  | none => exact ⟨hd, rfl⟩
  | some e =>
    -- a change leaves the listeners as they are, so those told now were there before
    have hls : e.source = .user → ∀ l ∈ d'.listeners, l.2.IsQuiet := by
      intro hs l hl
      exact hquiet e rfl hs l (hsame ▸ hl)
    obtain ⟨hkept, htold⟩ := deliver_quiet (performWithin d.answerDepth) hunsubscribe hls hd
    refine ⟨hkept, ?_⟩
    rw [htold, hsame]
    rfl

/-- Where no one answers, the content is what the change made of it, and each listener is told of
the change once. -/
theorem perform_quiet {d : Document} {a : DocumentAction}
    (hquiet : ∀ e, (d.change a).2 = some e → e.source = .user → ∀ l ∈ d.listeners, l.2.IsQuiet) :
    (d.perform a).1.sheets = (d.change a).1.sheets ∧
      (∀ l ∈ (d.perform a).1.listeners, l ∈ d.listeners) ∧
      (d.perform a).2 =
        ((d.change a).2.map fun e => d.listeners.map fun l => ⟨l.1, l.2, e⟩).getD [] := by
  have hunsubscribe : ∀ (x : Document) label,
      (x.sheets = (d.change a).1.sheets ∧ ∀ l ∈ x.listeners, l ∈ d.listeners) →
      (x.unsubscribeLabel label).sheets = (d.change a).1.sheets ∧
        ∀ l ∈ (x.unsubscribeLabel label).listeners, l ∈ d.listeners := by
    intro x label hx
    unfold unsubscribeLabel
    split
    · exact ⟨hx.1, fun l hl => hx.2 l (List.mem_of_mem_filter hl)⟩
    · exact hx
  obtain ⟨⟨hsheets, hlisteners⟩, htold⟩ := perform_quiet_keeps hunsubscribe hquiet ⟨rfl, by simp⟩
  exact ⟨hsheets, hlisteners, htold⟩

end Document

end SheetSync
