import SheetSync.Proofs.Document
/-!
Answers to answers. A listener that answers a change makes another one while the first is still
being told, and that may go on for ever. `Unfolds` says how an action comes to its end, together
with the changes in the order in which they are made; a chain of answers that does not end has no
such course.

Main statement: `Unfolds.perform_eq`. Wherever an action comes to an end at all, the depth that
`perform` grants is enough: a listener that answers twice in a chain, with no one unsubscribed in
between, answers for ever. Where no one answers by a user's change, every action comes to an end.
-/
namespace SheetSync

namespace DocumentAction

/-- The source of the change that an action makes, if it makes any. -/
def source? : DocumentAction → Option ChangeSource
  | edit _ _ [] => none
  | edit source _ _ => some source
  | load _ => some .load
  | markSaved => none

end DocumentAction

namespace Listener

/-- The action by which a change from somewhere is answered. -/
def answer? (source : ChangeSource) : Listener → Option DocumentAction
  | forward => none
  | watcher _ _ reaction => if source = .user then reaction else none

/-- The label whose bearer is unsubscribed whenever a change is told. -/
def unsubscribes? : Listener → Option String
  | forward => none
  | watcher _ unsubscribes _ => unsubscribes

/-- Whether no answer is itself a user's change. -/
def AnswersForOthers (l : Listener) : Prop :=
  ∀ a, l.answer? .user = some a → a.source? ≠ some .user

theorem answer?_eq_none_of_ne {source : ChangeSource} (h : source ≠ .user) (l : Listener) :
    l.answer? source = none := by
  cases l with
  | forward => rfl
  | watcher => exact if_neg h

theorem IsQuiet.answer? {l : Listener} (h : l.IsQuiet) (source : ChangeSource) :
    l.answer? source = none := by
  cases l with
  | forward => rfl
  | watcher _ _ reaction =>
    obtain rfl : reaction = none := h
    exact ite_self none

end Listener

namespace Document

/-- The document when a listener was told, before any answer. -/
def leave (d : Document) (l : Listener) : Document := d.unsubscribeLabel l.unsubscribes?

theorem react_eq (answer : DocumentAction → Document → Document × List Delivery) (e : ChangeEvent)
    (l : Listener) (d : Document) :
    react answer e l d =
      match l.answer? e.source with
      | some a => answer a (d.leave l)
      | none => (d.leave l, []) := by
  cases l with
  | forward => rfl
  | watcher label unsubscribes reaction =>
    cases reaction with
    | none =>
      rw [Listener.answer?, ite_self]
      cases h : e.source <;> simp only [react, h] <;> rfl
    | some a => cases h : e.source <;> simp only [react, h] <;> rfl

theorem source_change (d : Document) (a : DocumentAction) :
    (d.change a).2.map (·.source) = a.source? := by
  cases a with
  | edit source sheet cells => cases cases : cells <;> rfl
  | load s => rfl
  | markSaved => rfl

/-- What changes are made does not depend on the content, as far as their source goes. -/
theorem source_change_congr (d f : Document) (a : DocumentAction) :
    (d.change a).2.map (·.source) = (f.change a).2.map (·.source) :=
  (d.source_change a).trans (f.source_change a).symm

/-! ## How actions unfold -/

/-- What there is to be done: an action, or to tell a change to some listeners. -/
inductive Task where
  | act (a : DocumentAction)
  | tell (e : ChangeEvent) (ls : List (Nat × Listener))

/-- A document comes through a task, with answers to answers down to a depth: what it is afterwards,
the changes in the order in which they are made, and all that is told in the order of the
telling. -/
inductive Unfolds : Nat → Task → Document → Document → List ChangeEvent → List Delivery → Prop
  | silent {n : Nat} {a : DocumentAction} {d : Document} (h : (d.change a).2 = none) :
    Unfolds n (.act a) d (d.change a).1 [] []
  | change {n : Nat} {a : DocumentAction} {d d' : Document} {e : ChangeEvent}
      {es : List ChangeEvent} {ts : List Delivery} (h : (d.change a).2 = some e)
      (htell : Unfolds n (.tell e d.listeners) (d.change a).1 d' es ts) :
    Unfolds (n + 1) (.act a) d d' (e :: es) ts
  | told {n : Nat} {e : ChangeEvent} {d : Document} : Unfolds n (.tell e []) d d [] []
  | listens {n : Nat} {e : ChangeEvent} {k : Nat × Listener} {ls : List (Nat × Listener)}
      {d d' : Document} {es : List ChangeEvent} {ts : List Delivery}
      (h : k.2.answer? e.source = none) (hrest : Unfolds n (.tell e ls) (d.leave k.2) d' es ts) :
    Unfolds n (.tell e (k :: ls)) d d' es (⟨k.1, k.2, e⟩ :: ts)
  | answers {n : Nat} {e : ChangeEvent} {k : Nat × Listener} {ls : List (Nat × Listener)}
      {a : DocumentAction} {d d₁ d' : Document} {es₁ es : List ChangeEvent} {ts₁ ts : List Delivery}
      (h : k.2.answer? e.source = some a)
      (hanswer : Unfolds n (.act a) (d.leave k.2) d₁ es₁ ts₁)
      (hrest : Unfolds n (.tell e ls) d₁ d' es ts) :
    Unfolds n (.tell e (k :: ls)) d d' (es₁ ++ es) (⟨k.1, k.2, e⟩ :: (ts₁ ++ ts))

/-- What becomes of a task at a depth. -/
def Task.run (n : Nat) (d : Document) : Task → Document × List Delivery
  | act a => performWithin n a d
  | tell e ls => deliver (performWithin n) e ls d

namespace Unfolds

variable {n m : Nat} {t u : Task} {d d' f f' : Document} {es es' : List ChangeEvent}
  {ts ts' : List Delivery}

theorem run_eq (h : Unfolds n t d d' es ts) : t.run n d = (d', ts) := by
  induction h with
  | @silent n a d hnone =>
    cases n with
    | zero => rfl
    | succ n =>
      rw [Task.run, performWithin]
      generalize d.change a = c at hnone ⊢
      obtain ⟨d', e⟩ := c
      obtain rfl : e = none := hnone
      rfl
  | @change n a d d' e es ts he htell ih =>
    rw [← listeners_change d a] at ih
    rw [Task.run, performWithin]
    generalize d.change a = c at he ih ⊢
    obtain ⟨d₁, e'⟩ := c
    obtain rfl : e' = some e := he
    exact ih
  | told => rfl
  | @listens n e k ls d d' es ts hnone hrest ih =>
    have hdeliver : deliver (performWithin n) e ls (d.leave k.2) = (d', ts) := ih
    rw [Task.run, deliver, react_eq, hnone]
    simp [hdeliver]
  | @answers n e k ls a d d₁ d' es₁ es ts₁ ts hsome hanswer hrest ihanswer ihrest =>
    have hperform : performWithin n a (d.leave k.2) = (d₁, ts₁) := ihanswer
    have hdeliver : deliver (performWithin n) e ls d₁ = (d', ts) := ihrest
    rw [Task.run, deliver, react_eq, hsome]
    simp [hperform, hdeliver]

theorem mono (h : Unfolds n t d d' es ts) (hm : n ≤ m) : Unfolds m t d d' es ts := by
  induction h generalizing m with
  | silent hnone => exact .silent hnone
  | change he _ ih =>
    obtain ⟨m, rfl⟩ := Nat.exists_eq_add_one_of_ne_zero (Nat.ne_of_gt (Nat.lt_of_lt_of_le
      (Nat.succ_pos _) hm))
    exact .change he (ih (Nat.le_of_succ_le_succ hm))
  | told => exact .told
  | listens hnone _ ih => exact .listens hnone (ih hm)
  | answers hsome _ _ ihanswer ihrest => exact .answers hsome (ihanswer hm) (ihrest hm)

/-- A part of the listeners is told first. -/
theorem append {e : ChangeEvent} {ls ms : List (Nat × Listener)}
    (h : Unfolds n (.tell e ls) d d' es ts) (h' : Unfolds n (.tell e ms) d' f es' ts') :
    Unfolds n (.tell e (ls ++ ms)) d f (es ++ es') (ts ++ ts') := by
  induction ls generalizing d es ts with
  | nil =>
    cases h
    exact h'
  | cons k ls ih =>
    cases h with
    | listens hnone hrest => exact .listens hnone (ih hrest)
    | answers hsome hanswer hrest =>
      simp only [List.append_assoc, List.cons_append]
      exact .answers hsome hanswer (ih hrest)

theorem exists_of_append {e : ChangeEvent} {ls ms : List (Nat × Listener)}
    (h : Unfolds n (.tell e (ls ++ ms)) d f es ts) :
    ∃ d' es₁ ts₁ es₂ ts₂, Unfolds n (.tell e ls) d d' es₁ ts₁ ∧
      Unfolds n (.tell e ms) d' f es₂ ts₂ := by
  induction ls generalizing d es ts with
  | nil => exact ⟨d, [], [], es, ts, .told, h⟩
  | cons k ls ih =>
    cases h with
    | listens hnone hrest =>
      obtain ⟨d', es₁, ts₁, es₂, ts₂, h₁, h₂⟩ := ih hrest
      exact ⟨d', _, _, es₂, ts₂, .listens hnone h₁, h₂⟩
    | answers hsome hanswer hrest =>
      obtain ⟨d', es₁, ts₁, es₂, ts₂, h₁, h₂⟩ := ih hrest
      exact ⟨d', _, _, es₂, ts₂, .answers hsome hanswer h₁, h₂⟩

end Unfolds

/-! ## What answers depend on -/

/-- The listeners and what their labels mean. -/
def frame (d : Document) : List (Nat × Listener) × Keyed Nat := (d.listeners, d.labels)

@[simp] theorem frame_change (d : Document) (a : DocumentAction) : (d.change a).1.frame = d.frame := by
  unfold change
  split <;> rfl

/-- The listeners that are left when a label's bearer is unsubscribed. -/
theorem frame_leave (d : Document) (l : Listener) :
    (d.leave l).frame =
      (match l.unsubscribes?.bind d.labels.get? with
        | some id => d.listeners.filter (·.1 ≠ id)
        | none => d.listeners, d.labels) := by
  unfold leave unsubscribeLabel
  cases l.unsubscribes?.bind d.labels.get? <;> rfl

theorem frame_leave_congr {d f : Document} (h : d.frame = f.frame) (l : Listener) :
    (d.leave l).frame = (f.leave l).frame := by
  obtain ⟨hlisteners, hlabels⟩ := Prod.mk.inj h
  rw [frame_leave, frame_leave, hlisteners, hlabels]

theorem sublist_listeners_unsubscribeLabel (d : Document) (label : Option String) :
    (d.unsubscribeLabel label).listeners.Sublist d.listeners := by
  unfold unsubscribeLabel
  split
  · exact List.filter_sublist
  · exact .refl _

theorem sublist_listeners_leave (d : Document) (l : Listener) :
    (d.leave l).listeners.Sublist d.listeners := sublist_listeners_unsubscribeLabel d l.unsubscribes?

/-- Tasks that go the same way: the same action, or changes from the same source told to the same
listeners. -/
inductive Task.Like : Task → Task → Prop
  | act (a : DocumentAction) : Like (.act a) (.act a)
  | tell {e f : ChangeEvent} (h : e.source = f.source) (ls : List (Nat × Listener)) :
    Like (.tell e ls) (.tell f ls)

namespace Unfolds

variable {n m : Nat} {t u : Task} {d d' f f' : Document} {es es' : List ChangeEvent}
  {ts ts' : List Delivery}

theorem sublist_listeners (h : Unfolds n t d d' es ts) : d'.listeners.Sublist d.listeners := by
  induction h with
  | silent => simp
  | change _ _ ih => simpa using ih
  | told => exact .refl _
  | listens _ _ ih => exact ih.trans (sublist_listeners_leave _ _)
  | answers _ _ _ ihanswer ihrest =>
    exact (ihrest.trans ihanswer).trans (sublist_listeners_leave _ _)

/-- What becomes of the listeners does not depend on the content. -/
theorem frame_eq (h : Unfolds n t d d' es ts) (h' : Unfolds m u f f' es' ts') (hlike : t.Like u)
    (hframe : d.frame = f.frame) : d'.frame = f'.frame := by
  induction h generalizing m u f f' es' ts' with
  | @silent n a d hnone =>
    cases hlike
    cases h' with
    | silent => rw [frame_change, frame_change, hframe]
    | change hsome' =>
      have hsource := d.source_change_congr f a
      rw [hnone, hsome'] at hsource
      cases hsource
  | @change n a d d' e es ts hsome htell ih =>
    cases hlike
    have hsource := d.source_change_congr f a
    cases h' with
    | silent hnone' =>
      rw [hsome, hnone'] at hsource
      cases hsource
    | change hsome' htell' =>
      rw [hsome, hsome'] at hsource
      have hlisteners : d.listeners = f.listeners := congrArg Prod.fst hframe
      refine ih htell' (hlisteners ▸ .tell (Option.some.inj hsource) _) ?_
      rw [frame_change, frame_change, hframe]
  | told =>
    cases hlike
    cases h'
    exact hframe
  | listens hnone _ ih =>
    obtain - | ⟨hsource, -⟩ := hlike
    cases h' with
    | listens _ hrest' => exact ih hrest' (.tell hsource _) (frame_leave_congr hframe _)
    | answers hsome' =>
      rw [hsource, hsome'] at hnone
      cases hnone
  | answers hsome _ _ ihanswer ihrest =>
    obtain - | ⟨hsource, -⟩ := hlike
    cases h' with
    | listens hnone' =>
      rw [hsource, hnone'] at hsome
      cases hsome
    | answers hsome' hanswer' hrest' =>
      rw [hsource, hsome'] at hsome
      obtain rfl := Option.some.inj hsome
      have hinner := ihanswer hanswer' (.act _) (frame_leave_congr hframe _)
      exact ihrest hrest' (.tell hsource _) hinner

theorem labels_eq (h : Unfolds n t d d' es ts) : d'.labels = d.labels := by
  have hchange : ∀ (d : Document) a, (d.change a).1.labels = d.labels := fun d a =>
    congrArg Prod.snd (d.frame_change a)
  have hleave : ∀ (d : Document) l, (d.leave l).labels = d.labels := fun d l =>
    congrArg Prod.snd (d.frame_leave l)
  induction h with
  | silent => exact hchange _ _
  | change _ _ ih => exact ih.trans (hchange _ _)
  | told => rfl
  | listens _ _ ih => exact ih.trans (hleave _ _)
  | answers _ _ _ ihanswer ihrest => exact (ihrest.trans ihanswer).trans (hleave _ _)

/-! ## The depth of answers -/

/-- Only a user's change is answered. -/
theorem unanswered {e : ChangeEvent} {ls : List (Nat × Listener)}
    (h : Unfolds n (.tell e ls) d d' es ts) (he : e.source ≠ .user) :
    Unfolds 0 (.tell e ls) d d' es ts := by
  induction ls generalizing d es ts with
  | nil =>
    cases h
    exact .told
  | cons k ls ih =>
    have hnone := Listener.answer?_eq_none_of_ne he k.2
    cases h with
    | listens _ hrest => exact .listens hnone (ih hrest)
    | answers hsome =>
      rw [hnone] at hsome
      cases hsome

theorem act_unanswered {a : DocumentAction} (h : Unfolds n (.act a) d d' es ts)
    (ha : a.source? ≠ some .user) : Unfolds 1 (.act a) d d' es ts := by
  cases h with
  | silent hnone => exact .silent hnone
  | change hsome htell =>
    refine .change hsome (htell.unanswered fun he => ha ?_)
    rw [← d.source_change a, hsome, ← he]
    rfl

/-- An action that makes a change takes one level of depth to tell it. -/
theorem exists_tell {a : DocumentAction} {source : ChangeSource} (h : Unfolds n (.act a) d d' es ts)
    (ha : a.source? = some source) : ∃ m e es', n = m + 1 ∧ e.source = source ∧
      Unfolds m (.tell e d.listeners) (d.change a).1 d' es' ts := by
  have hsource := d.source_change a
  rw [ha] at hsource
  cases h with
  | silent hnone =>
    rw [hnone] at hsource
    cases hsource
  | change hsome htell =>
    rw [hsome] at hsource
    exact ⟨_, _, _, rfl, Option.some.inj hsource, htell⟩

/-- An answer that comes round to the same listeners goes on for ever. -/
theorem not_of_round {φ : List (Nat × Listener) × Keyed Nat} {pre post : List (Nat × Listener)}
    {k : Nat × Listener} {a : DocumentAction} (hφ : φ.1 = pre ++ k :: post)
    (hk : k.2.answer? .user = some a) (ha : a.source? = some .user)
    (hround : ∀ n e d d' es ts, e.source = .user → d.frame = φ →
      Unfolds n (.tell e pre) d d' es ts → (d'.leave k.2).frame = φ)
    (hd : d.frame = φ) : ¬ Unfolds n (.act a) d d' es ts := by
  induction n generalizing d d' es ts with
  | zero =>
    intro h
    obtain ⟨_, _, _, hdepth, -⟩ := h.exists_tell ha
    cases hdepth
  | succ n ih =>
    intro h
    obtain ⟨n, e, es, ⟨⟩, he, htell⟩ := h.exists_tell ha
    rw [show d.listeners = pre ++ k :: post from (congrArg Prod.fst hd).trans hφ] at htell
    obtain ⟨d₂, _, _, _, _, hpre, hrest⟩ := htell.exists_of_append
    have hframe : (d₂.leave k.2).frame = φ :=
      hround _ _ _ _ _ _ he ((d.frame_change a).trans hd) hpre
    cases hrest with
    | listens hnone =>
      rw [he, hk] at hnone
      cases hnone
    | answers hanswer hinner =>
      rw [he, hk] at hanswer
      obtain rfl := Option.some.inj hanswer
      exact ih hframe hinner

/-- A user's change is told to the listeners that are there within a depth one above their number,
if answers with fewer listeners keep within theirs. -/
theorem tell_within {e : ChangeEvent} (he : e.source = .user) {pre ls : List (Nat × Listener)}
    {d₀ : Document} {es₀ : List ChangeEvent} {ts₀ : List Delivery} (hls : d₀.listeners = pre ++ ls)
    (hact : ∀ a d d' es ts, Unfolds n (.act a) d d' es ts →
      Unfolds (d.listeners.length + 2) (.act a) d d' es ts)
    (hpre : Unfolds n (.tell e pre) d₀ d es₀ ts₀) (h : Unfolds n (.tell e ls) d d' es ts) :
    Unfolds (d₀.listeners.length + 1) (.tell e ls) d d' es ts := by
  -- on the listeners left; what was told to those before says where the listeners have come to
  induction ls generalizing pre d es ts es₀ ts₀ with
  | nil =>
    cases h
    exact .told
  | cons k ls ih =>
    have hls' : d₀.listeners = (pre ++ [k]) ++ ls := by
      rw [hls, List.append_assoc]
      rfl
    cases h with
    | listens hnone hrest =>
      exact .listens hnone (ih hls' (hpre.append (.listens hnone .told)) hrest)
    | @answers _ _ _ _ a _ d₁ _ es₁ _ ts₁ _ hsome hanswer hrest =>
      refine .answers hsome ?_ (ih hls' (hpre.append (.answers hsome hanswer .told)) hrest)
      have hsub : (d.leave k.2).listeners.Sublist d₀.listeners :=
        (sublist_listeners_leave d k.2).trans hpre.sublist_listeners
      by_cases hfewer : (d.leave k.2).listeners.length < d₀.listeners.length
      · exact (hact _ _ _ _ _ hanswer).mono (by omega)
      · by_cases ha : a.source? = some .user
        · -- no one is gone, so the answer comes round
          have hframe : (d.leave k.2).frame = d₀.frame := by
            refine Prod.ext (hsub.eq_of_length_le (Nat.le_of_not_lt hfewer)) ?_
            exact (congrArg Prod.snd (d.frame_leave k.2)).trans hpre.labels_eq
          rw [he] at hsome
          refine absurd hanswer (not_of_round hls hsome ha ?_ hframe)
          intro m f c c' es' ts' hf hc htell
          have hsame : c'.frame = d.frame := htell.frame_eq hpre (.tell (hf.trans he.symm) _) hc
          rw [frame_leave_congr hsame, hframe]
        · exact (hanswer.act_unanswered ha).mono (by omega)

/-- An action that comes to an end does so within a depth that the number of listeners bounds. -/
theorem act_within {a : DocumentAction} (h : Unfolds n (.act a) d d' es ts) :
    Unfolds (d.listeners.length + 2) (.act a) d d' es ts := by
  induction n generalizing a d d' es ts with
  | zero =>
    cases h with
    | silent hnone => exact .silent hnone
  | succ n ih =>
    cases h with
    | silent hnone => exact .silent hnone
    | @change _ _ _ _ e es ts hsome htell =>
      refine .change hsome ?_
      by_cases he : e.source = .user
      · have hls : (d.change a).1.listeners = [] ++ d.listeners := d.listeners_change a
        have hwithin := tell_within he hls (fun _ _ _ _ _ h => ih h) .told htell
        rwa [d.listeners_change a] at hwithin
      · exact (htell.unanswered he).mono (Nat.zero_le _)

/-- What becomes of an action that comes to an end. -/
theorem perform_eq {a : DocumentAction} (h : Unfolds n (.act a) d d' es ts) :
    d.perform a = (d', ts) := by
  refine (h.act_within.mono ?_).run_eq
  show d.listeners.length + 2 ≤ (d.listeners.length + 1) * (d.listeners.length + 1) + 1
  have := Nat.le_mul_self (d.listeners.length + 1)
  omega

end Unfolds

/-! ## Actions that come to an end -/

theorem exists_unfolds_tell_unanswered {e : ChangeEvent} (he : e.source ≠ .user)
    (ls : List (Nat × Listener)) (d : Document) :
    ∃ d' ts, Unfolds 0 (.tell e ls) d d' [] ts := by
  induction ls generalizing d with
  | nil => exact ⟨_, _, .told⟩
  | cons k ls ih =>
    obtain ⟨d', ts, hrest⟩ := ih (d.leave k.2)
    exact ⟨d', _, .listens (Listener.answer?_eq_none_of_ne he k.2) hrest⟩

theorem exists_unfolds_act_unanswered {a : DocumentAction} (ha : a.source? ≠ some .user)
    (d : Document) : ∃ d' es ts, Unfolds 1 (.act a) d d' es ts := by
  have hsource := d.source_change a
  cases hchange : (d.change a).2 with
  | none => exact ⟨_, _, _, .silent hchange⟩
  | some e =>
    rw [hchange] at hsource
    have he : e.source ≠ .user := fun he => ha (hsource ▸ congrArg some he)
    obtain ⟨d', ts, htell⟩ := exists_unfolds_tell_unanswered he d.listeners (d.change a).1
    exact ⟨d', _, ts, .change hchange htell⟩

theorem exists_unfolds_tell (e : ChangeEvent) {ls : List (Nat × Listener)}
    (hls : ∀ k ∈ ls, k.2.AnswersForOthers) (d : Document) :
    ∃ d' es ts, Unfolds 1 (.tell e ls) d d' es ts := by
  induction ls generalizing d with
  | nil => exact ⟨_, _, _, .told⟩
  | cons k ls ih =>
    have ih := ih fun k' hk' => hls k' (List.mem_cons_of_mem k hk')
    cases hanswer : k.2.answer? e.source with
    | none =>
      obtain ⟨d', es, ts, hrest⟩ := ih (d.leave k.2)
      exact ⟨d', es, _, .listens hanswer hrest⟩
    | some a =>
      have he : e.source = .user := by
        by_contra he
        rw [Listener.answer?_eq_none_of_ne he] at hanswer
        cases hanswer
      have ha : a.source? ≠ some .user := hls k List.mem_cons_self a (he ▸ hanswer)
      obtain ⟨d₁, es₁, ts₁, hinner⟩ := exists_unfolds_act_unanswered ha (d.leave k.2)
      obtain ⟨d', es, ts, hrest⟩ := ih d₁
      exact ⟨d', _, _, .answers hanswer hinner hrest⟩

/-- Where no listener answers by a user's change, every action comes to an end. -/
theorem exists_unfolds {d : Document} (hd : ∀ k ∈ d.listeners, k.2.AnswersForOthers)
    (a : DocumentAction) : ∃ d' es ts, Unfolds 2 (.act a) d d' es ts := by
  cases hchange : (d.change a).2 with
  | none => exact ⟨_, _, _, .silent hchange⟩
  | some e =>
    obtain ⟨d', es, ts, htell⟩ := exists_unfolds_tell e hd (d.change a).1
    exact ⟨d', _, ts, .change hchange htell⟩

end Document

end SheetSync
