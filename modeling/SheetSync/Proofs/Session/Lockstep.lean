import SheetSync.Proofs.Session.Gist
/-!
Steps of two sessions at once. Two steps that start in sessions of one gist end in sessions of one
gist, with one result or one error: `Lockstep`, with a rule for each way to put steps together. Main
statements: `lockstep_settle`, by which it does not matter how often each session gives way, and
`lockstep_conclude`, for the end of the work on a workbook.
-/
namespace SheetSync.Session

variable {α β δ ζ : Type} {s t : Session} {x : Option Nat}

/-! ## Two steps at once -/

/-- However two steps end, each in a session of its own, `post` holds of both ends. -/
def Pairs (m : SessionM α) (n : SessionM β) (s t : Session)
    (post : Except SyncError α → Session → Except SyncError β → Session → Prop) : Prop :=
  Achieves Paced m s () fun r u _ => Achieves Paced n t () fun r' v _ => post r u r' v

/-- Whether two steps both succeeded, with results and states that are related, or both failed, with
one error and states that are related. -/
def Ends (R : α → β → Prop) (J K : Session → Session → Prop) :
    Except SyncError α → Session → Except SyncError β → Session → Prop
  | .ok a, u, .ok b, v => R a b ∧ J u v
  | .error e, u, .error e', v => e = e' ∧ K u v
  | _, _, _, _ => False

/-- Whether two steps that start in related states end alike: with results that `R` relates in
states that `J` relates, or with one error in states that `K` relates. -/
def Lockstep (I : Session → Session → Prop) (m : SessionM α) (n : SessionM β) (R : α → β → Prop)
    (J K : Session → Session → Prop) : Prop :=
  ∀ s t, I s t → Pairs m n s t (Ends R J K)

section Rules

variable {post : Except SyncError α → Session → Except SyncError β → Session → Prop}
  {I J J' K K' : Session → Session → Prop} {R : α → β → Prop} {S : δ → ζ → Prop}
  {m : SessionM α} {n : SessionM β}

theorem pairs_get {f : Session → SessionM α} {g : Session → SessionM β} :
    Pairs (get >>= f) (get >>= g) s t post ↔ Pairs (f s) (g t) s t post := by
  simp only [Pairs, achieves_bind, achieves_get]

theorem pairs_set {u v : Session}
    {post : Except SyncError PUnit → Session → Except SyncError PUnit → Session → Prop} :
    Pairs (set u) (set v) s t post ↔ post (.ok ⟨⟩) u (.ok ⟨⟩) v := by
  simp only [Pairs, achieves_set]

theorem pairs_set_bind {u v : Session} {f : PUnit → SessionM α} {g : PUnit → SessionM β} :
    Pairs (set u >>= f) (set v >>= g) s t post ↔ Pairs (f ⟨⟩) (g ⟨⟩) u v post := by
  simp only [Pairs, achieves_bind, achieves_set]

theorem Ends.imp {r : Except SyncError α} {r' : Except SyncError β} {u v u' v' : Session}
    (h : Ends R J K r u r' v) (hJ : J u v → J' u' v') (hK : K u v → K' u' v') :
    Ends R J' K' r u' r' v' := by
  rcases r with e | a <;> rcases r' with e' | b
  · exact ⟨h.1, hK h.2⟩
  · exact h
  · exact h
  · exact ⟨h.1, hJ h.2⟩

namespace Lockstep

theorem pure {a : α} {b : β} (hR : R a b) : Lockstep J (pure a) (pure b) R J K :=
  fun _ _ h => (achieves_pure a).mpr ((achieves_pure b).mpr ⟨hR, h⟩)

theorem throw (e : SyncError) : Lockstep K (throw e : SessionM α) (throw e : SessionM β) R J K :=
  fun _ _ h => (achieves_throw e).mpr ((achieves_throw e).mpr ⟨rfl, h⟩)

theorem modify {f g : Session → Session} (h : ∀ s t, I s t → J (f s) (g t)) :
    Lockstep I (modify f) (modify g) Eq J K :=
  fun s t hI => (achieves_modify f).mpr ((achieves_modify g).mpr ⟨rfl, h s t hI⟩)

theorem bind {f : α → SessionM δ} {g : β → SessionM ζ} (h : Lockstep I m n R J K)
    (hf : ∀ a b, R a b → Lockstep J (f a) (g b) S J' K) :
    Lockstep I (m >>= f) (n >>= g) S J' K := by
  intro s t hI
  refine achieves_bind.mpr (Achieves.imp (h s t hI) ?_)
  -- the first step ends before it is known how the other one does
  rintro (e | a) u _ hn
  · refine achieves_bind.mpr (Achieves.imp hn ?_)
    rintro (e' | b) v _ hends
    · exact hends
    · exact hends.elim
  · intro r u' _ hr
    refine achieves_bind.mpr (Achieves.imp hn ?_)
    rintro (e' | b) v _ hends
    · exact hends.elim
    · exact hf a b hends.1 u v hends.2 r u' () hr

theorem tryCatch {m' : SyncError → SessionM α} {n' : SyncError → SessionM β}
    (h : Lockstep I m n R J K) (hf : ∀ e, Lockstep K (m' e) (n' e) R J K') :
    Lockstep I (tryCatch m m') (tryCatch n n') R J K' := by
  intro s t hI
  refine achieves_tryCatch.mpr (Achieves.imp (h s t hI) ?_)
  rintro (e | a) u _ hn
  · intro r u' _ hr
    refine achieves_tryCatch.mpr (Achieves.imp hn ?_)
    rintro (e' | b) v _ hends
    · obtain ⟨rfl, hends⟩ := hends
      exact hf e u v hends r u' () hr
    · exact hends.elim
  · refine achieves_tryCatch.mpr (Achieves.imp hn ?_)
    rintro (e' | b) v _ hends
    · exact hends.elim
    · exact hends

theorem imp (h : Lockstep I m n R J K) (hJ : ∀ {u v}, J u v → J' u v)
    (hK : ∀ {u v}, K u v → K' u v) : Lockstep I m n R J' K' :=
  fun s t hI => Achieves.imp (h s t hI) fun _ _ _ hn => Achieves.imp hn fun _ _ _ hends =>
    hends.imp hJ hK

/-- Steps that each end as they do whatever the other one does. -/
theorem of_achieves {P : Session → Except SyncError α → Session → Prop}
    {Q : Session → Except SyncError β → Session → Prop}
    (hm : ∀ s t, I s t → Achieves Paced m s () fun r u _ => P s r u)
    (hn : ∀ s t, I s t → Achieves Paced n t () fun r v _ => Q t r v)
    (h : ∀ s t r u r' v, I s t → P s r u → Q t r' v → Ends R J K r u r' v) :
    Lockstep I m n R J K :=
  fun s t hI => (hm s t hI).imp fun r u _ hu => (hn s t hI).imp fun r' v _ hv =>
    h s t r u r' v hI hu hv

end Lockstep

end Rules

/-! ## Single steps -/

section Steps

variable {K : Session → Session → Prop}

theorem Alike.withPhase (h : Alike x s t) (p : Phase) :
    Alike x { s with phase := p } { t with phase := p } :=
  h.congr ⟨rfl, rfl⟩ ⟨rfl, rfl⟩ (congrArg (fun g : Gist => { g with phase := p }) h.gist)

theorem Alike.withPrompts (h : Alike x s t) (prompts : Prompts) :
    Alike x { s with prompts } { t with prompts } :=
  h.congr ⟨rfl, rfl⟩ ⟨rfl, rfl⟩ (congrArg (fun g : Gist => { g with prompts }) h.gist)

theorem Alike.withBusy (h : Alike x s t) (isBusy : Bool) :
    Alike x { s with isBusy } { t with isBusy } :=
  h.congr ⟨rfl, rfl⟩ ⟨rfl, rfl⟩ (congrArg (fun g : Gist => { g with isBusy }) h.gist)

/-- A phase is allowed in both sessions or in neither. -/
theorem lockstep_advance_of {I : Session → Session → Prop} (p : Phase)
    (hphase : ∀ {s t}, I s t → s.phase = t.phase)
    (hI : ∀ {s t}, I s t → I { s with phase := p } { t with phase := p }) :
    Lockstep I (advance p) (advance p) Eq I I := by
  intro s t h
  refine pairs_get.mpr ?_
  rw [hphase h]
  by_cases hp : t.phase.Permits p
  · rw [if_pos hp, if_pos hp]
    exact pairs_set.mpr ⟨rfl, hI h⟩
  · rw [if_neg hp, if_neg hp]
    exact Lockstep.throw _ s t h

theorem lockstep_advance (p : Phase) :
    Lockstep (Alike x) (advance p) (advance p) Eq (Alike x) (Alike x) :=
  lockstep_advance_of p (fun h => h.phase) fun h => h.withPhase p

theorem lockstep_perform (a : DocumentAction) :
    Lockstep (Alike x) (perform a) (perform a) Eq (Alike x) K := .modify fun _ _ h => h.perform a

/-- Sessions of one gist, whatever listener they keep. -/
def Likes (s t : Session) : Prop := ∃ x, Alike x s t

theorem Lockstep.likes {m : SessionM α} {n : SessionM β} {R : α → β → Prop}
    {J : Session → Session → Prop} (h : ∀ x, Lockstep (Alike x) m n R J K) :
    Lockstep Likes m n R J K := fun s t ⟨x, hst⟩ => h x s t hst

theorem lockstep_restartServices (id id' : WorkbookId) :
    Lockstep (Alike x) (restartServices id) (restartServices id') Eq (Alike x) K :=
  .modify fun _ _ h => h.congr ⟨rfl, rfl⟩ ⟨rfl, rfl⟩ h.gist

theorem lockstep_setScope (signature signature' : Signature) :
    Lockstep (Alike x) (setScope signature) (setScope signature') Eq (Alike x) K :=
  .modify fun _ _ h => h.congr ⟨rfl, rfl⟩ ⟨rfl, rfl⟩ h.gist

/-- Which token is given out does not count. -/
theorem lockstep_newToken : Lockstep (Alike x) newToken newToken (fun _ _ => True) (Alike x) K :=
  .of_achieves (P := fun s r u => ∃ a, r = .ok a ∧ u = { s with tokens := s.tokens.next.2 })
    (Q := fun s r u => ∃ a, r = .ok a ∧ u = { s with tokens := s.tokens.next.2 })
    (fun _ _ _ => achieves_newToken.mpr ⟨_, rfl, rfl⟩)
    (fun _ _ _ => achieves_newToken.mpr ⟨_, rfl, rfl⟩) (by
      rintro s t _ _ _ _ h ⟨a, rfl, rfl⟩ ⟨b, rfl, rfl⟩
      exact ⟨trivial, h.congr ⟨rfl, rfl⟩ ⟨rfl, rfl⟩ h.gist⟩)

theorem lockstep_mayDiscard :
    Lockstep (Alike x) mayDiscard mayDiscard Eq (Alike x) K := by
  intro s t h
  refine pairs_get.mpr ?_
  have hcollaboration : s.collaboration = t.collaboration := congrArg Gist.collaboration h.gist
  have hprompts : s.prompts = t.prompts := congrArg Gist.prompts h.gist
  by_cases hshared : s.collaboration = true
  · rw [if_pos hshared, if_pos (hcollaboration.symm.trans hshared)]
    exact Lockstep.pure rfl s t h
  have hshared' : ¬ t.collaboration = true := fun h => hshared (hcollaboration.trans h)
  rw [if_neg hshared, if_neg hshared', h.document]
  split
  · exact Lockstep.pure rfl s t h
  · rw [hprompts]
    exact pairs_set_bind.mpr (Lockstep.pure rfl _ _ (h.withPrompts t.prompts.discard.2))

/-! ## Waiting -/

/-- Two sessions of one gist with which nothing waits. -/
structure Level (x : Option Nat) (s t : Session) : Prop extends Alike x s t where
  leftIdle : s.isIdle
  rightIdle : t.isIdle

theorem Alike.of_gist {u v : Session} (h : Alike x s t) (hu : u.Local) (hs : u.gist = s.gist)
    (hv : v.Local) (ht : v.gist = t.gist) : Alike x u v :=
  ⟨hu, hv, hs.trans (h.gist.trans ht.symm), (congrArg Gist.sync hs).trans h.sync⟩

theorem Alike.level (h : Alike none s t) : Level none s t :=
  ⟨h, Queue.isIdle_iff.mpr h.waiting.1, Queue.isIdle_iff.mpr h.waiting.2⟩

theorem lockstep_pause (k : Pause) :
    Lockstep (Alike x) (pause k) (pause k) Eq (Alike x) K :=
  fun _ _ h => (achieves_pause k).mpr fun _ _ hu => (achieves_pause k).mpr fun _ _ hv =>
    ⟨rfl, h.paced hu hv⟩

/-- What is left of a session that waited for its writes. -/
def Settled (s : Session) (r : Except SyncError Unit) (u : Session) : Prop :=
  r = .ok () ∧ u.isIdle ∧ u.Local ∧ u.gist = s.gist

theorem paced_turn {u v : Session} {a b : Unit} (h : Paced .turn u a v b)
    (hu : u.Local ∧ u.gist = s.gist) : v.Local ∧ v.gist = s.gist := by
  obtain ⟨n, rfl⟩ := hu.1.carries h
  obtain ⟨hlocal, hgist⟩ := carried_keeps hu.1 n
  exact ⟨hlocal, hgist.trans hu.2⟩

theorem paced_queue {u v : Session} {a b : Unit} (h : Paced .queue u a v b)
    (hu : u.Local ∧ u.gist = s.gist) : v.isIdle ∧ v.Local ∧ v.gist = s.gist := by
  obtain ⟨hidle, n, rfl⟩ := hu.1.carries h
  obtain ⟨hlocal, hgist⟩ := carried_keeps hu.1 n
  exact ⟨hidle, hlocal, hgist.trans hu.2⟩

theorem lockstep_of_settled {m : SessionM Unit}
    (hm : ∀ s, s.Local → Achieves Paced m s () fun r u _ => Settled s r u) :
    Lockstep (Alike x) m m Eq (Level x) K :=
  .of_achieves (fun s _ h => hm s h.left) (fun _ t h => hm t h.right) (by
    rintro s t _ u _ v h ⟨rfl, huidle, hu, hs⟩ ⟨rfl, hvidle, hv, ht⟩
    exact ⟨rfl, h.of_gist hu hs hv ht, huidle, hvidle⟩)

theorem achieves_settle_settled (hs : s.Local) :
    Achieves Paced settle s () fun r u _ => Settled s r u :=
  achieves_settle (I := fun u _ => u.Local ∧ u.gist = s.gist) (fun hk => paced_turn hk)
    (fun hk => paced_queue hk) ⟨hs, rfl⟩

/-- However often each gives way. -/
theorem lockstep_settle : Lockstep (Alike x) settle settle Eq (Level x) K :=
  lockstep_of_settled fun _ => achieves_settle_settled

theorem lockstep_drain : Lockstep (Alike x) drain drain Eq (Level x) K :=
  lockstep_of_settled fun s hs => achieves_drain (I := fun u _ => u.Local ∧ u.gist = s.gist)
    (fun hk => paced_queue hk) ⟨hs, rfl⟩

/-! ## Ending the work on a workbook -/

/-- Whether two workbooks differ in their session tokens at most, or both are missing. -/
def SameBook (o o' : Option ActiveWorkbook) : Prop :=
  o.map (·.descriptor) = o'.map (·.descriptor)

theorem SameBook.cases {o o' : Option ActiveWorkbook} (h : SameBook o o') :
    (o = none ∧ o' = none) ∨
      ∃ w w', o = some w ∧ o' = some w' ∧ w.descriptor = w'.descriptor := by
  cases o <;> cases o' <;> simp_all [SameBook]

theorem Alike.active (h : Alike x s t) : SameBook s.active t.active := congrArg Gist.active h.gist

theorem hookFor_iff {w : ActiveWorkbook} (hw : s.active = some w) :
    s.hookFor = some w.id ↔ s.gist.hookFor = some true := by
  show _ ↔ s.hookFor.map (fun id => s.active.any fun w => w.id == id) = some true
  rw [hw]
  cases s.hookFor with
  | none => simp
  | some id =>
    simp only [Option.map_some, Option.some.injEq, Option.any_some, beq_iff_eq]
    exact eq_comm

theorem lockstep_runHook {w w' : ActiveWorkbook} :
    Lockstep (fun s t => Level x s t ∧ s.active = some w ∧ t.active = some w') (runHook w)
      (runHook w') Eq (Level x) (Alike x) := by
  rintro s t ⟨h, hw, hw'⟩
  refine pairs_get.mpr ?_
  have hfor : s.hookFor = some w.id ↔ t.hookFor = some w'.id := by
    rw [hookFor_iff hw, hookFor_iff hw', h.gist]
  have hsame : s.hook.map (·.action) = t.hook.map (·.action) := congrArg Gist.hook h.gist
  cases hs : s.hook with
  | none =>
    rw [hs, Option.map_none, eq_comm, Option.map_eq_none_iff] at hsame
    rw [hsame]
    exact Lockstep.pure rfl s t h
  | some hook =>
    rw [hs, Option.map_some, eq_comm, Option.map_eq_some_iff] at hsame
    obtain ⟨hook', ht, haction⟩ := hsame
    rw [ht]
    dsimp only
    by_cases hother : s.hookFor ≠ some w.id
    · rw [if_pos hother, if_pos (mt hfor.mpr hother)]
      exact Lockstep.pure rfl s t h
    · have hother' : ¬ t.hookFor ≠ some w'.id := mt (mt hfor.mp) hother
      rw [if_neg hother, if_neg hother']
      refine (lockstep_advance _).bind (fun _ _ _ => ?_) s t h.toAlike
      refine Lockstep.bind (J := Alike x) (.modify fun u v huv => ?_) fun _ _ _ => ?_
      · refine huv.congr ⟨rfl, rfl⟩ ⟨rfl, rfl⟩ ?_
        show ({ u.gist with hook := some hook.action } : Gist) =
          { v.gist with hook := some hook'.action }
        rw [huv.gist, haction]
      · exact (lockstep_pause _).bind fun _ _ _ => lockstep_drain

/-- All work on the workbook before ends in both sessions. -/
theorem lockstep_conclude :
    Lockstep (Alike x) conclude conclude SameBook (Level x) (Alike x) := by
  refine (lockstep_advance _).bind fun _ _ _ => lockstep_settle.bind fun _ _ _ => ?_
  intro s t h
  refine pairs_get.mpr ?_
  rcases h.active.cases with ⟨hs, ht⟩ | ⟨w, w', hs, ht, hsame⟩
  · rw [hs, ht]
    exact Lockstep.pure (R := SameBook) rfl s t h
  · rw [hs, ht]
    refine lockstep_runHook.bind (fun _ _ _ => ?_) s t ⟨h, hs, ht⟩
    exact .pure (congrArg some hsame)

end Steps

end SheetSync.Session
