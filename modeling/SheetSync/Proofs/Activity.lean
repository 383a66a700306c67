import SheetSync.Activity
/-!
What an activity can come to, whatever its surroundings do while it pauses. A relation `rely` says
what may happen at a pause; it also carries a second state along, in which an onlooker notes what
happened. Main statements: `ensures_bind` and `achieves_bind`, by which a whole is judged from its
parts, `AtOnce.bind`, for steps that do not wait, `Activity.zoom_bind`, by which an activity on a
part of a state goes on there step by step, and `Keeps`, for what every step leaves as it is.
-/
namespace SheetSync

variable {σ τ γ α β ε ε' : Type}

/-- The ends that an activity may come to from where it is. -/
inductive Progress.Runs (rely : Pause → σ → γ → σ → γ → Prop) :
    Progress σ α → γ → α → σ → γ → Prop
  | done (a : α) (s : σ) (g : γ) : Runs rely (.done a s) g a s g
  | paused {k : Pause} {s t u : σ} {g h i : γ} {resume : σ → Progress σ α} {a : α} :
    rely k s g t h → Runs rely (resume t) h a u i → Runs rely (.paused k s resume) g a u i

namespace Progress

variable {rely : Pause → σ → γ → σ → γ → Prop}

theorem runs_done {a b : α} {s t : σ} {g h : γ} :
    Runs rely (.done a s) g b t h ↔ b = a ∧ t = s ∧ h = g := by
  constructor
  · rintro ⟨⟩
    exact ⟨rfl, rfl, rfl⟩
  · rintro ⟨rfl, rfl, rfl⟩
    exact .done ..

theorem runs_paused {k : Pause} {s u : σ} {g i : γ} {resume : σ → Progress σ α} {a : α} :
    Runs rely (.paused k s resume) g a u i ↔
      ∃ t h, rely k s g t h ∧ Runs rely (resume t) h a u i := by
  constructor
  · rintro (_ | ⟨hk, hr⟩)
    exact ⟨_, _, hk, hr⟩
  · rintro ⟨t, h, hk, hr⟩
    exact .paused hk hr

/-- What every pause leaves of an onlooker's notes is left at the end. -/
theorem Runs.keeps {J : γ → Prop} (hrely : ∀ {k s g t h}, rely k s g t h → J g → J h)
    {p : Progress σ α} {g h : γ} {a : α} {t : σ} (hr : p.Runs rely g a t h) (hg : J g) : J h := by
  induction hr with
  | done => exact hg
  | paused hk _ ih => exact ih (hrely hk hg)

/-- Where more may happen at a pause, more ends may be reached. -/
theorem Runs.mono {rely' : Pause → σ → γ → σ → γ → Prop}
    (hrely : ∀ {k s g t h}, rely k s g t h → rely' k s g t h) {p : Progress σ α} {g h : γ} {a : α}
    {t : σ} (hr : p.Runs rely g a t h) : p.Runs rely' g a t h := by
  induction hr with
  | done => exact .done ..
  | paused hk _ ih => exact .paused (hrely hk) ih

theorem runs_bind {p : Progress σ α} {f : α → Activity σ β} {g i : γ} {b : β} {u : σ} :
    Runs rely (p.bind f) g b u i ↔
      ∃ a t h, Runs rely p g a t h ∧ Runs rely (f a t) h b u i := by
  -- on how far the first part has come; what it paused with goes on in the second
  induction p generalizing g with
  | done a s =>
    simp only [bind, runs_done]
    constructor
    · intro h
      exact ⟨a, s, g, ⟨rfl, rfl, rfl⟩, h⟩
    · rintro ⟨_, _, _, ⟨rfl, rfl, rfl⟩, h⟩
      exact h
  | paused k s resume ih =>
    simp only [bind, runs_paused, ih]
    constructor
    · rintro ⟨t, h, hk, a, v, j, hp, hf⟩
      exact ⟨a, v, j, ⟨t, h, hk, hp⟩, hf⟩
    · rintro ⟨a, v, j, ⟨t, h, hk, hp⟩, hf⟩
      exact ⟨t, h, hk, a, v, j, hp, hf⟩

/-- An activity comes to an end if something may happen at each of its pauses. -/
theorem exists_runs (hrely : ∀ k s g, ∃ t h, rely k s g t h) (p : Progress σ α) (g : γ) :
    ∃ a t h, p.Runs rely g a t h := by
  induction p generalizing g with
  | done a s => exact ⟨a, s, g, .done a s g⟩
  | paused k s resume ih =>
    obtain ⟨t, h, hk⟩ := hrely k s g
    obtain ⟨a, u, i, hr⟩ := ih t h
    exact ⟨a, u, i, .paused hk hr⟩

/-- What happens while an activity runs alone may happen. -/
theorem runs_finish {attend : Pause → σ → σ} (hrely : ∀ k s g, rely k s g (attend k s) g)
    (p : Progress σ α) (g : γ) : p.Runs rely g (p.finish attend).1 (p.finish attend).2 g := by
  induction p with
  | done a s => exact .done a s g
  | paused k s resume ih => exact .paused (hrely k s g) (ih _)

/-- The end of an activity that does not pause. -/
def end? : Progress σ α → Option (α × σ)
  | done a s => some (a, s)
  | paused _ _ _ => none

theorem runs_of_end? {p : Progress σ α} {g : γ} {a : α} {s : σ} (h : p.end? = some (a, s)) :
    Runs rely p g a s g := by
  cases p with
  | done =>
    cases h
    exact .done ..
  | paused => cases h

/-- The end of an activity at whose pauses nothing happens, and which does not wait for queued
work. -/
def calm? : Progress σ α → Option (α × σ)
  | done a s => some (a, s)
  | paused k s resume => if k = .queue then none else (resume s).calm?

theorem runs_of_calm? (hrely : ∀ k s g, k ≠ .queue → rely k s g s g) {p : Progress σ α} {g : γ}
    {a : α} {s : σ} (h : p.calm? = some (a, s)) : Runs rely p g a s g := by
  induction p with
  | done =>
    cases h
    exact .done ..
  | paused k t resume ih =>
    unfold calm? at h
    split at h
    · cases h
    · next hk => exact .paused (hrely k t g hk) (ih t h)

end Progress

/-! ## Activities -/

namespace Activity

/-- The ends that an activity may come to from a state. -/
abbrev Runs (rely : Pause → σ → γ → σ → γ → Prop) (m : Activity σ α) (s : σ) (g : γ) (a : α)
    (t : σ) (h : γ) : Prop := (m s).Runs rely g a t h

/-- Wherever an activity comes to an end, `post` holds. -/
def Ensures (rely : Pause → σ → γ → σ → γ → Prop) (m : Activity σ α) (s : σ) (g : γ)
    (post : α → σ → γ → Prop) : Prop := ∀ a t h, m.Runs rely s g a t h → post a t h

variable {rely : Pause → σ → γ → σ → γ → Prop} {s : σ} {g : γ} {post : α → σ → γ → Prop}

theorem Ensures.imp {m : Activity σ α} {post' : α → σ → γ → Prop} (h : m.Ensures rely s g post)
    (himp : ∀ a t i, post a t i → post' a t i) : m.Ensures rely s g post' :=
  fun a t i hr => himp a t i (h a t i hr)

@[simp] theorem ensures_pure (a : α) :
    Ensures rely (pure a : Activity σ α) s g post ↔ post a s g := by
  constructor
  · intro h
    exact h _ _ _ (.done ..)
  · intro h a t i hr
    obtain ⟨rfl, rfl, rfl⟩ := Progress.runs_done.mp hr
    exact h

theorem runs_bind {m : Activity σ α} {f : α → Activity σ β} {b : β} {u : σ} {i : γ} :
    (m >>= f).Runs rely s g b u i ↔ ∃ a t h, m.Runs rely s g a t h ∧ (f a).Runs rely t h b u i :=
  Progress.runs_bind

theorem ensures_bind {m : Activity σ α} {f : α → Activity σ β} {post : β → σ → γ → Prop} :
    Ensures rely (m >>= f) s g post ↔
      m.Ensures rely s g fun a t h => (f a).Ensures rely t h post := by
  constructor
  · intro h a t i hm b u j hf
    exact h b u j (runs_bind.mpr ⟨a, t, i, hm, hf⟩)
  · intro h b u j hr
    obtain ⟨a, t, i, hm, hf⟩ := runs_bind.mp hr
    exact h a t i hm b u j hf

@[simp] theorem ensures_pause (k : Pause) {post : Unit → σ → γ → Prop} :
    Ensures rely (pause k : Activity σ Unit) s g post ↔ ∀ t h, rely k s g t h → post () t h := by
  constructor
  · intro h t i hk
    exact h () t i (.paused hk (.done ..))
  · intro h a t i hr
    obtain ⟨u, j, hk, hd⟩ := Progress.runs_paused.mp hr
    obtain ⟨rfl, rfl, rfl⟩ := Progress.runs_done.mp hd
    exact h _ _ hk

/-- An activity that does not pause comes to one end only. -/
theorem ensures_of_done {m : Activity σ α} {a : α} {t : σ} (hm : m s = .done a t) :
    m.Ensures rely s g post ↔ post a t g := by
  constructor
  · intro h
    exact h a t g (by rw [Runs, hm]; exact .done ..)
  · intro h b u i hr
    rw [Runs, hm] at hr
    obtain ⟨rfl, rfl, rfl⟩ := Progress.runs_done.mp hr
    exact h

/-- An activity on a part of a state acts there step by step. -/
theorem zoom_bind {part : σ → τ} {put : τ → σ → σ} (hpart : ∀ s t, part (put t s) = t)
    (hput : ∀ s t u, put u (put t s) = put u s) (m : Activity τ α) (f : α → Activity τ β) :
    zoom part put (m >>= f) = zoom part put m >>= fun a => zoom part put (f a) := by
  -- what the part was before it was put back does not matter
  have hzoom : ∀ {α : Type} (p : Progress τ α) (s : σ) (t : τ),
      p.zoom part put (put t s) = p.zoom part put s := by
    intro α p s t
    cases p <;> simp only [Progress.zoom, hput]
  funext s
  show ((m (part s)).bind f).zoom part put s =
    ((m (part s)).zoom part put s).bind fun a s => (f a (part s)).zoom part put s
  generalize m (part s) = p
  induction p generalizing s with
  | done a t => simp only [Progress.bind, Progress.zoom, hpart, hzoom]
  | paused k t resume ih => simp only [Progress.bind, Progress.zoom, ih]

end Activity

/-! ## Steps that may fail -/

/-- Wherever a step that may fail comes to an end, `post` holds. -/
def Achieves (rely : Pause → σ → γ → σ → γ → Prop) (m : ExceptT ε (Activity σ) α) (s : σ) (g : γ)
    (post : Except ε α → σ → γ → Prop) : Prop := Activity.Ensures rely m.run s g post

section Achieves

variable {rely : Pause → σ → γ → σ → γ → Prop} {s : σ} {g : γ} {post : Except ε α → σ → γ → Prop}

theorem Achieves.imp {m : ExceptT ε (Activity σ) α} {post' : Except ε α → σ → γ → Prop}
    (h : Achieves rely m s g post) (himp : ∀ r t i, post r t i → post' r t i) :
    Achieves rely m s g post' := Activity.Ensures.imp h himp

theorem Achieves.and {m : ExceptT ε (Activity σ) α} {post' : Except ε α → σ → γ → Prop}
    (h : Achieves rely m s g post) (h' : Achieves rely m s g post') :
    Achieves rely m s g fun r t i => post r t i ∧ post' r t i :=
  fun r t i hr => ⟨h r t i hr, h' r t i hr⟩

/-- What holds at every end holds at those that the step comes to. -/
theorem Achieves.and_runs {m : ExceptT ε (Activity σ) α} (h : Achieves rely m s g post) :
    Achieves rely m s g fun r t i => post r t i ∧ Activity.Runs rely m.run s g r t i :=
  fun r t i hr => ⟨h r t i hr, hr⟩

@[simp] theorem achieves_pure (a : α) :
    Achieves rely (pure a : ExceptT ε (Activity σ) α) s g post ↔ post (.ok a) s g :=
  Activity.ensures_pure _

@[simp] theorem achieves_throw (e : ε) :
    Achieves rely (throw e : ExceptT ε (Activity σ) α) s g post ↔ post (.error e) s g :=
  Activity.ensures_pure _

@[simp] theorem achieves_get {post : Except ε σ → σ → γ → Prop} :
    Achieves rely (get : ExceptT ε (Activity σ) σ) s g post ↔ post (.ok s) s g :=
  Activity.ensures_of_done rfl

@[simp] theorem achieves_set (t : σ) {post : Except ε PUnit → σ → γ → Prop} :
    Achieves rely (set t : ExceptT ε (Activity σ) PUnit) s g post ↔ post (.ok ⟨⟩) t g :=
  Activity.ensures_of_done rfl

@[simp] theorem achieves_modify (f : σ → σ) {post : Except ε PUnit → σ → γ → Prop} :
    Achieves rely (modify f : ExceptT ε (Activity σ) PUnit) s g post ↔ post (.ok ⟨⟩) (f s) g :=
  Activity.ensures_of_done rfl

@[simp] theorem achieves_pause (k : Pause) {post : Except ε Unit → σ → γ → Prop} :
    Achieves rely (ExceptT.lift (Activity.pause k) : ExceptT ε (Activity σ) Unit) s g post ↔
      ∀ t h, rely k s g t h → post (.ok ()) t h := by
  refine Activity.ensures_bind.trans ((Activity.ensures_pause k).trans ?_)
  exact forall_congr' fun t => forall_congr' fun h => forall_congr' fun _ =>
    Activity.ensures_of_done rfl

/-- A plain result that may be an error. -/
@[simp] theorem achieves_liftM (r : Except ε α) :
    Achieves rely (liftM r : ExceptT ε (Activity σ) α) s g post ↔ post r s g :=
  Activity.ensures_of_done rfl

theorem achieves_bind {m : ExceptT ε (Activity σ) α} {f : α → ExceptT ε (Activity σ) β}
    {post : Except ε β → σ → γ → Prop} :
    Achieves rely (m >>= f) s g post ↔
      Achieves rely m s g fun
        | .ok a, t, h => Achieves rely (f a) t h post
        | .error e, t, h => post (.error e) t h := by
  refine Activity.ensures_bind.trans (forall_congr' fun r => ?_)
  cases r with
  | ok a => exact Iff.rfl
  | error e =>
    refine forall_congr' fun t => forall_congr' fun h => forall_congr' fun _ => ?_
    exact Activity.ensures_of_done rfl

theorem achieves_tryCatch {m : ExceptT ε (Activity σ) α} {f : ε → ExceptT ε (Activity σ) α} :
    Achieves rely (tryCatch m f) s g post ↔
      Achieves rely m s g fun
        | .ok a, t, h => post (.ok a) t h
        | .error e, t, h => Achieves rely (f e) t h post := by
  refine Activity.ensures_bind.trans (forall_congr' fun r => ?_)
  cases r with
  | error e => exact Iff.rfl
  | ok a =>
    refine forall_congr' fun t => forall_congr' fun h => forall_congr' fun _ => ?_
    exact Activity.ensures_of_done rfl

/-- A step that runs alone comes to one end. -/
theorem achieves_attempt {attend : Pause → σ → σ} {m : ExceptT ε (Activity σ) α}
    {post : Except ε α → σ → Prop} :
    Achieves (fun k s (_ : Unit) t _ => t = attend k s) m s () (fun r t _ => post r t) ↔
      post (Activity.attempt attend m s).1 (Activity.attempt attend m s).2 := by
  show Activity.Ensures _ m.run s () _ ↔ post ((m.run s).finish attend).1 ((m.run s).finish attend).2
  unfold Activity.Ensures Activity.Runs
  generalize m.run s = p
  induction p with
  | done r t =>
    constructor
    · intro h
      exact h _ _ _ (.done ..)
    · intro h r' t' i hr
      obtain ⟨rfl, rfl, rfl⟩ := Progress.runs_done.mp hr
      exact h
  | paused k t resume ih =>
    refine Iff.trans ?_ (ih (attend k t))
    constructor
    · intro h r u i hr
      exact h r u i (.paused rfl hr)
    · intro h r u i hr
      obtain ⟨v, j, rfl, hr⟩ := Progress.runs_paused.mp hr
      exact h r u i hr

end Achieves

/-! ## Steps that do not wait -/

/-- Whether a step comes to its end at once, with a result and in a state. -/
def AtOnce (m : ExceptT ε (Activity σ) α) (s : σ) (r : Except ε α) (t : σ) : Prop :=
  m.run s = .done r t

namespace AtOnce

variable {s t u : σ} {m : ExceptT ε (Activity σ) α} {f : α → ExceptT ε (Activity σ) β}
  {rely : Pause → σ → γ → σ → γ → Prop} {g : γ}

theorem bind {a : α} {r : Except ε β} (h : AtOnce m s (.ok a) t) (h' : AtOnce (f a) t r u) :
    AtOnce (m >>= f) s r u := by
  show Progress.bind (m.run s) _ = _
  rw [show m.run s = _ from h]
  exact h'

theorem bind_error {e : ε} (h : AtOnce m s (.error e) t) : AtOnce (m >>= f) s (.error e) t := by
  show Progress.bind (m.run s) _ = _
  rw [show m.run s = _ from h]
  rfl

theorem pure (a : α) : AtOnce (pure a : ExceptT ε (Activity σ) α) s (.ok a) s := rfl

theorem throw (e : ε) : AtOnce (throw e : ExceptT ε (Activity σ) α) s (.error e) s := rfl

theorem get : AtOnce (get : ExceptT ε (Activity σ) σ) s (.ok s) s := rfl

theorem set (t : σ) : AtOnce (set t : ExceptT ε (Activity σ) PUnit) s (.ok ⟨⟩) t := rfl

/-- A step that comes to its end at once comes to no other end. -/
theorem achieves {r : Except ε α} (h : AtOnce m s r t) {post : Except ε α → σ → γ → Prop} :
    Achieves rely m s g post ↔ post r t g := Activity.ensures_of_done h

theorem achieves_bind {a : α} (h : AtOnce m s (.ok a) t) {post : Except ε β → σ → γ → Prop} :
    Achieves rely (m >>= f) s g post ↔ Achieves rely (f a) t g post :=
  SheetSync.achieves_bind.trans h.achieves

/-- Run alone, a step that does not wait comes to the same. -/
theorem attempt_eq {attend : Pause → σ → σ} {r : Except ε α} (h : AtOnce m s r t) :
    Activity.attempt attend m s = (r, t) := by
  rw [Activity.attempt, Activity.run, show m.run s = _ from h]
  rfl

theorem eq_of_runs {r r' : Except ε α} {i : γ} (h : AtOnce m s r t)
    (hr : Activity.Runs rely m.run s g r' u i) : r' = r ∧ u = t ∧ i = g := by
  rw [Activity.Runs, show m.run s = _ from h] at hr
  exact Progress.runs_done.mp hr

end AtOnce

/-! ## What steps keep -/

/-- Whatever a step comes to, `I` holds after it if it held before. -/
def Keeps (rely : Pause → σ → γ → σ → γ → Prop) (I : σ → γ → Prop)
    (m : ExceptT ε (Activity σ) α) : Prop := ∀ s g, I s g → Achieves rely m s g fun _ t h => I t h

namespace Keeps

variable {rely : Pause → σ → γ → σ → γ → Prop} {I : σ → γ → Prop}

theorem pure (a : α) : Keeps rely I (pure a : ExceptT ε (Activity σ) α) :=
  fun _ _ hI => (achieves_pure a).mpr hI

theorem throw (e : ε) : Keeps rely I (throw e : ExceptT ε (Activity σ) α) :=
  fun _ _ hI => (achieves_throw e).mpr hI

theorem liftM (r : Except ε α) : Keeps rely I (liftM r : ExceptT ε (Activity σ) α) :=
  fun _ _ hI => (achieves_liftM r).mpr hI

theorem get : Keeps rely I (get : ExceptT ε (Activity σ) σ) := fun _ _ hI => achieves_get.mpr hI

theorem modify {f : σ → σ} (hf : ∀ s g, I s g → I (f s) g) :
    Keeps rely I (modify f : ExceptT ε (Activity σ) PUnit) :=
  fun s g hI => (achieves_modify f).mpr (hf s g hI)

theorem pause {k : Pause} (hrely : ∀ s g t h, rely k s g t h → I s g → I t h) :
    Keeps rely I (ExceptT.lift (Activity.pause k) : ExceptT ε (Activity σ) Unit) :=
  fun s g hI => (achieves_pause k).mpr fun t h hk => hrely s g t h hk hI

theorem bind {m : ExceptT ε (Activity σ) α} {f : α → ExceptT ε (Activity σ) β}
    (hm : Keeps rely I m) (hf : ∀ a, Keeps rely I (f a)) : Keeps rely I (m >>= f) := by
  intro s g hI
  refine achieves_bind.mpr ((hm s g hI).imp fun r t h ht => ?_)
  cases r with
  | ok a => exact hf a t h ht
  | error e => exact ht

theorem tryCatch {m : ExceptT ε (Activity σ) α} {f : ε → ExceptT ε (Activity σ) α}
    (hm : Keeps rely I m) (hf : ∀ e, Keeps rely I (f e)) : Keeps rely I (tryCatch m f) := by
  intro s g hI
  refine achieves_tryCatch.mpr ((hm s g hI).imp fun r t h ht => ?_)
  cases r with
  | ok a => exact ht
  | error e => exact hf e t h ht

theorem ite {c : Prop} [Decidable c] {m n : ExceptT ε (Activity σ) α} (hm : c → Keeps rely I m)
    (hn : ¬ c → Keeps rely I n) : Keeps rely I (if c then m else n) := by
  split
  · next h => exact hm h
  · next h => exact hn h

end Keeps

end SheetSync
