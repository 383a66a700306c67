import SheetSync.Proofs.Cache
import SheetSync.Proofs.Store.Actions
import SheetSync.Proofs.Workbook.Signature
/-!
Signatures of two workbooks at different paths. The question for a file may be answered with its
time and size, with one of them or neither, or not at all, and the signature is the bare path then.
A path can be spelt like the path, time and size of another file. So two workbooks have one
signature if nothing is known of the file at a path that is spelt like the other file's signature,
and they have different ones in every other case.

Main statement: `Store.signature_eq_signature_iff`.
-/
namespace SheetSync

namespace Signature

/-- What came of the question for a file: both facts, if it was answered with both. -/
def known? : Except StoreError FileStat → Option (Int × Nat)
  | .ok stat => stat.complete?
  | .error _ => none

/-- The signature of a path, by what came of the question for its file. -/
def ofOutcome (path : String) : Except StoreError FileStat → Signature
  | .ok stat => ofStat path stat
  | .error _ => ⟨path⟩

/-- Whether a path of which nothing is known is spelt like the signature of a known file. -/
def IsSpelt (path : String) (r : Except StoreError FileStat) (other : String)
    (r' : Except StoreError FileStat) : Prop :=
  ∃ time size, known? r = some (time, size) ∧ known? r' = none ∧ other = s!"{path}:{time}:{size}"

theorem ofOutcome_of_known {path : String} {r : Except StoreError FileStat} {time : Int}
    {size : Nat} (h : known? r = some (time, size)) :
    ofOutcome path r = ofStat path ⟨some time, some size⟩ := by
  cases r with
  | error e => cases h
  | ok stat =>
    have hstat : stat.complete? = some (time, size) := h
    simp only [ofOutcome, ofStat, hstat]
    rfl

theorem ofOutcome_of_unknown {path : String} {r : Except StoreError FileStat}
    (h : known? r = none) : ofOutcome path r = ⟨path⟩ := by
  cases r with
  | error e => rfl
  | ok stat =>
    have hstat : stat.complete? = none := h
    simp only [ofOutcome, ofStat, hstat]

/-- A known file has the signature of an unknown one if that one's path spells it. -/
theorem ofOutcome_eq_iff_isSpelt {p q : String} {r r' : Except StoreError FileStat} {time : Int}
    {size : Nat} (h : known? r = some (time, size)) (h' : known? r' = none) :
    ofOutcome p r = ofOutcome q r' ↔ IsSpelt p r q r' := by
  rw [ofOutcome_of_known h, ofOutcome_of_unknown h']
  constructor
  · intro heq
    exact ⟨time, size, h, h', (congrArg text heq).symm⟩
  · rintro ⟨time', size', hknown, -, rfl⟩
    obtain ⟨rfl, rfl⟩ := Prod.mk.inj (Option.some.inj (h.symm.trans hknown))
    rfl

/-- Two paths share a signature just if one of them is spelt like the signature of the other. -/
theorem ofOutcome_eq_ofOutcome_iff {p q : String} (hne : p ≠ q) (r r' : Except StoreError FileStat) :
    ofOutcome p r = ofOutcome q r' ↔ IsSpelt p r q r' ∨ IsSpelt q r' p r := by
  -- a path is spelt only if the other file is known and its own is not
  have hunspelt : ∀ {p q r r'}, known? r = none → ¬ IsSpelt p r q r' := by
    rintro p q r r' h ⟨time, size, hknown, -⟩
    rw [h] at hknown
    cases hknown
  have hunspelt' : ∀ {p q r r' known}, known? r' = some known → ¬ IsSpelt p r q r' := by
    rintro p q r r' known h ⟨time, size, -, hunknown, -⟩
    rw [h] at hunknown
    cases hunknown
  cases h : known? r with
  | none =>
    cases h' : known? r' with
    | none =>
      rw [ofOutcome_of_unknown h, ofOutcome_of_unknown h']
      have hother : (⟨p⟩ : Signature) ≠ ⟨q⟩ := fun heq => hne (congrArg text heq)
      simp only [hother, hunspelt h, hunspelt h', or_self]
    | some known =>
      rw [eq_comm, ofOutcome_eq_iff_isSpelt h' h, or_iff_right (hunspelt h)]
  | some known =>
    cases h' : known? r' with
    | none => rw [ofOutcome_eq_iff_isSpelt h h', or_iff_left (hunspelt h')]
    | some known' =>
      rw [ofOutcome_of_known h, ofOutcome_of_known h', ofStat_eq_ofStat_iff]
      simp only [hne, false_and, hunspelt' h, hunspelt' h', or_self]

end Signature

namespace Store

/-- Whether the signature of a workbook never fails and is always the one that comes of the question
for the file at a path. -/
def IsSignedBy (d : Descriptor) (token path : String) : Prop :=
  ∀ {γ : Type} (rely : Pause → Store → γ → Store → γ → Prop) (s : Store) (g : γ)
    (x : Except StoreError Signature) (t : Store) (h : γ),
    Activity.Runs rely (signature d token).run s g x t h ↔
      ∃ r, Activity.Runs rely (statFile path).run s g r t h ∧ x = .ok (.ofOutcome path r)

theorem run_signature {d : Descriptor} {path : String} (hpath : d.durablePath? = some path)
    (token : String) :
    (signature d token).run =
      (statFile path).run >>= fun r => pure (.ok (Signature.ofOutcome path r)) := by
  simp only [signature, hpath]
  refine (bind_assoc (m := Activity Store) (statFile path).run _ _).trans ?_
  refine congrArg _ (funext fun r => ?_)
  cases r <;> rfl

theorem perform_signature {d : Descriptor} {path : String} (hpath : d.durablePath? = some path)
    (token : String) (s : Store) : (signature d token).perform s =
      (.ok (.ofOutcome path ((statFile path).perform s).1), ((statFile path).perform s).2) := by
  rw [StoreM.perform, Activity.attempt, run_signature hpath, Activity.run_bind]
  rfl

theorem isSignedBy {d : Descriptor} {path : String} (hpath : d.durablePath? = some path)
    (token : String) : IsSignedBy d token path := by
  intro γ rely s g x t h
  rw [run_signature hpath, Activity.runs_bind]
  constructor
  · rintro ⟨r, t', h', hr, hx⟩
    obtain ⟨rfl, rfl, rfl⟩ := Progress.runs_done.mp hx
    exact ⟨r, hr, rfl⟩
  · rintro ⟨r, hr, rfl⟩
    exact ⟨r, t, h, hr, .done ..⟩

/-- Workbooks at different paths, whatever comes of the questions for their files: they share a
signature just if one path is spelt like the signature of the other file, and otherwise a cache that
is scoped to one of them refuses the other. -/
theorem signature_eq_signature_iff {d d' : Descriptor} {p q : String}
    (hp : d.durablePath? = some p) (hq : d'.durablePath? = some q) (hne : p ≠ q)
    (token token' : String) :
    IsSignedBy d token p ∧ IsSignedBy d' token' q ∧
      ∀ r r' : Except StoreError FileStat,
        (Signature.ofOutcome p r = Signature.ofOutcome q r' ↔
          Signature.IsSpelt p r q r' ∨ Signature.IsSpelt q r' p r) ∧
        (¬ (Signature.IsSpelt p r q r' ∨ Signature.IsSpelt q r' p r) →
          ∀ {α : Type} (c : ScopedCache α), c.scope = some (.ofOutcome p r) →
            c.Refuses (.ofOutcome q r')) := by
  refine ⟨isSignedBy hp token, isSignedBy hq token', fun r r' => ?_⟩
  have hiff := Signature.ofOutcome_eq_ofOutcome_iff hne r r'
  refine ⟨hiff, fun hspelt α c hscope => ScopedCache.refuses_of_ne ?_⟩
  rw [hscope]
  exact fun heq => hspelt (hiff.mp (Option.some.inj heq))

/-- A file at one path, of which everything is known, and none at another. -/
theorem signature_eq_signature_iff_missing :
    (Descriptor.mk (some "a") none []).durablePath? = some "a" ∧
      (Descriptor.mk none (some "b") []).durablePath? = some "b" ∧ "a" ≠ "b" ∧
      Signature.ofOutcome "a" (.ok ⟨some 1, some 2⟩) ≠
        Signature.ofOutcome "b" (.error (.file "b" .notFound)) := by
  have hp : (Descriptor.mk (some "a") none []).durablePath? = some "a" := by decide
  have hq : (Descriptor.mk none (some "b") []).durablePath? = some "b" := by decide
  have hne : "a" ≠ "b" := by decide
  obtain ⟨-, -, h⟩ := signature_eq_signature_iff hp hq hne "" ""
  refine ⟨hp, hq, hne, fun heq => ?_⟩
  rcases (h _ _).1.mp heq with ⟨time, size, hknown, -, hspelt⟩ | ⟨_, _, hknown, -, -⟩
  · obtain ⟨rfl, rfl⟩ := Prod.mk.inj (Option.some.inj hknown)
    exact absurd hspelt (by decide)
  · cases hknown

/-- A file of two bytes, changed one millisecond after the start of 1970, and no file at the path
that spells this: one signature for both. -/
theorem signature_shared_by_spelling :
    let s : Store := { files := { nodes := [(["p"], .file (.text "ab") 1)] } }
    let d : Descriptor := ⟨some "p", none, []⟩
    let d' : Descriptor := ⟨some "p:1:2", none, []⟩
    d.durablePath? = some "p" ∧ d'.durablePath? = some "p:1:2" ∧
      ((signature d "").perform s).1 = .ok ⟨"p:1:2"⟩ ∧
      ((signature d' "").perform s).1 = .ok ⟨"p:1:2"⟩ := by
  intro s d d'
  have hstate : s.files.state "p" = .ok (1, 2) := by
    rw [FileTree.state, FileTree.find, FileTree.locate_eq]
    decide +kernel
  have hmissing : s.files.state "p:1:2" = .error .notFound := by
    rw [FileTree.state, FileTree.find, FileTree.locate_eq]
    decide +kernel
  have hp : d.durablePath? = some "p" := by decide
  have hq : d'.durablePath? = some "p:1:2" := by decide
  rw [perform_signature hp, perform_signature hq, perform_statFile_eq, perform_statFile_eq, hstate,
    hmissing]
  exact ⟨hp, hq, by decide, by decide⟩

end Store

end SheetSync
