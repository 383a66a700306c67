import Mathlib.Data.String.Basic
import Mathlib.Tactic.SplitIfs
import SheetSync.Files
/-!
Files that were replaced. The directories on the way to a file are not where the file is, so writing
it leaves the way to it as it was, and what is read under its path is what was written.

Main statement: `FileTree.read_of_replace`.
-/
namespace SheetSync.FileTree

/-! ## Written paths -/

section Pieces

open String (utf8Len)

/-- Splitting at slashes goes over the characters of a text; the first ones were split already, and
the next ones begin a piece. -/
theorem splitOnAux_slash (done piece rest : List Char) (pieces : List String) :
    String.splitOnAux (.ofList (done ++ piece ++ rest)) "/" ⟨utf8Len done⟩
        ⟨utf8Len done + utf8Len piece⟩ 0 pieces =
      pieces.reverse ++ (List.splitOnPPrepend (· == '/') rest piece.reverse).map .ofList := by
  induction rest generalizing done piece pieces with
  | nil =>
    rw [String.splitOnAux, if_pos (by simp [String.atEnd_iff, -String.ofList_append])]
    simpa using String.extract_of_valid done piece []
  | cons c rest ih =>
    -- what is seen at the place where the text goes on
    have hget : String.Pos.Raw.get (.ofList (done ++ piece ++ c :: rest))
        ⟨utf8Len done + utf8Len piece⟩ = c := by
      simpa [-String.ofList_append] using String.get_of_valid (done ++ piece) (c :: rest)
    have hnext : String.Pos.Raw.next (.ofList (done ++ piece ++ c :: rest))
        ⟨utf8Len done + utf8Len piece⟩ = ⟨utf8Len done + utf8Len piece + c.utf8Size⟩ := by
      simpa [-String.ofList_append] using String.next_of_valid (done ++ piece) c rest
    have hend : String.Pos.Raw.atEnd (.ofList (done ++ piece ++ c :: rest))
        ⟨utf8Len done + utf8Len piece⟩ = false := by
      have := c.utf8Size_pos
      rw [Bool.eq_false_iff]
      simp [String.atEnd_iff, -String.ofList_append]
      omega
    have hsep : String.Pos.Raw.get "/" 0 = '/' := by decide
    have hback : (⟨utf8Len done + utf8Len piece⟩ : String.Pos.Raw).unoffsetBy 0 =
        ⟨utf8Len done + utf8Len piece⟩ := rfl
    rw [String.splitOnAux, hend, hget, hsep, hback, hnext, List.splitOnPPrepend_cons_eq_if]
    by_cases hc : c = '/'
    · subst hc
      have hsepNext : String.Pos.Raw.next "/" 0 = ⟨1⟩ := by decide
      have hsepEnd : String.Pos.Raw.atEnd "/" ⟨1⟩ = true := by decide
      have hstart : (⟨utf8Len done + (utf8Len piece + '/'.utf8Size)⟩ : String.Pos.Raw).unoffsetBy
          ⟨1⟩ = ⟨utf8Len done + utf8Len piece⟩ := rfl
      have hpiece := String.extract_of_valid done piece ('/' :: rest)
      have h := ih (done ++ piece ++ ['/']) [] (.ofList piece :: pieces)
      simp [hsepNext, hsepEnd, -String.ofList_append, Nat.add_assoc] at h hpiece ⊢
      rw [hstart, hpiece]
      exact h
    · have h := ih done (piece ++ [c]) pieces
      simpa [hc, -String.ofList_append, Nat.add_assoc] using h

theorem splitOn_slash (path : String) :
    path.splitOn "/" = (path.toList.splitOnP (· == '/')).map .ofList := by
  have h := splitOnAux_slash [] [] path.toList []
  simp only [List.nil_append, String.ofList_toList] at h
  rw [String.splitOn, if_neg (by decide)]
  exact h

theorem steps_eq (path : String) :
    steps path = ((path.toList.splitOnP (· == '/')).map .ofList).filter (· ≠ "") := by
  rw [steps, splitOn_slash]

theorem locate_eq (t : FileTree) (path : String) :
    t.locate path =
      if '\x00' ∈ path.toList then .error .invalidInput
      else if path = "" then .error .notFound
      else if pathLimit < path.utf8ByteSize then .error .invalidFilename
      else t.follow (origin path)
        (((path.toList.splitOnP (· == '/')).map .ofList).filter (· ≠ "")) := by
  simp [locate, String.contains_char_eq, steps_eq]

end Pieces

/-! ## Places -/

theorem node?_put (t : FileTree) (p q : FilePath) (n : FileNode) :
    (t.put p n).node? q = if isGiven q then some .directory else if q = p then some n
      else t.node? q := by
  unfold node?
  by_cases hq : isGiven q = true
  · rw [if_pos hq, if_pos hq]
  rw [if_neg hq, if_neg hq, if_neg hq]
  show ((p, n) :: t.nodes.filter (·.1 ≠ p)).lookup q = _
  rw [List.lookup_cons]
  by_cases hp : q = p
  · simp [hp]
  · rw [beq_false_of_ne hp, if_neg hp]
    -- only the entry of the place itself is taken out
    induction t.nodes with
    | nil => rfl
    | cons e es ih =>
      obtain ⟨k, m⟩ := e
      by_cases hk : k = p
      · have hqk : q ≠ k := fun h => hp (h.trans hk)
        rw [List.filter_cons_of_neg (by simpa using hk), List.lookup_cons, beq_false_of_ne hqk]
        exact ih
      · rw [List.filter_cons_of_pos (by simpa using hk), List.lookup_cons, List.lookup_cons]
        by_cases hqk : q = k
        · simp [hqk]
        · rw [beq_false_of_ne hqk]
          exact ih

/-- A place where no directory is is not on the way to any place. -/
theorem follow_put {t : FileTree} {p : FilePath} (hp : t.node? p ≠ some .directory) (n : FileNode)
    {here there : FilePath} {steps : List String} (h : t.follow here steps = .ok there) :
    (t.put p n).follow here steps = .ok there := by
  induction steps generalizing here with
  | nil => exact h
  | cons step rest ih =>
    unfold follow at h ⊢
    cases hhere : t.node? here with
    | none =>
      rw [hhere] at h
      cases h
    | some node =>
      cases node with
      | file content time =>
        rw [hhere] at h
        cases h
      | directory =>
        have hne : here ≠ p := fun heq => hp (heq ▸ hhere)
        have hput : (t.put p n).node? here = some .directory := by
          rw [node?_put, if_neg hne, hhere]
          exact ite_self _
        rw [hhere] at h
        rw [hput]
        simp only at h ⊢
        split_ifs at h ⊢
        · exact ih h
        · exact ih h
        · exact ih h

theorem locate_put {t : FileTree} {p : FilePath} (hp : t.node? p ≠ some .directory) (n : FileNode)
    {path : String} {q : FilePath} (h : t.locate path = .ok q) :
    (t.put p n).locate path = .ok q := by
  unfold locate at h ⊢
  split_ifs at h ⊢
  exact follow_put hp n h

theorem locate_empty (t : FileTree) : t.locate "" = .error .notFound := by
  rw [locate_eq, if_neg (by decide), if_pos rfl]

/-- What has a file has a name. -/
theorem ne_empty_of_read {t : FileTree} {path : String} {found : Content × Int}
    (h : t.read path = .ok found) : path ≠ "" := by
  rintro rfl
  simp [read, find, locate_empty, bind, Except.bind] at h

/-! ## Moving a file to its place -/

/-- What it takes to move a file to a place. -/
structure CanTake (t : FileTree) (path : String) (p : FilePath) : Prop where
  locate : t.locate path = .ok p
  dots : endsInDots path = false
  slash : path.endsWith "/" = false
  node : t.node? p ≠ some .directory

theorem exists_of_moveInto {t t' : FileTree} {path : String} {content : Content}
    (h : t.moveInto path content = .ok t') :
    ∃ p, t.CanTake path p ∧ t' = t.put p (.file content t.clock) := by
  unfold moveInto at h
  cases hlocate : t.locate path with
  | error e =>
    rw [hlocate] at h
    cases h
  | ok p =>
    rw [hlocate] at h
    simp only [bind, Except.bind] at h
    split_ifs at h with hdots hslash hdirectory
    exact ⟨p, ⟨hlocate, by simpa using hdots, by simpa using hslash, hdirectory⟩,
      (Except.ok.inj h).symm⟩

namespace CanTake

variable {t : FileTree} {path : String} {p : FilePath}

theorem moveInto (h : t.CanTake path p) (content : Content) :
    t.moveInto path content = .ok (t.put p (.file content t.clock)) := by
  simp [FileTree.moveInto, h.locate, h.dots, h.slash, h.node, bind, Except.bind]

theorem isGiven_eq (h : t.CanTake path p) : isGiven p = false := by
  cases hgiven : isGiven p with
  | false => rfl
  | true => exact absurd (by simp [node?, hgiven]) h.node

/-- What is read is what was put there. -/
theorem read_put (h : t.CanTake path p) (content : Content) (time : Int) :
    (t.put p (.file content time)).read path = .ok (content, time) := by
  simp [read, find, locate_put h.node _ h.locate, node?_put, h.isGiven_eq, h.slash, bind,
    Except.bind]

/-- A place that took a file can take another one. -/
theorem put (h : t.CanTake path p) (content : Content) (time : Int) :
    (t.put p (.file content time)).CanTake path p where
  locate := locate_put h.node _ h.locate
  dots := h.dots
  slash := h.slash
  node := by simp [node?_put, h.isGiven_eq]

end CanTake

/-! ## Directories -/

theorem isDirectory_iff {t : FileTree} {path : String} :
    t.isDirectory path ↔ ∃ p, t.locate path = .ok p ∧ t.node? p = some .directory := by
  unfold isDirectory find
  cases hlocate : t.locate path with
  | error e => simp [bind, Except.bind]
  | ok p =>
    simp only [bind, Except.bind]
    cases hnode : t.node? p with
    | none => simp [hnode]
    | some node =>
      cases node with
      | directory => simp [hnode]
      | file content time =>
        simp only
        split_ifs <;> simp [hnode]

/-- A directory stays one when a file is put where none is. -/
theorem isDirectory_put {t : FileTree} {path : String} {p : FilePath}
    (hp : t.node? p ≠ some .directory) (n : FileNode) (h : t.isDirectory path) :
    (t.put p n).isDirectory path := by
  obtain ⟨q, hlocate, hnode⟩ := isDirectory_iff.mp h
  refine isDirectory_iff.mpr ⟨q, locate_put hp n hlocate, ?_⟩
  have hne : q ≠ p := fun heq => hp (heq ▸ hnode)
  rw [node?_put, if_neg hne, hnode]
  exact ite_self _

/-- What is a directory need not be made. -/
theorem makeOne_of_isDirectory {t : FileTree} {path : String} (h : t.isDirectory path) :
    t.makeOne path = .error .alreadyExists := by
  obtain ⟨q, hlocate, hnode⟩ := isDirectory_iff.mp h
  simp [makeOne, hlocate, hnode, bind, Except.bind]

theorem exists_of_bind {ε α β : Type} {m : ExceptT ε (StateM FileTree) α}
    {f : α → ExceptT ε (StateM FileTree) β} {t t' : FileTree} {b : β} (h : (m >>= f).run t = (.ok b, t')) :
    ∃ a t₁, m.run t = (.ok a, t₁) ∧ (f a).run t₁ = (.ok b, t') := by
  rw [ExceptT.run_bind] at h
  simp only [bind, StateT.bind] at h
  cases hm : m.run t with
  | mk r t₁ =>
    rw [hm] at h
    cases r with
    | ok a => exact ⟨a, t₁, rfl, h⟩
    | error e => cases h

theorem run_bind_of_ok {ε α β : Type} {m : ExceptT ε (StateM FileTree) α}
    {f : α → ExceptT ε (StateM FileTree) β} {t t₁ : FileTree} {a : α} (h : m.run t = (.ok a, t₁)) : (m >>= f).run t = (f a).run t₁ := by
  rw [ExceptT.run_bind]
  simp only [bind, StateT.bind]
  rw [h]

theorem run_get_bind {α : Type} (f : FileTree → FileM α) (t : FileTree) :
    (get >>= f).run t = (f t).run t := rfl

theorem run_ensure_of_ok {t made : FileTree} {path : String} (h : t.makeOne path = .ok made) :
    (ensure path).run t = (.ok (), made) := by
  unfold ensure
  rw [run_get_bind, h]
  rfl

theorem run_ensure_of_error {t : FileTree} {path : String} {e : FileFault}
    (h : t.makeOne path = .error e) :
    (ensure path).run t = if t.isDirectory path then (.ok (), t) else (.error e, t) := by
  unfold ensure
  rw [run_get_bind, h]
  cases t.isDirectory path <;> rfl

theorem run_ensure_of_isDirectory {t : FileTree} {path : String} (h : t.isDirectory path) :
    (ensure path).run t = (.ok (), t) :=
  (run_ensure_of_error (makeOne_of_isDirectory h)).trans (if_pos h)

/-- A directory that was ensured is there. -/
theorem isDirectory_of_ensure {t t' : FileTree} {path : String}
    (h : (ensure path).run t = (.ok (), t')) : t'.isDirectory path := by
  cases hmake : t.makeOne path with
  | ok made =>
    rw [run_ensure_of_ok hmake] at h
    obtain rfl : made = t' := (Prod.mk.inj h).2
    unfold makeOne at hmake
    cases hlocate : t.locate path with
    | error e =>
      rw [hlocate] at hmake
      cases hmake
    | ok p =>
      rw [hlocate] at hmake
      simp only [bind, Except.bind] at hmake
      split_ifs at hmake with hthere
      obtain rfl := Except.ok.inj hmake
      have hnode : t.node? p ≠ some .directory := fun hnode => hthere (.inr (by simp [hnode]))
      refine isDirectory_iff.mpr ⟨p, locate_put hnode _ hlocate, ?_⟩
      simp [node?_put]
  | error e =>
    rw [run_ensure_of_error hmake] at h
    split_ifs at h with hdirectory
    · obtain rfl : t = t' := (Prod.mk.inj h).2
      exact hdirectory
    · cases h

/-- A directory is ensured after those above it if they are missing, and by itself otherwise. -/
theorem run_ensureAll_cons (t : FileTree) (path : String) (above : List String) :
    (ensureAll (path :: above)).run t =
      (if t.makeOne path = .error .notFound then ensureAll above >>= fun _ => ensure path
        else ensure path : FileM Unit).run t := by
  rw [ensureAll, run_get_bind]
  split
  · next h => rw [if_pos h]
  · next h => rw [if_neg h]

/-! ## Replacing a file -/

theorem isDirectory_of_ensureAll {t t' : FileTree} {path : String} {above : List String}
    (h : (ensureAll (path :: above)).run t = (.ok (), t')) : t'.isDirectory path := by
  rw [run_ensureAll_cons] at h
  split_ifs at h
  · obtain ⟨_, _, _, h⟩ := exists_of_bind h
    exact isDirectory_of_ensure h
  · exact isDirectory_of_ensure h

/-- Making directories that are there changes nothing. -/
theorem run_ensureAll_of_isDirectory {t : FileTree} {path : String} {above : List String}
    (h : t.isDirectory path) : (ensureAll (path :: above)).run t = (.ok (), t) := by
  have hmissing : t.makeOne path ≠ .error .notFound := by
    rw [makeOne_of_isDirectory h]
    rintro ⟨⟩
  rw [run_ensureAll_cons, if_neg hmissing]
  exact run_ensure_of_isDirectory h

theorem ancestors_eq (path : String) :
    ancestors path = [] ∨ ∃ above, ancestors path = path :: above := by
  unfold ancestors
  split
  · split_ifs
    · exact .inl rfl
    · exact .inr ⟨_, rfl⟩
  · exact .inl rfl

/-- A file that was replaced was moved to its place, where directories lead. -/
theorem exists_of_replace {t t' : FileTree} {path : String} {content : Content}
    (h : (replace path content).run t = (.ok (), t')) :
    ∃ (t₁ : FileTree) (p q : FilePath), (makeDirectory (parent path)).run t = (.ok (), t₁) ∧
      t₁.locate (draft (parent path)) = .ok q ∧ t₁.CanTake path p ∧
      t' = t₁.put p (.file content t₁.clock) := by
  obtain ⟨⟨⟩, t₁, hmake, h⟩ := exists_of_bind h
  obtain ⟨_, _, hget, h⟩ := exists_of_bind h
  obtain ⟨rfl, rfl⟩ : t₁ = _ ∧ t₁ = _ :=
    (Prod.mk.inj hget).imp (fun h => Except.ok.inj h) id
  obtain ⟨q, t₂, hdraft, h⟩ := exists_of_bind h
  obtain ⟨t₃, t₄, hmove, h⟩ := exists_of_bind h
  obtain rfl : t₃ = t' := (Prod.mk.inj h).2
  obtain ⟨p, htake, rfl⟩ := exists_of_moveInto (Prod.mk.inj hmove).1
  exact ⟨t₁, p, q, hmake, (Prod.mk.inj hdraft).1, htake, rfl⟩

/-- What is read is what the file was replaced by. -/
theorem read_of_replace {t t' : FileTree} {path : String} {content : Content}
    (h : (replace path content).run t = (.ok (), t')) :
    ∃ time, t'.read path = .ok (content, time) := by
  obtain ⟨t₁, p, q, -, -, htake, rfl⟩ := exists_of_replace h
  exact ⟨t₁.clock, htake.read_put content t₁.clock⟩

/-- A file is replaced where the way to it can be made. -/
theorem run_replace {t t₁ : FileTree} {path : String} {p q : FilePath}
    (hmake : (makeDirectory (parent path)).run t = (.ok (), t₁))
    (hdraft : t₁.locate (draft (parent path)) = .ok q) (htake : t₁.CanTake path p)
    (content : Content) :
    (replace path content).run t = (.ok (), t₁.put p (.file content t₁.clock)) := by
  unfold replace
  rw [run_bind_of_ok hmake]
  have hrest : (do
      let t ← get
      let _ ← t.locate (draft (parent path))
      set (← t.moveInto path content) : FileM Unit).run t₁ =
      ((do
        let _ ← t₁.locate (draft (parent path))
        set (← t₁.moveInto path content)) : FileM Unit).run t₁ := rfl
  rw [hrest, hdraft, htake.moveInto content]
  rfl

/-- A file that was replaced can be replaced again. -/
theorem exists_replace_of_replace {t t' : FileTree} {path : String} {content : Content}
    (h : (replace path content).run t = (.ok (), t')) (content' : Content) :
    ∃ t'', (replace path content').run t' = (.ok (), t'') := by
  obtain ⟨t₁, p, q, hmake, hdraft, htake, rfl⟩ := exists_of_replace h
  have hagain : (makeDirectory (parent path)).run (t₁.put p (.file content t₁.clock)) =
      (.ok (), t₁.put p (.file content t₁.clock)) := by
    unfold makeDirectory at hmake ⊢
    rcases ancestors_eq (parent path) with hnone | ⟨above, hsome⟩
    · rw [hnone]
      rfl
    · rw [hsome] at hmake ⊢
      exact run_ensureAll_of_isDirectory
        (isDirectory_put htake.node _ (isDirectory_of_ensureAll hmake))
  exact ⟨_, run_replace hagain (locate_put htake.node (.file content t₁.clock) hdraft)
    (htake.put content t₁.clock) content'⟩

end SheetSync.FileTree

namespace SheetSync

/-! ## Files without their times -/

/-- A node without its time. -/
def FileNode.untimed : FileNode → FileNode
  | .file content _ => .file content 0
  | .directory => .directory

namespace FileTree

/-- The files without their times. -/
def untimed (t : FileTree) : FileTree where
  nodes := t.nodes.map fun e => (e.1, e.2.untimed)

section Untimed

variable (t : FileTree)

theorem node?_untimed (p : FilePath) : t.untimed.node? p = (t.node? p).map FileNode.untimed := by
  unfold node?
  by_cases hp : isGiven p = true
  · rw [if_pos hp, if_pos hp]
    rfl
  · rw [if_neg hp, if_neg hp]
    show (t.nodes.map fun e => (e.1, e.2.untimed)).lookup p = _
    induction t.nodes with
    | nil => rfl
    | cons e es ih =>
      obtain ⟨q, n⟩ := e
      rw [List.map_cons, List.lookup_cons, List.lookup_cons, ih]
      cases p == q <;> rfl

theorem follow_untimed (here : FilePath) (steps : List String) :
    t.untimed.follow here steps = t.follow here steps := by
  induction steps generalizing here with
  | nil => rfl
  | cons step rest ih =>
    unfold follow
    rw [node?_untimed]
    cases t.node? here with
    | none => rfl
    | some node =>
      cases node with
      | file content time => rfl
      | directory => simp only [Option.map_some, FileNode.untimed, ih]

theorem locate_untimed (path : String) : t.untimed.locate path = t.locate path := by
  simp only [locate, follow_untimed]

theorem find_untimed (path : String) :
    t.untimed.find path = (t.find path).map fun e => (e.1, e.2.untimed) := by
  unfold find
  rw [locate_untimed]
  cases t.locate path with
  | error e => rfl
  | ok p =>
    simp only [bind, Except.bind, node?_untimed]
    rcases t.node? p with _ | (⟨content, time⟩ | _)
    · rfl
    · simp only [Option.map_some, FileNode.untimed]
      split <;> rfl
    · rfl

theorem read_untimed (path : String) :
    t.untimed.read path = (t.read path).map fun e => (e.1, 0) := by
  unfold read
  rw [find_untimed]
  rcases t.find path with e | ⟨p, ⟨content, time⟩ | _⟩ <;> rfl

/-- What is read does not depend on times. -/
theorem read_congr {t t' : FileTree} (h : t.untimed = t'.untimed) (path : String) :
    (t.read path).map Prod.fst = (t'.read path).map Prod.fst := by
  have hread : ∀ t : FileTree, (t.read path).map Prod.fst = (t.untimed.read path).map Prod.fst := by
    intro t
    rw [read_untimed]
    cases t.read path <;> rfl
  rw [hread t, hread t', h]

theorem untimed_put (p : FilePath) (n : FileNode) :
    (t.put p n).untimed = t.untimed.put p n.untimed := by
  simp only [untimed, put, List.map_cons, List.filter_map, Function.comp_def]

theorem isDirectory_untimed (path : String) : t.untimed.isDirectory path = t.isDirectory path := by
  unfold isDirectory
  rw [find_untimed]
  rcases t.find path with e | ⟨p, ⟨content, time⟩ | _⟩ <;> rfl

theorem makeOne_untimed (path : String) : t.untimed.makeOne path = (t.makeOne path).map untimed := by
  unfold makeOne
  rw [locate_untimed]
  cases t.locate path with
  | error e => rfl
  | ok p =>
    simp only [bind, Except.bind, node?_untimed, Option.isSome_map]
    split
    · rfl
    · exact congrArg Except.ok (untimed_put t p .directory).symm

theorem moveInto_untimed (path : String) (content : Content) :
    t.untimed.moveInto path content = (t.moveInto path content).map untimed := by
  unfold moveInto
  rw [locate_untimed]
  cases t.locate path with
  | error e => rfl
  | ok p =>
    have hnode : t.untimed.node? p = some .directory ↔ t.node? p = some .directory := by
      rw [node?_untimed]
      rcases t.node? p with _ | (⟨content, time⟩ | _) <;> simp [FileNode.untimed]
    simp only [bind, Except.bind, hnode]
    split_ifs
    · rfl
    · rfl
    · rfl
    · exact congrArg Except.ok (untimed_put t p (.file content t.clock)).symm

end Untimed

/-- Whether an operation on files does the same whatever the times are, but for times. -/
def IsTimeless {α : Type} (m : FileM α) : Prop :=
  ∀ t : FileTree, m.run t.untimed = ((m.run t).1, (m.run t).2.untimed)

/-- What comes of it at other times. -/
theorem IsTimeless.exists_run {α : Type} {m : FileM α} (hm : IsTimeless m) {t t' u : FileTree}
    {r : Except FileFault α} (h : t.untimed = t'.untimed) (hrun : m.run t = (r, u)) :
    ∃ u', m.run t' = (r, u') ∧ u.untimed = u'.untimed := by
  have huntimed := hm t
  rw [h, hm t', hrun] at huntimed
  obtain ⟨hr, hu⟩ := Prod.mk.inj huntimed
  exact ⟨(m.run t').2, Prod.ext hr rfl, hu.symm⟩

theorem IsTimeless.bind {α β : Type} {m : FileM α} {f : α → FileM β} (hm : IsTimeless m)
    (hf : ∀ a, IsTimeless (f a)) : IsTimeless (m >>= f) := by
  intro t
  have hrun : ∀ t, (m >>= f).run t = match m.run t with
      | (.ok a, t) => (f a).run t
      | (.error e, t) => (.error e, t) := by
    intro t
    rw [ExceptT.run_bind]
    simp only [Bind.bind, StateT.bind]
    rcases m.run t with ⟨e | a, t⟩ <;> rfl
  rw [hrun, hrun, hm t]
  rcases m.run t with ⟨e | a, t'⟩
  · rfl
  · exact hf a t'

theorem isTimeless_ensure (path : String) : IsTimeless (ensure path) := by
  intro t
  have hmade := makeOne_untimed t path
  cases hmake : t.makeOne path with
  | ok made =>
    rw [hmake] at hmade
    rw [run_ensure_of_ok hmake, run_ensure_of_ok hmade]
  | error e =>
    rw [hmake] at hmade
    rw [run_ensure_of_error hmake, run_ensure_of_error hmade, isDirectory_untimed]
    split <;> rfl

theorem isTimeless_ensureAll (paths : List String) : IsTimeless (ensureAll paths) := by
  induction paths with
  | nil => exact fun t => rfl
  | cons path above ih =>
    intro t
    have hmissing : t.untimed.makeOne path = .error .notFound ↔
        t.makeOne path = .error .notFound := by
      rw [makeOne_untimed]
      cases t.makeOne path <;> simp [Except.map]
    rw [run_ensureAll_cons, run_ensureAll_cons]
    simp only [hmissing]
    split_ifs
    · exact ih.bind (fun _ => isTimeless_ensure path) t
    · exact isTimeless_ensure path t

/-- A file is replaced whatever the times of others are. -/
theorem isTimeless_replace (path : String) (content : Content) :
    IsTimeless (replace path content) := by
  refine (isTimeless_ensureAll _).bind fun _ t => ?_
  show (do
    let _ ← t.untimed.locate (draft (parent path))
    set (← t.untimed.moveInto path content) : FileM Unit).run t.untimed = _
  rw [locate_untimed, moveInto_untimed, run_get_bind]
  cases t.locate (draft (parent path)) with
  | error e => rfl
  | ok q => cases t.moveInto path content <;> rfl

end FileTree

end SheetSync
