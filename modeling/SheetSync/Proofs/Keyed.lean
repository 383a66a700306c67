import SheetSync.Keyed
import Mathlib.Data.List.Induction
import Mathlib.Data.List.Nodup
/-!
Lists of pairs whose keys differ. Setting a key keeps them different, so a list that is built by
setting has one entry for a key, and a lookup gives that entry.
-/
namespace SheetSync.Keyed

variable {α β : Type}

@[simp] theorem keys_nil : keys ([] : Keyed α) = [] := rfl

@[simp] theorem keys_cons (e : String × α) (m : Keyed α) : keys (e :: m) = e.1 :: keys m := rfl

theorem nodup_keys_set {m : Keyed α} (h : (keys m).Nodup) (k : String) (a : α) :
    (keys (set k a m)).Nodup := by
  rw [keys_set]
  split
  · exact h
  · next hk =>
    refine List.nodup_append.mpr ⟨h, List.nodup_singleton k, ?_⟩
    rintro x hx y hy rfl
    rw [List.mem_singleton.mp hy] at hx
    exact hk hx

theorem ofList_concat (entries : List (String × α)) (e : String × α) :
    ofList (entries ++ [e]) = set e.1 e.2 (ofList entries) := by
  simp [ofList, List.foldl_append]

theorem nodup_keys_ofList (entries : List (String × α)) : (keys (ofList entries)).Nodup := by
  induction entries using List.reverseRecOn with
  | nil => exact List.nodup_nil
  | append_singleton entries e ih =>
    rw [ofList_concat]
    exact nodup_keys_set ih e.1 e.2

theorem eraseDups_concat (names : List String) (name : String) :
    (names ++ [name]).eraseDups =
      if name ∈ names then names.eraseDups else names.eraseDups ++ [name] := by
  rw [List.eraseDups_append]
  by_cases h : name ∈ names
  · simp [List.removeAll, h]
  · simp [List.removeAll, h, List.eraseDups_cons]

/-- Keys stand where they came first. -/
theorem keys_set_of_eraseDups {m : Keyed α} {names : List String} (h : keys m = names.eraseDups)
    (k : String) (a : α) : keys (set k a m) = (names ++ [k]).eraseDups := by
  rw [keys_set, eraseDups_concat, h]
  simp only [List.mem_eraseDups]

theorem keys_ofList (entries : List (String × α)) :
    keys (ofList entries) = (entries.map Prod.fst).eraseDups := by
  induction entries using List.reverseRecOn with
  | nil => rfl
  | append_singleton entries e ih =>
    rw [ofList_concat, keys_set_of_eraseDups ih, List.map_append]
    rfl

theorem set_of_not_mem {k : String} {m : Keyed α} (h : k ∉ keys m) (a : α) :
    set k a m = m ++ [(k, a)] := by
  induction m with
  | nil => rfl
  | cons e m ih =>
    obtain ⟨hk, hm⟩ := not_or.mp (mt List.mem_cons.mpr h)
    rw [set, if_neg hk, ih hm, List.cons_append]

/-- Entries whose keys differ are the entries of their list. -/
theorem ofList_of_nodup {m : Keyed α} (h : (keys m).Nodup) : ofList m = m := by
  induction m using List.reverseRecOn with
  | nil => rfl
  | append_singleton m e ih =>
    rw [keys, List.map_append, List.nodup_append] at h
    obtain ⟨hm, -, hne⟩ := h
    have he : e.1 ∉ keys m := fun he => hne e.1 he e.1 (by simp) rfl
    rw [ofList_concat, ih hm, set_of_not_mem he]

theorem mem_of_mem_set {k : String} {a : α} {m : Keyed α} {e : String × α} (h : e ∈ set k a m) :
    e = (k, a) ∨ e ∈ m := by
  induction m with
  | nil => simpa [set] using h
  | cons f m ih =>
    obtain ⟨j, b⟩ := f
    unfold set at h
    split at h
    · exact (List.mem_cons.mp h).imp id (List.mem_cons_of_mem _)
    · rcases List.mem_cons.mp h with h | h
      · exact .inr (h ▸ List.mem_cons_self)
      · exact (ih h).imp id (List.mem_cons_of_mem _)

theorem mem_of_mem_ofList {entries : List (String × α)} {e : String × α}
    (h : e ∈ ofList entries) : e ∈ entries := by
  induction entries using List.reverseRecOn with
  | nil => cases h
  | append_singleton entries f ih =>
    rw [ofList_concat] at h
    rcases mem_of_mem_set h with rfl | h
    · simp
    · exact List.mem_append_left _ (ih h)

theorem mem_of_get?_eq_some {key : String} {m : Keyed α} {a : α} (h : get? key m = some a) :
    (key, a) ∈ m := by
  induction m with
  | nil => cases h
  | cons e m ih =>
    obtain ⟨k, b⟩ := e
    rw [get?_cons] at h
    split at h
    · next hk =>
      obtain rfl := Option.some.inj h
      exact hk ▸ List.mem_cons_self
    · exact List.mem_cons_of_mem _ (ih h)

theorem get?_of_mem {m : Keyed α} (hnodup : (keys m).Nodup) {e : String × α} (he : e ∈ m) :
    get? e.1 m = some e.2 := by
  induction m with
  | nil => cases he
  | cons f m ih =>
    obtain ⟨hf, hnodup⟩ := List.nodup_cons.mp hnodup
    rw [get?_cons]
    rcases List.mem_cons.mp he with rfl | he
    · simp
    · rw [if_neg, ih hnodup he]
      exact fun heq => hf (heq ▸ List.mem_map.mpr ⟨e, he, rfl⟩)

theorem get?_erase (key k : String) (m : Keyed α) :
    get? key (erase k m) = if key = k then none else get? key m := by
  induction m with
  | nil => simp [erase]
  | cons e m ih =>
    obtain ⟨j, a⟩ := e
    unfold erase at ih ⊢
    by_cases hj : j = k
    · subst hj
      rw [List.filter_cons_of_neg (by simp), ih, get?_cons]
      by_cases h : key = j <;> simp [h]
    · rw [List.filter_cons_of_pos (by simpa using hj), get?_cons, get?_cons, ih]
      by_cases h : key = j
      · subst h
        simp [hj]
      · simp [h]

theorem get?_eq_none_iff {key : String} {m : Keyed α} : get? key m = none ↔ key ∉ keys m := by
  induction m with
  | nil => simp
  | cons e m ih =>
    rw [get?_cons]
    by_cases h : key = e.1
    · simp [h]
    · simp [h, ih]

/-- Entries that are changed under their keys. -/
theorem get?_map (f : String → α → β) (key : String) (m : Keyed α) :
    get? key (m.map fun e => (e.1, f e.1 e.2)) = (get? key m).map (f key) := by
  induction m with
  | nil => rfl
  | cons e m ih =>
    rw [List.map_cons, get?_cons, ih, get?_cons]
    split
    · next h =>
      rw [h]
      rfl
    · rfl

/-- What setting a key leaves of its entry, it leaves of the list. -/
theorem map_set {f : String × α → β} {k : String} {a b : α} {m : Keyed α} (h : get? k m = some b)
    (hf : f (k, a) = f (k, b)) : (set k a m).map f = m.map f := by
  induction m with
  | nil => cases h
  | cons e m ih =>
    obtain ⟨j, c⟩ := e
    rw [get?_cons] at h
    by_cases hk : k = j
    · rw [if_pos hk] at h
      obtain rfl := Option.some.inj h
      subst hk
      simp [set, hf]
    · rw [if_neg hk] at h
      simp [set, hk, ih h]

theorem get?_ofList_eq_none_iff {entries : List (String × α)} {k : String} :
    get? k (ofList entries) = none ↔ k ∉ entries.map Prod.fst := by
  induction entries using List.reverseRecOn with
  | nil => simp [ofList]
  | append_singleton entries e ih =>
    rw [ofList_concat, get?_set]
    by_cases h : k = e.1
    · simp [h]
    · simpa [h] using ih

theorem mem_of_get?_ofList {entries : List (String × α)} {k : String} {a : α}
    (h : get? k (ofList entries) = some a) : (k, a) ∈ entries :=
  mem_of_mem_ofList (mem_of_get?_eq_some h)

/-- Of entries that are set over others, the last one of a key is found under it. -/
theorem get?_setAll (entries : List (String × α)) (m : Keyed α) (k : String) :
    get? k (entries.foldl (fun m e => set e.1 e.2 m) m) =
      ((entries.findRev? (·.1 = k)).map Prod.snd).or (get? k m) := by
  rw [List.findRev?_eq_find?_reverse]
  induction entries using List.reverseRecOn with
  | nil => rfl
  | append_singleton entries e ih =>
    rw [List.foldl_concat, get?_set, ih, List.reverse_concat, List.find?_cons]
    by_cases h : e.1 = k
    · simp [h]
    · simp [h, Ne.symm h]

/-- Of the entries given, the last one of a key is found under it. -/
theorem get?_ofList (entries : List (String × α)) (k : String) :
    get? k (ofList entries) = (entries.findRev? (·.1 = k)).map Prod.snd := by
  rw [ofList, get?_setAll, get?_nil, Option.or_none]

/-- A search for what no item is. -/
theorem findRev?_eq_none {p : β → Bool} {bs : List β} (h : ∀ b ∈ bs, p b = false) :
    bs.findRev? p = none := by
  rw [List.findRev?_eq_find?_reverse, List.find?_eq_none]
  intro b hb
  simp [h b (List.mem_reverse.mp hb)]

/-- A search for a key among items as entries. -/
theorem findRev?_map_eq {κ : Type} [DecidableEq κ] (f : β → κ) (g : β → α) (bs : List β) (k : κ) :
    ((bs.map fun b => (f b, g b)).findRev? (·.1 = k)).map Prod.snd =
      (bs.findRev? (f · = k)).map g := by
  simp only [List.findRev?_eq_find?_reverse, ← List.map_reverse, List.find?_map, Option.map_map]
  rfl

theorem get?_ofList_map (f : β → String) (g : β → α) (bs : List β) (k : String) :
    get? k (ofList (bs.map fun b => (f b, g b))) = (bs.findRev? (f · = k)).map g := by
  rw [get?_ofList, findRev?_map_eq]

end SheetSync.Keyed
