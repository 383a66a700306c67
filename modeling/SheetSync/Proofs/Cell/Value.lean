import Mathlib.Data.String.Basic
import SheetSync.Proofs.Json.Reader
import SheetSync.Proofs.Json.Text
import SheetSync.Wire.Cell
/-!
Values and their trees. A value is proper if its integers are within 64 bits and its records name
each field once, in order; whatever is read is proper.

Main statement: `IsProper.ofJson?_toJson`, by which a proper value is read from its tree.
-/
namespace SheetSync.Value

/-- Values as cells can hold them. -/
inductive IsProper : Value → Prop where
  | null : IsProper .null
  | bool (b : Bool) : IsProper (.bool b)
  | int {n : Int} (lo : -Int.pow 2 63 ≤ n) (hi : n < Int.pow 2 64) : IsProper (.int n)
  | double (x : Double) : IsProper (.double x)
  | text (s : String) : IsProper (.text s)
  | list {items : List Value} (h : ∀ v ∈ items, IsProper v) : IsProper (.list items)
  | record {fields : List (String × Value)} (sorted : (fields.map Prod.fst).Pairwise (· < ·))
    (h : ∀ f ∈ fields, IsProper f.2) : IsProper (.record fields)

/-- Values in which no binary number occurs. -/
inductive HasNoDouble : Value → Prop where
  | null : HasNoDouble .null
  | bool (b : Bool) : HasNoDouble (.bool b)
  | int (n : Int) : HasNoDouble (.int n)
  | text (s : String) : HasNoDouble (.text s)
  | list {items : List Value} (h : ∀ v ∈ items, HasNoDouble v) : HasNoDouble (.list items)
  | record {fields : List (String × Value)} (h : ∀ f ∈ fields, HasNoDouble f.2) :
    HasNoDouble (.record fields)

/-! ## Fields in order -/

theorem mem_putField {name : String} {v : Value} {fields : List (String × Value)}
    {f : String × Value} (h : f ∈ putField name v fields) : f = (name, v) ∨ f ∈ fields := by
  induction fields with
  | nil => simpa [putField] using h
  | cons g fields ih =>
    obtain ⟨n, w⟩ := g
    unfold putField at h
    split at h
    · rcases List.mem_cons.mp h with h | h
      · exact .inl h
      · exact .inr (List.mem_cons_of_mem _ h)
    split at h
    · exact List.mem_cons.mp h
    · rcases List.mem_cons.mp h with h | h
      · exact .inr (h ▸ List.mem_cons_self)
      · exact (ih h).imp id (List.mem_cons_of_mem _)

theorem sorted_putField (name : String) (v : Value) {fields : List (String × Value)}
    (h : (fields.map Prod.fst).Pairwise (· < ·)) :
    ((putField name v fields).map Prod.fst).Pairwise (· < ·) := by
  induction fields with
  | nil => simp [putField]
  | cons g fields ih =>
    obtain ⟨n, w⟩ := g
    obtain ⟨hn, hfields⟩ := List.pairwise_cons.mp h
    unfold putField
    split
    · next heq =>
      rw [← heq] at hn
      exact List.pairwise_cons.mpr ⟨hn, hfields⟩
    split
    · next hlt =>
      refine List.pairwise_cons.mpr ⟨fun m hm => ?_, h⟩
      rcases List.mem_cons.mp hm with rfl | hm
      · exact hlt
      · exact lt_trans hlt (hn m hm)
    · next hne hlt =>
      refine List.pairwise_cons.mpr ⟨fun m hm => ?_, ih hfields⟩
      obtain ⟨f, hf, rfl⟩ := List.mem_map.mp hm
      rcases mem_putField hf with rfl | hf
      · exact lt_of_le_of_ne (not_lt.mp hlt) (Ne.symm hne)
      · exact hn _ (List.mem_map.mpr ⟨f, hf, rfl⟩)

/-- A record of proper values is proper, however its fields came. -/
theorem isProper_ofFields {fields : List (String × Value)} (h : ∀ f ∈ fields, f.2.IsProper) :
    (ofFields fields).IsProper := by
  have hall : ∀ done : List (String × Value), (done.map Prod.fst).Pairwise (· < ·) →
      (∀ f ∈ done, f.2.IsProper) →
      (Value.record (fields.foldl (fun done f => putField f.1 f.2 done) done)).IsProper := by
    induction fields with
    | nil => exact fun done hsorted hdone => .record hsorted hdone
    | cons g fields ih =>
      intro done hsorted hdone
      refine ih (fun f hf => h f (List.mem_cons_of_mem g hf)) _ (sorted_putField _ _ hsorted) ?_
      intro f hf
      rcases mem_putField hf with rfl | hf
      · exact h g List.mem_cons_self
      · exact hdone f hf
  exact hall [] List.Pairwise.nil (by simp)

theorem putField_of_lt {name : String} {v : Value} {fields : List (String × Value)}
    (h : ∀ n ∈ fields.map Prod.fst, n < name) : putField name v fields = fields ++ [(name, v)] := by
  induction fields with
  | nil => rfl
  | cons g fields ih =>
    obtain ⟨n, w⟩ := g
    have hn : n < name := h n List.mem_cons_self
    rw [putField, if_neg (ne_of_gt hn), if_neg (not_lt.mpr (le_of_lt hn)),
      ih fun m hm => h m (List.mem_cons_of_mem n hm), List.cons_append]

/-- Fields in order make the record that lists them. -/
theorem ofFields_of_sorted {fields : List (String × Value)}
    (h : (fields.map Prod.fst).Pairwise (· < ·)) : ofFields fields = .record fields := by
  have hall : ∀ done : List (String × Value),
      ((done ++ fields).map Prod.fst).Pairwise (· < ·) →
      fields.foldl (fun done f => putField f.1 f.2 done) done = done ++ fields := by
    clear h
    induction fields with
    | nil => simp
    | cons g fields ih =>
      intro done hsorted
      have hlast : ∀ n ∈ done.map Prod.fst, n < g.1 := by
        rw [List.map_append, List.pairwise_append] at hsorted
        exact fun n hn => hsorted.2.2 n hn g.1 (by simp)
      rw [List.foldl_cons, putField_of_lt hlast, ih _ (by simpa using hsorted)]
      simp
  rw [ofFields, hall [] (by simpa using h), List.nil_append]

/-! ## Values and their trees -/

theorem toJsonItems_eq (items : List Value) : toJsonItems items = items.map toJson := by
  induction items with
  | nil => rfl
  | cons v vs ih => rw [toJsonItems, ih, List.map_cons]

theorem toJsonFields_eq (fields : List (String × Value)) :
    toJsonFields fields = fields.map fun f => (f.1, f.2.toJson) := by
  induction fields with
  | nil => rfl
  | cons f fs ih => rw [toJsonFields, ih, List.map_cons]

/-- Whatever is read is proper. -/
theorem isProper_of_ofJson? {j : Json} (hj : j.IsBounded) {n : Nat} {v : Value}
    (h : ofJson? n j = some v) : v.IsProper := by
  induction hj generalizing n v with
  | null =>
    obtain rfl : Value.null = v := by simpa [ofJson?] using h
    exact .null
  | bool b =>
    obtain rfl : Value.bool b = v := by simpa [ofJson?] using h
    exact .bool b
  | @int i lo hi =>
    obtain rfl : Value.int i = v := by simpa [ofJson?] using h
    exact .int lo hi
  | float x =>
    obtain rfl : Value.double x = v := by simpa [ofJson?] using h
    exact .double x
  | str s =>
    obtain rfl : Value.text s = v := by simpa [ofJson?] using h
    exact .text s
  | @arr items _ ih =>
    cases n with
    | zero => simp [ofJson?] at h
    | succ n =>
      obtain ⟨vs, hvs, rfl⟩ := Option.map_eq_some_iff.mp (by simpa only [ofJson?] using h)
      refine .list fun v hv => ?_
      obtain ⟨x, hx, hxv⟩ := Json.exists_of_mem_mapM hvs hv
      exact ih x hx hxv
  | @obj members _ ih =>
    cases n with
    | zero => simp [ofJson?] at h
    | succ n =>
      obtain ⟨fs, hfs, rfl⟩ := Option.map_eq_some_iff.mp (by simpa only [ofJson?] using h)
      refine isProper_ofFields fun f hf => ?_
      obtain ⟨m, hm, hmf⟩ := Json.exists_of_mem_mapM hfs hf
      obtain ⟨v, hv, rfl⟩ := Option.map_eq_some_iff.mp hmf
      exact ih m hm hv
  | faulty => simp [ofJson?] at h

/-- A value is read from its tree if the reader goes deep enough. -/
theorem IsProper.ofJson?_toJson {v : Value} (h : v.IsProper) {n : Nat} (hn : v.toJson.depth ≤ n) :
    ofJson? n v.toJson = some v := by
  induction h generalizing n with
  | null => simp [toJson, ofJson?]
  | bool b => simp [toJson, ofJson?]
  | int lo hi => simp [toJson, ofJson?]
  | double x => simp [toJson, ofJson?]
  | text s => simp [toJson, ofJson?]
  | @list items _ ih =>
    rw [toJson, toJsonItems_eq] at hn ⊢
    cases n with
    | zero => simp [Json.depth] at hn
    | succ n =>
      have hitems : (items.map toJson).mapM (ofJson? n) = some items :=
        Json.mapM_map_eq_some fun v hv => ih v hv (by
          have := Json.depth_lt_arr (List.mem_map_of_mem (f := toJson) hv)
          omega)
      rw [ofJson?, hitems]
      rfl
  | @record fields hsorted _ ih =>
    rw [toJson, toJsonFields_eq] at hn ⊢
    cases n with
    | zero => simp [Json.depth] at hn
    | succ n =>
      have hfields : (fields.map fun f => (f.1, f.2.toJson)).mapM
          (fun m => (ofJson? n m.2).map (m.1, ·)) = some fields :=
        Json.mapM_map_eq_some fun f hf => by
          have hlt : f.2.toJson.depth < _ := Json.depth_lt_obj
            (List.mem_map_of_mem (f := fun f : String × Value => (f.1, f.2.toJson)) hf)
          rw [ih f hf (by omega)]
          rfl
      rw [ofJson?, hfields]
      exact congrArg some (ofFields_of_sorted hsorted)

/-- The tree of a proper value without binary numbers can be printed and read. -/
theorem IsProper.isExact_toJson {v : Value} (h : v.IsProper) (hd : v.HasNoDouble) :
    v.toJson.IsExact := by
  induction h with
  | null => exact .null
  | bool b => exact .bool b
  | int lo hi => exact .int lo hi
  | double x => cases hd
  | text s => exact .str s
  | @list items _ ih =>
    cases hd with
    | list hd =>
      rw [toJson, toJsonItems_eq]
      refine .arr fun x hx => ?_
      obtain ⟨v, hv, rfl⟩ := List.mem_map.mp hx
      exact ih v hv (hd v hv)
  | @record fields _ _ ih =>
    cases hd with
    | record hd =>
      rw [toJson, toJsonFields_eq]
      refine .obj fun m hm => ?_
      obtain ⟨f, hf, rfl⟩ := List.mem_map.mp hm
      exact ih f hf (hd f hf)

end SheetSync.Value
