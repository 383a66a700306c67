import SheetSync.Proofs.Cell.Value
import SheetSync.Store.File
/-!
Workbook files and their text. A file whose numbers are all of the size that rows, columns and
integers have is read from its text, down to the last cell, if it holds no binary number and does
not nest too deep.

Main statement: `WorkbookFile.IsProper.ofContent?_text`.
-/
namespace SheetSync

open Json (Decoder IsExact)

section Parts

theorem decode_coordinate {n : Nat} (h : n < gridSize) : coordinateOfJson? (.ofNat n) = some n := by
  show (if n < Nat.pow 2 32 then some n else none) = some n
  exact if_pos h

theorem isExact_coordinate {n : Nat} (h : n < gridSize) : IsExact (.ofNat n) := by
  have hsize : gridSize = 4294967296 := rfl
  have hpow : Int.pow 2 63 = 9223372036854775808 := by decide
  have hpow' : Int.pow 2 64 = 18446744073709551616 := by decide
  exact .int (by omega) (by omega)

theorem decode_nullable_string (s : Option String) :
    Decoder.nullable Decoder.string (.ofOption .str s) = some s := by
  cases s <;> rfl

theorem isExact_ofOption (s : Option String) : IsExact (.ofOption .str s) := by
  cases s with
  | none => exact .null
  | some s => exact .str s

theorem isExact_list {α : Type} {f : α → Json} {xs : List α} (h : ∀ x ∈ xs, IsExact (f x)) :
    IsExact (.list f xs) := by
  refine .arr fun y hy => ?_
  obtain ⟨x, hx, rfl⟩ := List.mem_map.mp hy
  exact h x hx

end Parts

/-! ## Cells and sheets -/

namespace SnapshotCell

/-- A cell on the sheet with a proper value. -/
structure IsProper (c : SnapshotCell) : Prop where
  row : c.row < gridSize
  col : c.col < gridSize
  value : c.state.value.IsProper

theorem IsProper.ofJson?_toJson {c : SnapshotCell} (h : c.IsProper) {limit : Nat}
    (hlimit : c.state.value.toJson.depth ≤ limit) : ofJson? limit c.toJson = some c := by
  have hvalue := h.value.ofJson?_toJson hlimit
  have hrow := decode_coordinate h.row
  have hcol := decode_coordinate h.col
  -- every member is looked at as a value first, also the numbers and the formula
  have hint : ∀ n, Value.ofJson? limit (.ofNat n) = some (.int n) := fun n => by
    simp [Json.ofNat, Value.ofJson?]
  have htext : ∀ s, Value.ofJson? limit (.str s) = some (.text s) := fun s => by
    simp [Value.ofJson?]
  obtain ⟨row, col, value, formula⟩ := c
  cases formula with
  | none =>
    simp [toJson, CellState.members, ofJson?, Json.record?, Json.Record.required,
      CellState.ofRecord?, Json.Record.orElse, hvalue, hrow, hcol, hint, List.lookup_cons]
  | some f =>
    simp [toJson, CellState.members, ofJson?, Json.record?, Json.Record.required,
      CellState.ofRecord?, Json.Record.orElse, hvalue, hrow, hcol, hint, htext, List.lookup_cons,
      Decoder.nullable, Decoder.string]

theorem IsProper.isExact_toJson {c : SnapshotCell} (h : c.IsProper)
    (hd : c.state.value.HasNoDouble) : c.toJson.IsExact := by
  have hvalue := h.value.isExact_toJson hd
  refine .obj fun m hm => ?_
  simp only [CellState.members, List.mem_cons] at hm
  rcases hm with rfl | rfl | rfl | hm
  · exact isExact_coordinate h.row
  · exact isExact_coordinate h.col
  · exact hvalue
  · cases hf : c.state.formula with
    | none => simp [hf] at hm
    | some f =>
      obtain rfl : m = ("formula", Json.str f) := by simpa [hf] using hm
      exact .str f

theorem depth_value_lt (c : SnapshotCell) : c.state.value.toJson.depth < c.toJson.depth :=
  Json.depth_lt_obj (m := ("value", c.state.value.toJson)) (by simp [CellState.members])

end SnapshotCell

namespace SheetSnapshot

theorem ofJson?_toJson {s : SheetSnapshot} (h : ∀ c ∈ s.cells, c.IsProper) {limit : Nat}
    (hlimit : ∀ c ∈ s.cells, c.state.value.toJson.depth ≤ limit - 3) :
    ofJson? limit s.toJson = some s := by
  have hcells : Decoder.list (SnapshotCell.ofJson? (limit - 3))
      (.list SnapshotCell.toJson s.cells) = some s.cells :=
    Json.decode_list fun c hc => (h c hc).ofJson?_toJson (hlimit c hc)
  simp [toJson, ofJson?, Json.record?, Json.Record.required, List.lookup_cons, Decoder.string,
    hcells]

theorem isExact_toJson {s : SheetSnapshot} (h : ∀ c ∈ s.cells, c.IsProper)
    (hd : ∀ c ∈ s.cells, c.state.value.HasNoDouble) : s.toJson.IsExact := by
  refine .obj fun m hm => ?_
  simp only [List.mem_cons, List.not_mem_nil, or_false] at hm
  rcases hm with rfl | rfl | rfl
  · exact .str _
  · exact .str _
  · exact isExact_list fun c hc => (h c hc).isExact_toJson (hd c hc)

/-- A value lies three levels below its sheet. -/
theorem depth_value_lt {s : SheetSnapshot} {c : SnapshotCell} (hc : c ∈ s.cells) :
    c.state.value.toJson.depth + 3 ≤ s.toJson.depth := by
  have hvalue := c.depth_value_lt
  have hcell : c.toJson.depth < _ := Json.depth_lt_list (f := SnapshotCell.toJson) hc
  have hcells : (Json.list SnapshotCell.toJson s.cells).depth < s.toJson.depth :=
    Json.depth_lt_obj (m := ("cells", Json.list SnapshotCell.toJson s.cells)) (by simp)
  omega

end SheetSnapshot

/-! ## Names and tables -/

namespace DefinedName

theorem ofJson?_toJson (n : DefinedName) : ofJson? n.toJson = some n := by
  have hsheet := decode_nullable_string n.sheet
  simp [toJson, ofJson?, Json.record?, Json.Record.required, Json.Record.orElse, List.lookup_cons,
    Decoder.string, hsheet]

theorem isExact_toJson (n : DefinedName) : n.toJson.IsExact := by
  refine .obj fun m hm => ?_
  simp only [List.mem_cons, List.not_mem_nil, or_false] at hm
  rcases hm with rfl | rfl | rfl
  · exact .str _
  · exact .str _
  · exact isExact_ofOption _

end DefinedName

namespace Rect

/-- Whether the bounds of a rectangle are rows and columns of a sheet. -/
structure InGrid (r : Rect) : Prop where
  top : r.top < gridSize
  left : r.left < gridSize
  bottom : r.bottom < gridSize
  right : r.right < gridSize

theorem InGrid.ofJson?_toJson {r : Rect} (h : r.InGrid) : ofJson? r.toJson = some r := by
  simp [toJson, ofJson?, Json.record?, Json.Record.required, List.lookup_cons,
    decode_coordinate h.top, decode_coordinate h.left, decode_coordinate h.bottom,
    decode_coordinate h.right]

theorem InGrid.isExact_toJson {r : Rect} (h : r.InGrid) : r.toJson.IsExact := by
  refine .obj fun m hm => ?_
  simp only [List.mem_cons, List.not_mem_nil, or_false] at hm
  rcases hm with rfl | rfl | rfl | rfl
  · exact isExact_coordinate h.top
  · exact isExact_coordinate h.left
  · exact isExact_coordinate h.bottom
  · exact isExact_coordinate h.right

end Rect

namespace Table

theorem ofJson?_toJson {t : Table} (h : t.rect.InGrid) : ofJson? t.toJson = some t := by
  have hcolumns : Decoder.list Decoder.string (.list .str t.columns) = some t.columns :=
    Json.decode_list fun _ _ => rfl
  simp [toJson, ofJson?, Json.record?, Json.Record.required, Json.Record.orElse, List.lookup_cons,
    Decoder.string, h.ofJson?_toJson, hcolumns]

theorem isExact_toJson {t : Table} (h : t.rect.InGrid) : t.toJson.IsExact := by
  refine .obj fun m hm => ?_
  simp only [List.mem_cons, List.not_mem_nil, or_false] at hm
  rcases hm with rfl | rfl | rfl | rfl
  · exact .str _
  · exact .str _
  · exact h.isExact_toJson
  · exact isExact_list fun _ _ => .str _

end Table

/-! ## What is read lies on the sheet -/

theorem lt_of_decode_coordinate {x : Json} {n : Nat} (h : coordinateOfJson? x = some n) :
    n < gridSize := by
  unfold coordinateOfJson? Decoder.nat at h
  split at h
  · split at h
    · next hlt =>
      obtain rfl := Option.some.inj h
      exact hlt
    · cases h
  · cases h

theorem SnapshotCell.isProper_of_ofJson? {x : Json} (hx : x.IsBounded) {limit : Nat}
    {c : SnapshotCell} (h : SnapshotCell.ofJson? limit x = some c) : c.IsProper := by
  cases hx with
  | @obj members hmembers =>
    simp only [SnapshotCell.ofJson?, CellState.ofRecord?, Option.bind_eq_bind,
      Option.bind_eq_some_iff, Option.pure_def] at h
    obtain ⟨-, -, r, hr, row, hrow, col, hcol, state, ⟨v, hv, f, -, hstate⟩, h⟩ := h
    obtain rfl := Option.some.inj h
    obtain rfl := Option.some.inj hstate
    have hbounded := Json.Record.isBounded_of_record? (.obj hmembers) hr
    obtain ⟨_, -, hrow⟩ := hbounded.exists_of_required hrow
    obtain ⟨_, -, hcol⟩ := hbounded.exists_of_required hcol
    refine ⟨lt_of_decode_coordinate hrow, lt_of_decode_coordinate hcol, ?_⟩
    rcases hbounded.exists_of_orElse hv with rfl | ⟨y, hy, hv⟩
    · exact .null
    · exact Value.isProper_of_ofJson? hy hv
  | _ => cases h

theorem SheetSnapshot.isProper_of_ofJson? {x : Json} (hx : x.IsBounded) {limit : Nat}
    {s : SheetSnapshot} (h : SheetSnapshot.ofJson? limit x = some s) :
    ∀ c ∈ s.cells, c.IsProper := by
  simp only [SheetSnapshot.ofJson?, Option.bind_eq_bind, Option.bind_eq_some_iff,
    Option.pure_def] at h
  obtain ⟨r, hr, id, -, name, -, cells, hcells, h⟩ := h
  obtain rfl := Option.some.inj h
  obtain ⟨y, hy, hcells⟩ :=
    (Json.Record.isBounded_of_record? hx hr).exists_of_required hcells
  intro c hc
  obtain ⟨z, hz, hzc⟩ := hy.exists_of_list hcells hc
  exact SnapshotCell.isProper_of_ofJson? hz hzc

theorem Rect.inGrid_of_ofJson? {x : Json} {r : Rect} (h : Rect.ofJson? x = some r) : r.InGrid := by
  simp only [Rect.ofJson?, Json.Record.required, Option.bind_eq_bind, Option.bind_eq_some_iff,
    Option.pure_def] at h
  obtain ⟨_, -, top, ⟨_, -, htop⟩, left, ⟨_, -, hleft⟩, bottom, ⟨_, -, hbottom⟩, right,
    ⟨_, -, hright⟩, h⟩ := h
  obtain rfl := Option.some.inj h
  exact ⟨lt_of_decode_coordinate htop, lt_of_decode_coordinate hleft,
    lt_of_decode_coordinate hbottom, lt_of_decode_coordinate hright⟩

theorem Table.inGrid_of_ofJson? {x : Json} {t : Table} (h : Table.ofJson? x = some t) :
    t.rect.InGrid := by
  simp only [Table.ofJson?, Json.Record.required, Option.bind_eq_bind, Option.bind_eq_some_iff,
    Option.pure_def] at h
  obtain ⟨_, -, name, -, sheet, -, rect, ⟨_, -, hrect⟩, columns, -, h⟩ := h
  obtain rfl := Option.some.inj h
  exact Rect.inGrid_of_ofJson? hrect

/-! ## Files -/

namespace WorkbookFile

/-- A file whose cells and tables lie on their sheets and whose values are proper. -/
structure IsProper (f : WorkbookFile) : Prop where
  cells : ∀ s ∈ f.sheets, ∀ c ∈ s.cells, c.IsProper
  tables : ∀ t ∈ f.tables, t.rect.InGrid

/-- A value lies five levels below the top of a file. -/
theorem depth_value_lt {f : WorkbookFile} {s : SheetSnapshot} (hs : s ∈ f.sheets)
    {c : SnapshotCell} (hc : c ∈ s.cells) :
    c.state.value.toJson.depth + 5 ≤ f.toJson.depth := by
  have hvalue := SheetSnapshot.depth_value_lt hc
  have hsheet : s.toJson.depth < _ := Json.depth_lt_list (f := SheetSnapshot.toJson) hs
  have hsheets : (Json.list SheetSnapshot.toJson f.sheets).depth < f.toJson.depth :=
    Json.depth_lt_obj (m := ("sheets", Json.list SheetSnapshot.toJson f.sheets)) (by simp)
  omega

theorem IsProper.ofJson?_toJson {f : WorkbookFile} (h : f.IsProper)
    (hdepth : f.toJson.depth ≤ nestingLimit) : ofJson? f.toJson = some f := by
  have hlimit : nestingLimit = 127 := rfl
  have hsheets : Decoder.list (SheetSnapshot.ofJson? (nestingLimit - 2))
      (.list SheetSnapshot.toJson f.sheets) = some f.sheets :=
    Json.decode_list fun s hs => SheetSnapshot.ofJson?_toJson (h.cells s hs) fun c hc => by
      have := depth_value_lt hs hc
      omega
  have hnames : Decoder.list DefinedName.ofJson? (.list DefinedName.toJson f.names) =
      some f.names := Json.decode_list fun n _ => n.ofJson?_toJson
  have htables : Decoder.list Table.ofJson? (.list Table.toJson f.tables) = some f.tables :=
    Json.decode_list fun t ht => Table.ofJson?_toJson (h.tables t ht)
  simp [toJson, ofJson?, Json.record?, Json.Record.required, Json.Record.orElse, List.lookup_cons,
    hsheets, hnames, htables]

theorem IsProper.isExact_toJson {f : WorkbookFile} (h : f.IsProper)
    (hd : ∀ s ∈ f.sheets, ∀ c ∈ s.cells, c.state.value.HasNoDouble) : f.toJson.IsExact := by
  refine .obj fun m hm => ?_
  simp only [List.mem_cons, List.not_mem_nil, or_false] at hm
  rcases hm with rfl | rfl | rfl
  · exact isExact_list fun s hs => SheetSnapshot.isExact_toJson (h.cells s hs) (hd s hs)
  · exact isExact_list fun n _ => n.isExact_toJson
  · exact isExact_list fun t ht => Table.isExact_toJson (h.tables t ht)

/-- A file is read from its text. -/
theorem IsProper.ofContent?_text {f : WorkbookFile} (h : f.IsProper)
    (hd : ∀ s ∈ f.sheets, ∀ c ∈ s.cells, c.state.value.HasNoDouble)
    (hdepth : f.toJson.depth ≤ nestingLimit) : ofContent? (.text f.text) = some f := by
  show (Json.read? (String.ofList f.toJson.pretty).toList).bind ofJson? = some f
  rw [String.toList_ofList, (h.isExact_toJson hd).read?_pretty]
  exact h.ofJson?_toJson hdepth

theorem isProper_of_ofJson? {x : Json} (hx : x.IsBounded) {f : WorkbookFile}
    (h : ofJson? x = some f) : f.IsProper := by
  simp only [ofJson?, Option.bind_eq_bind, Option.bind_eq_some_iff, Option.pure_def] at h
  obtain ⟨r, hr, sheets, hsheets, names, -, tables, htables, h⟩ := h
  obtain rfl := Option.some.inj h
  have hbounded := Json.Record.isBounded_of_record? hx hr
  constructor
  case cells =>
    intro s hs
    obtain ⟨y, hy, hsheets⟩ := hbounded.exists_of_required hsheets
    obtain ⟨z, hz, hzs⟩ := hy.exists_of_list hsheets hs
    exact SheetSnapshot.isProper_of_ofJson? hz hzs
  case tables =>
    intro t ht
    rcases hbounded.exists_of_orElse htables with rfl | ⟨y, hy, htables⟩
    · cases ht
    · obtain ⟨z, -, hzt⟩ := hy.exists_of_list htables ht
      exact Table.inGrid_of_ofJson? hzt

/-- Whatever file is read is proper. -/
theorem isProper_of_ofContent? {content : Content} {f : WorkbookFile}
    (h : ofContent? content = some f) : f.IsProper := by
  cases content with
  | text s =>
    obtain ⟨x, hx, hf⟩ := Option.bind_eq_some_iff.mp h
    exact isProper_of_ofJson? (Json.isBounded_of_read? hx) hf
  | raw bytes =>
    obtain ⟨x, hx, hf⟩ := Option.bind_eq_some_iff.mp h
    exact isProper_of_ofJson? (Json.isBounded_of_read? hx) hf

end WorkbookFile

end SheetSync
