-- SUMMARY: Resolving a type and a format by a registry finds what a scan of its catalog finds.
import OpenApi.Format

/-!
# Resolving formats

A registry is filled row by row, so what it holds depends on the order in which rows come,
on rows that are there twice, and on rows that are left out. The catalog itself is easier to
read: what counts for a string or a number is the first row with the type and the format,
and where there is none the first row with the type and without a format. The two agree for
every catalog.
-/

namespace OpenApi

/-! ## Scanning a catalog -/

/-- The scalar type in the first row of a catalog for a type and a format. -/
def firstRow? (rows : List CatalogEntry) (primitive : Primitive) (format : Option String) :
    Option ScalarType :=
  (rows.find? fun row => row.primitive == primitive && row.format == format).map (·.scalar)

/-- What a catalog makes of a type and a format, read row by row. -/
def scan (rows : List CatalogEntry) (primitive : Primitive) (format : Option String) :
    Except SchemaError ScalarType :=
  match primitive with
  | .integer => .ok .integer
  | .boolean => .ok .boolean
  | .array | .object => .error (.notScalar primitive)
  | .string | .number =>
    match (firstRow? rows primitive format).or (firstRow? rows primitive none) with
    | some scalar => .ok scalar
    | none => .error (.malformedRegistry primitive format)

variable {primitive : Primitive} {format : Option String}

@[simp] theorem firstRow?_nil : firstRow? [] primitive format = none := rfl

theorem firstRow?_cons (row : CatalogEntry) (rest : List CatalogEntry) :
    firstRow? (row :: rest) primitive format =
      (if row.primitive = primitive ∧ row.format = format then some row.scalar else none).or
        (firstRow? rest primitive format) := by
  by_cases h : row.primitive = primitive ∧ row.format = format
  · simp [firstRow?, h]
  · have hskip : (row.primitive == primitive && row.format == format) = false := by
      simpa using h
    simp [firstRow?, hskip, h]

/-- Rows for other types are passed over. -/
theorem firstRow?_filter (rows : List CatalogEntry) :
    firstRow? (rows.filter (·.primitive = primitive)) primitive format =
      firstRow? rows primitive format := by
  unfold firstRow?
  rw [List.find?_filter]
  congr 2
  funext row
  by_cases h : row.primitive = primitive <;> simp [h, Bool.beq_eq_decide_eq]

theorem scan_filter (rows : List CatalogEntry) (primitive : Primitive) (format : Option String) :
    scan (rows.filter (·.primitive = primitive)) primitive format = scan rows primitive format := by
  unfold scan
  simp only [firstRow?_filter]

/-! ## Filling a registry -/

/-- An entry that is added is found unless there was one for its format before. -/
theorem FormatTable.lookup_add (table : FormatTable) (added : Option String) (scalar : ScalarType) :
    List.lookup format (table.add added scalar) =
      (List.lookup format table).or (if added = format then some scalar else none) := by
  unfold FormatTable.add
  split
  · rename_i hthere
    by_cases heq : added = format
    · -- The format has an entry already, and that is what remains to be found.
      subst heq
      obtain ⟨entry, hmem, hkey⟩ := List.any_eq_true.mp hthere
      have hsome : (List.lookup added table).isSome = true :=
        List.lookup_isSome_iff.mpr ⟨entry, hmem, BEq.symm hkey⟩
      obtain ⟨found, hfound⟩ := Option.isSome_iff_exists.mp hsome
      simp [hfound]
    · simp [heq]
  · rw [List.lookup_append]
    by_cases heq : added = format
    · simp [heq]
    · simp [heq, List.lookup_cons, beq_false_of_ne (Ne.symm heq)]

namespace Registry

/-- The formats of a type; only strings and numbers have any. -/
def table (registry : Registry) : Primitive → FormatTable
  | .string => registry.strings
  | .number => registry.numbers
  | _ => []

theorem table_add_of_ne {row : CatalogEntry} (h : row.primitive ≠ primitive) (registry : Registry) :
    (registry.add row).table primitive = registry.table primitive := by
  cases hrow : row.primitive <;> cases primitive <;> simp_all [add, table]

/-- Adding a row adds its entry to the formats of its type, and to no others. -/
theorem lookup_table_add (hformats : primitive = .string ∨ primitive = .number)
    (registry : Registry) (row : CatalogEntry) :
    List.lookup format ((registry.add row).table primitive) =
      (List.lookup format (registry.table primitive)).or
        (if row.primitive = primitive ∧ row.format = format then some row.scalar else none) := by
  by_cases htype : row.primitive = primitive
  · rcases hformats with rfl | rfl <;>
      simpa [add, table, htype] using FormatTable.lookup_add _ row.format row.scalar
  · simp [table_add_of_ne htype, htype]

/-- What a registry finds after rows have been added is what it found before, or what the rows
say. -/
theorem lookup_table_foldl (hformats : primitive = .string ∨ primitive = .number)
    (rows : List CatalogEntry) (registry : Registry) :
    List.lookup format ((rows.foldl add registry).table primitive) =
      (List.lookup format (registry.table primitive)).or (firstRow? rows primitive format) := by
  induction rows generalizing registry with
  | nil => simp
  | cons row rest ih =>
      rw [List.foldl_cons, ih, lookup_table_add hformats, firstRow?_cons, Option.or_assoc]

theorem lookup_table_ofCatalog (hformats : primitive = .string ∨ primitive = .number)
    (rows : List CatalogEntry) :
    List.lookup format ((ofCatalog rows).table primitive) = firstRow? rows primitive format := by
  rw [ofCatalog, lookup_table_foldl hformats]
  rcases hformats with rfl | rfl <;> simp [table]

theorem lookup?_eq (table : FormatTable) (format : Option String) :
    lookup? table format = (List.lookup format table).or (List.lookup none table) := by
  cases format with
  | none => simp [lookup?]
  | some name => rfl

/-- The registry of a catalog resolves what a scan of the catalog resolves, and rows for other types
have no influence. -/
theorem resolve_ofCatalog (rows : List CatalogEntry) (primitive : Primitive)
    (format : Option String) :
    (ofCatalog rows).resolve primitive format = scan rows primitive format ∧
      (ofCatalog (rows.filter (·.primitive = primitive))).resolve primitive format =
        (ofCatalog rows).resolve primitive format := by
  have hscan : ∀ rows, (ofCatalog rows).resolve primitive format = scan rows primitive format := by
    intro rows
    have hfound (hformats : primitive = .string ∨ primitive = .number) :
        lookup? ((ofCatalog rows).table primitive) format =
          (firstRow? rows primitive format).or (firstRow? rows primitive none) := by
      rw [lookup?_eq, lookup_table_ofCatalog hformats, lookup_table_ofCatalog hformats]
    cases primitive with
    | integer | boolean | array | object => rfl
    | string =>
        have hstrings := hfound (.inl rfl)
        simp only [table] at hstrings
        simp only [resolve, hstrings]
        rfl
    | number =>
        have hnumbers := hfound (.inr rfl)
        simp only [table] at hnumbers
        simp only [resolve, hnumbers]
        rfl
  exact ⟨hscan rows, by rw [hscan, hscan, scan_filter]⟩

/-- The row without a format may come last, and of two rows for one format the first counts. -/
example :
    let rows : List CatalogEntry :=
      [⟨.string, some "day", .date⟩, ⟨.number, some "day", .float⟩, ⟨.string, some "day", .time⟩,
       ⟨.string, none, .text⟩]
    (ofCatalog rows).resolve .string (some "day") = .ok .date ∧
      (ofCatalog rows).resolve .string (some "night") = .ok .text ∧
      (ofCatalog rows).resolve .number (some "night") =
        .error (.malformedRegistry .number (some "night")) := by
  exact ⟨rfl, rfl, rfl⟩

end Registry
end OpenApi
