import SqlCompletion.Proofs.Schema.Format
import SqlCompletion.Proofs.Schema.Writing
import SqlCompletion.Proofs.Text.Utf8
import SqlCompletion.Proofs.TextMap

/-!
Schemas from texts in the tree form.

A tree maps names of databases to names of tables to columns, and its text may have the names in any
order.

* `Schema.Tree`, `Schema.Tree.IsWritten`: trees, and the JSON values that they are written as;
* `TextMap.IsListed`, `Schema.Lists`: a schema with the databases and tables of a tree, sorted by
  the bytes of their names;
* `Schema.ofListed?_eq_none`, `Schema.ofTree?_eq`: the value of a tree is never taken for the listed
  form, and is read in the tree form;
* `Schema.build_writes`: writing database after database and table after table gives the same;
* `Schema.parse_of_isWritten`: so a tree is loaded completely, and in order.
-/

namespace SqlCompletion

open Json Text

/-! ### Trees and the values that they are written as -/

/-- A column is written as a record, its two fields in either order. -/
def Column.IsWritten (column : Column) (v : Value) : Prop :=
  v = .record [("name", .text column.name), ("type", .text column.dataType)] ∨
    v = .record [("type", .text column.dataType), ("name", .text column.name)]

/-- Things are written as an array, in their order. -/
def Json.Value.IsArray {α : Type} (isWritten : α → Value → Prop) (xs : List α) (v : Value) : Prop :=
  ∃ vs, v = .array vs ∧ List.Forall₂ isWritten xs vs

/-- A map is written as an object with one field for each key, in any order. -/
def TextMap.IsWritten {α : Type} (isWritten : α → Value → Prop) (m : TextMap α) (v : Value) :
    Prop :=
  ∃ entries fields, entries.Perm m.entries ∧ v = .record fields ∧
    List.Forall₂ (fun e f => e.1 = f.1 ∧ isWritten e.2 f.2) entries fields

/-- The columns of the tables of the databases, by name. -/
abbrev Schema.Tree : Type :=
  TextMap (TextMap (List Column))

/-- The values that a tree is written as. -/
def Schema.Tree.IsWritten (tree : Schema.Tree) (v : Value) : Prop :=
  TextMap.IsWritten (TextMap.IsWritten (Value.IsArray Column.IsWritten)) tree v

/-! ### Sorted lists of what a map has -/

section Listed

variable {α β : Type} {m : TextMap α} {nameOf : β → String} {stands : α → β → Prop}

/-- A list of things with names that has what stands for each entry of a map and nothing else, in
the order of the UTF-8 bytes of the names. -/
structure TextMap.IsListed (m : TextMap α) (nameOf : β → String) (stands : α → β → Prop)
    (xs : List β) : Prop where
  sorted : xs.Pairwise fun x y => compareBytes (nameOf x) (nameOf y) = .lt
  mem_iff : ∀ x, x ∈ xs ↔ ∃ a, m.find? (nameOf x) = some a ∧ stands a x

/-- There is one such list where a name and a value determine the thing that stands for them. -/
lemma TextMap.isListed_iff {make : String → α → β} (hname : ∀ key a, nameOf (make key a) = key)
    (hstands : ∀ a x, stands a x ↔ x = make (nameOf x) a) {xs : List β} :
    m.IsListed nameOf stands xs ↔ xs = m.entries.map fun e => make e.1 e.2 := by
  have hlisted : m.IsListed nameOf stands (m.entries.map fun e => make e.1 e.2) := by
    constructor
    · rw [List.pairwise_map]
      refine m.increasing.imp fun h => ?_
      rwa [hname, hname, compareBytes_eq_lt_iff]
    · intro x
      simp only [List.mem_map, Prod.exists, mem_entries_iff, hstands]
      constructor
      · rintro ⟨key, a, hfind, rfl⟩
        exact ⟨a, by rwa [hname], by rw [hname]⟩
      · rintro ⟨a, hfind, hx⟩
        exact ⟨nameOf x, a, hfind, hx.symm⟩
  refine ⟨fun h => ?_, fun h => h ▸ hlisted⟩
  have hnodup : ∀ {ys : List β}, m.IsListed nameOf stands ys → ys.Nodup := fun hys =>
    hys.sorted.imp fun {x y} hlt heq => by
      rw [compareBytes_eq_lt_iff, heq] at hlt
      exact String.lt_irrefl _ hlt
  have hperm : xs.Perm (m.entries.map fun e => make e.1 e.2) :=
    (List.perm_ext_iff_of_nodup (hnodup h) (hnodup hlisted)).mpr fun x =>
      (h.mem_iff x).trans (hlisted.mem_iff x).symm
  refine hperm.eq_of_pairwise (fun x y _ _ hxy hyx => ?_) h.sorted hlisted.sorted
  rw [compareBytes_eq_lt_iff] at hxy hyx
  exact absurd hyx (String.lt_asymm hxy)

end Listed

/-- A database with the tables of a map, sorted by name, and their columns. -/
def Database.Lists (database : Database) (tables : TextMap (List Column)) : Prop :=
  tables.IsListed Table.name (fun columns table => table.columns = columns) database.tables

/-- A schema with the databases of a tree, sorted by name, and their tables. -/
def Schema.Lists (schema : Schema) (tree : Schema.Tree) : Prop :=
  tree.IsListed Database.name (fun tables database => database.Lists tables) schema.databases

/-- The database with the tables of a map. -/
def Database.ofMap (name : String) (tables : TextMap (List Column)) : Database :=
  ⟨name, tables.entries.map fun e => ⟨e.1, e.2⟩⟩

/-- The schema with the databases of a tree. -/
def Schema.ofMap (tree : Schema.Tree) : Schema :=
  ⟨tree.entries.map fun e => .ofMap e.1 e.2⟩

lemma Database.lists_iff {tables : TextMap (List Column)} {database : Database} :
    database.Lists tables ↔ database = .ofMap database.name tables := by
  have hname : ∀ (name : String) (columns : List Column), (Table.mk name columns).name = name :=
    fun _ _ => rfl
  rw [Lists, TextMap.isListed_iff hname]
  · obtain ⟨name, tables⟩ := database
    simp [ofMap]
  · rintro columns ⟨name, tableColumns⟩
    simp

lemma Schema.lists_ofMap (tree : Tree) : (ofMap tree).Lists tree :=
  (TextMap.isListed_iff (fun _ _ => rfl) fun _ _ => Database.lists_iff).mpr rfl

/-! ### Reading a tree -/

/-- A schema is read back from its value in the listed form. -/
lemma Schema.ofValue?_toValue (s : Schema) : ofValue? s.toValue = some s := by
  have hlimits : s.toValue.withinLimits := s.isModest_toValue.withinLimits (by decide)
  rw [ofValue?, if_pos hlimits, ofListed?_toValue, Option.some_or]

/-- What stands on the right of two lists that correspond has something on the left. -/
lemma exists_of_mem_right {α β : Type} {R : α → β → Prop} {xs : List α} {ys : List β}
    (h : List.Forall₂ R xs ys) : ∀ y ∈ ys, ∃ x ∈ xs, R x y := by
  induction h with
  | nil => simp
  | cons hxy _ ih => exact List.forall_mem_cons.mpr ⟨⟨_, by simp, hxy⟩, fun y hy => by
      obtain ⟨x, hx, hR⟩ := ih y hy
      exact ⟨x, List.mem_cons_of_mem _ hx, hR⟩⟩

lemma Column.IsWritten.ofValue? {column : Column} {v : Value} (h : column.IsWritten v) :
    Column.ofValue? v = some column := by
  rcases h with rfl | rfl
  · exact ofValue?_toValue column
  · rw [Column.ofValue?, Value.toRecord?_record]
    · simp [List.lookup_cons]
    · simp

lemma Column.IsWritten.isModest {column : Column} {v : Value} (h : column.IsWritten v) :
    v.IsModest 1 := by
  rcases h with rfl | rfl
  all_goals
    refine .record ?_
    simp [Value.IsModest.text]

section Values

variable {α γ : Type} {isWritten : α → Value → Prop} {n : ℕ} {v : Value}

lemma Json.Value.IsArray.toList? {item : Value → Option α}
    (hitem : ∀ a v, isWritten a v → item v = some a) {xs : List α}
    (h : Value.IsArray isWritten xs v) : v.toList? item = some xs := by
  obtain ⟨vs, rfl, hvs⟩ := h
  rw [Value.toList?]
  induction hvs with
  | nil => rfl
  | cons hx _ ih => simp [hitem _ _ hx, ih]

lemma Json.Value.IsArray.isModest (hitem : ∀ a v, isWritten a v → v.IsModest n) {xs : List α}
    (h : Value.IsArray isWritten xs v) : v.IsModest (n + 1) := by
  obtain ⟨vs, rfl, hvs⟩ := h
  refine .array fun w hw => ?_
  obtain ⟨a, -, ha⟩ := exists_of_mem_right hvs w hw
  exact hitem a w ha

variable {m : TextMap α}

/-- The fields of an object that a map is written as are those of the map in some order, once their
values are read and turned into those of the map. -/
lemma TextMap.IsWritten.toFields? {item : Value → Option γ} {turn : γ → α}
    (hitem : ∀ a v, isWritten a v → ∃ x, item v = some x ∧ turn x = a)
    (h : m.IsWritten isWritten v) :
    ∃ read, v.toFields? item = some read ∧
      (read.map fun e => (e.1, turn e.2)).Perm m.entries := by
  obtain ⟨entries, fields, hperm, rfl, hfields⟩ := h
  suffices ∃ read, (Value.record fields).toFields? item = some read ∧
      (read.map fun e => (e.1, turn e.2)) = entries by
    obtain ⟨read, hread, heq⟩ := this
    exact ⟨read, hread, heq ▸ hperm⟩
  clear hperm
  rw [Value.record, Value.toFields?]
  induction hfields with
  | nil => exact ⟨[], rfl, rfl⟩
  | @cons e f entries fields he _ ih =>
      obtain ⟨read, hread, heq⟩ := ih
      obtain ⟨x, hx, hturn⟩ := hitem _ _ he.2
      obtain ⟨key, a⟩ := e
      obtain ⟨key', w⟩ := f
      obtain rfl : key = key' := he.1
      refine ⟨(key, x) :: read, ?_, ?_⟩
      · simp only [List.map_cons, List.mapM_cons, hread, hx]
        rfl
      · rw [List.map_cons, heq, hturn]

lemma TextMap.IsWritten.isModest (hitem : ∀ a v, isWritten a v → v.IsModest n)
    (h : m.IsWritten isWritten v) : v.IsModest (n + 1) := by
  obtain ⟨entries, fields, -, rfl, hfields⟩ := h
  refine .record fun field hfield => ?_
  obtain ⟨entry, -, hentry⟩ := exists_of_mem_right hfields field hfield
  exact hitem _ _ hentry.2

/-- The keys of the object are distinct, and each value is one of those that the map is written
with. -/
lemma TextMap.IsWritten.exists_record (h : m.IsWritten isWritten v) :
    ∃ fields : List (String × Value), v = .record fields ∧ (fields.map Prod.fst).Nodup ∧
      ∀ field ∈ fields, ∃ a, isWritten a field.2 := by
  obtain ⟨entries, fields, hperm, rfl, hfields⟩ := h
  have hkeys : entries.map Prod.fst = fields.map Prod.fst := by
    rw [← List.forall₂_eq_eq_eq, List.forall₂_map_left_iff, List.forall₂_map_right_iff]
    exact hfields.imp fun _ _ h => h.1
  refine ⟨fields, rfl, ?_, fun field hfield => ?_⟩
  · rw [← hkeys, (hperm.map Prod.fst).nodup_iff]
    exact m.nodup_keys
  · obtain ⟨entry, -, hentry⟩ := exists_of_mem_right hfields field hfield
    exact ⟨entry.2, hentry.2⟩

end Values

namespace Schema

section Read

variable {tree : Tree} {v : Value}

/-- The value of a tree is read in the tree form, whatever the order of its keys. -/
lemma ofTree?_eq (h : tree.IsWritten v) : ofTree? v = some (ofMap tree) := by
  have hcolumns : ∀ columns v, Value.IsArray Column.IsWritten columns v →
      v.toList? Column.ofValue? = some columns := fun columns v hv =>
    hv.toList? fun _ _ hcolumn => hcolumn.ofValue?
  have htables : ∀ tables v, TextMap.IsWritten (Value.IsArray Column.IsWritten) tables v →
      ∃ read, v.toFields? (Value.toList? Column.ofValue?) = some read ∧
        TextMap.ofList read = tables := fun tables v hv => by
    obtain ⟨read, hread, hperm⟩ := hv.toFields? fun columns v hv =>
      ⟨columns, hcolumns columns v hv, id_eq columns⟩
    exact ⟨read, hread, TextMap.ofList_of_perm (by simpa using hperm)⟩
  obtain ⟨read, hread, hperm⟩ := TextMap.IsWritten.toFields? htables h
  have hentries := TextMap.entries_ofList_map TextMap.ofList read
  rw [TextMap.ofList_of_perm hperm] at hentries
  rw [ofTree?, hread, ofMap, hentries, List.map_map]
  rfl

/-- The value of a tree is not in the listed form, also when a database is called like the field of
that form: what stands under its name is no array. -/
lemma ofListed?_eq_none (h : tree.IsWritten v) : ofListed? v = none := by
  obtain ⟨fields, rfl, hnodup, hvalues⟩ := h.exists_record
  rw [ofListed?, Value.toRecord?_record hnodup]
  cases hlookup : fields.lookup "databases" with
  | none => simp [hlookup]
  | some w =>
      obtain ⟨front, rest, hsplit, -⟩ := List.lookup_eq_some_iff.mp hlookup
      obtain ⟨tables, hw⟩ := hvalues ("databases", w) (by simp [hsplit])
      obtain ⟨inner, rfl, -, -⟩ := hw.exists_record
      simp [hlookup, Value.record, Value.toList?]

/-- Four arrays and objects stand inside one another. -/
lemma isModest_of_isWritten (h : tree.IsWritten v) : v.IsModest 4 :=
  h.isModest fun _ _ htables => htables.isModest fun _ _ hcolumns =>
    hcolumns.isModest fun _ _ hcolumn => hcolumn.isModest

lemma ofValue?_eq (h : tree.IsWritten v) : ofValue? v = some (ofMap tree) := by
  have hlimits : v.withinLimits := (isModest_of_isWritten h).withinLimits (by decide)
  rw [ofValue?, if_pos hlimits, ofListed?_eq_none h, ofTree?_eq h, Option.none_or]

end Read

/-! ### Writing a tree piece by piece -/

/-- The writes of a tree: each database as an empty one, and after it its tables. -/
def Tree.writes (tree : Tree) : List Write :=
  tree.entries.flatMap fun (name, tables) =>
    .database name [] :: tables.entries.map fun (table, columns) => .table name ⟨table, columns⟩

/-- Tables go into the database that was written last. -/
lemma foldl_write_table {front : List Database} {d : Database}
    (hfront : ∀ other ∈ front, other.name ≠ d.name) (tables : List Table) :
    (tables.map (Write.table d.name)).foldl (fun s w => write w s) ⟨front ++ [d]⟩ =
      ⟨front ++ [(tables.map .table).foldl (fun d w => Database.write w d) d]⟩ := by
  induction tables generalizing d with
  | nil => rfl
  | cons t tables ih =>
      have hwrite : write (.table d.name t) ⟨front ++ [d]⟩ =
          ⟨front ++ [Database.write (.table t) d]⟩ := by
        rw [write_eq, writing.put_append_of_forall_ne (w := .table d.name t) hfront,
          writing.put_cons_of_eq (w := .table d.name t) rfl]
        rfl
      rw [List.map_cons, List.foldl_cons, hwrite]
      exact ih hfront

/-- The tables of a map are appended one after another. -/
lemma foldl_write_ofMap (name : String) (tables : TextMap (List Column)) :
    ((tables.entries.map fun e => Table.mk e.1 e.2).map Database.Write.table).foldl
        (fun d w => Database.write w d) ⟨name, []⟩ = .ofMap name tables := by
  rw [Database.foldl_write, Database.writing.foldl_put_of_nodup, Database.ofMap, List.map_map,
    List.map_map]
  · rfl
  · rw [List.map_map, List.map_map]
    exact tables.nodup_keys

/-- A database that is new comes last with all its tables. -/
lemma foldl_write_database {s : Schema} {name : String} (hnew : ∀ d ∈ s.databases, d.name ≠ name)
    (tables : TextMap (List Column)) :
    (Write.database name [] :: tables.entries.map fun e => .table name ⟨e.1, e.2⟩).foldl
        (fun s w => write w s) s = ⟨s.databases ++ [.ofMap name tables]⟩ := by
  have hempty : write (.database name []) s = ⟨s.databases ++ [⟨name, []⟩]⟩ := by
    rw [write_eq, writing.put_of_forall_ne (w := .database name []) hnew]
    rfl
  have htables := foldl_write_table (d := ⟨name, []⟩) hnew
    (tables.entries.map fun e => Table.mk e.1 e.2)
  rw [foldl_write_ofMap, List.map_map] at htables
  rw [List.foldl_cons, hempty]
  exact htables

/-- Piece by piece the schema of a tree is written. -/
lemma build_writes (tree : Tree) : build tree.writes = ofMap tree := by
  suffices ∀ (entries : List (String × TextMap (List Column))) (s : Schema),
      (s.databases.map Database.name ++ entries.map Prod.fst).Nodup →
      (entries.flatMap fun e => Write.database e.1 [] ::
        e.2.entries.map fun e' => .table e.1 ⟨e'.1, e'.2⟩).foldl (fun s w => write w s) s =
          ⟨s.databases ++ entries.map fun e => .ofMap e.1 e.2⟩ from
    this tree.entries {} tree.nodup_keys
  intro entries s h
  induction entries generalizing s with
  | nil => simp
  | cons e entries ih =>
      have hnew : ∀ d ∈ s.databases, d.name ≠ e.1 := fun d hd =>
        (List.nodup_append.mp h).2.2 _ (List.mem_map_of_mem hd) _ (by simp)
      rw [List.flatMap_cons, List.foldl_append, foldl_write_database hnew,
        ih _ (by simpa [Database.ofMap] using h)]
      simp

/-! ### Loading a tree -/

/-- **Trees are loaded completely and in order.** A value that a tree is written as, with all keys in
any order, is read back from its text. From any text of this value the schema is loaded that has
exactly the databases of the tree, sorted by the UTF-8 bytes of their names, each with exactly its
tables, sorted likewise, and these with their columns in order. It is the schema that comes from
writing each database and then its tables one by one, so nothing is merged or lost on the way. The
text of this schema in the listed form gives the same schema again. -/
theorem parse_of_isWritten {tree : Tree} {v : Value} (h : tree.IsWritten v) :
    Value.parse? v.render = some v ∧
      ∀ raw, Value.parse? raw = some v →
        ∃ s, parse raw = .ok s ∧ s.Lists tree ∧ s = build tree.writes ∧
          parse s.render = .ok s := by
  refine ⟨Value.parse?_render (isModest_of_isWritten h).isExact, fun raw hraw => ?_⟩
  refine ⟨ofMap tree, ?_, lists_ofMap tree, (build_writes tree).symm, ?_⟩
  · rw [parse, hraw, Option.bind_some, ofValue?_eq h]
  · rw [parse, parse?_render, Option.bind_some, ofValue?_toValue]

/-- A database called like the field of the listed form, names that differ in case alone, and a
database and a table without anything in them, all in another order than that of their bytes. -/
theorem parse_of_isWritten_unordered :
    let tables : TextMap (List Column) :=
      ⟨[("Orders", []), ("orders", [⟨"id", "int"⟩, ⟨"at", "time"⟩])], by decide⟩
    let tree : Tree := ⟨[("Shop", .empty), ("databases", tables)], by decide⟩
    let id : Value := .record [("type", .text "int"), ("name", .text "id")]
    let time : Value := .record [("name", .text "at"), ("type", .text "time")]
    let v : Value := .record
      [("databases", .record [("orders", .array [id, time]), ("Orders", .array [])]),
        ("Shop", .record [])]
    tree.IsWritten v ∧ parse v.render =
      .ok ⟨[⟨"Shop", []⟩, ⟨"databases", [⟨"Orders", []⟩,
        ⟨"orders", [⟨"id", "int"⟩, ⟨"at", "time"⟩]⟩]⟩]⟩ := by
  intro tables tree id time v
  have hcolumns : Value.IsArray Column.IsWritten [⟨"id", "int"⟩, ⟨"at", "time"⟩] (.array [id, time]) :=
    ⟨_, rfl, .cons (.inr rfl) (.cons (.inl rfl) .nil)⟩
  have htables : tables.IsWritten (Value.IsArray Column.IsWritten)
      (.record [("orders", .array [id, time]), ("Orders", .array [])]) :=
    ⟨_, _, .swap .., rfl, .cons ⟨rfl, hcolumns⟩ (.cons ⟨rfl, [], rfl, .nil⟩ .nil)⟩
  have hv : tree.IsWritten v :=
    ⟨_, _, .swap .., rfl, .cons ⟨rfl, htables⟩ (.cons ⟨rfl, [], [], .refl _, rfl, .nil⟩ .nil)⟩
  obtain ⟨hread, hparse⟩ := parse_of_isWritten hv
  obtain ⟨s, hs, -, rfl, -⟩ := hparse _ hread
  exact ⟨hv, hs⟩

end Schema

end SqlCompletion
