import Mathlib.Tactic
import SqlCompletion.Schema.Basic

/-!
Schemas as maps that keep the order of first insertion.

* `Writing`: writes into a sequence of named things, at whatever level;
* `Writing.Puts`, `Writing.puts_put`: one write changes or appends one element and leaves all others
  as and where they are;
* `Writing.foldl_put`: after any writes there is one element for each name written, in the order of
  the first writes, and it is what the writes to its name alone have made;
* `Writing.Reflects`: the same said of a sequence and of the writes that it comes from;
* `Database.Write`, `Schema.Write`, `Database.build`, `Schema.build`: databases and schemas that are
  built by writes;
* `Schema.reflects_build`: all of it for schemas, their databases, tables and columns.
-/

namespace SqlCompletion

/-! ### Writes into a sequence of named things -/

/-- A name that is repeated is left out. -/
lemma eraseDups_append_of_mem {names : List String} {name : String} (h : name ∈ names) :
    (names ++ [name]).eraseDups = names.eraseDups := by
  have hnil : [name].removeAll names = [] := by simp [List.removeAll, h]
  rw [List.eraseDups_append, hnil, List.eraseDups_nil, List.append_nil]

lemma eraseDups_append_of_notMem {names : List String} {name : String} (h : name ∉ names) :
    (names ++ [name]).eraseDups = names.eraseDups ++ [name] := by
  have hname : [name].removeAll names = [name] := by simp [List.removeAll, h]
  rw [List.eraseDups_append, hname, List.eraseDups_cons, List.filter_nil, List.eraseDups_nil]

/-- The names that are left are all different. -/
lemma nodup_eraseDups (names : List String) : names.eraseDups.Nodup := by
  induction names using List.reverseRecOn with
  | nil => simp
  | append_singleton names name ih =>
      by_cases hmem : name ∈ names
      · rwa [eraseDups_append_of_mem hmem]
      · rw [eraseDups_append_of_notMem hmem]
        exact List.nodup_append_comm.mp (List.nodup_cons.mpr ⟨mt List.mem_eraseDups.mp hmem, ih⟩)

/-- Writes into a sequence of named things. Each write has a name and changes the element with this
name, which is blank before the first of them. -/
structure Writing (ω α : Type) where
  nameOf : α → String
  blank : String → α
  target : ω → String
  apply : ω → α → α
  nameOf_blank : ∀ name, nameOf (blank name) = name
  nameOf_apply : ∀ w x, nameOf x = target w → nameOf (apply w x) = target w

namespace Writing

variable {ω α : Type} (m : Writing ω α)

/-- A write into a sequence. -/
def put (w : ω) (xs : List α) : List α :=
  putBy (m.nameOf · == m.target w) (m.apply w) (m.apply w (m.blank (m.target w))) xs

/-- What the writes to a name have made of it, one after another. -/
def made (name : String) (writes : List ω) : α :=
  (writes.filter (m.target · == name)).foldl (fun x w => m.apply w x) (m.blank name)

/-- A write changes the first element with its name, or appends what it makes of a blank one where
there is none. -/
inductive Puts (w : ω) : List α → List α → Prop
  | replaced {before x after} : m.nameOf x = m.target w →
      (∀ y ∈ before, m.nameOf y ≠ m.target w) →
      Puts w (before ++ x :: after) (before ++ m.apply w x :: after)
  | appended {xs} : (∀ x ∈ xs, m.nameOf x ≠ m.target w) →
      Puts w xs (xs ++ [m.apply w (m.blank (m.target w))])

/-- A sequence that has come from some writes: the names are distinct, they stand in the order in
which they were first written, and what the last write to a name has put there is kept. -/
structure Reflects (writes : List ω) (xs : List α) : Prop where
  distinct : (xs.map m.nameOf).Nodup
  order : xs.map m.nameOf = (writes.map m.target).eraseDups
  kept : ∀ earlier w later, writes = earlier ++ w :: later →
    (∀ v ∈ later, m.target v ≠ m.target w) → m.apply w (m.made (m.target w) earlier) ∈ xs

/-! ### One write -/

section Put

variable {w : ω} {x : α} {xs : List α}

lemma put_cons_of_eq (h : m.nameOf x = m.target w) (xs : List α) :
    m.put w (x :: xs) = m.apply w x :: xs := by
  rw [put, putBy, if_pos (by simpa using h)]

lemma put_cons_of_ne (h : m.nameOf x ≠ m.target w) (xs : List α) :
    m.put w (x :: xs) = x :: m.put w xs := by
  rw [put, putBy, if_neg (by simpa using h), ← put]

/-- Elements with other names are passed over. -/
lemma put_append_of_forall_ne {front : List α} (h : ∀ y ∈ front, m.nameOf y ≠ m.target w)
    (xs : List α) : m.put w (front ++ xs) = front ++ m.put w xs := by
  induction front with
  | nil => rfl
  | cons y front ih =>
      obtain ⟨hy, hfront⟩ := List.forall_mem_cons.mp h
      rw [List.cons_append, m.put_cons_of_ne hy, ih hfront, List.cons_append]

/-- A write to a new name comes last. -/
lemma put_of_forall_ne (h : ∀ y ∈ xs, m.nameOf y ≠ m.target w) :
    m.put w xs = xs ++ [m.apply w (m.blank (m.target w))] := by
  have hput := m.put_append_of_forall_ne h []
  rwa [List.append_nil] at hput

lemma puts_put (w : ω) (xs : List α) : m.Puts w xs (m.put w xs) := by
  induction xs with
  | nil => exact .appended (by simp)
  | cons x xs ih =>
      by_cases hx : m.nameOf x = m.target w
      · rw [m.put_cons_of_eq hx]
        have hreplaced : m.Puts w ([] ++ x :: xs) ([] ++ m.apply w x :: xs) :=
          .replaced hx (by simp)
        exact hreplaced
      · rw [m.put_cons_of_ne hx]
        generalize m.put w xs = ys at ih
        cases ih with
        | @replaced before y after hname hbefore =>
            rw [← List.cons_append, ← List.cons_append]
            exact .replaced hname (List.forall_mem_cons.mpr ⟨hx, hbefore⟩)
        | appended hnone => exact .appended (List.forall_mem_cons.mpr ⟨hx, hnone⟩)

end Put

/-- What a write makes of its element has its name. -/
lemma nameOf_made (name : String) (writes : List ω) : m.nameOf (m.made name writes) = name := by
  induction writes using List.reverseRecOn with
  | nil => exact m.nameOf_blank name
  | append_singleton writes w ih =>
      rw [made, List.filter_append, List.foldl_append, ← made]
      by_cases hw : m.target w = name
      · subst hw
        simpa using m.nameOf_apply w _ ih
      · simpa [hw] using ih

/-- A write goes on with what the writes before it have made of its name, and with no other. -/
lemma made_append_singleton (name : String) (writes : List ω) (w : ω) :
    m.made name (writes ++ [w]) =
      if m.target w = name then m.apply w (m.made name writes) else m.made name writes := by
  rw [made, List.filter_append, List.foldl_append, ← made]
  split_ifs with hw <;> simp [hw]

lemma made_of_notMem {name : String} {writes : List ω} (h : name ∉ writes.map m.target) :
    m.made name writes = m.blank name := by
  have hnil : writes.filter (m.target · == name) = [] := by
    refine List.filter_eq_nil_iff.mpr fun w hw heq => h ?_
    exact List.mem_map.mpr ⟨w, hw, by simpa using heq⟩
  rw [made, hnil, List.foldl_nil]

/-- Writes to other names do not matter. -/
lemma made_append_of_forall_ne {name : String} (earlier : List ω) {later : List ω}
    (h : ∀ v ∈ later, m.target v ≠ name) : m.made name (earlier ++ later) = m.made name earlier := by
  have hnil : later.filter (m.target · == name) = [] :=
    List.filter_eq_nil_iff.mpr fun v hv => by simpa using h v hv
  rw [made, List.filter_append, hnil, List.append_nil, ← made]

/-! ### Any number of writes -/

/-- A write to one of several names changes what stands under it. -/
lemma put_map_of_mem {names : List String} {value : String → α} {w : ω}
    (hvalue : ∀ name, m.nameOf (value name) = name) (hnames : names.Nodup)
    (hmem : m.target w ∈ names) :
    m.put w (names.map value) =
      names.map fun name => if m.target w = name then m.apply w (value name) else value name := by
  induction names with
  | nil => simp at hmem
  | cons name names ih =>
      obtain ⟨hnot, hnodup⟩ := List.nodup_cons.mp hnames
      rw [List.map_cons, List.map_cons]
      by_cases hname : m.target w = name
      · rw [m.put_cons_of_eq ((hvalue name).trans hname.symm), if_pos hname]
        refine congrArg (m.apply w (value name) :: ·) (List.map_congr_left fun other hother => ?_)
        rw [if_neg (by rintro rfl; exact hnot (hname ▸ hother))]
      · rw [m.put_cons_of_ne (by simpa [hvalue] using Ne.symm hname), if_neg hname,
          ih hnodup ((List.mem_cons.mp hmem).resolve_left hname)]

/-- What writes have made, with a further write: its name keeps its place if it has one, and comes
last otherwise, and the other names keep what they have. -/
lemma put_map_made (writes : List ω) (w : ω) :
    m.put w ((writes.map m.target).eraseDups.map fun name => m.made name writes) =
      ((writes ++ [w]).map m.target).eraseDups.map fun name => m.made name (writes ++ [w]) := by
  have hvalue : ∀ name, m.nameOf (m.made name writes) = name := fun name => m.nameOf_made name writes
  rw [List.map_append, List.map_singleton]
  by_cases hmem : m.target w ∈ writes.map m.target
  · rw [eraseDups_append_of_mem hmem,
      m.put_map_of_mem hvalue (nodup_eraseDups _) (List.mem_eraseDups.mpr hmem)]
    simp only [m.made_append_singleton]
  · have hother : ∀ name ∈ (writes.map m.target).eraseDups, m.target w ≠ name := by
      rintro name hname rfl
      exact hmem (List.mem_eraseDups.mp hname)
    have hothers : ∀ x ∈ (writes.map m.target).eraseDups.map fun name => m.made name writes,
        m.nameOf x ≠ m.target w := by
      intro x hx
      obtain ⟨name, hname, rfl⟩ := List.mem_map.mp hx
      rw [hvalue]
      exact (hother name hname).symm
    have hkept : ∀ name ∈ (writes.map m.target).eraseDups,
        m.made name (writes ++ [w]) = m.made name writes := fun name hname => by
      rw [m.made_append_singleton, if_neg (hother name hname)]
    have hlast : m.made (m.target w) (writes ++ [w]) = m.apply w (m.blank (m.target w)) := by
      rw [m.made_append_singleton, if_pos rfl, m.made_of_notMem hmem]
    rw [eraseDups_append_of_notMem hmem, m.put_of_forall_ne hothers, List.map_append,
      List.map_singleton, List.map_congr_left hkept, hlast]

/-- After any writes there is one element for each name, in the order of the first writes, and it is
what the writes to this name alone have made. -/
lemma foldl_put (writes : List ω) :
    writes.foldl (fun xs w => m.put w xs) [] =
      (writes.map m.target).eraseDups.map fun name => m.made name writes := by
  induction writes using List.reverseRecOn with
  | nil => simp
  | append_singleton writes w ih =>
      rw [List.foldl_append, List.foldl_cons, List.foldl_nil, ih, put_map_made]

/-- Writes to new names are appended one after another. -/
lemma foldl_put_of_nodup {xs : List α} {writes : List ω}
    (h : (xs.map m.nameOf ++ writes.map m.target).Nodup) :
    writes.foldl (fun xs w => m.put w xs) xs =
      xs ++ writes.map fun w => m.apply w (m.blank (m.target w)) := by
  induction writes generalizing xs with
  | nil => simp
  | cons w writes ih =>
      have hname : m.nameOf (m.apply w (m.blank (m.target w))) = m.target w :=
        m.nameOf_apply w _ (m.nameOf_blank _)
      have hnew : ∀ x ∈ xs, m.nameOf x ≠ m.target w := fun x hx =>
        (List.nodup_append.mp h).2.2 _ (List.mem_map_of_mem hx) _ (by simp)
      rw [List.foldl_cons, m.put_of_forall_ne hnew, ih (by simpa [hname] using h), List.map_cons,
        List.append_assoc, List.singleton_append]

/-- A sequence reflects the writes that it comes from. -/
lemma reflects_foldl_put (writes : List ω) :
    m.Reflects writes (writes.foldl (fun xs w => m.put w xs) []) := by
  have horder : (writes.foldl (fun xs w => m.put w xs) []).map m.nameOf =
      (writes.map m.target).eraseDups := by
    rw [foldl_put, List.map_map]
    exact (List.map_congr_left fun name _ => m.nameOf_made name writes).trans (List.map_id _)
  refine ⟨horder ▸ nodup_eraseDups _, horder, fun earlier w later heq hlater => ?_⟩
  have hmade : m.made (m.target w) writes = m.apply w (m.made (m.target w) earlier) := by
    rw [heq, List.append_cons, m.made_append_of_forall_ne _ hlater,
      m.made_append_singleton, if_pos rfl]
  rw [foldl_put, ← hmade]
  refine List.mem_map.mpr ⟨m.target w, List.mem_eraseDups.mpr ?_, rfl⟩
  exact List.mem_map.mpr ⟨w, by simp [heq], rfl⟩

end Writing

/-! ### Tables -/

/-- Columns are written into a table one by one. -/
def Table.writing : Writing Column Column where
  nameOf := Column.name
  blank name := ⟨name, ""⟩
  target := Column.name
  apply column _ := column
  nameOf_blank _ := rfl
  nameOf_apply _ _ _ := rfl

/-! ### Databases -/

namespace Database

/-- A write into a database: of a table, or of a column into a table. -/
inductive Write
  | table (table : Table)
  | column (tableName : String) (column : Column)

namespace Write

/-- The name of the table that is written to. -/
def target : Write → String
  | table t => t.name
  | column name _ => name

/-- What a write makes of the table that it is for. -/
def apply : Write → Table → Table
  | table t, _ => t
  | column _ c, t => t.insertColumn c

end Write

/-- A database after a write. -/
def write : Write → Database → Database
  | .table t, d => d.insertTable t
  | .column name c, d => d.insertColumn name c

/-- The database with a name that is built by writes. -/
def build (name : String) (writes : List Write) : Database :=
  writes.foldl (fun d w => d.write w) ⟨name, []⟩

/-- Tables and columns are written into a database. -/
def writing : Writing Write Table where
  nameOf := Table.name
  blank name := ⟨name, []⟩
  target := Write.target
  apply := Write.apply
  nameOf_blank _ := rfl
  nameOf_apply w _ h := by
    cases w with
    | table t => rfl
    | column name c => exact h

lemma write_eq (w : Write) (d : Database) : d.write w = ⟨d.name, writing.put w d.tables⟩ := by
  cases w <;> rfl

lemma foldl_write (writes : List Write) (d : Database) :
    writes.foldl (fun d w => d.write w) d =
      ⟨d.name, writes.foldl (fun tables w => writing.put w tables) d.tables⟩ := by
  induction writes generalizing d with
  | nil => rfl
  | cons w writes ih => rw [List.foldl_cons, ih, write_eq, List.foldl_cons]

lemma name_build (name : String) (writes : List Write) : (build name writes).name = name := by
  rw [build, foldl_write]

lemma reflects_build (name : String) (writes : List Write) :
    writing.Reflects writes (build name writes).tables := by
  rw [build, foldl_write]
  exact writing.reflects_foldl_put writes

end Database

/-! ### Schemas -/

namespace Schema

/-- A write into a schema: of a database, which is itself built by writes, or of a table into a
database. -/
inductive Write
  | database (name : String) (writes : List Database.Write)
  | table (databaseName : String) (table : Table)

namespace Write

/-- The name of the database that is written to. -/
def target : Write → String
  | database name _ => name
  | table name _ => name

/-- What a write makes of the database that it is for. -/
def apply : Write → Database → Database
  | database name writes, _ => .build name writes
  | table _ t, d => d.insertTable t

/-- The writes that have made a database, with a further one. A database that is written as a whole
comes with the writes that it was built by. -/
def addTo (made : List Database.Write) : Write → List Database.Write
  | database _ writes => writes
  | table _ t => made ++ [.table t]

end Write

/-- A schema after a write. -/
def write : Write → Schema → Schema
  | .database name writes, s => s.insertDatabase (.build name writes)
  | .table name t, s => s.insertTable name t

/-- The schema that is built by writes. -/
def build (writes : List Write) : Schema :=
  writes.foldl (fun s w => s.write w) {}

/-- The writes into a database that have made it what it is. -/
def writesTo (name : String) (writes : List Write) : List Database.Write :=
  (writes.filter (·.target == name)).foldl Write.addTo []

/-- Databases and tables are written into a schema. -/
def writing : Writing Write Database where
  nameOf := Database.name
  blank name := ⟨name, []⟩
  target := Write.target
  apply := Write.apply
  nameOf_blank _ := rfl
  nameOf_apply w _ h := by
    cases w with
    | database name writes => exact Database.name_build name writes
    | table name t => exact h

lemma write_eq (w : Write) (s : Schema) : s.write w = ⟨writing.put w s.databases⟩ := by
  cases w with
  | database name writes =>
      have hname : (Database.build name writes).name = name := Database.name_build name writes
      simp only [write, insertDatabase, hname]
      rfl
  | table name t => rfl

lemma databases_build (writes : List Write) :
    (build writes).databases = writes.foldl (fun databases w => writing.put w databases) [] := by
  rw [build, ← List.foldl_hom Schema.databases]
  exact fun s w => congrArg databases (write_eq w s).symm

lemma foldl_apply {name : String} (writes : List Write) (hname : ∀ w ∈ writes, w.target = name)
    (made : List Database.Write) :
    writes.foldl (fun d w => w.apply d) (Database.build name made) =
      Database.build name (writes.foldl Write.addTo made) := by
  induction writes generalizing made with
  | nil => rfl
  | cons w writes ih =>
      obtain ⟨hw, hwrites⟩ := List.forall_mem_cons.mp hname
      have hstep : w.apply (Database.build name made) = Database.build name (w.addTo made) := by
        cases w with
        | database other writes =>
            obtain rfl : other = name := hw
            rfl
        | table other t =>
            rw [Write.addTo, Database.build, Database.build, List.foldl_append]
            rfl
      rw [List.foldl_cons, hstep, ih hwrites, List.foldl_cons]

/-- What the writes to a name have made is built by the writes into it. -/
lemma made_eq_build (name : String) (writes : List Write) :
    writing.made name writes = .build name (writesTo name writes) :=
  foldl_apply _ (fun _ hw => beq_iff_eq.mp (List.mem_filter.mp hw).2) []

lemma eq_build_of_mem_build {writes : List Write} {d : Database}
    (h : d ∈ (build writes).databases) : d = .build d.name (writesTo d.name writes) := by
  rw [databases_build, Writing.foldl_put] at h
  obtain ⟨name, -, rfl⟩ := List.mem_map.mp h
  simp only [made_eq_build, Database.name_build]

/-- **Schemas keep the order of insertion.** In a schema that is built by writes the names of the
databases are distinct, they stand in the order in which they were first written, and what the last
write to a name has put there is kept; and each database has come from the writes into it in the same
way, as has any database that is built on its own. Every single write, whatever there was before it,
changes or appends the one database, the one table or the one column that it is for, and leaves all
others as and where they are. -/
theorem build_keepsInsertionOrder :
    (∀ writes : List Write, writing.Reflects writes (build writes).databases ∧
      ∀ d ∈ (build writes).databases,
        Database.writing.Reflects (writesTo d.name writes) d.tables) ∧
    (∀ (name : String) (writes : List Database.Write), (Database.build name writes).name = name ∧
      Database.writing.Reflects writes (Database.build name writes).tables) ∧
    (∀ (s : Schema) (w : Write), writing.Puts w s.databases (s.write w).databases) ∧
    (∀ (d : Database) (w : Database.Write), (d.write w).name = d.name ∧
      Database.writing.Puts w d.tables (d.write w).tables) ∧
    ∀ (t : Table) (c : Column), (t.insertColumn c).name = t.name ∧
      Table.writing.Puts c t.columns (t.insertColumn c).columns := by
  refine ⟨fun writes => ⟨?_, fun d hd => ?_⟩, fun name writes => ?_, fun s w => ?_, fun d w => ?_,
    fun t c => ⟨rfl, Table.writing.puts_put c t.columns⟩⟩
  · rw [databases_build]
    exact writing.reflects_foldl_put writes
  · rw [eq_build_of_mem_build hd, Database.name_build]
    exact Database.reflects_build d.name (writesTo d.name writes)
  · exact ⟨Database.name_build name writes, Database.reflects_build name writes⟩
  · rw [write_eq]
    exact writing.puts_put w s.databases
  · rw [Database.write_eq]
    exact ⟨rfl, Database.writing.puts_put w d.tables⟩

/-- A database that is written again as a whole keeps its place, and so does a table in it to which a
column is added after others were written. -/
theorem build_keepsInsertionOrder_again :
    let id : Column := ⟨"id", "int"⟩
    let writes : List Write := [.table "shop" ⟨"offers", [id]⟩, .table "crm" ⟨"contacts", []⟩,
      .database "shop" [.column "users" id, .table ⟨"orders", []⟩, .column "users" ⟨"at", "time"⟩],
      .table "shop" ⟨"orders", [id]⟩]
    let shop : Database := ⟨"shop", [⟨"users", [id, ⟨"at", "time"⟩]⟩, ⟨"orders", [id]⟩]⟩
    (build writes).databases = [shop, ⟨"crm", [⟨"contacts", []⟩]⟩] ∧
      shop ∈ (build writes).databases ∧
      Database.writing.Reflects (writesTo "shop" writes) shop.tables := by
  intro id writes shop
  have hbuild : (build writes).databases = [shop, ⟨"crm", [⟨"contacts", []⟩]⟩] := by decide
  have hmem : shop ∈ (build writes).databases := hbuild ▸ List.mem_cons_self ..
  exact ⟨hbuild, hmem, (build_keepsInsertionOrder.1 writes).2 shop hmem⟩

end Schema

end SqlCompletion
