import Mathlib.Tactic
import SqlCompletion.FileSystem

/-!
A file system as a map from paths to the bytes of files, and what each operation makes of this map.

* `FileSystem.IsReachable`: a path can be followed up to its last name;
* `FileSystem.file?`: the bytes of the file at a path;
* `FileSystem.file?_createBelow`: making directories changes no file;
* `FileSystem.file?_write`: writing a file gives it its bytes and changes no other;
* `FileSystem.file?_rename`: moving a file takes its bytes to the other path and changes no third;
* `FileSystem.read_eq_ok_iff`: what is read is the bytes of a file, as a text.
-/

namespace SqlCompletion

/-- The bytes of a node that is a file. -/
def Node.bytes? : Node → Option ByteArray
  | .file bytes => some bytes
  | .directory => none

namespace FileSystem

variable {fs changed : FileSystem} {path other : Path} {node : Node} {bytes : ByteArray}

/-! ### What stands at a path -/

@[simp] lemma node?_nil (fs : FileSystem) : fs.node? [] = some .directory := rfl

lemma ne_nil_of_node? (h : fs.node? path ≠ some .directory) : path ≠ [] := by
  rintro rfl
  exact h (node?_nil fs)

lemma node?_of_ne_nil (fs : FileSystem) (h : path ≠ []) : fs.node? path = fs.nodes.lookup path := by
  rw [node?, if_neg (by simpa using h)]

lemma lookup_filter {α β : Type} [BEq α] [LawfulBEq α] (p : α → Bool) (key : α)
    (entries : List (α × β)) :
    (entries.filter fun entry => p entry.1).lookup key =
      if p key then entries.lookup key else none := by
  induction entries with
  | nil => simp
  | cons entry entries ih =>
      obtain ⟨k, v⟩ := entry
      by_cases hk : key = k
      · subst k
        by_cases hp : p key <;> simp [hp, ih]
      · have hbeq : (key == k) = false := by simpa using hk
        by_cases hp : p k <;> simp [List.lookup_cons, hp, ih, hbeq]

/-- Nothing stands at or below a path whose node was taken away. -/
lemma node?_remove (hpath : path ≠ []) (fs : FileSystem) (other : Path) :
    (fs.remove path).node? other = if path <+: other then none else fs.node? other := by
  by_cases hother : other = []
  · subst other
    simp [hpath]
  · rw [node?_of_ne_nil _ hother, node?_of_ne_nil _ hother, remove,
      lookup_filter fun p => !path.isPrefixOf p]
    by_cases h : path <+: other <;> simp [h]

/-- A node that was put stands at its path, and nothing stands below it. -/
lemma node?_put (hpath : path ≠ []) (node : Node) (fs : FileSystem) (other : Path) :
    (fs.put path node).node? other =
      if other = path then some node else if path <+: other then none else fs.node? other := by
  by_cases h : other = path
  · subst other
    rw [node?_of_ne_nil _ hpath, put, List.lookup_cons_self, if_pos rfl]
  · rw [if_neg h, ← node?_remove hpath]
    by_cases hother : other = []
    · subst other
      rfl
    · have hbeq : (other == path) = false := by simpa using h
      rw [node?_of_ne_nil _ hother, node?_of_ne_nil _ hother, put, List.lookup_cons, hbeq]

/-! ### Following a path -/

/-- Every name on the way to the last leads to a directory, and no name is too long. -/
structure IsReachable (fs : FileSystem) (path : Path) : Prop where
  parents : ∀ above, above <+: path → above ≠ path → fs.node? above = some .directory
  short : ∀ name ∈ path, name.utf8ByteSize ≤ nameLimit

lemma isReachable_nil (fs : FileSystem) : fs.IsReachable [] :=
  ⟨fun _ hway hne => absurd (List.prefix_nil.mp hway) hne, by simp⟩

/-- A path with one more name can be followed if it leads to a directory so far. -/
lemma IsReachable.concat {name : String} (h : fs.IsReachable path)
    (hnode : fs.node? path = some .directory) (hname : name.utf8ByteSize ≤ nameLimit) :
    fs.IsReachable (path ++ [name]) where
  parents above hway hne := by
    rcases List.prefix_concat_iff.mp hway with rfl | hway
    · exact absurd rfl hne
    · by_cases hwhole : above = path
      · rw [hwhole, hnode]
      · exact h.parents above hway hwhole
  short other hother := by
    rcases List.mem_append.mp hother with hother | hother
    · exact h.short other hother
    · rw [List.mem_singleton.mp hother]
      exact hname

lemma locate_eq_ok_iff (fs : FileSystem) (reached names : Path) (found : Option Node) :
    fs.locate reached names = .ok found ↔
      (∀ above, above <+: names → above ≠ names → fs.node? (reached ++ above) = some .directory) ∧
        (∀ name ∈ names, name.utf8ByteSize ≤ nameLimit) ∧ fs.node? (reached ++ names) = found := by
  induction names generalizing reached with
  | nil => simp [locate]
  | cons name rest ih =>
      have hsplit : (∀ above, above <+: name :: rest → above ≠ name :: rest →
          fs.node? (reached ++ above) = some .directory) ↔
          fs.node? reached = some .directory ∧ ∀ above, above <+: rest → above ≠ rest →
            fs.node? (reached ++ [name] ++ above) = some .directory := by
        constructor
        · refine fun h => ⟨by simpa using h [] (by simp) (by simp), fun above hway hne => ?_⟩
          simpa using h (name :: above) (by simpa using hway) (by simpa using hne)
        · rintro ⟨hnode, h⟩ above hway hne
          cases above with
          | nil => simpa using hnode
          | cons first above =>
              obtain ⟨rfl, hway⟩ := List.cons_prefix_cons.mp hway
              simpa using h above (by simpa using hway) (by simpa using hne)
      rw [hsplit, locate]
      cases hnode : fs.node? reached with
      | none => simp
      | some node =>
          cases node with
          | file bytes => simp
          | directory =>
              by_cases hname : nameLimit < name.utf8ByteSize
              · simp [hname]
              · simp [hname, ih, Nat.le_of_not_lt hname]

/-- Following a path gives what stands at it, when it can be followed. -/
lemma locate_nil_eq_ok_iff {found : Option Node} :
    fs.locate [] path = .ok found ↔ fs.IsReachable path ∧ fs.node? path = found := by
  rw [locate_eq_ok_iff]
  constructor
  · rintro ⟨hparents, hshort, hnode⟩
    exact ⟨⟨hparents, hshort⟩, hnode⟩
  · rintro ⟨⟨hparents, hshort⟩, hnode⟩
    exact ⟨hparents, hshort, hnode⟩

/-- An operation that begins by following a path succeeds when the path can be followed and the rest
succeeds with what stands there. -/
lemma locate_bind_eq_ok_iff {α : Type} {f : Option Node → Except FileFault α} {a : α} :
    fs.locate [] path >>= f = .ok a ↔ fs.IsReachable path ∧ f (fs.node? path) = .ok a := by
  cases hlocate : fs.locate [] path with
  | error fault =>
      have hreach : ¬fs.IsReachable path := fun hreach => by
        rw [locate_nil_eq_ok_iff.mpr ⟨hreach, rfl⟩] at hlocate
        cases hlocate
      simp [hreach, bind, Except.bind]
  | ok found =>
      obtain ⟨hreach, rfl⟩ := locate_nil_eq_ok_iff.mp hlocate
      simp [hreach, bind, Except.bind]

@[simp] lemma pure_eq_ok_iff {α : Type} {a b : α} :
    (pure a : Except FileFault α) = .ok b ↔ a = b := by
  simp [pure, Except.pure]

@[simp] lemma throw_ne_ok {α : Type} {fault : FileFault} {a : α} :
    (throw fault : Except FileFault α) ≠ .ok a := nofun

/-! ### Files -/

/-- The bytes of the file at a path. -/
def file? (fs : FileSystem) (path : Path) : Option ByteArray :=
  match fs.locate [] path with
  | .ok (some (.file bytes)) => some bytes
  | _ => none

lemma file?_eq_some_iff :
    fs.file? path = some bytes ↔ fs.IsReachable path ∧ fs.node? path = some (.file bytes) := by
  rw [← locate_nil_eq_ok_iff, file?]
  split <;> simp_all

lemma file?_eq_none_of_node? (h : ∀ bytes, fs.node? path ≠ some (.file bytes)) :
    fs.file? path = none := by
  refine Option.eq_none_iff_forall_ne_some.mpr fun bytes hfile => ?_
  exact h bytes (file?_eq_some_iff.mp hfile).2

/-- No file is found below a path that does not lead to a directory. -/
lemma file?_eq_none_of_below (hnode : fs.node? path ≠ some .directory) (hway : path <+: other)
    (hne : path ≠ other) : fs.file? other = none := by
  refine Option.eq_none_iff_forall_ne_some.mpr fun bytes hfile => ?_
  exact hnode ((file?_eq_some_iff.mp hfile).1.parents path hway hne)

lemma IsReachable.congr (h : fs.IsReachable other)
    (hsame : ∀ above, above <+: other → above ≠ other → changed.node? above = fs.node? above) :
    changed.IsReachable other :=
  ⟨fun above hway hne => (hsame above hway hne).trans (h.parents above hway hne), h.short⟩

/-- Where only what stands at or below a path changes, the files at other places stay. -/
lemma file?_eq_of_apart (hsame : ∀ place, ¬path <+: place → changed.node? place = fs.node? place)
    (hapart : ¬path <+: other) : changed.file? other = fs.file? other := by
  have habove : ∀ above, above <+: other → changed.node? above = fs.node? above :=
    fun above hway => hsame above fun h => hapart (h.trans hway)
  refine Option.ext fun bytes => ?_
  rw [file?_eq_some_iff, file?_eq_some_iff, habove other (List.prefix_refl other)]
  refine and_congr_left fun _ => ⟨fun h => ?_, fun h => ?_⟩
  · exact h.congr fun above hway _ => (habove above hway).symm
  · exact h.congr fun above hway _ => habove above hway

/-! ### What the operations do to files -/

/-- What is put at the end of a path does not stand in its way. -/
lemma IsReachable.put (hreach : fs.IsReachable path) (hpath : path ≠ []) (node : Node) :
    (fs.put path node).IsReachable path :=
  hreach.congr fun above hway hne => by
    have hbelow : ¬path <+: above := fun h => hne (hway.eq_of_length_le h.length_le)
    rw [node?_put hpath, if_neg hne, if_neg hbelow]

/-- A node that is put where no directory stands is the file there, if it is one, and changes no
other file. -/
lemma file?_put (hreach : fs.IsReachable path) (hnode : fs.node? path ≠ some .directory)
    (node : Node) (other : Path) :
    (fs.put path node).file? other = if other = path then node.bytes? else fs.file? other := by
  have hpath : path ≠ [] := ne_nil_of_node? hnode
  by_cases hsame : other = path
  · subst other
    have hput : (fs.put path node).node? path = some node := by simp [node?_put hpath]
    rw [if_pos rfl]
    cases node with
    | file bytes => exact file?_eq_some_iff.mpr ⟨hreach.put hpath _, hput⟩
    | directory => exact file?_eq_none_of_node? (by simp [hput])
  · rw [if_neg hsame]
    by_cases hbelow : path <+: other
    · have hgone : (fs.put path node).node? other = none := by
        rw [node?_put hpath, if_neg hsame, if_pos hbelow]
      rw [file?_eq_none_of_below hnode hbelow (Ne.symm hsame),
        file?_eq_none_of_node? (by simp [hgone])]
    · refine file?_eq_of_apart (fun place hplace => ?_) hbelow
      have hne : place ≠ path := fun h => hplace (h ▸ List.prefix_refl path)
      rw [node?_put hpath, if_neg hne, if_neg hplace]

/-- Taking a file away changes no other file. -/
lemma file?_remove (hfile : fs.file? path = some bytes) (other : Path) :
    (fs.remove path).file? other = if other = path then none else fs.file? other := by
  have hnode : fs.node? path = some (.file bytes) := (file?_eq_some_iff.mp hfile).2
  have hdirectory : fs.node? path ≠ some .directory := by simp [hnode]
  have hpath : path ≠ [] := ne_nil_of_node? hdirectory
  by_cases hbelow : path <+: other
  · have hgone : (fs.remove path).node? other = none := by rw [node?_remove hpath, if_pos hbelow]
    rw [file?_eq_none_of_node? (by simp [hgone])]
    split
    · rfl
    · rename_i hne
      exact (file?_eq_none_of_below hdirectory hbelow (Ne.symm hne)).symm
  · have hne : other ≠ path := fun h => hbelow (h ▸ List.prefix_refl path)
    rw [if_neg hne]
    exact file?_eq_of_apart (fun place hplace => by rw [node?_remove hpath, if_neg hplace]) hbelow

/-- A directory can be reached at the path. -/
def HasDirectory (fs : FileSystem) (path : Path) : Prop :=
  fs.IsReachable path ∧ fs.node? path = some .directory

/-- Below a directory a name can be reached unless it is too long. -/
lemma HasDirectory.isReachable_concat_iff (h : fs.HasDirectory path) (name : String) :
    fs.IsReachable (path ++ [name]) ↔ name.utf8ByteSize ≤ nameLimit :=
  ⟨fun hreach => hreach.short name (by simp), h.1.concat h.2⟩

/-- The path above one that leads to a directory leads to a directory. -/
lemma HasDirectory.dropLast (h : fs.HasDirectory path) :
    fs.node? path.dropLast = some .directory := by
  rcases List.eq_nil_or_concat' path with rfl | ⟨above, name, rfl⟩
  · rfl
  · rw [List.dropLast_concat]
    exact h.1.parents above (List.prefix_append _ _) (by simp)

/-- Making directories makes the last of them, and changes no file. -/
lemma file?_createBelow {reached names : Path} (hreached : fs.HasDirectory reached)
    (h : fs.createBelow reached names = .ok changed) :
    changed.HasDirectory (reached ++ names) ∧ ∀ other, changed.file? other = fs.file? other := by
  induction names generalizing fs reached with
  | nil =>
      obtain rfl : fs = changed := Except.ok.inj h
      rw [List.append_nil]
      exact ⟨hreached, fun _ => rfl⟩
  | cons name rest ih =>
      rw [createBelow] at h
      split at h
      · cases h
      rename_i hname
      have hreach : fs.IsReachable (reached ++ [name]) :=
        hreached.1.concat hreached.2 (Nat.le_of_not_lt hname)
      rw [List.append_cons]
      split at h
      · rename_i hnone
        have hpath : reached ++ [name] ≠ [] := by simp
        have hfiles := file?_put hreach (by simp [hnone]) .directory
        have hput : (fs.put (reached ++ [name]) .directory).HasDirectory (reached ++ [name]) :=
          ⟨hreach.put hpath _, by simp [node?_put hpath]⟩
        obtain ⟨hdirectory, hsame⟩ := ih hput h
        refine ⟨hdirectory, fun other => ?_⟩
        rw [hsame, hfiles]
        split
        · subst other
          exact (file?_eq_none_of_node? (by simp [hnone])).symm
        · rfl
      · rename_i hdirectory
        exact ih ⟨hreach, hdirectory⟩ h
      · cases h

/-- Making directories leaves a directory that can be reached, and changes no file. -/
lemma file?_createDirectories (h : fs.createDirectories path = .ok changed) :
    changed.HasDirectory path ∧ ∀ other, changed.file? other = fs.file? other :=
  file?_createBelow ⟨isReachable_nil fs, node?_nil fs⟩ h

/-- A file is written when its path can be followed and leads to no directory. -/
lemma write_eq_ok_iff :
    fs.write path bytes = .ok changed ↔ fs.IsReachable path ∧ fs.node? path ≠ some .directory ∧
      fs.put path (.file bytes) = changed := by
  rw [write, locate_bind_eq_ok_iff]
  refine and_congr_right fun _ => ?_
  split <;> simp_all

/-- Writing a file gives it its bytes and changes no other file. -/
lemma file?_write (h : fs.write path bytes = .ok changed) (other : Path) :
    changed.file? other = if other = path then some bytes else fs.file? other := by
  obtain ⟨hreach, hnode, rfl⟩ := write_eq_ok_iff.mp h
  exact file?_put hreach hnode (.file bytes) other

/-- A file is moved when the other path can be followed and leads to no directory. -/
lemma rename_eq_ok_iff {target : Path} (hfile : fs.file? path = some bytes) :
    fs.rename path target = .ok changed ↔ fs.IsReachable target ∧
      fs.node? target ≠ some .directory ∧ (fs.remove path).put target (.file bytes) = changed := by
  obtain ⟨hreach, hnode⟩ := file?_eq_some_iff.mp hfile
  rw [rename, locate_bind_eq_ok_iff, hnode, and_iff_right hreach]
  refine locate_bind_eq_ok_iff.trans ?_
  refine and_congr_right fun _ => ?_
  split <;> simp_all

/-- Moving a file takes its bytes to the other path and changes no third file. -/
lemma file?_rename {target : Path} (hfile : fs.file? path = some bytes) (hne : target ≠ path)
    (h : fs.rename path target = .ok changed) (other : Path) :
    changed.file? other =
      if other = target then some bytes else if other = path then none else fs.file? other := by
  obtain ⟨hreach, hnode, rfl⟩ := (rename_eq_ok_iff hfile).mp h
  have hsource : fs.node? path = some (.file bytes) := (file?_eq_some_iff.mp hfile).2
  have hdirectory : fs.node? path ≠ some .directory := by simp [hsource]
  have hpath : path ≠ [] := ne_nil_of_node? hdirectory
  -- The file that is taken away stands in nobody's way, as nothing can be reached through it.
  have hapart : ∀ above, above <+: target → ¬path <+: above := fun above hway hbelow =>
    hdirectory (hreach.parents path (hbelow.trans hway) (Ne.symm hne))
  have hreach' : (fs.remove path).IsReachable target := hreach.congr fun above hway _ => by
    rw [node?_remove hpath, if_neg (hapart above hway)]
  have hnode' : (fs.remove path).node? target ≠ some .directory := by
    rwa [node?_remove hpath, if_neg (hapart target (List.prefix_refl target))]
  rw [file?_put hreach' hnode', file?_remove hfile]
  rfl

/-- What is read is the bytes of a file, as a text. -/
lemma read_eq_ok_iff {text : String} :
    fs.read path = .ok text ↔ ∃ bytes, fs.file? path = some bytes ∧
      String.fromUTF8? bytes = some text := by
  simp only [read, locate_bind_eq_ok_iff, file?_eq_some_iff, and_assoc, exists_and_left]
  refine and_congr_right fun _ => ?_
  rcases fs.node? path with - | bytes | -
  · simp
  · cases htext : String.fromUTF8? bytes <;> simp [htext]
  · simp

end FileSystem

end SqlCompletion
