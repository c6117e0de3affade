import Mathlib.Tactic
import SqlCompletion.Proofs.FileSystem
import SqlCompletion.Store.Directory

/-!
A store in a directory behaves as a map from keys to texts.

* `fileName_injective`: different keys have different files;
* `DirectoryStore.filePath_ne_temporaryPath`: no key's file is the temporary file of a key;
* `DirectoryStore.LeavesBehind`: what a write that is not finished may leave, wherever it stops;
* `DirectoryStore.get_of_set`, `DirectoryStore.get_of_leavesBehind`: what is got from the store
  after a write, and after one that is not finished;
* `DirectoryStore.Admits`, `DirectoryStore.set_eq_ok_iff`: when a write is finished;
* `DirectoryStore.get_set`: a write that is finished is a write into the map, and any other changes
  nothing that is got.
-/

namespace SqlCompletion

/-! ### Names of files -/

lemma toNat_ofNat_byte (b : UInt8) : (Char.ofNat b.toNat).toNat = b.toNat := by
  have hlt : b.toNat < 256 := b.toNat_lt
  rw [Char.ofNat, dif_pos (.inl (by omega))]
  rfl

/-- A byte that stands for itself is not a percent sign. -/
lemma ofNat_ne_percent {b : UInt8} (h : isPlainByte b) : Char.ofNat b.toNat ≠ '%' := by
  intro heq
  have htoNat := congrArg Char.toNat heq
  rw [toNat_ofNat_byte] at htoNat
  obtain rfl : b = 37 := UInt8.toNat.inj htoNat
  exact absurd h (by decide)

/-- Different bytes that stand for themselves are different characters. -/
lemma eq_of_ofNat_eq {a b : UInt8} (h : Char.ofNat a.toNat = Char.ofNat b.toNat) : a = b := by
  have htoNat := congrArg Char.toNat h
  rw [toNat_ofNat_byte, toNat_ofNat_byte] at htoNat
  exact UInt8.toNat.inj htoNat

/-- Different hexadecimal digits are written differently. -/
lemma eq_of_digit_eq : ∀ m < 16, ∀ n < 16,
    (Nat.digitChar m).toUpper = (Nat.digitChar n).toUpper → m = n := by
  decide

/-- The bytes of a key can be told from its file name, one by one. -/
lemma nameOfByte_append_inj {a b : UInt8} {r s : List Char}
    (h : nameOfByte a ++ r = nameOfByte b ++ s) : a = b ∧ r = s := by
  rw [nameOfByte, nameOfByte] at h
  split at h <;> split at h <;> rename_i ha hb
  · obtain ⟨hchar, hrest⟩ := List.cons.inj h
    exact ⟨eq_of_ofNat_eq hchar, hrest⟩
  · exact absurd (List.cons.inj h).1 (ofNat_ne_percent ha)
  · exact absurd (List.cons.inj h).1.symm (ofNat_ne_percent hb)
  · obtain ⟨hhigh, h⟩ := List.cons.inj (List.cons.inj h).2
    obtain ⟨hlow, hrest⟩ := List.cons.inj h
    have ha : a.toNat < 256 := a.toNat_lt
    have hb : b.toNat < 256 := b.toNat_lt
    have hhigh := eq_of_digit_eq _ (by omega) _ (by omega) hhigh
    have hlow := eq_of_digit_eq _ (by omega) _ (by omega) hlow
    exact ⟨UInt8.toNat.inj (by omega), hrest⟩

lemma nameOfByte_ne_nil (b : UInt8) : nameOfByte b ≠ [] := by
  rw [nameOfByte]
  split <;> simp

lemma flatMap_nameOfByte_injective : Function.Injective (List.flatMap nameOfByte) := by
  intro a
  induction a with
  | nil =>
      intro b h
      cases b with
      | nil => rfl
      | cons b bs => simp [nameOfByte_ne_nil] at h
  | cons a as ih =>
      intro b h
      cases b with
      | nil => simp [nameOfByte_ne_nil] at h
      | cons b bs =>
          obtain ⟨rfl, hrest⟩ := nameOfByte_append_inj h
          rw [ih hrest]

lemma fileStem_injective : Function.Injective fileStem := by
  intro a b h
  have hbytes := flatMap_nameOfByte_injective (String.ofList_inj.mp h)
  exact String.toByteArray_inj.mp (ByteArray.ext (Array.toList_inj.mp hbytes))

/-- Different keys have files of different names, whatever characters they have. -/
lemma fileName_injective : Function.Injective fileName := fun _ _ h =>
  fileStem_injective ((String.append_left_inj _).mp h)

namespace DirectoryStore

variable {store after : DirectoryStore} {key other text : String}

@[simp] lemma filePath_with (store : DirectoryStore) (files : FileSystem) (key : String) :
    filePath { store with files } key = store.filePath key := rfl

@[simp] lemma temporaryPath_with (store : DirectoryStore) (files : FileSystem) (key : String) :
    temporaryPath { store with files } key = store.temporaryPath key := rfl

lemma filePath_injective (store : DirectoryStore) : Function.Injective store.filePath :=
  fun _ _ h => fileName_injective (List.singleton_inj.mp (List.append_cancel_left h))

/-- A name that ends differently is no name of a key's file. -/
lemma fileName_ne_append_tmp (key stem : String) : fileName key ≠ stem ++ ".json.tmp" := by
  intro h
  have hlast := congrArg (fun name : String => name.toList.getLast?) h
  simp [fileName] at hlast

/-- No key's file is the temporary file of a key. -/
lemma filePath_ne_temporaryPath (store : DirectoryStore) (key other : String) :
    store.filePath key ≠ store.temporaryPath other := by
  rw [filePath, temporaryPath]
  split
  · intro h
    exact fileName_ne_append_tmp key ".json" (List.singleton_inj.mp (List.append_cancel_left h))
  split
  · intro h
    have hlength := congrArg List.length h
    simp at hlength
    omega
  · intro h
    exact fileName_ne_append_tmp key _ (List.singleton_inj.mp (List.append_cancel_left h))

/-! ### What is got -/

/-- A text is got when it is that of the key's file. -/
lemma get_eq_some_iff :
    store.get key = .ok (some text) ↔ ∃ bytes,
      store.files.file? (store.filePath key) = some bytes ∧ String.fromUTF8? bytes = some text := by
  rw [← FileSystem.read_eq_ok_iff, get]
  split <;> simp_all

/-- The bytes of a text are read as the text. -/
lemma fromUTF8?_toByteArray (text : String) : String.fromUTF8? text.toByteArray = some text := by
  rw [String.fromUTF8?, dif_pos text.isValidUTF8]
  rfl

/-- Where a key's file is the same, the same texts are got. -/
lemma get_congr (hfile : after.files.file? (after.filePath key) =
      store.files.file? (store.filePath key)) (found : String) :
    after.get key = .ok (some found) ↔ store.get key = .ok (some found) := by
  rw [get_eq_some_iff, get_eq_some_iff, hfile]

/-! ### Writing -/

/-- What a write of a key that is not finished may leave: the directories are made down to some
point, or all of them and the temporary file with some of the bytes. -/
inductive LeavesBehind (store : DirectoryStore) (key : String) : DirectoryStore → Prop
  | directories {made : Path} {files : FileSystem} (hmade : made <+: store.directory)
      (hfiles : store.files.createDirectories made = .ok files) :
      LeavesBehind store key { store with files }
  | temporary {made files : FileSystem} {bytes : ByteArray}
      (hmade : store.files.createDirectories store.directory = .ok made)
      (hfiles : made.write (store.temporaryPath key) bytes = .ok files) :
      LeavesBehind store key { store with files }

/-- Nothing that can be got changes before a write is finished, wherever it stops. -/
lemma get_of_leavesBehind (h : store.LeavesBehind key after) (other found : String) :
    after.get other = .ok (some found) ↔ store.get other = .ok (some found) := by
  cases h with
  | directories _ hfiles => exact get_congr ((FileSystem.file?_createDirectories hfiles).2 _) found
  | temporary hmade hfiles =>
      refine get_congr ?_ found
      rw [FileSystem.file?_write hfiles]
      exact (if_neg (store.filePath_ne_temporaryPath other key)).trans
        ((FileSystem.file?_createDirectories hmade).2 _)

/-- The three steps of a write that is finished. -/
structure Writes (store : DirectoryStore) (key text : String) (made written files : FileSystem) :
    Prop where
  directories : store.files.createDirectories store.directory = .ok made
  temporary : made.write (store.temporaryPath key) text.toByteArray = .ok written
  moved : written.rename (store.temporaryPath key) (store.filePath key) = .ok files

/-- A write is finished in its three steps, or fails and leaves what it has done. -/
lemma set_cases (store : DirectoryStore) (key text : String) :
    (∃ made written files, store.Writes key text made written files ∧
        store.set key text = (.ok (), { store with files })) ∨
      ∃ e after, store.set key text = (.error e, after) ∧ store.LeavesBehind key after := by
  cases hmade : store.files.createDirectories store.directory with
  | error fault =>
      have hnothing : store.LeavesBehind key store := .directories List.nil_prefix rfl
      exact .inr ⟨.io fault, store, by simp [set, step, hmade], hnothing⟩
  | ok made =>
      cases hwritten : made.write (store.temporaryPath key) text.toByteArray with
      | error fault =>
          exact .inr ⟨.io fault, { store with files := made },
            by simp [set, step, hmade, hwritten], .directories (List.prefix_refl _) hmade⟩
      | ok written =>
          cases hmoved : written.rename (store.temporaryPath key) (store.filePath key) with
          | error fault =>
              exact .inr ⟨.io fault, { store with files := written },
                by simp [set, step, hmade, hwritten, hmoved], .temporary hmade hwritten⟩
          | ok files =>
              exact .inl ⟨made, written, files, ⟨hmade, hwritten, hmoved⟩,
                by simp [set, step, hmade, hwritten, hmoved]⟩

/-- After the three steps a key has its file with the bytes of the text, and all other keys have the
files they had. -/
lemma Writes.file? {made written files : FileSystem} (h : store.Writes key text made written files)
    (other : String) :
    files.file? (store.filePath other) =
      if other = key then some text.toByteArray else store.files.file? (store.filePath other) := by
  have hwritten := FileSystem.file?_write h.temporary
  have hsource : written.file? (store.temporaryPath key) = some text.toByteArray := by
    rw [hwritten, if_pos rfl]
  rw [FileSystem.file?_rename hsource (store.filePath_ne_temporaryPath key key) h.moved, hwritten,
    if_neg (store.filePath_ne_temporaryPath other key),
    if_neg (store.filePath_ne_temporaryPath other key),
    (FileSystem.file?_createDirectories h.directories).2]
  simp only [store.filePath_injective.eq_iff]

/-- After a write that is finished the key's text is got, and what is got for other keys stays. -/
lemma get_of_set (h : store.set key text = (.ok (), after)) (other found : String) :
    after.get other = .ok (some found) ↔
      if other = key then text = found else store.get other = .ok (some found) := by
  rcases set_cases store key text with ⟨made, written, files, hwrites, hset⟩ | ⟨e, left, hset, -⟩
  · obtain rfl : { store with files } = after := (Prod.mk.inj (hset.symm.trans h)).2
    have hfile := hwrites.file? other
    split
    · rename_i hkey
      rw [if_pos hkey] at hfile
      rw [get_eq_some_iff, filePath_with, hfile]
      simp [fromUTF8?_toByteArray]
    · rename_i hkey
      rw [if_neg hkey] at hfile
      exact get_congr hfile found
  · cases hset.symm.trans h

/-- A write is finished when its three steps are. -/
lemma set_eq_ok_iff_writes (store : DirectoryStore) (key text : String) :
    (store.set key text).1 = .ok () ↔
      ∃ made written files, store.Writes key text made written files := by
  constructor
  · intro h
    rcases set_cases store key text with ⟨made, written, files, hwrites, -⟩ | ⟨e, left, hset, -⟩
    · exact ⟨made, written, files, hwrites⟩
    · rw [hset] at h
      cases h
  · rintro ⟨made, written, files, hmade, hwritten, hmoved⟩
    simp [set, step, hmade, hwritten, hmoved]

lemma leavesBehind_of_set {e : Error} (h : store.set key text = (.error e, after)) :
    store.LeavesBehind key after := by
  rcases set_cases store key text with ⟨made, written, files, -, hset⟩ | ⟨e', left, hset, hleft⟩
  · cases hset.symm.trans h
  · obtain rfl : left = after := (Prod.mk.inj (hset.symm.trans h)).2
    exact hleft

/-! ### When a write is finished -/

/-- The temporary file of a key stands in the directory, under a name that is not too long for all
but the longest keys. The key of a single dot has none. -/
lemma exists_temporaryPath_eq (store : DirectoryStore) (hkey : key ≠ ".") :
    ∃ name, store.temporaryPath key = store.directory ++ [name] ∧
      (name.utf8ByteSize ≤ FileSystem.nameLimit ↔
        (fileStem key).utf8ByteSize + 9 ≤ FileSystem.nameLimit) := by
  by_cases hempty : key = ""
  · subst key
    exact ⟨".json.json.tmp", rfl, by decide⟩
  · refine ⟨fileStem key ++ ".json.tmp", by rw [temporaryPath, if_neg hempty, if_neg hkey], ?_⟩
    rw [String.utf8ByteSize_append]
    rfl

/-- Nothing stands in the way of a write of the key: the directories can be made, the key is not a
single dot and not too long, and no directory stands where its file or its temporary file should
be. -/
structure Admits (store : DirectoryStore) (key : String) (made : FileSystem) : Prop where
  directories : store.files.createDirectories store.directory = .ok made
  ne_dot : key ≠ "."
  short : (fileStem key).utf8ByteSize + 9 ≤ FileSystem.nameLimit
  temporary : made.node? (store.temporaryPath key) ≠ some .directory
  file : made.node? (store.filePath key) ≠ some .directory

/-- The temporary file, once it is written, can take the place of the key's file unless a directory
stands there. -/
lemma exists_rename_iff {made written : FileSystem} {bytes : ByteArray}
    (hdirectory : made.HasDirectory store.directory) (hdot : key ≠ ".")
    (hshort : (fileStem key).utf8ByteSize + 9 ≤ FileSystem.nameLimit)
    (hwritten : made.write (store.temporaryPath key) bytes = .ok written) :
    (∃ files, written.rename (store.temporaryPath key) (store.filePath key) = .ok files) ↔
      made.node? (store.filePath key) ≠ some .directory := by
  have hsource : written.file? (store.temporaryPath key) = some bytes := by
    rw [FileSystem.file?_write hwritten, if_pos rfl]
  obtain ⟨-, hnode, rfl⟩ := FileSystem.write_eq_ok_iff.mp hwritten
  have hlength : (store.filePath key).length = (store.temporaryPath key).length := by
    obtain ⟨name, htemporary, -⟩ := exists_temporaryPath_eq store hdot
    rw [htemporary, filePath, List.length_append, List.length_append]
    rfl
  have hapart : ∀ above, above <+: store.filePath key → ¬store.temporaryPath key <+: above :=
    fun above hway hbelow => store.filePath_ne_temporaryPath key key
      ((hbelow.trans hway).eq_of_length hlength.symm).symm
  -- The temporary file does not stand on the way to the key's file, so nothing changes there.
  have hsame : ∀ above, above <+: store.filePath key →
      (made.put (store.temporaryPath key) (.file bytes)).node? above = made.node? above :=
    fun above hway => by
      have hne : above ≠ store.temporaryPath key := fun h =>
        hapart above hway (h ▸ List.prefix_refl _)
      rw [FileSystem.node?_put (FileSystem.ne_nil_of_node? hnode), if_neg hne,
        if_neg (hapart above hway)]
  have hname : (fileName key).utf8ByteSize ≤ FileSystem.nameLimit := by
    rw [fileName, String.utf8ByteSize_append]
    exact le_trans (Nat.add_le_add_left (by decide) _) hshort
  have hreach := ((hdirectory.isReachable_concat_iff _).mpr hname).congr
    fun above hway _ => hsame above hway
  simp only [FileSystem.rename_eq_ok_iff hsource, hsame _ (List.prefix_refl _)]
  exact ⟨fun ⟨_, _, hfile, _⟩ => hfile, fun hfile => ⟨_, hreach, hfile, rfl⟩⟩

/-- A write is finished exactly when nothing stands in its way. -/
lemma set_eq_ok_iff (store : DirectoryStore) (key text : String) :
    (store.set key text).1 = .ok () ↔ ∃ made, store.Admits key made := by
  rw [set_eq_ok_iff_writes]
  constructor
  · rintro ⟨made, written, files, h⟩
    obtain ⟨hreach, hnode, -⟩ := FileSystem.write_eq_ok_iff.mp h.temporary
    have hdirectory := (FileSystem.file?_createDirectories h.directories).1
    have hdot : key ≠ "." := by
      rintro rfl
      exact hnode hdirectory.dropLast
    obtain ⟨name, htemporary, hname⟩ := exists_temporaryPath_eq store hdot
    have hshort := hname.mp ((hdirectory.isReachable_concat_iff name).mp (htemporary ▸ hreach))
    exact ⟨made, h.directories, hdot, hshort, hnode,
      (exists_rename_iff hdirectory hdot hshort h.temporary).mp ⟨files, h.moved⟩⟩
  · rintro ⟨made, hmade, hdot, hshort, hnode, hfile⟩
    have hdirectory := (FileSystem.file?_createDirectories hmade).1
    obtain ⟨name, htemporary, hname⟩ := exists_temporaryPath_eq store hdot
    have hreach : made.IsReachable (store.temporaryPath key) := by
      rw [htemporary, hdirectory.isReachable_concat_iff, hname]
      exact hshort
    have hwritten : made.write (store.temporaryPath key) text.toByteArray =
        .ok (made.put (store.temporaryPath key) (.file text.toByteArray)) :=
      FileSystem.write_eq_ok_iff.mpr ⟨hreach, hnode, rfl⟩
    obtain ⟨files, hmoved⟩ := (exists_rename_iff hdirectory hdot hshort hwritten).mpr hfile
    exact ⟨made, _, files, hmade, hwritten, hmoved⟩

/-- **A directory store is an atomic map.** A write that is finished puts the text under its key,
and leaves what is got for every other key; one that fails leaves what is got for every key, and so
does one that stops anywhere, with the directories made down to some point or with any part of the
temporary file written. Different keys have different files, whatever characters they have, and no
key's file is the temporary file of a key. A write fails only when the directories cannot be made,
when a directory stands where one of the two files should be, and for a key that is too long or a
single dot. -/
theorem get_set (store : DirectoryStore) (key text : String) :
    (match store.set key text with
      | (.ok (), after) =>
          after.get key = .ok (some text) ∧ ∀ other, other ≠ key → ∀ found,
            after.get other = .ok (some found) ↔ store.get other = .ok (some found)
      | (.error _, after) => ∀ other found,
          after.get other = .ok (some found) ↔ store.get other = .ok (some found)) ∧
      (∀ after, store.LeavesBehind key after → ∀ other found,
        after.get other = .ok (some found) ↔ store.get other = .ok (some found)) ∧
      (∀ other, other ≠ key → store.filePath other ≠ store.filePath key) ∧
      (∀ other, store.filePath other ≠ store.temporaryPath key) ∧
      ((store.set key text).1 = .ok () ↔ ∃ made, store.Admits key made) := by
  refine ⟨?_, fun after h => get_of_leavesBehind h, fun other hne h => ?_, fun other => ?_,
    set_eq_ok_iff store key text⟩
  · split
    · rename_i after h
      refine ⟨?_, fun other hne found => ?_⟩
      · rw [get_of_set h, if_pos rfl]
      · rw [get_of_set h, if_neg hne]
    · rename_i h
      exact get_of_leavesBehind (leavesBehind_of_set h)
  · exact hne (store.filePath_injective h)
  · exact store.filePath_ne_temporaryPath other key

end DirectoryStore

end SqlCompletion
