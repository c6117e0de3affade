import Mathlib.Data.Char
import Mathlib.Tactic
import SqlCompletion.Text.Bytes

/-!
Texts by their UTF-8 bytes.

* `bytesOf`: the bytes of some characters, which are those that a text is made of;
* `compare_bytesOf_cons`: the bytes of the first characters decide where these differ;
* `compareBytes`: two texts compared byte by byte;
* `isLE_compareBytes_iff`: this is the order of texts by their characters.
-/

namespace SqlCompletion.Text

/-! ### The bytes of characters -/

/-- The UTF-8 bytes of a text. -/
def bytesOf (cs : List Char) : List UInt8 :=
  cs.flatMap String.utf8EncodeChar

lemma bytesOf_cons (c : Char) (cs : List Char) :
    bytesOf (c :: cs) = String.utf8EncodeChar c ++ bytesOf cs := rfl

lemma bytesOf_append (a b : List Char) : bytesOf (a ++ b) = bytesOf a ++ bytesOf b := by
  simp [bytesOf]

lemma length_bytesOf (cs : List Char) : (bytesOf cs).length = byteLength cs := by
  induction cs with
  | nil => rfl
  | cons c cs ih =>
      rw [bytesOf_cons, List.length_append, ih, String.length_utf8EncodeChar, byteLength]

lemma toList_toByteArray (text : String) :
    text.toByteArray.data.toList = bytesOf text.toList := by
  rw [← String.ofList_toList (s := text), String.toByteArray_ofList, String.toList_ofList]
  simp [List.utf8Encode, bytesOf]

/-! ### The order of characters and of their bytes -/

lemma compare_ofNat {m n : ℕ} (hm : m < 256) (hn : n < 256) :
    compare (UInt8.ofNat m) (UInt8.ofNat n) = compare m n := by
  have hbyte : ∀ {k}, k < 256 → (UInt8.ofNat k).toNat = k :=
    fun hk => by simp [Nat.mod_eq_of_lt hk]
  rcases Nat.lt_trichotomy m n with hlt | rfl | hgt
  · rw [Nat.compare_eq_lt.mpr hlt, Std.compare_eq_lt, UInt8.lt_iff_toNat_lt, hbyte hm, hbyte hn]
    exact hlt
  · simp
  · rw [Nat.compare_eq_gt.mpr hgt, Std.compare_eq_gt, UInt8.lt_iff_toNat_lt, hbyte hm, hbyte hn]
    exact hgt

/-- The first byte in which two characters differ is the greater for the greater character, whatever
their lengths, and there is one. -/
lemma compare_utf8EncodeChar_of_lt {c d : Char} (h : c < d) (bytes bytes' : List UInt8) :
    compare (String.utf8EncodeChar c ++ bytes) (String.utf8EncodeChar d ++ bytes') = .lt := by
  have hlt : c.val.toNat < d.val.toNat := h
  have hvalid : d.val.toNat < 0x110000 := by
    have hd := d.valid
    rw [UInt32.isValidChar, Nat.isValidChar] at hd
    omega
  have hdigits : ∀ v : ℕ, v < 0x110000 →
      v / 64 / 64 = v / 4096 ∧ v / 4096 / 64 = v / 262144 ∧ v / 262144 % 8 = v / 262144 :=
    fun v hv => by omega
  obtain ⟨hc, hc', hc''⟩ := hdigits c.val.toNat (hlt.trans hvalid)
  obtain ⟨hd, hd', hd''⟩ := hdigits d.val.toNat hvalid
  -- One case for the lengths of both characters; the greater one is never the shorter one.
  rw [String.utf8EncodeChar.eq_1, String.utf8EncodeChar.eq_1]
  split_ifs
  all_goals
    simp (disch := omega) only [List.cons_append, List.nil_append, List.compare_cons_cons,
      compare_ofNat, Ordering.then_eq_lt, Nat.compare_eq_lt, Nat.compare_eq_eq]
    omega

lemma compare_append_left (front bytes bytes' : List UInt8) :
    compare (front ++ bytes) (front ++ bytes') = compare bytes bytes' := by
  induction front with
  | nil => rfl
  | cons b front ih =>
      rw [List.cons_append, List.cons_append, List.compare_cons_cons, ih, Std.compare_self,
        Ordering.eq_then]

/-- The bytes of the first characters decide, and where these are the same the bytes after them. -/
lemma compare_bytesOf_cons (c d : Char) (cs ds : List Char) :
    compare (bytesOf (c :: cs)) (bytesOf (d :: ds)) =
      (compare c d).then (compare (bytesOf cs) (bytesOf ds)) := by
  rw [bytesOf_cons, bytesOf_cons]
  rcases lt_trichotomy c d with hlt | rfl | hgt
  · rw [compare_utf8EncodeChar_of_lt hlt, compare_lt_iff_lt.mpr hlt]
    rfl
  · rw [compare_append_left, compare_eq_iff_eq.mpr rfl]
    rfl
  · rw [Std.OrientedOrd.eq_swap, compare_utf8EncodeChar_of_lt hgt, compare_gt_iff_gt.mpr hgt]
    rfl

lemma compare_bytesOf_eq_lt_iff {cs ds : List Char} :
    compare (bytesOf cs) (bytesOf ds) = .lt ↔ cs < ds := by
  have hnil : ∀ c cs, ∃ b bytes, bytesOf (c :: cs) = b :: bytes := fun c cs => by
    refine List.exists_cons_of_ne_nil ?_
    rw [bytesOf_cons]
    exact List.append_ne_nil_of_left_ne_nil String.utf8EncodeChar_ne_nil _
  induction cs generalizing ds with
  | nil =>
      cases ds with
      | nil => simp [bytesOf]
      | cons d ds =>
          obtain ⟨b, bytes, hbytes⟩ := hnil d ds
          rw [hbytes]
          exact iff_of_true rfl (List.nil_lt_cons d ds)
  | cons c cs ih =>
      cases ds with
      | nil =>
          obtain ⟨b, bytes, hbytes⟩ := hnil c cs
          rw [hbytes]
          exact iff_of_false (fun h => Ordering.noConfusion h) (List.not_lt_nil _)
      | cons d ds =>
          rw [compare_bytesOf_cons, Ordering.then_eq_lt, compare_lt_iff_lt, compare_eq_iff_eq,
            List.cons_lt_cons_iff]
          exact or_congr_right (and_congr_right fun _ => ih)

/-! ### The order of texts -/

/-- Two texts compared by their UTF-8 bytes. -/
def compareBytes (a b : String) : Ordering :=
  compare a.toByteArray.data.toList b.toByteArray.data.toList

lemma compareBytes_eq (a b : String) :
    compareBytes a b = compare (bytesOf a.toList) (bytesOf b.toList) := by
  rw [compareBytes, toList_toByteArray, toList_toByteArray]

lemma compareBytes_eq_lt_iff {a b : String} : compareBytes a b = .lt ↔ a < b := by
  rw [compareBytes_eq, compare_bytesOf_eq_lt_iff]
  exact Iff.rfl

/-- Texts stand in the order of their bytes when they stand in that of their characters. -/
lemma isLE_compareBytes_iff {a b : String} : (compareBytes a b).isLE = true ↔ a ≤ b := by
  have hswap : compareBytes a b = (compareBytes b a).swap := Std.OrientedOrd.eq_swap
  rw [← String.not_lt, ← compareBytes_eq_lt_iff, hswap]
  cases compareBytes b a <;> decide

end SqlCompletion.Text
