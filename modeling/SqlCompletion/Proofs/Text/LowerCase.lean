import SqlCompletion.Proofs.Text.Ascii
import SqlCompletion.Text.LowerCase

/-!
Small letters stay as they are.

* `CapitalRun.avoids`: no image of one run of capitals is a capital of another;
* `isSmall_of_mem_lowerChar`: what a character is mapped to is not mapped to anything else;
* `lower_eq_of_equalIgnoringCase`: a text that differs from one in small letters only by the case of
  ASCII letters is mapped to it.
-/

namespace SqlCompletion.Text

/-! ### The runs of capitals -/

namespace CapitalRun

/-- The images of the first run lie outside the second, or between the capitals of it. -/
def avoids (a b : CapitalRun) : Bool :=
  Nat.blt (a.image + (a.last - a.first)) b.first || Nat.blt b.last a.image ||
    ((a.step % 2 == 0 || a.first == a.last) && b.step % 2 == 0 && a.image % 2 != b.first % 2)

lemma covers_iff {run : CapitalRun} {n : ℕ} :
    run.covers n = true ↔ run.first ≤ n ∧ n ≤ run.last ∧ run.step ∣ n - run.first := by
  simp [covers, Nat.dvd_iff_mod_eq_zero, and_assoc]

lemma covers_image_of_avoids {a b : CapitalRun} (h : a.avoids b = true) {n : ℕ}
    (hn : a.covers n = true) : b.covers (a.image + (n - a.first)) = false := by
  obtain ⟨hfirst, hlast, hstep⟩ := covers_iff.mp hn
  rw [← Bool.not_eq_true, covers_iff]
  rintro ⟨hfirst', hlast', hstep'⟩
  simp only [avoids, Bool.or_eq_true, Bool.and_eq_true, Nat.blt_eq, beq_iff_eq,
    bne_iff_ne] at h
  rcases h with (h | h) | ⟨⟨heven, heven'⟩, hparity⟩
  · omega
  · omega
  · have hdvd : 2 ∣ n - a.first := by
      rcases heven with heven | heq
      · exact (Nat.dvd_of_mod_eq_zero heven).trans hstep
      · have hzero : n - a.first = 0 := by omega
        rw [hzero]
        exact dvd_zero 2
    have hdvd' := (Nat.dvd_of_mod_eq_zero heven').trans hstep'
    omega

end CapitalRun

/-- The capitals of ASCII, and the one that is mapped to two characters, as runs. -/
def extraRuns : List CapitalRun :=
  [⟨0x41, 0x5A, 1, 0x61⟩, ⟨0x130, 0x130, 1, 0x69⟩]

/-- The images of all runs are code points of characters, and none is a capital. -/
lemma avoids_of_mem : (capitalRuns.all fun a =>
    (a.image + (a.last - a.first) < 0xD800 ||
      0xDFFF < a.image && a.image + (a.last - a.first) < 0x110000) &&
    (extraRuns ++ capitalRuns).all fun b => a.avoids b) = true := by
  decide +kernel

/-! ### Small letters -/

/-- The character is not mapped to any other. -/
def IsSmall (c : Char) : Prop :=
  lowerChar c = [c] ∧ c ≠ 'Σ'

lemma toLower_of_isUpper_eq_false {c : Char} (h : c.isUpper = false) : c.toLower = c := by
  refine dif_neg fun hc => ?_
  rw [← Bool.not_eq_true, isUpper_iff] at h
  exact h hc

lemma isUpper_eq_false_of_le {c : Char} (h : 128 ≤ c.toNat) : c.isUpper = false := by
  rw [← Bool.not_eq_true, isUpper_iff]
  omega

lemma isSmall_of_ascii {c : Char} (hc : c.toNat < 128) (hupper : c.isUpper = false) :
    IsSmall c := by
  refine ⟨by rw [lowerChar, if_pos hc, toLower_of_isUpper_eq_false hupper], ?_⟩
  rintro rfl
  exact absurd hc (by decide)

/-- A character that belongs to no run of capitals is small. -/
lemma isSmall_of_covers {c : Char}
    (h : ∀ run ∈ extraRuns ++ capitalRuns, run.covers c.toNat = false) : IsSmall c := by
  have hupper : c.isUpper = false := by
    have hrun := h ⟨0x41, 0x5A, 1, 0x61⟩ (by simp [extraRuns])
    rw [← Bool.not_eq_true, CapitalRun.covers_iff] at hrun
    rw [← Bool.not_eq_true, isUpper_iff]
    exact fun hc => hrun ⟨hc.1, hc.2, one_dvd _⟩
  by_cases hascii : c.toNat < 128
  · exact isSmall_of_ascii hascii hupper
  · have hdotted : c ≠ 'İ' := by
      rintro rfl
      exact absurd (h ⟨0x130, 0x130, 1, 0x69⟩ (by simp [extraRuns])) (by decide)
    have hnone : capitalRuns.find? (·.covers c.toNat) = none :=
      List.find?_eq_none.mpr fun run hrun => by simp [h run (List.mem_append_right _ hrun)]
    refine ⟨by rw [lowerChar, if_neg hascii, if_neg hdotted, hnone], ?_⟩
    rintro rfl
    exact absurd hnone (by decide +kernel)

/-- The image of a capital is small. -/
lemma isSmall_image {run : CapitalRun} (hrun : run ∈ capitalRuns) {n : ℕ}
    (hn : run.covers n = true) : IsSmall (Char.ofNat (run.image + (n - run.first))) := by
  have hall := List.all_eq_true.mp avoids_of_mem run hrun
  simp only [Bool.and_eq_true, Bool.or_eq_true, decide_eq_true_eq] at hall
  obtain ⟨hvalid, havoids⟩ := hall
  obtain ⟨-, hlast, -⟩ := CapitalRun.covers_iff.mp hn
  have htoNat : (Char.ofNat (run.image + (n - run.first))).toNat = run.image + (n - run.first) := by
    have hchar : (run.image + (n - run.first)).isValidChar := by
      rw [Nat.isValidChar]
      omega
    rw [Char.ofNat, dif_pos hchar]
    rfl
  refine isSmall_of_covers fun other hother => ?_
  rw [htoNat]
  exact CapitalRun.covers_image_of_avoids (List.all_eq_true.mp havoids other hother) hn

/-- What a character is mapped to is not mapped to anything else. -/
lemma isSmall_of_mem_lowerChar {c d : Char} (h : d ∈ lowerChar c) : IsSmall d := by
  rw [lowerChar] at h
  split_ifs at h with hascii hdotted
  · have hlower := of_ascii (p := fun c => c.toLower.toNat < 128 && !c.toLower.isUpper)
      (by decide +kernel) hascii
    rw [List.mem_singleton.mp h]
    exact isSmall_of_ascii (by simp_all) (by simp_all)
  · simp only [List.mem_cons, List.not_mem_nil, or_false] at h
    rcases h with rfl | rfl
    · exact ⟨by decide, by decide⟩
    · exact ⟨by decide +kernel, by decide⟩
  · split at h
    · rename_i run hfind
      rw [List.mem_singleton.mp h]
      have hcovers : run.covers c.toNat = true := by simpa using List.find?_some hfind
      exact isSmall_image (List.mem_of_find?_eq_some hfind) hcovers
    · rename_i hfind
      obtain rfl := List.mem_singleton.mp h
      refine ⟨by rw [lowerChar, if_neg hascii, if_neg hdotted, hfind], ?_⟩
      rintro rfl
      exact absurd hfind (by decide +kernel)

lemma lowerChar_of_toLower {c : Char} (h : IsSmall c.toLower) :
    lowerChar c = [c.toLower] ∧ c ≠ 'Σ' := by
  by_cases hascii : c.toNat < 128
  · refine ⟨by rw [lowerChar, if_pos hascii], ?_⟩
    rintro rfl
    exact absurd hascii (by decide)
  · have hsame := toLower_of_isUpper_eq_false (isUpper_eq_false_of_le (not_lt.mp hascii))
    rw [hsame] at h ⊢
    exact h

lemma lowerAfter_of_toLower {before cs : List Char} (h : ∀ c ∈ cs, IsSmall c.toLower) :
    lowerAfter before cs = cs.map Char.toLower := by
  induction cs generalizing before with
  | nil => rfl
  | cons c cs ih =>
      obtain ⟨hlower, hsigma⟩ := lowerChar_of_toLower (h c (List.mem_cons_self ..))
      rw [lowerAfter, if_neg hsigma, hlower, ih fun c' hc' => h c' (List.mem_cons_of_mem c hc')]
      rfl

lemma toLower_of_isSmall {c : Char} (h : IsSmall c) : c.toLower = c := by
  by_cases hascii : c.toNat < 128
  · have hlower := h.1
    rw [lowerChar, if_pos hascii] at hlower
    simpa using hlower
  · exact toLower_of_isUpper_eq_false (isUpper_eq_false_of_le (not_lt.mp hascii))

/-- A text that differs from one in small letters only by the case of ASCII letters is mapped to
it. -/
lemma lower_eq_of_equalIgnoringCase {a b : String} (hb : ∀ c ∈ b.toList, IsSmall c)
    (h : equalIgnoringCase a b = true) : lower a = b := by
  have hmap : a.toList.map Char.toLower = b.toList := by
    rw [equalIgnoringCase, beq_iff_eq] at h
    rw [h, List.map_congr_left fun c hc => toLower_of_isSmall (hb c hc), List.map_id']
  have hsmall : ∀ c ∈ a.toList, IsSmall c.toLower := by
    intro c hc
    exact hb c.toLower (hmap ▸ List.mem_map_of_mem hc)
  rw [lower, lowerAfter_of_toLower hsmall, hmap, String.ofList_toList]

end SqlCompletion.Text
