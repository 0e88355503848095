import TypedLine.Text.Case
import TypedLine.Text.Whitespace

/-!
# Lower-casing again

A lower-case form is its own lower-case form (`lowerCase_lowerCase`), and it is blank only if the
text is (`isBlank_lowerCase`). The first is not plain, because lower-casing looks at more than one
character at a time: a sigma is mapped by what stands around it, and one capital becomes two
characters. What makes it true is that nothing is left to be mapped. A character of a lower-case
form is **settled**: it is no capital sigma, and alone it stays as it is.

That an image is settled is a property of the table, and it is decided run against run, not
character against character: the images of a run lie before the capitals of another run, or behind
them, or between them.
-/

namespace TypedLine.Text

/-! ### The runs of the table -/

namespace CaseRun

/-- The greatest number that an image may have. -/
def lastImage (r : CaseRun) : Nat :=
  r.image + (r.last - r.first)

/-- Whether the images of `r` lie between the capitals of `s`. They do when the first one does and
the steps of `r`, if it has any, are steps of `s` too. -/
def liesBetween (r s : CaseRun) : Bool :=
  s.first.ble r.image && (r.first == r.last || r.stride % s.stride == 0) &&
    (r.image - s.first) % s.stride != 0

/-- Whether the images of `r` lie before, behind or between the capitals of `s`. -/
def avoids (r s : CaseRun) : Bool :=
  r.lastImage.blt s.first || (s.last.blt r.image || r.liesBetween s)

variable {r s : CaseRun} {n : Nat}

theorem covers_iff :
    r.covers n ↔ r.first ≤ n ∧ n ≤ r.last ∧ (n - r.first) % r.stride = 0 := by
  simp [covers, and_assoc]

/-- The images lie between the first and the last. -/
theorem apply_bounds (h : r.covers n) : r.image ≤ r.apply n ∧ r.apply n ≤ r.lastImage := by
  obtain ⟨hfirst, hlast, -⟩ := covers_iff.1 h
  unfold apply lastImage
  omega

/-- An image that lies between capitals is none of them. -/
theorem covers_apply_of_liesBetween (hbetween : r.liesBetween s) (h : r.covers n) :
    s.covers (r.apply n) = false := by
  obtain ⟨hfirst, hlast, hstep⟩ := covers_iff.1 h
  simp only [liesBetween, Bool.and_eq_true, Bool.or_eq_true, Nat.ble_eq, beq_iff_eq, bne_iff_ne]
    at hbetween
  obtain ⟨⟨himage, hsteps⟩, hrest⟩ := hbetween
  -- The way from the first image to this one is made of steps of `s`.
  have hway : s.stride ∣ n - r.first := by
    rcases hsteps with hone | hdvd
    · have hzero : n - r.first = 0 := by omega
      rw [hzero]
      exact Nat.dvd_zero _
    · exact Nat.dvd_trans (Nat.dvd_of_mod_eq_zero hdvd) (Nat.dvd_of_mod_eq_zero hstep)
  refine Bool.eq_false_iff.2 fun hcovers ↦ hrest ?_
  obtain ⟨-, -, hzero⟩ := covers_iff.1 hcovers
  have hsplit : r.apply n - s.first = r.image - s.first + (n - r.first) := by
    unfold apply
    omega
  rw [hsplit] at hzero
  exact Nat.mod_eq_zero_of_dvd ((Nat.dvd_add_left hway).1 (Nat.dvd_of_mod_eq_zero hzero))

/-- An image that avoids the capitals of a run is none of them. -/
theorem covers_apply_of_avoids (havoids : r.avoids s) (h : r.covers n) :
    s.covers (r.apply n) = false := by
  obtain ⟨hlow, hhigh⟩ := apply_bounds h
  simp only [avoids, Bool.or_eq_true, Nat.blt_eq] at havoids
  rcases havoids with hbefore | hbehind | hbetween
  · refine Bool.eq_false_iff.2 fun hcovers ↦ ?_
    have hfirst := (covers_iff.1 hcovers).1
    omega
  · refine Bool.eq_false_iff.2 fun hcovers ↦ ?_
    have hlast := (covers_iff.1 hcovers).2.1
    omega
  · exact covers_apply_of_liesBetween hbetween h

end CaseRun

/-- **No image is a capital**: the images of every run avoid the capitals of every run. -/
theorem caseRuns_avoid : ∀ r ∈ caseRuns, caseRuns.all r.avoids = true := by
  decide +kernel

/-- The images are characters, and other ones than the capital I with a dot above. -/
theorem caseRuns_image : ∀ r ∈ caseRuns,
    (r.lastImage < 0xD800 ∨ 0xDFFF < r.image ∧ r.lastImage < 0x110000) ∧
      (r.lastImage < 'İ'.toNat ∨ 'İ'.toNat < r.image) := by
  decide +kernel

/-- The images are no whitespace. -/
theorem caseRuns_image_whiteSpace : ∀ r ∈ caseRuns, ∀ w ∈ whiteSpace,
    r.lastImage < w.1 ∨ w.2 < r.image := by
  decide +kernel

/-! ### One character -/

/-- A character is **settled** when it is no capital sigma and, alone, is its own lower-case
form. -/
def Settled (c : Char) : Prop :=
  c ≠ 'Σ' ∧ lowerChar c = [c]

instance (c : Char) : Decidable (Settled c) :=
  inferInstanceAs (Decidable (_ ∧ _))

variable {c d : Char}

/-- What lower-casing does to a character alone. -/
theorem lowerChar_cases (c : Char) :
    (c = 'İ' ∧ lowerChar c = ['i', '\u0307']) ∨
      (∃ r ∈ caseRuns, r.covers c.toNat ∧ lowerChar c = [Char.ofNat (r.apply c.toNat)]) ∨
      (c ≠ 'İ' ∧ (∀ r ∈ caseRuns, r.covers c.toNat = false) ∧ lowerChar c = [c]) := by
  by_cases hdot : c = 'İ'
  · exact .inl ⟨hdot, by rw [lowerChar, if_pos hdot]⟩
  · rcases hfind : caseRuns.find? (·.covers c.toNat) with - | r
    · have hnone : ∀ r ∈ caseRuns, r.covers c.toNat = false := by
        intro r hr
        exact Bool.eq_false_iff.2 (List.find?_eq_none.1 hfind r hr)
      exact .inr (.inr ⟨hdot, hnone, by rw [lowerChar, if_neg hdot, hfind]⟩)
    · have hcovers : r.covers c.toNat := by simpa using List.find?_some hfind
      refine .inr (.inl ⟨r, List.mem_of_find?_eq_some hfind, hcovers, ?_⟩)
      rw [lowerChar, if_neg hdot, hfind]

/-- The code point of an image. -/
theorem toNat_image {r : CaseRun} {n : Nat} (hr : r ∈ caseRuns) (h : r.covers n) :
    (Char.ofNat (r.apply n)).toNat = r.apply n := by
  have hvalid : (r.apply n).isValidChar := by
    obtain ⟨hlow, hhigh⟩ := CaseRun.apply_bounds h
    obtain ⟨hchar, -⟩ := caseRuns_image r hr
    show r.apply n < 0xD800 ∨ 0xDFFF < r.apply n ∧ r.apply n < 0x110000
    omega
  rw [Char.ofNat, dif_pos hvalid]
  rfl

/-- What no run covers is settled, but for the capital I with a dot above. -/
theorem settled_of_covers (hdot : c ≠ 'İ') (h : ∀ r ∈ caseRuns, r.covers c.toNat = false) :
    Settled c := by
  constructor
  · rintro rfl
    have hsigma : ∃ r ∈ caseRuns, r.covers 'Σ'.toNat = true := by decide +kernel
    obtain ⟨r, hr, hcovers⟩ := hsigma
    rw [h r hr] at hcovers
    cases hcovers
  · have hnone : caseRuns.find? (·.covers c.toNat) = none := by
      refine List.find?_eq_none.2 fun r hr ↦ ?_
      rw [h r hr]
      exact Bool.false_ne_true
    rw [lowerChar, if_neg hdot, hnone]

/-- **The lower-case form of a character is settled.** -/
theorem settled_of_mem_lowerChar (h : d ∈ lowerChar c) : Settled d := by
  rcases lowerChar_cases c with ⟨-, hc⟩ | ⟨r, hr, hcovers, hc⟩ | ⟨hdot, hnone, hc⟩
  · rw [hc, List.mem_cons, List.mem_singleton] at h
    rcases h with rfl | rfl
    · decide +kernel
    · decide +kernel
  · rw [hc] at h
    obtain rfl := List.mem_singleton.1 h
    have himage := toNat_image hr hcovers
    refine settled_of_covers ?_ fun s hs ↦ ?_
    · intro hdot
      obtain ⟨hlow, hhigh⟩ := CaseRun.apply_bounds hcovers
      obtain ⟨-, hapart⟩ := caseRuns_image r hr
      rw [← himage, hdot] at hlow hhigh
      omega
    · rw [himage]
      exact CaseRun.covers_apply_of_avoids (List.all_eq_true.1 (caseRuns_avoid r hr) s hs) hcovers
  · rw [hc] at h
    obtain rfl := List.mem_singleton.1 h
    exact settled_of_covers hdot hnone

/-- Both forms of a sigma are settled. -/
theorem settled_lowerSigma (behind ahead : List Char) : Settled (lowerSigma behind ahead) := by
  unfold lowerSigma
  split
  · decide +kernel
  · decide +kernel

/-- A character that is no whitespace has a form without whitespace. -/
theorem isSpace_of_mem_lowerChar (hc : isSpace c = false) (h : d ∈ lowerChar c) :
    isSpace d = false := by
  rcases lowerChar_cases c with ⟨-, hform⟩ | ⟨r, hr, hcovers, hform⟩ | ⟨-, -, hform⟩
  · rw [hform, List.mem_cons, List.mem_singleton] at h
    rcases h with rfl | rfl
    · decide
    · decide
  · rw [hform] at h
    obtain rfl := List.mem_singleton.1 h
    obtain ⟨hlow, hhigh⟩ := CaseRun.apply_bounds hcovers
    have houtside : ∀ w ∈ whiteSpace, ¬ (w.1 ≤ r.apply c.toNat ∧ r.apply c.toNat ≤ w.2) := by
      intro w hw
      have hapart := caseRuns_image_whiteSpace r hr w hw
      omega
    simpa only [isSpace, CharClass.holds, toNat_image hr hcovers, List.any_eq_false,
      Bool.and_eq_true, decide_eq_true_eq] using houtside
  · rw [hform] at h
    obtain rfl := List.mem_singleton.1 h
    exact hc

/-! ### A whole text -/

/-- **Every character of a lower-case form is settled.** -/
theorem settled_of_mem_lowerAfter {behind cs : List Char} (h : d ∈ lowerAfter behind cs) :
    Settled d := by
  induction cs generalizing behind with
  | nil => cases h
  | cons c cs ih =>
    rw [lowerAfter, List.mem_append] at h
    rcases h with hhead | hrest
    · split at hhead
      · obtain rfl := List.mem_singleton.1 hhead
        exact settled_lowerSigma behind cs
      · exact settled_of_mem_lowerChar hhead
    · exact ih hrest

/-- A text of settled characters is its own lower-case form, whatever stands before it. -/
theorem lowerAfter_of_settled {behind cs : List Char} (h : ∀ c ∈ cs, Settled c) :
    lowerAfter behind cs = cs := by
  induction cs generalizing behind with
  | nil => rfl
  | cons c cs ih =>
    obtain ⟨⟨hsigma, hc⟩, hcs⟩ := List.forall_mem_cons.1 h
    rw [lowerAfter, if_neg hsigma, hc, ih hcs]
    rfl

/-- **A lower-case form is its own lower-case form.** -/
theorem lowerCase_lowerCase (s : String) : lowerCase (lowerCase s) = lowerCase s := by
  have hsettled : lowerAfter [] (lowerAfter [] s.toList) = lowerAfter [] s.toList :=
    lowerAfter_of_settled fun _ hd ↦ settled_of_mem_lowerAfter hd
  rw [lowerCase, lowerCase, String.toList_ofList, hsettled]

/-- Every character leaves something behind, and it is whitespace only if the character is. -/
theorem exists_mem_lowerAfter (behind : List Char) {cs : List Char} (hmem : c ∈ cs)
    (hc : isSpace c = false) : ∃ d ∈ lowerAfter behind cs, isSpace d = false := by
  induction cs generalizing behind with
  | nil => cases hmem
  | cons b cs ih =>
    rw [lowerAfter]
    rcases List.mem_cons.1 hmem with rfl | hmem
    · by_cases hsigma : c = 'Σ'
      · refine ⟨lowerSigma behind cs, List.mem_append_left _ (by simp [hsigma]), ?_⟩
        unfold lowerSigma
        split
        · decide
        · decide
      · obtain ⟨d, hd⟩ : ∃ d, d ∈ lowerChar c := by
          rcases lowerChar_cases c with ⟨-, hform⟩ | ⟨r, -, -, hform⟩ | ⟨-, -, hform⟩
          · exact ⟨'i', by simp [hform]⟩
          · exact ⟨_, by rw [hform]; exact .head _⟩
          · exact ⟨c, by simp [hform]⟩
        refine ⟨d, List.mem_append_left _ ?_, isSpace_of_mem_lowerChar hc hd⟩
        rwa [if_neg hsigma]
    · obtain ⟨d, hd, hspace⟩ := ih (b :: behind) hmem
      exact ⟨d, List.mem_append_right _ hd, hspace⟩

/-- The lower-case form of a text that is not blank is not blank. -/
theorem isBlank_lowerCase {s : String} (h : isBlank s = false) : isBlank (lowerCase s) = false := by
  obtain ⟨c, hmem, hc⟩ := isBlank_eq_false_iff.1 h
  obtain ⟨d, hd, hspace⟩ := exists_mem_lowerAfter [] hmem hc
  refine isBlank_eq_false_iff.2 ⟨d, ?_, hspace⟩
  rw [lowerCase, String.toList_ofList]
  exact hd

end TypedLine.Text
