import Mathlib.Tactic.Common
import TemplateCheck.Text.Blank
import TemplateCheck.Text.Word

/-!
# Classes of characters

No blank is a letter or a numeral, so a blank ends every name. Classes are compared by their
characters: a character of one class is none of another's (`ne_of_class`), and a run of a class ends
where the text says (`append_inj_of_class`).
-/

namespace TemplateCheck

/-- Whether all characters of a text have a property is decided character by character, and not by
going through all characters that there are. -/
instance Text.decidableForallMem (t : Text) (p : Char → Prop) [DecidablePred p] :
    Decidable (∀ c ∈ t, p c) :=
  List.decidableBAll p t

instance Text.decidableForallMemEnd (c? : Option Char) (p : Char → Prop) [DecidablePred p] :
    Decidable (∀ c ∈ c?, p c) :=
  Option.decidableForallMem c?

/-- A character of a class is none of those that are not in it. -/
theorem ne_of_class {p : Char → Bool} {c d : Char} (hc : p c = true) (hd : p d = false) :
    c ≠ d := by
  rintro rfl
  rw [hc] at hd
  cases hd

theorem not_mem_of_class {p : Char → Bool} {c : Char} {cs : List Char} (hc : p c = true)
    (hcs : ∀ d ∈ cs, p d = false) : c ∉ cs := by
  intro hMem
  rw [hcs c hMem] at hc
  cases hc

/-- Where a run of a class ends is determined by the text. -/
theorem append_inj_of_class {p : Char → Bool} {s s' t t' : Text} (hs : ∀ c ∈ s, p c = true)
    (hs' : ∀ c ∈ s', p c = true) (ht : ∀ c ∈ t.head?, p c = false)
    (ht' : ∀ c ∈ t'.head?, p c = false) (h : s ++ t = s' ++ t') : s = s' ∧ t = t' := by
  induction s generalizing s' with
  | nil =>
    cases s' with
    | nil => exact ⟨rfl, h⟩
    | cons c s' =>
      obtain rfl : t = c :: (s' ++ t') := h
      exact absurd rfl (ne_of_class (hs' c List.mem_cons_self) (ht c rfl))
  | cons c s ih =>
    cases s' with
    | nil =>
      obtain rfl : c :: (s ++ t) = t' := h
      exact absurd rfl (ne_of_class (hs c List.mem_cons_self) (ht' c rfl))
    | cons c' s' =>
      obtain ⟨rfl, hLater⟩ := List.cons.inj h
      obtain ⟨rfl, rfl⟩ := ih (List.forall_mem_cons.mp hs).2 (List.forall_mem_cons.mp hs').2 hLater
      exact ⟨rfl, rfl⟩

/-- Codes among which all blanks are: the control characters, the space, and those beyond ASCII. -/
def blankCodes : List Nat :=
  List.range 33 ++
    [0x85, 0xa0, 0x1680, 0x2000, 0x2001, 0x2002, 0x2003, 0x2004, 0x2005, 0x2006, 0x2007, 0x2008,
      0x2009, 0x200a, 0x2028, 0x2029, 0x202f, 0x205f, 0x3000]

theorem toNat_mem_blankCodes {c : Char} (h : isBlank c = true) : c.toNat ∈ blankCodes := by
  simp only [isBlank] at h
  split_ifs at h with hAscii
  · simp only [Bool.and_eq_true, decide_eq_true_eq] at h
    exact List.mem_append_left _ (List.mem_range.mpr (by omega))
  · refine List.mem_append_right _ ?_
    simp only [Bool.or_eq_true, Bool.and_eq_true, decide_eq_true_eq, beq_iff_eq] at h
    simp only [List.mem_cons, List.not_mem_nil, or_false]
    omega

theorem isAlphanumeric_of_mem_blankCodes :
    ∀ n ∈ blankCodes, isAlphanumeric (Char.ofNat n) = false := by
  decide +kernel

theorem isAlphanumeric_of_isBlank {c : Char} (h : isBlank c = true) : isAlphanumeric c = false := by
  have := isAlphanumeric_of_mem_blankCodes c.toNat (toNat_mem_blankCodes h)
  rwa [Char.ofNat_toNat] at this

theorem isAlpha_of_isUpper {c : Char} (h : c.isUpper = true) : c.isAlpha = true :=
  Bool.or_eq_true_iff.mpr (.inl h)

theorem isAlphanum_of_isUpper {c : Char} (h : c.isUpper = true) : c.isAlphanum = true :=
  Bool.or_eq_true_iff.mpr (.inl (isAlpha_of_isUpper h))

theorem isAlphanumeric_of_isAlphanum {c : Char} (h : c.isAlphanum = true) :
    isAlphanumeric c = true := by
  rcases Bool.or_eq_true_iff.mp h with hAlpha | hDigit
  · exact Bool.or_eq_true_iff.mpr (.inl (isLetter_of_isAlpha hAlpha))
  · exact Bool.or_eq_true_iff.mpr (.inr (by rw [isNumeral, hDigit, Bool.true_or]))

theorem isBlank_of_isUpper {c : Char} (h : c.isUpper = true) : isBlank c = false := by
  refine Bool.eq_false_iff.mpr fun hBlank => ?_
  have hAlphanumeric := isAlphanumeric_of_isAlphanum (isAlphanum_of_isUpper h)
  rw [isAlphanumeric_of_isBlank hBlank] at hAlphanumeric
  cases hAlphanumeric

theorem isNameChar_of_isBlank {c : Char} (h : isBlank c = true) : isNameChar c = false := by
  have hUnderscore : c ≠ '_' := by
    rintro rfl
    cases h
  have hDollar : c ≠ '$' := by
    rintro rfl
    cases h
  simp [isNameChar, isAlphanumeric_of_isBlank h, hUnderscore, hDollar]

theorem isNameChar_of_isWordChar {c : Char} (h : isWordChar c = true) : isNameChar c = true := by
  unfold isWordChar at h
  rw [isNameChar, h, Bool.true_or]

theorem isWordChar_of_isBlank {c : Char} (h : isBlank c = true) : isWordChar c = false :=
  Bool.eq_false_iff.mpr fun hWord =>
    Bool.false_ne_true ((isNameChar_of_isBlank h).symm.trans (isNameChar_of_isWordChar hWord))

theorem isBlank_of_isNameChar {c : Char} (h : isNameChar c = true) : isBlank c = false := by
  cases hBlank : isBlank c with
  | false => rfl
  | true => rw [← h, isNameChar_of_isBlank hBlank]

theorem isNameChar_of_isIdentifier {t : Text} (h : t.isIdentifier = true) :
    ∀ c ∈ t, isNameChar c = true := by
  cases t with
  | nil => cases h
  | cons c t =>
    obtain ⟨hStart, hLater⟩ := Bool.and_eq_true_iff.mp h
    exact List.forall_mem_cons.mpr ⟨isNameChar_of_isNameStart hStart, List.all_eq_true.mp hLater⟩

theorem exists_cons_of_isIdentifier {t : Text} (h : t.isIdentifier = true) :
    ∃ c later, t = c :: later ∧ isNameStart c = true ∧ ∀ d ∈ later, isNameChar d = true := by
  cases t with
  | nil => cases h
  | cons c later =>
    obtain ⟨hFirst, hLater⟩ := Bool.and_eq_true_iff.mp h
    exact ⟨c, later, rfl, hFirst, List.all_eq_true.mp hLater⟩

end TemplateCheck
