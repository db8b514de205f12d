import Mathlib.Data.List.TakeWhile
import Mathlib.Tactic.Common
import TemplateCheck.Proofs.Text.Slice

/-!
# Occurrences

Where one text stands in another: at its start (`startsWith`), at its end (`dropEnd?`) or anywhere
(`contains`). A text that occurs in two texts put together occurs in one of them or stands across
the place where they meet; for texts of two characters the second part then begins with the second
character (`contains_pair_append`).
-/

namespace TemplateCheck

namespace Text

/-! ## Starts -/

theorem exists_of_startsWith {word t : Text} (h : startsWith word t = true) :
    ∃ rest, t = word ++ rest := by
  obtain ⟨rest, hRest⟩ := Option.isSome_iff_exists.mp h
  exact ⟨rest, eq_append_of_dropStart? hRest⟩

/-- A piece without a character stands before the first place of the character. -/
theorem exists_append_of_not_mem {piece rest s t : Text} {c : Char}
    (h : piece ++ rest = s ++ c :: t) (hc : c ∉ piece) :
    ∃ more, s = piece ++ more ∧ rest = more ++ c :: t := by
  rcases List.append_eq_append_iff.mp h with hMore | ⟨missing, hPiece, hRest⟩
  · exact hMore
  · cases missing with
    | nil => exact ⟨[], by rw [hPiece, List.append_nil, List.append_nil], hRest.symm⟩
    | cons d missing =>
      obtain rfl : c = d := (List.cons.inj hRest).1
      exact absurd (hPiece ▸ List.mem_append_right _ List.mem_cons_self) hc

theorem startsWith_cons_self (a : Char) (part t : Text) :
    startsWith (a :: part) (a :: t) = startsWith part t := by
  rw [startsWith, dropStart?, if_pos rfl]
  rfl

theorem startsWith_cons_of_ne {a c : Char} {part t : Text} (h : a ≠ c) :
    startsWith (a :: part) (c :: t) = false := by
  rw [startsWith, dropStart?, if_neg h]
  rfl

theorem startsWith_singleton (separator c : Char) (t : Text) :
    startsWith [separator] (c :: t) = decide (separator = c) := by
  by_cases h : separator = c
  · rw [h, startsWith_cons_self, decide_eq_true rfl]
    rfl
  · rw [startsWith_cons_of_ne h, decide_eq_false h]

theorem startsWith_eq_false_of_not_mem {word t : Text} {c : Char} (hWord : c ∈ word) (ht : c ∉ t) :
    startsWith word t = false := by
  refine Bool.eq_false_iff.mpr fun h => ht ?_
  obtain ⟨rest, rfl⟩ := exists_of_startsWith h
  exact List.mem_append_left rest hWord

theorem startsWith_append_of_not_mem {word t rest : Text} (h : ∀ c ∈ rest.head?, c ∉ word) :
    startsWith word (t ++ rest) = startsWith word t := by
  induction word generalizing t with
  | nil => rfl
  | cons a word ih =>
    cases t with
    | nil =>
      cases rest with
      | nil => rfl
      | cons c rest => exact startsWith_cons_of_ne fun hEq => h c rfl (hEq ▸ List.mem_cons_self)
    | cons c t =>
      rw [List.cons_append]
      by_cases hEq : a = c
      · subst hEq
        rw [startsWith_cons_self, startsWith_cons_self]
        exact ih fun c hc hMem => h c hc (List.mem_cons_of_mem _ hMem)
      · rw [startsWith_cons_of_ne hEq, startsWith_cons_of_ne hEq]

/-- Where a space follows, a text begins with a word and a space only if it is that word or
begins so by itself. -/
theorem startsWith_word_append (word : Text) {first rest : Text} (hWord : ' ' ∉ word)
    (hFirst : startsWith (word ++ [' ']) first = false) (hNe : first ≠ word) :
    startsWith (word ++ [' ']) (first ++ ' ' :: rest) = false := by
  induction word generalizing first with
  | nil =>
    cases first with
    | nil => exact absurd rfl hNe
    | cons c first =>
      rw [List.nil_append, startsWith_singleton] at hFirst
      rw [List.nil_append, List.cons_append, startsWith_singleton, hFirst]
  | cons a word ih =>
    obtain ⟨ha, hWord⟩ := not_or.mp (List.mem_cons.not.mp hWord)
    rw [List.cons_append] at hFirst ⊢
    cases first with
    | nil => exact startsWith_cons_of_ne (Ne.symm ha)
    | cons c first =>
      rw [List.cons_append]
      by_cases hEq : a = c
      · subst hEq
        rw [startsWith_cons_self] at hFirst ⊢
        exact ih hWord hFirst fun hSame => hNe (by rw [hSame])
      · exact startsWith_cons_of_ne hEq

/-- What follows a text does not tell whether it begins with a pair of characters, if it
cannot complete the pair. -/
theorem startsWith_pair_append {a b : Char} {s t : Text} (hs : s ≠ []) (ht : ∀ c ∈ t.head?, c ≠ b) :
    startsWith [a, b] (s ++ t) = startsWith [a, b] s := by
  cases s with
  | nil => exact absurd rfl hs
  | cons c s =>
    rw [List.cons_append]
    by_cases hEq : a = c
    · subst hEq
      rw [startsWith_cons_self, startsWith_cons_self]
      cases s with
      | cons d s => rw [List.cons_append, startsWith_singleton, startsWith_singleton]
      | nil =>
        cases t with
        | nil => rfl
        | cons d t => exact startsWith_cons_of_ne (ht d rfl).symm
    · rw [startsWith_cons_of_ne hEq, startsWith_cons_of_ne hEq]

/-! ## Ends -/

theorem dropEnd?_append (t ending : Text) : dropEnd? ending (t ++ ending) = some t := by
  unfold dropEnd?
  rw [List.reverse_append, dropStart?_append, Option.map_some, List.reverse_reverse]

theorem eq_append_of_dropEnd? {ending t before : Text} (h : dropEnd? ending t = some before) :
    t = before ++ ending := by
  obtain ⟨rest, hRest, rfl⟩ := Option.map_eq_some_iff.mp h
  rw [← List.reverse_reverse t, eq_append_of_dropStart? hRest, List.reverse_append,
    List.reverse_reverse]

/-! ## The first and the last of a character -/

theorem upTo_append {c : Char} {t : Text} (h : c ∉ t) (rest : Text) :
    upTo c (t ++ rest) = t ++ upTo c rest := by
  refine List.takeWhile_append_of_pos fun d hd => decide_eq_true ?_
  rintro rfl
  exact h hd

theorem upTo_of_not_mem {c : Char} {t : Text} (h : c ∉ t) : upTo c t = t := by
  simpa [upTo] using upTo_append h []

theorem exists_upTo_append (c : Char) (t : Text) :
    ∃ rest, t = upTo c t ++ rest ∧ c ∉ upTo c t ∧ ∀ d ∈ rest.head?, d = c := by
  refine ⟨t.dropWhile (· ≠ c), List.takeWhile_append_dropWhile.symm, fun hMem => ?_, fun d hd => ?_⟩
  · simpa using List.mem_takeWhile_imp (p := (· ≠ c)) hMem
  · have hNot := List.head?_dropWhile_not (· ≠ c) t
    rw [Option.mem_def.mp hd] at hNot
    simpa using hNot

theorem afterLast_append {c : Char} {t : Text} (h : c ∉ t) (before : Text) :
    afterLast c (before ++ t) = afterLast c before ++ t := by
  have hRun := upTo_append (fun hMem => h (List.mem_reverse.mp hMem)) before.reverse
  rw [upTo, upTo, ← List.reverse_append] at hRun
  rw [afterLast, afterLast, hRun, List.reverse_append, List.reverse_reverse]

theorem afterLast_of_not_mem {c : Char} {t : Text} (h : c ∉ t) : afterLast c t = t :=
  afterLast_append h []

theorem afterLast_append_cons {c : Char} {t : Text} (h : c ∉ t) (before : Text) :
    afterLast c (before ++ c :: t) = t := by
  rw [← List.singleton_append, ← List.append_assoc, afterLast_append h, afterLast,
    List.reverse_concat, List.takeWhile_cons_of_neg (by simp)]
  rfl

/-! ## Anywhere -/

theorem contains_cons {part : Text} (c : Char) (t : Text) :
    contains part (c :: t) = (startsWith part (c :: t) || contains part t) := by
  unfold contains
  rw [find?]
  cases startsWith part (c :: t) with
  | true => rfl
  | false => rw [if_neg Bool.false_ne_true, Option.isSome_map, Bool.false_or]

theorem contains_eq_false {part t : Text} {c : Char} (hPart : c ∈ part) (ht : c ∉ t) :
    contains part t = false := by
  have hNone : find? part t = none := by
    induction t with
    | nil => exact if_neg (List.ne_nil_of_mem hPart)
    | cons d t ih =>
      have hStart : ¬ startsWith part (d :: t) = true := by
        intro hStart
        obtain ⟨rest, hRest⟩ := exists_of_startsWith hStart
        exact ht (hRest ▸ List.mem_append_left rest hPart)
      rw [find?, if_neg hStart, ih fun hc => ht (List.mem_cons_of_mem _ hc)]
      rfl
  rw [contains, hNone]
  rfl

theorem contains_of_startsWith {part t : Text} (h : startsWith part t = true) :
    contains part t = true := by
  cases t with
  | nil =>
    cases part with
    | nil => rfl
    | cons a part => cases h
  | cons c t =>
    rw [contains_cons, h]
    rfl

theorem contains_append_left (s : Text) {part t : Text} (h : contains part t = true) :
    contains part (s ++ t) = true := by
  induction s with
  | nil => exact h
  | cons c s ih => rw [List.cons_append, contains_cons, ih, Bool.or_true]

theorem contains_append_of_not_mem {a : Char} {part s : Text} (h : a ∉ s) (t : Text) :
    contains (a :: part) (s ++ t) = contains (a :: part) t := by
  induction s with
  | nil => rfl
  | cons c s ih =>
    obtain ⟨hc, hs⟩ := not_or.mp (List.mem_cons.not.mp h)
    rw [List.cons_append, contains_cons, ih hs, startsWith_cons_of_ne hc, Bool.false_or]

theorem startsWith_pair_eq_false {a b : Char} {before after rest : Text} {c : Char}
    (h : contains [a, b] (before ++ c :: after) = false) (hRest : ∀ d ∈ rest.head?, d ≠ b) :
    startsWith [a, b] (c :: (after ++ rest)) = false := by
  induction before with
  | nil =>
    rw [List.nil_append, contains_cons, Bool.or_eq_false_iff] at h
    rw [← List.cons_append, startsWith_pair_append (List.cons_ne_nil c after) hRest, h.1]
  | cons d before ih =>
    rw [List.cons_append, contains_cons, Bool.or_eq_false_iff] at h
    exact ih h.2

theorem contains_pair_append {a b : Char} {s t : Text} (hs : contains [a, b] s = false)
    (ht : contains [a, b] t = false) (hHead : ∀ c ∈ t.head?, c ≠ b) :
    contains [a, b] (s ++ t) = false := by
  induction s with
  | nil => exact ht
  | cons c s ih =>
    have hStart : startsWith [a, b] (c :: (s ++ t)) = false := by
      rw [← List.nil_append (c :: s)] at hs
      exact startsWith_pair_eq_false hs hHead
    rw [contains_cons, Bool.or_eq_false_iff] at hs
    rw [List.cons_append, contains_cons, hStart, ih hs.2]
    rfl

end Text

end TemplateCheck
