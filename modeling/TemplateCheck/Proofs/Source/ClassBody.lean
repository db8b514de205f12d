import Mathlib.Tactic.Common
import TemplateCheck.Proofs.Text.Slice
import TemplateCheck.Source.File

/-!
# Class bodies

The body of a class goes from an opening brace to the brace that closes it, or to the end of the
text. Where each body ends is counted from its own start. The more braces are open the later a count
stops (`braceStopFrom_mono`), and while a count has not stopped at least one brace is open
(`exists_braceStopFrom_append`). So a body that begins in another one ends in it (`braceStop_le`),
and of the classes around an offset the one that begins last is the innermost
(`SourceFile.classAt?_innermost`).
-/

namespace TemplateCheck

namespace ClassDeclaration

/-! ## Counting braces -/

theorem le_braceStopFrom (depth : Int) (offset : Nat) (t : Text) :
    offset ≤ braceStopFrom depth offset t := by
  fun_induction braceStopFrom depth offset t <;> omega

theorem braceStopFrom_mono {depth depth' : Int} (hOpen : 1 ≤ depth) (h : depth ≤ depth')
    (offset : Nat) (t : Text) :
    braceStopFrom depth offset t ≤ braceStopFrom depth' offset t := by
  induction t generalizing depth depth' offset with
  | nil => exact Nat.le_refl offset
  | cons c t ih =>
    rw [braceStopFrom, braceStopFrom]
    split_ifs with hOpening hClosing hLast hLast' hLast'
    · exact ih (by omega) (by omega) (offset + 1)
    · exact Nat.le_refl (offset + 1)
    · exact le_braceStopFrom _ (offset + 1) t
    · omega
    · exact ih (by omega) (by omega) (offset + 1)
    · exact ih hOpen h (offset + 1)

/-- A count that does not stop in a piece of text goes on behind it with a brace open. -/
theorem exists_braceStopFrom_append {depth : Int} (hOpen : 1 ≤ depth) {offset : Nat} {s t : Text}
    (h : offset + s.length < braceStopFrom depth offset (s ++ t)) :
    ∃ depth', 1 ≤ depth' ∧ braceStopFrom depth offset (s ++ t) =
      braceStopFrom depth' (offset + s.length) t := by
  induction s generalizing depth offset with
  | nil => exact ⟨depth, hOpen, rfl⟩
  | cons c s ih =>
    rw [List.length_cons, Nat.add_comm s.length, ← Nat.add_assoc] at h ⊢
    rw [List.cons_append, braceStopFrom] at h ⊢
    split_ifs at h ⊢ with hOpening hClosing hLast
    · exact ih (by omega) h
    · omega
    · exact ih (by omega) h
    · exact ih hOpen h

theorem braceStop_eq {mask : Text} {offset : Nat} (h : mask[offset]? = some '{') :
    braceStop mask offset = braceStopFrom 1 (offset + 1) (mask.drop (offset + 1)) := by
  rw [braceStop, List.drop_eq_getElem?_toList_append, h]
  rfl

/-- What is opened inside a pair of braces is closed inside it. -/
theorem braceStop_le {mask : Text} {outer inner : Nat} (hOuter : mask[outer]? = some '{')
    (hInner : mask[inner]? = some '{') (hAfter : outer < inner)
    (hInside : inner < braceStop mask outer) : braceStop mask inner ≤ braceStop mask outer := by
  obtain ⟨hBound, -⟩ := List.getElem?_eq_some_iff.mp hInner
  rw [braceStop_eq hOuter] at hInside ⊢
  have hSplit : mask.drop (outer + 1) =
      (mask.drop (outer + 1)).take (inner - (outer + 1)) ++ mask.drop inner := by
    have hJoin := (List.take_append_drop (inner - (outer + 1)) (mask.drop (outer + 1))).symm
    rwa [List.drop_drop, show outer + 1 + (inner - (outer + 1)) = inner by omega] at hJoin
  have hLength :
      outer + 1 + ((mask.drop (outer + 1)).take (inner - (outer + 1))).length = inner := by
    rw [List.length_take, List.length_drop]
    omega
  rw [hSplit] at hInside ⊢
  obtain ⟨depth, hOpen, hStop⟩ :=
    exists_braceStopFrom_append (Int.le_refl 1) (by rw [hLength]; exact hInside)
  rw [hStop, hLength, List.drop_eq_getElem?_toList_append, hInner, braceStop_eq hInner]
  exact braceStopFrom_mono (Int.le_refl 1) (show 1 ≤ depth + 1 by omega) (inner + 1) _

/-! ## Bodies -/

theorem getElem?_of_bodyStartFrom {mask : Text} {previous : Option Char} {depth : Int}
    {offset start : Nat} {t : Text} (hText : mask.drop offset = t)
    (h : bodyStartFrom previous depth offset t = some start) : mask[start]? = some '{' := by
  fun_induction bodyStartFrom previous depth offset t with
  | case1 => cases h
  | case4 previous depth offset c t hOpening hClosing hBody =>
    obtain rfl := Option.some.inj h
    rw [Text.getElem?_of_drop hText, hBody.1]
  | case5 => cases h
  | case2 previous depth offset t ih => exact ih (Text.drop_succ hText) h
  | case3 previous depth offset c t hOpening hClosing ih => exact ih (Text.drop_succ hText) h
  | case6 previous depth offset c t hOpening hClosing hBody hEnd ih =>
    exact ih (Text.drop_succ hText) h

/-- The body of a class is counted from its opening brace. -/
theorem body_of_mem_readAll {text mask : Text} {declaration : ClassDeclaration}
    (h : declaration ∈ readAll text mask) :
    mask[declaration.bodyStart]? = some '{' ∧
    declaration.bodyStop = braceStop mask declaration.bodyStart ∧
      declaration.fields = fieldsIn text mask declaration.bodyStart declaration.bodyStop := by
  obtain ⟨found, -, hDeclaration⟩ := List.mem_filterMap.mp h
  obtain ⟨bodyStart, hStart, rfl⟩ := Option.map_eq_some_iff.mp hDeclaration
  exact ⟨getElem?_of_bodyStartFrom rfl hStart, rfl, rfl⟩

/-- The body of the class lies in the body of another one. -/
def BodyWithin (inner outer : ClassDeclaration) : Prop :=
  outer.bodyStart ≤ inner.bodyStart ∧ inner.bodyStop ≤ outer.bodyStop

variable {text mask : Text} {inner outer : ClassDeclaration}

theorem contains_iff {declaration : ClassDeclaration} {offset : Int} :
    declaration.contains offset = true ↔
    (declaration.bodyStart : Int) ≤ offset ∧ offset < declaration.bodyStop := by
  rw [contains, Bool.and_eq_true, decide_eq_true_iff, decide_eq_true_iff]

theorem bodyWithin_of_start (hOuter : outer ∈ readAll text mask)
    (hInner : inner ∈ readAll text mask) (hAfter : outer.bodyStart ≤ inner.bodyStart)
    (hInside : inner.bodyStart < outer.bodyStop) : inner.BodyWithin outer := by
  obtain ⟨hOuterBrace, hOuterStop, -⟩ := body_of_mem_readAll hOuter
  obtain ⟨hInnerBrace, hInnerStop, -⟩ := body_of_mem_readAll hInner
  refine ⟨hAfter, ?_⟩
  rw [hOuterStop] at hInside ⊢
  rw [hInnerStop]
  rcases Nat.lt_or_eq_of_le hAfter with hLater | hSame
  · exact braceStop_le hOuterBrace hInnerBrace hLater hInside
  · rw [hSame]

end ClassDeclaration

/-! ## The class at an offset -/

/-- Of classes in a list that contain an offset, one whose body begins last. -/
structure LastAround (offset : Int) (classes : List ClassDeclaration)
    (found : ClassDeclaration) : Prop where
  mem : found ∈ classes
  contains : found.contains offset = true
  start_le : ∀ other ∈ classes, other.contains offset = true → other.bodyStart ≤ found.bodyStart

/-- What was found among the classes that a search for an offset has passed. -/
structure Searched (offset : Int) (passed : List ClassDeclaration)
    (found : Option ClassDeclaration) : Prop where
  of_none : found = none → ∀ other ∈ passed, other.contains offset = false
  of_some : ∀ best ∈ found, LastAround offset passed best

namespace Searched

variable {offset : Int} {passed : List ClassDeclaration} {found : Option ClassDeclaration}

theorem step (h : Searched offset passed found) (declaration : ClassDeclaration) :
    Searched offset (passed ++ [declaration])
      (if declaration.contains offset &&
          found.all (fun (best : ClassDeclaration) =>
            best.bodyStart < declaration.bodyStart) then some declaration
        else found) := by
  cases hContains : declaration.contains offset with
  | false =>
    rw [Bool.false_and, if_neg Bool.false_ne_true]
    refine ⟨fun hFound => ?_, fun best hBest => ?_⟩
    · exact List.forall_mem_append.mpr ⟨h.of_none hFound, by simpa using hContains⟩
    · obtain ⟨hMem, hBestContains, hStart⟩ := h.of_some best hBest
      refine ⟨List.mem_append_left _ hMem, hBestContains, List.forall_mem_append.mpr ⟨hStart, ?_⟩⟩
      simp [hContains]
  | true =>
    -- The class begins behind all that contain the offset, or not behind the best of them.
    have hKept (hEarlier : ∀ other ∈ passed, other.contains offset = true →
        other.bodyStart ≤ declaration.bodyStart) :
        Searched offset (passed ++ [declaration]) (some declaration) := by
      refine ⟨nofun, ?_⟩
      rintro best ⟨⟩
      exact ⟨by simp, hContains, List.forall_mem_append.mpr ⟨hEarlier, by simp⟩⟩
    cases found with
    | none =>
      refine hKept fun other hOther hHolds => ?_
      rw [h.of_none rfl other hOther] at hHolds
      cases hHolds
    | some best =>
      obtain ⟨hMem, hBestContains, hStart⟩ := h.of_some best rfl
      rw [Option.all_some, Bool.true_and]
      split_ifs with hLater
      · exact hKept fun other hOther hHolds =>
          Nat.le_trans (hStart other hOther hHolds) (Nat.le_of_lt (of_decide_eq_true hLater))
      · refine ⟨nofun, ?_⟩
        rintro best' ⟨⟩
        refine ⟨List.mem_append_left _ hMem, hBestContains, List.forall_mem_append.mpr ⟨hStart, ?_⟩⟩
        simpa using fun _ => Nat.le_of_not_lt fun hLess => hLater (decide_eq_true hLess)

theorem foldl (h : Searched offset passed found) (later : List ClassDeclaration) :
    Searched offset (passed ++ later) (later.foldl
      (fun found declaration =>
        if declaration.contains offset &&
            found.all (fun (best : ClassDeclaration) => best.bodyStart < declaration.bodyStart)
        then some declaration else found) found) := by
  induction later generalizing passed found with
  | nil => rwa [List.append_nil]
  | cons declaration later ih =>
    have hLater := ih (h.step declaration)
    rwa [List.append_assoc, List.singleton_append] at hLater

end Searched

/-- The class at an offset is one that contains it and whose body begins last; where there is none,
no class contains the offset. -/
theorem SourceFile.searched_classAt? (file : SourceFile) (offset : Int) :
    Searched offset file.classes (file.classAt? offset) := by
  have hNothing : Searched offset [] none := ⟨by simp, by simp⟩
  exact hNothing.foldl file.classes

/-- In every source text, two class bodies are disjoint or one lies in the other. The class at an
offset is missing just where no body contains the offset, and otherwise its body contains the offset
and lies in the body of every other class that contains it. -/
theorem SourceFile.classAt?_innermost (marker : WideText) (path text : Text) :
    let file := SourceFile.read marker path text
    (∀ a ∈ file.classes, ∀ b ∈ file.classes,
      a.bodyStop ≤ b.bodyStart ∨ b.bodyStop ≤ a.bodyStart ∨ a.BodyWithin b ∨ b.BodyWithin a) ∧
    ∀ offset : Int,
      (file.classAt? offset = none ↔ ∀ declaration ∈ file.classes,
        declaration.contains offset = false) ∧
      ∀ found, file.classAt? offset = some found → found ∈ file.classes ∧
        found.contains offset = true ∧
        ∀ other ∈ file.classes, other.contains offset = true → found.BodyWithin other := by
  intro file
  refine ⟨fun a ha b hb => ?_, fun offset => ?_⟩
  · by_cases hOrder : a.bodyStart ≤ b.bodyStart
    · by_cases hInside : b.bodyStart < a.bodyStop
      · exact .inr (.inr (.inr (ClassDeclaration.bodyWithin_of_start ha hb hOrder hInside)))
      · exact .inl (Nat.le_of_not_lt hInside)
    · by_cases hInside : a.bodyStart < b.bodyStop
      · exact .inr (.inr (.inl (ClassDeclaration.bodyWithin_of_start hb ha (by omega) hInside)))
      · exact .inr (.inl (Nat.le_of_not_lt hInside))
  · have hSearched := file.searched_classAt? offset
    refine ⟨⟨hSearched.of_none, fun hNone => ?_⟩, fun found hFound => ?_⟩
    · refine Option.eq_none_iff_forall_ne_some.mpr fun found hFound => ?_
      obtain ⟨hMem, hContains, -⟩ := hSearched.of_some found hFound
      rw [hNone found hMem] at hContains
      cases hContains
    · obtain ⟨hMem, hContains, hLast⟩ := hSearched.of_some found hFound
      refine ⟨hMem, hContains, fun other hOther hOtherContains => ?_⟩
      have hStart := hLast other hOther hOtherContains
      have hHere := ClassDeclaration.contains_iff.mp hContains
      have hThere := ClassDeclaration.contains_iff.mp hOtherContains
      exact ClassDeclaration.bodyWithin_of_start hOther hMem hStart (by omega)

end TemplateCheck
