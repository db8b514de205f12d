import Mathlib.Data.List.Forall2
import Mathlib.Tactic.Common
import TemplateCheck.Proofs.Pattern
import TemplateCheck.Proofs.Source.Lexing
import TemplateCheck.Source.File

/-!
# The mask shows the text

Every character of the mask is the character of the text at its place or a space (`Masks`). So what
a pattern reads in the mask without a space stands in the text at the same place, and the name of
every class declaration stands in the text (`ClassDeclaration.exists_drop_nameStart`).
-/

namespace TemplateCheck

/-- The first text shows the second one, with some characters replaced by spaces. -/
def Masks (mask text : Text) : Prop :=
  List.Forall₂ (fun shown c => shown = c ∨ shown = ' ') mask text

namespace Masks

theorem nil : Masks [] [] := List.Forall₂.nil

theorem refl (text : Text) : Masks text text := List.forall₂_same.mpr fun _ _ => .inl rfl

theorem cons (c : Char) {mask text : Text} (h : Masks mask text) : Masks (c :: mask) (c :: text) :=
  List.Forall₂.cons (.inl rfl) h

theorem blank (c : Char) {mask text : Text} (h : Masks mask text) :
    Masks (' ' :: mask) (c :: text) :=
  List.Forall₂.cons (.inr rfl) h

theorem hide (c : Char) {mask text : Text} (h : Masks mask text) :
    Masks (Text.hide c :: mask) (c :: text) :=
  List.Forall₂.cons (Text.hide_eq c) h

theorem append {mask₁ text₁ mask₂ text₂ : Text} (h₁ : Masks mask₁ text₁) (h₂ : Masks mask₂ text₂) :
    Masks (mask₁ ++ mask₂) (text₁ ++ text₂) :=
  List.rel_append h₁ h₂

theorem map_hide (text : Text) : Masks (text.map Text.hide) text :=
  List.forall₂_map_left_iff.mpr (List.forall₂_same.mpr fun c _ => Text.hide_eq c)

theorem hideInit : (text : Text) → Masks (hideInit text) text
  | [] => nil
  | [c] => cons c nil
  | c :: d :: t => hide c (hideInit (d :: t))

theorem maskQuoted (text : Text) : Masks (maskQuoted text) text := by
  cases text with
  | nil => exact nil
  | cons q t => exact cons q (hideInit t)

theorem maskRegex (text : Text) : Masks (maskRegex text) text := by
  cases text with
  | nil => exact nil
  | cons slash t => exact cons slash (map_hide t)

theorem exists_append {mask text : Text} (h : Masks mask text) {piece rest : Text}
    (hMask : mask = piece ++ rest) (hPiece : ∀ c ∈ piece, c ≠ ' ') :
    ∃ rest', text = piece ++ rest' := by
  induction piece generalizing mask text with
  | nil => exact ⟨text, rfl⟩
  | cons c piece ih =>
    rw [List.cons_append] at hMask
    subst hMask
    obtain ⟨d, text', hSeen, hLater, rfl⟩ := List.forall₂_cons_left_iff.mp h
    obtain ⟨hc, hPiece⟩ := List.forall_mem_cons.mp hPiece
    obtain ⟨rest', rfl⟩ := ih hLater rfl hPiece
    exact ⟨rest', by rw [hSeen.resolve_right hc, List.cons_append]⟩

theorem exists_drop_append {mask text : Text} (h : Masks mask text) {offset : Nat}
    {piece rest : Text} (hMask : mask.drop offset = piece ++ rest) (hPiece : ∀ c ∈ piece, c ≠ ' ') :
    ∃ rest', text.drop offset = piece ++ rest' :=
  exists_append (List.forall₂_drop offset h) hMask hPiece

end Masks

/-! ## The mask of code -/

mutual

theorem Code.masks : (code : Code) → Masks code.mask code.source
  | .done => .nil
  | .mark c rest => .cons c rest.masks
  | .word name rest => .append (.refl name) rest.masks
  | .comment text rest => .append (.map_hide text) rest.masks
  | .quoted text rest => .append (.maskQuoted text) rest.masks
  | .regex text rest => .append (.maskRegex text) rest.masks
  | .literal body rest => by
    rw [Code.source_literal, Code.mask]
    exact .cons _ (.append body.masks rest.masks)

theorem Literal.masks : (body : Literal) → Masks body.mask body.source
  | .cut => .nil
  | .close => .cons _ .nil
  | .char c rest => .hide c rest.masks
  | .escape c rest => .blank _ (.hide c rest.masks)
  | .hole code rest => by
    rw [Literal.source_hole, Literal.mask]
    exact .blank _ (.blank _ (.append code.masks (.blank _ rest.masks)))
  | .cutHole code => .blank _ (.blank _ code.masks)

end

theorem Code.masks_ofText (text : Text) : Masks (Code.ofText text).mask text := by
  have h := (Code.ofText text).masks
  rwa [Code.source_ofText] at h

/-! ## Names of classes -/

theorem Text.ne_space_of_isIdentifier {name : Text} (h : name.isIdentifier = true) :
    ∀ c ∈ name, c ≠ ' ' := by
  cases name with
  | nil => simp
  | cons first name =>
    rw [Text.isIdentifier, Bool.and_eq_true, List.all_eq_true] at h
    have hChars : ∀ c ∈ first :: name, isNameChar c = true :=
      List.forall_mem_cons.mpr ⟨isNameChar_of_isNameStart h.1, h.2⟩
    have hSpace : isNameChar ' ' = false := by decide
    rintro c hc rfl
    rw [hChars _ hc] at hSpace
    cases hSpace

namespace ClassDeclaration

/-- A header that is found ends with the name that it captures. -/
theorem exists_name_of_header {mask : Text} {found : Pattern.Match Part}
    (h : found ∈ header.readAll mask) :
    (found.text .name).isIdentifier = true ∧
      ∃ rest, mask.drop (found.startOf .name) = found.text .name ++ rest := by
  obtain ⟨before, last, hReads, -, hCaptures⟩ := Pattern.exists_reads_of_mem_readAll h
  obtain ⟨first, hInit, hLast⟩ := hReads.last_of_all rfl
  have hFirst : mask.drop first.offset = first.rest := hInit.drop_eq rfl
  cases hLast with
  | @capture _ _ stop _ hBody =>
    obtain ⟨name, hName, hRest, hOffset, -⟩ := hBody.of_identifier
    -- The capture of the name is the last one that was recorded.
    have hCapture : found.capture? .name = some (.between .name first stop) := by
      rw [Pattern.Match.capture?, hCaptures]
      rfl
    have hStart : found.startOf .name = first.offset := by
      rw [Pattern.Match.startOf, hCapture]
      rfl
    have hText : found.text .name = name := by
      rw [Pattern.Match.text, Pattern.Match.text?, hCapture]
      show first.rest.take (stop.offset - first.offset) = name
      rw [hOffset, Nat.add_sub_cancel_left, hRest, List.take_left]
    rw [hStart, hText, hFirst]
    exact ⟨hName, stop.rest, hRest⟩

theorem isIdentifier_name {mask text : Text} {declaration : ClassDeclaration}
    (h : declaration ∈ readAll text mask) : declaration.name.isIdentifier = true := by
  obtain ⟨found, hFound, hDeclaration⟩ := List.mem_filterMap.mp h
  obtain ⟨bodyStart, -, rfl⟩ := Option.map_eq_some_iff.mp hDeclaration
  exact (exists_name_of_header hFound).1

theorem exists_drop_nameStart {mask text : Text} (hMask : Masks mask text)
    {declaration : ClassDeclaration} (h : declaration ∈ readAll text mask) :
    ∃ rest, text.drop declaration.nameStart = declaration.name ++ rest := by
  obtain ⟨found, hFound, hDeclaration⟩ := List.mem_filterMap.mp h
  obtain ⟨hName, rest, hRest⟩ := exists_name_of_header hFound
  obtain ⟨bodyStart, -, rfl⟩ := Option.map_eq_some_iff.mp hDeclaration
  exact hMask.exists_drop_append hRest (Text.ne_space_of_isIdentifier hName)

end ClassDeclaration

end TemplateCheck
