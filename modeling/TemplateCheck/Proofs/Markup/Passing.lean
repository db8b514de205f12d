import TemplateCheck.Proofs.Markup.Document
import TemplateCheck.Proofs.Markup.Placeholders

/-!
# Passing over pieces

The run of the tokenizer over the pieces of a document, one piece after another. The regions of the
placeholders are found where the placeholders stand (`marked_regions`), so the machine passes each
placeholder whole and looks at every other character.

`Passes` says that a run gets over some pieces whatever text follows them. Runs over neighbouring
pieces join (`Passes.append`), so each construct of a document can be studied alone.
-/

namespace TemplateCheck

namespace Document

open Tokenizer

/-! ## Pieces in a row -/

@[simp] theorem print_nil : print [] = [] := rfl

@[simp] theorem print_cons (piece : Piece) (rest : List Piece) :
    print (piece :: rest) = piece.print ++ print rest :=
  List.flatMap_cons

@[simp] theorem print_append (pieces rest : List Piece) :
    print (pieces ++ rest) = print pieces ++ print rest :=
  List.flatMap_append

@[simp] theorem print_chars (t : Text) : print (chars t) = t := by
  induction t with
  | nil => rfl
  | cons c t ih => exact congrArg (c :: ·) ih

@[simp] theorem width_nil : width [] = 0 := rfl

@[simp] theorem width_char (c : Char) (rest : List Piece) :
    width (.char c :: rest) = width rest + 1 := by
  simp [width, Piece.print]

@[simp] theorem width_hole (code : Text) (rest : List Piece) :
    width (.hole code :: rest) = code.length + 3 + width rest := by
  simp [width, Piece.print]
  omega

@[simp] theorem width_append (pieces rest : List Piece) :
    width (pieces ++ rest) = width pieces + width rest := by
  simp [width]

@[simp] theorem width_chars (t : Text) : width (chars t) = t.length := by
  simp [width]

@[simp] theorem chars_cons (c : Char) (t : Text) : chars (c :: t) = .char c :: chars t := rfl

@[simp] theorem chars_append (s t : Text) : chars (s ++ t) = chars s ++ chars t :=
  List.map_append

@[simp] theorem holes_append (pieces rest : List Piece) :
    holes (pieces ++ rest) = holes pieces + holes rest := by
  induction pieces with
  | nil => simp [holes]
  | cons piece pieces ih =>
    cases piece with
    | char c => simpa [holes] using ih
    | hole code =>
      simp only [List.cons_append, holes, ih]
      omega

@[simp] theorem holes_chars (t : Text) : holes (chars t) = 0 := by
  induction t with
  | nil => rfl
  | cons c t ih => exact ih

theorem forall_char_of_cons {p : Char → Prop} {piece : Piece} {pieces : List Piece}
    (h : ∀ c, .char c ∈ piece :: pieces → p c) : ∀ c, .char c ∈ pieces → p c :=
  fun c hc => h c (List.mem_cons_of_mem _ hc)

/-! ## Regions of the placeholders -/

/-- The regions are found where the placeholders stand among the pieces, and only there. -/
def Marked (regions : List Region) : (index offset : Nat) → List Piece → Prop
  | _, _, [] => True
  | index, offset, .char _ :: rest =>
    regions.find? (·.start = (offset : Int)) = none ∧ Marked regions index (offset + 1) rest
  | index, offset, .hole code :: rest =>
    regions.find? (·.start = (offset : Int)) =
        some ⟨index, offset, (offset + (code.length + 3) : Nat)⟩ ∧
      Marked regions (index + 1) (offset + (code.length + 3)) rest

theorem marked_append {regions : List Region} {pieces rest : List Piece} {index offset : Nat} :
    Marked regions index offset (pieces ++ rest) ↔ Marked regions index offset pieces ∧
      Marked regions (index + holes pieces) (offset + width pieces) rest := by
  induction pieces generalizing index offset with
  | nil => simp [Marked, holes]
  | cons piece pieces ih =>
    cases piece with
    | char c =>
      simp only [List.cons_append, Marked, ih, holes, width_char, and_assoc]
      rw [show offset + 1 + width pieces = offset + (width pieces + 1) by omega]
    | hole code =>
      simp only [List.cons_append, Marked, ih, holes, width_hole, and_assoc]
      rw [show index + 1 + holes pieces = index + (holes pieces + 1) by omega, Nat.add_assoc]

theorem find?_regions {placeholders : List (Int × Int)}
    (h : placeholders.Pairwise fun p q => p.1 < q.1) {index : Nat} {p : Int × Int}
    (hp : placeholders[index]? = some p) {offset : Nat} (hStart : p.1 = offset) :
    (regions placeholders).find? (·.start = (offset : Int)) = some ⟨index, p.1, p.2⟩ := by
  have hMem : (⟨index, p.1, p.2⟩ : Region) ∈ regions placeholders := mem_regions_iff.mpr hp
  obtain ⟨region, hFound⟩ : ∃ region,
      (regions placeholders).find? (·.start = (offset : Int)) = some region := by
    rw [← Option.isSome_iff_exists, List.find?_isSome]
    exact ⟨_, hMem, by simpa using hStart⟩
  have hRegion := mem_regions_iff.mp (List.mem_of_find?_eq_some hFound)
  have hOffset : region.start = offset := by simpa using List.find?_some hFound
  -- Two places in the list with one start are one place.
  have hIndex : region.index = index := by
    obtain ⟨hi, hpi⟩ := List.getElem?_eq_some_iff.mp hp
    obtain ⟨hj, hpj⟩ := List.getElem?_eq_some_iff.mp hRegion
    rcases Nat.lt_trichotomy region.index index with hLt | hEq | hGt
    · have := List.pairwise_iff_getElem.mp h _ _ hj hi hLt
      rw [hpi, hpj] at this
      simp only at this
      omega
    · exact hEq
    · have := List.pairwise_iff_getElem.mp h _ _ hi hj hGt
      rw [hpi, hpj] at this
      simp only at this
      omega
  rw [hIndex, hp] at hRegion
  obtain rfl := Option.some.inj hRegion
  rw [hFound, ← hIndex]

theorem le_of_mem_regionsFrom {pieces : List Piece} {offset : Nat} :
    ∀ p ∈ regionsFrom offset pieces, (offset : Int) ≤ p.1 := by
  induction pieces generalizing offset with
  | nil => simp [regionsFrom]
  | cons piece pieces ih =>
    cases piece with
    | char c =>
      intro p hp
      have := ih p hp
      omega
    | hole code =>
      intro p hp
      rcases List.mem_cons.mp hp with rfl | hp
      · simp
      · have := ih p hp
        omega

theorem regionsFrom_pairwise (offset : Nat) (pieces : List Piece) :
    (regionsFrom offset pieces).Pairwise fun p q => p.1 < q.1 := by
  induction pieces generalizing offset with
  | nil => exact .nil
  | cons piece pieces ih =>
    cases piece with
    | char c => exact ih (offset + 1)
    | hole code =>
      refine List.pairwise_cons.mpr ⟨fun p hp => ?_, ih _⟩
      have := le_of_mem_regionsFrom p hp
      simp only
      omega

theorem marked_regions (pieces : List Piece) (before : List (Int × Int)) {offset : Nat}
    (hBefore : ∀ p ∈ before, p.1 < (offset : Int))
    (h : (before ++ regionsFrom offset pieces).Pairwise fun p q => p.1 < q.1) :
    Marked (regions (before ++ regionsFrom offset pieces)) before.length offset pieces := by
  induction pieces generalizing before offset with
  | nil => trivial
  | cons piece pieces ih =>
    cases piece with
    | char c =>
      refine ⟨List.find?_eq_none.mpr fun region hRegion => ?_, ih before (fun p hp => ?_) h⟩
      · have hMem := mem_of_mem_regions hRegion
        rw [regionsFrom] at hMem
        rcases List.mem_append.mp hMem with hMem | hMem
        · have := hBefore _ hMem
          simp only [decide_eq_true_eq] at this ⊢
          omega
        · have := le_of_mem_regionsFrom _ hMem
          simp only [decide_eq_true_eq] at this ⊢
          omega
      · have := hBefore p hp
        omega
    | hole code =>
      have hSplit : before ++ regionsFrom offset (.hole code :: pieces) =
          (before ++ [((offset : Int), ((offset + (code.length + 3) : Nat) : Int))]) ++
            regionsFrom (offset + (code.length + 3)) pieces := by
        simp [regionsFrom]
      have hGet : (before ++ regionsFrom offset (.hole code :: pieces))[before.length]? =
          some ((offset : Int), ((offset + (code.length + 3) : Nat) : Int)) := by
        rw [List.getElem?_append_right (Nat.le_refl _), Nat.sub_self]
        rfl
      refine ⟨find?_regions h hGet rfl, ?_⟩
      rw [hSplit] at h ⊢
      have := ih _ (fun p hp => ?_) h
      · simpa using this
      · rcases List.mem_append.mp hp with hp | hp
        · have := hBefore p hp
          omega
        · obtain rfl := List.mem_singleton.mp hp
          simp only
          omega

/-! ## Passing over pieces -/

/-- From `m` at `offset` the run passes over the pieces to `m'`, whatever follows them. -/
def Passes (regions : List Region) (m : Machine) (offset : Nat) (pieces : List Piece)
    (m' : Machine) : Prop :=
  ∀ later, runFrom regions m 0 offset (print pieces ++ later) =
    runFrom regions m' 0 (offset + width pieces) later

namespace Passes

variable {regions : List Region} {m m' m'' : Machine} {offset : Nat} {pieces rest : List Piece}

theorem refl (regions : List Region) (m : Machine) (offset : Nat) : Passes regions m offset [] m :=
  fun _ => rfl

theorem append (h : Passes regions m offset pieces m')
    (h' : Passes regions m' (offset + width pieces) rest m'') :
    Passes regions m offset (pieces ++ rest) m'' := by
  intro later
  rw [print_append, List.append_assoc, h, h', width_append, Nat.add_assoc]

theorem append_chars {t : Text} (h : Passes regions m offset (chars t) m')
    (h' : Passes regions m' (offset + t.length) rest m'') :
    Passes regions m offset (chars t ++ rest) m'' := by
  refine h.append ?_
  rwa [width_chars]

theorem jump {c : Char} {t : Text} (hNone : regions.find? (·.start = (offset : Int)) = none)
    (hReact : ∀ later, m.react offset c (t ++ (print rest ++ later)) = (m', t.length + 1))
    (h : Passes regions m' (offset + (t.length + 1)) rest m'') :
    Passes regions m offset (chars (c :: t) ++ rest) m'' := by
  intro later
  rw [print_append, print_chars, List.append_assoc, List.cons_append, runFrom, hNone]
  simp only [hReact, Nat.add_sub_cancel]
  rw [runFrom_skip _ _ t.length, List.drop_left, Nat.add_right_comm, Nat.add_assoc, h,
    width_append, width_chars, List.length_cons, Nat.add_assoc]

theorem char {c : Char} (hNone : regions.find? (·.start = (offset : Int)) = none)
    (hReact : ∀ later, m.react offset c (print rest ++ later) = (m', 1))
    (h : Passes regions m' (offset + 1) rest m'') :
    Passes regions m offset (.char c :: rest) m'' :=
  jump (t := []) hNone hReact h

theorem hole {code : Text} {index : Nat}
    (hSome : regions.find? (·.start = (offset : Int)) =
      some ⟨index, offset, (offset + (code.length + 3) : Nat)⟩)
    (h : Passes regions (m.passPlaceholder index offset) (offset + (code.length + 3)) rest m') :
    Passes regions m offset (.hole code :: rest) m' := by
  intro later
  have hSkip := runFrom_skip regions (m.passPlaceholder index offset)
    ('{' :: (code ++ ['}'])).length (offset + 1)
    (('{' :: (code ++ ['}'])) ++ (print rest ++ later))
  rw [List.drop_left] at hSkip
  simp only [List.length_cons, List.length_append, List.length_nil] at hSkip
  rw [print_cons, Piece.print, List.append_assoc, List.cons_append, runFrom, hSome]
  simp only [Int.toNat_natCast]
  rw [show offset + (code.length + 3) - (offset + 1) = code.length + (0 + 1) + 1 by omega, hSkip,
    show offset + 1 + (code.length + (0 + 1) + 1) = offset + (code.length + 3) by omega, h,
    width_hole, Nat.add_assoc]

end Passes

/-- One look at which the machine moves on. -/
theorem react_of_look {m m' : Machine} {offset moved : Nat} {c : Char} {t : Text}
    (h : m.look offset c t = (m', moved + 1)) : m.react offset c t = (m', moved + 1) := by
  rw [Machine.react_eq, h]
  simp

/-- A look that ends a state before the character, and the next one. -/
theorem react_of_look_zero {m m' : Machine} {offset : Nat} {c : Char} {t : Text}
    (h : m.look offset c t = (m', 0)) (hPos : 0 < (m'.look offset c t).2) :
    m.react offset c t = m'.look offset c t := by
  rw [Machine.react_eq, h]
  simp [Nat.ne_of_gt hPos]

end Document

end TemplateCheck
