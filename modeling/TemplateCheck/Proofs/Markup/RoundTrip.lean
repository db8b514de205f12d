import Mathlib.Data.List.Nodup
import TemplateCheck.Proofs.Markup.Settings

/-!
# Tokenizing a written document

Tokenizing undoes writing: the tokens of the body of a document are the tags and the bound
placeholders of the document, and the body ends in text (`tokenize_body`).

Each part of a document takes the machine from text to text and adds its own tags and placeholders
(`Item.passes`). The placeholders come out by increasing index, since a document binds them in the
order in which they stand in it (`boundFrom_numbered`).
-/

namespace TemplateCheck

namespace Document

open Tokenizer

section Items

variable {regions : List Region} {tags : List Tag} {bound : List Bound} {index offset : Nat}

/-! ## Text, comments and closing tags -/

theorem passes_text {pieces : List Piece} (hFits : ∀ c, .char c ∈ pieces → c ≠ '<')
    (h : Marked regions index offset pieces) :
    Passes regions ⟨.text, tags, bound⟩ offset pieces ⟨.text, tags, bound⟩ := by
  induction pieces generalizing index offset with
  | nil => exact .refl _ _ _
  | cons piece pieces ih =>
    have hRest := forall_char_of_cons hFits
    cases piece with
    | char c =>
      have hc : c ≠ '<' := hFits c List.mem_cons_self
      refine .char h.1 (fun later => react_of_look ?_) (ih hRest h.2)
      simp [Machine.look, Text.startsWith, Text.dropStart?, hc, Ne.symm hc]
    | hole code => exact .hole h.1 (ih hRest h.2)

theorem startsWith_append {start t : Text} (h : start.length ≤ t.length) (u : Text) :
    Text.startsWith start (t ++ u) = Text.startsWith start t := by
  induction start generalizing t with
  | nil => rfl
  | cons a start ih =>
    cases t with
    | nil => cases h
    | cons c t =>
      have := ih (Nat.le_of_succ_le_succ h)
      by_cases hac : a = c
      · simpa [Text.startsWith, Text.dropStart?, hac] using this
      · simp [Text.startsWith, Text.dropStart?, hac]

theorem passes_commentInside {inside : Text}
    (hCloses : Text.find? "-->" (inside ++ "-->".toList) = some inside.length)
    (h : Marked regions index offset (chars (inside ++ "-->".toList))) :
    Passes regions ⟨.comment, tags, bound⟩ offset (chars (inside ++ "-->".toList))
      ⟨.text, tags, bound⟩ := by
  induction inside generalizing offset with
  | nil =>
    show Passes _ _ _ (chars ('-' :: ['-', '>']) ++ []) _
    exact .jump h.1 (fun later => react_of_look rfl) (.refl _ _ _)
  | cons c inside ih =>
    rw [List.cons_append, Text.find?] at hCloses
    rw [List.cons_append, chars_cons] at h ⊢
    split_ifs at hCloses with hStart
    · cases hCloses
    · obtain ⟨n, hFind, hn⟩ := Option.map_eq_some_iff.mp hCloses
      obtain rfl : n = inside.length := by simpa using hn
      refine .char h.1 (fun later => react_of_look ?_) (ih hFind h.2)
      have hGoes : Text.startsWith "-->" (c :: (print (chars (inside ++ "-->".toList)) ++ later)) =
          false := by
        rw [print_chars, ← List.cons_append, startsWith_append (by simp)]
        simpa using hStart
      simp only [Machine.look, hGoes]
      rfl

theorem passes_comment {inside : Text}
    (hCloses : Text.find? "-->" (inside ++ "-->".toList) = some inside.length)
    (h : Marked regions index offset (chars ("<!--".toList ++ (inside ++ "-->".toList)))) :
    Passes regions ⟨.text, tags, bound⟩ offset (chars ("<!--".toList ++ (inside ++ "-->".toList)))
      ⟨.text, tags, bound⟩ := by
  rw [chars_append] at h ⊢
  obtain ⟨hOpen, hInside⟩ := marked_append.mp h
  exact .jump (t := ['!', '-', '-']) hOpen.1 (fun later => react_of_look rfl)
    (passes_commentInside hCloses hInside)

theorem passes_closingInside {inside : Text} (hFits : ∀ c ∈ inside, c ≠ '>')
    (h : Marked regions index offset (chars (inside ++ ['>']))) :
    Passes regions ⟨.closingTag, tags, bound⟩ offset (chars (inside ++ ['>']))
      ⟨.text, tags, bound⟩ := by
  induction inside generalizing offset with
  | nil => exact .char h.1 (fun later => react_of_look rfl) (.refl _ _ _)
  | cons c inside ih =>
    obtain ⟨hc, hRest⟩ := List.forall_mem_cons.mp hFits
    refine .char h.1 (fun later => react_of_look ?_) (ih hRest h.2)
    simp [Machine.look, hc]

theorem passes_closing {inside : Text} (hFits : ∀ c ∈ inside, c ≠ '>')
    (h : Marked regions index offset (chars ('<' :: '/' :: (inside ++ ['>'])))) :
    Passes regions ⟨.text, tags, bound⟩ offset (chars ('<' :: '/' :: (inside ++ ['>'])))
      ⟨.text, tags, bound⟩ := by
  obtain ⟨hOpen, -, hInside⟩ := h
  exact .jump (t := ['/']) hOpen (fun later => react_of_look rfl)
    (passes_closingInside hFits hInside)

/-! ## Opening tags -/

theorem passes_name {start : Nat} {read name : Text}
    (hFits : ∀ c ∈ name, isAlphanumeric c = true ∨ c = '-' ∨ c = '_')
    (hMarked : Marked regions index offset (chars name)) :
    Passes regions ⟨.tagName start read, tags, bound⟩ offset (chars name)
      ⟨.tagName start (name.reverse ++ read), tags, bound⟩ := by
  induction name generalizing offset read with
  | nil => exact .refl _ _ _
  | cons c name ih =>
    obtain ⟨hc, hRest⟩ := List.forall_mem_cons.mp hFits
    rw [List.reverse_cons, List.append_assoc]
    refine .char hMarked.1 (fun later => react_of_look ?_) (ih hRest hMarked.2)
    simp [Machine.look, Machine.goTo, or_assoc, hc]

theorem foldl_putNew (m : OrderedMap Text Text) (entries : List (Text × Text)) :
    entries.foldl (fun m entry => OrderedMap.putNew m entry.1 entry.2) m =
      m ++ (firstOfEachKey entries).filter fun entry => !OrderedMap.hasKey m entry.1 := by
  induction entries generalizing m with
  | nil => simp [firstOfEachKey]
  | cons entry rest ih =>
    rw [List.foldl_cons, ih, firstOfEachKey, List.filter_cons, List.filter_filter]
    cases hKey : OrderedMap.hasKey m entry.1 with
    | true =>
      rw [OrderedMap.putNew, if_pos hKey]
      refine congrArg (m ++ ·) (List.filter_congr fun other _ => ?_)
      by_cases hOther : other.1 = entry.1
      · simp [hOther, hKey]
      · simp [hOther]
    | false =>
      rw [OrderedMap.putNew, hKey, if_neg (by simp), List.append_assoc]
      refine congrArg (m ++ entry :: ·) (List.filter_congr fun other _ => ?_)
      simp [OrderedMap.hasKey, eq_comm]

/-- The tag that is read of an opening tag is the tag that it means. -/
theorem tag_eq (opening : Opening) :
    { addSettings (offset + 1 + opening.name.length)
        ⟨opening.name, offset, [], [], false⟩ opening.settings with
      selfClosing := opening.selfClosing } = opening.tag offset := by
  simp [addSettings, addStatics, Opening.tag, foldl_putNew, OrderedMap.hasKey]

theorem look_opening (opening : Opening) (t : Text) :
    Machine.look ⟨.text, tags, bound⟩ offset '<' (opening.name ++ t) =
      (⟨.tagName offset [], tags, bound⟩, 1) := by
  have hLetter := opening.initial_isLetter
  have hBang : '!' ≠ opening.initial := by
    intro h
    rw [← h] at hLetter
    exact absurd hLetter (by decide)
  have hSlash : opening.initial ≠ '/' := by
    intro h
    rw [h] at hLetter
    exact absurd hLetter (by decide)
  simp [Machine.look, Opening.name, Text.startsWith, Text.dropStart?, hBang, hSlash, hLetter,
    Machine.goTo]

theorem passes_opening {opening : Opening}
    (hMarked : Marked regions index offset opening.pieces) :
    Passes regions ⟨.text, tags, bound⟩ offset opening.pieces
      ⟨.text, opening.tag offset :: tags,
        (settingsBound tags.length index (offset + 1 + opening.name.length)
          opening.settings).reverse ++ bound⟩ := by
  have hFits : ∀ c ∈ opening.name, isAlphanumeric c = true ∨ c = '-' ∨ c = '_' := by
    refine List.forall_mem_cons.mpr ⟨.inl ?_, opening.others_fit⟩
    simp [isAlphanumeric, opening.initial_isLetter]
  obtain ⟨⟨hOpen, hName⟩, hMarked⟩ := marked_append.mp hMarked
  obtain ⟨hSettings, hClose⟩ := marked_append.mp hMarked
  simp only [holes_chars, width_chars, List.length_cons, Nat.add_zero,
    Nat.add_comm opening.name.length 1, ← Nat.add_assoc] at hSettings hClose
  have hNamed : Passes regions ⟨.tagName offset [], tags, bound⟩ (offset + 1) (chars opening.name)
      ⟨.tagName offset opening.name.reverse, tags, bound⟩ := by
    rw [← List.append_nil opening.name.reverse]
    exact passes_name hFits hName
  obtain ⟨m, hPasses, hSettles⟩ := passes_settings .tagName hSettings
  rw [← tag_eq, Opening.pieces, chars_cons, List.cons_append]
  refine .char hOpen (fun later => react_of_look ?_)
    (hNamed.append_chars (hPasses.append (hSettles.passes_close _ rfl hClose)))
  rw [print_append, print_chars, List.append_assoc]
  exact look_opening _ _

/-! ## Documents -/

theorem Item.passes (item : Item) (hMarked : Marked regions index offset item.pieces) :
    Passes regions ⟨.text, tags, bound⟩ offset item.pieces
      ⟨.text, (item.tags offset).reverse ++ tags,
        (item.bound tags.length index offset).reverse ++ bound⟩ := by
  cases item with
  | text pieces fits => exact passes_text fits hMarked
  | comment inside closes => exact passes_comment closes hMarked
  | closing inside fits => exact passes_closing fits hMarked
  | opening tag => exact passes_opening hMarked

/-- Each part leaves the machine ready for the next. -/
theorem passes_document (document : Document)
    (hMarked : Marked regions index offset document.pieces) :
    Passes regions ⟨.text, tags, bound⟩ offset document.pieces
      ⟨.text, (tagsFrom offset document).reverse ++ tags,
        (boundFrom tags.length index offset document).reverse ++ bound⟩ := by
  induction document generalizing tags bound index offset with
  | nil => exact .refl _ _ _
  | cons item rest ih =>
    obtain ⟨hItem, hRest⟩ := marked_append.mp hMarked
    have hCount : tags.length + (item.tags offset).length =
        ((item.tags offset).reverse ++ tags).length := by
      simp [Nat.add_comm]
    rw [tagsFrom, boundFrom, hCount, List.reverse_append, List.reverse_append, List.append_assoc,
      List.append_assoc]
    exact (item.passes hItem).append (ih hRest)

end Items

/-! ## The order of bound placeholders -/

/-- The indices increase; they are among the `count` numbers from `start` on. -/
structure Numbered (start count : Nat) (bound : List Bound) : Prop where
  increasing : bound.Pairwise fun a b => a.index < b.index
  among : ∀ b ∈ bound, start ≤ b.index ∧ b.index < start + count

namespace Numbered

variable {start count more : Nat} {bound later : List Bound}

theorem nil : Numbered start count [] := ⟨.nil, by simp⟩

theorem mono (h : Numbered start count bound) (hMore : count ≤ more) :
    Numbered start more bound where
  increasing := h.increasing
  among b hb := by
    have := h.among b hb
    omega

theorem append (h : Numbered start count bound) (hLater : Numbered (start + count) more later) :
    Numbered start (count + more) (bound ++ later) where
  increasing := by
    refine List.pairwise_append.mpr ⟨h.increasing, hLater.increasing, fun a ha b hb => ?_⟩
    have := h.among a ha
    have := hLater.among b hb
    omega
  among b hb := by
    rcases List.mem_append.mp hb with hb | hb
    · have := h.among b hb
      omega
    · have := hLater.among b hb
      omega

end Numbered

theorem bindAll_numbered (tag : Nat) (attr : Attribute) (quoted : Bool) (index : Nat)
    (pieces : List Piece) :
    Numbered index (holes pieces) (bindAll tag attr quoted index pieces) := by
  induction pieces generalizing index with
  | nil => exact .nil
  | cons piece pieces ih =>
    cases piece with
    | char c => exact ih index
    | hole code =>
      have hFirst : Numbered index 1 [⟨index, tag, attr, quoted⟩] :=
        ⟨List.pairwise_singleton _ _, by simp⟩
      rw [holes, Nat.add_comm]
      exact hFirst.append (ih (index + 1))

theorem Value.bound_numbered (tag : Nat) (attr : Attribute) (index : Nat) (value : Value) :
    Numbered index (holes value.pieces) (value.bound tag attr index) := by
  cases value with
  | missing => exact .nil
  | quoted quote pieces hQuote hFits =>
    refine (bindAll_numbered tag attr true index _).mono ?_
    have h := congrArg holes (List.takeWhile_append_dropWhile (p := (!·.isBlank)) (l := pieces))
    simp only [holes_append] at h
    simp only [Value.pieces, holes, holes_append]
    omega
  | unquoted first rest hQuote hFits => exact bindAll_numbered tag attr false index _

theorem Setting.bound_numbered (tag index offset : Nat) (setting : Setting) :
    Numbered index (holes setting.pieces) (setting.bound tag index offset) := by
  rw [Setting.bound]
  split
  · refine (setting.value.bound_numbered tag _ index).mono ?_
    simp [Setting.pieces]
  · exact .nil

theorem settingsBound_numbered (tag index offset : Nat) (settings : List Setting) :
    Numbered index (holes (settings.flatMap Setting.pieces))
      (settingsBound tag index offset settings) := by
  induction settings generalizing index offset with
  | nil => exact .nil
  | cons setting rest ih =>
    rw [List.flatMap_cons, holes_append]
    exact (setting.bound_numbered tag index offset).append (ih _ _)

theorem Item.bound_numbered (tag index offset : Nat) (item : Item) :
    Numbered index (holes item.pieces) (item.bound tag index offset) := by
  cases item with
  | opening o =>
    refine (settingsBound_numbered tag index _ o.settings).mono ?_
    rw [Item.pieces, Opening.pieces, holes_append, holes_append]
    omega
  | text | comment | closing => exact .nil

theorem boundFrom_numbered (tag index offset : Nat) (document : Document) :
    Numbered index (holes document.pieces) (boundFrom tag index offset document) := by
  induction document generalizing tag index offset with
  | nil => exact .nil
  | cons item rest ih =>
    rw [Document.pieces, List.flatMap_cons, holes_append]
    exact (item.bound_numbered tag index offset).append (ih _ _ _)

theorem mergeSort_reverse {bound : List Bound}
    (h : bound.Pairwise fun a b => a.index < b.index) :
    bound.reverse.mergeSort (fun a b => a.index ≤ b.index) = bound := by
  have hSorted : (bound.reverse.mergeSort fun a b => a.index ≤ b.index).Pairwise fun a b =>
      decide (a.index ≤ b.index) = true :=
    List.pairwise_mergeSort (fun a b c => by simpa using Nat.le_trans)
      (fun a b => by simpa using Nat.le_total a.index b.index) _
  have hGiven : bound.Pairwise fun a b => decide (a.index ≤ b.index) = true :=
    h.imp fun hab => decide_eq_true (Nat.le_of_lt hab)
  have hNodup : (bound.map (·.index)).Nodup := List.pairwise_map.mpr (h.imp Nat.ne_of_lt)
  refine List.Perm.eq_of_pairwise (fun a b ha hb hab hba => ?_) hSorted hGiven
    ((List.mergeSort_perm _ _).trans (List.reverse_perm _))
  have hIndex : a.index = b.index := by
    simp only [decide_eq_true_eq] at hab hba
    omega
  exact List.inj_on_of_nodup_map hNodup (List.mem_reverse.mp (List.mem_mergeSort.mp ha)) hb hIndex

theorem tokenize_body (document : Document) :
    tokenize document.body document.placeholders = ⟨document.tags, document.bound, .text⟩ := by
  have hMarked : Marked (regions document.placeholders) 0 0 document.pieces :=
    marked_regions document.pieces [] (by simp) (regionsFrom_pairwise _ _)
  have hPasses : Passes (regions document.placeholders) .start 0 document.pieces
      ⟨.text, document.tags.reverse ++ [], document.bound.reverse ++ []⟩ :=
    passes_document document hMarked
  have hRun : runFrom (regions document.placeholders) .start 0 0 document.body =
      ⟨.text, document.tags.reverse, document.bound.reverse⟩ := by
    simpa [body, runFrom] using hPasses []
  have hSort := mergeSort_reverse (boundFrom_numbered 0 0 0 document).increasing
  simp only [tokenize, hRun, Machine.finish, List.reverse_reverse]
  exact congrArg (Tokens.mk document.tags · .text) hSort

end Document

end TemplateCheck
