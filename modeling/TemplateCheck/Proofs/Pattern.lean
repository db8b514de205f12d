import Mathlib.Tactic.Common
import TemplateCheck.Pattern
import TemplateCheck.Proofs.Text.Slice

/-!
# What a pattern has read

`Pattern.run` tries the ends of readings in an order of preference and hands them on. For most
purposes the order does not matter, only that the end that was taken is the end of a reading.

1. `Pattern.Reads` says, one rule for each constructor, which places a reading leads to.
2. Whatever `run` returns went through such a place (`Pattern.exists_reads_of_run`).
3. Hence every match in a text is a reading at its place (`Pattern.exists_reads_of_mem_readAll`).
4. A pattern without loops has a match where it has a reading (`Pattern.Reads.accepts`), and the
   texts that it can read are put together as the pattern is (`Pattern.Takes`).
-/

namespace TemplateCheck

namespace Pattern

variable {ι : Type}

/-- The place after some text, with what is left there. -/
def Cursor.after (cursor : Cursor ι) (read rest : Text) : Cursor ι :=
  ⟨read.getLast?.or cursor.previous, cursor.offset + read.length, rest, cursor.captures⟩

theorem Cursor.after_cons (cursor : Cursor ι) (c : Char) (read rest t : Text) :
    cursor.after (c :: read) rest =
      (⟨some c, cursor.offset + 1, t, cursor.captures⟩ : Cursor ι).after read rest := by
  simp only [Cursor.after, List.getLast?_cons, List.length_cons]
  cases read.getLast? <;> simp [Nat.add_comm, Nat.add_left_comm]

/-- What the capture of a reading from one place to another records. -/
def Capture.between (name : ι) (first last : Cursor ι) : Capture ι :=
  ⟨name, first.offset, first.rest, last.offset - first.offset⟩

/-- The pattern has a reading that leads from one place to another. -/
inductive Reads : Pattern ι → (first last : Cursor ι) → Prop
  | empty (cursor : Cursor ι) : Reads .empty cursor cursor
  | char {accepts : Char → Bool} {cursor : Cursor ι} {c : Char} {rest : Text}
      (rest_eq : cursor.rest = c :: rest) (accepted : accepts c = true) :
      Reads (.char accepts) cursor (cursor.after [c] rest)
  | lit {t : Text} {cursor : Cursor ι} {rest : Text} (rest_eq : cursor.rest = t ++ rest) :
      Reads (.lit t) cursor (cursor.after t rest)
  | span {accepts : Char → Bool} {cursor : Cursor ι} {read rest : Text}
      (rest_eq : cursor.rest = read ++ rest) (accepted : ∀ c ∈ read, accepts c = true) :
      Reads (.span accepts) cursor (cursor.after read rest)
  | spanLazy {accepts : Char → Bool} {cursor : Cursor ι} {read rest : Text}
      (rest_eq : cursor.rest = read ++ rest) (accepted : ∀ c ∈ read, accepts c = true) :
      Reads (.spanLazy accepts) cursor (cursor.after read rest)
  | look {test : Option Char → Text → Bool} {cursor : Cursor ι}
      (passed : test cursor.previous cursor.rest = true) : Reads (.look test) cursor cursor
  | seq {p q : Pattern ι} {a b c : Cursor ι} (first : Reads p a b) (second : Reads q b c) :
      Reads (.seq p q) a c
  | left {p : Pattern ι} (q : Pattern ι) {a b : Cursor ι} (first : Reads p a b) :
      Reads (.either p q) a b
  | right (p : Pattern ι) {q : Pattern ι} {a b : Cursor ι} (second : Reads q a b) :
      Reads (.either p q) a b
  | loopDone (p : Pattern ι) (cursor : Cursor ι) : Reads (.loop p) cursor cursor
  | loopMore {p : Pattern ι} {a b c : Cursor ι} (item : Reads p a b) (later : Reads (.loop p) b c) :
      Reads (.loop p) a c
  | capture {p : Pattern ι} {a b : Cursor ι} (name : ι) (body : Reads p a b) :
      Reads (.capture name p) a { b with captures := .between name a b :: b.captures }

/-! ## Runs are readings -/

theorem exists_reads_of_repeatMost {p : Pattern ι} {next : Next ι} {last : Cursor ι}
    (hItem : ∀ {cursor : Cursor ι} {next : Next ι}, p.run cursor next = some last →
      ∃ later, p.Reads cursor later ∧ next later = some last) :
    ∀ {bound : Text} {cursor : Cursor ι}, repeatMost p.run bound cursor next = some last →
      ∃ later, (loop p).Reads cursor later ∧ next later = some last := by
  intro bound
  induction bound with
  | nil =>
    intro cursor h
    exact ⟨cursor, .loopDone p cursor, h⟩
  | cons _ bound ih =>
    intro cursor h
    unfold repeatMost at h
    split at h
    · rename_i found hFound
      obtain rfl := Option.some.inj h
      obtain ⟨middle, hRead, hMore⟩ := hItem hFound
      obtain ⟨later, hLater, hNext⟩ := ih hMore
      exact ⟨later, .loopMore hRead hLater, hNext⟩
    · exact ⟨cursor, .loopDone p cursor, h⟩

/-- A run of characters hands on a place that some of them lead to. -/
theorem exists_read_of_spanMost {accepts : Char → Bool} {next : Next ι}
    {captures : List (Capture ι)} {last : Cursor ι} {previous : Option Char} {offset : Nat}
    {t : Text} (h : spanMost accepts next captures previous offset t = some last) :
    ∃ read rest, t = read ++ rest ∧ (∀ c ∈ read, accepts c = true) ∧
      next ((⟨previous, offset, t, captures⟩ : Cursor ι).after read rest) = some last := by
  fun_induction spanMost accepts next captures previous offset t with
  | case1 previous offset => exact ⟨[], [], rfl, by simp, h⟩
  | case2 previous offset c rest hc found hFound ih =>
    obtain rfl := Option.some.inj h
    obtain ⟨read, rest', rfl, hRead, hNext⟩ := ih hFound
    refine ⟨c :: read, rest', rfl, List.forall_mem_cons.mpr ⟨hc, hRead⟩, ?_⟩
    rwa [Cursor.after_cons _ c read rest' (read ++ rest')]
  | case3 previous offset c rest hc hNone ih => exact ⟨[], c :: rest, rfl, by simp, h⟩
  | case4 previous offset c rest hc => exact ⟨[], c :: rest, rfl, by simp, h⟩

theorem exists_read_of_spanLeast {accepts : Char → Bool} {next : Next ι}
    {captures : List (Capture ι)} {last : Cursor ι} {previous : Option Char} {offset : Nat}
    {t : Text} (h : spanLeast accepts next captures previous offset t = some last) :
    ∃ read rest, t = read ++ rest ∧ (∀ c ∈ read, accepts c = true) ∧
      next ((⟨previous, offset, t, captures⟩ : Cursor ι).after read rest) = some last := by
  fun_induction spanLeast accepts next captures previous offset t with
  | case1 previous offset => exact ⟨[], [], rfl, by simp, h⟩
  | case2 previous offset c rest found hFound => exact ⟨[], c :: rest, rfl, by simp, hFound.trans h⟩
  | case3 previous offset c rest hNone hc ih =>
    obtain ⟨read, rest', rfl, hRead, hNext⟩ := ih h
    refine ⟨c :: read, rest', rfl, List.forall_mem_cons.mpr ⟨hc, hRead⟩, ?_⟩
    rwa [Cursor.after_cons _ c read rest' (read ++ rest')]
  | case4 => cases h

/-- What a run returns comes from a place that a reading leads to. -/
theorem exists_reads_of_run {last : Cursor ι} : ∀ {p : Pattern ι} {cursor : Cursor ι}
    {next : Next ι}, p.run cursor next = some last →
      ∃ later, p.Reads cursor later ∧ next later = some last := by
  intro p
  induction p with
  | empty =>
    intro cursor next h
    exact ⟨cursor, .empty cursor, h⟩
  | char accepts =>
    intro cursor next h
    rw [run] at h
    split at h
    · cases h
    · rename_i c rest hRest
      split_ifs at h with hc
      exact ⟨_, .char hRest hc, h⟩
  | lit t =>
    intro cursor next h
    rw [run] at h
    split at h
    · cases h
    · rename_i rest hRest
      exact ⟨_, .lit (Text.eq_append_of_dropStart? hRest), h⟩
  | span accepts =>
    intro cursor next h
    obtain ⟨read, rest, hRest, hRead, hNext⟩ := exists_read_of_spanMost h
    exact ⟨_, .span hRest hRead, hNext⟩
  | spanLazy accepts =>
    intro cursor next h
    obtain ⟨read, rest, hRest, hRead, hNext⟩ := exists_read_of_spanLeast h
    exact ⟨_, .spanLazy hRest hRead, hNext⟩
  | look test =>
    intro cursor next h
    rw [run] at h
    split_ifs at h with hTest
    exact ⟨cursor, .look hTest, h⟩
  | seq p q ihp ihq =>
    intro cursor next h
    obtain ⟨middle, hFirst, hMiddle⟩ := ihp h
    obtain ⟨later, hSecond, hNext⟩ := ihq hMiddle
    exact ⟨later, .seq hFirst hSecond, hNext⟩
  | either p q ihp ihq =>
    intro cursor next h
    rw [run] at h
    split at h
    · rename_i found hFound
      obtain ⟨later, hFirst, hNext⟩ := ihp (hFound.trans h)
      exact ⟨later, .left q hFirst, hNext⟩
    · obtain ⟨later, hSecond, hNext⟩ := ihq h
      exact ⟨later, .right p hSecond, hNext⟩
  | loop p ih =>
    intro cursor next h
    exact exists_reads_of_repeatMost ih h
  | capture name p ih =>
    intro cursor next h
    obtain ⟨later, hBody, hNext⟩ := ih h
    exact ⟨_, .capture name hBody, hNext⟩

/-! ## Matches are readings -/

theorem exists_reads_of_readAt {p : Pattern ι} {previous : Option Char} {offset : Nat} {rest : Text}
    {found : Match ι} (h : p.readAt previous offset rest = some found) :
    ∃ last, p.Reads ⟨previous, offset, rest, []⟩ last ∧
      found = ⟨offset, last.offset, last.captures⟩ := by
  obtain ⟨last, hRun, rfl⟩ := Option.map_eq_some_iff.mp h
  obtain ⟨later, hReads, hLater⟩ := exists_reads_of_run hRun
  obtain rfl := Option.some.inj hLater
  exact ⟨later, hReads, rfl⟩

theorem exists_reads_of_mem_readAllFrom {p : Pattern ι} {text : Text} {found : Match ι} {skip : Nat}
    {previous : Option Char} {offset : Nat} {t : Text} (hText : text.drop offset = t)
    (h : found ∈ p.readAllFrom skip previous offset t) :
    ∃ before last, p.Reads ⟨before, found.start, text.drop found.start, []⟩ last ∧
      found.stop = last.offset ∧ found.captures = last.captures := by
  fun_induction readAllFrom p skip previous offset t with
  | case1 => cases h
  | case2 skip previous offset c t ih => exact ih (Text.drop_succ hText) h
  | case3 previous offset c t first hFirst ih =>
    rcases List.mem_cons.mp h with rfl | h
    · obtain ⟨last, hReads, rfl⟩ := exists_reads_of_readAt hFirst
      exact ⟨previous, last, by rwa [hText], rfl, rfl⟩
    · exact ih (Text.drop_succ hText) h
  | case4 previous offset c t hNone ih => exact ih (Text.drop_succ hText) h

theorem exists_reads_of_mem_readAll {p : Pattern ι} {text : Text} {found : Match ι}
    (h : found ∈ p.readAll text) :
    ∃ before last, p.Reads ⟨before, found.start, text.drop found.start, []⟩ last ∧
      found.stop = last.offset ∧ found.captures = last.captures :=
  exists_reads_of_mem_readAllFrom rfl h

/-! ## What a reading passes -/

/-- A reading passes the text between its two places. -/
theorem Reads.exists_passed {p : Pattern ι} {a b : Cursor ι} (h : p.Reads a b) :
    ∃ read, a.rest = read ++ b.rest ∧ b.offset = a.offset + read.length := by
  induction h with
  | empty cursor => exact ⟨[], rfl, rfl⟩
  | char hRest hc => exact ⟨_, hRest, rfl⟩
  | lit hRest => exact ⟨_, hRest, rfl⟩
  | span hRest hRead => exact ⟨_, hRest, rfl⟩
  | spanLazy hRest hRead => exact ⟨_, hRest, rfl⟩
  | look hTest => exact ⟨[], rfl, rfl⟩
  | left q first ih => exact ih
  | right p second ih => exact ih
  | loopDone p cursor => exact ⟨[], rfl, rfl⟩
  | seq first second ih₁ ih₂ | loopMore first second ih₁ ih₂ =>
    obtain ⟨read₁, hRest₁, hOffset₁⟩ := ih₁
    obtain ⟨read₂, hRest₂, hOffset₂⟩ := ih₂
    refine ⟨read₁ ++ read₂, ?_, ?_⟩
    · rw [hRest₁, hRest₂, List.append_assoc]
    · rw [hOffset₂, hOffset₁, List.length_append, Nat.add_assoc]
  | capture name body ih => exact ih

theorem Reads.drop_eq {p : Pattern ι} {a b : Cursor ι} (h : p.Reads a b) {text : Text}
    (hText : text.drop a.offset = a.rest) : text.drop b.offset = b.rest := by
  obtain ⟨read, hRest, hOffset⟩ := h.exists_passed
  rw [hOffset]
  exact Text.drop_add_length (hText.trans hRest)

theorem Reads.seq_inv {p q : Pattern ι} {a c : Cursor ι} (h : (Pattern.seq p q).Reads a c) :
    ∃ b, p.Reads a b ∧ q.Reads b c := by
  cases h with
  | seq first second => exact ⟨_, first, second⟩

/-- A reading of a sequence goes through each place of it. -/
theorem Reads.all_append_inv {ps qs : List (Pattern ι)} {a c : Cursor ι}
    (h : (all (ps ++ qs)).Reads a c) :
    ∃ b, (all ps).Reads a b ∧ (all qs).Reads b c := by
  induction ps generalizing a with
  | nil => exact ⟨a, .empty a, h⟩
  | cons p ps ih =>
    obtain ⟨b, hFirst, hRest⟩ := h.seq_inv
    obtain ⟨b', hInit, hLater⟩ := ih hRest
    exact ⟨b', .seq hFirst hInit, hLater⟩

theorem Reads.last_of_all {p : Pattern ι} {ps : List (Pattern ι)} {a c : Cursor ι}
    (h : (all ps).Reads a c) (hLast : ps.getLast? = some p) :
    ∃ b, (all ps.dropLast).Reads a b ∧ p.Reads b c := by
  obtain ⟨init, rfl⟩ := List.getLast?_eq_some_iff.mp hLast
  rw [List.dropLast_concat]
  obtain ⟨b, hInit, hAll⟩ := h.all_append_inv
  obtain ⟨d, hLast, hEmpty⟩ := hAll.seq_inv
  cases hEmpty
  exact ⟨b, hInit, hLast⟩

theorem Reads.of_identifier {a b : Cursor ι} (h : identifier.Reads a b) :
    ∃ name : Text, name.isIdentifier = true ∧ a.rest = name ++ b.rest ∧
      b.offset = a.offset + name.length ∧ b.captures = a.captures := by
  obtain ⟨middle, hStart, hSpan⟩ := h.seq_inv
  cases hStart with
  | @char _ _ c rest hRest hc =>
    cases hSpan with
    | @span _ _ read rest' hRest' hRead =>
      refine ⟨c :: read, ?_, ?_, ?_, rfl⟩
      · rw [Text.isIdentifier, hc, Bool.true_and, List.all_eq_true]
        exact hRead
      · rw [hRest, show rest = read ++ rest' from hRest']
        rfl
      · simp only [Cursor.after, List.length_cons, List.length_nil]
        omega

/-! ## Readings are found -/

/-- Whether the pattern has no loops. -/
def loopFree : Pattern ι → Bool
  | empty | char _ | lit _ | span _ | spanLazy _ | look _ => true
  | seq p q | either p q => p.loopFree && q.loopFree
  | loop _ => false
  | capture _ p => p.loopFree

theorem isSome_spanMost {accepts : Char → Bool} {next : Next ι} {captures : List (Capture ι)}
    {previous : Option Char} {offset : Nat} {read rest : Text}
    (hRead : ∀ c ∈ read, accepts c = true)
    (hNext : (next
      ((⟨previous, offset, read ++ rest, captures⟩ : Cursor ι).after read rest)).isSome) :
    (spanMost accepts next captures previous offset (read ++ rest)).isSome := by
  induction read generalizing previous offset with
  | nil =>
    -- More characters are tried first, and whatever they lead to is a result too.
    cases rest with
    | nil => exact hNext
    | cons c rest =>
      rw [List.nil_append, spanMost]
      split_ifs
      · split
        · rfl
        · exact hNext
      · exact hNext
  | cons c read ih =>
    obtain ⟨hc, hRest⟩ := List.forall_mem_cons.mp hRead
    rw [Cursor.after_cons _ c read rest (read ++ rest)] at hNext
    obtain ⟨last, hLast⟩ := Option.isSome_iff_exists.mp (ih hRest hNext)
    rw [List.cons_append, spanMost, if_pos hc, hLast]
    rfl

theorem isSome_spanLeast {accepts : Char → Bool} {next : Next ι} {captures : List (Capture ι)}
    {previous : Option Char} {offset : Nat} {read rest : Text}
    (hRead : ∀ c ∈ read, accepts c = true)
    (hNext : (next
      ((⟨previous, offset, read ++ rest, captures⟩ : Cursor ι).after read rest)).isSome) :
    (spanLeast accepts next captures previous offset (read ++ rest)).isSome := by
  induction read generalizing previous offset with
  | nil =>
    obtain ⟨last, hLast⟩ := Option.isSome_iff_exists.mp hNext
    have hHere : next ⟨previous, offset, rest, captures⟩ = some last := hLast
    cases rest with
    | nil => exact hNext
    | cons c rest =>
      rw [List.nil_append, spanLeast, hHere]
      rfl
  | cons c read ih =>
    obtain ⟨hc, hRest⟩ := List.forall_mem_cons.mp hRead
    rw [Cursor.after_cons _ c read rest (read ++ rest)] at hNext
    rw [List.cons_append, spanLeast]
    split
    · rfl
    · rw [if_pos hc]
      exact ih hRest hNext

/-- Where a reading leads to a place that is accepted, a run succeeds. -/
theorem Reads.isSome_run {p : Pattern ι} {a b : Cursor ι} (h : p.Reads a b)
    (hFree : p.loopFree = true) {next : Next ι} (hNext : (next b).isSome) :
    (p.run a next).isSome := by
  induction h generalizing next with
  | empty cursor => exact hNext
  | char hRest hc =>
    rw [run, hRest]
    dsimp only
    rw [if_pos hc]
    exact hNext
  | lit hRest =>
    rw [run, hRest, Text.dropStart?_append]
    exact hNext
  | @span accepts cursor read rest hRest hRead =>
    obtain ⟨previous, offset, whole, captures⟩ := cursor
    obtain rfl : whole = read ++ rest := hRest
    exact isSome_spanMost hRead hNext
  | @spanLazy accepts cursor read rest hRest hRead =>
    obtain ⟨previous, offset, whole, captures⟩ := cursor
    obtain rfl : whole = read ++ rest := hRest
    exact isSome_spanLeast hRead hNext
  | look hTest =>
    rw [run, if_pos hTest]
    exact hNext
  | seq first second ih₁ ih₂ =>
    obtain ⟨hFirst, hSecond⟩ := Bool.and_eq_true_iff.mp hFree
    exact ih₁ hFirst (ih₂ hSecond hNext)
  | left q first ih =>
    obtain ⟨last, hLast⟩ := Option.isSome_iff_exists.mp
      (ih (Bool.and_eq_true_iff.mp hFree).1 hNext)
    rw [run, hLast]
    rfl
  | right p second ih =>
    rw [run]
    split
    · rfl
    · exact ih (Bool.and_eq_true_iff.mp hFree).2 hNext
  | loopDone p cursor => cases hFree
  | loopMore item later _ _ => cases hFree
  | capture name body ih => exact ih hFree hNext

theorem Reads.accepts {p : Pattern ι} {t : Text} {last : Cursor ι}
    (h : p.Reads ⟨none, 0, t, []⟩ last) (hFree : p.loopFree = true) : p.accepts t = true := by
  unfold Pattern.accepts readStart readAt
  rw [Option.isSome_map]
  exact h.isSome_run hFree rfl

theorem exists_reads_of_accepts {p : Pattern ι} {t : Text} (h : p.accepts t = true) :
    ∃ last, p.Reads ⟨none, 0, t, []⟩ last := by
  obtain ⟨found, hFound⟩ := Option.isSome_iff_exists.mp h
  obtain ⟨last, hReads, -⟩ := exists_reads_of_readAt hFound
  exact ⟨last, hReads⟩

/-! ## The characters of a reading -/

/-- All characters that the pattern can read have a property. -/
def Within (p : Char → Prop) : Pattern ι → Prop
  | empty | look _ => True
  | char accepts | span accepts | spanLazy accepts => ∀ c, accepts c = true → p c
  | lit t => ∀ c ∈ t, p c
  | seq first second | either first second => first.Within p ∧ second.Within p
  | loop item => item.Within p
  | capture _ body => body.Within p

theorem Reads.exists_passed_within {p : Pattern ι} {a b : Cursor ι} (h : p.Reads a b)
    {property : Char → Prop} (hWithin : p.Within property) :
    ∃ read, a.rest = read ++ b.rest ∧ b.offset = a.offset + read.length ∧ ∀ c ∈ read,
      property c := by
  obtain ⟨read, hRest, hOffset⟩ := h.exists_passed
  refine ⟨read, hRest, hOffset, ?_⟩
  clear hOffset
  induction h generalizing read with
  | empty cursor | look hTest | loopDone p cursor =>
    rw [List.self_eq_append_left.mp hRest]
    simp
  | @char accepts cursor c rest hRest' hc =>
    obtain rfl : [c] = read := List.append_cancel_right (hRest'.symm.trans hRest)
    simpa using hWithin c hc
  | lit hRest' =>
    rw [← List.append_cancel_right (hRest'.symm.trans hRest)]
    exact hWithin
  | span hRest' hRead | spanLazy hRest' hRead =>
    rw [← List.append_cancel_right (hRest'.symm.trans hRest)]
    exact fun c hc => hWithin c (hRead c hc)
  | left q first ih => exact ih hWithin.1 read hRest
  | right p second ih => exact ih hWithin.2 read hRest
  | seq first second ih₁ ih₂ =>
    obtain ⟨read₁, hRest₁, -⟩ := first.exists_passed
    obtain ⟨read₂, hRest₂, -⟩ := second.exists_passed
    obtain rfl : read = read₁ ++ read₂ := by
      refine List.append_cancel_right (hRest.symm.trans ?_)
      rw [hRest₁, hRest₂, List.append_assoc]
    exact List.forall_mem_append.mpr ⟨ih₁ hWithin.1 _ hRest₁, ih₂ hWithin.2 _ hRest₂⟩
  | loopMore first second ih₁ ih₂ =>
    obtain ⟨read₁, hRest₁, -⟩ := first.exists_passed
    obtain ⟨read₂, hRest₂, -⟩ := second.exists_passed
    obtain rfl : read = read₁ ++ read₂ := by
      refine List.append_cancel_right (hRest.symm.trans ?_)
      rw [hRest₁, hRest₂, List.append_assoc]
    exact List.forall_mem_append.mpr ⟨ih₁ hWithin _ hRest₁, ih₂ hWithin _ hRest₂⟩
  | capture name body ih => exact ih hWithin read hRest

/-! ## The captures of a reading -/

/-- All names under which the pattern can capture have a property. -/
def Captures (p : ι → Prop) : Pattern ι → Prop
  | empty | char _ | lit _ | span _ | spanLazy _ | look _ => True
  | seq first second | either first second => first.Captures p ∧ second.Captures p
  | loop item => item.Captures p
  | capture name body => p name ∧ body.Captures p

theorem Reads.exists_captures {p : Pattern ι} {a b : Cursor ι} (h : p.Reads a b)
    {property : ι → Prop} (hCaptures : p.Captures property) :
    ∃ records, b.captures = records ++ a.captures ∧ ∀ record ∈ records, property record.name := by
  induction h with
  | empty | char | lit | span | spanLazy | look | loopDone => exact ⟨[], rfl, by simp⟩
  | left q first ih => exact ih hCaptures.1
  | right p second ih => exact ih hCaptures.2
  | seq first second ih₁ ih₂ =>
    obtain ⟨earlier, hEarlier, hFirst⟩ := ih₁ hCaptures.1
    obtain ⟨later, hLater, hSecond⟩ := ih₂ hCaptures.2
    exact ⟨later ++ earlier, by rw [hLater, hEarlier, List.append_assoc],
      List.forall_mem_append.mpr ⟨hSecond, hFirst⟩⟩
  | loopMore item more ih₁ ih₂ =>
    obtain ⟨earlier, hEarlier, hFirst⟩ := ih₁ hCaptures
    obtain ⟨later, hLater, hSecond⟩ := ih₂ hCaptures
    exact ⟨later ++ earlier, by rw [hLater, hEarlier, List.append_assoc],
      List.forall_mem_append.mpr ⟨hSecond, hFirst⟩⟩
  | @capture _ a b name body ih =>
    obtain ⟨records, hRecords, hNames⟩ := ih hCaptures.2
    refine ⟨.between name a b :: records, ?_, List.forall_mem_cons.mpr ⟨hCaptures.1, hNames⟩⟩
    rw [List.cons_append, ← hRecords]

/-! ## Inversion -/

theorem Reads.lit_inv {t : Text} {a b : Cursor ι} (h : (Pattern.lit t).Reads a b) :
    a.rest = t ++ b.rest ∧ b.captures = a.captures := by
  cases h with
  | lit hRest => exact ⟨hRest, rfl⟩

theorem Reads.span_inv {accepts : Char → Bool} {a b : Cursor ι}
    (h : (Pattern.span accepts).Reads a b) :
    ∃ read, a.rest = read ++ b.rest ∧ (∀ c ∈ read, accepts c = true) ∧ b.captures = a.captures := by
  cases h with
  | span hRest hRead => exact ⟨_, hRest, hRead, rfl⟩

theorem Reads.span1_inv {accepts : Char → Bool} {a b : Cursor ι} (h : (span1 accepts).Reads a b) :
    ∃ read, read ≠ [] ∧ a.rest = read ++ b.rest ∧ (∀ c ∈ read, accepts c = true) ∧
      b.captures = a.captures := by
  obtain ⟨middle, hFirst, hMore⟩ := h.seq_inv
  obtain ⟨read, hRest, hRead, hCaptures⟩ := hMore.span_inv
  cases hFirst with
  | @char _ _ c rest hFirst hc =>
    refine ⟨c :: read, List.cons_ne_nil c read, ?_, List.forall_mem_cons.mpr ⟨hc, hRead⟩, hCaptures⟩
    rw [hFirst, show rest = read ++ b.rest from hRest]
    rfl

/-- One of several words is read. -/
theorem Reads.exists_word_of_any {words : List Text} {a b : Cursor ι}
    (h : (any (words.map Pattern.lit)).Reads a b) :
    ∃ word ∈ words, a.rest = word ++ b.rest := by
  induction words with
  | nil =>
    cases h with
    | char _ hNever => cases hNever
  | cons word words ih =>
    cases words with
    | nil => exact ⟨word, List.mem_singleton_self word, h.lit_inv.1⟩
    | cons other words =>
      cases h with
      | left q hWord => exact ⟨word, List.mem_cons_self, hWord.lit_inv.1⟩
      | right p hLater =>
        obtain ⟨found, hMem, hRest⟩ := ih hLater
        exact ⟨found, List.mem_cons_of_mem word hMem, hRest⟩

theorem Reads.opt_inv {p : Pattern ι} {a b : Cursor ι} (h : (opt p).Reads a b) :
    p.Reads a b ∨ b = a := by
  cases h with
  | left q first => exact .inl first
  | right p second =>
    cases second with
    | empty => exact .inr rfl

theorem Reads.capture_inv {name : ι} {p : Pattern ι} {a b : Cursor ι}
    (h : (Pattern.capture name p).Reads a b) :
    ∃ inside read record, p.Reads a inside ∧ a.rest = read ++ b.rest ∧ inside.rest = b.rest ∧
      b.captures = record :: inside.captures ∧ record.name = name ∧ record.text = read := by
  cases h with
  | @capture _ _ inside _ body =>
    obtain ⟨read, hRest, hOffset⟩ := body.exists_passed
    refine ⟨inside, read, .between name a inside, body, hRest, rfl, rfl, rfl, ?_⟩
    show a.rest.take (inside.offset - a.offset) = read
    rw [hRest, hOffset, Nat.add_sub_cancel_left, List.take_left]

theorem Reads.rest_of_atEnd {a b : Cursor ι} (h : atEnd.Reads a b) :
    b = a ∧ (a.rest = [] ∨ a.rest = ['\n']) := by
  cases h with
  | look hTest =>
    rw [Bool.or_eq_true, decide_eq_true_iff, decide_eq_true_iff] at hTest
    exact ⟨rfl, hTest⟩

/-! ## Texts that can be read -/

/-- Wherever the text stands, the pattern has a reading that passes just it. -/
def Takes (p : Pattern ι) (t : Text) : Prop :=
  ∀ (cursor : Cursor ι) (rest : Text), cursor.rest = t ++ rest →
    ∃ last, p.Reads cursor last ∧ last.rest = rest

namespace Takes

variable {p q : Pattern ι} {s t : Text}

theorem empty : (Pattern.empty : Pattern ι).Takes [] :=
  fun cursor _ hRest => ⟨cursor, .empty cursor, hRest⟩

theorem lit (t : Text) : (Pattern.lit t : Pattern ι).Takes t :=
  fun _ _ hRest => ⟨_, .lit hRest, rfl⟩

theorem char {accepts : Char → Bool} {c : Char} (hc : accepts c = true) :
    (Pattern.char accepts : Pattern ι).Takes [c] :=
  fun _ _ hRest => ⟨_, .char hRest hc, rfl⟩

theorem span {accepts : Char → Bool} (h : ∀ c ∈ t, accepts c = true) :
    (Pattern.span accepts : Pattern ι).Takes t :=
  fun _ _ hRest => ⟨_, .span hRest h, rfl⟩

theorem seq (hp : p.Takes s) (hq : q.Takes t) : (Pattern.seq p q).Takes (s ++ t) := by
  intro cursor rest hRest
  obtain ⟨middle, hFirst, hMiddle⟩ := hp cursor (t ++ rest) (by rw [hRest, List.append_assoc])
  obtain ⟨last, hSecond, hLast⟩ := hq middle rest hMiddle
  exact ⟨last, .seq hFirst hSecond, hLast⟩

theorem oneOf {signs : Text} {c : Char} (hc : c ∈ signs) :
    (Pattern.oneOf signs : Pattern ι).Takes [c] :=
  char (decide_eq_true hc)

theorem span1 {accepts : Char → Bool} (hNonempty : t ≠ []) (h : ∀ c ∈ t, accepts c = true) :
    (Pattern.span1 accepts : Pattern ι).Takes t := by
  cases t with
  | nil => exact absurd rfl hNonempty
  | cons c t =>
    obtain ⟨hc, ht⟩ := List.forall_mem_cons.mp h
    exact (char hc).seq (span ht)

theorem left (hp : p.Takes t) (q : Pattern ι) : (Pattern.either p q).Takes t := by
  intro cursor rest hRest
  obtain ⟨last, hReads, hLast⟩ := hp cursor rest hRest
  exact ⟨last, .left q hReads, hLast⟩

theorem right (p : Pattern ι) (hq : q.Takes t) : (Pattern.either p q).Takes t := by
  intro cursor rest hRest
  obtain ⟨last, hReads, hLast⟩ := hq cursor rest hRest
  exact ⟨last, .right p hReads, hLast⟩

theorem opt (h : t = [] ∨ p.Takes t) : (Pattern.opt p).Takes t := by
  rcases h with rfl | h
  · exact .right p .empty
  · exact h.left _

end Takes

end Pattern

end TemplateCheck
