import DspChip.Proofs.Text.Blank
import Mathlib.Data.List.Basic
/-! Items with a mark between them: cutting a text at the mark and trimming the pieces gives the
items that the text lists. -/

namespace DspChip.Text

/-- `item {mark item}`, with blanks around each item. -/
inductive Lists (mark : Char) : List Char → List (List Char) → Prop where
  | one {piece item : List Char} (free : mark ∉ piece) (cut : Strips piece item) :
      Lists mark piece [item]
  | more {piece item text : List Char} {items : List (List Char)} (free : mark ∉ piece)
      (cut : Strips piece item) (others : Lists mark text items) :
      Lists mark (piece ++ mark :: text) (item :: items)

variable {mark : Char} {text front back : List Char} {items : List (List Char)}

/-- What holds of a last piece, and of a piece before a text that it holds of, holds of every text.
-/
theorem piece_induction (mark : Char) {motive : List Char → Prop}
    (last : ∀ piece, mark ∉ piece → motive piece)
    (more : ∀ piece rest, mark ∉ piece → motive rest → motive (piece ++ mark :: rest))
    (text : List Char) : motive text := by
  induction length : text.length using Nat.strongRecOn generalizing text with
  | ind n ih =>
    by_cases absent : mark ∉ text
    · exact last text absent
    · -- the first mark ends the first piece
      obtain ⟨piece, rest, rfl, free⟩ := List.eq_append_cons_of_mem (not_not.mp absent)
      exact more piece rest free (ih _ (by simp at length; omega) rest rfl)

namespace Lists

theorem map_trim_splitOn (lists : Lists mark text items) :
    (text.splitOn mark).map trim = items := by
  induction lists with
  | one free cut => rw [List.splitOn_eq_singleton free, List.map_singleton, trim_of_strips cut]
  | more free cut others ih =>
    rw [List.splitOn_append_cons_self_of_not_mem free, List.map_cons, trim_of_strips cut, ih]

theorem splitOn (mark : Char) (text : List Char) :
    Lists mark text ((text.splitOn mark).map trim) := by
  induction text using piece_induction mark with
  | last piece free =>
    rw [List.splitOn_eq_singleton free]
    exact .one free (strips_trim piece)
  | more piece rest free ih =>
    rw [List.splitOn_append_cons_self_of_not_mem free]
    exact .more free (strips_trim piece) ih

theorem prepend (lists : Lists mark text items) (apart : ¬ IsBlank mark) (blank : AllBlank front) :
    Lists mark (front ++ text) items := by
  have free : mark ∉ front := fun member => apart (blank mark member)
  have widen : ∀ {piece item : List Char}, Strips piece item → Strips (front ++ piece) item := by
    rintro piece item ⟨before, behind, rfl, early, late, ends⟩
    refine ⟨front ++ before, behind, (List.append_assoc _ _ _).symm, ?_, late, ends⟩
    exact List.forall_mem_append.mpr ⟨blank, early⟩
  cases lists with
  | one absent cut => exact .one (by simp [free, absent]) (widen cut)
  | more absent cut others =>
    rw [← List.append_assoc]
    exact .more (by simp [free, absent]) (widen cut) others

theorem append (lists : Lists mark text items) (apart : ¬ IsBlank mark) (blank : AllBlank back) :
    Lists mark (text ++ back) items := by
  have free : mark ∉ back := fun member => apart (blank mark member)
  induction lists with
  | one absent cut =>
    obtain ⟨before, behind, rfl, early, late, ends⟩ := cut
    refine .one (by simpa [free] using absent) ⟨before, behind ++ back, by simp, early, ?_, ends⟩
    exact List.forall_mem_append.mpr ⟨late, blank⟩
  | more absent cut others ih =>
    rw [List.append_assoc, List.cons_append]
    exact .more absent cut ih

theorem eq_singleton_nil_iff (lists : Lists mark text items) (apart : ¬ IsBlank mark) :
    items = [[]] ↔ AllBlank text := by
  rw [← lists.map_trim_splitOn]
  constructor
  · intro alone
    obtain ⟨piece, single, trimmed⟩ := List.map_eq_singleton_iff.mp alone
    rw [← @List.intercalate_splitOn _ text _ _ mark, single, List.intercalate_singleton]
    exact trim_eq_nil_iff.mp trimmed
  · intro blank
    have free : mark ∉ text := fun member => apart (blank mark member)
    rw [List.splitOn_eq_singleton free, List.map_singleton, trim_eq_nil_iff.mpr blank]

end Lists

theorem lists_iff : Lists mark text items ↔ (text.splitOn mark).map trim = items := by
  constructor
  · exact Lists.map_trim_splitOn
  · rintro rfl
    exact Lists.splitOn mark text

theorem lists_trim_iff (apart : ¬ IsBlank mark) :
    Lists mark (trim text) items ↔ Lists mark text items := by
  obtain ⟨front, back, split, before, behind, _⟩ := strips_trim text
  have widened : Lists mark text (((trim text).splitOn mark).map trim) := by
    have lists := ((Lists.splitOn mark (trim text)).append apart behind).prepend apart before
    rwa [← split] at lists
  rw [lists_iff, lists_iff, widened.map_trim_splitOn]

theorem forall_mem_intercalate {p : Char → Prop} {between : List Char} (apart : ∀ c ∈ between, p c)
    (every : ∀ item ∈ items, ∀ c ∈ item, p c) : ∀ c ∈ between.intercalate items, p c := by
  induction items with
  | nil => simp [List.intercalate]
  | cons item rest ih =>
    obtain ⟨own, others⟩ := List.forall_mem_cons.mp every
    cases rest with
    | nil =>
      rw [List.intercalate_singleton]
      exact own
    | cons next later =>
      rw [List.intercalate_cons_cons]
      exact List.forall_mem_append.mpr
        ⟨List.forall_mem_append.mpr ⟨own, apart⟩, ih others⟩

theorem Lists.joined {before behind item : List Char} (early : AllBlank before)
    (late : AllBlank behind) (apart : ¬ IsBlank mark)
    (solid : ∀ part ∈ item :: items, ∀ c ∈ part, ¬ IsBlank c ∧ c ≠ mark) :
    Lists mark ((before ++ mark :: behind).intercalate (item :: items)) (item :: items) := by
  induction items generalizing item with
  | nil =>
    have own := solid item List.mem_cons_self
    rw [List.intercalate_singleton]
    refine .one (fun member => (own mark member).2 rfl) ?_
    have strips : Strips (item ++ []) item :=
      strips_append_blank (fun c member => (own c member).1) (by simp [AllBlank])
    rwa [List.append_nil] at strips
  | cons next others ih =>
    have own := solid item List.mem_cons_self
    have split : (before ++ mark :: behind).intercalate (item :: next :: others) =
        (item ++ before) ++ mark ::
          (behind ++ (before ++ mark :: behind).intercalate (next :: others)) := by
      rw [List.intercalate_cons_cons]
      simp
    have remaining := ih fun part member => solid part (List.mem_cons_of_mem item member)
    rw [split]
    refine .more ?_ (strips_append_blank (fun c member => (own c member).1) early)
      (remaining.prepend apart late)
    simp only [List.mem_append, not_or]
    exact ⟨fun member => (own mark member).2 rfl, fun member => apart (early mark member)⟩

end DspChip.Text
