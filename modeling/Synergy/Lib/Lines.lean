import Mathlib.Data.List.Basic

/-! Cutting a sequence at a separator: the stretches that are complete, and the
rest, which may still grow. -/
namespace Synergy.Lib
variable {α : Type*} [DecidableEq α]

/-- The stretches that end with the separator, and what follows the last of them. -/
def lines (sep : α) : List α → List (List α) × List α
  | [] => ([], [])
  | x :: xs =>
    if x = sep then ([] :: (lines sep xs).1, (lines sep xs).2)
    else
      match lines sep xs with
      | ([], rest) => ([], x :: rest)
      | (line :: more, rest) => ((x :: line) :: more, rest)

variable {sep : α} {xs ys line : List α}

@[simp] theorem lines_nil : lines sep [] = ([], []) := rfl

theorem lines_of_not_mem (h : sep ∉ xs) : lines sep xs = ([], xs) := by
  induction xs with
  | nil => rfl
  | cons x xs ih =>
    obtain ⟨hx, hxs⟩ := not_or.mp (fun hm => h (List.mem_cons.mpr hm))
    rw [lines, if_neg (Ne.symm hx), ih hxs]

theorem lines_line (h : sep ∉ line) :
    lines sep (line ++ sep :: xs) = (line :: (lines sep xs).1, (lines sep xs).2) := by
  induction line with
  | nil => rw [List.nil_append, lines, if_pos rfl]
  | cons x line ih =>
    obtain ⟨hx, hline⟩ := not_or.mp (fun hm => h (List.mem_cons.mpr hm))
    rw [List.cons_append, lines, if_neg (Ne.symm hx), ih hline]

theorem not_mem_lines_rest (sep : α) (xs : List α) : sep ∉ (lines sep xs).2 := by
  induction xs with
  | nil => simp
  | cons x xs ih =>
    rw [lines]
    split
    · exact ih
    · next hx =>
      cases hl : lines sep xs with
      | mk more rest =>
        rw [hl] at ih
        cases more with
        | nil => simpa using ⟨Ne.symm hx, ih⟩
        | cons line more => exact ih

/-- What is added only completes and extends the rest. -/
theorem lines_append : lines sep (xs ++ ys) =
    ((lines sep xs).1 ++ (lines sep ((lines sep xs).2 ++ ys)).1, (lines sep ((lines sep xs).2 ++ ys)).2) := by
  induction xs with
  | nil => rfl
  | cons x xs ih =>
    rw [List.cons_append, lines, ih]
    by_cases hx : x = sep
    · rw [if_pos hx, lines, if_pos hx]
      rfl
    · rw [if_neg hx, lines, if_neg hx]
      cases hl : lines sep xs with
      | mk more rest =>
        cases more with
        | nil => simp only [List.nil_append, List.cons_append, lines, if_neg hx]
        | cons line more => rfl

/-- A rest that starts too long stays too long. -/
theorem rest_starts_line {first : List α} {more : List (List α)} (h : (lines sep (xs ++ ys)).1 = first :: more)
    (hxs : sep ∉ xs) : xs <+: first := by
  induction xs generalizing first with
  | nil => exact List.nil_prefix
  | cons x xs ih =>
    obtain ⟨hx, hrest⟩ := not_or.mp (fun hm => hxs (List.mem_cons.mpr hm))
    rw [List.cons_append, lines, if_neg (Ne.symm hx)] at h
    cases hl : lines sep (xs ++ ys) with
    | mk lines' rest =>
      rw [hl] at h
      cases lines' with
      | nil => cases h
      | cons line' more' =>
        obtain ⟨rfl, rfl⟩ := List.cons.inj h
        exact List.cons_prefix_cons.mpr ⟨rfl, ih (congrArg Prod.fst hl) hrest⟩

end Synergy.Lib
