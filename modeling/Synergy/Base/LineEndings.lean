import Mathlib.Data.List.Count
import Mathlib.Data.List.Range
import Mathlib.Tactic.Tauto
import Synergy.Base.Text

/-! Line ends of text: the form with line feeds only, and the forms of the platforms. -/
namespace Synergy.Text

def convertLinefeedsToLf : Str → Str
  | [] => []
  | '\r' :: '\n' :: src => '\n' :: convertLinefeedsToLf src
  | '\r' :: src => '\n' :: convertLinefeedsToLf src
  | ch :: src => ch :: convertLinefeedsToLf src

def convertLinefeedsFromLf (src terminator : Str) : Str :=
  src.flatMap fun ch => if ch = '\n' then terminator else [ch]

variable {s : Str}

/-! ### Breaks -/

def isCrlf (s : Str) (i : Nat) : Bool := s[i]? = some '\r' && s[i + 1]? = some '\n'

def isLoneCr (s : Str) (i : Nat) : Bool := s[i]? = some '\r' && s[i + 1]? ≠ some '\n'

def isLoneLf (s : Str) (i : Nat) : Bool := s[i]? = some '\n' && (i = 0 || s[i - 1]? ≠ some '\r')

/-- The line breaks of a text, as the positions where they begin. -/
def breaks (s : Str) : Nat :=
  (List.range s.length).countP (isCrlf s) + (List.range s.length).countP (isLoneCr s) +
    (List.range s.length).countP (isLoneLf s)

/-- The line feeds that do not follow a carriage return, in a text with a character before it. -/
private def feeds : Char → Str → Nat
  | _, [] => 0
  | before, ch :: s => (if ch = '\n' ∧ before ≠ '\r' then 1 else 0) + feeds ch s

private theorem countP_range_succ (p : Nat → Bool) (n : Nat) :
    (List.range (n + 1)).countP p = (if p 0 then 1 else 0) + (List.range n).countP fun i => p (i + 1) := by
  rw [List.range_succ_eq_map, List.countP_cons, List.countP_map, Nat.add_comm]
  rfl

private theorem returns_eq (s : Str) :
    (List.range s.length).countP (isCrlf s) + (List.range s.length).countP (isLoneCr s) = s.count '\r' := by
  induction s with
  | nil => rfl
  | cons ch s ih =>
    rw [List.length_cons, countP_range_succ, countP_range_succ, List.count_cons, ← ih]
    have hhead : (if isCrlf (ch :: s) 0 then 1 else 0) + (if isLoneCr (ch :: s) 0 then 1 else 0) =
        if ch == '\r' then 1 else 0 := by
      by_cases hch : ch = '\r'
      · by_cases hnext : s[0]? = some '\n'
        · simp [isCrlf, isLoneCr, hch, hnext]
        · simp [isCrlf, isLoneCr, hch, hnext]
      · simp [isCrlf, isLoneCr, hch]
    have hcrlf : (fun i => isCrlf (ch :: s) (i + 1)) = isCrlf s := rfl
    have hlone : (fun i => isLoneCr (ch :: s) (i + 1)) = isLoneCr s := rfl
    rw [hcrlf, hlone]
    omega

private theorem feeds_eq (before : Char) (s : Str) :
    (List.range s.length).countP (fun i => s[i]? = some '\n' && (before :: s)[i]? ≠ some '\r') = feeds before s := by
  induction s generalizing before with
  | nil => rfl
  | cons ch s ih =>
    rw [List.length_cons, countP_range_succ, feeds, ← ih ch]
    simp

private theorem breaks_eq {before : Char} (hbefore : before ≠ '\r') (s : Str) :
    breaks s = s.count '\r' + feeds before s := by
  have hlone : isLoneLf s = fun i => s[i]? = some '\n' && (before :: s)[i]? ≠ some '\r' := by
    funext i
    cases i with
    | zero => simp [isLoneLf, hbefore]
    | succ i => simp [isLoneLf]
  rw [breaks, returns_eq, hlone, feeds_eq]

private theorem feeds_of_ne {s : Str} (h : s.head? ≠ some '\n') (before before' : Char) :
    feeds before s = feeds before' s := by
  cases s with
  | nil => rfl
  | cons ch s =>
    have hch : ch ≠ '\n' := fun heq => h (congrArg some heq)
    rw [feeds, feeds, if_neg fun hboth => hch hboth.1, if_neg fun hboth => hch hboth.1]

/-! ### What the conversions keep -/

/-- There is a line feed for each break. -/
theorem count_convertLinefeedsToLf (s : Str) : (convertLinefeedsToLf s).count '\n' = breaks s := by
  suffices h : ∀ before, before ≠ '\r' → (convertLinefeedsToLf s).count '\n' = s.count '\r' + feeds before s from
    (h ' ' (by decide)).trans (breaks_eq (by decide) s).symm
  fun_induction convertLinefeedsToLf s with
  | case1 => exact fun _ _ => rfl
  | case2 s ih =>
    intro before hbefore
    have hrest := ih '\n' (by decide)
    simp only [List.count_cons, feeds, hrest]
    simp
    omega
  | case3 s hnext ih =>
    intro before hbefore
    have hhead : s.head? ≠ some '\n' := by
      intro hhead
      obtain ⟨t, rfl⟩ := List.head?_eq_some_iff.mp hhead
      exact hnext t rfl
    have hrest := ih before hbefore
    simp only [List.count_cons, feeds, hrest, feeds_of_ne hhead '\r' before]
    simp
    omega
  | case4 ch s _ hreturn ih =>
    intro before hbefore
    have hch : ch ≠ '\r' := hreturn
    have hrest := ih ch hreturn
    simp only [List.count_cons, feeds, hrest]
    by_cases hfeed : ch = '\n'
    · simp [hfeed, hbefore]
      omega
    · simp [hfeed, hch]

/-- No carriage return is left. -/
theorem not_mem_convertLinefeedsToLf (s : Str) : '\r' ∉ convertLinefeedsToLf s := by
  fun_induction convertLinefeedsToLf s with
  | case1 => exact List.not_mem_nil
  | case2 s ih => exact fun hmem => (List.mem_cons.mp hmem).elim (by decide) ih
  | case3 s hnext ih => exact fun hmem => (List.mem_cons.mp hmem).elim (by decide) ih
  | case4 ch s _ hreturn ih => exact fun hmem => (List.mem_cons.mp hmem).elim (fun heq => hreturn heq.symm) ih

private theorem convertLinefeedsToLf_cons {ch : Char} (hch : ch ≠ '\r') (s : Str) :
    convertLinefeedsToLf (ch :: s) = ch :: convertLinefeedsToLf s := by
  rw [convertLinefeedsToLf.eq_def]
  split
  · cases ‹ch :: s = []›
  · exact absurd (List.cons.inj ‹_›).1 hch
  · exact absurd (List.cons.inj ‹_›).1 hch
  · obtain ⟨rfl, rfl⟩ := List.cons.inj ‹_›
    rfl

/-- A text stays as it is if it has no carriage return. -/
theorem convertLinefeedsToLf_of_not_mem (h : '\r' ∉ s) : convertLinefeedsToLf s = s := by
  induction s with
  | nil => rfl
  | cons ch s ih =>
    obtain ⟨hch, hrest⟩ := List.ne_and_not_mem_of_not_mem_cons h
    rw [convertLinefeedsToLf_cons (Ne.symm hch), ih hrest]

/-- A terminator of the platforms becomes a line feed again. -/
private theorem convertLinefeedsToLf_fromLf {terminator : Str} (hterminator : ∀ t : Str, t.head? ≠ some '\n' →
      convertLinefeedsToLf (terminator ++ t) = '\n' :: convertLinefeedsToLf t)
    (hhead : terminator.head? = some '\r') (h : '\r' ∉ s) :
    convertLinefeedsToLf (convertLinefeedsFromLf s terminator) = s := by
  have hnever (t : Str) : (convertLinefeedsFromLf t terminator).head? ≠ some '\n' := by
    cases t with
    | nil => exact nofun
    | cons ch t =>
      rw [convertLinefeedsFromLf, List.flatMap_cons]
      by_cases hch : ch = '\n'
      · rw [if_pos hch, List.head?_append, hhead, Option.some_or]
        decide
      · rw [if_neg hch, List.head?_append, List.head?_singleton, Option.some_or]
        exact fun heq => hch (Option.some.inj heq)
  induction s with
  | nil => rfl
  | cons ch s ih =>
    obtain ⟨hreturn, hrest⟩ := List.ne_and_not_mem_of_not_mem_cons h
    have hs := ih hrest
    rw [convertLinefeedsFromLf] at hs ⊢
    rw [List.flatMap_cons]
    by_cases hch : ch = '\n'
    · rw [if_pos hch, hch]
      exact (hterminator _ (hnever s)).trans (congrArg _ hs)
    · rw [if_neg hch, List.singleton_append, convertLinefeedsToLf_cons (Ne.symm hreturn), hs]

/-- The line ends of the platforms are undone, and line feeds are a normal form with the breaks that there were. -/
theorem linefeed_laws (s : Str) :
    ('\r' ∉ s → convertLinefeedsToLf (convertLinefeedsFromLf s ['\r', '\n']) = s ∧
      convertLinefeedsToLf (convertLinefeedsFromLf s ['\r']) = s) ∧
    convertLinefeedsToLf (convertLinefeedsToLf s) = convertLinefeedsToLf s ∧
    '\r' ∉ convertLinefeedsToLf s ∧
    (convertLinefeedsToLf s).count '\n' = breaks s := by
  refine ⟨fun h => ⟨?_, ?_⟩, ?_, not_mem_convertLinefeedsToLf s, count_convertLinefeedsToLf s⟩
  · exact convertLinefeedsToLf_fromLf (fun _ _ => rfl) rfl h
  · refine convertLinefeedsToLf_fromLf (fun t ht => ?_) rfl h
    cases t with
    | nil => rfl
    | cons ch t =>
      rw [List.singleton_append, convertLinefeedsToLf.eq_def]
      split
      · cases ‹ '\r' :: ch :: t = []›
      · obtain ⟨rfl, -⟩ := List.cons.inj (List.cons.inj ‹_›).2
        exact absurd rfl ht
      · rename_i heq
        rw [← (List.cons.inj heq).2]
      · exact absurd (List.cons.inj ‹_›).1.symm ‹_›
  · exact convertLinefeedsToLf_of_not_mem (not_mem_convertLinefeedsToLf s)

example : convertLinefeedsToLf "a\r\r\n\nb\r".toList = "a\n\n\nb\n".toList := by decide

end Synergy.Text
