import Mathlib.Algebra.BigOperators.Group.List.Basic
import Synergy.Base.Format

/-! Formatting is plain substitution when the format has no empty braces and the length of the result is computed
right. -/
namespace Synergy.Text
open Token

variable {args : List Str} {ts : List Token} {maxSize : Nat}

namespace Token

/-- What the code puts in the place of a part: empty braces count as index zero. -/
def replaced (args : List Str) : Token → Str
  | empty => ['%']
  | t => t.value args

/-- The lengths of the escapes, and of what takes their places. -/
def widths (ts : List Token) : Nat := ((ts.filter isEscape).map fun t => t.text.length).sum

def lengths (part : Token → Str) (ts : List Token) : Nat := ((ts.filter isEscape).map fun t => (part t).length).sum

theorem replaced_of_not_escape {t : Token} (h : t.isEscape = false) : t.replaced args = t.text := by
  cases t <;> first | rfl | cases h

theorem replaced_of_ne {t : Token} (h : t ≠ empty) : t.replaced args = t.value args := by
  cases t <;> first | rfl | exact absurd rfl h

theorem widths_cons (t : Token) (ts : List Token) :
    widths (t :: ts) = (if t.isEscape then t.text.length else 0) + widths ts := by
  rw [widths, List.filter_cons]
  split_ifs
  · rw [List.map_cons, List.sum_cons, widths]
  · rw [Nat.zero_add, widths]

theorem lengths_cons (part : Token → Str) (t : Token) (ts : List Token) :
    lengths part (t :: ts) = (if t.isEscape then (part t).length else 0) + lengths part ts := by
  rw [lengths, List.filter_cons]
  split_ifs
  · rw [List.map_cons, List.sum_cons, lengths]
  · rw [Nat.zero_add, lengths]

theorem index_place (pos : Nat) (ts : List Token) :
    (place pos ts).map Escape.index = (ts.filter isEscape).map index := by
  induction ts generalizing pos with
  | nil => rfl
  | cons t ts ih =>
    rw [place, List.map_append, ih, List.filter_cons]
    split_ifs <;> rfl

theorem length_place (pos : Nat) (ts : List Token) : (place pos ts).length = (ts.filter isEscape).length := by
  have hmap := congrArg List.length (index_place pos ts)
  rwa [List.length_map, List.length_map] at hmap

theorem widths_le (ts : List Token) : widths ts ≤ (ts.flatMap text).length := by
  induction ts with
  | nil => exact Nat.le_refl _
  | cons t ts ih =>
    rw [widths_cons, List.flatMap_cons, List.length_append]
    split_ifs
    · omega
    · omega

theorem units_le (ts : List Token) : units ts ≤ (ts.flatMap text).length := by
  induction ts with
  | nil => exact Nat.le_refl _
  | cons t ts ih =>
    have hpos := t.length_text_pos
    rw [units_cons, List.flatMap_cons, List.length_append]
    split_ifs
    · omega
    · omega

/-- The length that is computed is never more than the length of the result. -/
theorem units_add_lengths_le (args : List Str) (ts : List Token) :
    units ts + lengths (replaced args) ts ≤ widths ts + (ts.flatMap (replaced args)).length := by
  induction ts with
  | nil => exact Nat.le_refl _
  | cons t ts ih =>
    have hpos := t.length_text_pos
    rw [units_cons, lengths_cons, widths_cons, List.flatMap_cons, List.length_append]
    cases hescape : t.isEscape with
    | true =>
      simp only [if_true]
      split_ifs
      · omega
      · omega
    | false =>
      rw [replaced_of_not_escape hescape]
      simp only [Bool.false_eq_true, if_false]
      split_ifs
      · omega
      · omega

/-- Empty braces lose two characters. -/
theorem length_replaced (args : List Str) (ts : List Token) :
    (ts.flatMap (replaced args)).length + 2 * ts.count empty = (ts.flatMap (value args)).length := by
  induction ts with
  | nil => rfl
  | cons t ts ih =>
    rw [List.flatMap_cons, List.flatMap_cons, List.length_append, List.length_append, List.count_cons]
    by_cases hempty : t = empty
    · have hvalue : (value args empty).length = 3 := rfl
      have hreplaced : (replaced args empty).length = 1 := rfl
      rw [hempty, hvalue, hreplaced, if_pos (beq_self_eq_true _)]
      omega
    · rw [replaced_of_ne hempty, if_neg (by simp [hempty])]
      omega

theorem flatMap_replaced (h : empty ∉ ts) : ts.flatMap (replaced args) = ts.flatMap (value args) := by
  rw [List.flatMap, List.flatMap]
  exact congrArg List.flatten (List.map_congr_left fun t ht => replaced_of_ne fun heq => h (heq ▸ ht))

theorem lengths_replaced (h : empty ∉ ts) : lengths (replaced args) ts = lengths (value args) ts := by
  rw [lengths, lengths]
  refine congrArg List.sum (List.map_congr_left fun t ht => ?_)
  rw [replaced_of_ne fun heq => h (heq ▸ List.mem_of_mem_filter ht)]

end Token

/-! ### The loops -/

private theorem append_append (result x y : Str) :
    ((append maxSize result x).bind fun result => append maxSize result y) = append maxSize result (x ++ y) := by
  rw [append, append, List.length_append]
  split_ifs with hx hxy hxy
  · rfl
  · omega
  · change append maxSize (result ++ x) y = _
    rw [append, if_pos (by rw [List.length_append]; omega)]
  · change append maxSize (result ++ x) y = _
    rw [append, if_neg (by rw [List.length_append]; omega), List.append_assoc]

/-- The table has what takes the place of each escape. -/
def Covers (args value : List Str) (ts : List Token) : Prop :=
  ∀ t ∈ ts, t.isEscape = true → value[t.index]? = some (t.replaced args)

private theorem resultLength_place {value : List Str} (h : Covers args value ts) (pos : Nat) (n : Int) :
    resultLength (value.map List.length) (n % 2 ^ 64) (place pos ts) =
      .ok ((n + lengths (replaced args) ts - widths ts) % 2 ^ 64) := by
  induction ts generalizing pos n with
  | nil => simp [place, resultLength, lengths, widths]
  | cons t ts ih =>
    have hrest : Covers args value ts := fun u hu => h u (List.mem_cons_of_mem _ hu)
    rw [place, lengths_cons, widths_cons]
    cases hescape : t.isEscape with
    | true =>
      have hvalue := h t List.mem_cons_self hescape
      have hstep : (n % 2 ^ 64 - (t.text.length : Int) + ((t.replaced args).length : Int)) % 2 ^ 64 =
          (n + (t.replaced args).length - t.text.length) % 2 ^ 64 := by omega
      simp only [if_true, List.singleton_append, resultLength, List.getElem?_map, hvalue, Option.map_some]
      rw [hstep, ih hrest]
      congr 2
      omega
    | false =>
      simp only [Bool.false_eq_true, if_false, List.nil_append, Nat.zero_add]
      exact ih hrest _ n

private theorem substituteEscapes_place {value : List Str} (h : Covers args value ts) (front : Str) {fmt : Str}
    (hfmt : fmt = front ++ ts.flatMap text) {src : Nat} (hsrc : src ≤ front.length) (result : Str) :
    substituteEscapes maxSize fmt value src result (place front.length ts) =
      append maxSize result (front.drop src ++ ts.flatMap (replaced args)) := by
  induction ts generalizing front src result with
  | nil =>
    rw [List.flatMap_nil, List.append_nil] at hfmt ⊢
    rw [place, substituteEscapes, hfmt, if_neg (Nat.not_lt.mpr hsrc)]
  | cons t ts ih =>
    have hrest : Covers args value ts := fun u hu => h u (List.mem_cons_of_mem _ hu)
    have hfront : fmt = (front ++ t.text) ++ ts.flatMap text := by
      rw [hfmt, List.flatMap_cons, List.append_assoc]
    have hlength : front.length + t.text.length = (front ++ t.text).length := List.length_append.symm
    rw [place, hlength, List.flatMap_cons]
    cases hescape : t.isEscape with
    | true =>
      have hvalue := h t List.mem_cons_self hescape
      have htake : (fmt.drop src).take (front.length - src) = front.drop src := by
        rw [hfmt, List.drop_append_of_le_length hsrc, List.take_append_of_le_length (by rw [List.length_drop]),
          List.take_of_length_le (by rw [List.length_drop])]
      have hin : ¬ (decide (front.length < src) || decide (fmt.length < front.length)) = true := by
        rw [hfmt, List.length_append]
        simp [hsrc]
      rw [if_pos rfl, List.singleton_append, substituteEscapes, if_neg hin, hvalue]
      dsimp only
      rw [htake]
      have hgoOn (r : Str) := ih hrest (front ++ t.text) hfront (Nat.le_refl _) r
      simp only [List.drop_length, List.nil_append] at hgoOn
      simp only [hlength, hgoOn, append_append]
    | false =>
      rw [if_neg Bool.false_ne_true, List.nil_append, replaced_of_not_escape hescape]
      rw [ih hrest (front ++ t.text) hfront (hsrc.trans (by rw [List.length_append]; omega)),
        List.drop_append_of_le_length hsrc, List.append_assoc]

/-! ### The result -/

private theorem foldl_max (escapes : List Escape) (m n : Nat) :
    escapes.foldl (fun maxIndex e => max maxIndex e.index) m ≤ n ↔ m ≤ n ∧ ∀ e ∈ escapes, e.index ≤ n := by
  induction escapes generalizing m with
  | nil => simp
  | cons e escapes ih =>
    rw [List.foldl_cons, ih]
    simp [and_assoc]

private theorem covers_value {maxIndex : Nat} (hargs : maxIndex ≤ args.length)
    (hindex : ∀ t ∈ ts, t.isEscape = true → t.index ≤ maxIndex) : Covers args (['%'] :: args.take maxIndex) ts := by
  intro t ht hescape
  have hle := hindex t ht hescape
  cases t with
  | element text index =>
    cases index with
    | zero => rfl
    | succ i =>
      have hlt : i < maxIndex := hle
      have hin : i < args.length := hlt.trans_le hargs
      change (args.take maxIndex)[i]? = some (args[i]?.getD [])
      rw [List.getElem?_take_of_lt hlt, List.getElem?_eq_getElem hin]
      rfl
  | percent => rfl
  | empty => rfl
  | plain ch => cases hescape
  | improper ch => cases hescape
  | last => cases hescape

/-- The index of each escape is one of the arguments'. -/
private theorem index_le {n : Nat} (h : ∀ text index, .element text index ∈ ts → index ≤ n) {t : Token} (ht : t ∈ ts) :
    t.index ≤ n := by
  cases t with
  | element text index => exact h text index ht
  | _ => exact Nat.zero_le _

/-- With the arguments that it needs, formatting runs its loops over the escapes that an int counts. -/
private theorem vformat_eq (maxSize : Nat) {fmt : Str} (hfmt : fmt.length < 2 ^ 63)
    (hargs : ∀ text index, .element text index ∈ tokens 0 fmt → index ≤ args.length) :
    ∃ value, Covers args value (tokens 0 fmt) ∧ vformat maxSize fmt args =
      (resultLength (value.map List.length) ((units (tokens 0 fmt) : Int) % 2 ^ 64)
        ((place 0 (tokens 0 fmt)).take (toInt ((tokens 0 fmt).filter isEscape).length).toNat)).bind fun length =>
          if maxSize < length then .error .lengthError
          else substituteEscapes maxSize fmt value 0 []
            ((place 0 (tokens 0 fmt)).take (toInt ((tokens 0 fmt).filter isEscape).length).toNat) := by
  have hunits := units_le (tokens 0 fmt)
  rw [flatMap_text_tokens] at hunits
  have hindices (m : Nat) : (place 0 (tokens 0 fmt)).foldl (fun maxIndex e => max maxIndex e.index) 0 ≤ m ↔
      ∀ t ∈ tokens 0 fmt, t.isEscape = true → t.index ≤ m := by
    rw [foldl_max]
    have hmem : (∀ e ∈ place 0 (tokens 0 fmt), e.index ≤ m) ↔
        ∀ i ∈ (place 0 (tokens 0 fmt)).map Escape.index, i ≤ m := by simp
    rw [hmem, index_place, and_iff_right (Nat.zero_le m)]
    constructor
    · exact fun h t ht hescape => h _ (List.mem_map_of_mem (List.mem_filter.mpr ⟨ht, hescape⟩))
    · intro h i hi
      obtain ⟨t, ht, rfl⟩ := List.mem_map.mp hi
      exact h t (List.mem_filter.mp ht).1 (List.mem_filter.mp ht).2
  have hmax := (hindices args.length).mpr fun t ht _ => index_le hargs ht
  have hwrap : ((units (tokens 0 fmt) : Nat) : Int) % 2 ^ 64 = units (tokens 0 fmt) := by omega
  refine ⟨_, covers_value hmax ((hindices _).mp (Nat.le_refl _)), ?_⟩
  rw [vformat, scan_eq, hwrap]
  dsimp only
  rw [if_neg (Nat.not_lt.mpr hmax), length_place]

/-- The result is the plain substitution exactly when the format has no empty braces, the escapes are no longer than the
number of parts and what takes their places, and the result is no longer than a string may be. With more escapes than an
int counts nothing is replaced. -/
theorem vformat_eq_substitute_iff (hmax : maxSize < 2 ^ 63) {fmt : Str} (hfmt : fmt.length < 2 ^ 63)
    (hargs : ∀ text index, .element text index ∈ tokens 0 fmt → index ≤ args.length) :
    (((tokens 0 fmt).filter isEscape).length < 2 ^ 31 →
      (vformat maxSize fmt args = .ok (substitute args fmt) ↔ .empty ∉ tokens 0 fmt ∧
        widths (tokens 0 fmt) ≤ units (tokens 0 fmt) + lengths (value args) (tokens 0 fmt) ∧
        (substitute args fmt).length ≤ maxSize)) ∧
    (2 ^ 31 ≤ ((tokens 0 fmt).filter isEscape).length → ((tokens 0 fmt).filter isEscape).length < 2 ^ 32 →
      fmt.length ≤ maxSize → vformat maxSize fmt args = .ok fmt) := by
  obtain ⟨value, hcovers, hvformat⟩ := vformat_eq maxSize hfmt hargs
  have htext := flatMap_text_tokens fmt
  have hunits := units_le (tokens 0 fmt)
  have hwidths := widths_le (tokens 0 fmt)
  rw [htext] at hunits hwidths
  rw [hvformat]
  refine ⟨fun hfew => ?_, fun hmany hbound hsize => ?_⟩
  · have hall : (toInt ((tokens 0 fmt).filter isEscape).length).toNat = (place 0 (tokens 0 fmt)).length := by
      rw [length_place, toInt]
      omega
    have hsubstituted : substituteEscapes maxSize fmt value 0 [] (place 0 (tokens 0 fmt)) = _ :=
      substituteEscapes_place hcovers [] (by rw [htext, List.nil_append]) (Nat.le_refl _) []
    rw [List.length_nil, List.drop_nil, List.nil_append] at hsubstituted
    rw [hall, List.take_length, resultLength_place hcovers]
    change (if (maxSize : Int) < _ then _ else _) = _ ↔ _
    rw [hsubstituted, append, List.length_nil, Nat.zero_add, List.nil_append]
    have hlength := length_replaced args (tokens 0 fmt)
    have hle := units_add_lengths_le args (tokens 0 fmt)
    rw [substitute]
    constructor
    · intro hok
      split_ifs at hok with hlong hsize
      have hsame := Except.ok.inj hok
      rw [hsame] at hlength hle hsize
      have hnone : (tokens 0 fmt).count .empty = 0 := by omega
      have hnot : Token.empty ∉ tokens 0 fmt := List.count_eq_zero.mp hnone
      rw [lengths_replaced hnot] at hlong
      exact ⟨hnot, by omega, by omega⟩
    · rintro ⟨hnot, hroom, hsize⟩
      rw [flatMap_replaced hnot, lengths_replaced hnot] at hle ⊢
      rw [if_neg (by omega), if_neg (by omega)]
  · have hnone : (toInt ((tokens 0 fmt).filter isEscape).length).toNat = 0 := by
      rw [toInt]
      omega
    rw [hnone, List.take_zero, resultLength]
    change (if (maxSize : Int) < _ then _ else _) = _
    rw [substituteEscapes, if_neg (by omega), if_neg (Nat.not_lt.mpr (Nat.zero_le _)), append, List.drop_zero,
      List.nil_append, if_neg (by rw [List.length_nil]; omega)]

/-- Two arguments behind a literal `%`. -/
theorem vformat_answer :
    vformat 100 "%%%{1}=%{2}".toList ["answer".toList, "42".toList] = .ok "%answer=42".toList := by
  have htokens : tokens 0 "%%%{1}=%{2}".toList =
      [.percent, .element ['1'] 1, .plain '=', .element ['2'] 2] := by decide
  refine ((vformat_eq_substitute_iff (by decide) (by decide) fun text index hmem => ?_).1 ?_).mpr ?_
  · rw [htokens] at hmem
    have hle : ∀ t ∈ [Token.percent, .element ['1'] 1, .plain '=', .element ['2'] 2], t.index ≤ 2 := by decide
    exact hle _ hmem
  · rw [htokens]
    decide
  · rw [htokens]
    decide

/-- An empty argument alone makes the length wrap, and empty braces are taken for a `%`. -/
theorem vformat_wraps :
    substitute [[]] "%{1}".toList = [] ∧ vformat (2 ^ 62) "%{1}".toList [[]] = .error .lengthError ∧
      substitute [] "none: %{}".toList = "none: %{}".toList ∧
      vformat (2 ^ 62) "none: %{}".toList [] = .ok "none: %".toList := by
  decide

end Synergy.Text
