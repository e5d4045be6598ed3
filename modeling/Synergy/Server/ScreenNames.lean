import Mathlib.Data.List.Chain
import Mathlib.Data.List.TakeWhile
import Synergy.Base.Text

/-! The names that screens may have: the test that the server makes, and the grammar that
it is meant for. -/
namespace Synergy

/-- `isalnum` of the C locale. -/
def isalnum (c : Char) : Bool := c.isAlphanum

namespace Config

/-- The test of a part that begins at `b` and of all parts after it. The loop goes on only as long
as `b` is the size of the name. -/
def partsValid (name : Str) (b : Nat) : Bool :=
  if b ≠ name.length then true
  else
    let e := b + (name.drop b).idxOf '.'
    let part := (name.drop b).take (e - b)
    if e - b < 1 then false
    else if !(part.head?.any fun c => isalnum c || c == '_') || !(part.getLast?.any fun c => isalnum c || c == '_') then
      false
    else if part.any fun c => !isalnum c && c ≠ '_' && c ≠ '-' then false
    else if e = name.length then true
    else partsValid name (e + 1)
termination_by name.length + 1 - b
decreasing_by omega

def isValidScreenName (name : Str) : Bool := if name.isEmpty then false else partsValid name 0

/-- A part of a name: letters, digits, underscores and dashes, the last not at its ends. -/
def NamePart (part : Str) : Prop :=
  part ≠ [] ∧ (∀ c ∈ part, isalnum c = true ∨ c = '_' ∨ c = '-') ∧ part.head? ≠ some '-' ∧ part.getLast? ≠ some '-'

/-- Parts with dots between them, and possibly one more dot. -/
def ScreenName (name : Str) : Prop :=
  ∃ parts : List Str, parts ≠ [] ∧ (∀ part ∈ parts, NamePart part) ∧
    (name = ['.'].intercalate parts ∨ name = ['.'].intercalate parts ++ ['.'])

/-- Neither a dot nor a dash stands beside a dot, but for the dash before another. -/
def MayFollow (c d : Char) : Prop := (c = '.' → d ≠ '.' ∧ d ≠ '-') ∧ (d = '.' → c ≠ '-')

/-- Each character is one of a name and may follow the one before it; the first is neither a dot nor a
dash, and the last is no dash. -/
structure WellSpelled (name : Str) : Prop where
  chars : ∀ c ∈ name, isalnum c = true ∨ c = '_' ∨ c = '-' ∨ c = '.'
  head : name.head? ≠ some '.' ∧ name.head? ≠ some '-'
  last : name.getLast? ≠ some '-'
  chain : name.IsChain MayFollow

theorem isValidScreenName_eq (name : Str) : isValidScreenName name = !name.isEmpty := by
  cases name with
  | nil => rfl
  | cons c name =>
    rw [isValidScreenName, partsValid]
    simp

private theorem chain_of_no_dot {s : Str} (h : '.' ∉ s) : s.IsChain MayFollow := by
  refine (List.pairwise_of_forall_mem_list fun c hc d hd => ?_).isChain
  exact ⟨fun he => absurd (he ▸ hc) h, fun he => absurd (he ▸ hd) h⟩

private theorem namePart_no_dot {part : Str} (h : NamePart part) : '.' ∉ part := by
  intro hm
  have hc := h.2.1 '.' hm
  revert hc
  decide

/-- A name without a dot is one part. -/
theorem wellSpelled_part {part : Str} (hne : part ≠ []) (hdot : '.' ∉ part) : WellSpelled part ↔ NamePart part := by
  constructor
  · rintro ⟨hchars, ⟨-, hhead⟩, hlast, -⟩
    refine ⟨hne, fun c hc => ?_, hhead, hlast⟩
    rcases hchars c hc with h | h | h | rfl
    · exact .inl h
    · exact .inr (.inl h)
    · exact .inr (.inr h)
    · exact absurd hc hdot
  · rintro ⟨-, hchars, hhead, hlast⟩
    refine ⟨fun c hc => ?_, ⟨fun h => hdot (List.mem_of_mem_head? h), hhead⟩, hlast, chain_of_no_dot hdot⟩
    rcases hchars c hc with h | h | h
    · exact .inl h
    · exact .inr (.inl h)
    · exact .inr (.inr (.inl h))

private theorem getLast?_append_dot (part s : Str) :
    (part ++ '.' :: s).getLast? = some (s.getLast?.getD '.') := by
  rw [List.getLast?_append, List.getLast?_cons, Option.some_or]

/-- A name falls into its first part and the name behind the dot. -/
theorem wellSpelled_append {part s : Str} (hne : part ≠ []) (hdot : '.' ∉ part) :
    WellSpelled (part ++ '.' :: s) ↔ NamePart part ∧ WellSpelled s := by
  rw [← wellSpelled_part hne hdot]
  have hhead : (part ++ '.' :: s).head? = part.head? := List.head?_append_of_ne_nil _ hne
  constructor
  · rintro ⟨hchars, hfirst, hlast, hchain⟩
    obtain ⟨hpart, hrest, hbefore⟩ := List.isChain_append.mp hchain
    obtain ⟨hafter, hs⟩ := List.isChain_cons.mp hrest
    rw [hhead] at hfirst
    refine ⟨⟨fun c hc => hchars c (by simp [hc]), hfirst, ?_, hpart⟩, fun c hc => hchars c (by simp [hc]), ?_, ?_, hs⟩
    · intro h
      exact (hbefore '-' h '.' rfl).2 rfl rfl
    · exact ⟨fun h => ((hafter '.' h).1 rfl).1 rfl, fun h => ((hafter '-' h).1 rfl).2 rfl⟩
    · intro h
      exact hlast (by rw [getLast?_append_dot, h, Option.getD_some])
  · rintro ⟨⟨hchars, hfirst, hlast, hchain⟩, ⟨hchars', hfirst', hlast', hchain'⟩⟩
    refine ⟨fun c hc => ?_, hhead ▸ hfirst, ?_, List.isChain_append.mpr ⟨hchain, List.isChain_cons.mpr ⟨?_, hchain'⟩, ?_⟩⟩
    · rcases List.mem_append.mp hc with hc | hc
      · exact hchars c hc
      · rcases List.mem_cons.mp hc with rfl | hc
        · simp
        · exact hchars' c hc
    · rw [getLast?_append_dot]
      cases hs : s.getLast? with
      | none => decide
      | some c => exact fun h => hlast' (hs.trans h)
    · intro d hd
      exact ⟨fun _ => ⟨fun h => hfirst'.1 (h ▸ hd), fun h => hfirst'.2 (h ▸ hd)⟩, fun _ => by decide⟩
    · intro c hc d hd
      obtain rfl : '.' = d := Option.some.inj hd
      exact ⟨fun h => absurd (List.mem_of_mem_getLast? (h ▸ hc)) hdot, fun _ h => hlast (h ▸ hc)⟩

theorem wellSpelled_nil : WellSpelled [] := ⟨by simp, by simp, by simp, .nil⟩

private theorem wellSpelled_of_parts {parts : List Str} (hne : parts ≠ []) (hparts : ∀ part ∈ parts, NamePart part) :
    WellSpelled (['.'].intercalate parts) ∧ WellSpelled (['.'].intercalate parts ++ ['.']) := by
  induction parts with
  | nil => exact absurd rfl hne
  | cons part parts ih =>
    have hpart := hparts part (by simp)
    have hdot := namePart_no_dot hpart
    cases parts with
    | nil =>
      rw [List.intercalate_singleton]
      exact ⟨(wellSpelled_part hpart.1 hdot).mpr hpart, (wellSpelled_append hpart.1 hdot).mpr ⟨hpart, wellSpelled_nil⟩⟩
    | cons next parts =>
      obtain ⟨hmore, hdotted⟩ := ih (List.cons_ne_nil _ _) fun p hp => hparts p (by simp [hp])
      rw [List.intercalate_cons_cons, List.append_assoc, List.append_assoc, List.append_assoc]
      exact ⟨(wellSpelled_append hpart.1 hdot).mpr ⟨hpart, hmore⟩, (wellSpelled_append hpart.1 hdot).mpr ⟨hpart, hdotted⟩⟩

private theorem parts_of_wellSpelled (n : Nat) {name : Str} (hn : name.length ≤ n) (hne : name ≠ [])
    (h : WellSpelled name) : ScreenName name := by
  induction n generalizing name with
  | zero => exact absurd (List.length_eq_zero_iff.mp (Nat.le_zero.mp hn)) hne
  | succ n ih =>
    have hsplit : name.takeWhile (· ≠ '.') ++ name.dropWhile (· ≠ '.') = name := List.takeWhile_append_dropWhile
    have hdot : '.' ∉ name.takeWhile (· ≠ '.') := fun hm => by simpa using List.mem_takeWhile_imp hm
    generalize name.takeWhile (· ≠ '.') = part at hsplit hdot
    cases hrest : name.dropWhile (· ≠ '.') with
    | nil =>
      rw [hrest, List.append_nil] at hsplit
      subst hsplit
      exact ⟨[part], by simp, by simpa using (wellSpelled_part hne hdot).mp h, .inl (by simp)⟩
    | cons c s =>
      have hc := List.head?_dropWhile_not (· ≠ '.') name
      rw [hrest] at hsplit hc
      obtain rfl : c = '.' := by simpa using hc
      have hpart : part ≠ [] := by
        rintro rfl
        exact h.head.1 (hsplit ▸ rfl)
      rw [← hsplit] at h ⊢
      obtain ⟨hfirst, hs⟩ := (wellSpelled_append hpart hdot).mp h
      by_cases hend : s = []
      · exact ⟨[part], by simp, by simpa using hfirst, .inr (by simp [hend])⟩
      · have hlength := congrArg List.length hsplit
        simp only [List.length_append, List.length_cons] at hlength
        obtain ⟨parts, hparts, hall, hname⟩ := ih (by omega) hend hs
        obtain ⟨next, parts, rfl⟩ := List.exists_cons_of_ne_nil hparts
        refine ⟨part :: next :: parts, by simp, ?_, ?_⟩
        · intro p hp
          rcases List.mem_cons.mp hp with rfl | hp
          · exact hfirst
          · exact hall p hp
        · rw [List.intercalate_cons_cons]
          rcases hname with rfl | rfl
          · exact .inl (by simp)
          · exact .inr (by simp)

/-- The grammar, read character by character. -/
theorem screenName_iff (name : Str) : ScreenName name ↔ name ≠ [] ∧ WellSpelled name := by
  constructor
  · rintro ⟨parts, hne, hparts, hname⟩
    obtain ⟨hplain, hdotted⟩ := wellSpelled_of_parts hne hparts
    rcases hname with rfl | rfl
    · refine ⟨?_, hplain⟩
      obtain ⟨part, parts, rfl⟩ := List.exists_cons_of_ne_nil hne
      have hpart := (hparts part (by simp)).1
      cases parts <;> simp [List.intercalate_cons_cons, hpart]
    · exact ⟨by simp, hdotted⟩
  · rintro ⟨hne, h⟩
    exact parts_of_wellSpelled name.length le_rfl hne h

end Config
end Synergy
