import Synergy.Platform.XWindowsHotKeys

/-! Which grabs a hotkey asks for, and what is recorded of them when the X server
grants only some. -/
namespace Synergy.HotKeys
open Synergy.Lib

namespace XKeyboard

/-- The grabs that a hotkey asks for, in order; `none` where the modifiers cannot be mapped. -/
def requests (kb : XKeyboard) (key : KeyID) (mask : KeyModifierMask) (modifiers : XMask) : List (Option KeyItem) :=
  if key = kKeyNone then
    s_hotKeyModifiers.flatMap fun bit =>
      if mask &&& bit = 0 then []
      else
        match kb.mapModifiersToX (mask &&& ~~~bit) with
        | none => [none]
        | some modifiers2 =>
          match modifierIndex (modifiers ^^^ modifiers2) with
          | none => [none]
          | some index => ((kb.modifiermap index).filter (· ≠ 0)).map fun code => some ⟨code, modifiers2⟩
  else
    (kb.m_keyCodeFromKey key).flatMap fun code =>
      (List.range (2 ^ kb.toggleModifiers.length)).map fun i => some ⟨code, kb.withToggles modifiers i⟩

end XKeyboard

/-- The grabs recorded out of a sequence of requests, and, unless the sequence is cut
short, the number of requests made and whether one was denied. -/
def attempt (a : XAnswer) (n : Nat) (denied : Bool) : List (Option KeyItem) → List KeyItem × Option (Nat × Bool)
  | [] => ([], some (n, denied))
  | none :: _ => ([], none)
  | some item :: rest =>
    let denied := denied || !a.granted n
    if denied && a.arrived n then ([], none)
    else
      let later := attempt a (n + 1) denied rest
      (item :: later.1, later.2)

variable {a : XAnswer} {n m : Nat} {denied d : Bool} {reqs more : List (Option KeyItem)}

theorem attempt_append : attempt a n denied (reqs ++ more) =
    match (attempt a n denied reqs).2 with
    | none => ((attempt a n denied reqs).1, none)
    | some (m, d) => ((attempt a n denied reqs).1 ++ (attempt a m d more).1, (attempt a m d more).2) := by
  induction reqs generalizing n denied with
  | nil => rfl
  | cons req reqs ih =>
    cases req with
    | none => rfl
    | some item =>
      rw [List.cons_append, attempt, attempt]
      dsimp only
      split
      · rfl
      · rw [ih]
        cases (attempt a (n + 1) (denied || !a.granted n) reqs).2 with
        | none => rfl
        | some x => rfl

/-- A sequence that is not cut short records all its grabs. -/
theorem attempt_complete (h : (attempt a n denied reqs).2 = some (m, d)) :
    (attempt a n denied reqs).1.map some = reqs := by
  induction reqs generalizing n denied with
  | nil => rfl
  | cons req reqs ih =>
    cases req with
    | none => cases h
    | some item =>
      rw [attempt] at h ⊢
      dsimp only at h ⊢
      split at h
      · cases h
      · next hgo =>
        rw [if_neg hgo, List.map_cons, ih h]

namespace Grabbing

/-- What a stretch of the grabbing adds: the grabs recorded out of its requests. -/
structure Grows (a : XAnswer) (id : Nat) (reqs : List (Option KeyItem)) (g g' : Grabbing) : Prop where
  stuck : g.err = true → g'.err = true ∧ g'.hotKeys = g.hotKeys ∧ g'.m_hotKeyToIDMap = g.m_hotKeyToIDMap
  recorded : g.err = false → g'.hotKeys = g.hotKeys ++ (attempt a g.requests g.denied reqs).1
  named : g.err = false → ∀ item, g'.m_hotKeyToIDMap.get? item =
    if item ∈ (attempt a g.requests g.denied reqs).1 then some id else g.m_hotKeyToIDMap.get? item
  outcome : g.err = false → if g'.err then (attempt a g.requests g.denied reqs).2 = none
    else (attempt a g.requests g.denied reqs).2 = some (g'.requests, g'.denied)
  grabs : g.grabs ⊆ g'.grabs
  denials : g'.denied = false → g.denied = false
  held : g.err = false → g'.err = false → g'.denied = false → ∀ item ∈ (attempt a g.requests g.denied reqs).1,
    item ∈ g'.grabs

namespace Grows
variable {id : Nat} {g g' g'' : Grabbing}

theorem skip (g : Grabbing) : Grows a id [] g g where
  stuck h := ⟨h, rfl, rfl⟩
  recorded _ := (List.append_nil _).symm
  named _ _ := (if_neg List.not_mem_nil).symm
  outcome h := by rw [h]; rfl
  grabs := Finset.Subset.refl _
  denials hd := hd
  held _ _ _ _ hmem := absurd hmem List.not_mem_nil

/-- After an error nothing is requested any more. -/
theorem of_err (reqs : List (Option KeyItem)) (h : g.err = true) : Grows a id reqs g g where
  stuck h := ⟨h, rfl, rfl⟩
  recorded hn := absurd (h.symm.trans hn) Bool.true_eq_false.mp
  named hn := absurd (h.symm.trans hn) Bool.true_eq_false.mp
  outcome hn := absurd (h.symm.trans hn) Bool.true_eq_false.mp
  grabs := Finset.Subset.refl _
  denials hd := hd
  held hn := absurd (h.symm.trans hn) Bool.true_eq_false.mp

theorem unmapped (g : Grabbing) : Grows a id [none] g { g with err := true } where
  stuck _ := ⟨rfl, rfl, rfl⟩
  recorded _ := (List.append_nil _).symm
  named _ _ := (if_neg List.not_mem_nil).symm
  outcome _ := rfl
  grabs := Finset.Subset.refl _
  denials hd := hd
  held _ _ _ _ hmem := absurd hmem List.not_mem_nil

theorem trans (h : Grows a id reqs g g') (k : Grows a id more g' g'') : Grows a id (reqs ++ more) g g'' := by
  have hmid : g.err = false → g'.err = false → attempt a g.requests g.denied (reqs ++ more) =
      ((attempt a g.requests g.denied reqs).1 ++ (attempt a g'.requests g'.denied more).1,
        (attempt a g'.requests g'.denied more).2) := by
    intro he he'
    have ho := h.outcome he
    rw [he', if_neg Bool.false_ne_true] at ho
    rw [attempt_append, ho]
  have hcut : g.err = false → g'.err = true → attempt a g.requests g.denied (reqs ++ more) =
      ((attempt a g.requests g.denied reqs).1, none) := by
    intro he he'
    have ho := h.outcome he
    rw [he', if_pos rfl] at ho
    rw [attempt_append, ho]
  constructor
  · intro he
    obtain ⟨he', hh, ht⟩ := h.stuck he
    obtain ⟨he'', hh', ht'⟩ := k.stuck he'
    exact ⟨he'', hh'.trans hh, ht'.trans ht⟩
  · intro he
    cases he' : g'.err with
    | false => rw [hmid he he', k.recorded he', h.recorded he, List.append_assoc]
    | true => rw [hcut he he', (k.stuck he').2.1, h.recorded he]
  · intro he item
    cases he' : g'.err with
    | false =>
      rw [hmid he he', k.named he', h.named he]
      by_cases hm : item ∈ (attempt a g'.requests g'.denied more).1
      · rw [if_pos hm, if_pos (List.mem_append_right _ hm)]
      · rw [if_neg hm]
        by_cases hr : item ∈ (attempt a g.requests g.denied reqs).1
        · rw [if_pos hr, if_pos (List.mem_append_left _ hr)]
        · rw [if_neg hr, if_neg fun h => (List.mem_append.mp h).elim hr hm]
    | true => rw [hcut he he', (k.stuck he').2.2, h.named he]
  · intro he
    cases he' : g'.err with
    | false =>
      rw [hmid he he']
      exact k.outcome he'
    | true =>
      rw [hcut he he', (k.stuck he').1]
      rfl
  · exact h.grabs.trans k.grabs
  · exact fun hd => h.denials (k.denials hd)
  · intro he he'' hd item hmem
    cases he' : g'.err with
    | false =>
      rw [hmid he he'] at hmem
      rcases List.mem_append.mp hmem with hmem | hmem
      · exact k.grabs (h.held he he' (k.denials hd) item hmem)
      · exact k.held he' he'' hd item hmem
    | true => exact absurd ((k.stuck he').1.symm.trans he'') Bool.true_eq_false.mp

theorem foldl {α : Type} {f : Grabbing → α → Grabbing} {ask : α → List (Option KeyItem)}
    (hf : ∀ g x, Grows a id (ask x) g (f g x)) (l : List α) (g : Grabbing) :
    Grows a id (l.flatMap ask) g (l.foldl f g) := by
  induction l generalizing g with
  | nil => exact skip g
  | cons x l ih => exact (hf g x).trans (ih (f g x))

theorem grabKey (g : Grabbing) (item : KeyItem) : Grows a id [some item] g (g.grabKey a id item) := by
  have hgrabs : g.grabs ⊆ (g.grabKey a id item).grabs := by
    unfold Grabbing.grabKey
    dsimp only
    split
    · exact Finset.subset_insert _ _
    · exact Finset.Subset.refl _
  have hdenials : (g.grabKey a id item).denied = false → g.denied = false := fun hd => (Bool.or_eq_false_iff.mp hd).1
  have hheld : (g.grabKey a id item).denied = false → item ∈ (g.grabKey a id item).grabs := by
    intro hd
    have hgranted : a.granted g.requests = true := by simpa using (Bool.or_eq_false_iff.mp hd).2
    unfold Grabbing.grabKey
    dsimp only
    rw [if_pos hgranted]
    exact Finset.mem_insert_self _ _
  have hstop : (g.grabKey a id item).err = true →
      (g.grabKey a id item).hotKeys = g.hotKeys ∧ (g.grabKey a id item).m_hotKeyToIDMap = g.m_hotKeyToIDMap :=
    fun he => ⟨if_pos he, if_pos he⟩
  have hgo : (g.grabKey a id item).err = false → (g.grabKey a id item).hotKeys = g.hotKeys ++ [item] ∧
      (g.grabKey a id item).m_hotKeyToIDMap = g.m_hotKeyToIDMap.put item id := by
    intro he
    have hne : ¬ (g.grabKey a id item).err = true := fun ht => Bool.noConfusion (ht.symm.trans he)
    exact ⟨if_neg hne, if_neg hne⟩
  by_cases harrived : ((g.denied || !a.granted g.requests) && a.arrived g.requests) = true
  · have hattempt : attempt a g.requests g.denied [some item] = ([], none) := if_pos harrived
    have herr : (g.grabKey a id item).err = true := Bool.or_eq_true_iff.mpr (.inr harrived)
    obtain ⟨hh, ht⟩ := hstop herr
    refine ⟨fun _ => ⟨herr, hh, ht⟩, fun _ => ?_, fun _ j => ?_, fun _ => ?_, hgrabs, hdenials,
      fun _ he => absurd (herr.symm.trans he) Bool.true_eq_false.mp⟩
    · rw [hattempt, List.append_nil, hh]
    · rw [hattempt, if_neg List.not_mem_nil, ht]
    · rw [herr, hattempt]
      rfl
  · have hattempt : attempt a g.requests g.denied [some item] =
        ([item], some (g.requests + 1, g.denied || !a.granted g.requests)) := if_neg harrived
    have harrived' := eq_false_of_ne_true harrived
    have herr : (g.grabKey a id item).err = g.err := by
      change (g.err || _) = g.err
      rw [harrived', Bool.or_false]
    refine ⟨fun he => ⟨herr.trans he, hstop (herr.trans he)⟩, fun he => ?_, fun he j => ?_, fun he => ?_, hgrabs,
      hdenials, fun _ _ hd j hj => ?_⟩
    · rw [hattempt, (hgo (herr.trans he)).1]
    · rw [hattempt, (hgo (herr.trans he)).2, SortedMap.get?_put]
      by_cases hj : j = item
      · subst hj
        rw [if_pos rfl, if_pos List.mem_cons_self]
      · rw [if_neg fun h => hj (KeyItem.rank_inj h).symm, if_neg fun h => hj (List.mem_singleton.mp h)]
    · rw [herr, he, if_neg Bool.false_ne_true, hattempt]
      rfl
    · rw [hattempt] at hj
      rw [List.mem_singleton.mp hj]
      exact hheld hd

/-- The whole hotkey. -/
theorem grabHotKey (a : XAnswer) (id : Nat) (kb : XKeyboard) (key : KeyID) (mask : KeyModifierMask) (modifiers : XMask) (g : Grabbing) :
    Grows a id (kb.requests key mask modifiers) g (g.grabHotKey kb a id key mask modifiers) := by
  unfold Grabbing.grabHotKey XKeyboard.requests
  split
  · refine foldl (fun g bit => ?_) _ g
    unfold grabModifier
    by_cases he : g.err = true
    · rw [if_pos he]
      exact of_err _ he
    rw [if_neg he]
    by_cases hbit : mask &&& bit = 0
    · rw [if_pos hbit, if_pos hbit]
      exact skip g
    rw [if_neg hbit, if_neg hbit]
    cases kb.mapModifiersToX (mask &&& ~~~bit) with
    | none => exact unmapped g
    | some modifiers2 =>
      dsimp only
      cases XKeyboard.modifierIndex (modifiers ^^^ modifiers2) with
      | none => exact unmapped g
      | some index =>
        have hcodes : ((kb.modifiermap index).filter (· ≠ 0)).map (fun code => some (⟨code, modifiers2⟩ : KeyItem)) =
            (kb.modifiermap index).flatMap fun code => if code ≠ 0 then [some ⟨code, modifiers2⟩] else [] := by
          induction kb.modifiermap index with
          | nil => rfl
          | cons code codes ih => by_cases hc : code = 0 <;> simp_all
        dsimp only
        rw [hcodes]
        refine foldl (fun g code => ?_) _ g
        by_cases he : g.err = true
        · rw [if_pos he]
          exact of_err _ he
        rw [if_neg he]
        split
        · exact grabKey g _
        · exact skip g
  · refine foldl (fun g code => ?_) _ g
    unfold grabKeycode
    by_cases he : g.err = true
    · rw [if_pos he]
      exact of_err _ he
    · rw [if_neg he, List.map_eq_flatMap]
      exact foldl (fun g i => grabKey g _) _ g

end Grows
end Grabbing
end Synergy.HotKeys
