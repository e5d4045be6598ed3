import Mathlib.Data.Finset.Card
import Synergy.Input.KeyMap

/-! The keyboard that the keystrokes go to, and when the state of the modifiers agrees with it. -/
namespace Synergy
open Synergy.Lib

/-- The buttons that are held and the locking modifiers that are on. -/
@[ext]
structure Keyboard where
  held : Finset KeyButton
  locks : KeyModifierMask

/-- The modifier of each button, if it has one, and the modifiers that lock. -/
structure Layout where
  bits : KeyButton → KeyModifierMask
  locking : KeyModifierMask
  single : ∀ b j k, (bits b).getLsbD j = true → (bits b).getLsbD k = true → j = k

namespace Layout
variable (L : Layout)

/-- A locking modifier changes on each press of its button. -/
def stroke (kb : Keyboard) : Keystroke → Keyboard
  | .button b true _ _ => ⟨insert b kb.held, kb.locks ^^^ (L.bits b &&& L.locking)⟩
  | .button b false _ _ => { kb with held := kb.held.erase b }
  | .group .. => kb

def replay (kb : Keyboard) (keys : List Keystroke) : Keyboard := keys.foldl L.stroke kb

/-- The item is of a button of the layout. -/
def Fits (item : KeyItem) : Prop :=
  item.generates = L.bits item.button ∧ (item.generates ≠ 0 → item.lock = decide (item.generates &&& L.locking ≠ 0))

/-- The entries are of modifier keys, a locking modifier has one at most, and the mask is the union. -/
structure Sound (es : List (KeyModifierMask × KeyItem)) (currentState : KeyModifierMask) : Prop where
  fits : ∀ e ∈ es, e.1 = e.2.generates ∧ e.2.generates ≠ 0 ∧ L.Fits e.2
  alone : es.Pairwise fun a b => a.1 = b.1 → a.1 &&& L.locking = 0
  union : ∀ k, currentState.getLsbD k = true ↔ ∃ e ∈ es, e.1.getLsbD k = true

/-- The keyboard holds the modifier keys in effect that do not lock and those typed, and its locks
are on as the mask says. -/
structure Agrees (mods : ModifierToKeys) (currentState : KeyModifierMask) (kb : Keyboard) (typed : Finset KeyButton) :
    Prop where
  sound : L.Sound mods.entries currentState
  plain : ∀ b ∈ typed, L.bits b = 0
  held : ∀ b, b ∈ kb.held ↔ b ∈ typed ∨ (L.bits b &&& L.locking = 0 ∧ b ∈ mods.buttons)
  locks : kb.locks = currentState &&& L.locking

variable {L}

theorem replay_append (kb : Keyboard) (keys more : List Keystroke) :
    L.replay kb (keys ++ more) = L.replay (L.replay kb keys) more :=
  List.foldl_append ..

theorem bits_eq_of_common {a b : KeyButton} {k : Nat} (ha : (L.bits a).getLsbD k = true)
    (hb : (L.bits b).getLsbD k = true) : L.bits a = L.bits b := by
  refine BitVec.eq_of_getLsbD_eq fun j _ => ?_
  rw [Bool.eq_iff_iff]
  exact ⟨fun h => L.single a k j ha h ▸ hb, fun h => L.single b k j hb h ▸ ha⟩

section Masks
variable {g l c : KeyModifierMask}

private theorem bit_of_disjoint (h : g &&& l = 0) (k : Nat) : (g.getLsbD k && l.getLsbD k) = false := by
  rw [← BitVec.getLsbD_and, h]
  exact BitVec.getLsbD_zero

private theorem or_and_of_disjoint (h : g &&& l = 0) : (c ||| g) &&& l = c &&& l := by
  refine BitVec.eq_of_getLsbD_eq fun k hk => ?_
  rw [BitVec.getLsbD_and, BitVec.getLsbD_or, BitVec.getLsbD_and, Bool.and_or_distrib_right, bit_of_disjoint h k,
    Bool.or_false]

theorem diff_and_of_disjoint (h : g &&& l = 0) : (c &&& ~~~g) &&& l = c &&& l := by
  refine BitVec.eq_of_getLsbD_eq fun k hk => ?_
  have hbit := bit_of_disjoint h k
  simp only [BitVec.getLsbD_and, BitVec.getLsbD_not, hk, decide_true, Bool.true_and]
  revert hbit
  generalize g.getLsbD k = x
  generalize l.getLsbD k = y
  generalize c.getLsbD k = z
  decide +revert

private theorem toggle_on (h : c &&& g = 0) : (c &&& l) ^^^ (g &&& l) = (c ||| g) &&& l := by
  refine BitVec.eq_of_getLsbD_eq fun k hk => ?_
  have hbit := bit_of_disjoint h k
  simp only [BitVec.getLsbD_and, BitVec.getLsbD_or, BitVec.getLsbD_xor]
  revert hbit
  generalize g.getLsbD k = x
  generalize l.getLsbD k = y
  generalize c.getLsbD k = z
  decide +revert

theorem toggle_off (h : c &&& g = g) : (c &&& l) ^^^ (g &&& l) = (c &&& ~~~g) &&& l := by
  refine BitVec.eq_of_getLsbD_eq fun k hk => ?_
  have hbit : (c.getLsbD k && g.getLsbD k) = g.getLsbD k := by rw [← BitVec.getLsbD_and, h]
  simp only [BitVec.getLsbD_and, BitVec.getLsbD_not, BitVec.getLsbD_xor, hk, decide_true, Bool.true_and]
  revert hbit
  generalize g.getLsbD k = x
  generalize l.getLsbD k = y
  generalize c.getLsbD k = z
  decide +revert

end Masks

section Sound
variable {es : List (KeyModifierMask × KeyItem)} {cur : KeyModifierMask} {item : KeyItem}

theorem Sound.bits_eq (h : L.Sound es cur) {e : KeyModifierMask × KeyItem} (he : e ∈ es) : L.bits e.2.button = e.1 := by
  obtain ⟨hkey, -, hfits⟩ := h.fits e he
  rw [hkey, hfits.1]

/-- Entries that share a modifier are under the same one. -/
theorem Sound.key_eq (h : L.Sound es cur) {e : KeyModifierMask × KeyItem} (he : e ∈ es) {b : KeyButton} {k : Nat}
    (hk : e.1.getLsbD k = true) (hb : (L.bits b).getLsbD k = true) : e.1 = L.bits b := by
  rw [← h.bits_eq he] at hk ⊢
  exact bits_eq_of_common hk hb

theorem alone_symmetric (L : Layout) :
    ∀ ⦃a b : KeyModifierMask × KeyItem⦄, (a.1 = b.1 → a.1 &&& L.locking = 0) → b.1 = a.1 → b.1 &&& L.locking = 0 :=
  fun _ _ h he => he ▸ h he.symm

theorem Sound.perm (h : L.Sound es cur) {es' : List (KeyModifierMask × KeyItem)} (hp : es'.Perm es) :
    L.Sound es' cur where
  fits e he := h.fits e (hp.mem_iff.mp he)
  alone := (hp.pairwise_iff fun {_ _} => @alone_symmetric L _ _).mpr h.alone
  union k := by simpa only [hp.mem_iff] using h.union k

/-- A locking modifier comes into effect only when it is off. -/
theorem Sound.cons (h : L.Sound es cur) (hfits : L.Fits item) (hgen : item.generates ≠ 0)
    (hoff : item.lock = true → cur &&& item.generates = 0) :
    L.Sound ((item.generates, item) :: es) (cur ||| item.generates) where
  fits e he := by
    rcases List.mem_cons.mp he with rfl | he
    · exact ⟨rfl, hgen, hfits⟩
    · exact h.fits e he
  alone := by
    refine List.pairwise_cons.mpr ⟨fun e he heq => ?_, h.alone⟩
    dsimp only at heq
    by_contra hlock
    have hoff' := hoff (by rw [hfits.2 hgen]; exact decide_eq_true hlock)
    -- the entry has a bit, which is on in the mask
    obtain ⟨k, hk⟩ : ∃ k, item.generates.getLsbD k = true := by
      by_contra hnone
      refine hgen (BitVec.eq_of_getLsbD_eq fun k _ => ?_)
      simpa using fun hk => hnone ⟨k, hk⟩
    have hcur := (h.union k).mpr ⟨e, he, heq ▸ hk⟩
    have hbit := bit_of_disjoint hoff' k
    simp [hcur, hk] at hbit
  union k := by
    rw [BitVec.getLsbD_or, Bool.or_eq_true, h.union k]
    simp [or_comm]

/-- All entries under a modifier go at once. -/
theorem Sound.erase (h : L.Sound es cur) (hfits : L.Fits item) :
    L.Sound (es.filter fun e => e.1.toNat ≠ item.generates.toNat) (cur &&& ~~~item.generates) where
  fits e he := h.fits e (List.mem_of_mem_filter he)
  alone := h.alone.filter _
  union k := by
    rw [BitVec.getLsbD_and, Bool.and_eq_true, h.union k]
    constructor
    · rintro ⟨⟨e, he, hk⟩, hnot⟩
      refine ⟨e, List.mem_filter.mpr ⟨he, ?_⟩, hk⟩
      have hne : e.1 ≠ item.generates := fun heq => by simp [← heq, hk] at hnot
      simpa [BitVec.toNat_inj] using hne
    · rintro ⟨e, he, hk⟩
      obtain ⟨he, hne⟩ := List.mem_filter.mp he
      refine ⟨⟨e, he, hk⟩, ?_⟩
      have hgen : item.generates.getLsbD k = false := by
        by_contra hset
        have heq := h.key_eq he hk (b := item.button) (by rw [← hfits.1]; simpa using hset)
        rw [← hfits.1] at heq
        simp [heq] at hne
      rw [BitVec.getLsbD_not, hgen, decide_eq_true (BitVec.lt_of_getLsbD hk)]
      rfl

end Sound

theorem mem_buttons_insert (mods : ModifierToKeys) (g : KeyModifierMask) (item : KeyItem) (b : KeyButton) :
    b ∈ (ModifierToKeys.buttons (mods.insert g item)) ↔ b = item.button ∨ b ∈ mods.buttons := by
  simp only [ModifierToKeys.buttons, List.mem_map, Multimap.mem_insert]
  constructor
  · rintro ⟨e, rfl | he, rfl⟩
    · exact .inl rfl
    · exact .inr ⟨e, he, rfl⟩
  · rintro (rfl | ⟨e, he, rfl⟩)
    · exact ⟨_, .inl rfl, rfl⟩
    · exact ⟨e, .inr he, rfl⟩

theorem mem_buttons (mods : ModifierToKeys) (b : KeyButton) :
    b ∈ mods.buttons ↔ ∃ e ∈ mods.entries, e.2.button = b := by
  simp [ModifierToKeys.buttons]

/-- Releases take the buttons away and leave the locks alone. -/
theorem replay_releases (kb : Keyboard) (es : List (KeyModifierMask × KeyItem)) :
    (∀ b, b ∈ (L.replay kb (es.map fun e => .button e.2.button false false e.2.client)).held ↔
      b ∈ kb.held ∧ ∀ e ∈ es, e.2.button ≠ b) ∧
    (L.replay kb (es.map fun e => .button e.2.button false false e.2.client)).locks = kb.locks := by
  induction es generalizing kb with
  | nil => simp [replay]
  | cons e es ih =>
    obtain ⟨hheld, hlocks⟩ := ih (L.stroke kb (.button e.2.button false false e.2.client))
    refine ⟨fun b => ?_, hlocks⟩
    rw [List.map_cons, replay, List.foldl_cons, ← replay, hheld]
    simp only [stroke, Finset.mem_erase, List.forall_mem_cons]
    tauto

section Agrees
variable {m : KeyMap} {mods : ModifierToKeys} {cur : KeyModifierMask} {kb : Keyboard} {typed : Finset KeyButton}
  {item : KeyItem}

/-- A button of a locking modifier is never held. -/
private theorem Agrees.not_held (h : L.Agrees mods cur kb typed) {b : KeyButton} (hb : L.bits b &&& L.locking ≠ 0) :
    b ∉ kb.held := by
  rw [h.held b]
  rintro (ht | hm)
  · exact hb (by rw [h.plain b ht]; exact BitVec.zero_and)
  · exact hb hm.1

private theorem click_held (kb : Keyboard) (x : KeyButton) (client : Nat) (hx : x ∉ kb.held) :
    L.replay kb [.button x true false client, .button x false false client] =
      ⟨kb.held, kb.locks ^^^ (L.bits x &&& L.locking)⟩ := by
  simp [replay, stroke, Finset.erase_insert hx]

/-- The keyboard follows a modifier that comes into effect. -/
theorem Agrees.modify (h : L.Agrees mods cur kb typed) (hfits : L.Fits item) (hgen : item.generates ≠ 0)
    (hduplex : item.lock = true → item.button ∉ m.m_halfDuplex)
    (hoff : item.lock = true → cur &&& item.generates = 0) :
    L.Agrees (mods.insert item.generates item) (cur ||| item.generates)
      (L.replay kb (m.modifierStrokes true item mods)) typed := by
  have hsound := (h.sound.cons hfits hgen hoff).perm (mods.insert_perm item.generates item)
  cases hlock : item.lock with
  | false =>
    have hdisjoint : item.generates &&& L.locking = 0 := by
      have := hfits.2 hgen
      rw [hlock] at this
      simpa using this.symm
    have hkeys : L.replay kb (m.modifierStrokes true item mods) =
        ⟨insert item.button kb.held, kb.locks ^^^ (L.bits item.button &&& L.locking)⟩ := by
      simp [KeyMap.modifierStrokes, hlock, replay, stroke]
    rw [hkeys, ← hfits.1, hdisjoint]
    refine ⟨hsound, h.plain, fun b => ?_, ?_⟩
    · rw [Finset.mem_insert, h.held b, mem_buttons_insert]
      constructor
      · rintro (rfl | ht | hm)
        · exact .inr ⟨hfits.1 ▸ hdisjoint, .inl rfl⟩
        · exact .inl ht
        · exact .inr ⟨hm.1, .inr hm.2⟩
      · rintro (ht | ⟨hb, rfl | hm⟩)
        · exact .inr (.inl ht)
        · exact .inl rfl
        · exact .inr (.inr ⟨hb, hm⟩)
    · rw [or_and_of_disjoint hdisjoint, ← h.locks]
      exact BitVec.xor_zero
  | true =>
    have hlocking : L.bits item.button &&& L.locking ≠ 0 := by
      have := hfits.2 hgen
      rw [hlock, hfits.1] at this
      exact of_decide_eq_true this.symm
    have hkeys : L.replay kb (m.modifierStrokes true item mods) =
        ⟨kb.held, kb.locks ^^^ (L.bits item.button &&& L.locking)⟩ := by
      rw [KeyMap.modifierStrokes, if_pos hlock, if_neg (hduplex hlock), click_held _ _ _ (h.not_held hlocking)]
    rw [hkeys, ← hfits.1]
    refine ⟨hsound, h.plain, fun b => ?_, ?_⟩
    · rw [h.held b, mem_buttons_insert]
      have : b = item.button → L.bits b &&& L.locking ≠ 0 := fun e => e ▸ hlocking
      tauto
    · rw [h.locks]
      exact toggle_on (hoff hlock)

/-- The keyboard follows a modifier that goes out of effect. -/
theorem Agrees.unmodify (h : L.Agrees mods cur kb typed) (hfits : L.Fits item) (hgen : item.generates ≠ 0)
    (hduplex : item.lock = true → item.button ∉ m.m_halfDuplex)
    (hon : item.lock = true → cur &&& item.generates = item.generates) :
    L.Agrees (mods.erase item.generates) (cur &&& ~~~item.generates)
      (L.replay kb (m.modifierStrokes false item mods)) typed := by
  have hsound : L.Sound (mods.erase item.generates).entries (cur &&& ~~~item.generates) := h.sound.erase hfits
  have hbuttons : ∀ b, b ∈ ModifierToKeys.buttons (mods.erase item.generates) ↔
      ∃ e ∈ mods.entries, e.1 ≠ item.generates ∧ e.2.button = b := fun b => by
    simp [mem_buttons, BitVec.toNat_inj, and_assoc]
  cases hlock : item.lock with
  | false =>
    have hdisjoint : item.generates &&& L.locking = 0 := by
      have := hfits.2 hgen
      rw [hlock] at this
      simpa using this.symm
    obtain ⟨hheld, hlocks⟩ := replay_releases (L := L) kb (mods.equalRange item.generates)
    have hkeys : m.modifierStrokes false item mods =
        (mods.equalRange item.generates).map fun e => .button e.2.button false false e.2.client := by
      simp [KeyMap.modifierStrokes, hlock]
    rw [← hkeys] at hheld hlocks
    refine ⟨hsound, h.plain, fun b => ?_, ?_⟩
    · rw [hheld, h.held b, hbuttons, mem_buttons]
      simp only [Multimap.mem_equalRange, BitVec.toNat_inj]
      constructor
      · rintro ⟨ht | ⟨hb, e, he, rfl⟩, hnone⟩
        · exact .inl ht
        · exact .inr ⟨hb, e, he, fun heq => hnone e ⟨he, heq⟩ rfl, rfl⟩
      · rintro (ht | ⟨hb, e, he, hne, rfl⟩)
        · refine ⟨.inl ht, fun e he hbut => (h.sound.fits e he.1).2.1 ?_⟩
          rw [← (h.sound.fits e he.1).1, ← h.sound.bits_eq he.1, hbut, h.plain b ht]
        · refine ⟨.inr ⟨hb, e, he, rfl⟩, fun d hd hbut => hne ?_⟩
          rw [← hd.2, ← h.sound.bits_eq he, ← h.sound.bits_eq hd.1, hbut]
    · rw [hlocks, h.locks, diff_and_of_disjoint hdisjoint]
  | true =>
    have hlocking : L.bits item.button &&& L.locking ≠ 0 := by
      have := hfits.2 hgen
      rw [hlock, hfits.1] at this
      exact of_decide_eq_true this.symm
    have hkeys : L.replay kb (m.modifierStrokes false item mods) =
        ⟨kb.held, kb.locks ^^^ (L.bits item.button &&& L.locking)⟩ := by
      rw [KeyMap.modifierStrokes, if_pos hlock, if_neg (hduplex hlock), click_held _ _ _ (h.not_held hlocking)]
    rw [hkeys, ← hfits.1]
    refine ⟨hsound, h.plain, fun b => ?_, ?_⟩
    · rw [h.held b, hbuttons, mem_buttons]
      refine or_congr_right (and_congr_right fun hb => ⟨?_, ?_⟩)
      · rintro ⟨e, he, rfl⟩
        refine ⟨e, he, fun heq => hlocking ?_, rfl⟩
        rw [← hfits.1, ← heq, ← h.sound.bits_eq he, hb]
      · rintro ⟨e, he, -, rfl⟩
        exact ⟨e, he, rfl⟩
    · rw [h.locks]
      exact toggle_off (hon hlock)

end Agrees

end Layout
end Synergy
