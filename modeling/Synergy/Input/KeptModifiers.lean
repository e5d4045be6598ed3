import Mathlib.Data.List.Pairwise
import Synergy.Input.Keyboard

/-! Typing on a keyboard: the modifiers afterwards are those from before. -/
namespace Synergy
open Synergy.Lib
namespace Layout
variable {L : Layout} {m : KeyMap} {kb : Keyboard} {typed : Finset KeyButton} {st : ModifierState} {item : KeyItem}

/-- The items of the map are those of the layout. No locking modifier is half duplex, and no
modifier key depends on a locking modifier other than itself. -/
structure Covers (L : Layout) (m : KeyMap) : Prop where
  finished : m.Finished
  fits : ∀ item ∈ m.items, L.Fits item
  duplex : ∀ b ∈ m.m_halfDuplex, L.bits b &&& L.locking = 0
  free : ∀ item ∈ m.items, item.generates ≠ 0 → item.sensitive &&& ~~~item.generates &&& L.locking = 0

/-- The keyboard agrees with the state once it has had the keystrokes. -/
def Follows (L : Layout) (kb : Keyboard) (typed : Finset KeyButton) (st : ModifierState) : Prop :=
  L.Agrees st.activeModifiers st.currentState (L.replay kb st.keystrokes) typed

theorem Covers.not_duplex (hc : L.Covers m) (hfits : L.Fits item) (hgen : item.generates ≠ 0) :
    item.lock = true → item.button ∉ m.m_halfDuplex := by
  intro hlock hmem
  have h := hfits.2 hgen
  rw [hlock, hfits.1, hc.duplex _ hmem] at h
  simp at h

theorem Follows.modify (h : L.Follows kb typed st) (hc : L.Covers m) (hfits : L.Fits item) (hgen : item.generates ≠ 0)
    (hoff : item.lock = true → st.currentState &&& item.generates = 0) :
    L.Follows kb typed (m.addKeystrokes .modify item st) := by
  have hmod := Agrees.modify (m := m) h hfits hgen (hc.not_duplex hfits hgen) hoff
  rw [← replay_append] at hmod
  exact hmod

theorem Follows.unmodify (h : L.Follows kb typed st) (hc : L.Covers m) (hfits : L.Fits item)
    (hgen : item.generates ≠ 0) (hon : item.lock = true → st.currentState &&& item.generates = item.generates) :
    L.Follows kb typed (m.addKeystrokes .unmodify item st) := by
  have hmod := Agrees.unmodify (m := m) h hfits hgen (hc.not_duplex hfits hgen) hon
  rw [← replay_append] at hmod
  exact hmod

section Bits
variable {button : KeyButton} {group : Int} {bit : Nat}

private theorem Covers.generates_iff (hc : L.Covers m) (hbit : bit < kKeyModifierNumBits)
    (hkey : m.keyForModifier button group bit = some item) (k : Nat) :
    item.generates.getLsbD k = true ↔ k = bit := by
  obtain ⟨hmem, hgen⟩ := hc.finished hbit hkey
  refine ⟨fun hk => ?_, fun e => e ▸ hgen⟩
  have hbits := (hc.fits item hmem).1
  rw [hbits] at hk hgen
  exact L.single _ _ _ hk hgen

private theorem Covers.generates_ne_zero (hc : L.Covers m) (hbit : bit < kKeyModifierNumBits)
    (hkey : m.keyForModifier button group bit = some item) : item.generates ≠ 0 := by
  intro h
  have hgen := (hc.finished hbit hkey).2
  rw [h] at hgen
  simp at hgen

/-- A modifier key of a locking modifier. -/
private theorem Covers.locking_of_lock (hc : L.Covers m) (hbit : bit < kKeyModifierNumBits)
    (hkey : m.keyForModifier button group bit = some item) (hlock : item.lock = true) :
    L.locking.getLsbD bit = true := by
  have h := (hc.fits item (hc.finished hbit hkey).1).2 (hc.generates_ne_zero hbit hkey)
  rw [hlock] at h
  have hne : item.generates &&& L.locking ≠ 0 := of_decide_eq_true h.symm
  by_contra hnot
  refine hne (BitVec.eq_of_getLsbD_eq fun k _ => ?_)
  rw [BitVec.getLsbD_and]
  cases hk : item.generates.getLsbD k with
  | false => exact BitVec.getLsbD_zero.symm
  | true =>
    rw [(hc.generates_iff hbit hkey k).mp hk, Bool.eq_false_iff.mpr hnot]
    exact BitVec.getLsbD_zero.symm

/-- The modifiers that a modifier key has put right before it do not lock. -/
private theorem Covers.own_unlocked (hc : L.Covers m) (hbit : bit < kKeyModifierNumBits)
    (hkey : m.keyForModifier button group bit = some item) {k : Nat} (hk : L.locking.getLsbD k = true) :
    (KeyMap.ownSensitive item bit).getLsbD k = false := by
  have hfree := hc.free item (hc.finished hbit hkey).1 (hc.generates_ne_zero hbit hkey)
  have hk32 := BitVec.lt_of_getLsbD hk
  have hat : (item.sensitive &&& ~~~item.generates &&& L.locking).getLsbD k = false := by
    rw [hfree]
    exact BitVec.getLsbD_zero
  by_contra hset
  rw [Bool.not_eq_false, KeyMap.ownSensitive, BitVec.getLsbD_and, Bool.and_eq_true] at hset
  have hne : k ≠ bit := by
    rintro rfl
    simp [hk32] at hset
  have hgen : item.generates.getLsbD k = false := by
    rw [Bool.eq_false_iff]
    exact fun h => hne ((hc.generates_iff hbit hkey k).mp h)
  rw [BitVec.getLsbD_and, BitVec.getLsbD_and, BitVec.getLsbD_not, hset.1, hgen, hk, decide_eq_true hk32] at hat
  cases hat

private theorem getLsbD_diff {c g : KeyModifierMask} {k : Nat} (hg : g.getLsbD k = false) :
    (c &&& ~~~g).getLsbD k = c.getLsbD k := by
  rw [BitVec.getLsbD_and, BitVec.getLsbD_not, hg]
  by_cases hk : k < 32
  · simp [hk]
  · simp [BitVec.getLsbD_of_ge c k (not_lt.mp hk)]

end Bits

/-- The keyboard follows while modifiers are put right, and no locking modifier changes other than
those to flip. -/
theorem Follows.changeModifiers (hc : L.Covers m) (button : KeyButton) (group : Int)
    (notRequiredMask : KeyModifierMask) {bits : Nat} (hbits : bits ≤ kKeyModifierNumBits)
    (requiredState flipMask : KeyModifierMask) (st : ModifierState) (h : L.Follows kb typed st)
    (hwrong : ∀ k < bits, L.locking.getLsbD k = true → flipMask.getLsbD k = true →
      st.currentState.getLsbD k ≠ requiredState.getLsbD k) :
    L.Follows kb typed (m.changeModifiers button group notRequiredMask bits requiredState flipMask st).1 ∧
    ∀ k, L.locking.getLsbD k = true → flipMask.getLsbD k = false ∨ bits ≤ k →
      (m.changeModifiers button group notRequiredMask bits requiredState flipMask st).1.currentState.getLsbD k =
        st.currentState.getLsbD k := by
  induction bits generalizing requiredState flipMask st with
  | zero => exact ⟨h, fun _ _ _ => rfl⟩
  | succ bit ih =>
    have hbit : bit < kKeyModifierNumBits := hbits
    rcases m.changeModifiers_cases button group notRequiredMask bit requiredState flipMask st with
      heq | heq | ⟨item, hflip, hkey, hsens, hrest⟩
    · rw [heq]
      obtain ⟨hfollows, hkept⟩ := ih hbit.le requiredState flipMask st h fun k hk => hwrong k (by omega)
      exact ⟨hfollows, fun k hlock hk => hkept k hlock (hk.imp_right (by omega))⟩
    · rw [heq]
      exact ⟨h, fun _ _ _ => rfl⟩
    · have hown : L.Follows kb typed
            (m.changeOwn button group notRequiredMask bit (requiredState.getLsbD bit) item st).1 ∧
          ∀ k, L.locking.getLsbD k = true →
            (m.changeOwn button group notRequiredMask bit (requiredState.getLsbD bit) item st).1.currentState.getLsbD k =
              st.currentState.getLsbD k := by
        rw [KeyMap.changeOwn]
        split_ifs
        · have hunlocked : ∀ k, L.locking.getLsbD k = true →
              (KeyMap.flips st.currentState item.required (KeyMap.ownSensitive item bit) notRequiredMask).getLsbD k =
                false := fun k hk => by
            simp [KeyMap.flips, hc.own_unlocked hbit hkey hk]
          obtain ⟨hfollows, hkept⟩ := ih hbit.le item.required _ st h fun k _ hk hset => by
            rw [hunlocked k hk] at hset
            cases hset
          exact ⟨hfollows, fun k hk => hkept k hk (.inl (hunlocked k hk))⟩
        · exact ⟨h, fun _ _ => rfl⟩
      generalize m.changeOwn button group notRequiredMask bit (requiredState.getLsbD bit) item st = r at hown hrest
      obtain ⟨hfollows, hkept⟩ := hown
      rcases hrest with heq | heq <;> rw [heq]
      · exact ⟨hfollows, fun k hk _ => hkept k hk⟩
      · have hfits := hc.fits item (hc.finished hbit hkey).1
        have hgen := hc.generates_ne_zero hbit hkey
        have hat : item.lock = true → r.1.currentState.getLsbD bit ≠ requiredState.getLsbD bit := fun hlock => by
          rw [hkept bit (hc.locking_of_lock hbit hkey hlock)]
          exact hwrong bit (Nat.lt_succ_self bit) (hc.locking_of_lock hbit hkey hlock) hflip
        have hstep : L.Follows kb typed
              (m.addKeystrokes (if requiredState.getLsbD bit then .modify else .unmodify) item r.1) ∧
            ∀ k, k ≠ bit →
              (m.addKeystrokes (if requiredState.getLsbD bit then .modify else .unmodify) item r.1).currentState.getLsbD k
                = r.1.currentState.getLsbD k := by
          have hclear : ∀ k, k ≠ bit → item.generates.getLsbD k = false := fun k hk =>
            Bool.eq_false_iff.mpr fun hset => hk ((hc.generates_iff hbit hkey k).mp hset)
          cases hreq : requiredState.getLsbD bit with
          | true =>
            refine ⟨hfollows.modify hc hfits hgen fun hlock => ?_, fun k hk => ?_⟩
            · refine BitVec.eq_of_getLsbD_eq fun k _ => ?_
              by_cases hk : k = bit
              · have := hat hlock
                rw [hreq] at this
                simp [hk, this]
              · simp [hclear k hk]
            · simp [KeyMap.addKeystrokes, ModifierState.activate, ModifierState.emit, hclear k hk]
          | false =>
            refine ⟨hfollows.unmodify hc hfits hgen fun hlock => ?_, fun k hk => ?_⟩
            · refine BitVec.eq_of_getLsbD_eq fun k _ => ?_
              by_cases hk : k = bit
              · have := hat hlock
                rw [hreq] at this
                simp [hk, this]
              · simp [hclear k hk]
            · exact getLsbD_diff (hclear k hk)
        obtain ⟨hfollows', hkept'⟩ := hstep
        obtain ⟨hfinal, hlast⟩ := ih hbit.le requiredState flipMask _ hfollows' fun k hk hlock hset => by
          rw [hkept' k hk.ne, hkept k hlock]
          exact hwrong k (by omega) hlock hset
        refine ⟨hfinal, fun k hlock hk => ?_⟩
        have hne : k ≠ bit := by
          rintro rfl
          rcases hk with hk | hk
          · rw [hflip] at hk
            cases hk
          · omega
        rw [hlast k hlock (hk.imp_right (by omega)), hkept' k hne, hkept k hlock]

theorem Follows.keysForModifierState (h : L.Follows kb typed st) (hc : L.Covers m) (button : KeyButton) (group : Int)
    (requiredState sensitiveMask notRequiredMask : KeyModifierMask) :
    L.Follows kb typed
      (m.keysForModifierState button group requiredState sensitiveMask notRequiredMask st).1 :=
  (Follows.changeModifiers hc button group notRequiredMask le_rfl requiredState _ st h
    fun _ _ _ hk => KeyMap.flips_getLsbD_ne hk).1

theorem Follows.modifiersForItem (h : L.Follows kb typed st) (hc : L.Covers m) (keyItem : KeyItem) (group : Int)
    (desiredState overrideModifiers : KeyModifierMask) :
    L.Follows kb typed (m.modifiersForItem keyItem group desiredState overrideModifiers st).1 := by
  rw [KeyMap.modifiersForItem]
  dsimp only
  split_ifs
  · exact h.keysForModifierState hc ..
  · exact h.keysForModifierState hc ..
  · exact (h.keysForModifierState hc ..).keysForModifierState hc ..

theorem follows_emit {keys : List Keystroke}
    (hkeys : L.Agrees st.activeModifiers st.currentState (L.replay (L.replay kb st.keystrokes) keys) typed) :
    L.Follows kb typed (st.emit keys) := by
  rw [← replay_append] at hkeys
  exact hkeys

/-- A button without a modifier is held from its press on. -/
private theorem Agrees.press_plain {mods : ModifierToKeys} {cur : KeyModifierMask} {kb : Keyboard} {b : KeyButton}
    (h : L.Agrees mods cur kb ∅) (hb : L.bits b = 0) : L.Agrees mods cur ⟨insert b kb.held, kb.locks⟩ {b} := by
  refine ⟨h.sound, fun c hc => ?_, fun c => ?_, h.locks⟩
  · rw [Finset.mem_singleton] at hc
    rw [hc, hb]
  · rw [Finset.mem_insert, h.held c, Finset.mem_singleton]
    simp

private theorem Agrees.not_held_plain {mods : ModifierToKeys} {cur : KeyModifierMask} {kb : Keyboard} {b : KeyButton}
    (h : L.Agrees mods cur kb ∅) (hb : L.bits b = 0) : b ∉ kb.held := by
  rw [h.held b, mem_buttons]
  rintro (hempty | ⟨-, e, he, rfl⟩)
  · simp at hempty
  · obtain ⟨hkey, hne, -⟩ := h.sound.fits e he
    rw [h.sound.bits_eq he, hkey] at hb
    exact hne hb

private theorem stroke_press_plain (kb : Keyboard) {b : KeyButton} (hb : L.bits b = 0) (autorepeat : Bool)
    (client : Nat) : L.stroke kb (.button b true autorepeat client) = ⟨insert b kb.held, kb.locks⟩ := by
  have hlocks : kb.locks ^^^ (L.bits b &&& L.locking) = kb.locks := by simp [hb]
  rw [stroke, hlocks]

private theorem stroke_release_absent {kb : Keyboard} {b : KeyButton} (hb : b ∉ kb.held) (autorepeat : Bool)
    (client : Nat) : L.stroke kb (.button b false autorepeat client) = kb := by
  rw [stroke, Finset.erase_eq_of_notMem hb]

/-- The buttons that a typed item leaves held: a dead key is let go, and not every platform repeats. -/
def typedButtons (m : KeyMap) (item : KeyItem) (isAutoRepeat : Bool) : Finset KeyButton :=
  if item.dead || (isAutoRepeat && m.platform = .other) then ∅ else {item.button}

theorem Follows.itemStroke (h : L.Follows kb ∅ st) (hfits : L.Fits item) (hgen : item.generates = 0)
    (isAutoRepeat : Bool) :
    L.Follows kb (typedButtons m item isAutoRepeat)
      (m.addKeystrokes (KeyMap.itemStroke item isAutoRepeat) item st) := by
  have hbits : L.bits item.button = 0 := by rw [← hfits.1, hgen]
  have hnot : item.button ∉ (L.replay kb st.keystrokes).held := h.not_held_plain hbits
  have hpress := h.press_plain hbits
  cases hdead : item.dead with
  | true =>
    -- a click leaves the keyboard as it is
    rw [typedButtons, KeyMap.itemStroke, hdead, if_pos rfl, if_pos (by simp)]
    refine follows_emit ?_
    rw [replay, List.foldl_cons, List.foldl_cons, List.foldl_nil, stroke_press_plain _ hbits]
    simp only [stroke, Finset.erase_insert hnot]
    exact h
  | false =>
    cases isAutoRepeat with
    | false =>
      simp only [typedButtons, KeyMap.itemStroke, hdead, KeyMap.addKeystrokes, hgen, if_true, Bool.false_and,
        Bool.or_false, Bool.false_eq_true, if_false]
      refine follows_emit ?_
      rwa [replay, List.foldl_cons, List.foldl_nil, stroke_press_plain _ hbits]
    | true =>
      simp only [typedButtons, KeyMap.itemStroke, hdead, KeyMap.addKeystrokes, Bool.true_and, Bool.false_or,
        Bool.false_eq_true, if_true, if_false]
      cases m.platform with
      | windows =>
        refine follows_emit ?_
        rwa [replay, List.foldl_cons, List.foldl_cons, List.foldl_nil, stroke_release_absent hnot,
          stroke_press_plain _ hbits]
      | mac =>
        refine follows_emit ?_
        rwa [replay, List.foldl_cons, List.foldl_nil, stroke_press_plain _ hbits]
      | other => exact h

theorem Follows.keysForKeyItem (h : L.Follows kb ∅ st) (hc : L.Covers m) (hfits : L.Fits item)
    (hgen : item.generates = 0) (group : Int) (desiredState overrideModifiers : KeyModifierMask) (isAutoRepeat : Bool)
    (lang : Str) (hok : (m.keysForKeyItem item group desiredState overrideModifiers isAutoRepeat lang st).2.2 = true) :
    L.Follows kb (typedButtons m item isAutoRepeat)
      (m.keysForKeyItem item group desiredState overrideModifiers isAutoRepeat lang st).2.1 := by
  have hgroup : L.Follows kb ∅
      (if group ≠ item.group then m.addGroupToKeystroke item.group lang st else (group, st)).2 := by
    split_ifs
    · exact follows_emit h
    · exact h
  rw [KeyMap.keysForKeyItem] at hok ⊢
  generalize (if group ≠ item.group then m.addGroupToKeystroke item.group lang st else (group, st)) = g at hgroup hok ⊢
  by_cases hr : (m.modifiersForItem item g.1 desiredState overrideModifiers g.2).2 = true
  swap
  · rw [if_neg hr] at hok
    cases hok
  rw [if_pos hr]
  exact (hgroup.modifiersForItem hc ..).itemStroke hfits hgen isAutoRepeat

/-- Of an entry, the last item is typed; those before it are dead keys. -/
theorem Follows.keysForItems (hc : L.Covers m) (desiredMask overrideModifiers : KeyModifierMask)
    (isAutoRepeat : Bool) (lang : Str) {keyItem : KeyItem} (items : KeyItemList) (group : Int) (st : ModifierState)
    (h : L.Follows kb ∅ st) (hlast : items.getLast? = some keyItem)
    (hitems : ∀ item ∈ items, L.Fits item ∧ item.generates = 0) (hdead : ∀ item ∈ items.dropLast, item.dead = true)
    (hok : (m.keysForItems desiredMask overrideModifiers isAutoRepeat lang items group st).2 = true) :
    L.Follows kb (typedButtons m keyItem isAutoRepeat)
      (m.keysForItems desiredMask overrideModifiers isAutoRepeat lang items group st).1 := by
  induction items generalizing group st with
  | nil => cases hlast
  | cons item items ih =>
    obtain ⟨hfits, hgen⟩ := hitems item List.mem_cons_self
    rw [KeyMap.keysForItems] at hok ⊢
    by_cases hr : (m.keysForKeyItem item group desiredMask overrideModifiers isAutoRepeat lang st).2.2 = true
    · rw [if_pos hr] at hok ⊢
      have hitem := h.keysForKeyItem hc hfits hgen group desiredMask overrideModifiers isAutoRepeat lang hr
      cases items with
      | nil =>
        obtain rfl : item = keyItem := by simpa using hlast
        exact hitem
      | cons next rest =>
        have hnone : typedButtons m item isAutoRepeat = ∅ := by
          simp [typedButtons, hdead item (by simp)]
        rw [hnone] at hitem
        refine ih _ _ hitem (by simpa using hlast) (fun i hi => hitems i (List.mem_cons_of_mem _ hi)) (fun i hi => ?_) hok
        exact hdead i (by rw [List.dropLast_cons_cons]; exact List.mem_cons_of_mem _ hi)
    · rw [if_neg hr] at hok
      exact absurd hok hr

section Restore
variable {pre l : List (KeyModifierMask × KeyItem)} {e : KeyModifierMask × KeyItem}

/-- The entries, the mask and the locks agree, whatever is held. -/
structure Tracks (L : Layout) (kb : Keyboard) (es : List (KeyModifierMask × KeyItem)) (st : ModifierState) : Prop where
  entries : st.activeModifiers.entries = es
  sound : L.Sound es st.currentState
  locks : (L.replay kb st.keystrokes).locks = st.currentState &&& L.locking

/-- The key of a modifier that does not lock is released. -/
private theorem Tracks.release (h : L.Tracks kb (pre ++ e :: l) st) (hlock : e.2.lock = false)
    (hpre : ∀ d ∈ pre, d.2.button ≠ e.2.button) :
    L.Tracks kb (pre ++ l) (m.addKeystrokes .release e.2 st) ∧
      (L.replay kb (m.addKeystrokes .release e.2 st).keystrokes).held =
        (L.replay kb st.keystrokes).held.erase e.2.button := by
  obtain ⟨hkey, hgen, hfits⟩ := h.sound.fits e (by simp)
  have hdisjoint : e.2.generates &&& L.locking = 0 := by
    have := hfits.2 hgen
    rw [hlock] at this
    simpa using this.symm
  have hst : m.addKeystrokes .release e.2 st =
      (st.emit [.button e.2.button false false e.2.client]).dropButton e.2.generates e.2.button :=
    if_pos (by rw [hlock, decide_eq_true hgen]; rfl)
  have hentries : (st.activeModifiers.eraseFirst e.2.generates (·.button = e.2.button)).entries = pre ++ l := by
    change st.activeModifiers.entries.eraseP _ = _
    rw [h.entries, List.eraseP_append_right, List.eraseP_cons_of_pos]
    · simp [hkey]
    · intro d hd
      simp [hpre d hd]
  have hcontains : (st.activeModifiers.eraseFirst e.2.generates (·.button = e.2.button)).contains e.2.generates = true ↔
      ∃ d ∈ pre ++ l, d.1 = e.2.generates := by
    rw [Multimap.contains_iff, hentries]
    simp only [BitVec.toNat_inj]
  have hkept : (∃ d ∈ pre ++ l, d.1 = e.2.generates) →
      (m.addKeystrokes .release e.2 st).currentState = st.currentState := fun hother => by
    rw [hst]
    exact if_pos (hcontains.mpr hother)
  have hgone : (¬ ∃ d ∈ pre ++ l, d.1 = e.2.generates) →
      (m.addKeystrokes .release e.2 st).currentState = st.currentState &&& ~~~e.2.generates := fun hother => by
    rw [hst]
    exact if_neg fun hc => hother (hcontains.mp hc)
  have hkeys : (m.addKeystrokes .release e.2 st).keystrokes =
      st.keystrokes ++ [.button e.2.button false false e.2.client] := by rw [hst]; rfl
  have hactive : (m.addKeystrokes .release e.2 st).activeModifiers.entries = pre ++ l := by rw [hst]; exact hentries
  refine ⟨⟨hactive, ⟨fun d hd => h.sound.fits d ?_, h.sound.alone.sublist (by simp), fun k => ?_⟩, ?_⟩, ?_⟩
  · exact (List.Sublist.append_left (List.sublist_cons_self e l) pre).subset hd
  · -- the mask loses the modifier exactly when no other key is down for it
    have hunion := h.sound.union k
    by_cases hother : ∃ d ∈ pre ++ l, d.1 = e.2.generates
    · rw [hkept hother, hunion]
      obtain ⟨d, hd, hdkey⟩ := hother
      constructor
      · rintro ⟨c, hc, hk⟩
        rcases List.mem_append.mp hc with hc | hc
        · exact ⟨c, List.mem_append_left _ hc, hk⟩
        · rcases List.mem_cons.mp hc with rfl | hc
          · exact ⟨d, hd, by rwa [hdkey, ← hkey]⟩
          · exact ⟨c, List.mem_append_right _ hc, hk⟩
      · rintro ⟨c, hc, hk⟩
        exact ⟨c, (List.Sublist.append_left (List.sublist_cons_self e l) pre).subset hc, hk⟩
    · rw [hgone hother, BitVec.getLsbD_and, Bool.and_eq_true, hunion]
      constructor
      · rintro ⟨⟨c, hc, hk⟩, hnot⟩
        refine ⟨c, ?_, hk⟩
        rcases List.mem_append.mp hc with hc | hc
        · exact List.mem_append_left _ hc
        · rcases List.mem_cons.mp hc with rfl | hc
          · rw [hkey] at hk
            simp [hk] at hnot
          · exact List.mem_append_right _ hc
      · rintro ⟨c, hc, hk⟩
        have hcold := (List.Sublist.append_left (List.sublist_cons_self e l) pre).subset hc
        refine ⟨⟨c, hcold, hk⟩, ?_⟩
        have hclear : e.2.generates.getLsbD k = false := by
          by_contra hset
          have heq := h.sound.key_eq hcold hk (b := e.2.button) (by rw [← hfits.1]; simpa using hset)
          exact hother ⟨c, hc, by rw [heq, hfits.1]⟩
        rw [BitVec.getLsbD_not, hclear, decide_eq_true (BitVec.lt_of_getLsbD hk)]
        rfl
  · have hlocks : (L.replay kb (m.addKeystrokes .release e.2 st).keystrokes).locks = st.currentState &&& L.locking := by
      rw [hkeys, replay_append]
      exact h.locks
    rw [hlocks]
    by_cases hother : ∃ d ∈ pre ++ l, d.1 = e.2.generates
    · rw [hkept hother]
    · rw [hgone hother, diff_and_of_disjoint hdisjoint]
  · rw [hkeys, replay_append]
    rfl

/-- A locking modifier is clicked off. -/
private theorem Tracks.unmodify (h : L.Tracks kb (pre ++ e :: l) st) (hc : L.Covers m) (hlock : e.2.lock = true) :
    L.Tracks kb (pre ++ l) (m.addKeystrokes .unmodify e.2 st) ∧
      (L.replay kb (m.addKeystrokes .unmodify e.2 st).keystrokes).held =
        (L.replay kb st.keystrokes).held.erase e.2.button := by
  obtain ⟨hkey, hgen, hfits⟩ := h.sound.fits e (by simp)
  have hlocking : e.2.generates &&& L.locking ≠ 0 := by
    have := hfits.2 hgen
    rw [hlock] at this
    exact of_decide_eq_true this.symm
  have hkeys : L.replay kb (m.addKeystrokes .unmodify e.2 st).keystrokes =
      ⟨(L.replay kb st.keystrokes).held.erase e.2.button,
        (L.replay kb st.keystrokes).locks ^^^ (L.bits e.2.button &&& L.locking)⟩ := by
    have hstrokes : m.modifierStrokes false e.2 st.activeModifiers =
        [.button e.2.button true false e.2.client, .button e.2.button false false e.2.client] := by
      rw [KeyMap.modifierStrokes, if_pos hlock, if_neg (hc.not_duplex hfits hgen hlock)]
    simp only [KeyMap.addKeystrokes, ModifierState.deactivate, ModifierState.emit, hstrokes, replay_append]
    simp [replay, stroke, Finset.erase_insert_eq_erase]
  -- no other entry is under the modifier
  have hother : ∀ d ∈ pre ++ l, d.1 ≠ e.2.generates := by
    intro d hd heq
    have halone := h.sound.alone
    rw [List.pairwise_append, List.pairwise_cons] at halone
    rcases List.mem_append.mp hd with hd | hd
    · exact hlocking (heq ▸ halone.2.2 d hd e List.mem_cons_self (heq.trans hkey.symm))
    · exact hlocking (hkey ▸ halone.2.1.1 d hd (hkey.trans heq.symm))
  have hfilter : (pre ++ e :: l).filter (fun d => d.1.toNat ≠ e.2.generates.toNat) = pre ++ l := by
    have hself : ∀ es : List (KeyModifierMask × KeyItem), (∀ d ∈ es, d.1 ≠ e.2.generates) →
        es.filter (fun d => d.1.toNat ≠ e.2.generates.toNat) = es := fun es hes =>
      List.filter_eq_self.mpr fun d hd => by simpa [BitVec.toNat_inj] using hes d hd
    rw [List.filter_append, List.filter_cons_of_neg (by simp [hkey]), hself pre fun d hd => hother d (by simp [hd]),
      hself l fun d hd => hother d (by simp [hd])]
  have hsound := h.sound.erase hfits
  rw [hfilter] at hsound
  refine ⟨⟨?_, hsound, ?_⟩, ?_⟩
  · rw [← hfilter, ← h.entries]
    rfl
  · rw [hkeys, h.locks, ← hfits.1]
    refine toggle_off (BitVec.eq_of_getLsbD_eq fun k _ => ?_)
    cases hk : e.2.generates.getLsbD k with
    | false => rw [BitVec.getLsbD_and, hk, Bool.and_false]
    | true => rw [BitVec.getLsbD_and, hk, (h.sound.union k).mpr ⟨e, by simp, hkey ▸ hk⟩, Bool.true_and]
  · rw [hkeys]

/-- Of the entries, those with a wanted button stay. -/
theorem Tracks.releaseUnwanted (hc : L.Covers m) (button : KeyButton) (wanted : List KeyButton)
    (l pre : List (KeyModifierMask × KeyItem)) (st : ModifierState) (h : L.Tracks kb (pre ++ l) st)
    (hbutton : ∀ e ∈ l, e.2.button ≠ button) (hpre : ∀ e ∈ pre, e.2.button ∈ wanted) :
    L.Tracks kb (pre ++ l.filter fun e => e.2.button ∈ wanted) (m.releaseUnwanted button wanted l st) ∧
      ∀ b, b ∈ (L.replay kb (m.releaseUnwanted button wanted l st).keystrokes).held ↔
        b ∈ (L.replay kb st.keystrokes).held ∧ ∀ e ∈ l, e.2.button = b → b ∈ wanted := by
  induction l generalizing pre st with
  | nil => exact ⟨by simpa [KeyMap.releaseUnwanted] using h, by simp [KeyMap.releaseUnwanted]⟩
  | cons e l ih =>
    have hne : e.2.button ≠ button := hbutton e List.mem_cons_self
    have hrest : ∀ d ∈ l, d.2.button ≠ button := fun d hd => hbutton d (List.mem_cons_of_mem _ hd)
    rw [KeyMap.releaseUnwanted]
    by_cases hw : e.2.button ∈ wanted
    · obtain ⟨htracks, hheld⟩ := ih (pre ++ [e]) st (by simpa using h) hrest fun d hd => by
        rcases List.mem_append.mp hd with hd | hd
        · exact hpre d hd
        · rwa [List.mem_singleton.mp hd]
      rw [if_neg (by simp [hw]), List.filter_cons_of_pos (by simpa using hw)]
      refine ⟨by simpa using htracks, fun b => ?_⟩
      rw [hheld b, List.forall_mem_cons]
      have : e.2.button = b → b ∈ wanted := fun he => he ▸ hw
      tauto
    · have hpre' : ∀ d ∈ pre, d.2.button ≠ e.2.button := fun d hd heq => hw (heq ▸ hpre d hd)
      have hstep : L.Tracks kb (pre ++ l) (m.addKeystrokes (if e.2.lock then .unmodify else .release) e.2 st) ∧
          (L.replay kb (m.addKeystrokes (if e.2.lock then .unmodify else .release) e.2 st).keystrokes).held =
            (L.replay kb st.keystrokes).held.erase e.2.button := by
        cases hlock : e.2.lock with
        | true => exact h.unmodify hc hlock
        | false => exact h.release hlock hpre'
      obtain ⟨htracks, hheld⟩ := ih pre _ hstep.1 hrest hpre
      rw [if_pos (by simp [hw, hne]), List.filter_cons_of_neg (by simpa using hw)]
      refine ⟨htracks, fun b => ?_⟩
      rw [hheld b, hstep.2, Finset.mem_erase, List.forall_mem_cons]
      constructor
      · rintro ⟨⟨hb, hmem⟩, hall⟩
        exact ⟨hmem, fun he => absurd he.symm hb, hall⟩
      · rintro ⟨hmem, he, hall⟩
        exact ⟨⟨fun hb => hw (hb ▸ he hb.symm), hmem⟩, hall⟩

private theorem press_eq_modify (m : KeyMap) (st : ModifierState) (hgen : item.generates ≠ 0)
    (hlock : item.lock = false) : m.addKeystrokes .press item st = m.addKeystrokes .modify item st := by
  have hstrokes : m.modifierStrokes true item st.activeModifiers =
      [.button item.button true false item.client] := by
    simp [KeyMap.modifierStrokes, hlock]
  rw [KeyMap.addKeystrokes, KeyMap.addKeystrokes, hstrokes]
  exact (if_neg hgen).trans (if_pos (by simp [hlock]))

/-- The keys that are wanted and not down are in effect again. -/
theorem Follows.pressWanted (hc : L.Covers m) (button : KeyButton) (down : List KeyButton)
    (l : List (KeyModifierMask × KeyItem)) (st : ModifierState) (h : L.Follows kb typed st)
    (hfits : ∀ e ∈ l, e.1 = e.2.generates ∧ e.2.generates ≠ 0 ∧ L.Fits e.2)
    (halone : l.Pairwise fun a b => a.1 = b.1 → a.1 &&& L.locking = 0) (hbutton : ∀ e ∈ l, e.2.button ≠ button)
    (hfresh : ∀ d ∈ l, d.1 &&& L.locking ≠ 0 → d.2.button ∉ down → ∀ e ∈ st.activeModifiers.entries, e.1 ≠ d.1) :
    L.Follows kb typed (m.pressWanted button down l st) ∧
      ∀ b, b ∈ (m.pressWanted button down l st).activeModifiers.buttons ↔
        b ∈ st.activeModifiers.buttons ∨ ∃ d ∈ l, d.2.button = b ∧ b ∉ down := by
  induction l generalizing st with
  | nil => exact ⟨h, by simp [KeyMap.pressWanted]⟩
  | cons e l ih =>
    obtain ⟨⟨hkey, hgen, hitem⟩, hfits'⟩ := List.forall_mem_cons.mp hfits
    obtain ⟨hne, hbutton'⟩ := List.forall_mem_cons.mp hbutton
    obtain ⟨hfirst, halone'⟩ := List.pairwise_cons.mp halone
    obtain ⟨hoff, hfresh'⟩ := List.forall_mem_cons.mp hfresh
    rw [KeyMap.pressWanted]
    by_cases hd : e.2.button ∈ down
    · obtain ⟨hfollows, hbuttons⟩ := ih st h hfits' halone' hbutton' hfresh'
      rw [if_neg (by simp [hd])]
      refine ⟨hfollows, fun b => ?_⟩
      rw [hbuttons b, List.exists_mem_cons_iff]
      have : e.2.button = b → b ∈ down := fun he => he ▸ hd
      tauto
    · have hmodify : m.addKeystrokes (if e.2.lock then .modify else .press) e.2 st =
          m.addKeystrokes .modify e.2 st := by
        cases hlock : e.2.lock with
        | true => rfl
        | false => exact press_eq_modify m st hgen hlock
      have hstep : L.Follows kb typed (m.addKeystrokes .modify e.2 st) := by
        refine h.modify hc hitem hgen fun hlock => ?_
        have hlocking : e.1 &&& L.locking ≠ 0 := by
          have := hitem.2 hgen
          rw [hlock, ← hkey] at this
          exact of_decide_eq_true this.symm
        refine BitVec.eq_of_getLsbD_eq fun k _ => ?_
        have hbit : st.currentState.getLsbD k = true → e.2.generates.getLsbD k = true → False := fun hcur hk => by
          obtain ⟨c, hcm, hck⟩ := (h.sound.union k).mp hcur
          exact hoff hlocking hd c hcm (by rw [h.sound.key_eq hcm hck (hitem.1 ▸ hk), hkey, hitem.1])
        rw [BitVec.getLsbD_and]
        cases hcur : st.currentState.getLsbD k with
        | false => exact BitVec.getLsbD_zero.symm
        | true =>
          cases hk : e.2.generates.getLsbD k with
          | false => exact BitVec.getLsbD_zero.symm
          | true => exact (hbit hcur hk).elim
      rw [if_pos (by simp [hd, hne]), hmodify]
      obtain ⟨hfollows, hbuttons⟩ := ih _ hstep hfits' halone' hbutton' fun d hdl hlock hdown c hcm => by
        rcases (Multimap.mem_insert _ _ _ _).mp hcm with rfl | hcm
        · -- a locking modifier has one entry
          intro heq
          exact hlock (heq ▸ hkey ▸ hfirst d hdl (hkey.trans heq))
        · exact hfresh' d hdl hlock hdown c hcm
      refine ⟨hfollows, fun b => ?_⟩
      have hinsert : b ∈ (m.addKeystrokes .modify e.2 st).activeModifiers.buttons ↔
          b = e.2.button ∨ b ∈ st.activeModifiers.buttons := mem_buttons_insert ..
      rw [hbuttons b, hinsert, List.exists_mem_cons_iff]
      constructor
      · rintro ((rfl | hb) | hb)
        · exact .inr (.inl ⟨rfl, hd⟩)
        · exact .inl hb
        · exact .inr (.inr hb)
      · rintro (hb | ⟨rfl, -⟩ | hb)
        · exact .inl (.inr hb)
        · exact .inl (.inl rfl)
        · exact .inr hb

end Restore

/-- The keyboard that agrees with the modifiers while nothing is typed. -/
def keyboard (L : Layout) (mods : ModifierToKeys) (currentState : KeyModifierMask) : Keyboard :=
  ⟨(mods.buttons.filter fun b => L.bits b &&& L.locking = 0).toFinset, currentState &&& L.locking⟩

theorem Sound.agrees {mods : ModifierToKeys} {cur : KeyModifierMask} (h : L.Sound mods.entries cur) :
    L.Agrees mods cur (L.keyboard mods cur) ∅ where
  sound := h
  plain b hb := by simp at hb
  held b := by simp [keyboard, and_comm]
  locks := rfl

/-- After typing the modifiers are as before, and so is the keyboard apart from what was typed. -/
structure Restored (L : Layout) (mods : ModifierToKeys) (cur : KeyModifierMask) (typed : Finset KeyButton)
    (st : ModifierState) : Prop where
  buttons : ∀ b, b ∈ st.activeModifiers.buttons ↔ b ∈ mods.buttons
  currentState : st.currentState = cur
  held : (L.replay (L.keyboard mods cur) st.keystrokes).held = (L.keyboard mods cur).held ∪ typed
  locks : (L.replay (L.keyboard mods cur) st.keystrokes).locks = (L.keyboard mods cur).locks

/-- The mask is that of the buttons. -/
private theorem Sound.mask_eq {es es' : List (KeyModifierMask × KeyItem)} {cur cur' : KeyModifierMask}
    (h : L.Sound es cur) (h' : L.Sound es' cur')
    (hb : ∀ b, (∃ e ∈ es, e.2.button = b) ↔ ∃ e ∈ es', e.2.button = b) : cur = cur' := by
  refine BitVec.eq_of_getLsbD_eq fun k _ => ?_
  rw [Bool.eq_iff_iff, h.union k, h'.union k]
  constructor
  · rintro ⟨e, he, hk⟩
    obtain ⟨d, hd, hbut⟩ := (hb e.2.button).mp ⟨e, he, rfl⟩
    exact ⟨d, hd, by rwa [← h'.bits_eq hd, hbut, h.bits_eq he]⟩
  · rintro ⟨e, he, hk⟩
    obtain ⟨d, hd, hbut⟩ := (hb e.2.button).mpr ⟨e, he, rfl⟩
    exact ⟨d, hd, by rwa [← h.bits_eq hd, hbut, h'.bits_eq he]⟩

/-- Once an item is typed, putting the modifier keys back restores the modifiers. -/
theorem Follows.restored (hc : L.Covers m) {mods : ModifierToKeys} {cur : KeyModifierMask}
    (hsound : L.Sound mods.entries cur) (h : L.Follows (L.keyboard mods cur) typed st) (hitem : L.Fits item)
    (hgen : item.generates = 0) : L.Restored mods cur typed (m.keysToRestoreModifiers item mods st) := by
  have hplain : L.bits item.button = 0 := by rw [← hitem.1, hgen]
  have hbutton : ∀ {es : List (KeyModifierMask × KeyItem)} {c : KeyModifierMask}, L.Sound es c →
      ∀ e ∈ es, e.2.button ≠ item.button := fun hs e he heq => by
    obtain ⟨hkey, hne, -⟩ := hs.fits e he
    rw [← heq, hs.bits_eq he, hkey] at hplain
    exact hne hplain
  have hstart : L.Tracks (L.keyboard mods cur) ([] ++ st.activeModifiers.entries) st := ⟨rfl, h.sound, h.locks⟩
  obtain ⟨htracks, hheld⟩ := Tracks.releaseUnwanted hc item.button mods.buttons st.activeModifiers.entries [] st hstart
    (hbutton h.sound) (by simp)
  generalize hreleased : m.releaseUnwanted item.button mods.buttons st.activeModifiers.entries st = st1 at htracks hheld
  rw [List.nil_append] at htracks
  have hdown : ∀ e ∈ st1.activeModifiers.entries,
      e ∈ st.activeModifiers.entries ∧ e.2.button ∈ mods.buttons := fun e he => by
    rw [htracks.entries] at he
    simpa using List.mem_filter.mp he
  have hbuttons1 : ∀ b, b ∈ st1.activeModifiers.buttons ↔ b ∈ st.activeModifiers.buttons ∧ b ∈ mods.buttons := by
    intro b
    rw [mem_buttons, mem_buttons, htracks.entries]
    constructor
    · rintro ⟨e, he, rfl⟩
      obtain ⟨he, hw⟩ := List.mem_filter.mp he
      exact ⟨⟨e, he, rfl⟩, by simpa using hw⟩
    · rintro ⟨⟨e, he, rfl⟩, hw⟩
      exact ⟨e, List.mem_filter.mpr ⟨he, by simpa using hw⟩, rfl⟩
  have hfollows1 : L.Follows (L.keyboard mods cur) typed st1 := by
    refine ⟨htracks.entries ▸ htracks.sound, h.plain, fun b => ?_, htracks.locks⟩
    rw [hheld b, h.held b, hbuttons1 b]
    have hall : (∀ e ∈ st.activeModifiers.entries, e.2.button = b → b ∈ mods.buttons) ↔
        (b ∈ st.activeModifiers.buttons → b ∈ mods.buttons) := by
      rw [mem_buttons st.activeModifiers]
      exact ⟨fun hh ⟨e, he, hb⟩ => hh e he hb, fun hh e he hb => hh ⟨e, he, hb⟩⟩
    have htyped : b ∈ typed → b ∉ st.activeModifiers.buttons := fun hb hmem => by
      obtain ⟨e, he, rfl⟩ := (mem_buttons _ _).mp hmem
      obtain ⟨hkey, hne, -⟩ := h.sound.fits e he
      have := h.plain _ hb
      rw [h.sound.bits_eq he, hkey] at this
      exact hne this
    rw [hall]
    tauto
  obtain ⟨hfollows, hbuttons⟩ := Follows.pressWanted hc item.button st.activeModifiers.buttons mods.entries st1 hfollows1
    hsound.fits hsound.alone (hbutton hsound) fun d hd hlock hnot e he heq => by
      -- the button of the entry that stayed is wanted for the same modifier
      obtain ⟨heold, hw⟩ := hdown e he
      obtain ⟨d', hd', hbut⟩ := (mem_buttons _ _).mp hw
      have hkey' : d'.1 = d.1 := by rw [← hsound.bits_eq hd', hbut, h.sound.bits_eq heold, heq]
      have hne : d' ≠ d := fun heqd => hnot ((mem_buttons _ _).mpr ⟨e, heold, by rw [← hbut, heqd]⟩)
      have : Std.Symm fun a b : KeyModifierMask × KeyItem => a.1 = b.1 → a.1 &&& L.locking = 0 := ⟨alone_symmetric L⟩
      exact hlock (hkey' ▸ hsound.alone.forall hd' hd hne hkey')
  have hsame : ∀ b, b ∈ (m.keysToRestoreModifiers item mods st).activeModifiers.buttons ↔ b ∈ mods.buttons := by
    intro b
    rw [KeyMap.keysToRestoreModifiers, hreleased, hbuttons b, hbuttons1 b]
    have hmods : (∃ d ∈ mods.entries, d.2.button = b ∧ b ∉ st.activeModifiers.buttons) ↔
        b ∈ mods.buttons ∧ b ∉ st.activeModifiers.buttons := by
      rw [mem_buttons mods]
      exact ⟨fun ⟨d, hd, hb, hn⟩ => ⟨⟨d, hd, hb⟩, hn⟩, fun ⟨⟨d, hd, hb⟩, hn⟩ => ⟨d, hd, hb, hn⟩⟩
    rw [hmods]
    tauto
  have hfinal : L.Follows (L.keyboard mods cur) typed (m.keysToRestoreModifiers item mods st) := by
    rw [KeyMap.keysToRestoreModifiers, hreleased]
    exact hfollows
  have hcur : (m.keysToRestoreModifiers item mods st).currentState = cur :=
    hfinal.sound.mask_eq hsound fun b => by rw [← mem_buttons, ← mem_buttons, hsame b]
  refine ⟨hsame, hcur, ?_, ?_⟩
  · ext b
    rw [hfinal.held b, hsame b, Finset.mem_union, hsound.agrees.held b]
    simp [or_comm]
  · rw [hfinal.locks, hcur]
    rfl

section Entries
variable {id : KeyID} {table : KeyGroupTable} {group : Int} {desiredMask : KeyModifierMask}

private theorem mem_flatten_entries {entry : KeyItemList} {g : Int} (h : entry ∈ table.entries g) :
    entry ∈ table.flatten := by
  rw [KeyGroupTable.entries] at h
  split_ifs at h
  · simp at h
  · cases hg : table[g.toNat]? with
    | none => simp [hg] at h
    | some entries =>
      rw [hg, Option.getD_some] at h
      exact List.mem_flatten.mpr ⟨entries, List.mem_of_getElem? hg, h⟩

private theorem mem_of_getKeyItemList {itemList : KeyItemList}
    (h : m.getKeyItemList table group desiredMask = some itemList) : itemList ∈ table.flatten := by
  obtain ⟨offset, -, hfound⟩ := List.exists_of_findSome?_eq_some h
  obtain ⟨index, -, hget⟩ := Option.bind_eq_some_iff.mp hfound
  exact mem_flatten_entries (List.mem_of_getElem? hget)

private theorem mem_of_findCommandItem {keyItem : KeyItem}
    (h : m.findCommandItem table group desiredMask = some keyItem) : [keyItem] ∈ table.flatten := by
  obtain ⟨offset, -, hfound⟩ := List.exists_of_findSome?_eq_some h
  obtain ⟨entry, hentry, hitem⟩ := List.exists_of_findSome?_eq_some hfound
  have hsingle : entry = [keyItem] := by
    match entry, hitem with
    | [i], hitem =>
      simp only [KeyMap.commandItem, Option.ite_none_right_eq_some, Option.some.injEq] at hitem
      rw [hitem.2]
  exact hsingle ▸ mem_flatten_entries hentry

private theorem mem_items (h : m.m_keyIDMap.get? id = some table) {entry : KeyItemList} (hentry : entry ∈ table.flatten)
    {item : KeyItem} (hitem : item ∈ entry) : item ∈ m.items := by
  obtain ⟨j, hj, -⟩ := (m.m_keyIDMap.get?_eq_some_iff id table).mp h
  exact List.mem_flatMap.mpr ⟨(j, table), hj, List.mem_flatten.mpr ⟨entry, hentry, hitem⟩⟩

end Entries

/-- The items of an entry before the last are dead keys and no modifiers. -/
def DeadFirst (m : KeyMap) (id : KeyID) : Prop :=
  ∀ table, m.m_keyIDMap.get? id = some table → ∀ entry ∈ table.flatten, ∀ item ∈ entry.dropLast,
    item.dead = true ∧ item.generates = 0

private theorem typeItems_restored (hc : L.Covers m) {mods : ModifierToKeys} {cur : KeyModifierMask}
    (hsound : L.Sound mods.entries cur) {itemList : KeyItemList} {keyItem found : KeyItem} {group : Int}
    {desiredMask overrideModifiers : KeyModifierMask} {isAutoRepeat : Bool} {lang : Str}
    (hlast : itemList.getLast? = some keyItem) (hfits : ∀ item ∈ itemList, L.Fits item)
    (hdead : ∀ item ∈ itemList.dropLast, item.dead = true ∧ item.generates = 0)
    (hfound : (m.typeItems itemList keyItem group desiredMask overrideModifiers isAutoRepeat lang ⟨mods, cur, []⟩).1 =
      some found) (hgen : found.generates = 0) :
    L.Restored mods cur (typedButtons m found isAutoRepeat)
      (m.typeItems itemList keyItem group desiredMask overrideModifiers isAutoRepeat lang ⟨mods, cur, []⟩).2 := by
  rw [KeyMap.typeItems] at hfound ⊢
  by_cases hok : (m.keysForItems desiredMask overrideModifiers isAutoRepeat lang itemList group ⟨mods, cur, []⟩).2 = true
  swap
  · rw [if_neg hok] at hfound
    cases hfound
  rw [if_pos hok] at hfound ⊢
  obtain rfl : keyItem = found := by simpa using hfound
  obtain ⟨init, rfl⟩ : ∃ init, itemList = init ++ [keyItem] := List.getLast?_eq_some_iff.mp hlast
  have hitems : ∀ item ∈ init ++ [keyItem], L.Fits item ∧ item.generates = 0 := fun item hi => by
    refine ⟨hfits item hi, ?_⟩
    rcases List.mem_append.mp hi with hi | hi
    · exact (hdead item (by simpa using hi)).2
    · rwa [List.mem_singleton.mp hi]
  have hstart : L.Follows (L.keyboard mods cur) ∅ ⟨mods, cur, []⟩ := hsound.agrees
  have htyped := Follows.keysForItems hc desiredMask overrideModifiers isAutoRepeat lang
    (init ++ [keyItem]) group ⟨mods, cur, []⟩ hstart hlast hitems (fun item hi => (hdead item hi).1) hok
  exact htyped.restored hc hsound (hfits keyItem (by simp)) hgen

/-- Typing a key of the table leaves the modifiers as they were; the keyboard has the typed key held in
addition, unless it is dead or the platform does not repeat it. -/
theorem mapKey_restored (hc : L.Covers m) {id : KeyID} (hdead : DeadFirst m id) (hset : id ≠ kKeySetModifiers)
    (hclear : id ≠ kKeyClearModifiers) (group : Int) (desiredMask : KeyModifierMask) (isAutoRepeat : Bool) (lang : Str)
    {mods : ModifierToKeys} {cur : KeyModifierMask} (hsound : L.Sound mods.entries cur) {keyItem : KeyItem}
    (hkey : (m.mapKey id group desiredMask isAutoRepeat lang ⟨mods, cur, []⟩).1 = some keyItem)
    (hgen : keyItem.generates = 0) :
    L.Restored mods cur (typedButtons m keyItem isAutoRepeat)
      (m.mapKey id group desiredMask isAutoRepeat lang ⟨mods, cur, []⟩).2 := by
  have hchar : (m.mapCharacterKey id group desiredMask isAutoRepeat lang ⟨mods, cur, []⟩).1 = some keyItem →
      L.Restored mods cur (typedButtons m keyItem isAutoRepeat)
        (m.mapCharacterKey id group desiredMask isAutoRepeat lang ⟨mods, cur, []⟩).2 := fun h => by
    rw [KeyMap.mapCharacterKey] at h ⊢
    cases hid : m.m_keyIDMap.get? id with
    | none => simp [hid] at h
    | some table =>
      cases hlist : m.getKeyItemList table (m.getLanguageGroupID group lang) desiredMask with
      | none => simp [hid, hlist] at h
      | some itemList =>
        have hmem := mem_of_getKeyItemList hlist
        cases hlast : itemList.getLast? with
        | none => simp [hid, hlist, hlast] at h
        | some last =>
          simp only [hid, hlist, hlast] at h ⊢
          exact typeItems_restored hc hsound hlast (fun i hi => hc.fits i (mem_items hid hmem hi))
            (hdead table hid itemList hmem) h hgen
  have hcommand : (m.mapCommandKey id group desiredMask isAutoRepeat lang ⟨mods, cur, []⟩).1 = some keyItem →
      L.Restored mods cur (typedButtons m keyItem isAutoRepeat)
        (m.mapCommandKey id group desiredMask isAutoRepeat lang ⟨mods, cur, []⟩).2 := fun h => by
    rw [KeyMap.mapCommandKey] at h ⊢
    cases hid : m.m_keyIDMap.get? id with
    | none => simp [hid] at h
    | some table =>
      cases hitem : m.findCommandItem table group desiredMask with
      | none => simp [hid, hitem] at h
      | some last =>
        have hmem := mem_of_findCommandItem hitem
        simp only [hid, hitem] at h ⊢
        exact typeItems_restored hc hsound rfl (fun i hi => hc.fits i (mem_items hid hmem hi))
          (fun i hi => by simp at hi) h hgen
  simp only [KeyMap.mapKey, hset, hclear, if_false] at hkey ⊢
  split_ifs at hkey ⊢ with hnext hprev hmodifier hcmd
  · exact hchar hkey
  · exact hcommand hkey
  · exact hchar hkey

instance (L : Layout) (item : KeyItem) : Decidable (L.Fits item) :=
  inferInstanceAs (Decidable (_ ∧ _))

/-- A keyboard with shift, caps lock, a letter and a dead accent. -/
def letterKeys : KeyMap :=
  let key (id : KeyID) (button : KeyButton) (sensitive generates : KeyModifierMask) (lock : Bool) : KeyItem :=
    { id, group := 0, button, required := 0, sensitive, generates, dead := false, lock, client := 0 }
  (((((KeyMap.empty .other).addKeyEntry (key kKeyShift_L 50 0 keyModifierShift false)).addKeyEntry
    (key kKeyCapsLock 66 0 keyModifierCapsLock true)).addKeyEntry
    (key 0x61 38 (keyModifierShift ||| keyModifierCapsLock) 0 false)).addKeyEntry (key 0x301 34 0 0 false)).finish

def letterLayout : Layout where
  bits b := if b = 50 then keyModifierShift else if b = 66 then keyModifierCapsLock else 0
  locking := keyModifierCapsLock
  single b j k := by
    have hone : ∀ bit i : Nat, (1#32 <<< bit).getLsbD i = true → i = bit := by
      intro bit i h
      simp only [BitVec.getLsbD_shiftLeft, BitVec.getLsbD_one, Bool.and_eq_true, Bool.not_eq_true', decide_eq_true_eq,
        decide_eq_false_iff_not] at h
      omega
    have hshift : keyModifierShift = 1#32 <<< 0 := by decide
    have hcaps : keyModifierCapsLock = 1#32 <<< 12 := by decide
    rw [hshift, hcaps]
    split_ifs
    · exact fun hj hk => (hone 0 j hj).trans (hone 0 k hk).symm
    · exact fun hj hk => (hone 12 j hj).trans (hone 12 k hk).symm
    · simp

/-- The modifiers while shift is held and caps lock is on. -/
def shiftAndCaps : ModifierToKeys :=
  ((Multimap.empty.insert keyModifierShift
    { id := kKeyShift_L, group := 0, button := 50, required := 0, sensitive := 0, generates := keyModifierShift,
      dead := false, lock := false, client := 0 }).insert keyModifierCapsLock
    { id := kKeyCapsLock, group := 0, button := 66, required := 0, sensitive := 0, generates := keyModifierCapsLock,
      dead := false, lock := true, client := 0 })

theorem letterLayout_covers : letterLayout.Covers letterKeys :=
  have hduplex : letterKeys.m_halfDuplex = ∅ := by decide
  ⟨KeyMap.finish_finished _, by decide, by simp [hduplex], by decide⟩

theorem letterKeys_deadFirst : DeadFirst letterKeys 0x61 := by
  intro table htable
  have hget : letterKeys.m_keyIDMap.get? 0x61 =
      some [[[⟨0x61, 0, 38, 0, keyModifierShift ||| keyModifierCapsLock, 0, false, false, 0⟩]]] := by decide
  obtain rfl := Option.some.inj (hget.symm.trans htable)
  simp

theorem shiftAndCaps_sound :
    letterLayout.Sound shiftAndCaps.entries (keyModifierShift ||| keyModifierCapsLock) where
  fits := by decide
  alone := by decide
  union k := by
    have hentries : shiftAndCaps.entries.map Prod.fst = [keyModifierShift, keyModifierCapsLock] := by decide
    have hmem : (∃ e ∈ shiftAndCaps.entries, e.1.getLsbD k = true) ↔
        ∃ g ∈ shiftAndCaps.entries.map Prod.fst, g.getLsbD k = true := by simp
    rw [hmem, hentries, BitVec.getLsbD_or, Bool.or_eq_true]
    simp

/-- The letter is typed without shift and caps lock, which are both put back. -/
theorem mapKey_restored_letter :
    letterLayout.Restored shiftAndCaps (keyModifierShift ||| keyModifierCapsLock) {38}
      (letterKeys.mapKey 0x61 0 0 false [] ⟨shiftAndCaps, keyModifierShift ||| keyModifierCapsLock, []⟩).2 :=
  have hkey : (letterKeys.mapKey 0x61 0 0 false []
      ⟨shiftAndCaps, keyModifierShift ||| keyModifierCapsLock, []⟩).1 =
      some ⟨0x61, 0, 38, 0, keyModifierShift ||| keyModifierCapsLock, 0, false, false, 0⟩ := by decide
  mapKey_restored letterLayout_covers letterKeys_deadFirst (by decide) (by decide) 0 0 false [] shiftAndCaps_sound hkey rfl

/-- A dead key by itself is not held after it was typed. -/
theorem dead_key_not_held :
    ¬ ∀ (L : Layout) (m : KeyMap), L.Covers m → ∀ id group desiredMask isAutoRepeat lang mods cur,
      L.Sound mods.entries cur → ∀ keyItem : KeyItem,
        (m.mapKey id group desiredMask isAutoRepeat lang ⟨mods, cur, []⟩).1 = some keyItem → keyItem.generates = 0 →
        L.Restored mods cur {keyItem.button}
          (m.mapKey id group desiredMask isAutoRepeat lang ⟨mods, cur, []⟩).2 := by
  intro h
  have hheld := (h letterLayout letterKeys letterLayout_covers 0x301 0 0 false [] .empty 0
    ⟨by decide, .nil, by simp [Multimap.empty]⟩
    ⟨0x301, 0, 34, 0, 0, 0, true, false, 0⟩ (by decide) rfl).held
  exact absurd hheld (by decide)

end Layout
end Synergy
