import Mathlib.Data.List.Nodup
import Synergy.Server.Hotkeys

/-! Whether the ids that keystroke rules hold are the ids registered with the
primary client. Copying a rule inside the vector drops its id, so the answer is
decided by which elements `push_back` and `erase` copy. -/
namespace Synergy
open Synergy.Lib InputFilter

/-- The id, key and mask of the keystroke rules of a list. -/
abbrev hotkeysOf (rules : List Rule) : List (Nat × KeyID × KeyModifierMask) := rules.filterMap Rule.hotkey

/-- Keystroke rules and live registrations correspond, so that a hotkey event
activates its rule; without a primary client nothing stays registered. -/
structure HotkeysMatch (s : HotkeyState) : Prop where
  own : ∀ p, s.filter.primaryClient = some p → ∀ h ∈ s.held, h.1 ≠ 0 ∧ h ∈ (s.registrations p).live
  distinct : ∀ p, s.filter.primaryClient = some p → (s.held.map Prod.fst).Nodup
  exact : ∀ p, s.filter.primaryClient = some p → ∀ h ∈ (s.registrations p).live, h ∈ s.held
  released : ∀ q, s.filter.primaryClient ≠ some q → (s.registrations q).live = []
  activates : ∀ p, s.filter.primaryClient = some p → ∀ rule ∈ s.rules, ∀ h, rule.hotkey = some h →
    s.filter.handleEvent (.hotkeyDown h.1) = some rule.activateActions

/-- The operation copies no rule that holds a live registration: the vector has
room for one more, and nothing but plain rules stands behind the erased one. -/
def CopiesNoHotkey (s : HotkeyState) (op : FilterOp) (_ : HotkeyState) : Prop :=
  match op with
  | .addFilterRule _ => s.filter.primaryClient ≠ none →
      s.rules.length < s.filter.ruleList.capacity ∨ hotkeysOf s.rules = []
  | .removeFilterRule index => s.filter.primaryClient ≠ none → hotkeysOf (s.rules.drop (index + 1)) = []
  | _ => True

/-- The list of live registrations is the list of ids that the rules hold. -/
private structure Registered (s : HotkeyState) : Prop where
  live : ∀ p, s.filter.primaryClient = some p → (s.registrations p).live = s.held
  distinct : ∀ p, s.filter.primaryClient = some p → (s.held.map Prod.fst).Nodup
  ne_zero : ∀ p, s.filter.primaryClient = some p → ∀ h ∈ s.held, h.1 ≠ 0
  released : ∀ q, s.filter.primaryClient ≠ some q → (s.registrations q).live = []

/-- A hotkey event reaches the one rule that holds its id. -/
private theorem handleEvent_hotkeyDown {rules : List Rule} (hd : ((hotkeysOf rules).map Prod.fst).Nodup)
    {rule : Rule} (hr : rule ∈ rules) {h : Nat × KeyID × KeyModifierMask} (hk : rule.hotkey = some h) :
    rules.findSome? (·.handleEvent (.hotkeyDown h.1)) = some rule.activateActions := by
  induction rules with
  | nil => cases hr
  | cons r rules ih =>
    have hself : ∀ q : Rule, q.hotkey = some h → q.handleEvent (.hotkeyDown h.1) = some q.activateActions := by
      rintro ⟨c, as, ds⟩ hq
      rcases c with _ | c
      · cases hq
      · cases c with
        | keystroke id key mask =>
          obtain rfl : (id, key, mask) = h := by simpa [Rule.hotkey] using hq
          simp [Rule.handleEvent, Condition.matchEvent]
        | mouseButton button mask => cases hq
        | screenConnected screen => cases hq
    rcases List.mem_cons.mp hr with rfl | hmem
    · rw [List.findSome?_cons, hself _ hk]
    · have hin : h.1 ∈ (hotkeysOf rules).map Prod.fst :=
        List.mem_map_of_mem (List.mem_filterMap.mpr ⟨rule, hmem, hk⟩)
      have hmiss : r.handleEvent (.hotkeyDown h.1) = none := by
        obtain ⟨c, as, ds⟩ := r
        rcases c with _ | c
        · rfl
        · cases c with
          | keystroke id key mask =>
            have hne : h.1 ≠ id := by
              rintro rfl
              simp only [hotkeysOf, List.filterMap_cons, Rule.hotkey, List.map_cons] at hd
              exact (List.nodup_cons.mp hd).1 hin
            simp [Rule.handleEvent, Condition.matchEvent, hne]
          | mouseButton button mask => rfl
          | screenConnected screen => rfl
      have hd' : ((hotkeysOf rules).map Prod.fst).Nodup := by
        cases hq : r.hotkey with
        | none => simpa [hotkeysOf, List.filterMap_cons, hq] using hd
        | some q =>
          simp only [hotkeysOf, List.filterMap_cons, hq, List.map_cons] at hd
          exact (List.nodup_cons.mp hd).2
      rw [List.findSome?_cons, hmiss]
      exact ih hd' hmem

private theorem hotkeysMatch_of_registered {s : HotkeyState} (h : Registered s) : HotkeysMatch s where
  own p hp x hx := ⟨h.ne_zero p hp x hx, by rwa [h.live p hp]⟩
  distinct := h.distinct
  exact p hp x hx := by rwa [← h.live p hp]
  released := h.released
  activates p hp _ hr _ hk := handleEvent_hotkeyDown (h.distinct p hp) hr hk

private theorem hotkeysOf_append (a b : List Rule) : hotkeysOf (a ++ b) = hotkeysOf a ++ hotkeysOf b :=
  List.filterMap_append

private theorem hotkeysOf_copy (rules : List Rule) :
    hotkeysOf (rules.map Rule.copy) = (hotkeysOf rules).map fun h => (0, h.2) := by
  induction rules with
  | nil => rfl
  | cons rule rules ih =>
    cases h : rule.hotkey <;> simp_all [hotkeysOf, Rule.copy_eq_setId]

namespace Registrations

theorem disable_live (r : Registrations) (rule : Rule) :
    (r.disable rule).1.live = r.live.filter fun x => x.1 ∉ (hotkeysOf [rule]).map Prod.fst := by
  cases h : rule.hotkey with
  | none => simp [disable, hotkeysOf, h]
  | some k => simp [disable, hotkeysOf, h, unregisterHotKey]

theorem disableAll_live (r : Registrations) (rules : List Rule) :
    (r.disableAll rules).1.live = r.live.filter fun x => x.1 ∉ (hotkeysOf rules).map Prod.fst := by
  induction rules generalizing r with
  | nil => simp [disableAll]
  | cons rule rules ih =>
    rw [disableAll, ih, disable_live, List.filter_filter]
    apply List.filter_congr
    intro x _
    have hs : hotkeysOf (rule :: rules) = hotkeysOf [rule] ++ hotkeysOf rules := by
      rw [← hotkeysOf_append, List.singleton_append]
    rw [hs, List.map_append, ← Bool.decide_and, decide_eq_decide, List.mem_append, not_or, and_comm]

/-- Enabling a rule appends the registration it comes to hold, whose id is new. -/
theorem enable_spec (ids : HotKeyIds) (r : Registrations) (rule : Rule) :
    (r.enable ids rule).1.live = r.live ++ hotkeysOf [(r.enable ids rule).2] ∧
      ∀ h ∈ hotkeysOf [(r.enable ids rule).2], h.1 ≠ 0 ∧ h.1 ∉ r.liveIds := by
  cases h : rule.hotkey with
  | none => simp [enable, hotkeysOf, h]
  | some k =>
    obtain ⟨id, key, mask⟩ := k
    simp [enable, hotkeysOf, h, registerHotKey, ids.ne_zero, ids.not_mem]

/-- Enabling a list of rules appends what they come to hold; ids stay distinct. -/
theorem enableAll_spec (ids : HotKeyIds) (r : Registrations) (rules : List Rule)
    (hd : (r.live.map Prod.fst).Nodup) :
    (r.enableAll ids rules).1.live = r.live ++ hotkeysOf (r.enableAll ids rules).2 ∧
      ((r.enableAll ids rules).1.live.map Prod.fst).Nodup ∧
      ∀ h ∈ hotkeysOf (r.enableAll ids rules).2, h.1 ≠ 0 := by
  induction rules generalizing r with
  | nil => simpa [enableAll] using hd
  | cons rule rules ih =>
    obtain ⟨hlive, hnew⟩ := r.enable_spec ids rule
    have hone : ((r.enable ids rule).1.live.map Prod.fst).Nodup := by
      rw [hlive]
      cases hk : (r.enable ids rule).2.hotkey with
      | none => simpa [hotkeysOf, hk] using hd
      | some k =>
        have hfresh := (hnew k (by simp [hotkeysOf, hk])).2
        simp only [hotkeysOf, List.filterMap_cons, hk, List.filterMap_nil, List.map_append, List.map_cons,
          List.map_nil]
        exact List.nodup_append'.mpr ⟨hd, by simp, by simpa [liveIds] using hfresh⟩
    obtain ⟨hrest, hnodup, hne⟩ := ih (r.enable ids rule).1 hone
    have hsplit : hotkeysOf (r.enableAll ids (rule :: rules)).2 =
        hotkeysOf [(r.enable ids rule).2] ++ hotkeysOf ((r.enable ids rule).1.enableAll ids rules).2 := by
      rw [← hotkeysOf_append]
      rfl
    refine ⟨?_, hnodup, ?_⟩
    · rw [hsplit, ← List.append_assoc, ← hlive, ← hrest]
      rfl
    · rw [hsplit]
      intro h hh
      exact (List.mem_append.mp hh).elim (fun q => (hnew h q).1) (hne h)

end Registrations

namespace HotkeyState
variable (ids : HotKeyIds) (growth : Growth)

private theorem held_eq (s : HotkeyState) : s.held = hotkeysOf s.rules := rfl

private theorem detach_live {s : HotkeyState} (h : Registered s) (q : PrimaryId) :
    (s.detach.registrations q).live = [] := by
  unfold detach
  cases hp : s.filter.primaryClient with
  | none => exact h.released q (by simp [hp])
  | some p =>
    by_cases hq : q = p
    · subst hq
      simp only [Function.update_self, Registrations.disableAll_live, h.live q hp]
      rw [List.filter_eq_nil_iff]
      intro x hx
      have : x.1 ∈ (hotkeysOf s.rules).map Prod.fst := List.mem_map_of_mem hx
      simpa using this
    · simp only [Function.update_of_ne hq]
      exact h.released q (by simpa [hp] using Ne.symm hq)

private theorem attach_registered {s : HotkeyState} (h : ∀ q, (s.registrations q).live = [])
    (client : Option PrimaryId) : Registered (s.attach ids client) := by
  cases client with
  | none => exact ⟨by simp [attach], by simp [attach], by simp [attach], fun q _ => h q⟩
  | some p =>
    obtain ⟨hlive, hnodup, hne⟩ := (s.registrations p).enableAll_spec ids s.rules (by simp [h p])
    have hheld : (s.attach ids (some p)).held = ((s.registrations p).enableAll ids s.rules).1.live := by
      rw [hlive, h p]
      rfl
    refine ⟨?_, ?_, ?_, ?_⟩
    · intro q hq
      obtain rfl : p = q := by simpa [attach] using hq
      rw [hheld]
      simp [attach]
    · intro q _
      rw [hheld]
      exact hnodup
    · intro q _ x hx
      rw [hheld, hlive, h p] at hx
      exact hne x hx
    · intro q hq
      have hqp : q ≠ p := fun e => hq (by simp [attach, e])
      simpa [attach, Function.update_of_ne hqp] using h q

private theorem setPrimaryClient_registered {s : HotkeyState} (h : Registered s) (client : Option PrimaryId) :
    Registered (s.setPrimaryClient ids client) := by
  unfold setPrimaryClient
  split
  · exact h
  · exact attach_registered ids (detach_live h) client

private theorem setPrimaryClient_primary (s : HotkeyState) (client : Option PrimaryId) :
    (s.setPrimaryClient ids client).filter.primaryClient = client := by
  unfold setPrimaryClient
  split
  · assumption
  · cases client <;> rfl

private theorem assign_registered {s : HotkeyState} (h : Registered s) (x : InputFilter) :
    Registered (s.assign ids x) := by
  have hn := setPrimaryClient_registered ids h none
  have hp := s.setPrimaryClient_primary ids none
  apply setPrimaryClient_registered
  refine ⟨?_, ?_, ?_, fun q _ => hn.released q (by simp [hp])⟩ <;> intro p hs <;> simp [hp] at hs

/-- A new last rule, enabled behind rules that hold what is registered. -/
private theorem enable_back_registered {s : HotkeyState} (h : Registered s) {p : PrimaryId}
    (hp : s.filter.primaryClient = some p) (pre : List Rule) (hpre : hotkeysOf pre = s.held) (rule : Rule)
    {t : HotkeyState} (hr : t.rules = pre ++ [((s.registrations p).enable ids rule).2])
    (ht : t.filter.primaryClient = some p)
    (hu : t.registrations = Function.update s.registrations p ((s.registrations p).enable ids rule).1) :
    Registered t := by
  obtain ⟨hlive, hnew⟩ := (s.registrations p).enable_spec ids rule
  have hheld : t.held = s.held ++ hotkeysOf [((s.registrations p).enable ids rule).2] := by
    rw [held_eq, hr, hotkeysOf_append, hpre]
  refine ⟨?_, ?_, ?_, ?_⟩
  · intro q hq
    obtain rfl : p = q := by simpa [ht] using hq
    rw [hu, Function.update_self, hlive, h.live p hp, hheld]
  · intro q _
    rw [hheld, List.map_append]
    refine List.nodup_append'.mpr ⟨h.distinct p hp, ?_, ?_⟩
    · cases hk : ((s.registrations p).enable ids rule).2.hotkey <;> simp [hotkeysOf, hk]
    · intro i hi hj
      obtain ⟨k, hk, rfl⟩ := List.mem_map.mp hj
      exact (hnew k hk).2 (by rwa [Registrations.liveIds, h.live p hp])
  · intro q _ x hx
    rw [hheld] at hx
    exact (List.mem_append.mp hx).elim (h.ne_zero p hp x) fun q => (hnew x q).1
  · intro q hq
    have hqp : q ≠ p := fun e => hq (by rw [ht, e])
    rw [hu, Function.update_of_ne hqp]
    exact h.released q (by simpa [hp] using Ne.symm hqp)

/-- Erasing a rule that only plain rules follow drops exactly its registration. -/
private theorem erase_registered {s : HotkeyState} (h : Registered s) {p : PrimaryId}
    (hp : s.filter.primaryClient = some p) (pre : List Rule) (rule : Rule)
    (hheld : s.held = hotkeysOf pre ++ hotkeysOf [rule]) {t : HotkeyState} (ht : t.filter.primaryClient = some p)
    (hr : t.held = hotkeysOf pre)
    (hu : t.registrations = Function.update s.registrations p ((s.registrations p).disable rule).1) :
    Registered t := by
  have hnodup := h.distinct p hp
  rw [hheld, List.map_append] at hnodup
  have hsplit := List.nodup_append'.mp hnodup
  have hsub : ∀ x ∈ t.held, x ∈ s.held := fun x hx => by
    rw [hheld]
    exact List.mem_append_left _ (hr ▸ hx)
  refine ⟨?_, fun q _ => hr ▸ hsplit.1, fun q _ x hx => h.ne_zero p hp x (hsub x hx), ?_⟩
  · intro q hq
    obtain rfl : p = q := by simpa [ht] using hq
    rw [hu, Function.update_self, Registrations.disable_live, h.live p hp, hheld, List.filter_append, hr]
    have hkeep : ∀ x ∈ hotkeysOf pre, decide (x.1 ∉ (hotkeysOf [rule]).map Prod.fst) = true := fun x hx =>
      decide_eq_true fun hx' => hsplit.2.2 (List.mem_map_of_mem hx) hx'
    have hdrop : ∀ x ∈ hotkeysOf [rule], ¬ decide (x.1 ∉ (hotkeysOf [rule]).map Prod.fst) = true := fun x hx hn =>
      of_decide_eq_true hn (List.mem_map_of_mem hx)
    rw [List.filter_eq_self.mpr hkeep, List.filter_eq_nil_iff.mpr hdrop, List.append_nil]
  · intro q hq
    have hqp : q ≠ p := fun e => hq (by rw [ht, e])
    rw [hu, Function.update_of_ne hqp]
    exact h.released q (by simpa [hp] using Ne.symm hqp)

/-- Without a primary client only the absence of registrations matters. -/
private theorem registered_of_none {s t : HotkeyState} (h : Registered s) (hs : s.filter.primaryClient = none)
    (ht : t.filter.primaryClient = none) (hu : t.registrations = s.registrations) : Registered t := by
  refine ⟨?_, ?_, ?_, fun q _ => hu ▸ h.released q (by simp [hs])⟩ <;> intro p hp <;> simp [ht] at hp

private theorem not_match_of_copied {s : HotkeyState} (p : PrimaryId) (hp : s.filter.primaryClient = some p)
    (rules : List Rule) (hsub : ∀ rule ∈ rules, rule.copy ∈ s.rules) (hne : hotkeysOf rules ≠ []) :
    ¬ HotkeysMatch s := by
  intro hm
  obtain ⟨h, hh⟩ := List.exists_mem_of_ne_nil _ hne
  obtain ⟨rule, hrule, hk⟩ := List.mem_filterMap.mp hh
  have hheld : (0, h.2) ∈ s.held :=
    List.mem_filterMap.mpr ⟨rule.copy, hsub rule hrule, by simp [Rule.copy_eq_setId, hk]⟩
  exact (hm.own p hp _ hheld).1 rfl

end HotkeyState

namespace FilterOp
variable {ids : HotKeyIds} {growth : Growth}

private theorem registered_of_guard {s t : HotkeyState} {op : FilterOp} (h : Registered s)
    (hg : CopiesNoHotkey s op t) (hstep : op.step ids growth s t) : Registered t := by
  cases op with
  | addFilterRule rule =>
    obtain rfl : t = s.addFilterRule ids growth rule := hstep
    cases hp : s.filter.primaryClient with
    | none =>
      exact HotkeyState.registered_of_none h hp (by simp [HotkeyState.addFilterRule, hp])
        (by simp [HotkeyState.addFilterRule, hp])
    | some p =>
      have hroom := hg (by simp [hp])
      obtain ⟨pre, hpush, hpre⟩ : ∃ pre, (s.filter.ruleList.pushBack growth rule).items = pre ++ [rule.copy] ∧
          hotkeysOf pre = s.held := by
        by_cases hc : s.filter.ruleList.items.length < s.filter.ruleList.capacity
        · exact ⟨s.rules, by simp [RuleList.pushBack, hc, HotkeyState.rules], rfl⟩
        · have hnil : hotkeysOf s.rules = [] := hroom.resolve_left hc
          refine ⟨s.rules.map Rule.copy, by simp [RuleList.pushBack, hc, HotkeyState.rules], ?_⟩
          rw [hotkeysOf_copy, HotkeyState.held_eq, hnil, List.map_nil]
      apply HotkeyState.enable_back_registered ids h hp pre hpre rule.copy <;>
        simp [HotkeyState.addFilterRule, HotkeyState.rules, hp, hpush, RuleList.modify]
  | removeFilterRule index =>
    obtain ⟨hi, rfl⟩ := hstep
    cases hp : s.filter.primaryClient with
    | none =>
      exact HotkeyState.registered_of_none h hp (by simp [HotkeyState.removeFilterRule, hp])
        (by simp [HotkeyState.removeFilterRule, hp])
    | some p =>
      have hnil := hg (by simp [hp])
      have hsplit : s.rules = s.rules.take index ++ [s.rules[index]] ++ s.rules.drop (index + 1) := by simp
      have hheld : s.held = hotkeysOf (s.rules.take index) ++ hotkeysOf [s.rules[index]] := by
        conv_lhs => rw [HotkeyState.held_eq, hsplit, hotkeysOf_append, hnil, List.append_nil, hotkeysOf_append]
      have hrules : (s.removeFilterRule index hi).rules =
          s.rules.take index ++ (s.rules.drop (index + 1)).map Rule.copy := by
        simp [HotkeyState.removeFilterRule, hp, HotkeyState.rules, RuleList.erase]
      refine HotkeyState.erase_registered h hp (s.rules.take index) s.rules[index] hheld
        (by simp [HotkeyState.removeFilterRule, hp]) ?_ (by simp [HotkeyState.removeFilterRule, hp])
      rw [HotkeyState.held_eq, hrules, hotkeysOf_append, hotkeysOf_copy, hnil, List.map_nil, List.append_nil]
  | assign x => exact hstep ▸ HotkeyState.assign_registered ids h x
  | setPrimaryClient client => exact hstep ▸ HotkeyState.setPrimaryClient_registered ids h client

private theorem guard_of_match {s t : HotkeyState} {op : FilterOp} (hm : HotkeysMatch t)
    (hstep : op.step ids growth s t) : CopiesNoHotkey s op t := by
  cases op with
  | addFilterRule rule =>
    obtain rfl : t = s.addFilterRule ids growth rule := hstep
    intro hsome
    obtain ⟨p, hp⟩ := Option.ne_none_iff_exists'.mp hsome
    by_contra hno
    obtain ⟨hfull, hne⟩ := not_or.mp hno
    have hfull' : ¬ s.filter.ruleList.items.length < s.filter.ruleList.capacity := hfull
    refine HotkeyState.not_match_of_copied p ?_ s.rules ?_ hne hm
    · simp [HotkeyState.addFilterRule, hp]
    · intro r hr
      simpa [HotkeyState.addFilterRule, HotkeyState.rules, hp, RuleList.pushBack, hfull', RuleList.modify]
        using .inl ⟨r, hr, rfl⟩
  | removeFilterRule index =>
    obtain ⟨hi, rfl⟩ := hstep
    intro hsome
    obtain ⟨p, hp⟩ := Option.ne_none_iff_exists'.mp hsome
    by_contra hne
    refine HotkeyState.not_match_of_copied p ?_ (s.rules.drop (index + 1)) ?_ hne hm
    · simp [HotkeyState.removeFilterRule, hp]
    · intro r hr
      have hcopy : r.copy ∈ (s.rules.drop (index + 1)).map Rule.copy := List.mem_map_of_mem hr
      simpa [HotkeyState.removeFilterRule, hp, HotkeyState.rules, RuleList.erase] using Or.inr hcopy
  | assign x => trivial
  | setPrimaryClient client => trivial

/-- Along a run the registrations match the rules in every state exactly when no
operation copies a rule that holds a live registration. -/
theorem hotkeysMatch_iff {tr : List (FilterOp × HotkeyState)}
    (hr : Trace (FilterOp.step ids growth) HotkeyState.init tr) :
    EachStep CopiesNoHotkey HotkeyState.init tr ↔ Always HotkeysMatch tr := by
  have hinit : Registered HotkeyState.init := by
    refine ⟨?_, ?_, ?_, fun q _ => rfl⟩ <;> intro p hp <;> cases hp
  rw [← eachStep_state_iff HotkeysMatch HotkeyState.init tr]
  refine hr.eachStep_iff Registered (fun s op t hs hstep => ⟨fun hg => ?_, fun hm => ?_⟩)
    (fun s op t hs hstep hg => registered_of_guard hs hg hstep) hinit
  · exact hotkeysMatch_of_registered (registered_of_guard hs hg hstep)
  · exact guard_of_match hm hstep

/-- The rule that restarts the server on the given function key. -/
def restartRule (key : KeyID) : Rule := ⟨some (.keystroke 0 key 0), [.restartServer], []⟩

/-- The filter of a server after its primary client is set and `rules` are added. -/
def afterAdding (rules : List Rule) : HotkeyState :=
  rules.foldl (·.addFilterRule .least .doubling) (HotkeyState.init.setPrimaryClient .least (some 0))

theorem hotkeysMatch_one_rule :
    Always HotkeysMatch [(setPrimaryClient (some 0), afterAdding []),
      (addFilterRule (restartRule 0xEFBE), afterAdding [restartRule 0xEFBE])] := by
  have hr : Trace (FilterOp.step .least .doubling) HotkeyState.init
      [(setPrimaryClient (some 0), afterAdding []),
        (addFilterRule (restartRule 0xEFBE), afterAdding [restartRule 0xEFBE])] :=
    .cons rfl (.cons rfl (.nil _))
  exact (hotkeysMatch_iff hr).mp ⟨trivial, fun _ => .inr rfl, trivial⟩

/-- The second hotkey moves the first rule to new storage, which forgets the
first registration. -/
theorem hotkeysMatch_fails_two_rules :
    ¬ ∀ (ids : HotKeyIds) (growth : Growth) (tr : List (FilterOp × HotkeyState)),
      Trace (FilterOp.step ids growth) HotkeyState.init tr → Always HotkeysMatch tr := by
  intro h
  let rules := [restartRule 0xEFBE, restartRule 0xEFBF]
  have hr : Trace (FilterOp.step .least .doubling) HotkeyState.init
      [(.setPrimaryClient (some 0), afterAdding []),
        (.addFilterRule (restartRule 0xEFBE), afterAdding [restartRule 0xEFBE]),
        (.addFilterRule (restartRule 0xEFBF), afterAdding rules)] :=
    .cons rfl (.cons rfl (.cons rfl (.nil _)))
  have hm := h _ _ _ hr (.addFilterRule (restartRule 0xEFBF), afterAdding rules) (by simp)
  exact (hm.own 0 rfl (0, 0xEFBE, 0) (by decide)).1 rfl

end FilterOp
end Synergy
