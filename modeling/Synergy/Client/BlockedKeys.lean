import Synergy.Client.MessageLoop

/-! The combinations that the user has blocked, over all messages of a connection: which of
them the client is still made to press. -/
namespace Synergy
open ProtocolUtil

/-- The client is made to press a combination that is blocked. -/
def InputValidator.isBlockedPress (v : InputValidator) : Effect → Bool
  | .call (.keyDown id mask _ _) => v.isBlockedCombination id mask
  | .call (.keyRepeat id mask _ _ _) => v.isBlockedCombination id mask
  | _ => false

theorem InputValidator.isBlockedPress_congr {v w : InputValidator} (h : v.blockedCombinations = w.blockedCombinations)
    (e : Effect) : v.isBlockedPress e = w.isBlockedPress e := by
  unfold isBlockedPress
  split <;> simp [isBlockedCombination, h]

namespace ProxyRun

/-- The message presses a chord that is admitted and that its translation makes a blocked one. -/
def translatesToBlocked (a : Answers) (code : Bytes) (r : ProxyRun) : Bool :=
  r.proxy.parser == .message && match keyEventOf code r.stream with
    | some k => admits a r.proxy k.id k.mask &&
        r.proxy.inputValidator.isBlockedCombination (r.proxy.translateKey k.id)
          (r.proxy.translateModifierMask (cleanMask k.mask))
    | none => false

/-- The key event becomes a press of just the chord that is passed to it. -/
private theorem isBlockedPress_forward {code : Bytes} {s : IStream} {k : KeyEvent} (h : keyEventOf code s = some k)
    (v : InputValidator) (id : KeyID) (mask : KeyModifierMask) :
    v.isBlockedPress (.call (k.forward id mask)) = v.isBlockedCombination id mask := by
  unfold keyEventOf at h
  split_ifs at h <;> split at h <;> simp at h <;> subst h <;> rfl

theorem pressOf_blocked_iff {a : Answers} {code : Bytes} {r : ProxyRun} (hp : r.proxy.parser = .message) :
    translatesToBlocked a code r = true ↔
      ∃ c, pressOf a code r = some c ∧ r.proxy.inputValidator.isBlockedPress (.call c) = true := by
  unfold translatesToBlocked pressOf
  cases h : keyEventOf code r.stream with
  | none => simp
  | some k =>
    simp only [hp, beq_self_eq_true, Bool.true_and, Bool.and_eq_true, Option.bind_some]
    constructor
    · rintro ⟨hadmits, hblocked⟩
      exact ⟨_, if_pos hadmits, (isBlockedPress_forward h _ _ _).trans hblocked⟩
    · rintro ⟨c, hc, hblocked⟩
      split at hc
      next hadmits =>
        obtain rfl := Option.some.inj hc
        exact ⟨hadmits, (isBlockedPress_forward h _ _ _).symm.trans hblocked⟩
      next => simp at hc

private theorem forwardKey_press {a : Answers} {id mask : Nat} (forward : KeyID → KeyModifierMask → ClientCall)
    {r q : ProxyRun} (hv : q.proxy.inputValidator = r.proxy.inputValidator)
    (ht : q.proxy.modifierTranslationTable = r.proxy.modifierTranslationTable) (h : admits a r.proxy id mask = true) :
    .call (forward (r.proxy.translateKey id) (r.proxy.translateModifierMask (cleanMask mask))) ∈
      (q.forwardKey a id mask forward).effects ∧ (q.forwardKey a id mask forward).thrown = q.thrown := by
  obtain ⟨hadmits, hkey, hmask⟩ := keys_congr hv ht a id mask
  rw [forwardKey_eq, hkey, hmask]
  dsimp only
  rw [if_pos (hadmits.trans h)]
  exact ⟨by simp [call], rfl⟩

private theorem setActiveServerLanguage_thrown (a : Answers) (language : Bytes) (r : ProxyRun) :
    (r.setActiveServerLanguage a language).thrown = r.thrown := by
  unfold setActiveServerLanguage
  dsimp only
  split_ifs <;> rfl

private theorem keyDown_press {a : Answers} {id mask : Nat} (button : Nat) (lang : Bytes) {r : ProxyRun}
    (h : admits a r.proxy id mask = true) :
    .call (.keyDown (r.proxy.translateKey id) (r.proxy.translateModifierMask (cleanMask mask)) button lang) ∈
      (r.keyDown a id mask button lang).effects ∧ (r.keyDown a id mask button lang).thrown = r.thrown := by
  obtain ⟨hmem, hthrown⟩ := forwardKey_press (fun id2 mask2 => .keyDown id2 mask2 button lang)
    (q := r.flushCompressedMouse.setActiveServerLanguage a lang) (by simp) (by simp) h
  refine ⟨hmem, hthrown.trans ?_⟩
  rw [setActiveServerLanguage_thrown, flushCompressedMouse_thrown]

private theorem readOrDisconnect_of_readf {fmt : Bytes} {args args' : List Arg} {r : ProxyRun} {s' : IStream}
    (h : readf (fmt.drop 4) args r.stream = (.ok (some args'), s')) :
    r.readOrDisconnect fmt args = (some args', r.read s') := by
  simp only [readOrDisconnect, h]

/-- An admitted key event is pressed by its handler, which then returns. -/
private theorem runHandler_press {a : Answers} {code : Bytes} {r : ProxyRun} {c : ClientCall}
    (h : pressOf a code r = some c) :
    ∃ q, r.runHandler a code = (.okay, q) ∧ .call c ∈ q.effects ∧ q.thrown = r.thrown := by
  unfold pressOf at h
  obtain ⟨k, hk, hc⟩ := Option.bind_eq_some_iff.mp h
  obtain ⟨hadmits, rfl⟩ : admits a r.proxy k.id k.mask = true ∧ _ = c := by simpa using hc
  unfold keyEventOf at hk
  split_ifs at hk with hdown hlang hrepeat
  · subst hdown
    split at hk
    next id mask button s' hread =>
      obtain rfl := Option.some.inj hk
      have hhandler : r.runHandler a (codeOf kMsgDKeyDown) = (.okay, (r.read s').keyDown a id mask button []) := by
        have hrecv : r.recvKeyDown a = (.okay, (r.read s').keyDown a id mask button []) := by
          simp only [recvKeyDown, readOrDisconnect_of_readf hread]
        exact hrecv
      obtain ⟨hmem, hthrown⟩ := keyDown_press button [] (r := r.read s') hadmits
      exact ⟨_, hhandler, hmem, hthrown⟩
    next => simp at hk
  · subst hlang
    split at hk
    next id mask button lang s' hread =>
      obtain rfl := Option.some.inj hk
      have hhandler : r.runHandler a (codeOf kMsgDKeyDownLang) = (.okay, (r.read s').keyDown a id mask button lang) := by
        have hrecv : r.recvKeyDownLang a = (.okay, (r.read s').keyDown a id mask button lang) := by
          simp only [recvKeyDownLang, readOrDisconnect_of_readf hread]
        exact hrecv
      obtain ⟨hmem, hthrown⟩ := keyDown_press button lang (r := r.read s') hadmits
      exact ⟨_, hhandler, hmem, hthrown⟩
    next => simp at hk
  · subst hrepeat
    split at hk
    next id mask count button lang s' hread =>
      obtain rfl := Option.some.inj hk
      have hhandler : r.runHandler a (codeOf kMsgDKeyRepeat) = (.okay, (r.flushCompressedMouse.read s').forwardKey a id
          mask fun id2 mask2 => .keyRepeat id2 mask2 count button lang) := by
        have hrepeat : r.keyRepeat a = (r.flushCompressedMouse.read s').forwardKey a id mask
            fun id2 mask2 => .keyRepeat id2 mask2 count button lang := by
          rw [← flushCompressedMouse_stream r] at hread
          simp only [keyRepeat, readOrDisconnect_of_readf hread]
        exact congrArg (Prod.mk _) hrepeat
      obtain ⟨hmem, hthrown⟩ := forwardKey_press (fun id2 mask2 => .keyRepeat id2 mask2 count button lang)
        (q := r.flushCompressedMouse.read s') (by simp [read]) (by simp [read]) hadmits
      exact ⟨_, hhandler, hmem, hthrown.trans (flushCompressedMouse_thrown r)⟩
    next => simp at hk

private theorem turn_press {a : Answers} {code : Bytes} {r : ProxyRun} {c : ClientCall} (hr : r.thrown = none)
    (hp : r.proxy.parser = .message) (h : pressOf a code r = some c) : .call c ∈ (r.turn a code).2.effects := by
  obtain ⟨q, hhandler, hmem, hthrown⟩ := runHandler_press h
  rw [hr] at hthrown
  have hparse : r.parse a code = (.okay, q.update fun p => { p with needNoopReply := true }) := by
    unfold parse
    rw [hp]
    unfold parseMessage
    rw [hhandler]
    simp [hthrown]
  unfold turn
  rw [hparse]
  simp only [update, hthrown, readCode, read]
  simp [hmem]

/-- Nothing but a press of a blocked combination is forbidden. -/
private theorem permits_unblocked {a : Answers} {code : Bytes} {r : ProxyRun}
    (h : translatesToBlocked a code r = false) :
    Permits (fun e => r.proxy.inputValidator.isBlockedPress e = false) a code r where
  usual := ⟨rfl, fun _ => rfl, rfl⟩
  call := fun c _ hc => by
    unfold InputValidator.isBlockedPress
    split <;> simp_all [ClientCall.presses]
  press := fun hp c hc => by
    by_contra hblocked
    rw [Bool.not_eq_false] at hblocked
    rw [(pressOf_blocked_iff hp).mpr ⟨c, hc, hblocked⟩] at h
    simp at h

theorem unblocked_handleLoop (v : InputValidator) (fuel : Nat) (answers : Nat → Answers) (code : Bytes) {r : ProxyRun}
    (hr : r.thrown = none) (hv : r.proxy.inputValidator.blockedCombinations = v.blockedCombinations)
    (hno : ∀ e ∈ r.effects, v.isBlockedPress e = false) :
    (∀ e ∈ (handleLoop fuel answers code r).effects, v.isBlockedPress e = false) ↔
      EachTurn (fun a code r => translatesToBlocked a code r = false) fuel answers code r := by
  have hsame : ∀ {q : ProxyRun} e, q.proxy.inputValidator.blockedCombinations = v.blockedCombinations →
      q.proxy.inputValidator.isBlockedPress e = v.isBlockedPress e :=
    fun e hq => InputValidator.isBlockedPress_congr hq e
  constructor
  · intro h
    clear hno
    induction fuel generalizing answers code r with
    | zero => exact trivial
    | succ fuel ih =>
      intro hlength
      have hcode : code ≠ [] := by
        rintro rfl
        simp at hlength
      unfold handleLoop at h
      rw [if_neg hcode, if_neg (by simp [hlength])] at h
      have hturned := turned (permits_all (answers 0) code r) hr
      have honward := hturned.onward ⟨trivial, fun _ => trivial, trivial⟩ fun _ _ => trivial
      have hturn : ∀ e ∈ (r.turn (answers 0) code).2.effects, v.isBlockedPress e = false := by
        intro e he
        cases hout : r.turn (answers 0) code with
        | mk next r' =>
          rw [hout] at h he hturned
          cases next with
          | none => exact h e he
          | some next =>
            obtain ⟨more, hmore⟩ := handleLoop_appends fuel (fun n => answers (n + 1)) next hturned.thrown
            exact h e (by simp [hmore, he])
      constructor
      · by_contra hblocked
        rw [Bool.not_eq_false] at hblocked
        have hp : r.proxy.parser = .message := by
          simp only [translatesToBlocked, Bool.and_eq_true, beq_iff_eq] at hblocked
          exact hblocked.1
        obtain ⟨c, hc, hpress⟩ := (pressOf_blocked_iff hp).mp hblocked
        rw [hsame _ hv, hturn _ (turn_press hr hp hc)] at hpress
        simp at hpress
      · intro next r' hout
        rw [hout] at h honward hturned
        exact ih _ _ hturned.thrown (honward.blocked.trans hv) h
  · intro h e he
    have honward := onward_handleLoop (P := fun e => v.isBlockedPress e = false) ⟨rfl, fun _ => rfl, rfl⟩
      (fun c hc => by unfold InputValidator.isBlockedPress; split <;> simp_all [ClientCall.presses])
      (fun a code q hq hgood => ?_) hr hv h
    · obtain ⟨new, hnew, hall⟩ := honward.effects
      rw [hnew] at he
      exact (List.mem_append.mp he).elim (hno e) (hall e)
    · have hpermits := permits_unblocked hgood
      simpa only [hsame _ hq] using hpermits

private theorem unblocked_handleData (v : InputValidator) (answers : Nat → Answers) {p : ServerProxy} (s : IStream)
    (hv : p.inputValidator.blockedCombinations = v.blockedCombinations) :
    (∀ e ∈ (handleData answers ⟨p, s, [], none⟩).effects, v.isBlockedPress e = false) ↔
      EachMessage (fun a code r => translatesToBlocked a code r = false) answers ⟨p, s, [], none⟩ :=
  unblocked_handleLoop v _ _ _ rfl hv (by simp [read, InputValidator.isBlockedPress])

/-- No blocked combination is ever pressed exactly when no message presses an admitted
chord whose translation is blocked. -/
theorem unblocked_connection_iff (batches : List ((Nat → Answers) × IStream)) (p : ServerProxy) :
    (∀ e ∈ connection batches p, p.inputValidator.isBlockedPress e = false) ↔
      EachBatch (fun a code r => translatesToBlocked a code r = false) batches p := by
  have hall : ∀ q : ServerProxy, q.inputValidator.blockedCombinations = p.inputValidator.blockedCombinations →
      ((∀ e ∈ connection batches q, p.inputValidator.isBlockedPress e = false) ↔
        EachBatch (fun a code r => translatesToBlocked a code r = false) batches q) := by
    induction batches with
    | nil => exact fun q _ => ⟨fun _ => trivial, fun _ e he => by simp [connection] at he⟩
    | cons batch batches ih =>
      intro q hq
      obtain ⟨answers, s⟩ := batch
      have hbatch := unblocked_handleData p.inputValidator answers s hq
      have hrest := ih (handleData answers ⟨q, s, [], none⟩).proxy
        ((onward_handleData answers ⟨q, s, [], none⟩ rfl).blocked.trans hq)
      simp only [connection, EachBatch, List.mem_append, or_imp, forall_and, hbatch]
      cases (handleData answers ⟨q, s, [], none⟩).effects.any Effect.stops with
      | true => simp
      | false => simpa using fun _ => hrest
  exact hall p rfl

/-- Deletion with control and alt held is blocked. -/
private def guardedProxy : ServerProxy where
  inputValidator := { blockedCombinations := [⟨0xEFFF, keyModifierControl ||| keyModifierAlt⟩] }
  drop := { receiver := { options := { dropDirectory := [] } }, files := fun _ => none }

/-- Once shift is mapped to control, shift and alt press what is blocked. -/
theorem blocked_by_mapping :
    ¬ ∀ (batches : List ((Nat → Answers) × IStream)) (p : ServerProxy),
      ∀ e ∈ connection batches p, p.inputValidator.isBlockedPress e = false := by
  intro hall
  let options := ascii "DSOP" ++ [0, 0, 0, 2] ++ ascii "MMFS" ++ [0, 0, 0, 2]
  let press := ascii "DKDN" ++ [0xEF, 0xFF, 0, 5, 0, 1]
  have hblocked : (connection [(fun _ => {}, [options, press])] guardedProxy).any
      guardedProxy.inputValidator.isBlockedPress = true := by decide
  obtain ⟨e, he, hpress⟩ := List.any_eq_true.mp hblocked
  rw [hall _ _ e he] at hpress
  simp at hpress

end ProxyRun
end Synergy
