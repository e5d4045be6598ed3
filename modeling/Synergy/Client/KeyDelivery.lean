import Synergy.Client.ProxyProgress
import Synergy.Client.ServerProxy
import Synergy.Server.KeyStrokes

/-! Key events on their way from the server's end of a connection to the client that is
told to press them. -/
namespace Synergy
open ProtocolUtil

/-- The calls with which the client is told of keys. -/
def ClientCall.isKey : ClientCall → Bool
  | keyDown _ _ _ _ | keyRepeat _ _ _ _ _ | keyUp _ _ _ => true
  | _ => false

def Effect.keyCall : Effect → Option ClientCall
  | call c => if c.isKey then some c else none
  | _ => none

def keyCalls (effects : List Effect) : List ClientCall := effects.filterMap Effect.keyCall

namespace ServerProxy
variable {p : ServerProxy}

private theorem some_of_ite {α : Type} {c : Prop} [Decidable c] {a v : α} {rest : Option α}
    (h : (if c then some a else rest) = some v) : (c ∧ a = v) ∨ rest = some v := by
  split at h
  next hc => exact .inl ⟨hc, Option.some.inj h⟩
  next => exact .inr h

/-- The table of the keys of a modifier gives back the key that was found in it. -/
theorem translationTable_modifierOfKey {id : KeyID} {modifier : KeyModifierID} {right : Bool}
    (h : modifierOfKey id = some (modifier, right)) :
    (if right then (translationTable modifier).2 else (translationTable modifier).1) = id := by
  unfold modifierOfKey at h
  iterate 11
    rcases some_of_ite h with ⟨rfl, hmodifier⟩ | h
    · cases hmodifier
      rfl
  cases h

theorem translateKey_identity (hidentity : ∀ id, p.modifierTranslationTable id = id) (id : KeyID) :
    p.translateKey id = id := by
  unfold translateKey
  cases h : modifierOfKey id with
  | none => rfl
  | some modifier =>
    simp only [hidentity]
    exact translationTable_modifierOfKey h

/-- A bit that is mapped to itself stays in the mask, or stays out of it. -/
theorem mapped_bit (mask : KeyModifierMask) (n : Nat) :
    (if mask &&& BitVec.twoPow 32 n ≠ 0 then BitVec.twoPow 32 n else 0) = mask &&& BitVec.twoPow 32 n := by
  rw [BitVec.and_twoPow]
  cases mask.getLsbD n with
  | true =>
    rw [if_pos rfl]
    split
    next => rfl
    next hzero => exact (not_not.mp hzero).symm
  | false => simp

theorem translateModifierMask_identity (hidentity : ∀ id, p.modifierTranslationTable id = id)
    (mask : KeyModifierMask) : p.translateModifierMask mask = mask := by
  have hbit : ∀ {bit : KeyModifierMask} {n : Nat}, bit = BitVec.twoPow 32 n →
      (if mask &&& bit ≠ 0 then bit else 0) = mask &&& bit := by
    rintro _ n rfl
    exact mapped_bit mask n
  have hall : ~~~translatedModifiers ||| keyModifierShift ||| keyModifierControl ||| keyModifierAlt |||
      keyModifierAltGr ||| keyModifierMeta ||| keyModifierSuper = BitVec.allOnes 32 := by decide
  unfold translateModifierMask
  simp only [hidentity]
  change (mask &&& ~~~translatedModifiers) ||| (if mask &&& keyModifierShift ≠ 0 then keyModifierShift else 0) |||
    (if mask &&& keyModifierControl ≠ 0 then keyModifierControl else 0) |||
    (if mask &&& keyModifierAlt ≠ 0 then keyModifierAlt else 0) |||
    (if mask &&& keyModifierAltGr ≠ 0 then keyModifierAltGr else 0) |||
    (if mask &&& keyModifierMeta ≠ 0 then keyModifierMeta else 0) |||
    (if mask &&& keyModifierSuper ≠ 0 then keyModifierSuper else 0) = mask
  rw [hbit (n := 0) (by decide), hbit (n := 1) (by decide), hbit (n := 2) (by decide), hbit (n := 5) (by decide),
    hbit (n := 3) (by decide), hbit (n := 4) (by decide)]
  simp only [← BitVec.and_or_distrib_left]
  rw [hall, BitVec.and_allOnes]

end ServerProxy

namespace ProxyRun
variable (a : Answers) (r : ProxyRun)

@[simp] theorem keyCalls_flushCompressedMouse : keyCalls r.flushCompressedMouse.effects = keyCalls r.effects := by
  unfold flushCompressedMouse
  simp only
  split_ifs <;> simp [update, call, keyCalls, Effect.keyCall, ClientCall.isKey]

@[simp] theorem keyCalls_setActiveServerLanguage (language : Bytes) :
    keyCalls (r.setActiveServerLanguage a language).effects = keyCalls r.effects := by
  unfold setActiveServerLanguage
  simp only
  split_ifs <;> simp [update, keyCalls, Effect.keyCall]

theorem keyCalls_call (c : ClientCall) (h : c.isKey = true) :
    keyCalls (r.call c).effects = keyCalls r.effects ++ [c] := by
  simp [call, keyCalls, Effect.keyCall, h]

/-- An admitted key goes to the client under its own name and mask. -/
theorem keyCalls_forwardKey (hidentity : ∀ id, r.proxy.modifierTranslationTable id = id) {id mask : Nat}
    (hadmits : admits a r.proxy id mask = true) (forward : KeyID → KeyModifierMask → ClientCall)
    (hkey : (forward id (cleanMask mask)).isKey = true) :
    keyCalls (r.forwardKey a id mask forward).effects = keyCalls r.effects ++ [forward id (cleanMask mask)] ∧
      (r.forwardKey a id mask forward).thrown = r.thrown := by
  rw [forwardKey_eq, ServerProxy.translateKey_identity hidentity, ServerProxy.translateModifierMask_identity hidentity]
  simp only [hadmits, if_true]
  refine ⟨?_, rfl⟩
  rw [keyCalls_call _ _ hkey]
  simp [update, keyCalls, Effect.keyCall]

/-- The handler has run to its end: what it has told the client is what the turn tells it. -/
theorem keyCalls_turn {code : Bytes} {q : ProxyRun} (hparser : r.proxy.parser = .message)
    (hrun : r.runHandler a code = (.okay, q)) (hthrown : q.thrown = none) :
    keyCalls (r.turn a code).2.effects = keyCalls q.effects := by
  have hparse : r.parse a code = (.okay, q.update fun p => { p with needNoopReply := true }) := by
    unfold parse
    rw [hparser]
    unfold parseMessage
    rw [hrun]
    simp [hthrown]
  unfold turn
  rw [hparse]
  simp [update, hthrown, readCode, read, keyCalls, Effect.keyCall]

end ProxyRun

theorem cleanMask_toNat (mask : KeyModifierMask) :
    ProxyRun.cleanMask mask.toNat = InputValidator.sanitizeModifierMask mask := by
  have hlow : InputValidator.kDefinedModifiers &&& 0xFFFF = InputValidator.kDefinedModifiers := by decide
  unfold ProxyRun.cleanMask InputValidator.sanitizeModifierMask
  rw [BitVec.ofNat_toNat, BitVec.setWidth_eq, BitVec.and_assoc, hlow]

/-- A key event is sent to a client whose proxy admits it and maps every modifier to itself.
`rest` are the packets that follow. -/
structure KeyDelivery where
  version : KeyProxyVersion
  stroke : KeyStroke
  proxy : ServerProxy
  answers : Answers
  rest : IStream
  key : stroke.key < 2 ^ 16
  mask : stroke.mask &&& ~~~keyModifiers = 0
  button : stroke.button < 2 ^ 16
  language : stroke.language.length ≤ protocolMaxStringLength
  parser : proxy.parser = .message
  identity : ∀ id, proxy.modifierTranslationTable id = id
  admitted : stroke.releases = false → ProxyRun.admits answers proxy stroke.key stroke.mask.toNat = true
  packets : ∀ piece ∈ rest, piece ≠ []

namespace KeyDelivery
variable (d : KeyDelivery)

/-- The packet that the stroke is sent as. -/
def packet : Bytes := (d.version.send d.stroke).toOption.getD []

/-- The calls about keys while the packet is handled. -/
def received : List ClientCall :=
  let (code, r) := (⟨d.proxy, d.packet :: d.rest, [], none⟩ : ProxyRun).readCode
  keyCalls (r.turn d.answers code).2.effects

end KeyDelivery

/-- The call tells the client of the stroke, with all that the stroke has. -/
def KeyStroke.Tells : KeyStroke → ClientCall → Prop
  | keyDown key mask button language, c => c = .keyDown key mask button language
  | keyRepeat key mask count button lang, c => ∃ n : Nat, n = count ∧ c = .keyRepeat key mask n button lang
  | keyUp key mask button, c => c = .keyUp key mask button

/-- The client is told of the stroke as it was sent, and of no other key. -/
def KeyDelivery.Delivered (d : KeyDelivery) : Prop := ∃ c, d.received = [c] ∧ d.stroke.Tells c

/-- What the client is told. -/
def KeyProxyVersion.arrived (version : KeyProxyVersion) : KeyStroke → ClientCall
  | .keyDown key mask button language =>
    .keyDown key (InputValidator.sanitizeModifierMask mask) button (if version = .v1_8 then language else [])
  | .keyRepeat key mask count button lang =>
    .keyRepeat key (InputValidator.sanitizeModifierMask mask) (count % 2 ^ 16).toNat button lang
  | .keyUp key mask button => .keyUp key (InputValidator.sanitizeModifierMask mask) button

/-- A number with bits among the low sixteen. -/
theorem toNat_lt_of_keyModifiers {mask : KeyModifierMask} (h : mask &&& ~~~keyModifiers = 0) : mask.toNat < 2 ^ 16 := by
  have hmask : mask = mask &&& keyModifiers := by
    have hall : mask = mask &&& (keyModifiers ||| ~~~keyModifiers) := by
      rw [BitVec.or_not_self, BitVec.and_allOnes]
    rw [BitVec.and_or_distrib_left, h] at hall
    exact hall.trans BitVec.or_zero
  rw [hmask, BitVec.toNat_and]
  exact lt_of_le_of_lt Nat.and_le_right (by decide)

theorem KeyDelivery.sendable (d : KeyDelivery) : d.stroke.Sendable :=
  ⟨d.key, toNat_lt_of_keyModifiers d.mask, d.button, d.language⟩

namespace ProxyRun

/-- A message for this proxy is read from its packet. -/
theorem readOrDisconnect_fields {r : ProxyRun} (fmt : Bytes) {fields : List Field} {s : IStream}
    (hfmt : fmt.drop 4 = formatOf fields) (hvalid : ∀ f ∈ fields, f.Valid) (hs : r.stream = bytesOf fields :: s)
    (hsome : bytesOf fields ≠ []) (hpackets : ∀ piece ∈ s, piece ≠ []) :
    ∃ s', r.readOrDisconnect fmt (blanksOf fields) = (some (argsOf fields), r.read s') := by
  have hholds : IStream.Holds r.stream (bytesOf fields ++ s.flatten) := by
    rw [hs]
    exact ⟨List.forall_mem_cons.mpr ⟨hsome, hpackets⟩, rfl⟩
  obtain ⟨s', hread, -⟩ := reads_readf hvalid r.stream _ hholds
  refine ⟨s', ?_⟩
  unfold readOrDisconnect
  rw [hfmt, hread]

/-- A key that goes down under a mask that is sanitized. -/
theorem keyCalls_keyDown {a : Answers} {r : ProxyRun} (hidentity : ∀ id, r.proxy.modifierTranslationTable id = id)
    {key : KeyID} {mask : KeyModifierMask} (hadmits : admits a r.proxy key mask.toNat = true) (button : Nat)
    (lang : Bytes) :
    keyCalls (r.keyDown a key mask.toNat button lang).effects = keyCalls r.effects ++
        [.keyDown key (InputValidator.sanitizeModifierMask mask) button lang] ∧
      (r.keyDown a key mask.toNat button lang).thrown = r.thrown := by
  have hidentity' : ∀ id,
      (r.flushCompressedMouse.setActiveServerLanguage a lang).proxy.modifierTranslationTable id = id := by
    simpa using hidentity
  obtain ⟨hadmits', -⟩ := keys_congr (p := (r.flushCompressedMouse.setActiveServerLanguage a lang).proxy)
    (q := r.proxy) (by simp) (by simp) a key mask.toNat
  obtain ⟨hcalls, hthrown⟩ := keyCalls_forwardKey a _ hidentity' (hadmits'.trans hadmits)
    (fun id2 mask2 => .keyDown id2 mask2 button lang) rfl
  rw [cleanMask_toNat] at hcalls
  unfold keyDown
  refine ⟨by simpa using hcalls, hthrown.trans ?_⟩
  unfold setActiveServerLanguage
  simp only
  split_ifs <;> exact flushCompressedMouse_thrown r

/-- The handler of the message tells the client of one key. -/
theorem runHandler_stroke {a : Answers} {r : ProxyRun} {version : KeyProxyVersion} {stroke : KeyStroke}
    (hsendable : stroke.Sendable) {rest : IStream} (hs : r.stream = bytesOf (version.message stroke).2 :: rest)
    (hpackets : ∀ piece ∈ rest, piece ≠ []) (hidentity : ∀ id, r.proxy.modifierTranslationTable id = id)
    (hadmitted : stroke.releases = false → admits a r.proxy stroke.key stroke.mask.toNat = true) :
    ∃ q, r.runHandler a (version.message stroke).1 = (.okay, q) ∧
      keyCalls q.effects = keyCalls r.effects ++ [version.arrived stroke] ∧ q.thrown = r.thrown := by
  have hvalid := hsendable.valid version
  have hsome := (KeyStroke.length_messageCode version stroke).2
  have hread : ∀ (r : ProxyRun) (s : IStream), keyCalls (r.read s).effects = keyCalls r.effects := by
    simp [read, keyCalls, Effect.keyCall]
  cases stroke with
  | keyDown key mask button language =>
    have hadmits : admits a r.proxy key mask.toNat = true := hadmitted rfl
    by_cases hversion : version = .v1_8
    · rw [KeyProxyVersion.message, if_pos hversion] at hvalid hs hsome ⊢
      obtain ⟨s', hfields⟩ := readOrDisconnect_fields kMsgDKeyDownLang
        (KeyStroke.drop_kMsgDKeyDownLang.trans (KeyStroke.format_keyLang _ _ _ _).symm) hvalid hs hsome hpackets
      have hfields : r.readOrDisconnect kMsgDKeyDownLang [.int 0, .int 0, .int 0, .string []] =
        (some [.int key, .int mask.toNat, .int button, .string language], r.read s') := hfields
      have hrecv : r.recvKeyDownLang a = (.okay, (r.read s').keyDown a key mask.toNat button language) := by
        simp only [recvKeyDownLang, hfields]
      obtain ⟨hcalls, hthrown⟩ := keyCalls_keyDown (r := r.read s') hidentity hadmits button language
      refine ⟨_, hrecv, ?_, hthrown⟩
      rw [hcalls, hread, KeyProxyVersion.arrived, if_pos hversion]
    · rw [KeyProxyVersion.message, if_neg hversion] at hvalid hs hsome ⊢
      obtain ⟨s', hfields⟩ := readOrDisconnect_fields kMsgDKeyDown
        (KeyStroke.drop_kMsgDKeyDown.trans (KeyStroke.format_key _ _ _).symm) hvalid hs hsome hpackets
      have hfields : r.readOrDisconnect kMsgDKeyDown [.int 0, .int 0, .int 0] =
        (some [.int key, .int mask.toNat, .int button], r.read s') := hfields
      have hrecv : r.recvKeyDown a = (.okay, (r.read s').keyDown a key mask.toNat button []) := by
        simp only [recvKeyDown, hfields]
      obtain ⟨hcalls, hthrown⟩ := keyCalls_keyDown (r := r.read s') hidentity hadmits button []
      refine ⟨_, hrecv, ?_, hthrown⟩
      rw [hcalls, hread, KeyProxyVersion.arrived, if_neg hversion]
  | keyRepeat key mask count button lang =>
    have hflushed : r.flushCompressedMouse.stream = _ := (flushCompressedMouse_stream r).trans hs
    obtain ⟨s', hfields⟩ := readOrDisconnect_fields kMsgDKeyRepeat
      (KeyStroke.drop_kMsgDKeyRepeat.trans (KeyStroke.format_keyRepeat _ _ _ _ _).symm) hvalid hflushed hsome hpackets
    have hfields : r.flushCompressedMouse.readOrDisconnect kMsgDKeyRepeat [.int 0, .int 0, .int 0, .int 0, .string []] =
      (some [.int key, .int mask.toNat, .int (count % 2 ^ 16).toNat, .int button, .string lang],
        r.flushCompressedMouse.read s') := hfields
    have hrepeat : r.keyRepeat a = (r.flushCompressedMouse.read s').forwardKey a key mask.toNat
        fun id2 mask2 => .keyRepeat id2 mask2 (count % 2 ^ 16).toNat button lang := by
      simp only [keyRepeat, hfields]
    obtain ⟨hadmits, -⟩ := keys_congr (p := (r.flushCompressedMouse.read s').proxy) (q := r.proxy) (by simp [read])
      (by simp [read]) a key mask.toNat
    obtain ⟨hcalls, hthrown⟩ := keyCalls_forwardKey a (r.flushCompressedMouse.read s') (by simpa [read] using hidentity)
      (hadmits.trans (hadmitted rfl)) (fun id2 mask2 => .keyRepeat id2 mask2 (count % 2 ^ 16).toNat button lang) rfl
    refine ⟨_, congrArg (Prod.mk ConnectionResult.okay) hrepeat, ?_, hthrown.trans (flushCompressedMouse_thrown r)⟩
    rw [hcalls, cleanMask_toNat]
    have hstart : keyCalls (r.flushCompressedMouse.read s').effects = keyCalls r.effects :=
      (hread r.flushCompressedMouse s').trans (keyCalls_flushCompressedMouse r)
    rw [hstart]
    rfl
  | keyUp key mask button =>
    have hflushed : r.flushCompressedMouse.stream = _ := (flushCompressedMouse_stream r).trans hs
    obtain ⟨s', hfields⟩ := readOrDisconnect_fields kMsgDKeyUp
      (KeyStroke.drop_kMsgDKeyUp.trans (KeyStroke.format_key _ _ _).symm) hvalid hflushed hsome hpackets
    have hfields : r.flushCompressedMouse.readOrDisconnect kMsgDKeyUp [.int 0, .int 0, .int 0] =
      (some [.int key, .int mask.toNat, .int button], r.flushCompressedMouse.read s') := hfields
    have hidentity' : ∀ id, (r.flushCompressedMouse.read s').proxy.modifierTranslationTable id = id := by
      simpa [read] using hidentity
    have hup : r.keyUp = (r.flushCompressedMouse.read s').call
        (.keyUp key (InputValidator.sanitizeModifierMask mask) button) := by
      simp only [keyUp, hfields, ServerProxy.translateKey_identity hidentity',
        ServerProxy.translateModifierMask_identity hidentity', cleanMask_toNat]
    refine ⟨_, congrArg (Prod.mk ConnectionResult.okay) hup, ?_, flushCompressedMouse_thrown r⟩
    rw [keyCalls_call _ _ rfl, hread, keyCalls_flushCompressedMouse]
    rfl

end ProxyRun

theorem KeyDelivery.received_eq (d : KeyDelivery) : d.received = [d.version.arrived d.stroke] := by
  have hsend := d.sendable.send_eq d.version
  obtain ⟨hcode, hsome⟩ := KeyStroke.length_messageCode d.version d.stroke
  generalize hc : (d.version.message d.stroke).1 = code at hsend hcode
  generalize hb : (d.version.message d.stroke).2 = fields at hsend hsome
  have hpacket : d.packet = code ++ bytesOf fields := by
    unfold packet
    rw [hsend]
    rfl
  have hfirst : (⟨d.proxy, d.packet :: d.rest, [], none⟩ : ProxyRun).readCode =
      (code, ⟨d.proxy, bytesOf fields :: d.rest, [.read], none⟩) := by
    simp [ProxyRun.readCode, IStream.read, hpacket, hsome, ProxyRun.read, ← hcode]
  have hstream : (⟨d.proxy, bytesOf fields :: d.rest, [.read], none⟩ : ProxyRun).stream =
      bytesOf (d.version.message d.stroke).2 :: d.rest := by rw [hb]
  obtain ⟨q, hrun, hcalls, hthrown⟩ := ProxyRun.runHandler_stroke d.sendable hstream d.packets d.identity d.admitted
  unfold received
  rw [hfirst]
  simp only
  rw [hc] at hrun
  rw [ProxyRun.keyCalls_turn d.answers _ d.parser hrun hthrown, hcalls]
  rfl

/-- The mask has neither of the two modifiers that sanitizing forgets, the count can be told
in two bytes, and a language comes only with a version that sends it. -/
def KeyDelivery.Spared (d : KeyDelivery) : Prop :=
  d.stroke.mask &&& (keyModifierNumLock ||| keyModifierScrollLock) = 0 ∧
    match d.stroke with
    | .keyDown _ _ _ language => d.version = .v1_8 ∨ language = []
    | .keyRepeat _ _ count _ _ => 0 ≤ count ∧ count < 2 ^ 16
    | .keyUp _ _ _ => True

theorem sanitizeModifierMask_eq_iff {mask : KeyModifierMask} (h : mask &&& ~~~keyModifiers = 0) :
    InputValidator.sanitizeModifierMask mask = mask ↔ mask &&& (keyModifierNumLock ||| keyModifierScrollLock) = 0 := by
  have hall : InputValidator.kDefinedModifiers ||| ((keyModifierNumLock ||| keyModifierScrollLock) ||| ~~~keyModifiers) =
      BitVec.allOnes 32 := by decide
  have hapart : InputValidator.kDefinedModifiers &&& (keyModifierNumLock ||| keyModifierScrollLock) = 0 := by decide
  unfold InputValidator.sanitizeModifierMask
  constructor
  · intro hkept
    rw [← hkept, BitVec.and_assoc, hapart]
    exact BitVec.and_zero
  · intro hnone
    have hsplit := congrArg (mask &&& ·) hall
    simp only [BitVec.and_or_distrib_left, h, hnone, BitVec.and_allOnes] at hsplit
    simpa using hsplit

/-- A key event reaches the client as it was sent if and only if it has none of the modifiers
that are sanitized away, and nothing that its message has no room for. -/
theorem KeyDelivery.delivered_iff (d : KeyDelivery) : d.Delivered ↔ d.Spared := by
  unfold Delivered Spared
  simp only [d.received_eq, List.cons.injEq, and_true, exists_eq_left']
  rw [← sanitizeModifierMask_eq_iff d.mask]
  rcases d.stroke with ⟨key, mask, button, language⟩ | ⟨key, mask, count, button, lang⟩ | ⟨key, mask, button⟩
  · simp only [KeyStroke.Tells, KeyProxyVersion.arrived, KeyStroke.mask, ClientCall.keyDown.injEq, true_and]
    refine and_congr_right fun _ => ?_
    split
    next hversion => exact iff_of_true rfl (.inl hversion)
    next hversion => rw [or_iff_right hversion, eq_comm]
  · simp only [KeyStroke.Tells, KeyProxyVersion.arrived, KeyStroke.mask, ClientCall.keyRepeat.injEq, true_and, and_true]
    constructor
    · rintro ⟨n, hn, hmask, rfl⟩
      exact ⟨hmask, by omega, by omega⟩
    · rintro ⟨hmask, hlow, hhigh⟩
      exact ⟨_, by omega, hmask, rfl⟩
  · simp [KeyStroke.Tells, KeyProxyVersion.arrived, KeyStroke.mask]

/-- A key goes down while NumLock is on. -/
def numLockStroke : KeyDelivery where
  version := .v1_8
  stroke := .keyDown 0x0061 keyModifierNumLock 0x26 [101, 110]
  proxy := { parser := .message, drop := { receiver := { options := { dropDirectory := [] } }, files := fun _ => none } }
  answers := {}
  rest := []
  key := by decide
  mask := by decide
  button := by decide
  language := by decide
  parser := rfl
  identity := fun _ => rfl
  admitted := fun _ => by decide
  packets := fun _ h => nomatch h

theorem numLock_not_delivered : ¬ ∀ d : KeyDelivery, d.Delivered := by
  intro hall
  obtain ⟨c, hreceived, htells⟩ := hall numLockStroke
  obtain rfl : _ = c := by simpa using numLockStroke.received_eq.symm.trans hreceived
  obtain ⟨-, hmask, -⟩ := ClientCall.keyDown.inj htells
  exact absurd hmask (by decide)

end Synergy
