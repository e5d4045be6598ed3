import Synergy.Client.HandlerEffects

/-! The messages one by one: what the loop does with each of them, by whether the message
makes its handler keep a disconnection to itself. -/
namespace Synergy
open ProtocolUtil

/-- The call presses a key. -/
def ClientCall.presses : ClientCall → Bool
  | .keyDown _ _ _ _ => true
  | .keyRepeat _ _ _ _ _ => true
  | _ => false

/-- A key event as the server has sent it, and the call it becomes. -/
structure KeyEvent where
  id : Nat
  mask : Nat
  forward : KeyID → KeyModifierMask → ClientCall

namespace ProxyRun

/-- The key event that a message with this code carries. -/
def keyEventOf (code : Bytes) (s : IStream) : Option KeyEvent :=
  if code = codeOf kMsgDKeyDown then
    match readf (kMsgDKeyDown.drop 4) [.int 0, .int 0, .int 0] s with
    | (.ok (some [.int id, .int mask, .int button]), _) =>
      some ⟨id, mask, fun id mask => .keyDown id mask button []⟩
    | _ => none
  else if code = codeOf kMsgDKeyDownLang then
    match readf (kMsgDKeyDownLang.drop 4) [.int 0, .int 0, .int 0, .string []] s with
    | (.ok (some [.int id, .int mask, .int button, .string lang]), _) =>
      some ⟨id, mask, fun id mask => .keyDown id mask button lang⟩
    | _ => none
  else if code = codeOf kMsgDKeyRepeat then
    match readf (kMsgDKeyRepeat.drop 4) [.int 0, .int 0, .int 0, .int 0, .string []] s with
    | (.ok (some [.int id, .int mask, .int count, .int button, .string lang]), _) =>
      some ⟨id, mask, fun id mask => .keyRepeat id mask count button lang⟩
    | _ => none
  else none

/-- The call that presses the translated key, when the event is admitted. -/
def pressOf (a : Answers) (code : Bytes) (r : ProxyRun) : Option ClientCall :=
  (keyEventOf code r.stream).bind fun k =>
    if admits a r.proxy k.id k.mask then
      some (k.forward (r.proxy.translateKey k.id) (r.proxy.translateModifierMask (cleanMask k.mask)))
    else none

/-- The messages, with what is read of each, whose handlers return as if nothing had
happened when the message is cut short. -/
def voidMessages : MessageParser → List (Bytes × List Arg)
  | .message => [(kMsgCEnter, [.int 0, .int 0, .int 0, .int 0]), (kMsgCClipboard, [.int 0, .int 0]),
      (kMsgDKeyRepeat, [.int 0, .int 0, .int 0, .int 0, .string []]), (kMsgDKeyUp, [.int 0, .int 0, .int 0]),
      (kMsgDMouseDown, [.int 0]), (kMsgDMouseUp, [.int 0]), (kMsgDMouseMove, [.int 0, .int 0]),
      (kMsgDMouseRelMove, [.int 0, .int 0]), (kMsgDMouseWheel, [.int 0, .int 0]), (kMsgCScreenSaver, [.int 0]),
      (kMsgDSetOptions, [.vector 4 []]), (kMsgDSecureInputNotification, [.string []])]
  | .handshake => [(kMsgDSetOptions, [.vector 4 []]), (kMsgDLanguageSynchronisation, [.string []])]

/-- The message is one of those and cut short, or a clipboard chunk that is refused. -/
def disconnectsSilently (a : Answers) (code : Bytes) (r : ProxyRun) : Bool :=
  match (voidMessages r.proxy.parser).find? (fun m => codeOf m.1 == code) with
  | some m => cutShort m.1 m.2 r.stream
  | none => r.proxy.parser == .message && code == codeOf kMsgDClipboard && clipboardRefused a r

private theorem silent_of_find {a : Answers} {code : Bytes} {r : ProxyRun} {parser : MessageParser}
    {m : Bytes × List Arg} (hp : r.proxy.parser = parser)
    (hm : (voidMessages parser).find? (fun m => codeOf m.1 == code) = some m) :
    disconnectsSilently a code r = cutShort m.1 m.2 r.stream := by
  simp only [disconnectsSilently, hp, hm]

private theorem loud_of_find {a : Answers} {code : Bytes} {r : ProxyRun} {parser : MessageParser}
    (hp : r.proxy.parser = parser) (hm : ((voidMessages parser).find? (fun m => codeOf m.1 == code)).isNone = true)
    (hcode : (parser == .message && code == codeOf kMsgDClipboard) = false) : disconnectsSilently a code r = false := by
  rw [Option.isNone_iff_eq_none] at hm
  simp only [disconnectsSilently, hp, hm, hcode, Bool.false_and]

private theorem silent_clipboard {a : Answers} {r : ProxyRun} (hp : r.proxy.parser = .message) :
    disconnectsSilently a (codeOf kMsgDClipboard) r = clipboardRefused a r := by
  have hm : ((voidMessages .message).find? (fun m => codeOf m.1 == codeOf kMsgDClipboard)).isNone = true := by decide
  rw [Option.isNone_iff_eq_none] at hm
  simp [disconnectsSilently, hp, hm]

/-- Everything but disconnecting is as `P` says, for what this message makes the client do. -/
structure Permits (P : Effect → Prop) (a : Answers) (code : Bytes) (r : ProxyRun) : Prop where
  usual : Effect.Usual P
  call : ∀ c : ClientCall, c.stops = false → c.presses = false → P (.call c)
  press : r.proxy.parser = .message → ∀ c, pressOf a code r = some c → P (.call c)

/-- What a parser has done with a message: it has disconnected and gone on; it has not
disconnected; it has disconnected last of all and said so. -/
inductive Parsed (P : Effect → Prop) (silent : Bool) (r : ProxyRun) : ConnectionResult × ProxyRun → Prop
  | silently {mid r' : ProxyRun} (hs : silent = true) (stop : Stop P r mid) (onward : Onward P mid r')
      (ht : r'.thrown = none) : Parsed P silent r (.okay, r')
  | goesOn {result : ConnectionResult} {r' : ProxyRun} (hs : silent = false) (onward : Onward P r r')
      (hresult : result = .disconnect → r'.thrown.isSome = true) : Parsed P silent r (result, r')
  | leaves {r' : ProxyRun} (hs : silent = false) (stop : Stop P r r') (ht : r'.thrown = none) :
      Parsed P silent r (.disconnect, r')

variable {P : Effect → Prop} {a : Answers} {code : Bytes} {r : ProxyRun} {silent : Bool}

private theorem Outcome.parsed {cut : Bool} {r' : ProxyRun} (h : Outcome P cut r r') (hs : silent = cut) :
    Parsed P silent r (.okay, r') := by
  subst hs
  cases h with
  | stops hcut stop ht => exact .silently hcut stop (.refl _) ht
  | goesOn hcut onward => exact .goesOn hcut onward (by simp)

private theorem Onward.parsed {r' : ProxyRun} (h : Onward P r r') (hs : silent = false) :
    Parsed P silent r (.okay, r') := .goesOn hs h (by simp)

/-- A parser that reads and disconnects by itself when it cannot. -/
private theorem parsed_of_none (hP : Effect.Usual P) {fmt : Bytes} {args : List Arg} {r' : ProxyRun}
    (h : r.readOrDisconnect fmt args = (none, r')) (hr : r.thrown = none) (hs : silent = false) :
    Parsed P silent r (.disconnect, r') := by
  obtain ⟨hout, hthrown⟩ := readOrDisconnect_none hP h hr
  cases hout with
  | stops hcut stop ht => exact .leaves hs stop ht
  | goesOn hcut onward => exact .goesOn hs onward fun _ => hthrown hcut

private theorem onward_readf (hP : Effect.Usual P) {fmt : Bytes} {args args' : List Arg} {s' : IStream}
    (h : readf fmt args r.stream = (.ok (some args'), s')) : Onward P r (r.read s') := by
  have hlength := shortens_readf fmt args r.stream
  rw [h] at hlength
  exact onward_read hP r hlength

private theorem parsed_recvKeyDown (h : Permits P a (codeOf kMsgDKeyDown) r) (hr : r.thrown = none)
    (hp : r.proxy.parser = .message) (hs : silent = false) : Parsed P silent r (r.recvKeyDown a) := by
  cases hread : r.readOrDisconnect kMsgDKeyDown [.int 0, .int 0, .int 0] with
  | mk result r' =>
    cases result with
    | none =>
      have hparsed := parsed_of_none h.usual hread hr hs
      simpa only [recvKeyDown, hread] using hparsed
    | some args' =>
      obtain ⟨s', hreadf, rfl⟩ := readOrDisconnect_some hread
      have hkind : args'.map Arg.kind = [.int 0, .int 0, .int 0] := readf_kind hreadf
      simp only [List.map_eq_cons_iff, List.map_eq_nil_iff, Arg.kind_eq_int] at hkind
      obtain ⟨-, -, rfl, ⟨id, rfl⟩, -, -, rfl, ⟨mask, rfl⟩, -, -, rfl, ⟨button, rfl⟩, rfl⟩ := hkind
      have hevent : keyEventOf (codeOf kMsgDKeyDown) r.stream =
          some ⟨id, mask, fun id mask => .keyDown id mask button []⟩ := by
        rw [keyEventOf, if_pos rfl, hreadf]
      have hdown : Onward P (r.read s') ((r.read s').keyDown a id mask button []) :=
        onward_keyDown h.usual (fun _ _ => h.call _ rfl rfl) (fun _ _ => h.call _ rfl rfl) fun hadmits =>
          h.press hp _ (by rw [pressOf, hevent]; exact if_pos hadmits)
      simp only [recvKeyDown, hread]
      exact ((onward_readf h.usual hreadf).trans hdown).parsed hs

private theorem parsed_recvKeyDownLang (h : Permits P a (codeOf kMsgDKeyDownLang) r) (hr : r.thrown = none)
    (hp : r.proxy.parser = .message) (hs : silent = false) : Parsed P silent r (r.recvKeyDownLang a) := by
  cases hread : r.readOrDisconnect kMsgDKeyDownLang [.int 0, .int 0, .int 0, .string []] with
  | mk result r' =>
    cases result with
    | none =>
      have hparsed := parsed_of_none h.usual hread hr hs
      simpa only [recvKeyDownLang, hread] using hparsed
    | some args' =>
      obtain ⟨s', hreadf, rfl⟩ := readOrDisconnect_some hread
      have hkind : args'.map Arg.kind = [.int 0, .int 0, .int 0, .string []] := readf_kind hreadf
      simp only [List.map_eq_cons_iff, List.map_eq_nil_iff, Arg.kind_eq_int, Arg.kind_eq_string] at hkind
      obtain ⟨-, -, rfl, ⟨id, rfl⟩, -, -, rfl, ⟨mask, rfl⟩, -, -, rfl, ⟨button, rfl⟩, -, -, rfl, ⟨lang, rfl⟩, rfl⟩ :=
        hkind
      have hevent : keyEventOf (codeOf kMsgDKeyDownLang) r.stream =
          some ⟨id, mask, fun id mask => .keyDown id mask button lang⟩ := by
        rw [keyEventOf, if_neg (by decide), if_pos rfl, hreadf]
      have hdown : Onward P (r.read s') ((r.read s').keyDown a id mask button lang) :=
        onward_keyDown h.usual (fun _ _ => h.call _ rfl rfl) (fun _ _ => h.call _ rfl rfl) fun hadmits =>
          h.press hp _ (by rw [pressOf, hevent]; exact if_pos hadmits)
      simp only [recvKeyDownLang, hread]
      exact ((onward_readf h.usual hreadf).trans hdown).parsed hs

private theorem parsed_keyRepeat (h : Permits P a (codeOf kMsgDKeyRepeat) r) (hr : r.thrown = none)
    (hp : r.proxy.parser = .message)
    (hs : silent = cutShort kMsgDKeyRepeat [.int 0, .int 0, .int 0, .int 0, .string []] r.stream) :
    Parsed P silent r (.okay, r.keyRepeat a) := by
  refine (outcome_keyRepeat h.usual hr (fun _ _ => h.call _ rfl rfl) (fun _ _ => h.call _ rfl rfl)
    fun id mask count button lang s' hreadf hadmits => ?_).parsed hs
  have hevent : keyEventOf (codeOf kMsgDKeyRepeat) r.stream =
      some ⟨id, mask, fun id mask => .keyRepeat id mask count button lang⟩ := by
    rw [keyEventOf, if_neg (by decide), if_neg (by decide), if_pos rfl, hreadf]
  exact h.press hp _ (by rw [pressOf, hevent]; exact if_pos hadmits)

private theorem parsed_recvSetOptions (h : Permits P a code r) (hr : r.thrown = none)
    (hs : silent = cutShort kMsgDSetOptions [.vector 4 []] r.stream) : Parsed P silent r (.okay, r.recvSetOptions) := by
  subst hs
  have hdone : Onward P r.setOptions r.recvSetOptions := by
    unfold recvSetOptions
    dsimp only
    split
    · exact .refl _
    · exact (onward_update h.usual _ (by rfl)).trans (onward_call (h.call _ rfl rfl) _)
  cases outcome_setOptions h.usual hr fun _ => h.call _ rfl rfl with
  | stops hcut stop ht =>
    refine .silently hcut stop hdone ?_
    simp only [recvSetOptions, ht]
    exact ht
  | goesOn hcut onward => exact (onward.trans hdone).parsed hcut

private theorem parsed_recvIncompatible (h : Permits P a code r) (hr : r.thrown = none)
    (hs : silent = false) : Parsed P silent r (.disconnect, r.recvIncompatible) := by
  cases hread : r.readOrDisconnect kMsgEIncompatible [.int 0, .int 0] with
  | mk result r' =>
    cases result with
    | none =>
      have hparsed := parsed_of_none h.usual hread hr hs
      simpa only [recvIncompatible, hread] using hparsed
    | some args' =>
      obtain ⟨s', hreadf, rfl⟩ := readOrDisconnect_some hread
      simp only [recvIncompatible, hread]
      exact .leaves hs ((onward_readf h.usual hreadf).stop (stop_call rfl _)) hr

/-- A client that is refused is one that is told to disconnect. -/
private theorem parsed_refused {c : ClientCall} (hr : r.thrown = none) (hc : c.stops = true) (hs : silent = false) :
    Parsed P silent r (.disconnect, r.call c) :=
  .leaves hs (stop_call hc r) hr

theorem parsed_parseHandshakeMessage (h : Permits P a code r) (hr : r.thrown = none)
    (hp : r.proxy.parser = .handshake) :
    Parsed P (disconnectsSilently a code r) r (r.parseHandshakeMessage a code) := by
  unfold parseHandshakeMessage
  refine iteInduction (fun hQInfo => ?_) fun hQInfo => ?_
  · subst hQInfo
    exact (onward_queryInfo h.usual (h.call _ rfl rfl) (h.call _ rfl rfl) a r).parsed (loud_of_find hp (by decide) (by decide))
  refine iteInduction (fun hInfoAck => ?_) fun hInfoAck => ?_
  · subst hInfoAck
    exact (onward_infoAcknowledgment h.usual r).parsed (loud_of_find hp (by decide) (by decide))
  refine iteInduction (fun hSetOptions => ?_) fun hSetOptions => ?_
  · subst hSetOptions
    exact parsed_recvSetOptions h hr (silent_of_find (m := (kMsgDSetOptions, [.vector 4 []])) hp (by decide))
  refine iteInduction (fun hResetOptions => ?_) fun hResetOptions => ?_
  · subst hResetOptions
    exact (onward_resetOptions h.usual (h.call _ rfl rfl) r).parsed (loud_of_find hp (by decide) (by decide))
  refine iteInduction (fun hKeepAlive => ?_) fun hKeepAlive => ?_
  · subst hKeepAlive
    exact (onward_echoKeepAlive h.usual r).parsed (loud_of_find hp (by decide) (by decide))
  refine iteInduction (fun hNoop => ?_) fun hNoop => ?_
  · subst hNoop
    exact (Onward.refl r).parsed (loud_of_find hp (by decide) (by decide))
  refine iteInduction (fun hClose => ?_) fun hClose => ?_
  · subst hClose
    exact parsed_refused hr rfl (loud_of_find hp (by decide) (by decide))
  refine iteInduction (fun hIncompatible => ?_) fun hIncompatible => ?_
  · subst hIncompatible
    exact parsed_recvIncompatible h hr (loud_of_find hp (by decide) (by decide))
  refine iteInduction (fun hBusy => ?_) fun hBusy => ?_
  · subst hBusy
    exact parsed_refused hr rfl (loud_of_find hp (by decide) (by decide))
  refine iteInduction (fun hUnknown => ?_) fun hUnknown => ?_
  · subst hUnknown
    exact parsed_refused hr rfl (loud_of_find hp (by decide) (by decide))
  refine iteInduction (fun hBad => ?_) fun hBad => ?_
  · subst hBad
    exact parsed_refused hr rfl (loud_of_find hp (by decide) (by decide))
  refine iteInduction (fun hLang => ?_) fun hLang => ?_
  · subst hLang
    exact (outcome_setServerLanguages h.usual hr).parsed
      (silent_of_find (m := (kMsgDLanguageSynchronisation, [.string []])) hp (by decide))
  refine .goesOn (loud_of_find hp ?_ (by simp)) (.refl r) (by simp)
  simp [voidMessages, Ne.symm hSetOptions, Ne.symm hLang]

theorem parsed_runHandler (h : Permits P a code r) (hr : r.thrown = none) (hp : r.proxy.parser = .message) :
    Parsed P (disconnectsSilently a code r) r (r.runHandler a code) := by
  unfold runHandler
  refine iteInduction (fun hMove => ?_) fun hMove => ?_
  · subst hMove
    exact (outcome_mouseMove h.usual hr fun _ _ => h.call _ rfl rfl).parsed
      (silent_of_find (m := (kMsgDMouseMove, [.int 0, .int 0])) hp (by decide))
  refine iteInduction (fun hDragInfo => ?_) fun hDragInfo => ?_
  · subst hDragInfo
    exact (onward_dragInfo h.usual r).parsed (loud_of_find hp (by decide) (by decide))
  refine iteInduction (fun hFile => ?_) fun hFile => ?_
  · subst hFile
    exact (onward_fileChunk h.usual (fun _ => h.call _ rfl rfl) a r).parsed (loud_of_find hp (by decide) (by decide))
  refine iteInduction (fun hRelMove => ?_) fun hRelMove => ?_
  · subst hRelMove
    exact (outcome_mouseRelativeMove h.usual hr fun _ _ => h.call _ rfl rfl).parsed
      (silent_of_find (m := (kMsgDMouseRelMove, [.int 0, .int 0])) hp (by decide))
  refine iteInduction (fun hWheel => ?_) fun hWheel => ?_
  · subst hWheel
    exact (outcome_mouseWheel h.usual hr (fun _ _ => h.call _ rfl rfl) (fun _ _ => h.call _ rfl rfl) fun _ _ => h.call _ rfl rfl).parsed
      (silent_of_find (m := (kMsgDMouseWheel, [.int 0, .int 0])) hp (by decide))
  refine iteInduction (fun hKeyDown => ?_) fun hKeyDown => ?_
  · subst hKeyDown
    exact parsed_recvKeyDown h hr hp (loud_of_find hp (by decide) (by decide))
  refine iteInduction (fun hKeyDownLang => ?_) fun hKeyDownLang => ?_
  · subst hKeyDownLang
    exact parsed_recvKeyDownLang h hr hp (loud_of_find hp (by decide) (by decide))
  refine iteInduction (fun hKeyUp => ?_) fun hKeyUp => ?_
  · subst hKeyUp
    exact (outcome_keyUp h.usual hr (fun _ _ => h.call _ rfl rfl) (fun _ _ => h.call _ rfl rfl) fun _ _ _ => h.call _ rfl rfl).parsed
      (silent_of_find (m := (kMsgDKeyUp, [.int 0, .int 0, .int 0])) hp (by decide))
  refine iteInduction (fun hDown => ?_) fun hDown => ?_
  · subst hDown
    exact (outcome_mouseDown h.usual hr (fun _ _ => h.call _ rfl rfl) (fun _ _ => h.call _ rfl rfl) fun _ => h.call _ rfl rfl).parsed
      (silent_of_find (m := (kMsgDMouseDown, [.int 0])) hp (by decide))
  refine iteInduction (fun hUp => ?_) fun hUp => ?_
  · subst hUp
    exact (outcome_mouseUp h.usual hr (fun _ _ => h.call _ rfl rfl) (fun _ _ => h.call _ rfl rfl) fun _ => h.call _ rfl rfl).parsed
      (silent_of_find (m := (kMsgDMouseUp, [.int 0])) hp (by decide))
  refine iteInduction (fun hRepeat => ?_) fun hRepeat => ?_
  · subst hRepeat
    exact parsed_keyRepeat h hr hp
      (silent_of_find (m := (kMsgDKeyRepeat, [.int 0, .int 0, .int 0, .int 0, .string []])) hp (by decide))
  refine iteInduction (fun hKeepAlive => ?_) fun hKeepAlive => ?_
  · subst hKeepAlive
    exact (onward_echoKeepAlive h.usual r).parsed (loud_of_find hp (by decide) (by decide))
  refine iteInduction (fun hNoop => ?_) fun hNoop => ?_
  · subst hNoop
    exact (Onward.refl r).parsed (loud_of_find hp (by decide) (by decide))
  refine iteInduction (fun hEnter => ?_) fun hEnter => ?_
  · subst hEnter
    exact (outcome_enter h.usual hr fun _ _ _ _ => h.call _ rfl rfl).parsed
      (silent_of_find (m := (kMsgCEnter, [.int 0, .int 0, .int 0, .int 0])) hp (by decide))
  refine iteInduction (fun hLeave => ?_) fun hLeave => ?_
  · subst hLeave
    exact (onward_leave h.usual (fun _ _ => h.call _ rfl rfl) (fun _ _ => h.call _ rfl rfl) (h.call _ rfl rfl) r).parsed (loud_of_find hp (by decide) (by decide))
  refine iteInduction (fun hGrab => ?_) fun hGrab => ?_
  · subst hGrab
    exact (outcome_grabClipboard h.usual hr fun _ => h.call _ rfl rfl).parsed
      (silent_of_find (m := (kMsgCClipboard, [.int 0, .int 0])) hp (by decide))
  refine iteInduction (fun hScreenSaver => ?_) fun hScreenSaver => ?_
  · subst hScreenSaver
    exact (outcome_screensaver h.usual hr fun _ => h.call _ rfl rfl).parsed
      (silent_of_find (m := (kMsgCScreenSaver, [.int 0])) hp (by decide))
  refine iteInduction (fun hQInfo => ?_) fun hQInfo => ?_
  · subst hQInfo
    exact (onward_queryInfo h.usual (h.call _ rfl rfl) (h.call _ rfl rfl) a r).parsed (loud_of_find hp (by decide) (by decide))
  refine iteInduction (fun hInfoAck => ?_) fun hInfoAck => ?_
  · subst hInfoAck
    exact (onward_infoAcknowledgment h.usual r).parsed (loud_of_find hp (by decide) (by decide))
  refine iteInduction (fun hClipboard => ?_) fun hClipboard => ?_
  · subst hClipboard
    exact (outcome_setClipboard h.usual hr (h.call _ rfl rfl) fun _ _ => h.call _ rfl rfl).parsed (silent_clipboard hp)
  refine iteInduction (fun hResetOptions => ?_) fun hResetOptions => ?_
  · subst hResetOptions
    exact (onward_resetOptions h.usual (h.call _ rfl rfl) r).parsed (loud_of_find hp (by decide) (by decide))
  refine iteInduction (fun hSetOptions => ?_) fun hSetOptions => ?_
  · subst hSetOptions
    exact (outcome_setOptions h.usual hr fun _ => h.call _ rfl rfl).parsed
      (silent_of_find (m := (kMsgDSetOptions, [.vector 4 []])) hp (by decide))
  refine iteInduction (fun hSecureInput => ?_) fun hSecureInput => ?_
  · subst hSecureInput
    exact (outcome_secureInputNotification h.usual hr).parsed
      (silent_of_find (m := (kMsgDSecureInputNotification, [.string []])) hp (by decide))
  refine iteInduction (fun hClose => ?_) fun hClose => ?_
  · subst hClose
    exact parsed_refused hr rfl (loud_of_find hp (by decide) (by decide))
  refine iteInduction (fun hBad => ?_) fun hBad => ?_
  · subst hBad
    exact parsed_refused hr rfl (loud_of_find hp (by decide) (by decide))
  refine .goesOn (loud_of_find hp ?_ (by simpa using hClipboard)) (.refl r) (by simp)
  simp [voidMessages, Ne.symm hEnter, Ne.symm hGrab, Ne.symm hRepeat, Ne.symm hKeyUp, Ne.symm hDown, Ne.symm hUp,
    Ne.symm hMove, Ne.symm hRelMove, Ne.symm hWheel, Ne.symm hScreenSaver, Ne.symm hSetOptions, Ne.symm hSecureInput]

theorem parsed_parse (h : Permits P a code r) (hr : r.thrown = none) :
    Parsed P (disconnectsSilently a code r) r (r.parse a code) := by
  unfold parse
  cases hp : r.proxy.parser with
  | handshake => exact parsed_parseHandshakeMessage h hr hp
  | message =>
    have hdue : ∀ r' : ProxyRun, Onward P r' (if r'.thrown.isSome then r'
        else r'.update fun p => { p with needNoopReply := true }) := by
      intro r'
      split
      · exact .refl r'
      · exact onward_update h.usual _ (by rfl)
    have hthrown : ∀ r' : ProxyRun, (if r'.thrown.isSome then r'
        else r'.update fun p => { p with needNoopReply := true }).thrown = r'.thrown := by
      intro r'
      split <;> rfl
    have hparsed := parsed_runHandler h hr hp
    unfold parseMessage
    generalize r.runHandler a code = out at hparsed
    cases hparsed with
    | silently hs stop onward ht => exact .silently hs stop (onward.trans (hdue _)) ((hthrown _).trans ht)
    | leaves hs stop ht => exact .leaves hs stop ht
    | @goesOn result r' hs onward hresult =>
      cases result with
      | okay => exact (onward.trans (hdue r')).parsed hs
      | unknown => exact .goesOn hs onward hresult
      | disconnect => exact .goesOn hs onward hresult

/-- A turn of the loop: it has done more after it has disconnected; it has not
disconnected; it has left the loop with the disconnection. A turn that goes on has read
the next code. -/
inductive Turned (P : Effect → Prop) (silent : Bool) (r : ProxyRun) : Option Bytes × ProxyRun → Prop
  | silently {mid last : ProxyRun} (hs : silent = true) (stop : Stop P r mid) (onward : Onward P mid last)
      (ht : last.thrown = none) : Turned P silent r (some last.readCode.1, last.readCode.2)
  | goesOn {last : ProxyRun} (hs : silent = false) (onward : Onward P r last) (ht : last.thrown = none) :
      Turned P silent r (some last.readCode.1, last.readCode.2)
  | leaves {r' : ProxyRun} (hs : silent = false) (stop : Stop P r r') : Turned P silent r (none, r')

theorem turned (h : Permits P a code r) (hr : r.thrown = none) :
    Turned P (disconnectsSilently a code r) r (r.turn a code) := by
  have hparsed := parsed_parse h hr
  unfold turn
  generalize r.parse a code = out at hparsed
  cases hparsed with
  | @silently mid r' hs stop onward ht =>
    simp only [ht]
    exact .silently hs stop onward ht
  | @leaves r' hs stop ht =>
    simp only [ht]
    exact .leaves hs stop
  | @goesOn result r' hs onward hresult =>
    cases ht : r'.thrown with
    | some e =>
      have hstop := stop_call (P := P) (c := .disconnect (some "invalid message from server")) rfl (r'.write kMsgEBad [])
      simp only [ht]
      exact .leaves hs ((onward.trans (onward_write h.usual _ _ _)).stop hstop)
    | none =>
      simp only [ht]
      cases result with
      | okay => exact .goesOn hs onward ht
      | unknown =>
        have honward := onward.trans (onward_read h.usual r' r'.stream.length_discard_le)
        exact .goesOn hs honward ht
      | disconnect => simp [ht] at hresult

end ProxyRun
end Synergy
