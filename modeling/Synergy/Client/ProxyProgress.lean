import Synergy.Client.ServerProxy
import Synergy.Protocol.ProtocolReads

/-! How a run of the proxy goes on: what it does meanwhile, that it reads on in the stream,
and when it tells the client to disconnect. -/
namespace Synergy
open ProtocolUtil ReadM

/-- The call deletes the proxy and its stream. -/
def ClientCall.stops : ClientCall → Bool
  | .disconnect _ => true
  | .refuseConnection _ _ => true
  | _ => false

def Effect.stops : Effect → Bool
  | .call c => c.stops
  | _ => false

/-- Reads, writes and updates are as `P` says. -/
structure Effect.Usual (P : Effect → Prop) : Prop where
  read : P .read
  write : ∀ message, P (.write message)
  update : P .update

theorem ClipboardChunk.shortens_assemble (dataCached : Bytes) (state : ClipboardChunkAssemblyState) (maxDataSize : Nat) :
    Shortens (assemble dataCached state maxDataSize) := by
  refine (shortens_readf _ _).bind fun args => ?_
  split <;> exact shortens_pure _

theorem FileChunk.shortens_assemble (dataCached : Bytes) (state : FileTransferAssemblyState) (maxFileSize : Nat) :
    Shortens (assemble dataCached state maxFileSize) := by
  refine (shortens_readf _ _).bind fun args => ?_
  split <;> exact shortens_pure _

theorem Drop.length_onDragInfo_le (d : Drop) (s : IStream) : (d.onDragInfo s).2.2.flatten.length ≤ s.flatten.length := by
  have h := shortens_readf (kMsgDDragInfo.drop 4) [.int 0, .string []] s
  unfold onDragInfo
  dsimp only
  split
  next hread => simpa [hread] using h
  next hread => simpa [hread] using h
  next hread => simpa [hread] using h

theorem Drop.length_onFileChunk_le (d : Drop) (disk : Disk) (s : IStream) :
    (d.onFileChunk disk s).2.2.flatten.length ≤ s.flatten.length := by
  have h := FileChunk.shortens_assemble d.receiver.buffer d.receiver.state d.receiver.options.maxFileSize s
  unfold onFileChunk
  split
  next hread => simpa [hread] using h
  next hread => simpa [hread] using h

namespace ProxyRun

/-- The second run has gone on from the first: what it has done meanwhile is as `P` says,
it has read on in the stream, and the configuration is the same. -/
structure Onward (P : Effect → Prop) (r r' : ProxyRun) : Prop where
  effects : ∃ new, r'.effects = r.effects ++ new ∧ ∀ e ∈ new, P e
  stream : r'.stream.flatten.length ≤ r.stream.flatten.length
  blocked : r'.proxy.inputValidator.blockedCombinations = r.proxy.inputValidator.blockedCombinations

section
variable {P : Effect → Prop}

theorem Onward.refl (r : ProxyRun) : Onward P r r := ⟨⟨[], by simp, by simp⟩, le_rfl, rfl⟩

theorem Onward.trans {r r' r'' : ProxyRun} (h : Onward P r r') (h' : Onward P r' r'') : Onward P r r'' := by
  obtain ⟨⟨new, heq, hnew⟩, hstream, hblocked⟩ := h
  obtain ⟨⟨new', heq', hnew'⟩, hstream', hblocked'⟩ := h'
  refine ⟨⟨new ++ new', by rw [heq', heq, List.append_assoc], fun e he => ?_⟩, hstream'.trans hstream,
    hblocked'.trans hblocked⟩
  exact (List.mem_append.mp he).elim (hnew e) (hnew' e)

theorem onward_call {c : ClientCall} (h : P (.call c)) (r : ProxyRun) : Onward P r (r.call c) :=
  ⟨⟨[.call c], rfl, by simpa using h⟩, le_rfl, rfl⟩

theorem onward_throw (r : ProxyRun) (e : ReadError) : Onward P r (r.throw e) := ⟨⟨[], by simp [throw], by simp⟩, le_rfl, rfl⟩

/-- Like `Onward`, and then the client is told to disconnect. -/
def Stop (P : Effect → Prop) (r r' : ProxyRun) : Prop := ∃ mid c, Onward P r mid ∧ c.stops = true ∧ r' = mid.call c

theorem stop_call {c : ClientCall} (h : c.stops = true) (r : ProxyRun) : Stop P r (r.call c) :=
  ⟨r, c, .refl r, h, rfl⟩

theorem Onward.stop {r r' r'' : ProxyRun} (h : Onward P r r') (h' : Stop P r' r'') : Stop P r r'' := by
  obtain ⟨mid, c, hmid, hc, rfl⟩ := h'
  exact ⟨mid, c, h.trans hmid, hc, rfl⟩

/-- Where disconnecting is allowed too, a stop goes on like anything else. -/
theorem Stop.onward (hstop : ∀ c : ClientCall, c.stops = true → P (.call c)) {r r' : ProxyRun} (h : Stop P r r') :
    Onward P r r' := by
  obtain ⟨mid, c, hmid, hc, rfl⟩ := h
  exact hmid.trans (onward_call (hstop c hc) mid)

/-- The handler tells the client to disconnect when it says so, last of all, and returns;
otherwise it does not. -/
inductive Outcome (P : Effect → Prop) (cut : Bool) (r r' : ProxyRun) : Prop
  | stops (hcut : cut = true) (stop : Stop P r r') (ht : r'.thrown = none)
  | goesOn (hcut : cut = false) (onward : Onward P r r')

/-- The stream ends before the message does. -/
def cutShort (fmt : Bytes) (args : List Arg) (s : IStream) : Bool :=
  match readf (fmt.drop 4) args s with
  | (.ok none, _) => true
  | _ => false

variable (hP : Effect.Usual P)
include hP

theorem onward_update (r : ProxyRun) {f : ServerProxy → ServerProxy}
    (hf : (f r.proxy).inputValidator.blockedCombinations = r.proxy.inputValidator.blockedCombinations) :
    Onward P r (r.update f) :=
  ⟨⟨[.update], rfl, by simpa using hP.update⟩, le_rfl, hf⟩

theorem onward_write (r : ProxyRun) (fmt : Bytes) (args : List Arg) : Onward P r (r.write fmt args) :=
  ⟨⟨[_], rfl, by simpa using hP.write _⟩, le_rfl, rfl⟩

theorem onward_read (r : ProxyRun) {s : IStream} (hs : s.flatten.length ≤ r.stream.flatten.length) :
    Onward P r (r.read s) :=
  ⟨⟨[.read], rfl, by simpa using hP.read⟩, hs, rfl⟩

/-- A reading that fails: the stream ends early, or the client is told of a bad server. -/
theorem readOrDisconnect_none {r r' : ProxyRun} {fmt : Bytes} {args : List Arg}
    (h : r.readOrDisconnect fmt args = (none, r')) (hr : r.thrown = none) :
    Outcome P (cutShort fmt args r.stream) r r' ∧ (cutShort fmt args r.stream = false → r'.thrown.isSome = true) := by
  have hs := shortens_readf (fmt.drop 4) args r.stream
  unfold readOrDisconnect at h
  unfold cutShort
  split at h
  next => simp at h
  next s' hread =>
    rw [hread] at hs
    obtain ⟨-, rfl⟩ := Prod.mk.inj h
    rw [hread]
    exact ⟨.stops rfl ((onward_read hP r hs).stop (stop_call rfl _)) hr, by simp⟩
  next e s' hread =>
    rw [hread] at hs
    obtain ⟨-, rfl⟩ := Prod.mk.inj h
    rw [hread]
    exact ⟨.goesOn rfl ((onward_read hP r hs).trans (onward_throw _ e)), fun _ => rfl⟩

omit hP in
theorem readOrDisconnect_some {r r' : ProxyRun} {fmt : Bytes} {args args' : List Arg}
    (h : r.readOrDisconnect fmt args = (some args', r')) :
    ∃ s', readf (fmt.drop 4) args r.stream = (.ok (some args'), s') ∧ r' = r.read s' := by
  unfold readOrDisconnect at h
  split at h
  next hread =>
    obtain ⟨hargs, rfl⟩ := Prod.mk.inj h
    obtain rfl := Option.some.inj hargs
    exact ⟨_, hread, rfl⟩
  next => simp at h
  next => simp at h

/-- A handler that, after some preparation, reads its message and acts on it. -/
theorem outcome_of_read {fmt : Bytes} {args : List Arg} {r r₀ r' : ProxyRun} (hpre : Onward P r r₀)
    (hr : r₀.thrown = none) (hs : r₀.stream = r.stream) (hargs : args.map Arg.kind = args)
    (hnone : ∀ q, r₀.readOrDisconnect fmt args = (none, q) → r' = q)
    (hsome : ∀ args' s', readf (fmt.drop 4) args r.stream = (.ok (some args'), s') →
      args'.map Arg.kind = args → r₀.readOrDisconnect fmt args = (some args', r₀.read s') → Onward P (r₀.read s') r') : Outcome P (cutShort fmt args r.stream) r r' := by
  cases h : r₀.readOrDisconnect fmt args with
  | mk result q =>
    cases result with
    | none =>
      obtain ⟨hout, -⟩ := readOrDisconnect_none hP h hr
      rw [hs] at hout
      rw [hnone q h]
      cases hout with
      | stops hcut stop ht => exact .stops hcut (hpre.stop stop) ht
      | goesOn hcut onward => exact .goesOn hcut (hpre.trans onward)
    | some args' =>
      obtain ⟨s', hread, rfl⟩ := readOrDisconnect_some h
      rw [hs] at hread
      have hlength := shortens_readf (fmt.drop 4) args r.stream
      rw [hread, ← hs] at hlength
      have hcut : cutShort fmt args r.stream = false := by
        unfold cutShort
        rw [hread]
      exact .goesOn hcut ((hpre.trans (onward_read hP r₀ hlength)).trans
        (hsome args' s' hread ((readf_kind hread).trans hargs) h))

theorem onward_flushCompressedMouse (hmove : ∀ x y, P (.call (.mouseMove x y)))
    (hrel : ∀ dx dy, P (.call (.mouseRelativeMove dx dy))) (r : ProxyRun) : Onward P r r.flushCompressedMouse := by
  have habs : Onward P r (if r.proxy.mouse.compressMouse then
      (r.update fun p => { p with mouse := { p.mouse with compressMouse := false } }).call
        (.mouseMove r.proxy.mouse.xMouse r.proxy.mouse.yMouse)
      else r) := by
    split
    · exact (onward_update hP r (by rfl)).trans (onward_call (hmove _ _) _)
    · exact .refl r
  have hmotion : ∀ r : ProxyRun, Onward P r (if r.proxy.mouse.compressMouseRelative then
      ((r.update fun p => { p with mouse := { p.mouse with compressMouseRelative := false } }).call
        (.mouseRelativeMove r.proxy.mouse.dxMouse r.proxy.mouse.dyMouse)).update fun p =>
          { p with mouse := { p.mouse with dxMouse := 0, dyMouse := 0 } }
      else r) := by
    intro r
    split
    · exact ((onward_update hP r (by rfl)).trans (onward_call (hrel _ _) _)).trans (onward_update hP _ (by rfl))
    · exact .refl r
  exact habs.trans (hmotion _)

omit hP in
@[simp] theorem flushCompressedMouse_stream (r : ProxyRun) : r.flushCompressedMouse.stream = r.stream := by
  unfold flushCompressedMouse
  dsimp only
  split_ifs <;> rfl

omit hP in
@[simp] theorem flushCompressedMouse_thrown (r : ProxyRun) : r.flushCompressedMouse.thrown = r.thrown := by
  unfold flushCompressedMouse
  dsimp only
  split_ifs <;> rfl

omit hP in
/-- Flushing touches nothing of the proxy but the motion that is held back. -/
theorem flushCompressedMouse_proxy (r : ProxyRun) :
    r.flushCompressedMouse.proxy = { r.proxy with mouse := r.flushCompressedMouse.proxy.mouse } := by
  unfold flushCompressedMouse
  dsimp only
  split_ifs <;> rfl

end

end ProxyRun
end Synergy

/-! The key events from the server: which of them are admitted, and what the client is then
told. -/
namespace Synergy
open ProtocolUtil ReadM
namespace ProxyRun

section
variable {P : Effect → Prop} (hP : Effect.Usual P)
include hP

theorem onward_setActiveServerLanguage (a : Answers) (language : Bytes) (r : ProxyRun) :
    Onward P r (r.setActiveServerLanguage a language) := by
  unfold setActiveServerLanguage
  split
  next => exact .refl r
  next =>
    have hlayout : Onward P r (if r.proxy.serverLayout ≠ language then
        r.update fun p => { p with isUserNotifiedAboutLayoutSyncError := false, serverLayout := language } else r) := by
      split
      · exact onward_update hP _ (by rfl)
      · exact .refl r
    have hnotify : ∀ r : ProxyRun, Onward P r (if !a.isLayoutInstalled r.proxy.serverLayout then
        if !r.proxy.isUserNotifiedAboutLayoutSyncError then
          r.update fun p => { p with isUserNotifiedAboutLayoutSyncError := true }
        else r
        else r.update fun p => { p with isUserNotifiedAboutLayoutSyncError := false }) := by
      intro r
      split
      · split
        · exact onward_update hP _ (by rfl)
        · exact .refl _
      · exact onward_update hP _ (by rfl)
    exact hlayout.trans (hnotify _)

omit hP in
@[simp] theorem flushCompressedMouse_inputValidator (r : ProxyRun) :
    r.flushCompressedMouse.proxy.inputValidator = r.proxy.inputValidator := by
  rw [flushCompressedMouse_proxy]

omit hP in
@[simp] theorem flushCompressedMouse_table (r : ProxyRun) :
    r.flushCompressedMouse.proxy.modifierTranslationTable = r.proxy.modifierTranslationTable := by
  rw [flushCompressedMouse_proxy]

omit hP in
@[simp] theorem setActiveServerLanguage_inputValidator (a : Answers) (language : Bytes) (r : ProxyRun) :
    (r.setActiveServerLanguage a language).proxy.inputValidator = r.proxy.inputValidator := by
  unfold setActiveServerLanguage
  dsimp only
  split_ifs <;> rfl

omit hP in
@[simp] theorem setActiveServerLanguage_table (a : Answers) (language : Bytes) (r : ProxyRun) :
    (r.setActiveServerLanguage a language).proxy.modifierTranslationTable = r.proxy.modifierTranslationTable := by
  unfold setActiveServerLanguage
  dsimp only
  split_ifs <;> rfl

/-- The key event passes the limit and is of no blocked combination. -/
def admits (a : Answers) (p : ServerProxy) (id mask : Nat) : Bool :=
  !(p.inputValidator.isRateLimited id a.now).1 && !p.inputValidator.isBlockedCombination id (cleanMask mask)

omit hP in
theorem forwardKey_eq (a : Answers) (id mask : Nat) (forward : KeyID → KeyModifierMask → ClientCall) (r : ProxyRun) :
    r.forwardKey a id mask forward =
      let r' := r.update fun p => { p with inputValidator := (r.proxy.inputValidator.isRateLimited id a.now).2 }
      if admits a r.proxy id mask then
        r'.call (forward (r.proxy.translateKey id) (r.proxy.translateModifierMask (cleanMask mask)))
      else r' := by
  unfold forwardKey admits
  have hblocked : ∀ mask, (r.proxy.inputValidator.isRateLimited id a.now).2.isBlockedCombination id mask =
      r.proxy.inputValidator.isBlockedCombination id mask := by
    intro mask
    simp [InputValidator.isBlockedCombination]
  cases hlimited : (r.proxy.inputValidator.isRateLimited id a.now).1 with
  | true => simp [hlimited]
  | false =>
    simp only [update, hblocked, hlimited]
    cases r.proxy.inputValidator.isBlockedCombination id (cleanMask mask) <;> rfl

theorem onward_forwardKey {a : Answers} {id mask : Nat} {forward : KeyID → KeyModifierMask → ClientCall} {r : ProxyRun}
    (hf : admits a r.proxy id mask = true →
      P (.call (forward (r.proxy.translateKey id) (r.proxy.translateModifierMask (cleanMask mask))))) :
    Onward P r (r.forwardKey a id mask forward) := by
  have hcount : Onward P r (r.update fun p => { p with
      inputValidator := (r.proxy.inputValidator.isRateLimited id a.now).2 }) :=
    onward_update hP r (InputValidator.isRateLimited_blockedCombinations _ _ _)
  rw [forwardKey_eq]
  dsimp only
  split
  next hadmits => exact hcount.trans (onward_call (hf hadmits) _)
  next => exact hcount

omit hP in
/-- Keys are admitted and translated by the validator and the table. -/
theorem keys_congr {p q : ServerProxy} (hv : p.inputValidator = q.inputValidator)
    (ht : p.modifierTranslationTable = q.modifierTranslationTable) (a : Answers) (id mask : Nat) :
    admits a p id mask = admits a q id mask ∧ p.translateKey id = q.translateKey id ∧
      p.translateModifierMask (cleanMask mask) = q.translateModifierMask (cleanMask mask) := by
  simp [admits, ServerProxy.translateKey, ServerProxy.translateModifierMask, hv, ht]

theorem onward_keyDown {a : Answers} {id mask button : Nat} {lang : Bytes} {r : ProxyRun}
    (hmove : ∀ x y, P (.call (.mouseMove x y))) (hrel : ∀ dx dy, P (.call (.mouseRelativeMove dx dy)))
    (hf : admits a r.proxy id mask = true →
      P (.call (.keyDown (r.proxy.translateKey id) (r.proxy.translateModifierMask (cleanMask mask)) button lang))) :
    Onward P r (r.keyDown a id mask button lang) := by
  have hready := (onward_flushCompressedMouse hP hmove hrel r).trans (onward_setActiveServerLanguage hP a lang _)
  obtain ⟨hadmits, hkey, hmask⟩ := keys_congr (p := (r.flushCompressedMouse.setActiveServerLanguage a lang).proxy)
    (q := r.proxy) (by simp) (by simp) a id mask
  refine hready.trans (onward_forwardKey hP fun h => ?_)
  rw [hkey, hmask]
  exact hf (hadmits ▸ h)

theorem outcome_keyRepeat {a : Answers} {r : ProxyRun} (hr : r.thrown = none)
    (hmove : ∀ x y, P (.call (.mouseMove x y))) (hrel : ∀ dx dy, P (.call (.mouseRelativeMove dx dy)))
    (hf : ∀ id mask count button lang s', readf (kMsgDKeyRepeat.drop 4)
        [.int 0, .int 0, .int 0, .int 0, .string []] r.stream =
          (.ok (some [.int id, .int mask, .int count, .int button, .string lang]), s') →
      admits a r.proxy id mask = true →
      P (.call (.keyRepeat (r.proxy.translateKey id) (r.proxy.translateModifierMask (cleanMask mask)) count button
        lang))) :
    Outcome P (cutShort kMsgDKeyRepeat [.int 0, .int 0, .int 0, .int 0, .string []] r.stream) r (r.keyRepeat a) := by
  refine outcome_of_read hP (onward_flushCompressedMouse hP hmove hrel r) ((flushCompressedMouse_thrown r).trans hr)
    (flushCompressedMouse_stream r) rfl (fun q h => by simp only [keyRepeat, h]) fun args' s' hread hkind h => ?_
  simp only [List.map_eq_cons_iff, List.map_eq_nil_iff, Arg.kind_eq_int, Arg.kind_eq_string] at hkind
  obtain ⟨-, -, rfl, ⟨id, rfl⟩, -, -, rfl, ⟨mask, rfl⟩, -, -, rfl, ⟨count, rfl⟩, -, -, rfl, ⟨button, rfl⟩, -, -, rfl,
    ⟨lang, rfl⟩, rfl⟩ := hkind
  obtain ⟨hadmits, hkey, hmask⟩ := keys_congr (p := (r.flushCompressedMouse.read s').proxy) (q := r.proxy)
    (by simp [read]) (by simp [read]) a id mask
  simp only [keyRepeat, h]
  refine onward_forwardKey hP fun hpass => ?_
  rw [hkey, hmask]
  exact hf id mask count button lang s' hread (hadmits ▸ hpass)

end

end ProxyRun
end Synergy
