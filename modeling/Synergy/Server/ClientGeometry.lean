import Synergy.Client.ServerProxy
import Synergy.Protocol.ProtocolRoundTrip
import Synergy.Server.ClientProxy

/-! The shape and the cursor position that the server keeps of a client, over all messages from it, and
the positions that are sent to the client. -/
namespace Synergy
open ProtocolUtil Synergy.Lib

/-- The classes of proxies that know different messages. -/
inductive ProxyClass
  | v1_0
  | v1_3
  | v1_5
  deriving DecidableEq, Repr

/-- The argument for a number that is signed. -/
def uint32 (v : Int) : Nat := (BitVec.ofInt 32 v).toNat

namespace ClientInfo

/-- The position is on the screen. -/
def Inside (i : ClientInfo) (x y : Int) : Prop := i.x ≤ x ∧ x < i.x + i.w ∧ i.y ≤ y ∧ y < i.y + i.h

/-- The middle of the screen is in numbers of 16 bits. -/
def Centered (i : ClientInfo) : Prop := i.x + i.w / 2 < 2 ^ 15 ∧ i.y + i.h / 2 < 2 ^ 15

structure Sane (i : ClientInfo) : Prop where
  width : 0 < i.w
  height : 0 < i.h
  cursor : i.Inside i.mx i.my

/-- No position on the screen is past the numbers of 16 bits. -/
def Ends (i : ClientInfo) : Prop := i.x + i.w ≤ 2 ^ 15 ∧ i.y + i.h ≤ 2 ^ 15

/-- What is kept of a reported shape: the cursor is in the middle when it is outside. -/
def settle (i : ClientInfo) : ClientInfo :=
  let outside := i.mx < i.x ∨ i.x + i.w ≤ i.mx ∨ i.my < i.y ∨ i.y + i.h ≤ i.my
  { i with
    mx := if outside then int16 (i.x + i.w / 2) else i.mx
    my := if outside then int16 (i.y + i.h / 2) else i.my }

end ClientInfo

namespace ClientProxy

def enter (p : ClientProxy) (xAbs yAbs : Int) (seqNum : Nat) (mask : KeyModifierMask) : ClientProxy :=
  { p with sent := p.sent ++
    [(writef kMsgCEnter [.int (uint32 xAbs), .int (uint32 yAbs), .int seqNum, .int mask.toNat]).toOption.getD []] }

def mouseMove (p : ClientProxy) (xAbs yAbs : Int) : ClientProxy :=
  { p with sent := p.sent ++ [(writef kMsgDMouseMove [.int (uint32 xAbs), .int (uint32 yAbs)]).toOption.getD []] }

def parseMessageAs : ProxyClass → ClientProxy → Bytes → ReadM (Bool × ClientProxy)
  | .v1_0, p, code => p.parseMessage1_0 code
  | .v1_3, p, code => p.parseMessage1_3 code
  | .v1_5, p, code => p.parseMessage code

def parseAs (version : ProxyClass) (p : ClientProxy) (code : Bytes) : ReadM (Bool × ClientProxy) :=
  match p.parser with
  | .handshake => p.parseHandshakeMessage code
  | .message => parseMessageAs version p code

/-- The shape that a stream reports, if it is accepted. -/
def reportedInfo (s : IStream) : Option ClientInfo :=
  match (readf (kMsgDInfo.drop 4) [.int 0, .int 0, .int 0, .int 0, .int 0, .int 0, .int 0] s).1 with
  | .ok (some [.int x, .int y, .int w, .int h, .int _, .int mx, .int my]) =>
    if int16 w ≤ 0 ∨ int16 h ≤ 0 then none else some ⟨int16 x, int16 y, int16 w, int16 h, int16 mx, int16 my⟩
  | _ => none

/-- The shape that a message reports. -/
def reported (code : Bytes) (s : IStream) : Option ClientInfo :=
  if code = codeOf kMsgDInfo then reportedInfo s else none

/-- The shapes that are accepted from messages, each a code with the stream that follows it. A message
that ends early disconnects the client. -/
def reports (version : ProxyClass) : ClientProxy → List (Bytes × IStream) → List ClientInfo
  | _, [] => []
  | p, (code, s) :: messages =>
    match (parseAs version p code s).1 with
    | .error _ => []
    | .ok (_, p') => (reported code s).toList ++ reports version p' messages

/-- The shape is sane from the first one that is accepted on. -/
def StaysSane (version : ProxyClass) : Bool → ClientProxy → List (Bytes × IStream) → Prop
  | accepted, p, [] => accepted = true → p.info.Sane
  | accepted, p, (code, s) :: messages =>
    (accepted = true → p.info.Sane) ∧
      match (parseAs version p code s).1 with
      | .error _ => accepted = true → p.disconnect.info.Sane
      | .ok (handled, p') => StaysSane version (accepted || (code = codeOf kMsgDInfo && handled)) p' messages

/-- The client takes a position as it was sent, on entering the screen and when the mouse moves. -/
def ReadBack (x y : Int) : Prop :=
  (∀ (p : ClientProxy) (seqNum : Nat) (mask : KeyModifierMask), seqNum < 2 ^ 32 → ∃ body,
    (p.enter x y seqNum mask).sent = p.sent ++ [codeOf kMsgCEnter ++ body] ∧
    ∀ (r : ProxyRun) (suffix : Bytes), r.stream.Holds (body ++ suffix) →
      ∃ received, r.enter.effects.getLast? = some (.call (.enter x y seqNum received false))) ∧
  ∀ p : ClientProxy, ∃ body, (p.mouseMove x y).sent = p.sent ++ [codeOf kMsgDMouseMove ++ body] ∧
    ∀ (a : Answers) (r : ProxyRun) (suffix : Bytes), r.stream.Holds (body ++ suffix) →
      ∃ rest, rest.Holds suffix ∧ r.mouseMove a = (r.read rest).onMouseMove a x y

/-- What handling a message leaves of the shape. -/
def KeepsInfo (info : ClientInfo) (m : ReadM (Bool × ClientProxy)) : Prop :=
  ∀ s handled p rest, m s = (.ok (handled, p), rest) → p.info = info

theorem keepsInfo_pure {info : ClientInfo} {handled : Bool} {p : ClientProxy} (h : p.info = info) :
    KeepsInfo info (pure (handled, p)) := by
  rintro s handled p rest ⟨⟩
  exact h

theorem KeepsInfo.bind {α : Type} {info : ClientInfo} (m : ReadM α) {f : α → ReadM (Bool × ClientProxy)}
    (h : ∀ a, KeepsInfo info (f a)) : KeepsInfo info (m >>= f) := by
  intro s handled p rest hrun
  cases hm : m s with
  | mk r s' =>
    cases r with
    | error e =>
      rw [ReadM.bind_error hm] at hrun
      cases hrun
    | ok a => exact h a s' handled p rest ((ReadM.bind_ok hm f).symm.trans hrun)

private theorem onClipboardAssembled_info (p : ClientProxy) (r : ClipboardChunk.Assembled) :
    (p.onClipboardAssembled r).2.info = p.info := by
  unfold onClipboardAssembled
  cases r.transfer <;> rfl

private theorem keepsInfo_recvClipboard (p : ClientProxy) : KeepsInfo p.info p.recvClipboard := by
  unfold recvClipboard
  cases p.version with
  | v1_5 => exact keepsInfo_pure rfl
  | v1_6 => exact .bind _ fun r => keepsInfo_pure (onClipboardAssembled_info p r)
  | v1_7 => exact .bind _ fun r => keepsInfo_pure (onClipboardAssembled_info p r)
  | v1_8 => exact .bind _ fun r => keepsInfo_pure (onClipboardAssembled_info p r)

private theorem keepsInfo_recvGrabClipboard (p : ClientProxy) : KeepsInfo p.info p.recvGrabClipboard := by
  refine .bind _ fun args => ?_
  split
  · split_ifs
    · exact keepsInfo_pure rfl
    · exact keepsInfo_pure rfl
  · exact keepsInfo_pure rfl

/-- An accepted shape is settled and kept. -/
private theorem acceptInfo_eq (p : ClientProxy) (x y w h mx my : Int) :
    (p.acceptInfo x y w h mx my).1 = !(w ≤ 0 ∨ h ≤ 0 : Bool) ∧
      (p.acceptInfo x y w h mx my).2.info =
        if w ≤ 0 ∨ h ≤ 0 then p.info else ClientInfo.settle ⟨x, y, w, h, mx, my⟩ := by
  unfold acceptInfo
  split_ifs with hempty
  · exact ⟨by simp [hempty], rfl⟩
  · exact ⟨by simp [hempty], rfl⟩

private theorem recvInfo_ok {p p' : ClientProxy} {s rest : IStream} {handled : Bool}
    (h : p.recvInfo s = (.ok (handled, p'), rest)) :
    handled = (reportedInfo s).isSome ∧ p'.info = ((reportedInfo s).map ClientInfo.settle).getD p.info := by
  obtain ⟨args, s', hread, hmore⟩ := ReadM.bind_eq_ok h
  unfold reportedInfo
  rw [hread]
  split at hmore
  · next x y w h _ mx my =>
    obtain ⟨haccepted, hinfo⟩ := p.acceptInfo_eq (int16 x) (int16 y) (int16 w) (int16 h) (int16 mx) (int16 my)
    have hpair : p.acceptInfo (int16 x) (int16 y) (int16 w) (int16 h) (int16 mx) (int16 my) = (handled, p') :=
      Except.ok.inj (Prod.mk.inj hmore).1
    rw [hpair] at haccepted hinfo
    dsimp only at haccepted hinfo ⊢
    rw [haccepted, hinfo]
    split_ifs with hempty
    · simp [hempty]
    · simp [hempty]
  · next hother =>
    obtain ⟨rfl, rfl⟩ := Prod.mk.inj (Except.ok.inj (Prod.mk.inj hmore).1)
    dsimp only
    split
    · next heq => exact absurd (Except.ok.inj heq) (hother _ _ _ _ _ _ _)
    · exact ⟨rfl, rfl⟩

/-- An accepted shape is told to the rest of the server. -/
private theorem recvInfo_of_told {p p' : ClientProxy} {event : ProxyEvent} {s rest : IStream} {handled : Bool}
    (h : (do
      let (ok, q) ← p.recvInfo
      return if ok then (true, q.addEvent event) else (false, q) : ReadM (Bool × ClientProxy)) s =
        (.ok (handled, p'), rest)) :
    ∃ q, p.recvInfo s = (.ok (handled, q), rest) ∧ q.info = p'.info := by
  obtain ⟨⟨ok, q⟩, s', hrecv, hmore⟩ := ReadM.bind_eq_ok h
  obtain ⟨hpair, rfl⟩ := Prod.mk.inj hmore
  cases ok with
  | true =>
    obtain ⟨rfl, rfl⟩ := Prod.mk.inj (Except.ok.inj hpair)
    exact ⟨q, hrecv, rfl⟩
  | false =>
    obtain ⟨rfl, rfl⟩ := Prod.mk.inj (Except.ok.inj hpair)
    exact ⟨q, hrecv, rfl⟩

private theorem parseAs_info (version : ProxyClass) (p : ClientProxy) :
    ∃ (q : ClientProxy) (event : ProxyEvent), q.info = p.info ∧ parseAs version p (codeOf kMsgDInfo) = do
      let (ok, q) ← q.recvInfo
      return if ok then (true, q.addEvent event) else (false, q) := by
  have hother : codeOf kMsgDInfo ≠ codeOf kMsgCNoop ∧ codeOf kMsgDInfo ≠ codeOf kMsgCKeepAlive ∧
      codeOf kMsgDInfo ≠ codeOf kMsgDFileTransfer ∧ codeOf kMsgDInfo ≠ codeOf kMsgDDragInfo := by decide
  have holdest : p.parseMessage1_0 (codeOf kMsgDInfo) = do
      let (ok, q) ← p.recvInfo
      return if ok then (true, q.addEvent .screenShapeChanged) else (false, q) := by
    rw [parseMessage1_0, if_pos rfl]
  have holder : p.parseMessage1_3 (codeOf kMsgDInfo) = p.parseMessage1_0 (codeOf kMsgDInfo) := by
    rw [parseMessage1_3, if_neg hother.2.1]
  unfold parseAs
  cases p.parser with
  | handshake =>
    refine ⟨{ p with parser := .message }, .ready, rfl, ?_⟩
    dsimp only
    rw [parseHandshakeMessage, if_neg hother.1, if_pos rfl]
  | message =>
    refine ⟨p, .screenShapeChanged, rfl, ?_⟩
    cases version with
    | v1_0 => exact holdest
    | v1_3 => exact holder.trans holdest
    | v1_5 =>
      have hnewest : p.parseMessage (codeOf kMsgDInfo) = p.parseMessage1_3 (codeOf kMsgDInfo) := by
        rw [parseMessage, if_neg hother.2.2.1, if_neg hother.2.2.2]
      exact hnewest.trans (holder.trans holdest)

private theorem keepsInfo_parseMessage1_0 (p : ClientProxy) {code : Bytes} (h : code ≠ codeOf kMsgDInfo) :
    KeepsInfo p.info (p.parseMessage1_0 code) := by
  unfold parseMessage1_0
  rw [if_neg h]
  split_ifs
  · exact keepsInfo_pure rfl
  · exact keepsInfo_recvGrabClipboard p
  · exact keepsInfo_recvClipboard p
  · exact keepsInfo_pure rfl

private theorem keepsInfo_parseMessage1_3 (p : ClientProxy) {code : Bytes} (h : code ≠ codeOf kMsgDInfo) :
    KeepsInfo p.info (p.parseMessage1_3 code) := by
  unfold parseMessage1_3
  split_ifs
  · exact keepsInfo_pure rfl
  · exact keepsInfo_parseMessage1_0 p h

private theorem keepsInfo_parseMessage (p : ClientProxy) {code : Bytes} (h : code ≠ codeOf kMsgDInfo) :
    KeepsInfo p.info (p.parseMessage code) := by
  unfold parseMessage
  split_ifs
  · rintro s handled p' rest ⟨⟩
    rfl
  · rintro s handled p' rest ⟨⟩
    rfl
  · exact keepsInfo_parseMessage1_3 p h

private theorem keepsInfo_parseAs (version : ProxyClass) (p : ClientProxy) {code : Bytes}
    (h : code ≠ codeOf kMsgDInfo) : KeepsInfo p.info (parseAs version p code) := by
  unfold parseAs
  cases p.parser with
  | handshake =>
    dsimp only
    unfold parseHandshakeMessage
    rw [if_neg h]
    split_ifs
    · exact keepsInfo_pure rfl
    · exact keepsInfo_pure rfl
  | message =>
    cases version with
    | v1_0 => exact keepsInfo_parseMessage1_0 p h
    | v1_3 => exact keepsInfo_parseMessage1_3 p h
    | v1_5 => exact keepsInfo_parseMessage p h

/-- One message: only a shape that is accepted changes the shape that is kept. -/
theorem parseAs_ok {version : ProxyClass} {p p' : ClientProxy} {code : Bytes} {s rest : IStream} {handled : Bool}
    (h : parseAs version p code s = (.ok (handled, p'), rest)) :
    (code = codeOf kMsgDInfo && handled) = (reported code s).isSome ∧
      p'.info = ((reported code s).map ClientInfo.settle).getD p.info := by
  by_cases hinfo : code = codeOf kMsgDInfo
  · subst hinfo
    obtain ⟨q, event, hq, hparse⟩ := parseAs_info version p
    rw [hparse] at h
    obtain ⟨q', hrecv, hsame⟩ := recvInfo_of_told h
    obtain ⟨hhandled, hkept⟩ := recvInfo_ok hrecv
    have hreport : reported (codeOf kMsgDInfo) s = reportedInfo s := if_pos rfl
    rw [hreport, decide_eq_true rfl, Bool.true_and, ← hsame, hkept, hq]
    exact ⟨hhandled, rfl⟩
  · have hreport : reported code s = none := if_neg hinfo
    rw [hreport, decide_eq_false hinfo, Bool.false_and]
    exact ⟨rfl, keepsInfo_parseAs version p hinfo s handled p' rest h⟩

private theorem int16_eq {v : Int} (h : -2 ^ 15 ≤ v ∧ v < 2 ^ 15) : int16 v = v := by
  rw [int16, BitVec.toInt_ofInt, Int.bmod]
  split_ifs <;> omega

private theorem int16_range (v : Int) : -2 ^ 15 ≤ int16 v ∧ int16 v < 2 ^ 15 := by
  rw [int16, BitVec.toInt_ofInt, Int.bmod]
  split_ifs <;> omega

/-- The low half of an argument is all that the variable of the client gets. -/
private theorem int16_uint32 (v : Int) : int16 ((uint32 v % 2 ^ 16 : Nat) : Int) = int16 v := by
  rw [int16, int16, uint32, BitVec.toInt_ofInt, BitVec.toInt_ofInt, BitVec.toNat_ofInt, Int.bmod, Int.bmod]
  split_ifs <;> omega

/-- The body of the message that a position is sent in on entering the screen. -/
def enterFields (x y : Int) (seqNum : Nat) (mask : KeyModifierMask) : List Field :=
  [.int 2 (uint32 x % 2 ^ 16), .int 2 (uint32 y % 2 ^ 16), .int 4 seqNum, .int 2 (mask.toNat % 2 ^ 16)]

def mouseMoveFields (x y : Int) : List Field := [.int 2 (uint32 x % 2 ^ 16), .int 2 (uint32 y % 2 ^ 16)]

private theorem bigEndian_two (n : Nat) : bigEndian 2 (n % 2 ^ 16) = bigEndian 2 n := bigEndian_mod 2 n

private theorem enter_sent (p : ClientProxy) (x y : Int) (seqNum : Nat) (mask : KeyModifierMask) :
    (p.enter x y seqNum mask).sent = p.sent ++ [codeOf kMsgCEnter ++ bytesOf (enterFields x y seqNum mask)] := by
  have hscan : scanFormat none kMsgCEnter = (codeOf kMsgCEnter).map .regular ++
      [.spec 2 .int, .spec 2 .int, .spec 4 .int, .spec 2 .int] := by decide
  have hcode : codeOf kMsgCEnter = [67, 73, 78, 78] := by decide
  have hbytes : bytesOf (enterFields x y seqNum mask) = bigEndian 2 (uint32 x) ++ (bigEndian 2 (uint32 y) ++
      (bigEndian 4 seqNum ++ (bigEndian 2 mask.toNat ++ []))) := by
    rw [← bigEndian_two (uint32 x), ← bigEndian_two (uint32 y), ← bigEndian_two mask.toNat]
    rfl
  unfold enter writef
  rw [hscan, hcode, hbytes]
  rfl

private theorem mouseMove_sent (p : ClientProxy) (x y : Int) :
    (p.mouseMove x y).sent = p.sent ++ [codeOf kMsgDMouseMove ++ bytesOf (mouseMoveFields x y)] := by
  have hscan : scanFormat none kMsgDMouseMove = (codeOf kMsgDMouseMove).map .regular ++
      [.spec 2 .int, .spec 2 .int] := by decide
  have hcode : codeOf kMsgDMouseMove = [68, 77, 77, 86] := by decide
  have hbytes : bytesOf (mouseMoveFields x y) = bigEndian 2 (uint32 x) ++ (bigEndian 2 (uint32 y) ++ []) := by
    rw [← bigEndian_two (uint32 x), ← bigEndian_two (uint32 y)]
    rfl
  unfold mouseMove writef
  rw [hscan, hcode, hbytes]
  rfl

/-- The proxy of the client reads the fields of a message. -/
private theorem readOrDisconnect_holds {fmt : Bytes} {fields : List Field} {r : ProxyRun} {suffix : Bytes}
    (hfmt : fmt.drop 4 = formatOf fields) (hvalid : ∀ f ∈ fields, f.Valid)
    (hs : r.stream.Holds (bytesOf fields ++ suffix)) :
    ∃ rest, rest.Holds suffix ∧ r.readOrDisconnect fmt (blanksOf fields) = (some (argsOf fields), r.read rest) := by
  obtain ⟨rest, hread, hrest⟩ := reads_readf hvalid r.stream suffix hs
  refine ⟨rest, hrest, ?_⟩
  unfold ProxyRun.readOrDisconnect
  rw [hfmt, hread]

private theorem valid_int16 (n : Nat) : (Field.int 2 (n % 2 ^ 16)).Valid :=
  ⟨.inr (.inl rfl), Nat.mod_lt _ (by decide)⟩

/-- What the client gets of a position is its low half. -/
private theorem enter_read (x y : Int) {seqNum : Nat} (hseq : seqNum < 2 ^ 32) (mask : KeyModifierMask) {r : ProxyRun}
    {suffix : Bytes} (hs : r.stream.Holds (bytesOf (enterFields x y seqNum mask) ++ suffix)) :
    r.enter.effects.getLast? = some (.call (.enter (int16 x) (int16 y) seqNum
      (BitVec.ofNat 32 (mask.toNat % 2 ^ 16)) false)) := by
  have hvalid : ∀ f ∈ enterFields x y seqNum mask, f.Valid := by
    simp only [enterFields, List.forall_mem_cons]
    exact ⟨valid_int16 _, valid_int16 _, ⟨.inr (.inr rfl), hseq⟩, valid_int16 _, nofun⟩
  have hplain : kMsgCEnter.drop 4 = formatOf [.int 2 0, .int 2 0, .int 4 0, .int 2 0] := by decide
  have hfmt : kMsgCEnter.drop 4 = formatOf (enterFields x y seqNum mask) := hplain
  obtain ⟨rest, -, hread⟩ := readOrDisconnect_holds hfmt hvalid hs
  have hblanks : blanksOf (enterFields x y seqNum mask) = [.int 0, .int 0, .int 0, .int 0] := rfl
  have hargs : argsOf (enterFields x y seqNum mask) = [.int (uint32 x % 2 ^ 16), .int (uint32 y % 2 ^ 16), .int seqNum,
    .int (mask.toNat % 2 ^ 16)] := rfl
  rw [hblanks, hargs] at hread
  unfold ProxyRun.enter
  rw [hread]
  dsimp only [ProxyRun.call]
  rw [List.getLast?_append, int16_uint32, int16_uint32]
  rfl

private theorem mouseMove_read (x y : Int) (a : Answers) {r : ProxyRun} {suffix : Bytes}
    (hs : r.stream.Holds (bytesOf (mouseMoveFields x y) ++ suffix)) :
    ∃ rest, rest.Holds suffix ∧ r.mouseMove a = (r.read rest).onMouseMove a (int16 x) (int16 y) := by
  have hvalid : ∀ f ∈ mouseMoveFields x y, f.Valid := by
    simp only [mouseMoveFields, List.forall_mem_cons]
    exact ⟨valid_int16 _, valid_int16 _, nofun⟩
  have hplain : kMsgDMouseMove.drop 4 = formatOf [.int 2 0, .int 2 0] := by decide
  have hfmt : kMsgDMouseMove.drop 4 = formatOf (mouseMoveFields x y) := hplain
  obtain ⟨rest, hrest, hread⟩ := readOrDisconnect_holds hfmt hvalid hs
  have hblanks : blanksOf (mouseMoveFields x y) = [.int 0, .int 0] := rfl
  have hargs : argsOf (mouseMoveFields x y) = [.int (uint32 x % 2 ^ 16), .int (uint32 y % 2 ^ 16)] := rfl
  rw [hblanks, hargs] at hread
  refine ⟨rest, hrest, ?_⟩
  unfold ProxyRun.mouseMove
  rw [hread]
  dsimp only
  rw [int16_uint32, int16_uint32]

/-- Exactly the positions of 16 bits are read back. -/
theorem readBack_iff (x y : Int) : ReadBack x y ↔ int16 x = x ∧ int16 y = y := by
  constructor
  · rintro ⟨henter, -⟩
    obtain ⟨body, hsent, hread⟩ := henter ⟨.v1_5, 0, .message, {}, fun _ => {}, [], {}, [], []⟩ 0 0 (by decide)
    rw [enter_sent, List.append_cancel_left_eq, List.cons.injEq, List.append_cancel_left_eq] at hsent
    obtain ⟨rfl, -⟩ := hsent
    have hne : bytesOf (enterFields x y 0 0) ≠ [] := by simp [enterFields, bytesOf, Field.bytes, bigEndian]
    let r : ProxyRun :=
      { proxy := { drop := { receiver := { options := { dropDirectory := [] } }, files := fun _ => none } },
        stream := [bytesOf (enterFields x y 0 0)] }
    have hholds : r.stream.Holds (bytesOf (enterFields x y 0 0) ++ []) :=
      ⟨List.forall_mem_singleton.mpr hne, by simp [r]⟩
    obtain ⟨received, heffect⟩ := hread r [] hholds
    rw [enter_read x y (by decide) 0 hholds] at heffect
    simp only [Option.some.injEq, Effect.call.injEq, ClientCall.enter.injEq] at heffect
    exact ⟨heffect.1, heffect.2.1⟩
  · rintro ⟨hx, hy⟩
    refine ⟨fun p seqNum mask hseq => ⟨_, enter_sent p x y seqNum mask, fun r suffix hs => ⟨BitVec.ofNat 32 (mask.toNat % 2 ^ 16), ?_⟩⟩,
      fun p => ⟨_, mouseMove_sent p x y, fun a r suffix hs => ?_⟩⟩
    · have hread := enter_read x y hseq mask hs
      rwa [hx, hy] at hread
    · have hread := mouseMove_read x y a hs
      rwa [hx, hy] at hread

private theorem int16_wrapped {v : Int} (h : 2 ^ 15 ≤ v ∧ v < 2 ^ 16) : int16 v = v - 2 ^ 16 := by
  rw [int16, BitVec.toInt_ofInt, Int.bmod]
  split_ifs <;> omega

/-- An accepted report is one of numbers of 16 bits, and not empty. -/
private theorem reported_range {code : Bytes} {s : IStream} {i : ClientInfo} (h : reported code s = some i) :
    (0 < i.w ∧ i.w < 2 ^ 15) ∧ (0 < i.h ∧ i.h < 2 ^ 15) ∧ (-2 ^ 15 ≤ i.x ∧ i.x < 2 ^ 15) ∧
      (-2 ^ 15 ≤ i.y ∧ i.y < 2 ^ 15) := by
  unfold reported reportedInfo at h
  split_ifs at h
  split at h
  · split_ifs at h with hempty
    obtain rfl := Option.some.inj h
    rw [not_or, Int.not_le, Int.not_le] at hempty
    exact ⟨⟨hempty.1, (int16_range _).2⟩, ⟨hempty.2, (int16_range _).2⟩, int16_range _, int16_range _⟩
  · cases h

/-- The middle between two ends is on the screen unless it is past the numbers of 16 bits. -/
private theorem middle_inside_iff {start length : Int} (hlength : 0 < length ∧ length < 2 ^ 15)
    (hstart : -2 ^ 15 ≤ start ∧ start < 2 ^ 15) :
    (start ≤ int16 (start + length / 2) ∧ int16 (start + length / 2) < start + length) ↔
      start + length / 2 < 2 ^ 15 := by
  rcases lt_or_ge (start + length / 2) (2 ^ 15) with hfits | hpast
  · rw [int16_eq (by omega)]
    omega
  · rw [int16_wrapped (by omega)]
    omega

/-- The cursor that is kept is on the screen just if it was there or the middle can be told. -/
theorem settle_sane_iff {code : Bytes} {s : IStream} {i : ClientInfo} (h : reported code s = some i) :
    i.settle.Sane ↔ i.Inside i.mx i.my ∨ i.Centered := by
  obtain ⟨hw, hh, hx, hy⟩ := reported_range h
  by_cases hinside : i.Inside i.mx i.my
  · have hsettled : i.settle = i := by
      obtain ⟨hleft, hright, htop, hbottom⟩ := hinside
      unfold ClientInfo.settle
      have hno : ¬ (i.mx < i.x ∨ i.x + i.w ≤ i.mx ∨ i.my < i.y ∨ i.y + i.h ≤ i.my) := by omega
      dsimp only
      rw [if_neg hno, if_neg hno]
    rw [hsettled]
    exact ⟨fun _ => .inl hinside, fun _ => ⟨hw.1, hh.1, hinside⟩⟩
  · have hyes : i.mx < i.x ∨ i.x + i.w ≤ i.mx ∨ i.my < i.y ∨ i.y + i.h ≤ i.my := by
      unfold ClientInfo.Inside at hinside
      omega
    have hsettled : i.settle = { i with mx := int16 (i.x + i.w / 2), my := int16 (i.y + i.h / 2) } := by
      unfold ClientInfo.settle
      dsimp only
      rw [if_pos hyes, if_pos hyes]
    have hmiddle : i.settle.Inside i.settle.mx i.settle.my ↔ i.Centered := by
      rw [hsettled, ClientInfo.Inside, ClientInfo.Centered, ← middle_inside_iff hw hx, ← middle_inside_iff hh hy,
        and_assoc]
    rw [or_iff_right hinside, ← hmiddle]
    exact ⟨fun hsane => hsane.cursor, fun hcursor => ⟨by rw [hsettled]; exact hw.1, by rw [hsettled]; exact hh.1, hcursor⟩⟩

private theorem mem_reports {version : ProxyClass} {messages : List (Bytes × IStream)} {p : ClientProxy}
    {i : ClientInfo} (h : i ∈ reports version p messages) : ∃ code s, reported code s = some i := by
  induction messages generalizing p with
  | nil => cases h
  | cons message messages ih =>
    obtain ⟨code, s⟩ := message
    unfold reports at h
    split at h
    · cases h
    · rcases List.mem_append.mp h with h | h
      · exact ⟨code, s, Option.mem_toList.mp h⟩
      · exact ih h

private theorem StaysSane.sane {version : ProxyClass} {p : ClientProxy} {messages : List (Bytes × IStream)}
    (h : StaysSane version true p messages) : p.info.Sane := by
  cases messages with
  | nil => exact h rfl
  | cons => exact h.1 rfl

/-- The shape stays sane just if each accepted report has its cursor on the screen or a middle in numbers
of 16 bits. -/
theorem staysSane_iff {version : ProxyClass} {messages : List (Bytes × IStream)} {accepted : Bool}
    {p : ClientProxy} (h : accepted = true → p.info.Sane) :
    StaysSane version accepted p messages ↔
      ∀ i ∈ reports version p messages, i.Inside i.mx i.my ∨ i.Centered := by
  induction messages generalizing accepted p with
  | nil => exact ⟨fun _ _ hi => (nomatch hi), fun _ => h⟩
  | cons message messages ih =>
    obtain ⟨code, s⟩ := message
    unfold StaysSane reports
    cases hparse : parseAs version p code s with
    | mk result rest =>
      cases result with
      | error e => exact ⟨fun _ _ hi => (nomatch hi), fun _ => ⟨h, h⟩⟩
      | ok handledTo =>
        obtain ⟨handled, p'⟩ := handledTo
        obtain ⟨hhandled, hkept⟩ := parseAs_ok hparse
        dsimp only
        rw [hhandled]
        cases hreport : reported code s with
        | none =>
          rw [hreport] at hkept
          have hinfo : p'.info = p.info := hkept
          rw [Option.isSome_none, Bool.or_false, ih fun ha => hinfo ▸ h ha]
          exact and_iff_right h
        | some i =>
          rw [hreport] at hkept
          have hinfo : p'.info = i.settle := hkept
          rw [Option.isSome_some, Bool.or_true, Option.toList_some, List.singleton_append, List.forall_mem_cons,
            ← settle_sane_iff hreport]
          constructor
          · rintro ⟨-, hrest⟩
            have hsane := hrest.sane
            exact ⟨hinfo ▸ hsane, (ih fun _ => hsane).mp hrest⟩
          · rintro ⟨hsane, hrest⟩
            exact ⟨h, (ih fun _ => hinfo ▸ hsane).mpr hrest⟩

/-- The shape stays sane and all positions on it reach the client just if each accepted shape ends
within the numbers of 16 bits. -/
theorem geometry_iff (version : ProxyClass) (p : ClientProxy) (messages : List (Bytes × IStream)) :
    (StaysSane version false p messages ∧
      ∀ i ∈ reports version p messages, ∀ x y, i.Inside x y → ReadBack x y) ↔
      ∀ i ∈ reports version p messages, i.Ends := by
  rw [staysSane_iff fun h => absurd h Bool.false_ne_true]
  constructor
  · rintro ⟨-, hread⟩ i hi
    obtain ⟨code, s, hreport⟩ := mem_reports hi
    obtain ⟨hw, hh, hx, hy⟩ := reported_range hreport
    have hlast : i.Inside (i.x + i.w - 1) (i.y + i.h - 1) := ⟨by omega, by omega, by omega, by omega⟩
    obtain ⟨hxlast, hylast⟩ := (readBack_iff _ _).mp (hread i hi _ _ hlast)
    have hxrange := (int16_range (i.x + i.w - 1)).2
    have hyrange := (int16_range (i.y + i.h - 1)).2
    exact ⟨by omega, by omega⟩
  · intro hends
    constructor
    · intro i hi
      obtain ⟨code, s, hreport⟩ := mem_reports hi
      obtain ⟨hw, hh, -, -⟩ := reported_range hreport
      obtain ⟨hx, hy⟩ := hends i hi
      exact .inr ⟨by omega, by omega⟩
    · intro i hi x y hinside
      obtain ⟨code, s, hreport⟩ := mem_reports hi
      obtain ⟨-, -, hx, hy⟩ := reported_range hreport
      obtain ⟨hxend, hyend⟩ := hends i hi
      obtain ⟨hleft, hright, htop, hbottom⟩ := hinside
      exact (readBack_iff x y).mpr ⟨int16_eq (by omega), int16_eq (by omega)⟩

/-- A screen that starts at 30000 is 10000 wide, and the cursor is not on it. -/
theorem middle_wraps :
    ¬ ∀ (version : ProxyClass) (p : ClientProxy) (messages : List (Bytes × IStream)),
      StaysSane version false p messages ∧
        ∀ i ∈ reports version p messages, ∀ x y, i.Inside x y → ReadBack x y := by
  intro h
  let p : ClientProxy := ⟨.v1_5, 0, .handshake, {}, fun _ => {}, [], {}, [], []⟩
  obtain ⟨hsane, -⟩ := h .v1_0 p [(codeOf kMsgDInfo, [bytesOf
    [.int 2 30000, .int 2 0, .int 2 10000, .int 2 10000, .int 2 0, .int 2 0, .int 2 0]])]
  have hreports : reports .v1_0 p [(codeOf kMsgDInfo, [bytesOf
      [.int 2 30000, .int 2 0, .int 2 10000, .int 2 10000, .int 2 0, .int 2 0, .int 2 0]])] =
      [⟨30000, 0, 10000, 10000, 0, 0⟩] := by decide
  rw [staysSane_iff fun h => absurd h Bool.false_ne_true, hreports, List.forall_mem_singleton] at hsane
  rcases hsane with hinside | hcentered
  · exact absurd hinside.1 (by decide)
  · exact absurd hcentered.1 (by decide)

end ClientProxy
end Synergy
