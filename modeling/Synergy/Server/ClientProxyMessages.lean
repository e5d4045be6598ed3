import Mathlib.Data.List.TakeWhile
import Synergy.Clipboard.ClipboardTransfer
import Synergy.Server.ClientProxy

/-! What the server's end leaves in the stream: the handlers of most messages read
exactly their body, those of dragged files none of it. -/
namespace Synergy
open ProtocolUtil
namespace ClientProxy

/-- The codes that are taken in, each with the bodies that belong to it. -/
inductive WellFormed : Bytes → Bytes → Prop
  | info (x y w h dummy mx my : Nat) (hv : ∀ v ∈ [x, y, w, h, dummy, mx, my], v < 2 ^ 16) :
      WellFormed (codeOf kMsgDInfo)
        (bytesOf [.int 2 x, .int 2 y, .int 2 w, .int 2 h, .int 2 dummy, .int 2 mx, .int 2 my])
  | noop : WellFormed (codeOf kMsgCNoop) []
  | keepAlive : WellFormed (codeOf kMsgCKeepAlive) []
  | grabClipboard (id sequence : Nat) (hid : id < 2 ^ 8) (hseq : sequence < 2 ^ 32) :
      WellFormed (codeOf kMsgCClipboard) (bytesOf [.int 1 id, .int 4 sequence])
  | clipboard (id sequence mark : Nat) (data : Bytes) (hid : id < 2 ^ 8) (hseq : sequence < 2 ^ 32)
      (hmark : mark < 2 ^ 8) (hdata : data.length ≤ protocolMaxStringLength) :
      WellFormed (codeOf kMsgDClipboard) (bytesOf [.int 1 id, .int 4 sequence, .int 1 mark, .string data])
  | fileTransfer (mark : Nat) (data : Bytes) (hmark : mark < 2 ^ 8) (hdata : data.length ≤ protocolMaxStringLength) :
      WellFormed (codeOf kMsgDFileTransfer) (bytesOf [.int 1 mark, .string data])
  | dragInfo (count : Nat) (names : Bytes) (hcount : count < 2 ^ 16) (hnames : names.length ≤ protocolMaxStringLength) :
      WellFormed (codeOf kMsgDDragInfo) (bytesOf [.int 2 count, .string names])

/-- A program reads the body, or gives the message up and leaves a stream of some bytes. -/
def Takes (m : ReadM (Bool × ClientProxy)) (body : Bytes) : Prop :=
  ∀ (s : IStream) (suffix : Bytes), s.Holds (body ++ suffix) →
    ∃ handled p rest left, m s = (.ok (handled, p), rest) ∧ rest.Holds left ∧ (handled = true → left = suffix)

private theorem Takes.of_reads {m : ReadM (Bool × ClientProxy)} {body : Bytes} {r : Bool × ClientProxy}
    (h : Reads m body r) : Takes m body := by
  intro s suffix hs
  obtain ⟨rest, hrun, hrest⟩ := h s suffix hs
  exact ⟨r.1, r.2, rest, suffix, hrun, hrest, fun _ => rfl⟩

private theorem Takes.refused (p : ClientProxy) (body : Bytes) : Takes (pure (false, p)) body :=
  fun s suffix hs => ⟨false, p, s, body ++ suffix, rfl, hs, fun h => by simp at h⟩

private theorem reads_recvInfo (p : ClientProxy) {x y w h dummy mx my : Nat}
    (hv : ∀ v ∈ [x, y, w, h, dummy, mx, my], v < 2 ^ 16) :
    Reads p.recvInfo (bytesOf [.int 2 x, .int 2 y, .int 2 w, .int 2 h, .int 2 dummy, .int 2 mx, .int 2 my])
      (p.acceptInfo (int16 x) (int16 y) (int16 w) (int16 h) (int16 mx) (int16 my)) := by
  have hvalid : ∀ f ∈ [x, y, w, h, dummy, mx, my].map (Field.int 2), f.Valid := by
    intro f hf
    obtain ⟨v, hmem, rfl⟩ := List.mem_map.mp hf
    exact ⟨.inr (.inl rfl), hv v hmem⟩
  unfold recvInfo
  exact (reads_readf hvalid).last (Reads.pure _)

private theorem reads_recvGrabClipboard (p : ClientProxy) {id sequence : Nat} (hid : id < 2 ^ 8)
    (hseq : sequence < 2 ^ 32) :
    Reads p.recvGrabClipboard (bytesOf [.int 1 id, .int 4 sequence])
      (if kClipboardEnd ≤ id then (false, p) else (true, p.addEvent (.clipboardGrabbed id sequence))) := by
  have hvalid : ∀ f ∈ [Field.int 1 id, Field.int 4 sequence], f.Valid := by
    intro f hf
    rcases List.mem_pair.mp hf with rfl | rfl
    · exact ⟨.inl rfl, hid⟩
    · exact ⟨.inr (.inr rfl), hseq⟩
  have hlast : Reads (if kClipboardEnd ≤ id then pure (false, p) else
      pure (true, p.addEvent (.clipboardGrabbed id sequence)) : ReadM (Bool × ClientProxy)) []
      (if kClipboardEnd ≤ id then (false, p) else (true, p.addEvent (.clipboardGrabbed id sequence))) := by
    split
    · exact Reads.pure _
    · exact Reads.pure _
  unfold recvGrabClipboard
  exact (reads_readf hvalid).last hlast

private theorem takes_recvClipboard (p : ClientProxy) {id sequence mark : Nat} {data : Bytes} (hid : id < 2 ^ 8)
    (hseq : sequence < 2 ^ 32) (hmark : mark < 2 ^ 8) (hdata : data.length ≤ protocolMaxStringLength) :
    Takes p.recvClipboard (bytesOf [.int 1 id, .int 4 sequence, .int 1 mark, .string data]) := by
  have hassemble := (ClipboardTransfer.reads_assemble hid hseq hmark hdata p.clipboardDataCached p.clipboardChunkState
    p.maximumClipboardSizeBytes).map p.onClipboardAssembled
  cases hversion : p.version with
  | v1_5 =>
    rw [recvClipboard, hversion]
    exact .refused p _
  | v1_6 | v1_7 | v1_8 =>
    rw [recvClipboard, hversion]
    exact .of_reads hassemble

/-- Every message but those of dragged files is taken by its handler. -/
theorem takes_parseMessage (p : ClientProxy) {code body : Bytes} (h : WellFormed code body)
    (hfile : code ≠ codeOf kMsgDFileTransfer) (hdrag : code ≠ codeOf kMsgDDragInfo) :
    Takes (p.parseMessage code) body := by
  cases h with
  | info x y w h dummy mx my hv =>
    exact .of_reads ((reads_recvInfo p hv).map fun r : Bool × ClientProxy =>
      if r.1 = true then (true, r.2.addEvent .screenShapeChanged) else (false, r.2))
  | noop => exact .of_reads (Reads.pure (true, p))
  | keepAlive => exact .of_reads (Reads.pure (true, p))
  | grabClipboard id sequence hid hseq => exact .of_reads (reads_recvGrabClipboard p hid hseq)
  | clipboard id sequence mark data hid hseq hmark hdata => exact takes_recvClipboard p hid hseq hmark hdata
  | fileTransfer mark data hmark hdata => exact absurd rfl hfile
  | dragInfo count names hcount hnames => exact absurd rfl hdrag

/-- Before the client's shape is known all messages but two are given up. -/
private theorem takes_parseHandshakeMessage (p : ClientProxy) {code body : Bytes} (h : WellFormed code body) :
    Takes (p.parseHandshakeMessage code) body := by
  cases h with
  | info x y w h dummy mx my hv =>
    exact .of_reads ((reads_recvInfo { p with parser := .message } hv).map fun r : Bool × ClientProxy =>
      if r.1 = true then (true, r.2.addEvent .ready) else (false, r.2))
  | noop => exact .of_reads (Reads.pure (true, p))
  | keepAlive => exact .refused p _
  | grabClipboard => exact .refused p _
  | clipboard => exact .refused p _
  | fileTransfer => exact .refused p _
  | dragInfo => exact .refused p _

private theorem takes_parse (p : ClientProxy) {code body : Bytes} (h : WellFormed code body)
    (hfile : code ≠ codeOf kMsgDFileTransfer) (hdrag : code ≠ codeOf kMsgDDragInfo) : Takes (p.parse code) body := by
  unfold parse
  cases p.parser with
  | handshake => exact takes_parseHandshakeMessage p h
  | message => exact takes_parseMessage p h hfile hdrag

/-- When the message is reported as handled, the stream goes on behind its body. -/
def ConsumesExactly (p : ClientProxy) (code body : Bytes) : Prop :=
  ∀ (s : IStream) (suffix : Bytes) (p' : ClientProxy) (rest : IStream), s.Holds (body ++ suffix) →
    p.parseMessage code s = (.ok (true, p'), rest) → rest.Holds suffix

private theorem body_ne_nil {code body : Bytes} (h : WellFormed code body)
    (hcode : code = codeOf kMsgDFileTransfer ∨ code = codeOf kMsgDDragInfo) : body ≠ [] := by
  cases h with
  | noop => revert hcode; decide
  | keepAlive => revert hcode; decide
  | info | grabClipboard | clipboard | fileTransfer | dragInfo =>
    simp [bytesOf, Field.bytes, Lib.bigEndian]

theorem consumesExactly_iff (p : ClientProxy) {code body : Bytes} (h : WellFormed code body) :
    ConsumesExactly p code body ↔ code ≠ codeOf kMsgDFileTransfer ∧ code ≠ codeOf kMsgDDragInfo := by
  constructor
  · intro hconsumes
    rw [← not_or]
    intro hcode
    have hne := body_ne_nil h hcode
    have hignored : p.parseMessage code [body] = (.ok (true, p), [body]) := by
      rcases hcode with rfl | rfl
      · rfl
      · rfl
    have hheld : IStream.Holds [body] (body ++ []) := ⟨by simpa using hne, by simp⟩
    obtain ⟨-, hflat⟩ := hconsumes [body] [] p [body] hheld hignored
    exact hne (by simpa using hflat)
  · rintro ⟨hfile, hdrag⟩ s suffix p' rest hs hrun
    obtain ⟨handled, p'', rest', left, hrun', hrest, hleft⟩ := takes_parseMessage p h hfile hdrag s suffix hs
    rw [hrun] at hrun'
    obtain ⟨hok, rfl⟩ := Prod.mk.inj hrun'
    obtain ⟨rfl, -⟩ := Prod.mk.inj (Except.ok.inj hok)
    rwa [hleft rfl] at hrest

private theorem length_code {code body : Bytes} (h : WellFormed code body) : code.length = 4 := by
  cases h <;> rfl

private theorem discard_of_holds {s : IStream} {bytes : Bytes} (h : s.Holds bytes) : s.discard = [] := by
  have hall : s.dropWhile (!·.isEmpty) = [] := by
    rw [List.dropWhile_eq_nil_iff]
    intro piece hpiece
    simpa using h.1 piece hpiece
  rw [IStream.discard, hall]
  rfl

private theorem handleLoop_nil (fuel : Nat) (p : ClientProxy) : (handleLoop fuel p []).1 = [] := by
  cases fuel <;> rfl

private theorem handleLoop_code (fuel : Nat) (p : ClientProxy) {s s' : IStream} {code : Bytes}
    (hread : s.read 4 = (code, s')) (hlen : code.length = 4) : ∃ tail, (handleLoop (fuel + 1) p s).1 = code :: tail := by
  have hne : code ≠ [] := by
    rintro rfl
    simp at hlen
  simp only [handleLoop, hread, if_neg hne, hlen, ne_eq, not_true_eq_false, if_false]
  split
  · exact ⟨_, rfl⟩
  · exact ⟨_, rfl⟩

/-- With no dragged files among them, only codes of messages are taken for codes, in order. -/
private theorem handleLoop_codes (fuel : Nat) (p : ClientProxy) {ms : List (Bytes × Bytes)} {s : IStream}
    (hms : ∀ m ∈ ms, WellFormed m.1 m.2) (hs : s.Holds (ms.flatMap fun m => m.1 ++ m.2))
    (hok : ∀ m ∈ ms, m.1 ≠ codeOf kMsgDFileTransfer ∧ m.1 ≠ codeOf kMsgDDragInfo) :
    (handleLoop fuel p s).1 <+: ms.map Prod.fst := by
  induction fuel generalizing p ms s with
  | zero => exact List.nil_prefix
  | succ fuel ih =>
    cases ms with
    | nil =>
      have hempty : s = [] := by
        obtain ⟨hne, hflat⟩ := hs
        rw [List.eq_nil_iff_forall_not_mem]
        intro piece hpiece
        exact hne piece hpiece (List.flatten_eq_nil_iff.mp hflat piece hpiece)
      rw [hempty, handleLoop_nil]
      exact List.nil_prefix
    | cons m ms =>
      have hm := hms m (by simp)
      have hlen := length_code hm
      rw [List.flatMap_cons, List.append_assoc] at hs
      have hbytes : m.1 ++ (m.2 ++ ms.flatMap fun m => m.1 ++ m.2) ≠ [] := by
        rw [← List.length_pos_iff, List.length_append]
        omega
      obtain ⟨out, rest, hout, hne, hle, hsplit, hrest⟩ := hs.read (by decide : 0 < 4) hbytes
      rw [handleLoop]
      simp only [hout, if_neg hne]
      by_cases hfour : out.length = 4
      · obtain ⟨rfl, rfl⟩ := List.append_inj hsplit (by omega)
        obtain ⟨handled, p', rest', left, hrun, hleft, hhandled⟩ :=
          takes_parse p hm (hok m (by simp)).1 (hok m (by simp)).2 _ _ hrest
        simp only [hfour, ne_eq, not_true_eq_false, if_false, hrun, List.map_cons]
        refine List.cons_prefix_cons.mpr ⟨rfl, ?_⟩
        cases handled with
        | true =>
          obtain rfl := hhandled rfl
          exact ih p' (fun m hm => hms m (by simp [hm])) hleft fun m hm => hok m (by simp [hm])
        | false =>
          rw [if_neg Bool.false_ne_true, discard_of_holds hleft, handleLoop_nil]
          exact List.nil_prefix
      · simp only [ne_eq, hfour, not_false_eq_true, if_true]
        exact List.nil_prefix

/-- A message of a dragged file alone: its body is taken for the next code. -/
private theorem handleData_ignored {p : ClientProxy} (hp : p.parser = .message) {code body : Bytes}
    (h : WellFormed code body) (hcode : code = codeOf kMsgDFileTransfer ∨ code = codeOf kMsgDDragInfo) :
    ¬ (p.handleData [code ++ body]).1 <+: [code] := by
  have hlen := length_code h
  have hbody : 4 < body.length := by
    cases h with
    | noop => revert hcode; decide
    | keepAlive => revert hcode; decide
    | info | grabClipboard | clipboard | fileTransfer | dragInfo =>
      simp [bytesOf, Field.bytes, Lib.length_bigEndian]
      try omega
  have hread : IStream.read [code ++ body] 4 = (code, [body]) := by
    simp [IStream.read, ← hlen, List.length_pos_iff.mp (by omega : 0 < body.length)]
  have hne : code ≠ [] := by
    rintro rfl
    simp at hlen
  have hparse : p.parse code [body] = (.ok (true, p), [body]) := by
    rw [parse, hp]
    rcases hcode with rfl | rfl
    · rfl
    · rfl
  have hread' : IStream.read [body] 4 = (body.take 4, [body.drop 4]) := by
    simp [IStream.read, not_le.mpr hbody]
  obtain ⟨fuel, hfuel⟩ : ∃ fuel, [code ++ body].flatten.length + 1 = fuel + 1 + 1 :=
    ⟨code.length + body.length - 1, by simp; omega⟩
  obtain ⟨tail, htail⟩ := handleLoop_code fuel p hread' (by rw [List.length_take]; omega)
  have hcodes : (p.handleData [code ++ body]).1 = code :: body.take 4 :: tail := by
    rw [handleData, hfuel, handleLoop]
    simp only [hread, if_neg hne, hlen, ne_eq, not_true_eq_false, if_false, hparse, if_true, htail]
  rw [hcodes]
  intro hprefix
  have := hprefix.length_le
  simp at this

/-- The handlers take exactly their messages, apart from those of dragged files: message by
message for any split of the stream and any state, and over whole runs, in which then no
byte of a body is taken for a code. A message of a dragged file is never taken. -/
theorem messages_taken_iff (p : ClientProxy) :
    (∀ code body : Bytes, WellFormed code body →
      (ConsumesExactly p code body ↔ code ≠ codeOf kMsgDFileTransfer ∧ code ≠ codeOf kMsgDDragInfo)) ∧
    (∀ (ms : List (Bytes × Bytes)) (s : IStream), (∀ m ∈ ms, WellFormed m.1 m.2) →
      s.Holds (ms.flatMap fun m => m.1 ++ m.2) →
      (∀ m ∈ ms, m.1 ≠ codeOf kMsgDFileTransfer ∧ m.1 ≠ codeOf kMsgDDragInfo) →
      (p.handleData s).1 <+: ms.map Prod.fst) ∧
    ∀ code body : Bytes, p.parser = .message → WellFormed code body →
      ((p.handleData [code ++ body]).1 <+: [code] ↔
        code ≠ codeOf kMsgDFileTransfer ∧ code ≠ codeOf kMsgDDragInfo) := by
  refine ⟨fun code body h => consumesExactly_iff p h, fun ms s hms hs hok => handleLoop_codes _ p hms hs hok, ?_⟩
  intro code body hp h
  constructor
  · intro hprefix
    rw [← not_or]
    exact fun hcode => handleData_ignored hp h hcode hprefix
  · intro hcode
    have hlen := length_code h
    have hheld : IStream.Holds [code ++ body] ([(code, body)].flatMap fun m => m.1 ++ m.2) :=
      ⟨by simp [← List.length_eq_zero_iff, hlen], by simp⟩
    exact handleLoop_codes _ p (by simpa using h) hheld (by simpa using hcode)

theorem messages_taken_grab_clipboard :
    ConsumesExactly { version := .v1_8, maximumClipboardSizeBytes := 1024, parser := .message }
      (codeOf kMsgCClipboard) [1, 0, 0, 0, 7] :=
  ((messages_taken_iff _).1 _ _ (.grabClipboard 1 7 (by decide) (by decide))).mpr (by decide)

/-- A chunk of a file is reported as handled and its body is still in the stream. -/
theorem file_chunk_not_taken :
    ¬ ∀ (p : ClientProxy) (code body : Bytes), WellFormed code body → ConsumesExactly p code body := by
  intro hall
  let p : ClientProxy := { version := .v1_8, maximumClipboardSizeBytes := 1024, parser := .message }
  have hbody := WellFormed.fileTransfer 2 [120] (by decide) (by decide)
  have hrest := hall p _ _ hbody [[2, 0, 0, 0, 1, 120]] [] p [[2, 0, 0, 0, 1, 120]] ⟨by decide, by decide⟩ rfl
  exact absurd hrest.2 (by decide)

end ClientProxy
end Synergy
