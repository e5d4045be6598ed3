import Synergy.Protocol.PacketStreamFilter
import Synergy.Protocol.ProtocolRoundTrip

/-! The invariant of a link: where the reader stands in the messages, and what the filter
does to it block by block and read by read. -/
namespace Synergy
open Lib
namespace PacketLink

theorem behindEmpty_of_header {data : Bytes} (h : 4 ≤ data.length → header data ≠ 0) :
    behindEmpty data = false := by
  by_cases hl : 4 ≤ data.length
  · simp [behindEmpty, h hl]
  · simp [behindEmpty, hl]

theorem lastBehindEmpty_cons (data block next : Bytes) (blocks : List Bytes) :
    lastBehindEmpty data (block :: next :: blocks) =
      if (data ++ block).length < 4 then lastBehindEmpty (data ++ block) (next :: blocks)
      else if header (data ++ block) = 0 then lastBehindEmpty ((data ++ block).drop 4) (next :: blocks)
      else false := rfl

/-- Where the reader stands in the messages, and what the rest of the bytes are. -/
inductive Framed (messages : List Bytes) (f : PacketStreamFilter) (wire delivered : Bytes) : Prop
  | between (done todo : List Bytes) (hm : messages = done ++ todo) (hs : f.size = 0)
      (hb : f.buffer.data ++ wire = frames todo) (hd : delivered = done.flatten)
  | inside (done todo : List Bytes) (taken rest : Bytes) (hm : messages = done ++ (taken ++ rest) :: todo)
      (hs : f.size = rest.length) (h0 : rest ≠ []) (hb : f.buffer.data ++ wire = rest ++ frames todo)
      (hd : delivered = done.flatten ++ taken)

/-- The states of a link whose buffer has not overflowed. -/
structure Sound (messages : List Bytes) (f : PacketStreamFilter) (wire delivered : Bytes) : Prop where
  counted : f.buffer.Counted
  clean : f.formatError = false
  framed : Framed messages f wire delivered

theorem split_front {a w h r : Bytes} (he : a ++ w = h ++ r) (hl : h.length ≤ a.length) :
    ∃ d, a = h ++ d ∧ d ++ w = r := by
  rcases List.append_eq_append_iff.mp he with ⟨x, rfl, rfl⟩ | ⟨d, rfl, rfl⟩
  · have hx : x = [] := by
      apply List.eq_nil_of_length_eq_zero
      rw [List.length_append] at hl
      omega
    subst hx
    exact ⟨[], by simp, by simp⟩
  · exact ⟨d, rfl, rfl⟩

/-- Between two messages, four buffered bytes are the length of the next message. -/
theorem next_frame {todo : List Bytes} {data wire : Bytes} (hm : ∀ m ∈ todo, m.length ≤ protocolMaxMessageLength)
    (hb : data ++ wire = frames todo) (hl : 4 ≤ data.length) :
    ∃ m rest data', todo = m :: rest ∧ data = bigEndian 4 m.length ++ data' ∧
      data' ++ wire = m ++ frames rest ∧ header data = m.length := by
  cases todo with
  | nil =>
    obtain ⟨rfl, -⟩ := List.append_eq_nil_iff.mp (show data ++ wire = [] from hb)
    simp at hl
  | cons m rest =>
    have hfr : frames (m :: rest) = bigEndian 4 m.length ++ (m ++ frames rest) := by
      simp [frames, PacketStreamFilter.write]
    rw [hfr] at hb
    obtain ⟨data', rfl, hrest⟩ := split_front hb (by simpa using hl)
    refine ⟨m, rest, data', rfl, rfl, hrest, ?_⟩
    have hlen := hm m (by simp)
    unfold protocolMaxMessageLength at hlen
    rw [header, List.take_left' (length_bigEndian 4 _), ofBigEndian_bigEndian_of_lt (by omega)]

private theorem completeFrame_short {data : Bytes} (h : data.length < 4) : completeFrame data = false := by
  match data, h with
  | [], _ | [_], _ | [_, _], _ | [_, _, _], _ => rfl

theorem completeFrame_packet {data : Bytes} (h : 4 ≤ data.length) (h0 : header data ≠ 0) :
    completeFrame data = decide (header data ≤ data.length - 4) := by
  match data, h with
  | _ :: _ :: _ :: _ :: rest, _ =>
    simp only [header, List.take_succ_cons, List.take_zero] at h0
    simp [completeFrame, header, h0]

/-- What taking the next length can do to a link in order. -/
inductive Taken (f g : PacketStreamFilter) : Prop
  | idle (hs : f.size ≠ 0 ∨ f.buffer.data.length < 4) (hg : g = f)
  | empty (hs : f.size = 0) (hl : 4 ≤ f.buffer.data.length) (h0 : header f.buffer.data = 0)
      (hg : g.size = 0) (hd : g.buffer.data = f.buffer.data.drop 4)
  | packet (hs : f.size = 0) (hl : 4 ≤ f.buffer.data.length) (h0 : header f.buffer.data ≠ 0)
      (hg : g.size ≠ 0) (hd : g.buffer.data = f.buffer.data.drop 4)

variable {messages : List Bytes} {f : PacketStreamFilter} {wire delivered : Bytes}

theorem Sound.readPacketSize (hm : ∀ m ∈ messages, m.length ≤ protocolMaxMessageLength)
    (h : Sound messages f wire delivered) :
    ∃ g, f.readPacketSize = (g, true, []) ∧ Sound messages g wire delivered ∧ Taken f g := by
  obtain ⟨hc, hf, hframed⟩ := h
  have hsize : f.buffer.getSize = f.buffer.data.length := hc
  by_cases hidle : f.size ≠ 0 ∨ f.buffer.data.length < 4
  · exact ⟨f, PacketStreamFilter.readPacketSize_idle (by omega), ⟨hc, hf, hframed⟩, .idle hidle rfl⟩
  obtain ⟨hs, hl⟩ : f.size = 0 ∧ 4 ≤ f.buffer.data.length := by omega
  cases hframed with
  | inside done todo taken rest _ hs' h0 =>
    have := List.length_pos_iff.mpr h0
    omega
  | between done todo hmess _ hb hd =>
    subst hmess
    obtain ⟨m, todo, data', rfl, hdata, hrest, hhead⟩ := next_frame (fun m hmem => hm m (by simp [hmem])) hb hl
    obtain ⟨buffer, hcount, hbuf, hread⟩ :=
      PacketStreamFilter.readPacketSize_header hs hc hdata (hm m (by simp))
    have hdrop : buffer.data = f.buffer.data.drop 4 := by
      rw [hdata, hbuf, List.drop_left' (length_bigEndian 4 _)]
    refine ⟨_, hread, ⟨hcount, hf, ?_⟩, ?_⟩
    · by_cases h0 : m = []
      · exact .between (done ++ [m]) todo (by simp) (by simp [h0]) (by simpa [hbuf, h0] using hrest)
          (by simp [hd, h0])
      · exact .inside done todo [] m (by simp) rfl h0 (by simpa [hbuf] using hrest) (by simp [hd])
    · by_cases h0 : m.length = 0
      · exact .empty hs hl (hhead.trans h0) h0 hdrop
      · exact .packet hs hl (by omega) h0 hdrop

/-- Anything but a complete frame with no packet pending is readable. -/
private theorem readable_iff (hc : f.buffer.Counted) :
    (f.holdsFrame → f.isReady) ↔ (f.size = 0 → completeFrame f.buffer.data = false) := by
  have hsize : f.buffer.getSize = f.buffer.data.length := hc
  by_cases hs : f.size = 0
  · simp [PacketStreamFilter.holdsFrame, PacketStreamFilter.isReady, hs]
  · simp [PacketStreamFilter.holdsFrame, PacketStreamFilter.isReady, hs, hsize]

/-- After a length was taken, a frame is left unreadable exactly if the length was that
of an empty frame in front of it. -/
private theorem Taken.readable_iff {g : PacketStreamFilter} (h : Taken f g) (hc : g.buffer.Counted) :
    (g.holdsFrame → g.isReady) ↔ (f.size = 0 → behindEmpty f.buffer.data = false) := by
  rw [PacketLink.readable_iff hc]
  cases h with
  | idle hs hg =>
    subst hg
    rcases hs with hs | hl
    · simp [hs]
    · simp [behindEmpty, completeFrame_short hl, hl]
  | empty hs hl h0 hg hd => simp [behindEmpty, hs, hl, h0, hg, hd]
  | packet hs hl h0 hg hd => simp [behindEmpty, hg, h0]

private theorem Taken.length_le {g : PacketStreamFilter} (h : Taken f g) :
    g.buffer.data.length ≤ f.buffer.data.length := by
  cases h with
  | idle hs hg => rw [hg]
  | empty hs hl h0 hg hd | packet hs hl h0 hg hd =>
    rw [hd, List.length_drop]
    omega

private theorem readBlocks_cons {f g : PacketStreamFilter} {block : Bytes} (blocks : List Bytes)
    (h : { f with buffer := f.buffer.write block : PacketStreamFilter }.readPacketSize = (g, true, [])) :
    f.readBlocks (block :: blocks) = g.readBlocks blocks := by
  rw [PacketStreamFilter.readBlocks, h]
  rfl

theorem Sound.readBlocks (hm : ∀ m ∈ messages, m.length ≤ protocolMaxMessageLength) (blocks : List Bytes)
    (h : Sound messages f (blocks.flatten ++ wire) delivered)
    (hfit : f.buffer.data.length + blocks.flatten.length < 2 ^ 32) :
    ∃ g, f.readBlocks blocks = (g, []) ∧ Sound messages g wire delivered ∧
      (blocks ≠ [] → ((g.holdsFrame → g.isReady) ↔
        (f.size = 0 → lastBehindEmpty f.buffer.data blocks = false))) := by
  induction blocks generalizing f with
  | nil => exact ⟨f, rfl, by simpa using h, by simp⟩
  | cons block blocks ih =>
    rw [List.flatten_cons, List.length_append] at hfit
    obtain ⟨hc, hf, hframed⟩ := h
    have hwritten : Sound messages { f with buffer := f.buffer.write block } (blocks.flatten ++ wire) delivered := by
      refine ⟨hc.write (by omega), hf, ?_⟩
      cases hframed with
      | between done todo hmess hs hb hd =>
        exact .between done todo hmess hs (by simpa using hb) hd
      | inside done todo taken rest hmess hs h0 hb hd =>
        exact .inside done todo taken rest hmess hs h0 (by simpa using hb) hd
    obtain ⟨g, hread, hg, htaken⟩ := hwritten.readPacketSize hm
    rw [readBlocks_cons blocks hread]
    cases blocks with
    | nil =>
      refine ⟨g, rfl, by simpa using hg, fun _ => ?_⟩
      rw [htaken.readable_iff hg.counted]
      rfl
    | cons next blocks =>
      have hshort : g.buffer.data.length ≤ f.buffer.data.length + block.length := by
        simpa using htaken.length_le
      obtain ⟨k, hrest, hk, hiff⟩ := ih hg (by omega)
      refine ⟨k, hrest, hk, fun _ => (hiff (by simp)).trans ?_⟩
      rw [lastBehindEmpty_cons f.buffer.data block]
      cases htaken with
      | idle hs hg =>
        subst hg
        rcases hs with hs | hl
        · simp [hs]
        · rw [if_pos (by simpa using hl)]
          rfl
      | empty hs hl h0 hg hd =>
        change f.size = 0 at hs
        simp only [StreamBuffer.write_data] at hl h0 hd
        rw [if_neg (by omega), if_pos h0, hd]
        simp [hg, hs]
      | packet hs hl h0 hg hd =>
        simp only [StreamBuffer.write_data] at hl h0
        rw [if_neg (by omega), if_neg h0]
        simp [hg]

private theorem Sound.popPacket (h : Sound messages f wire delivered) (hready : f.isReady) {n : Nat} (hn : n ≤ f.size) :
    ∃ done taken rest todo, messages = done ++ (taken ++ f.buffer.data.take n ++ rest) :: todo ∧
      delivered = done.flatten ++ taken ∧ f.buffer.data.take n ++ rest <+: f.buffer.data ∧
      Sound messages (f.popPacket n) wire (delivered ++ f.buffer.data.take n) := by
  obtain ⟨hc, hf, hframed⟩ := h
  have hsize : f.buffer.getSize = f.buffer.data.length := hc
  simp only [PacketStreamFilter.isReady, hsize, Bool.and_eq_true, bne_iff_ne, decide_eq_true_eq] at hready
  cases hframed with
  | between done todo hmess hs => exact absurd hs hready.1
  | inside done todo taken pending hmess hs h0 hb hd =>
    obtain ⟨data', hdata, hrest⟩ := split_front hb (hs ▸ hready.2)
    have htake : f.buffer.data.take n = pending.take n := by
      rw [hdata, List.take_append_of_le_length (hs ▸ hn)]
    have hdrop : f.buffer.data.drop n = pending.drop n ++ data' := by
      rw [hdata, List.drop_append_of_le_length (hs ▸ hn)]
    obtain ⟨hpop, hleft⟩ := hc.pop n
    have hwhole : messages = done ++ (taken ++ f.buffer.data.take n ++ pending.drop n) :: todo := by
      rw [htake, List.append_assoc, List.take_append_drop, hmess]
    refine ⟨done, taken, pending.drop n, todo, hwhole, hd, ?_, hpop, hf, ?_⟩
    · rw [htake, List.take_append_drop]
      exact ⟨data', hdata.symm⟩
    have hbytes : (f.popPacket n).buffer.data ++ wire = pending.drop n ++ frames todo := by
      rw [PacketStreamFilter.popPacket, hleft, hdrop, List.append_assoc, hrest]
    by_cases hleft0 : pending.drop n = []
    · have hall : n = f.size := by
        have := List.drop_eq_nil_iff.mp hleft0
        omega
      refine .between (done ++ [taken ++ f.buffer.data.take n]) todo ?_ ?_ ?_ ?_
      · simpa [hleft0] using hwhole
      · simp [PacketStreamFilter.popPacket, hall]
      · simpa [hleft0] using hbytes
      · simp [hd]
    · refine .inside done todo (taken ++ f.buffer.data.take n) (pending.drop n) hwhole ?_ hleft0 hbytes ?_
      · simp [PacketStreamFilter.popPacket, hs]
      · simp [hd]

/-- What a read of a ready filter does: some more of the pending packet, and its end
brings up the next one. -/
theorem Sound.read (hm : ∀ m ∈ messages, m.length ≤ protocolMaxMessageLength)
    (h : Sound messages f wire delivered) (null : Bool) {n : Nat} (hn : 0 < n) (hready : f.isReady) :
    let out := (f.read null n).popped
    (∃ done taken rest todo, messages = done ++ (taken ++ out ++ rest) :: todo ∧
      delivered = done.flatten ++ taken ∧ out ++ rest <+: f.buffer.data) ∧ out ≠ [] ∧
      Sound messages (f.read null n).filter wire (delivered ++ out) ∧
      (((f.read null n).filter.holdsFrame → (f.read null n).filter.isReady) ↔
        (f.size ≤ n → behindEmpty (f.buffer.data.drop f.size) = false)) := by
  have hpos := hready
  simp only [PacketStreamFilter.isReady, StreamBuffer.getSize, h.counted.eq, Bool.and_eq_true, bne_iff_ne,
    decide_eq_true_eq] at hpos
  obtain ⟨done, taken, rest, todo, hmess, hd, hpre, hpopped⟩ := h.popPacket hready (Nat.min_le_left f.size n)
  obtain ⟨g, hread, hg, htaken⟩ := hpopped.readPacketSize hm
  obtain ⟨hfilter, hout⟩ := PacketStreamFilter.read_ready hready null hn hread
  rw [hfilter, hout]
  refine ⟨⟨done, taken, rest, todo, hmess, hd, hpre⟩, ?_, hg, ?_⟩
  · intro hnil
    have := congrArg List.length hnil
    rw [List.length_take, List.length_nil] at this
    omega
  rw [htaken.readable_iff hg.counted]
  have hdata : (f.popPacket (min f.size n)).buffer.data = f.buffer.data.drop (min f.size n) :=
    (h.counted.pop _).2
  rw [hdata]
  by_cases hle : f.size ≤ n
  · simp [PacketStreamFilter.popPacket, hle]
  · have hne : f.size - min f.size n ≠ 0 := by omega
    simp [PacketStreamFilter.popPacket, hne, hle]

end PacketLink
end Synergy

/-! What a reader of the filter gets over whole runs. -/
namespace Synergy
open Lib
namespace PacketLink
variable {messages : List Bytes} {f : PacketStreamFilter} {wire delivered : Bytes}

private theorem Framed.delivered_prefix (h : Framed messages f wire delivered) : delivered <+: messages.flatten := by
  cases h with
  | between done todo hm hs hb hd => exact ⟨todo.flatten, by simp [hm, hd]⟩
  | inside done todo taken rest hm hs h0 hb hd => exact ⟨rest ++ todo.flatten, by simp [hm, hd]⟩

/-- Without empty messages, whatever the next four bytes of frames spell is not zero. -/
private theorem header_ne_zero {todo : List Bytes} {data wire : Bytes}
    (hm : ∀ m ∈ todo, m.length ≤ protocolMaxMessageLength) (hne : ∀ m ∈ todo, m ≠ [])
    (hb : data ++ wire = frames todo) (hl : 4 ≤ data.length) : header data ≠ 0 := by
  obtain ⟨m, rest, data', rfl, -, -, hhead⟩ := next_frame hm hb hl
  have := List.length_pos_iff.mpr (hne m (by simp))
  omega

private theorem lastBehindEmpty_frames {todo : List Bytes} {wire : Bytes}
    (hm : ∀ m ∈ todo, m.length ≤ protocolMaxMessageLength) (hne : ∀ m ∈ todo, m ≠ []) (blocks : List Bytes)
    {data : Bytes} (hb : data ++ (blocks.flatten ++ wire) = frames todo) : lastBehindEmpty data blocks = false := by
  induction blocks generalizing data with
  | nil => rfl
  | cons block blocks ih =>
    have hb' : (data ++ block) ++ (blocks.flatten ++ wire) = frames todo := by simpa using hb
    have hhead := header_ne_zero hm hne hb'
    cases blocks with
    | nil => exact behindEmpty_of_header hhead
    | cons next blocks =>
      rw [lastBehindEmpty_cons]
      split
      next hl => exact ih hb'
      next hl => rw [if_neg (hhead (not_lt.mp hl))]

private theorem Sound.not_behindEmpty (hm : ∀ m ∈ messages, m.length ≤ protocolMaxMessageLength)
    (hne : ∀ m ∈ messages, m ≠ []) (h : Sound messages f wire delivered) (hready : f.isReady) :
    behindEmpty (f.buffer.data.drop f.size) = false := by
  simp only [PacketStreamFilter.isReady, StreamBuffer.getSize, h.counted.eq, Bool.and_eq_true, bne_iff_ne,
    decide_eq_true_eq] at hready
  cases h.framed with
  | between done todo hmess hs => exact absurd hs hready.1
  | inside done todo taken rest hmess hs h0 hb hd =>
    obtain ⟨data', hdata, hrest⟩ := split_front hb (hs ▸ hready.2)
    rw [hdata, hs, List.drop_left]
    apply behindEmpty_of_header
    exact header_ne_zero (fun m hmem => hm m (by simp [hmess, hmem])) (fun m hmem => hne m (by simp [hmess, hmem])) hrest

/-- When all bytes have arrived and a frame that is there can be read, the only thing
that makes the filter not ready is that everything has been read. -/
private theorem Sound.ready_or_done (hm : ∀ m ∈ messages, m.length ≤ protocolMaxMessageLength)
    (hne : ∀ m ∈ messages, m ≠ []) (h : Sound messages f [] delivered) (hr : f.holdsFrame → f.isReady) :
    f.isReady ∨ delivered = messages.flatten := by
  have hcount := h.counted.eq
  cases h.framed with
  | inside done todo taken rest hmess hs h0 hb hd =>
    have hpos := List.length_pos_iff.mpr h0
    rw [List.append_nil] at hb
    left
    simp only [PacketStreamFilter.isReady, StreamBuffer.getSize, hcount, hb, hs, List.length_append]
    simp [h0]
  | between done todo hmess hs hb hd =>
    cases todo with
    | nil => exact .inr (by simp [hmess, hd])
    | cons m todo =>
      left
      apply hr
      have hwire : f.buffer.data.length = (frames (m :: todo)).length := by rw [← hb, List.append_nil]
      have hl : 4 ≤ f.buffer.data.length := by
        rw [hwire]
        simp [frames, PacketStreamFilter.write]
      have hm' : ∀ x ∈ m :: todo, x.length ≤ protocolMaxMessageLength := fun x hx => hm x (by simp [hmess, hx])
      obtain ⟨m', rest, data', heq, hdata, hrest, hhead⟩ := next_frame hm' hb hl
      obtain ⟨rfl, rfl⟩ := List.cons.inj heq
      have hpos := List.length_pos_iff.mpr (hne m (by simp [hmess]))
      rw [PacketStreamFilter.holdsFrame, if_pos hs, completeFrame_packet hl (by omega), decide_eq_true_eq, hhead,
        hdata, List.length_append, length_bigEndian]
      have := congrArg List.length hrest
      simp only [List.append_nil, List.length_append] at this
      omega

/-- A link in order whose buffered frames can be read. -/
structure Settled (messages : List Bytes) (s : PacketLink) : Prop where
  sound : Sound messages s.filter s.wire s.delivered
  readable : s.filter.holdsFrame → s.filter.isReady

private theorem read_idle {s : PacketLink} (h : s.filter.isReady = false) (null : Bool) (n : Nat) :
    s.read null n = s := by
  simp [PacketLink.read, PacketStreamFilter.read_not_ready h]

private theorem Settled.read {s : PacketLink} (hm : ∀ m ∈ messages, m.length ≤ protocolMaxMessageLength)
    (hne : ∀ m ∈ messages, m ≠ []) (h : Settled messages s) (null : Bool) {n : Nat} (hn : 0 < n) :
    Settled messages (s.read null n) := by
  by_cases hready : s.filter.isReady
  · obtain ⟨-, -, hs, hr⟩ := h.sound.read hm null hn hready
    exact ⟨hs, hr.mpr fun _ => h.sound.not_behindEmpty hm hne hready⟩
  · rw [read_idle (by simpa using hready)]
    exact h

/-- Reads of any sizes get every byte that has arrived, at least one byte each. -/
private theorem Settled.drains {s : PacketLink} (hm : ∀ m ∈ messages, m.length ≤ protocolMaxMessageLength)
    (hne : ∀ m ∈ messages, m ≠ []) (h : Settled messages s) (hw : s.wire = []) (reads : List (Bool × Nat))
    (hpos : ∀ r ∈ reads, 0 < r.2) (hlen : messages.flatten.length ≤ s.delivered.length + reads.length) :
    (reads.foldl (fun u r => u.read r.1 r.2) s).delivered = messages.flatten := by
  induction reads generalizing s with
  | nil =>
    simp only [List.length_nil, Nat.add_zero] at hlen
    exact h.sound.framed.delivered_prefix.eq_of_length_le hlen
  | cons r reads ih =>
    have hn := hpos r (by simp)
    have hrest : ∀ r ∈ reads, 0 < r.2 := fun r hr => hpos r (by simp [hr])
    rw [List.foldl_cons]
    apply ih (h.read hm hne r.1 hn) hw hrest
    rw [List.length_cons] at hlen
    by_cases hready : s.filter.isReady
    · have hout := List.length_pos_iff.mpr (h.sound.read hm r.1 hn hready).2.1
      simp only [PacketLink.read, List.length_append]
      omega
    · have hs := h.sound
      rw [hw] at hs
      have hdone := (hs.ready_or_done hm hne h.readable).resolve_left hready
      rw [read_idle (by simpa using hready), hdone]
      omega

private theorem flatten_drop {blocks : List Bytes} {wire : Bytes} (h : blocks.flatten <+: wire) :
    blocks.flatten ++ wire.drop blocks.flatten.length = wire := by
  obtain ⟨rest, rfl⟩ := h
  rw [List.drop_left]

/-- The bytes of the blocks reach the buffer, whole messages or not. -/
private theorem Settled.inputReady {s : PacketLink} (hm : ∀ m ∈ messages, m.length ≤ protocolMaxMessageLength)
    (h : Settled messages s) {blocks : List Bytes} (hpre : blocks.flatten <+: s.wire)
    (hfit : s.filter.buffer.data.length + blocks.flatten.length < 2 ^ 32) :
    let t := s.inputReady blocks
    Sound messages t.filter t.wire s.delivered ∧
      ((t.filter.holdsFrame → t.filter.isReady) ↔ s.StopsAtEmpty (.inputReady blocks) = false) := by
  have hs := h.sound
  rw [← flatten_drop hpre] at hs
  obtain ⟨g, hread, hg, hiff⟩ := hs.readBlocks hm blocks hfit
  have hfilter : (s.inputReady blocks).filter = g := by
    simp [PacketLink.inputReady, PacketStreamFilter.filterEvent, PacketStreamFilter.readMore, hs.clean, hread]
  refine ⟨by rw [hfilter]; exact hg, ?_⟩
  rw [hfilter]
  cases blocks with
  | nil =>
    obtain rfl : s.filter = g := by simpa [PacketStreamFilter.readBlocks] using hread
    simpa [StopsAtEmpty, lastBehindEmpty] using h.readable
  | cons block blocks =>
    rw [hiff (by simp)]
    simp [StopsAtEmpty]

private theorem Settled.step {s t : PacketLink} {a : LinkAct} (hm : ∀ m ∈ messages, m.length ≤ protocolMaxMessageLength)
    (h : Settled messages s) (hstep : Moves s a t) (hfit : Fits s a t) :
    Sound messages t.filter t.wire t.delivered ∧
      ((t.filter.holdsFrame → t.filter.isReady) ↔ s.StopsAtEmpty a = false) := by
  obtain ⟨rfl, hallow⟩ := hstep
  cases a with
  | inputReady blocks => exact h.inputReady hm hallow.2 hfit
  | read null n =>
    by_cases hready : s.filter.isReady
    · obtain ⟨-, -, hs, hr⟩ := h.sound.read hm null hallow hready
      refine ⟨hs, hr.trans ?_⟩
      simp [StopsAtEmpty, hready]
    · have hready' : s.filter.isReady = false := by simpa using hready
      rw [show s.act (.read null n) = s from read_idle hready' null n]
      refine ⟨h.sound, ?_⟩
      simpa [StopsAtEmpty, hready'] using h.readable

private theorem settled_start (messages : List Bytes) : Settled messages (start messages) where
  sound := ⟨StreamBuffer.counted_empty, rfl, .between [] messages rfl rfl rfl rfl⟩
  readable := by simp [start, PacketStreamFilter.holdsFrame, completeFrame]

private theorem Settled.stopsAtEmpty {s t : PacketLink} {a : LinkAct} (hm : ∀ m ∈ messages, m.length ≤ protocolMaxMessageLength)
    (hne : ∀ m ∈ messages, m ≠ []) (h : Settled messages s) (hstep : Moves s a t) : s.StopsAtEmpty a = false := by
  cases a with
  | read null n =>
    by_cases hready : s.filter.isReady
    · simp [StopsAtEmpty, h.sound.not_behindEmpty hm hne hready]
    · simp [StopsAtEmpty, hready]
  | inputReady blocks =>
    cases h.sound.framed with
    | inside done todo taken rest hmess hs h0 hb hd => simp [StopsAtEmpty, hs, h0]
    | between done todo hmess hs hb hd =>
      rw [← flatten_drop hstep.2.2] at hb
      rw [StopsAtEmpty, lastBehindEmpty_frames (fun m hmem => hm m (by simp [hmess, hmem]))
        (fun m hmem => hne m (by simp [hmess, hmem])) blocks hb, Bool.and_false]

private theorem settled_run (hm : ∀ m ∈ messages, m.length ≤ protocolMaxMessageLength) (hne : ∀ m ∈ messages, m ≠ [])
    {tr : List (LinkAct × PacketLink)} (hr : Trace Moves (start messages) tr)
    (hf : EachStep Fits (start messages) tr) : Always (Settled messages) tr := by
  refine hr.always (Settled messages) ?_ (settled_start messages) hf
  intro s a t hs hfit hstep
  obtain ⟨hsound, hread⟩ := hs.step hm hstep hfit
  exact ⟨hsound, hread.mpr (hs.stopsAtEmpty hm hne hstep)⟩

open ProtocolUtil

end PacketLink
end Synergy
