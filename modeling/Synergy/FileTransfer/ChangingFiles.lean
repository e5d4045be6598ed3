import Synergy.FileTransfer.FileTransferSender
import Synergy.Lib.Trace

/-! Files that change while they are sent: how each operation finds a file is an argument of its own. A file is
promised with the size that it is opened with. -/
namespace Synergy
open Lib ProtocolUtil

/-- How an operation finds a file, unless the operation fails. -/
abbrev FileView := Option SourceFile

/-- An open file, and where it is read next. -/
structure OpenFile where
  entry : FileTransferEntry
  position : Nat

namespace FileTransferSource

def openEntry (entry : FileTransferEntry) (view : FileView) : Option OpenFile :=
  view.map fun file => ⟨{ entry with size := file.content.length }, 0⟩

def readChunk (position : Nat) (view : FileView) : Bytes :=
  match view with
  | none => []
  | some file => (file.content.drop position).take FileChunk.chunkSize

/-- The size of a file is 0 when it is not found. -/
def remaining (position : Nat) (view : FileView) : Nat :=
  match view with
  | none => 0
  | some file => if file.content.length ≤ position then 0 else file.content.length - position

/-- The pieces that have been emitted of a file, and where it is read next. -/
structure Streaming where
  position : Nat := 0
  total : Nat := 0
  emitted : List Bytes := []
  stopped : Bool := false

end FileTransferSource

/-- What is left to send, the open file, and what has been emitted. -/
structure FileSend where
  entries : List FileTransferEntry
  file : Option OpenFile := none
  total : Nat := 0
  emitted : List Emission

namespace FileTransferSender
open FileTransferSource

/-- The next operation on a file: to open it, or to read a piece of it. -/
def sendStep (s : FileSend) (view : FileView) : FileSend :=
  match s.file with
  | none =>
    match s.entries with
    | [] => s
    | entry :: entries =>
      match openEntry entry view with
      | none => { s with entries := entries }
      | some file =>
        { s with
          entries := entries
          file := some file
          emitted := s.emitted ++ [.chunk ChunkType.dataStart (decimal file.entry.size)] }
  | some file =>
    let piece := readChunk file.position view
    if piece = [] then { s with file := none, emitted := s.emitted ++ [.chunk ChunkType.dataEnd []] }
    else
      { s with
        file := some { file with position := file.position + piece.length }
        total := (s.total + piece.length) % 2 ^ 64
        emitted := s.emitted ++ [.chunk ChunkType.dataChunk piece] }

end FileTransferSender

/-! ### Promises -/

/-- The size that a start chunk declares. -/
def declaredSize (payload : Bytes) : Option Nat := toULongLong (payload.map fun b => Char.ofNat b.toNat)

/-- A file that has been started: its size and how much of it has come. Nothing comes of an emission that breaks a
promise: more bytes than were declared, a start before the end of another file, or an end without a start. -/
def promise : Option (Nat × Nat) → Emission → Option (Option (Nat × Nat))
  | none, .dragInfo .. => some none
  | some _, .dragInfo .. => none
  | none, .chunk mark payload =>
    if mark = ChunkType.dataStart then (declaredSize payload).map fun size => some (size, 0) else none
  | some (size, got), .chunk mark payload =>
    if mark = ChunkType.dataChunk then
      if got + payload.length ≤ size then some (some (size, got + payload.length)) else none
    else if mark = ChunkType.dataEnd then some none
    else none

def promises (emitted : List Emission) : Option (Option (Nat × Nat)) := emitted.foldlM promise none

theorem promises_append (emitted : List Emission) (e : Emission) :
    promises (emitted ++ [e]) = (promises emitted).bind (promise · e) := by
  rw [promises, List.foldlM_append]
  change (promises emitted).bind (fun o => (promise o e).bind some) = _
  refine congrArg _ (funext fun o => ?_)
  cases promise o e <;> rfl

/-- What the receiver keeps when an emission reaches it. -/
def receive (maxFileSize : Nat) (r : Bytes × FileTransferAssemblyState) : Emission → Bytes × FileTransferAssemblyState
  | .dragInfo .. => r
  | .chunk mark payload =>
    let a := FileChunk.accept r.1 r.2 maxFileSize mark.toNat payload
    (a.dataCached, a.state)

def received (maxFileSize : Nat) (emitted : List Emission) : Bytes × FileTransferAssemblyState :=
  emitted.foldl (receive maxFileSize) ([], {})

theorem received_append (maxFileSize : Nat) (emitted : List Emission) (e : Emission) :
    received maxFileSize (emitted ++ [e]) = receive maxFileSize (received maxFileSize emitted) e := by
  rw [received, List.foldl_append]
  rfl

/-- The limit is not below a size that is declared. -/
def Sufficient (maxFileSize : Nat) (emitted : List Emission) : Prop :=
  ∀ payload, .chunk ChunkType.dataStart payload ∈ emitted → ∀ size ∈ declaredSize payload, size ≤ maxFileSize

/-- What is kept of a file of which some bytes have come. -/
def Holds : Option (Nat × Nat) → Bytes × FileTransferAssemblyState → Prop
  | none, r => r.2.active = false
  | some (size, got), r => r.2 = ⟨size, true⟩ ∧ r.1.length = got

/-- The receiver's answer to a chunk is an error only at the end of a file of which less has come than was declared. -/
def AnswersWithin (maxFileSize : Nat) (r : Bytes × FileTransferAssemblyState) : Emission → Prop
  | .dragInfo .. => True
  | .chunk mark payload => (FileChunk.accept r.1 r.2 maxFileSize mark.toNat payload).transfer = .error →
      mark = ChunkType.dataEnd ∧ r.1.length < r.2.expectedSize

section
variable {maxFileSize : Nat} {o o' : Option (Nat × Nat)} {r : Bytes × FileTransferAssemblyState} {e : Emission}
  {emitted : List Emission}

theorem accept_started {cached payload : Bytes} {state : FileTransferAssemblyState} {size : Nat}
    (hidle : state.active = false) (hsize : declaredSize payload = some size) (hle : size ≤ maxFileSize) :
    FileChunk.accept cached state maxFileSize ChunkType.dataStart.toNat payload = ⟨.started, [], ⟨size, true⟩⟩ := by
  unfold FileChunk.accept
  rw [if_pos rfl, hidle, if_neg Bool.false_ne_true, show toULongLong _ = some size from hsize]
  exact if_neg (Nat.not_lt.mpr hle)

theorem accept_more {cached payload : Bytes} {size : Nat} (hfits : cached.length + payload.length ≤ size) :
    FileChunk.accept cached ⟨size, true⟩ maxFileSize ChunkType.dataChunk.toNat payload =
      ⟨.inProgress, cached ++ payload, ⟨size, true⟩⟩ := by
  have hfit : FileChunk.wouldExceed cached.length payload.length size = false := by
    simp only [FileChunk.wouldExceed, Bool.or_eq_false_iff, decide_eq_false_iff_not]
    omega
  unfold FileChunk.accept
  rw [if_neg (by decide), if_pos rfl]
  dsimp only
  rw [hfit]
  rfl

theorem accept_finish (cached payload : Bytes) (size : Nat) :
    FileChunk.accept cached ⟨size, true⟩ maxFileSize ChunkType.dataEnd.toNat payload =
      if size ≠ cached.length then ⟨.error, [], {}⟩ else ⟨.finished, cached, ⟨size, false⟩⟩ := by
  unfold FileChunk.accept
  rw [if_neg (by decide), if_neg (by decide), if_pos rfl]
  rfl

/-- No more has come of a file than was declared. -/
theorem promise_within (he : promise o e = some o') : ∀ p ∈ o', p.2 ≤ p.1 := by
  rintro ⟨size, got⟩ hp
  obtain rfl : o' = some (size, got) := hp
  rcases o with _ | ⟨size', got'⟩ <;> rcases e with _ | ⟨mark, payload⟩
  · cases he
  · rw [promise] at he
    split at he
    · obtain ⟨declared, -, heq⟩ := Option.map_eq_some_iff.mp he
      obtain ⟨rfl, rfl⟩ := Prod.mk.inj (Option.some.inj heq)
      exact Nat.zero_le _
    · cases he
  · cases he
  · rw [promise] at he
    split_ifs at he with hmark hfits hend
    · obtain ⟨rfl, rfl⟩ := Prod.mk.inj (Option.some.inj (Option.some.inj he))
      exact hfits
    · cases Option.some.inj he

/-- A promise that is kept is followed by the receiver. -/
theorem receive_promise (h : Holds o r) (hgot : ∀ p ∈ o, p.2 ≤ p.1) (he : promise o e = some o')
    (hmax : Sufficient maxFileSize [e]) : Holds o' (receive maxFileSize r e) ∧ AnswersWithin maxFileSize r e := by
  rcases r with ⟨cached, state⟩
  cases e with
  | dragInfo fileCount names =>
    cases o with
    | none =>
      obtain rfl := Option.some.inj he
      exact ⟨h, trivial⟩
    | some p => cases he
  | chunk mark payload =>
    cases o with
    | none =>
      rw [promise] at he
      split at he
      next hmark =>
        subst hmark
        obtain ⟨size, hsize, rfl⟩ := Option.map_eq_some_iff.mp he
        have haccept : FileChunk.accept cached state maxFileSize ChunkType.dataStart.toNat payload =
            ⟨.started, [], ⟨size, true⟩⟩ := accept_started h hsize (hmax payload List.mem_cons_self size hsize)
        unfold receive AnswersWithin
        simp only [haccept]
        exact ⟨⟨rfl, rfl⟩, fun herror => absurd herror (by decide)⟩
      · cases he
    | some p =>
      rcases p with ⟨size, got⟩
      obtain ⟨hstate, hlength⟩ := h
      have hstate : state = ⟨size, true⟩ := hstate
      have hlength : cached.length = got := hlength
      subst hstate hlength
      have hle : cached.length ≤ size := hgot _ rfl
      rw [promise] at he
      split_ifs at he with hmark hfits hend
      · subst hmark
        obtain rfl := Option.some.inj he
        unfold receive AnswersWithin
        simp only [accept_more hfits]
        exact ⟨⟨rfl, List.length_append⟩, fun herror => absurd herror (by decide)⟩
      · subst hend
        obtain rfl := Option.some.inj he
        unfold receive AnswersWithin
        simp only [accept_finish]
        split_ifs with hall
        · exact ⟨rfl, fun _ => ⟨trivial, Nat.lt_of_le_of_ne hle (Ne.symm hall)⟩⟩
        · exact ⟨rfl, fun herror => absurd herror (by decide)⟩

theorem sufficient_append {e : Emission} (h : Sufficient maxFileSize (emitted ++ [e])) :
    Sufficient maxFileSize emitted ∧ Sufficient maxFileSize [e] :=
  ⟨fun payload hmem => h payload (List.mem_append_left _ hmem),
      fun payload hmem => h payload (List.mem_append_right _ hmem)⟩

/-- What is emitted keeps the promises, and so the receiver answers no error because of a byte too many. -/
structure Promised (emitted : List Emission) (o : Option (Nat × Nat)) : Prop where
  kept : promises emitted = some o
  within : ∀ p ∈ o, p.2 ≤ p.1
  holds : ∀ maxFileSize, Sufficient maxFileSize emitted → Holds o (received maxFileSize emitted)
  answers : ∀ maxFileSize, Sufficient maxFileSize emitted → ∀ before e behind, emitted = before ++ e :: behind →
    AnswersWithin maxFileSize (received maxFileSize before) e

theorem Promised.snoc (h : Promised emitted o) (he : promise o e = some o') : Promised (emitted ++ [e]) o' := by
  have hstep (maxFileSize : Nat) (hmax : Sufficient maxFileSize (emitted ++ [e])) :=
    receive_promise (h.holds maxFileSize (sufficient_append hmax).1) h.within he (sufficient_append hmax).2
  refine ⟨?_, fun p hp => ?_, fun maxFileSize hmax => ?_, fun maxFileSize hmax before x behind hsplit => ?_⟩
  · rw [promises_append, h.kept]
    exact he
  · exact promise_within he p hp
  · rw [received_append]
    exact (hstep maxFileSize hmax).1
  · rcases List.eq_nil_or_concat behind with rfl | ⟨behind, last, rfl⟩
    · obtain ⟨rfl, hlast⟩ := List.append_inj' hsplit rfl
      obtain rfl := (List.cons.inj hlast).1
      exact (hstep maxFileSize hmax).2
    · have hinner : emitted ++ [e] = (before ++ x :: behind) ++ [last] := by
        rw [hsplit, List.concat_eq_append, List.append_assoc, List.cons_append]
      obtain ⟨hinit, -⟩ := List.append_inj' hinner rfl
      exact h.answers maxFileSize (sufficient_append hmax).1 before x behind hinit

end

/-! ### Sending -/

namespace FileTransferSender
open FileTransferSource

/-- The sender, what the open file held when it was opened, and whether it has only been added to since. -/
structure Watched where
  send : FileSend
  opened : Bytes := []
  appended : Bool := true

def watch (w : Watched) (view : FileView) : Watched where
  send := sendStep w.send view
  opened := if w.send.file.isSome then w.opened else (view.map (·.content)).getD []
  appended :=
    if w.send.file.isSome then w.appended && view.any (fun found => w.opened.isPrefixOf found.content) else true

/-- The file that has been started. -/
def FileSend.started (s : FileSend) : Option (Nat × Nat) := s.file.map fun file => (file.entry.size, file.position)

/-- A read of the open file finds no byte behind its declared size. -/
def Fits (w : Watched) (view : FileView) : Prop := ∀ file ∈ w.send.file, ∀ found ∈ view,
  min found.content.length (file.position + FileChunk.chunkSize) ≤ file.entry.size

/-- The promises are kept, and a file that has only been added to arrives as it was opened. -/
structure Keeps (w w' : Watched) : Prop where
  promised : Promised w'.send.emitted (FileSend.started w'.send)
  whole : w.send.file ≠ none → w'.send.file = none → w'.appended = true →
    ∀ maxFileSize, Sufficient maxFileSize w'.send.emitted →
      FileChunk.accept (received maxFileSize w.send.emitted).1 (received maxFileSize w.send.emitted).2 maxFileSize
        ChunkType.dataEnd.toNat [] = ⟨.finished, w.opened, ⟨w.opened.length, false⟩⟩

/-- What has been received of a file that has only been added to is the start of what was opened. -/
structure Inv (w : Watched) : Prop where
  promised : Promised w.send.emitted (FileSend.started w.send)
  opened : ∀ file ∈ w.send.file, w.appended = true → w.opened.length = file.entry.size ∧
    ∀ maxFileSize, Sufficient maxFileSize w.send.emitted →
      (received maxFileSize w.send.emitted).1 = w.opened.take file.position

section
variable {w : Watched} {view : FileView}

end

end FileTransferSender

/-! ### Streaming -/

namespace FileTransferSource
open FileTransferSender

variable {opened : Bytes}

/-- What is sent of a file: its declared size and the pieces that have been emitted. -/
def Streaming.emissions (opened : Bytes) (s : Streaming) : List Emission :=
  .chunk ChunkType.dataStart (decimal opened.length) :: s.emitted.map (.chunk ChunkType.dataChunk)

end FileTransferSource

namespace FileTransferSender

/-- A file is opened with one byte, and has two when it is read. -/
def grown : List FileView := [some ⟨[1], by decide⟩, some ⟨[1, 2], by decide⟩]

end FileTransferSender
end Synergy
