import Mathlib.Data.List.Forall2
import Synergy.FileTransfer.FileTransferSender
import Synergy.Protocol.ProtocolRoundTrip

/-! Under which names the contents of a drag are stored. Contents and names are paired by
their positions alone; the ledger says what that comes to. -/
namespace Synergy
open Lib ProtocolUtil FileTransferReceiver FileTransferSource FileTransferSender Emission

/-- How many names are used up, the bytes counted and the contents stored, by name. -/
structure Ledger where
  next : Nat := 0
  used : Nat := 0
  pairs : List (Bytes × Bytes) := []

namespace Ledger

/-- A content takes the next name, and is stored under it when it fits the total. -/
def place (limit : Nat) (names : List Bytes) (l : Ledger) (content : Bytes) : Ledger :=
  match names[l.next]? with
  | none => l
  | some name =>
    if limit < (l.used + content.length) % 2 ^ 64 then { l with next := l.next + 1 }
    else ⟨l.next + 1, (l.used + content.length) % 2 ^ 64, l.pairs ++ [(name, content)]⟩

/-- The pairs that are left when those that do not fit the total are skipped. -/
def withinTotal (limit : Nat) : Nat → List (Bytes × Bytes) → List (Bytes × Bytes)
  | _, [] => []
  | used, p :: pairs =>
    if limit < (used + p.2.length) % 2 ^ 64 then withinTotal limit used pairs
    else p :: withinTotal limit ((used + p.2.length) % 2 ^ 64) pairs

theorem foldl_place (limit : Nat) (names contents : List Bytes) (l : Ledger) :
    (contents.foldl (place limit names) l).pairs =
      l.pairs ++ withinTotal limit l.used ((names.drop l.next).zip contents) := by
  induction contents generalizing l with
  | nil => simp [withinTotal]
  | cons content contents ih =>
    rw [List.foldl_cons, ih]
    cases hname : names[l.next]? with
    | none =>
      have hdrop : names.drop l.next = [] := List.drop_eq_nil_of_le (List.getElem?_eq_none_iff.mp hname)
      simp [place, hname, hdrop, withinTotal]
    | some name =>
      obtain ⟨hlt, rfl⟩ := List.getElem?_eq_some_iff.mp hname
      rw [List.drop_eq_getElem_cons hlt, List.zip_cons_cons, withinTotal]
      by_cases hlimit : limit < (l.used + content.length) % 2 ^ 64
      · simp only [place, hname, if_pos hlimit]
      · simp only [place, hname, if_neg hlimit, List.append_assoc, List.singleton_append]

/-- What an assembled chunk does to the ledger. -/
def take (limit : Nat) (names : List Bytes) (l : Ledger) (r : FileChunk.Assembled) : Ledger :=
  match r.transfer with
  | .finished => l.place limit names r.dataCached
  | _ => l

end Ledger

/-- What is still buffered after an assembled chunk has been acted on. -/
def FileChunk.Assembled.kept (r : FileChunk.Assembled) : Bytes :=
  match r.transfer with
  | .finished | .error => []
  | _ => r.dataCached

namespace FileTransferSender

def contentOf (files : SourceFiles) (entry : FileTransferEntry) : Option Bytes :=
  (files entry.path).map SourceFile.content

/-- The contents that are sent and can be completed: of the entries that open and are
within the receiver's limit for one file. -/
def sendable (options : FileTransferOptions) (files : SourceFiles) (entries : List FileTransferEntry) : List Bytes :=
  (entries.filterMap (contentOf files)).filter fun content => decide (content.length ≤ options.maxFileSize)

/-- The names that are announced and not refused, when the announce can be read and acted on. -/
def accepted (options : FileTransferOptions) (entries : List FileTransferEntry) : List Bytes :=
  if options.enabled = true ∧ options.dropDirectory ≠ [] ∧ entries.length ≤ 0xFFFF ∧
      (dragInfoPayload entries).length ≤ protocolMaxStringLength then
    (entries.map FileTransferEntry.name).filter fun name => !(FileTransferPath.sanitizeFileName name).isEmpty
  else []

/-- The contents by the names they are stored under: position by position, without those
that would exceed the total. -/
def placements (options : FileTransferOptions) (files : SourceFiles) (entries : List FileTransferEntry) :
    List (Bytes × Bytes) :=
  Ledger.withinTotal options.maxTotalBytes 0 ((accepted options entries).zip (sendable options files entries))

end FileTransferSender

namespace Drop

/-- The system lets a file be written under the next name when a chunk arrives. -/
def Writable (d : Drop) : DropMessage → Prop
  | .dragInfo _ => True
  | .fileChunk disk _ => ∀ name ∈ d.receiver.acceptedNames[d.receiver.nextName]?,
      canStore disk d.files d.receiver.options.dropDirectory name = true

instance (d : Drop) : ∀ m, Decidable (d.Writable m)
  | .dragInfo _ => .isTrue trivial
  | .fileChunk _ _ => inferInstanceAs (Decidable (∀ name ∈ d.receiver.acceptedNames[d.receiver.nextName]?, _))

/-- An enabled receiver with these names, where the ledger has got to and what the
assembly is in the middle of. -/
structure Stands (options : FileTransferOptions) (names : List Bytes) (l : Ledger) (buffer : Bytes)
    (state : FileTransferAssemblyState) (d : Drop) : Prop where
  sameOptions : d.receiver.options = options
  enabled : options.enabled = true
  directory : options.dropDirectory = [] → names = []
  safe : ∀ name ∈ names, NoSeparator name ∧ name ≠ []
  accepted : d.receiver.acceptedNames = names
  next : d.receiver.nextName = l.next
  used : d.receiver.totalWritten = l.used
  stored : d.stored.map (fun f => (f.name, f.content)) = l.pairs
  paths : ∀ f ∈ d.stored, f.path ∈ targetPaths options.dropDirectory f.name
  buffered : d.receiver.buffer = buffer
  assembly : d.receiver.state = state

variable {options : FileTransferOptions} {names : List Bytes} {l : Ledger} {buffer : Bytes}
  {state : FileTransferAssemblyState} {d : Drop}

private theorem Stands.writeCurrentFile (h : Stands options names l buffer state d) {disk : Disk}
    (hcan : ∀ name, names[l.next]? = some name → canStore disk d.files options.dropDirectory name = true) :
    Stands options names (l.place options.maxTotalBytes names buffer) [] state (d.writeCurrentFile disk) := by
  obtain ⟨hopt, hon, hdir, hsafe, hacc, hnext, hused, hstored, hpaths, hbuf, hstate⟩ := h
  by_cases hempty : options.dropDirectory = []
  · have hnil := hdir hempty
    subst hnil
    simp only [Drop.writeCurrentFile, hopt, hempty, List.isEmpty_nil, if_true, Ledger.place, List.getElem?_nil]
    exact ⟨rfl, hon, hdir, hsafe, hacc, hnext, hused, hstored, hpaths, rfl, hstate⟩
  cases hname : names[l.next]? with
  | none =>
    simp only [Drop.writeCurrentFile, hopt, List.isEmpty_eq_false_iff.mpr hempty, Bool.false_eq_true, if_false, hacc, hnext,
      hname, Ledger.place]
    exact ⟨rfl, hon, hdir, hsafe, rfl, rfl, hused, hstored, hpaths, rfl, hstate⟩
  | some name =>
    obtain ⟨hlt, hget⟩ := List.getElem?_eq_some_iff.mp hname
    obtain ⟨hsep, hne⟩ := hsafe name (hget ▸ List.getElem_mem hlt)
    have hcan' := hcan name hname
    have hwrite : d.writeCurrentFile disk =
        { d with receiver := { d.receiver with buffer := [], nextName := l.next + 1 } }.store disk name buffer := by
      simp only [Drop.writeCurrentFile, hopt, List.isEmpty_eq_false_iff.mpr hempty, Bool.false_eq_true, if_false, hacc,
        hnext, hname, hbuf]
    rw [hwrite]
    by_cases hlimit : options.maxTotalBytes < (l.used + buffer.length) % 2 ^ 64
    · rw [store_over_total (by simpa only [hopt, hused] using hlimit)]
      simp only [Ledger.place, hname, if_pos hlimit]
      exact ⟨hopt, hon, hdir, hsafe, hacc, rfl, hused, hstored, hpaths, rfl, hstate⟩
    · have hfit : (d.receiver.totalWritten + buffer.length) % 2 ^ 64 ≤ d.receiver.options.maxTotalBytes := by
        rw [hopt, hused]
        exact not_lt.mp hlimit
      rw [← hopt] at hcan'
      obtain ⟨target, files, created, htarget, hstore⟩ := store_of_canStore
        (d := { d with receiver := { d.receiver with buffer := [], nextName := l.next + 1 } }) hsep hne hcan' hfit
      rw [hopt] at htarget
      rw [hstore]
      simp only [Ledger.place, hname, if_neg hlimit]
      refine ⟨hopt, hon, hdir, hsafe, hacc, rfl, by rw [← hused], by simp [hstored], ?_, rfl, hstate⟩
      intro f hf
      rcases List.mem_append.mp hf with hf | hf
      · exact hpaths f hf
      · rw [List.mem_singleton.mp hf]
        exact htarget

/-- One delivered chunk, by what the assembly makes of it. -/
private theorem Stands.chunk (h : Stands options names l buffer state d) {mark : UInt8} {payload : Bytes}
    {m : DropMessage} (hm : Delivers (.chunk mark payload) m) (hp : payload.length ≤ protocolMaxStringLength)
    (hw : d.Writable m) {r : FileChunk.Assembled}
    (hr : FileChunk.accept buffer state options.maxFileSize mark.toNat payload = r) :
    Stands options names (l.take options.maxTotalBytes names r) r.kept r.state (d.step m) := by
  cases hm with
  | chunk mark payload disk body hbody =>
    have hvalid : ∀ f ∈ (Emission.chunk mark payload).fields, f.Valid := by
      intro f hf
      rcases List.mem_pair.mp hf with rfl | rfl
      · exact ⟨.inl rfl, mark.toNat_lt⟩
      · exact hp
    have hread : Reads (FileChunk.assemble buffer state options.maxFileSize)
        (bytesOf (Emission.chunk mark payload).fields)
        (FileChunk.accept buffer state options.maxFileSize mark.toNat payload) := by
      unfold FileChunk.assemble
      exact (reads_readf hvalid).last (Reads.pure _)
    obtain ⟨rest, hrun, -⟩ := hread body [] (by simpa using hbody)
    have hassemble : FileChunk.assemble d.receiver.buffer d.receiver.state d.receiver.options.maxFileSize body =
        (.ok r, rest) := by
      rw [h.buffered, h.assembly, h.sameOptions, ← hr]
      exact hrun
    have hbase : Stands options names l r.dataCached r.state
        { d with receiver := { d.receiver with buffer := r.dataCached, state := r.state } } :=
      { h with buffered := rfl, assembly := rfl }
    have hwrite : ∀ name, names[l.next]? = some name → canStore disk d.files options.dropDirectory name = true := by
      intro name hname
      rw [← h.sameOptions]
      exact hw name (by rw [h.accepted, h.next, hname]; rfl)
    have hon : d.receiver.options.enabled = true := by rw [h.sameOptions, h.enabled]
    have hstep : d.step (.fileChunk disk body) = (d.onAssembled disk r).2 := by
      rw [step, onFileChunk, hassemble]
    rw [hstep, onAssembled]
    simp only [hon, Bool.not_true, Bool.false_eq_true, if_false, Ledger.take, FileChunk.Assembled.kept]
    cases r.transfer with
    | started => exact hbase
    | inProgress => exact hbase
    | finished => exact hbase.writeCurrentFile hwrite
    | error => exact { hbase with buffered := rfl }

private theorem split_forall₂ {es es' : List Emission} {ms : List DropMessage}
    (h : List.Forall₂ Delivers (es ++ es') ms) :
    ∃ a b, List.Forall₂ Delivers es a ∧ List.Forall₂ Delivers es' b ∧ ms = a ++ b :=
  ⟨ms.take es.length, ms.drop es.length, by simpa using List.forall₂_take es.length h,
    by simpa using List.forall₂_drop es.length h, (List.take_append_drop _ _).symm⟩

/-- The data of a transfer that has started piles up. -/
private theorem Stands.pieces {size : Nat} (h : Stands options names l buffer ⟨size, true⟩ d) {pieces : List Bytes}
    (hp : ∀ piece ∈ pieces, piece.length ≤ protocolMaxStringLength) (hsize : (buffer ++ pieces.flatten).length ≤ size)
    {ms : List DropMessage} (hm : List.Forall₂ Delivers (pieces.map (Emission.chunk ChunkType.dataChunk)) ms)
    (hw : EachStep (fun d m _ => d.Writable m) d (runTrace step d ms)) :
    Stands options names l (buffer ++ pieces.flatten) ⟨size, true⟩ (ms.foldl step d) := by
  induction pieces generalizing buffer d ms with
  | nil =>
    obtain rfl := List.forall₂_nil_left_iff.mp hm
    simpa using h
  | cons piece pieces ih =>
    obtain ⟨m, ms, hfirst, hrest, rfl⟩ := List.forall₂_cons_left_iff.mp hm
    rw [List.flatten_cons, ← List.append_assoc] at hsize ⊢
    have hfits : FileChunk.wouldExceed buffer.length piece.length size = false := by
      simp only [List.length_append] at hsize
      simp only [FileChunk.wouldExceed, Bool.or_eq_false_iff, decide_eq_false_iff_not]
      omega
    have haccept : FileChunk.accept buffer ⟨size, true⟩ options.maxFileSize ChunkType.dataChunk.toNat piece =
        ⟨.inProgress, buffer ++ piece, ⟨size, true⟩⟩ := by
      simp [FileChunk.accept, ChunkType.dataStart, ChunkType.dataChunk, hfits]
    have hnext := h.chunk hfirst (hp piece (by simp)) hw.1 haccept
    exact ih hnext (fun q hq => hp q (by simp [hq])) hsize hrest hw.2

/-- Data and ends outside a transfer are refused. -/
private theorem Stands.ignored (h : Stands options names l [] {} d) {emissions : List Emission}
    (hp : ∀ e ∈ emissions, ∃ mark payload, e = .chunk mark payload ∧ payload.length ≤ protocolMaxStringLength ∧
      (mark = ChunkType.dataChunk ∨ mark = ChunkType.dataEnd))
    {ms : List DropMessage} (hm : List.Forall₂ Delivers emissions ms)
    (hw : EachStep (fun d m _ => d.Writable m) d (runTrace step d ms)) :
    Stands options names l [] {} (ms.foldl step d) := by
  induction emissions generalizing d ms with
  | nil =>
    obtain rfl := List.forall₂_nil_left_iff.mp hm
    exact h
  | cons e emissions ih =>
    obtain ⟨m, ms, hfirst, hrest, rfl⟩ := List.forall₂_cons_left_iff.mp hm
    obtain ⟨mark, payload, rfl, hlen, hmark⟩ := hp e (by simp)
    have haccept : FileChunk.accept [] {} options.maxFileSize mark.toNat payload = ⟨.error, [], {}⟩ := by
      rcases hmark with rfl | rfl <;> rfl
    exact ih (h.chunk hfirst hlen hw.1 haccept) (fun e he => hp e (by simp [he])) hrest hw.2

/-- A file that is sent between transfers takes its place in the ledger, or is too large
and leaves no trace. -/
private theorem Stands.file (h : Stands options names l [] state d) (hidle : state.active = false) {content : Bytes}
    (hcontent : content.length < 2 ^ 63) {ms : List DropMessage}
    (hm : List.Forall₂ Delivers (fileEmissions content) ms)
    (hw : EachStep (fun d m _ => d.Writable m) d (runTrace step d ms)) :
    ∃ state', state'.active = false ∧
      Stands options names (if content.length ≤ options.maxFileSize then l.place options.maxTotalBytes names content else l)
        [] state' (ms.foldl step d) := by
  obtain ⟨m, ms, hstart, hrest, rfl⟩ := List.forall₂_cons_left_iff.mp hm
  have hlt : content.length < 2 ^ 64 := hcontent.trans (by decide)
  have hnum : toULongLong ((decimal content.length).map fun b => Char.ofNat b.toNat) = some content.length := by
    rw [decimal, chars_of_digits, toULongLong_toDigits hlt]
  obtain ⟨hflat, hp⟩ := readChunks_spec (Nat.lt_succ_self content.length)
  by_cases hsize : content.length ≤ options.maxFileSize
  · have haccept : FileChunk.accept [] state options.maxFileSize ChunkType.dataStart.toNat (decimal content.length) =
        ⟨.started, [], ⟨content.length, true⟩⟩ := by
      simp [FileChunk.accept, hidle, hnum, not_lt.mpr hsize]
    have hstarted : Stands options names l [] ⟨content.length, true⟩ (d.step m) :=
      h.chunk hstart (length_digits hlt) hw.1 haccept
    obtain ⟨pieces, ends, hdata, hends, rfl⟩ := split_forall₂ hrest
    obtain ⟨last, more, hend, hnil, rfl⟩ := List.forall₂_cons_left_iff.mp hends
    obtain rfl := List.forall₂_nil_left_iff.mp hnil
    obtain ⟨hw₁, hw₂⟩ := eachStep_runTrace_append.mp hw.2
    have hpiled := hstarted.pieces hp (by rw [List.nil_append, hflat]) hdata hw₁
    rw [List.nil_append, hflat] at hpiled
    have hfinish : FileChunk.accept content ⟨content.length, true⟩ options.maxFileSize ChunkType.dataEnd.toNat [] =
        ⟨.finished, content, ⟨content.length, false⟩⟩ := by
      simp [FileChunk.accept, ChunkType.dataStart, ChunkType.dataChunk, ChunkType.dataEnd]
    have hfinal := hpiled.chunk hend (Nat.zero_le _) hw₂.1 hfinish
    refine ⟨⟨content.length, false⟩, rfl, ?_⟩
    rw [if_pos hsize, List.foldl_cons, List.foldl_append]
    exact hfinal
  · have haccept : FileChunk.accept [] state options.maxFileSize ChunkType.dataStart.toNat (decimal content.length) =
        ⟨.error, [], {}⟩ := by
      simp [FileChunk.accept, hidle, hnum, not_le.mp hsize]
    have hrefused := h.chunk hstart (length_digits hlt) hw.1 haccept
    refine ⟨{}, rfl, ?_⟩
    rw [if_neg hsize]
    refine hrefused.ignored ?_ hrest hw.2
    intro e he
    rcases List.mem_append.mp he with he | he
    · obtain ⟨piece, hpiece, rfl⟩ := List.mem_map.mp he
      exact ⟨_, _, rfl, hp piece hpiece, .inl rfl⟩
    · obtain rfl := List.mem_singleton.mp he
      exact ⟨_, _, rfl, Nat.zero_le _, .inr rfl⟩

theorem readf_long_names {body : IStream} {count : Nat} {names : Bytes} (hcount : count < 2 ^ 16)
    (hlt : names.length < 2 ^ 32) (hlong : protocolMaxStringLength < names.length)
    (h : body.Holds (bytesOf (Emission.dragInfo count names).fields)) :
    ∃ what rest, readf (kMsgDDragInfo.drop 4) [.int 0, .string []] body = (.error (.badClient what), rest) := by
  have hbytes : bytesOf (Emission.dragInfo count names).fields =
      bigEndian 2 count ++ (bigEndian 4 names.length ++ names) := by
    simp [bytesOf, Emission.fields, Field.bytes]
  rw [hbytes] at h
  have hcountRead : Reads (readInt 2) (bigEndian 2 count) count := reads_readInt (by omega)
  have hlengthRead : Reads (readInt 4) (bigEndian 4 names.length) names.length := reads_readInt (by omega)
  obtain ⟨s₁, h₁, hs₁⟩ := hcountRead body _ h
  obtain ⟨s₂, h₂, -⟩ := hlengthRead s₁ names hs₁
  have hsize : readBytesLength 0 s₁ = (.error (.badClient "Too long message received"), s₂) := by
    refine (ReadM.bind_ok h₂ _).trans ?_
    rw [if_pos hlong]
    rfl
  have hstring : vreadf [.spec 0 .string] [.string []] s₁ = (.error (.badClient "Too long message received"), s₂) :=
    ReadM.bind_error (ReadM.bind_error hsize _) _
  have hall : vreadf [.spec 2 .int, .spec 0 .string] [.int 0, .string []] body =
      (.error (.badClient "Too long message received"), s₂) :=
    (ReadM.bind_ok h₁ _).trans (ReadM.bind_error hstring _)
  have hscan : scanFormat none (kMsgDDragInfo.drop 4) = [.spec 2 .int, .spec 0 .string] := by decide
  exact ⟨_, s₂, by rw [readf, hscan, hall]⟩

private theorem map_sanitize (names : List Bytes) :
    ((names.filter (!·.isEmpty)).map FileTransferPath.sanitizeFileName).filter (!·.isEmpty) =
      names.filter fun name => !(FileTransferPath.sanitizeFileName name).isEmpty := by
  induction names with
  | nil => rfl
  | cons name names ih =>
    by_cases hsafe : FileTransferPath.sanitizeFileName name = []
    · rcases eq_or_ne name [] with rfl | hname
      · simp [hsafe, ih]
      · simp [hname, hsafe, ih]
    · obtain ⟨hsame, -, -, hname⟩ := FileTransferPath.sanitizeFileName_safe hsafe
      simp [hname, hsame, ih]

/-- The names that a fresh receiver accepts of an announce. -/
private theorem announce_payload {entries : List FileTransferEntry} (hnul : ∀ e ∈ entries, (0 : UInt8) ∉ e.name)
    (hcount : entries.length ≤ options.maxFileCount) (hlen : entries.length ≤ 0xFFFF) (hon : options.enabled = true)
    (hshort : (dragInfoPayload entries).length ≤ protocolMaxStringLength) :
    let r : FileTransferReceiver := { options := options }
    (r.announce (dragInfoPayload entries)).2 =
      { r with acceptedNames := accepted options entries, refused := (r.announce (dragInfoPayload entries)).2.refused } := by
  have hsplit : FileTransferPath.splitNames (dragInfoPayload entries) =
      (entries.map FileTransferEntry.name).filter (!·.isEmpty) := by
    refine FileTransferPath.splitNames_joinNames fun name hname => ?_
    obtain ⟨e, he, rfl⟩ := List.mem_map.mp hname
    exact hnul e he
  have hfew : (FileTransferPath.splitNames (dragInfoPayload entries)).length ≤ options.maxFileCount := by
    rw [hsplit]
    refine (List.length_filter_le _ _).trans ?_
    rwa [List.length_map]
  by_cases hempty : options.dropDirectory = []
  · simp [announce, hon, hempty, accepted]
  have haccepted : accepted options entries =
      ((FileTransferPath.splitNames (dragInfoPayload entries)).map FileTransferPath.sanitizeFileName).filter
        (!·.isEmpty) := by
    rw [accepted, if_pos ⟨hon, hempty, hlen, hshort⟩, hsplit, map_sanitize]
  rw [haccepted]
  by_cases hnames : FileTransferPath.splitNames (dragInfoPayload entries) = []
  · simp [announce, hon, hempty, hnames]
  · simp [announce, hon, hempty, hnames, not_lt.mpr hfew, FileTransferReceiver.refuse]

/-- A delivered announce leaves the receiver at the beginning of the drag. -/
private theorem stands_announced {entries : List FileTransferEntry} {fs : FileSystem} {fileCount : Nat}
    {m : DropMessage} (hnul : ∀ e ∈ entries, (0 : UInt8) ∉ e.name) (hcount : entries.length ≤ options.maxFileCount)
    (hlen : entries.length ≤ 0xFFFF) (hon : options.enabled = true)
    (hm : Delivers (.dragInfo fileCount (dragInfoPayload entries)) m) :
    Stands options (accepted options entries) {} [] {} ((start options fs).step m) := by
  cases hm with
  | dragInfo _ count names body hc hlt hbody =>
    have hdir : options.dropDirectory = [] → accepted options entries = [] := by
      intro hempty
      simp [accepted, hempty]
    have hsafe : ∀ name ∈ accepted options entries, NoSeparator name ∧ name ≠ [] := by
      intro name hname
      unfold accepted at hname
      split at hname
      next =>
        obtain ⟨-, hs⟩ := List.mem_filter.mp hname
        obtain ⟨-, hslash, hback, hne⟩ := FileTransferPath.sanitizeFileName_safe (by simpa using hs)
        exact ⟨⟨hslash, hback⟩, hne⟩
      next => simp at hname
    have hbase : ∀ receiver : FileTransferReceiver,
        receiver = { options := options, acceptedNames := accepted options entries, refused := receiver.refused } →
        Stands options (accepted options entries) {} [] {} { receiver := receiver, files := fs } := by
      intro receiver heq
      rw [heq]
      exact ⟨rfl, hon, hdir, hsafe, rfl, rfl, rfl, rfl, by simp, rfl, rfl⟩
    by_cases hlong : protocolMaxStringLength < (dragInfoPayload entries).length
    · have hnone : accepted options entries = [] := by
        rw [accepted, if_neg]
        rintro ⟨-, -, -, hle⟩
        omega
      obtain ⟨what, rest, hread⟩ := readf_long_names hc hlt hlong hbody
      rw [step, onDragInfo]
      simp only [hread]
      exact hbase _ (by rw [hnone]; rfl)
    · have hvalid : ∀ f ∈ (Emission.dragInfo count (dragInfoPayload entries)).fields, f.Valid := by
        intro f hf
        rcases List.mem_pair.mp hf with rfl | rfl
        · exact ⟨.inr (.inl rfl), by omega⟩
        · exact not_lt.mp hlong
      obtain ⟨rest, hread, -⟩ := reads_readf hvalid body [] (by simpa using hbody)
      have hread' : readf (kMsgDDragInfo.drop 4) [.int 0, .string []] body =
          (.ok (some [.int count, .string (dragInfoPayload entries)]), rest) := hread
      have hannounce : (({ options := options } : FileTransferReceiver).announce (dragInfoPayload entries)).2 =
          { options := options, acceptedNames := accepted options entries,
            refused := (({ options := options } : FileTransferReceiver).announce (dragInfoPayload entries)).2.refused } :=
        announce_payload hnul hcount hlen hon (not_lt.mp hlong)
      rw [step, onDragInfo]
      simp only [hread']
      exact hbase _ hannounce

private theorem Stands.entries (h : Stands options names l [] state d) (hidle : state.active = false)
    (files : SourceFiles) {entries : List FileTransferEntry} {ms : List DropMessage}
    (hm : List.Forall₂ Delivers (entries.flatMap fun e => (sendEntry files e).2) ms)
    (hw : EachStep (fun d m _ => d.Writable m) d (runTrace step d ms)) :
    ∃ state', Stands options names
      ((sendable options files entries).foldl (Ledger.place options.maxTotalBytes names) l) [] state' (ms.foldl step d) := by
  induction entries generalizing l state d ms with
  | nil =>
    obtain rfl := List.forall₂_nil_left_iff.mp hm
    exact ⟨state, h⟩
  | cons e entries ih =>
    rw [List.flatMap_cons] at hm
    obtain ⟨as, bs, has, hbs, rfl⟩ := split_forall₂ hm
    obtain ⟨hw₁, hw₂⟩ := eachStep_runTrace_append.mp hw
    rw [List.foldl_append]
    cases hopen : files e.path with
    | none =>
      rw [sendEntry, hopen] at has
      obtain rfl := List.forall₂_nil_left_iff.mp has
      have hsame : sendable options files (e :: entries) = sendable options files entries := by
        simp [sendable, contentOf, hopen]
      rw [hsame]
      exact ih h hidle hbs hw₂
    | some file =>
      rw [sendEntry, hopen] at has
      obtain ⟨state', hidle', hfile⟩ := h.file hidle file.size_lt has hw₁
      obtain ⟨state'', hrest⟩ := ih hfile hidle' hbs hw₂
      refine ⟨state'', ?_⟩
      by_cases hsize : file.content.length ≤ options.maxFileSize
      · rw [if_pos hsize] at hrest
        simpa [sendable, contentOf, hopen, hsize] using hrest
      · rw [if_neg hsize] at hrest
        simpa [sendable, contentOf, hopen, hsize] using hrest

/-- A receiver that is switched off stores nothing. -/
private theorem stored_of_disabled (hoff : options.enabled = false) (ms : List DropMessage) {d : Drop}
    (hopt : d.receiver.options = options) (hstored : d.stored = []) : (ms.foldl step d).stored = [] := by
  induction ms generalizing d with
  | nil => exact hstored
  | cons m ms ih =>
    have hon : d.receiver.options.enabled = false := by rw [hopt, hoff]
    have hannounce : ∀ payload, (d.receiver.reset.announce payload).2 = d.receiver.reset := fun payload => by
      simp [announce, FileTransferReceiver.reset, hon]
    have hstep : (d.step m).receiver.options = options ∧ (d.step m).stored = [] := by
      cases m with
      | dragInfo body =>
        simp only [step, onDragInfo]
        split
        · exact ⟨hopt, rfl⟩
        · exact ⟨by rw [hannounce]; exact hopt, rfl⟩
        · exact ⟨hopt, rfl⟩
      | fileChunk disk body =>
        simp only [step, onFileChunk]
        split
        next => exact ⟨hopt, hstored⟩
        next =>
          simp only [onAssembled, hon, Bool.not_false, if_true]
          exact ⟨hopt, hstored⟩
    exact ih hstep.1 hstep.2

/-- What a delivered drag stores, name by content, are the placements, each at a path for
its name. -/
theorem stored_eq_placements {fs : FileSystem} {files : SourceFiles} {entries : List FileTransferEntry}
    (hnul : ∀ e ∈ entries, (0 : UInt8) ∉ e.name) (hcount : entries.length ≤ options.maxFileCount)
    {ms : List DropMessage} (hm : List.Forall₂ Delivers (send files entries).2 ms)
    (hw : EachStep (fun d m _ => d.Writable m) (start options fs) (runTrace step (start options fs) ms)) :
    let stored := (ms.foldl step (start options fs)).stored
    stored.map (fun f => (f.name, f.content)) = placements options files entries ∧
      ∀ f ∈ stored, f.path ∈ targetPaths options.dropDirectory f.name := by
  intro stored
  have hnone : placements options files entries = [] → stored = [] →
      stored.map (fun f => (f.name, f.content)) = placements options files entries ∧
        ∀ f ∈ stored, f.path ∈ targetPaths options.dropDirectory f.name := by
    intro hp hs
    simp [hp, hs]
  cases hon : options.enabled with
  | false =>
    refine hnone ?_ (stored_of_disabled hon ms rfl rfl)
    simp [placements, accepted, hon, Ledger.withinTotal]
  | true =>
    unfold send at hm
    split at hm
    next hempty =>
      obtain rfl := List.forall₂_nil_left_iff.mp hm
      obtain rfl := List.isEmpty_iff.mp hempty
      exact hnone (by simp [placements, sendable, Ledger.withinTotal]) rfl
    split at hm
    next hmany =>
      obtain rfl := List.forall₂_nil_left_iff.mp hm
      exact hnone (by simp [placements, accepted, not_le.mpr hmany, Ledger.withinTotal]) rfl
    next hlen =>
      obtain ⟨m, ms', hfirst, hrest, rfl⟩ := List.forall₂_cons_left_iff.mp hm
      have hbegin : Stands options (accepted options entries) {} [] {} ((start options fs).step m) :=
        stands_announced hnul hcount (not_lt.mp hlen) hon hfirst
      rw [List.flatMap_map] at hrest
      obtain ⟨state, hend⟩ := hbegin.entries rfl files hrest hw.2
      refine ⟨?_, hend.paths⟩
      have hpairs := hend.stored
      rw [Ledger.foldl_place] at hpairs
      exact hpairs

/-- The content is that of an announced entry with this name. -/
def OwnName (files : SourceFiles) (entries : List FileTransferEntry) (name content : Bytes) : Prop :=
  ∃ e ∈ entries, e.name = name ∧ contentOf files e = some content

/-- Files arrive under their own names exactly when the k-th content that can be completed
always belongs under the k-th name that is not refused. -/
theorem files_keep_names_iff (options : FileTransferOptions) (fs : FileSystem) (files : SourceFiles)
    (entries : List FileTransferEntry) (hnul : ∀ e ∈ entries, (0 : UInt8) ∉ e.name)
    (hcount : entries.length ≤ options.maxFileCount) (ms : List DropMessage)
    (hm : List.Forall₂ Delivers (send files entries).2 ms)
    (hw : EachStep (fun d m _ => d.Writable m) (start options fs) (runTrace step (start options fs) ms)) :
    (∀ f ∈ (ms.foldl step (start options fs)).stored, f.path ∈ targetPaths options.dropDirectory f.name ∧
      OwnName files entries f.name f.content) ↔
      ∀ p ∈ placements options files entries, OwnName files entries p.1 p.2 := by
  obtain ⟨hpairs, hpaths⟩ := stored_eq_placements hnul hcount hm hw
  rw [← hpairs]
  constructor
  · intro h p hp
    obtain ⟨f, hf, rfl⟩ := List.mem_map.mp hp
    exact (h f hf).2
  · intro h f hf
    exact ⟨hpaths f hf, h _ (List.mem_map_of_mem hf)⟩

/-- The emission delivered in one piece. -/
private def whole : Emission → DropMessage
  | .dragInfo fileCount names => .dragInfo [bytesOf (Emission.dragInfo fileCount names).fields]
  | .chunk mark payload => .fileChunk {} [bytesOf (Emission.chunk mark payload).fields]

private def encodes : Emission → Bool
  | .dragInfo fileCount names => fileCount < 2 ^ 16 && names.length < 2 ^ 32
  | .chunk _ _ => true

private theorem delivers_whole {es : List Emission} (h : es.all encodes = true) :
    List.Forall₂ Delivers es (es.map whole) := by
  rw [List.forall₂_map_right_iff, List.forall₂_same]
  intro e he
  cases e with
  | dragInfo fileCount names =>
    have hsmall := List.all_eq_true.mp h _ he
    simp only [encodes, Bool.and_eq_true, decide_eq_true_eq] at hsmall
    obtain ⟨hcount, hnames⟩ := hsmall
    exact .dragInfo _ _ _ _ hcount hnames ⟨by simp [bytesOf, Emission.fields, Field.bytes, bigEndian], by simp⟩
  | chunk mark payload =>
    exact .chunk _ _ _ _ ⟨by simp [bytesOf, Emission.fields, Field.bytes, bigEndian], by simp⟩

private def twoEntries : List FileTransferEntry := [⟨ascii "/a", ascii "a", 0⟩, ⟨ascii "/b", ascii "b", 0⟩]

private def bothOpen : SourceFiles := fun path =>
  if path = ascii "/a" then some ⟨ascii "x", by decide⟩
  else if path = ascii "/b" then some ⟨ascii "y", by decide⟩
  else none

private def secondOpens : SourceFiles := fun path =>
  if path = ascii "/b" then some ⟨ascii "y", by decide⟩ else none

theorem files_keep_names_both_open :
    let options : FileTransferOptions := { dropDirectory := ascii "/d" }
    let ms := (send bothOpen twoEntries).2.map whole
    ∀ f ∈ (ms.foldl step (start options fun _ => none)).stored, f.path ∈ targetPaths options.dropDirectory f.name ∧
      OwnName bothOpen twoEntries f.name f.content :=
  (files_keep_names_iff _ _ _ _ (by decide) (by decide) _ (delivers_whole (by decide)) (by decide)).mpr
    (by unfold OwnName; decide)

/-- Of the files a and b the first does not open: the content of b is stored as a. -/
theorem content_under_other_name :
    ¬ ∀ (options : FileTransferOptions) (fs : FileSystem) (files : SourceFiles) (entries : List FileTransferEntry),
      (∀ e ∈ entries, (0 : UInt8) ∉ e.name) → entries.length ≤ options.maxFileCount →
      ∀ ms, List.Forall₂ Delivers (send files entries).2 ms →
      EachStep (fun d m _ => d.Writable m) (start options fs) (runTrace step (start options fs) ms) →
      ∀ f ∈ (ms.foldl step (start options fs)).stored, f.path ∈ targetPaths options.dropDirectory f.name ∧
        OwnName files entries f.name f.content := by
  intro hall
  let options : FileTransferOptions := { dropDirectory := ascii "/d" }
  have hown := hall options (fun _ => none) secondOpens twoEntries (by decide) (by decide) _
    (delivers_whole (by decide)) (by decide)
  obtain ⟨-, e, he, hname, hcontent⟩ := hown ⟨ascii "a", ascii "/d/a", ascii "y"⟩ (by decide)
  have hnone : ∀ e ∈ twoEntries, e.name = ascii "a" → contentOf secondOpens e ≠ some (ascii "y") := by decide
  exact hnone e he hname hcontent

end Drop
end Synergy
