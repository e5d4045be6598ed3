import Synergy.FileTransfer.FileTransferNames

/-! The way out of a selection of files: which are kept, what is emitted for them and
what a client's proxy writes of it. -/
namespace Synergy
open Lib ProtocolUtil

/-- What the system knows of a file before it is opened. A name has no NUL and no more
bytes than a file system takes. -/
structure FileInfo where
  isFile : Bool := true
  isReadable : Bool := true
  size : Nat := 0
  fileName : Bytes
  noNul : (0 : UInt8) ∉ fileName
  short : fileName.length ≤ 255

/-- The files that exist, by path. -/
abbrev FileInfos := Bytes → Option FileInfo

namespace FileTransferSource

inductive Status
  | ok
  | notFound
  | notRegularFile
  | notReadable
  | tooLarge
  deriving DecidableEq, Repr

def inspect (infos : FileInfos) (path : Bytes) (maxFileSize : Nat) (out : FileTransferEntry) :
    Status × FileTransferEntry :=
  match infos path with
  | none => (.notFound, out)
  | some info =>
    if !info.isFile then (.notRegularFile, out)
    else if !info.isReadable then (.notReadable, out)
    else if maxFileSize < info.size then (.tooLarge, out)
    else (.ok, ⟨path, info.fileName, info.size⟩)

/-- The entries that can be sent, and the paths that cannot with the reason. -/
def inspectAll (infos : FileInfos) (maxFileSize : Nat) : List Bytes → List FileTransferEntry × List (Bytes × Status)
  | [] => ([], [])
  | path :: paths =>
    let (status, entry) := inspect infos path maxFileSize ⟨[], [], 0⟩
    let (entries, rejected) := inspectAll infos maxFileSize paths
    if status = .ok then (entry :: entries, rejected) else (entries, (path, status) :: rejected)

end FileTransferSource

namespace FileTransferOutbound
open FileTransferSource

structure Options where
  enabled : Bool := true
  maxFileSize : Nat := 64 * 1024 * 1024
  maxFileCount : Nat := 32
  deriving DecidableEq, Repr

/-- The entries of a selection that are kept: those that can be sent, up to the largest number. -/
def kept (options : Options) (infos : FileInfos) (paths : List Bytes) : List FileTransferEntry :=
  let entries := (inspectAll infos options.maxFileSize paths).1
  if options.maxFileCount < entries.length then entries.take options.maxFileCount else entries

def sendPaths (options : Options) (infos : FileInfos) (files : SourceFiles) (paths : List Bytes) : Nat × List Emission :=
  if !options.enabled then (0, [])
  else if paths.isEmpty then (0, [])
  else if (inspectAll infos options.maxFileSize paths).1.isEmpty then (0, [])
  else FileTransferSender.send files (kept options infos paths)

end FileTransferOutbound

namespace FileChunk

def start (fileSize : Nat) : UInt8 × Bytes := (ChunkType.dataStart, decimal fileSize)
def data (bytes : Bytes) : UInt8 × Bytes := (ChunkType.dataChunk, bytes)
def finish : UInt8 × Bytes := (ChunkType.dataEnd, [])

/-- What is written for a chunk; nothing for a payload that no receiver would read. -/
def send (chunk : UInt8 × Bytes) : Option (Except String Bytes) :=
  if chunkSize < chunk.2.length then none
  else some (writef kMsgDFileTransfer [.int chunk.1.toNat, .string chunk.2])

end FileChunk

namespace ClientProxy1_5

/-- The number that a payload is the decimal digits of. -/
def parseDeclaredSize (payload : Bytes) : Option Nat :=
  let digits := payload.map fun b => Char.ofNat b.toNat
  if digits.isEmpty || !digits.all (isDigit 10) then none
  else if numeral 10 digits < 2 ^ 64 then some (numeral 10 digits) else none

/-- The count that is written is that of the names in the payload. -/
def sendDragInfo (fileCount : Nat) (names : Bytes) : Except String Bytes :=
  let actual := (FileTransferPath.splitNames names).length
  let fileCount := if fileCount ≠ actual then actual % 2 ^ 32 else fileCount
  writef kMsgDDragInfo [.int fileCount, .string names]

def fileChunkSending (mark : UInt8) (payload : Bytes) : Option (Except String Bytes) :=
  if mark = ChunkType.dataStart then
    match parseDeclaredSize payload with
    | none => none
    | some declaredSize => FileChunk.send (FileChunk.start declaredSize)
  else if mark = ChunkType.dataChunk then FileChunk.send (FileChunk.data payload)
  else if mark = ChunkType.dataEnd then FileChunk.send FileChunk.finish
  else none

end ClientProxy1_5

/-- What the proxy writes of an emission; nothing when it refuses. -/
def Emission.written : Emission → Option (Except String Bytes)
  | .dragInfo fileCount names => some (ClientProxy1_5.sendDragInfo fileCount names)
  | .chunk mark payload => ClientProxy1_5.fileChunkSending mark payload

end Synergy

/-! Which selections of files give messages that their receiver can read. The pieces of a
file are cut to what a string may hold; the announce is one string however many names
there are. -/
namespace Synergy
open Lib ProtocolUtil FileTransferSource FileTransferSender FileTransferOutbound

/-- A receiver that has read the code of the message reads the rest of it, with no string
that is too long and, in an announce, a count that is that of the names. -/
def Emission.Readable : Emission → Bytes → Prop
  | .dragInfo _ _, message =>
    message.take 4 = kMsgDDragInfo.take 4 ∧ ∀ body : IStream, body.Holds (message.drop 4) →
      ∃ count names rest, readf (kMsgDDragInfo.drop 4) [.int 0, .string []] body =
          (.ok (some [.int count, .string names]), rest) ∧
        names.length ≤ protocolMaxStringLength ∧ count = (FileTransferPath.splitNames names).length
  | .chunk _ _, message =>
    message.take 4 = kMsgDFileTransfer.take 4 ∧ ∀ body : IStream, body.Holds (message.drop 4) →
      ∃ mark payload rest, readf (kMsgDFileTransfer.drop 4) [.int 0, .string []] body =
          (.ok (some [.int mark, .string payload]), rest) ∧
        payload.length ≤ protocolMaxStringLength

/-- The emission is written as a message, and the message can be read. -/
def Emission.Arrives (e : Emission) : Prop := ∃ message, e.written = some (.ok message) ∧ e.Readable message

private theorem fields_encodable {width value : Nat} {text : Bytes} (hw : Field.ValidWidth width)
    (hvalue : value < 256 ^ width) (htext : text.length < 2 ^ 32) :
    ∀ f ∈ [Field.int width value, .string text], f.Encodable := by
  intro f hf
  rcases List.mem_pair.mp hf with rfl | rfl
  · exact ⟨hw, hvalue⟩
  · exact htext

private theorem length_fields {width value : Nat} {text : Bytes} :
    (bytesOf [Field.int width value, .string text]).length = width + 4 + text.length := by
  simp [bytesOf, Field.bytes, length_bigEndian, Nat.add_assoc]

private theorem writef_dragInfo {count : Nat} {names : Bytes} (hcount : count < 2 ^ 16)
    (hnames : names.length + 10 < 2 ^ 32) :
    writef kMsgDDragInfo [.int count, .string names] =
      .ok (kMsgDDragInfo.take 4 ++ bytesOf (Emission.dragInfo count names).fields) := by
  have hcode : ∀ c ∈ kMsgDDragInfo.take 4, c ≠ 0 ∧ c ≠ byte '%' := by decide +kernel
  have hlen : (kMsgDDragInfo.take 4).length = 4 := by decide
  refine writef_code hcode (fields_encodable (.inr (.inl rfl)) (by omega) (by omega)) ?_
  rw [hlen, length_fields]
  omega

theorem writef_chunk {mark : UInt8} {payload : Bytes} (hpayload : payload.length ≤ FileChunk.chunkSize) :
    writef kMsgDFileTransfer [.int mark.toNat, .string payload] =
      .ok (kMsgDFileTransfer.take 4 ++ bytesOf (Emission.chunk mark payload).fields) := by
  have hcode : ∀ c ∈ kMsgDFileTransfer.take 4, c ≠ 0 ∧ c ≠ byte '%' := by decide +kernel
  have hlen : (kMsgDFileTransfer.take 4).length = 4 := by decide
  have hlimit : FileChunk.chunkSize = 65536 := by decide
  refine writef_code hcode (fields_encodable (.inl rfl) mark.toNat_lt (by omega)) ?_
  rw [hlen, length_fields]
  omega

private theorem code_append (fmt : Bytes) (h : (fmt.take 4).length = 4) (rest : Bytes) :
    (fmt.take 4 ++ rest).take 4 = fmt.take 4 ∧ (fmt.take 4 ++ rest).drop 4 = rest :=
  ⟨List.take_left' h, List.drop_left' h⟩

/-- A chunk of a size that is sent is read as it was. -/
private theorem arrives_chunk (mark : UInt8) (payload : Bytes) {mark' : UInt8} {payload' : Bytes}
    (hwritten : (Emission.chunk mark' payload').written = FileChunk.send (mark, payload))
    (hpayload : payload.length ≤ FileChunk.chunkSize) : (Emission.chunk mark' payload').Arrives := by
  have hvalid : ∀ f ∈ (Emission.chunk mark payload).fields, f.Valid := by
    intro f hf
    rcases List.mem_pair.mp hf with rfl | rfl
    · exact ⟨.inl rfl, mark.toNat_lt⟩
    · exact hpayload
  obtain ⟨htake, hdrop⟩ := code_append kMsgDFileTransfer (by decide)
    (bytesOf (Emission.chunk mark payload).fields)
  refine ⟨kMsgDFileTransfer.take 4 ++ bytesOf (Emission.chunk mark payload).fields, ?_, htake, ?_⟩
  · rw [hwritten, FileChunk.send, if_neg (not_lt.mpr hpayload), writef_chunk hpayload]
  · intro body hbody
    rw [hdrop] at hbody
    obtain ⟨rest, hread, -⟩ := reads_readf hvalid body [] (by simpa using hbody)
    exact ⟨mark.toNat, payload, rest, hread, hpayload⟩

private theorem parseDeclaredSize_decimal {size : Nat} (h : size < 2 ^ 64) :
    ClientProxy1_5.parseDeclaredSize (decimal size) = some size := by
  have hdigits := isDigit_of_mem_toDigits (b := 10) (by decide) (by decide) size
  have hempty : (Nat.toDigits 10 size).isEmpty = false := by
    rw [List.isEmpty_eq_false_iff, ← List.length_pos_iff]
    exact Nat.length_toDigits_pos
  have hall : (Nat.toDigits 10 size).all (isDigit 10) = true := List.all_eq_true.mpr hdigits
  have hnumeral : numeral 10 (Nat.toDigits 10 size) = size := numeral_toDigits (by decide) (by decide) size
  simp only [ClientProxy1_5.parseDeclaredSize, decimal, chars_of_digits, hempty, hall, hnumeral,
    Bool.not_true, Bool.or_self, Bool.false_eq_true, if_false, if_pos h]

/-- Everything emitted for an open file arrives, whatever is in it. -/
private theorem fileEmissions_arrive {content : Bytes} (h : content.length < 2 ^ 63) :
    ∀ e ∈ fileEmissions content, e.Arrives := by
  have hlt : content.length < 2 ^ 64 := h.trans (by decide)
  intro e he
  rcases List.mem_cons.mp he with rfl | he
  · refine arrives_chunk ChunkType.dataStart (decimal content.length) ?_ (length_digits hlt)
    simp only [Emission.written, ClientProxy1_5.fileChunkSending, if_true, parseDeclaredSize_decimal hlt,
      FileChunk.start]
  rcases List.mem_append.mp he with he | he
  · obtain ⟨piece, hpiece, rfl⟩ := List.mem_map.mp he
    exact arrives_chunk _ piece rfl ((readChunks_spec (Nat.lt_succ_self content.length)).2 piece hpiece)
  · obtain rfl := List.mem_singleton.mp he
    exact arrives_chunk _ [] rfl (Nat.zero_le _)

private theorem sendEntry_arrive (files : SourceFiles) (entry : FileTransferEntry) :
    ∀ e ∈ (sendEntry files entry).2, e.Arrives := by
  unfold sendEntry
  cases files entry.path with
  | none => simp
  | some file => exact fileEmissions_arrive file.size_lt

/-- The number of names is that of the entries that have one. -/
private theorem length_splitNames {entries : List FileTransferEntry} (hnul : ∀ e ∈ entries, (0 : UInt8) ∉ e.name) :
    (FileTransferPath.splitNames (dragInfoPayload entries)).length ≤ entries.length := by
  have hsplit : FileTransferPath.splitNames (dragInfoPayload entries) =
      (entries.map FileTransferEntry.name).filter (!·.isEmpty) := by
    refine FileTransferPath.splitNames_joinNames fun name hname => ?_
    obtain ⟨e, he, rfl⟩ := List.mem_map.mp hname
    exact hnul e he
  rw [hsplit]
  refine (List.length_filter_le _ _).trans ?_
  rw [List.length_map]

private theorem length_dragInfoPayload (entries : List FileTransferEntry) :
    (dragInfoPayload entries).length = (entries.map fun e => e.name.length + 1).sum := by
  simp [dragInfoPayload, FileTransferPath.joinNames, List.flatMap_map, List.length_flatMap]

/-- An announce arrives if and only if it is no longer than a string may be. -/
private theorem arrives_dragInfo {entries : List FileTransferEntry} (hnul : ∀ e ∈ entries, (0 : UInt8) ∉ e.name)
    (hshort : ∀ e ∈ entries, e.name.length ≤ 255) (hlen : entries.length ≤ 0xFFFF) :
    (Emission.dragInfo entries.length (dragInfoPayload entries)).Arrives ↔
      (dragInfoPayload entries).length ≤ protocolMaxStringLength := by
  have hcount := length_splitNames hnul
  have hbound : (dragInfoPayload entries).length ≤ entries.length * 256 := by
    rw [length_dragInfoPayload]
    refine (List.sum_le_card_nsmul _ 256 ?_).trans_eq ?_
    · intro n hn
      obtain ⟨e, he, rfl⟩ := List.mem_map.mp hn
      exact Nat.succ_le_succ (hshort e he)
    · rw [List.length_map, nsmul_eq_mul]
      rfl
  generalize hnames : dragInfoPayload entries = names at hcount hbound ⊢
  have hfield : (if entries.length ≠ (FileTransferPath.splitNames names).length then
      (FileTransferPath.splitNames names).length % 2 ^ 32 else entries.length) =
        (FileTransferPath.splitNames names).length := by
    split
    · exact Nat.mod_eq_of_lt (by omega)
    next h => exact not_not.mp h
  have hwritten : (Emission.dragInfo entries.length names).written = some (.ok (kMsgDDragInfo.take 4 ++
      bytesOf (Emission.dragInfo (FileTransferPath.splitNames names).length names).fields)) := by
    rw [Emission.written, ClientProxy1_5.sendDragInfo, hfield, writef_dragInfo (by omega) (by omega)]
  obtain ⟨htake, hdrop⟩ := code_append kMsgDDragInfo (by decide)
    (bytesOf (Emission.dragInfo (FileTransferPath.splitNames names).length names).fields)
  have hbody : ∃ body : IStream,
      body.Holds (bytesOf (Emission.dragInfo (FileTransferPath.splitNames names).length names).fields) := by
    refine ⟨[_], fun piece hpiece => ?_, List.flatten_singleton⟩
    rw [List.mem_singleton.mp hpiece, Emission.fields, ← List.length_pos_iff, length_fields]
    omega
  constructor
  · rintro ⟨message, hmessage, -, hread⟩
    obtain rfl := Except.ok.inj (Option.some.inj (hwritten.symm.trans hmessage))
    by_contra hlong
    obtain ⟨body, hholds⟩ := hbody
    obtain ⟨_, _, _, hok, -⟩ := hread body (hdrop.symm ▸ hholds)
    obtain ⟨_, _, hfail⟩ := Drop.readf_long_names (by omega) (by omega) (not_le.mp hlong) hholds
    rw [hfail] at hok
    cases hok
  · intro hle
    have hvalid : ∀ f ∈ (Emission.dragInfo (FileTransferPath.splitNames names).length names).fields, f.Valid := by
      intro f hf
      rcases List.mem_pair.mp hf with rfl | rfl
      · exact ⟨.inr (.inl rfl), by omega⟩
      · exact hle
    refine ⟨_, hwritten, htake, ?_⟩
    intro body hbody
    rw [hdrop] at hbody
    obtain ⟨rest, hread, -⟩ := reads_readf hvalid body [] (by simpa using hbody)
    exact ⟨_, names, rest, hread, hle, rfl⟩

private theorem inspectAll_names (infos : FileInfos) (maxFileSize : Nat) (paths : List Bytes) :
    ∀ e ∈ (inspectAll infos maxFileSize paths).1, (0 : UInt8) ∉ e.name ∧ e.name.length ≤ 255 := by
  induction paths with
  | nil => simp [inspectAll]
  | cons path paths ih =>
    have hinspect : (inspect infos path maxFileSize ⟨[], [], 0⟩).1 = .ok →
        ∃ info, (inspect infos path maxFileSize ⟨[], [], 0⟩).2.name = FileInfo.fileName info := by
      unfold inspect
      cases infos path with
      | none => simp
      | some info =>
        simp only
        split_ifs <;> simp
    rw [inspectAll]
    intro e he
    by_cases hok : (inspect infos path maxFileSize ⟨[], [], 0⟩).1 = .ok
    · simp only [if_pos hok] at he
      rcases List.mem_cons.mp he with rfl | he
      · obtain ⟨info, hname⟩ := hinspect hok
        rw [hname]
        exact ⟨info.noNul, info.short⟩
      · exact ih e he
    · simp only [if_neg hok] at he
      exact ih e he

private theorem kept_subset (options : Options) (infos : FileInfos) (paths : List Bytes) :
    kept options infos paths ⊆ (inspectAll infos options.maxFileSize paths).1 := by
  unfold kept
  simp only
  split
  · exact List.take_subset _ _
  · exact List.Subset.refl _

/-- What is sent for a selection of files arrives if and only if its announce does. -/
private theorem send_arrives (files : SourceFiles) {entries : List FileTransferEntry}
    (hnul : ∀ e ∈ entries, (0 : UInt8) ∉ e.name) (hshort : ∀ e ∈ entries, e.name.length ≤ 255) :
    (∀ e ∈ (send files entries).2, e.Arrives) ↔
      0xFFFF < entries.length ∨ (entries.map fun e => e.name.length + 1).sum ≤ protocolMaxStringLength := by
  rw [← length_dragInfoPayload]
  unfold send
  by_cases hempty : entries.isEmpty
  · rw [if_pos hempty, List.isEmpty_iff.mp hempty]
    exact iff_of_true (by simp) (.inr (Nat.zero_le _))
  rw [if_neg hempty]
  by_cases hmany : 0xFFFF < entries.length
  · rw [if_pos hmany]
    exact iff_of_true (by simp) (.inl hmany)
  rw [if_neg hmany, or_iff_right hmany, ← arrives_dragInfo hnul hshort (not_lt.mp hmany)]
  constructor
  · exact fun h => h _ List.mem_cons_self
  · intro h e he
    rcases List.mem_cons.mp he with rfl | he
    · exact h
    · obtain ⟨sent, hsent, he⟩ := List.mem_flatMap.mp he
      obtain ⟨entry, -, rfl⟩ := List.mem_map.mp hsent
      exact sendEntry_arrive files entry e he

/-- Every message for a selection can be read by its receiver if and only if sending is off,
the files are too many to be announced, or the names of those that are kept, each with its
NUL, are no longer than one string may be. -/
theorem sendPaths_readable_iff (options : Options) (infos : FileInfos) (files : SourceFiles) (paths : List Bytes) :
    (∀ e ∈ (sendPaths options infos files paths).2, e.Arrives) ↔
      options.enabled = false ∨ 0xFFFF < (kept options infos paths).length ∨
        ((kept options infos paths).map fun e => e.name.length + 1).sum ≤ protocolMaxStringLength := by
  have hnames : ∀ e ∈ kept options infos paths, (0 : UInt8) ∉ e.name ∧ e.name.length ≤ 255 :=
    fun e he => inspectAll_names infos options.maxFileSize paths e (kept_subset options infos paths he)
  have hnone : (inspectAll infos options.maxFileSize paths).1 = [] → kept options infos paths = [] := by
    intro h
    have hsub := kept_subset options infos paths
    rw [h] at hsub
    exact List.subset_nil.mp hsub
  unfold sendPaths
  by_cases hon : options.enabled
  · have hoff : ¬ options.enabled = false := by simp [hon]
    rw [or_iff_right hoff, ← send_arrives files (fun e he => (hnames e he).1) fun e he => (hnames e he).2]
    by_cases hpaths : paths = []
    · have hnil := hnone (by rw [hpaths, inspectAll])
      simp [hon, hpaths, hpaths ▸ hnil, send]
    · by_cases hentries : (inspectAll infos options.maxFileSize paths).1 = []
      · simp [hon, hentries, hnone hentries, send]
      · simp [hon, hpaths, hentries]
  · simp [hon]

/-- A name of the greatest length. -/
def longestName : FileInfo where
  fileName := List.replicate 255 (byte 'a')
  noNul := fun h => absurd (List.eq_of_mem_replicate h) (by decide)
  short := List.length_replicate.le

private theorem inspectAll_longest (maxFileSize n : Nat) (path : Bytes) :
    (inspectAll (fun _ => some longestName) maxFileSize (List.replicate n path)).1 =
      List.replicate n ⟨path, longestName.fileName, 0⟩ := by
  induction n with
  | zero => rfl
  | succ n ih =>
    have hok : inspect (fun _ => some longestName) path maxFileSize ⟨[], [], 0⟩ =
        (.ok, ⟨path, longestName.fileName, 0⟩) :=
      if_neg (t := (Status.tooLarge, ⟨[], [], 0⟩)) (Nat.not_lt_zero maxFileSize)
    rw [List.replicate_succ, List.replicate_succ, inspectAll, hok, ← ih]
    rfl

/-- Three hundred files whose names have 255 bytes, with a limit of a thousand files: the
announce is longer than a string may be. -/
theorem sendPaths_not_readable :
    ¬ ∀ (options : Options) (infos : FileInfos) (files : SourceFiles) (paths : List Bytes),
      ∀ e ∈ (sendPaths options infos files paths).2, e.Arrives := by
  intro h
  obtain ⟨n, hn⟩ : ∃ n, n + 1 = 300 := ⟨299, rfl⟩
  have hall := h { maxFileCount := 1000 } (fun _ => some longestName) (fun _ => none) (List.replicate (n + 1) [])
  have hkept : kept { maxFileCount := 1000 } (fun _ => some longestName) (List.replicate (n + 1) []) =
      List.replicate (n + 1) ⟨[], longestName.fileName, 0⟩ := by
    rw [kept, inspectAll_longest, List.length_replicate, if_neg (by rw [hn]; decide)]
  have hsend : sendPaths { maxFileCount := 1000 } (fun _ => some longestName) (fun _ => none)
      (List.replicate (n + 1) []) = send (fun _ => none) (List.replicate (n + 1) ⟨[], longestName.fileName, 0⟩) := by
    rw [sendPaths, if_neg (by decide), if_neg (by simp), inspectAll_longest, if_neg (by simp), hkept]
  have hname : ∀ e ∈ List.replicate (n + 1) (⟨[], longestName.fileName, 0⟩ : FileTransferEntry),
      e.name = longestName.fileName :=
    fun e he => congrArg FileTransferEntry.name (List.eq_of_mem_replicate he)
  rw [hsend] at hall
  have hfits := (send_arrives _ (fun e he => (hname e he).symm ▸ longestName.noNul)
    fun e he => (hname e he).symm ▸ longestName.short).mp hall
  rw [List.length_replicate, List.map_replicate, List.sum_replicate, longestName, List.length_replicate, hn] at hfits
  revert hfits
  decide

end Synergy
