import Mathlib.Algebra.BigOperators.Group.List.Basic
import Synergy.FileTransfer.FileTransferWrite
import Synergy.Lib.Trace
import Synergy.Protocol.ProtocolRoundTrip

/-! What a peer can do to the file system by any messages at all: add files to the drop
directory, no more of them and no larger than the limits allow. -/
namespace Synergy
open Lib FileTransferReceiver

/-- A message that reaches the receiver, with any bytes, and the answers of the system. -/
inductive DropMessage
  | dragInfo (body : IStream)
  | fileChunk (disk : Disk) (body : IStream)

namespace Drop

def step (d : Drop) : DropMessage → Drop
  | .dragInfo body => (d.onDragInfo body).2.1
  | .fileChunk disk body => (d.onFileChunk disk body).2.1

def start (options : FileTransferOptions) (files : FileSystem) : Drop :=
  { receiver := { options := options }, files := files }

/-- What holds whatever the peer sends: every path created is directly in the drop
directory and nothing else is new, the files of before are as they were, the files stored
since the last announce are within the announced names and the limits, and with no drop
directory or transfers off nothing is written. -/
structure Contained (options : FileTransferOptions) (files : FileSystem) (d : Drop) : Prop where
  placed : ∀ path ∈ d.created, DirectlyIn options.dropDirectory path
  nothingElse : ∀ path, files path = none → d.files path ≠ none → path ∈ d.created
  kept : Files.Keeps files d.files
  recorded : d.receiver.writtenFiles = d.stored.map StoredFile.path
  holds : ∀ f ∈ d.stored, d.files f.path = some f.content
  announced : d.stored.length ≤ d.receiver.acceptedNames.length
  count : d.receiver.acceptedNames.length ≤ options.maxFileCount
  each : ∀ f ∈ d.stored, f.content.length ≤ options.maxFileSize
  total : (d.stored.map fun f => f.content.length).sum ≤ options.maxTotalBytes
  off : options.dropDirectory = [] ∨ options.enabled = false → d.files = files ∧ d.created = [] ∧ d.stored = []

/-- The bookkeeping behind it. -/
structure Sound (options : FileTransferOptions) (files : FileSystem) (d : Drop) : Prop extends
    Contained options files d where
  sameOptions : d.receiver.options = options
  names : ∀ name ∈ d.receiver.acceptedNames, NoSeparator name ∧ name ≠ []
  next : d.stored.length ≤ d.receiver.nextName
  nextBound : d.receiver.nextName ≤ d.receiver.acceptedNames.length
  counted : d.receiver.totalWritten = (d.stored.map fun f => f.content.length).sum
  assembly : FileChunk.Bounded options.maxFileSize d.receiver.buffer d.receiver.state

variable {options : FileTransferOptions} {files : FileSystem} {d : Drop}

/-- Another buffer and assembly state within the bounds, or more refusals, change nothing else. -/
private theorem Sound.rebuffer (h : Sound options files d) {buffer : Bytes} {state : FileTransferAssemblyState}
    (hb : FileChunk.Bounded options.maxFileSize buffer state) (refused : Nat) :
    Sound options files
      { d with receiver := { d.receiver with buffer := buffer, state := state, refused := refused } } where
  placed := h.placed
  nothingElse := h.nothingElse
  kept := h.kept
  recorded := h.recorded
  holds := h.holds
  announced := h.announced
  count := h.count
  each := h.each
  total := h.total
  off := h.off
  sameOptions := h.sameOptions
  names := h.names
  next := h.next
  nextBound := h.nextBound
  counted := h.counted
  assembly := hb

private theorem Sound.reset (h : Sound options files d) :
    Sound options files { d with receiver := d.receiver.reset, stored := [] } where
  placed := h.placed
  nothingElse := h.nothingElse
  kept := h.kept
  recorded := rfl
  holds := by simp
  announced := Nat.zero_le _
  count := Nat.zero_le _
  each := by simp
  total := Nat.zero_le _
  off := fun hoff => ⟨(h.off hoff).1, (h.off hoff).2.1, rfl⟩
  sameOptions := h.sameOptions
  names := by simp [FileTransferReceiver.reset]
  next := Nat.zero_le _
  nextBound := Nat.zero_le _
  counted := rfl
  assembly := by simp [FileChunk.Bounded, FileTransferReceiver.reset]

/-- The names an announce leaves: safe ones, as many as the limit allows at most. -/
private theorem announce_names (r : FileTransferReceiver) (payload : Bytes) (h0 : r.acceptedNames = []) :
    ∃ refused names, (r.announce payload).2 = { r with acceptedNames := names, refused := refused } ∧
      names.length ≤ r.options.maxFileCount ∧ ∀ name ∈ names, NoSeparator name ∧ name ≠ [] := by
  have hnone : ∀ n, ∃ refused names, r.refuse n = { r with acceptedNames := names, refused := refused } ∧
      names.length ≤ r.options.maxFileCount ∧ ∀ name ∈ names, NoSeparator name ∧ name ≠ [] := fun n =>
    ⟨r.refused + n, [], by simp [FileTransferReceiver.refuse, ← h0], by simp, by simp⟩
  unfold announce
  split
  · exact hnone 0
  split
  · exact hnone 0
  dsimp only
  split
  · exact hnone 0
  split
  · exact hnone _
  next hcount =>
    refine ⟨_, ((FileTransferPath.splitNames payload).map FileTransferPath.sanitizeFileName).filter (!·.isEmpty),
      by simp [FileTransferReceiver.refuse, h0]; rfl, ?_, ?_⟩
    · have := List.length_filter_le (!·.isEmpty)
        ((FileTransferPath.splitNames payload).map FileTransferPath.sanitizeFileName)
      rw [List.length_map] at this
      omega
    · intro name hname
      obtain ⟨hmem, hne⟩ := List.mem_filter.mp hname
      obtain ⟨raw, -, rfl⟩ := List.mem_map.mp hmem
      have hne' : FileTransferPath.sanitizeFileName raw ≠ [] := by simpa using hne
      obtain ⟨hsame, hslash, hback, hraw⟩ := FileTransferPath.sanitizeFileName_safe hne'
      rw [hsame]
      exact ⟨⟨hslash, hback⟩, hraw⟩

private theorem Sound.announce (h : Sound options files d) (hnames : d.receiver.acceptedNames = [])
    (hstored : d.stored = []) (hnext : d.receiver.nextName = 0) (payload : Bytes) :
    Sound options files { d with receiver := (d.receiver.announce payload).2 } := by
  obtain ⟨refused, names, heq, hcount, hsafe⟩ := announce_names d.receiver payload hnames
  rw [heq]
  exact {
    placed := h.placed
    nothingElse := h.nothingElse
    kept := h.kept
    recorded := h.recorded
    holds := h.holds
    announced := by simp [hstored]
    count := by rw [← h.sameOptions]; exact hcount
    each := h.each
    total := h.total
    off := h.off
    sameOptions := h.sameOptions
    names := hsafe
    next := h.next
    nextBound := by simp [hnext]
    counted := h.counted
    assembly := h.assembly }

private theorem Sound.onDragInfo (h : Sound options files d) (body : IStream) :
    Sound options files (d.onDragInfo body).2.1 := by
  have hreset := h.reset
  unfold Drop.onDragInfo
  dsimp only
  split
  · exact hreset
  · exact hreset.announce rfl rfl rfl _
  · exact hreset

/-- One write keeps the bounds when a name was taken off the list for it. -/
private theorem Sound.wrote {d' : Drop} {name content : Bytes} (h : Sound options files d)
    (hlimits : options.maxTotalBytes + options.maxFileSize < 2 ^ 64)
    (hon : ¬(options.dropDirectory = [] ∨ options.enabled = false)) (hroom : d.stored.length < d.receiver.nextName)
    (hcontent : content.length ≤ options.maxFileSize) (hw : Wrote d name content d') : Sound options files d' := by
  cases hw with
  | refused created hc heq =>
    subst heq
    rw [h.sameOptions] at hc
    exact {
      placed := fun path hp => (List.mem_append.mp hp).elim (h.placed path) (hc path)
      nothingElse := fun path hnone hsome => List.mem_append_left _ (h.nothingElse path hnone hsome)
      kept := h.kept
      recorded := h.recorded
      holds := h.holds
      announced := h.announced
      count := h.count
      each := h.each
      total := h.total
      off := fun hoff => absurd hoff hon
      sameOptions := h.sameOptions
      names := h.names
      next := h.next
      nextBound := h.nextBound
      counted := h.counted
      assembly := h.assembly }
  | stored target staging ht hs hfree hlimit heq =>
    subst heq
    rw [h.sameOptions] at ht hs hlimit
    have htotal := h.total
    have hnext := h.nextBound
    -- the 64-bit sum does not wrap, so the check is one of the sizes themselves
    have hsum : (d.receiver.totalWritten + content.length) % 2 ^ 64 = d.receiver.totalWritten + content.length := by
      rw [h.counted]
      exact Nat.mod_eq_of_lt (by omega)
    rw [hsum, h.counted] at hlimit
    have hcount : (d.receiver.totalWritten + content.length) % 2 ^ 64 =
        ((d.stored ++ [(⟨name, target, content⟩ : StoredFile)]).map fun f => f.content.length).sum := by
      rw [hsum, h.counted]
      simp
    exact {
      placed := by
        intro path hp
        rcases List.mem_append.mp hp with hp | hp
        · exact h.placed path hp
        · rcases List.mem_pair.mp hp with rfl | rfl
          · exact hs
          · exact ht
      nothingElse := by
        intro path hnone hsome
        by_cases hp : path = target
        · exact List.mem_append_right _ (by simp [hp])
        · refine List.mem_append_left _ (h.nothingElse path hnone ?_)
          simpa [hp] using hsome
      kept := by
        intro path c hpath
        have hold := h.kept path c hpath
        have hp : path ≠ target := fun hp => by simp [hp, hfree] at hold
        simpa [hp] using hold
      recorded := by simp [h.recorded]
      holds := by
        intro f hf
        rcases List.mem_append.mp hf with hf | hf
        · have hold := h.holds f hf
          have hp : f.path ≠ target := fun hp => by simp [hp, hfree] at hold
          simpa [hp] using hold
        · simp [List.mem_singleton.mp hf]
      announced := by simp; omega
      count := h.count
      each := by
        intro f hf
        rcases List.mem_append.mp hf with hf | hf
        · exact h.each f hf
        · rw [List.mem_singleton.mp hf]
          exact hcontent
      total := by
        rw [← hcount, hsum, h.counted]
        exact hlimit
      off := fun hoff => absurd hoff hon
      sameOptions := h.sameOptions
      names := h.names
      next := by simp; omega
      nextBound := hnext
      counted := hcount
      assembly := h.assembly }

private theorem Sound.writeCurrentFile (h : Sound options files d)
    (hlimits : options.maxTotalBytes + options.maxFileSize < 2 ^ 64) (hon : options.enabled = true)
    (hcontent : d.receiver.buffer.length ≤ options.maxFileSize) (disk : Disk) :
    Sound options files (d.writeCurrentFile disk) := by
  have hempty : FileChunk.Bounded options.maxFileSize [] d.receiver.state := fun hactive =>
    ⟨(h.assembly hactive).1, Nat.zero_le _⟩
  have hbase := h.rebuffer hempty d.receiver.refused
  unfold Drop.writeCurrentFile
  dsimp only
  split
  · exact h.rebuffer hempty (d.receiver.refused + 1)
  next hdir =>
    split
    · exact h.rebuffer hempty (d.receiver.refused + 1)
    next safeName hname =>
      obtain ⟨hlt, hget⟩ := List.getElem?_eq_some_iff.mp hname
      have hsafe := h.names safeName (hget ▸ List.getElem_mem hlt)
      have hdir' : options.dropDirectory ≠ [] := by
        rw [← h.sameOptions]
        simpa using hdir
      have htaken : Sound options files
          { d with receiver := { d.receiver with buffer := [], nextName := d.receiver.nextName + 1 } } := by
        exact { hbase with
          next := Nat.le_succ_of_le h.next
          nextBound := hlt }
      exact htaken.wrote hlimits (by simp [hdir', hon]) (Nat.lt_succ_of_le h.next) hcontent
        (store_wrote hsafe.1 hsafe.2)

private theorem Sound.onAssembled (h : Sound options files d)
    (hlimits : options.maxTotalBytes + options.maxFileSize < 2 ^ 64) (disk : Disk) {r : FileChunk.Assembled}
    (hr : FileChunk.Bounded options.maxFileSize r.dataCached r.state)
    (hfinished : r.transfer = .finished → r.dataCached.length ≤ options.maxFileSize) :
    Sound options files (d.onAssembled disk r).2 := by
  have hempty : FileChunk.Bounded options.maxFileSize [] r.state := fun hactive =>
    ⟨(hr hactive).1, Nat.zero_le _⟩
  have hkept := h.rebuffer hr d.receiver.refused
  unfold Drop.onAssembled
  dsimp only
  split
  · exact h.rebuffer hempty d.receiver.refused
  next hon =>
    rw [h.sameOptions] at hon
    cases htransfer : r.transfer with
    | started => exact hkept
    | inProgress => exact hkept
    | finished => exact hkept.writeCurrentFile hlimits (by simpa using hon) (hfinished htransfer) disk
    | error => exact h.rebuffer hempty (d.receiver.refused + 1)

private theorem Sound.onFileChunk (h : Sound options files d)
    (hlimits : options.maxTotalBytes + options.maxFileSize < 2 ^ 64) (disk : Disk) (body : IStream) :
    Sound options files (d.onFileChunk disk body).2.1 := by
  unfold Drop.onFileChunk
  split
  next => exact h
  next r s hassemble =>
    obtain ⟨hr, hfinished⟩ := FileChunk.assemble_bounded h.assembly (h.sameOptions ▸ hassemble)
    exact h.onAssembled hlimits disk hr hfinished

theorem Sound.step (h : Sound options files d) (hlimits : options.maxTotalBytes + options.maxFileSize < 2 ^ 64)
    (m : DropMessage) : Sound options files (d.step m) := by
  cases m with
  | dragInfo body => exact h.onDragInfo body
  | fileChunk disk body => exact h.onFileChunk hlimits disk body

/-- The limits that the client sets cannot make the 64-bit sums wrap. -/
theorem receiverOptions_limits (config : FileTransferSettings) :
    config.receiverOptions.maxTotalBytes + config.receiverOptions.maxFileSize < 2 ^ 64 := by
  have hmin : min config.maxFileSizeMb (64 * 1024) ≤ 64 * 1024 := Nat.min_le_right _ _
  have hsize : config.receiverOptions.maxFileSize ≤ 64 * 1024 * 1024 * 1024 := by
    simp only [FileTransferSettings.receiverOptions, bytesFromMegabyteSetting]
    split_ifs <;> omega
  have htotal : config.receiverOptions.maxTotalBytes = 256 * 1024 * 1024 := rfl
  omega

end Drop
end Synergy
