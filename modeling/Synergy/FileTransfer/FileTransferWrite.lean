import Synergy.FileTransfer.FileTransferReceiver

/-! What writing one received file can do: nothing but a new file, directly in the drop
directory, besides a staging file that comes and goes. -/
namespace Synergy
open Lib FileTransferReceiver

def NoSeparator (name : Bytes) : Prop := byte '/' ∉ name ∧ byte '\\' ∉ name

/-- The path is the directory and one more component without a separator. -/
def DirectlyIn (directory path : Bytes) : Prop :=
  ∃ name, name ≠ [] ∧ NoSeparator name ∧ path = joinPath directory name

theorem noSeparator_append {a b : Bytes} : NoSeparator (a ++ b) ↔ NoSeparator a ∧ NoSeparator b := by
  simp only [NoSeparator, List.mem_append, not_or]
  tauto

private theorem noSeparator_decimal (n : Nat) : NoSeparator (decimal n) := by
  have hdigit : ∀ b ∈ decimal n, ∃ c, isDigit 10 c = true ∧ b = byte c := by
    intro b hb
    obtain ⟨c, hc, rfl⟩ := List.mem_map.mp hb
    exact ⟨c, isDigit_of_mem_toDigits (by decide) (by decide) n c hc, rfl⟩
  have hrange : ∀ b ∈ decimal n, 48 ≤ b.toNat ∧ b.toNat ≤ 57 := by
    intro b hb
    obtain ⟨c, hc, rfl⟩ := hdigit b hb
    have hle := isDigit_ten hc
    rw [byte, UInt8.toNat_ofNat', Nat.mod_eq_of_lt (by omega)]
    exact hle
  exact ⟨fun h => absurd (hrange _ h) (by decide), fun h => absurd (hrange _ h) (by decide)⟩

private theorem splitStemAndExtension_append (name : Bytes) :
    (splitStemAndExtension name).1 ++ (splitStemAndExtension name).2 = name := by
  unfold splitStemAndExtension
  dsimp only
  split
  · simp
  · simp

private theorem joinPath_append (directory name suffix : Bytes) :
    joinPath directory name ++ suffix = joinPath directory (name ++ suffix) := by
  unfold joinPath
  split <;> simp

theorem DirectlyIn.append {directory path suffix : Bytes} (h : DirectlyIn directory path) (hs : NoSeparator suffix) :
    DirectlyIn directory (path ++ suffix) := by
  obtain ⟨name, hne, hname, rfl⟩ := h
  exact ⟨name ++ suffix, by simp [hne], noSeparator_append.mpr ⟨hname, hs⟩, joinPath_append directory name suffix⟩

/-- A path is offered for a safe name only if nothing is there, and it stays in the directory. -/
theorem uniqueTargetPath_free {disk : Disk} {fs : FileSystem} {directory safeName target : Bytes}
    (hname : NoSeparator safeName) (hne : safeName ≠ [])
    (h : uniqueTargetPath disk fs directory safeName = some target) :
    fs target = none ∧ DirectlyIn directory target := by
  have hfree := List.find?_some h
  simp only [Disk.pathIsFree, Bool.and_eq_true, Option.isNone_iff_eq_none] at hfree
  obtain ⟨name, hmem, rfl⟩ := List.mem_map.mp (List.mem_of_find?_eq_some h)
  refine ⟨hfree.1, ?_⟩
  rcases List.mem_cons.mp hmem with rfl | hmem
  · exact ⟨name, hne, hname, rfl⟩
  obtain ⟨n, -, rfl⟩ := List.mem_map.mp hmem
  rw [← splitStemAndExtension_append safeName, noSeparator_append] at hname
  have hopen : NoSeparator (ascii " (") := by unfold NoSeparator; decide
  have hclose : NoSeparator (ascii ")") := by unfold NoSeparator; decide
  refine ⟨_, ?_, ?_, rfl⟩
  · simp [ascii]
  · simp only [noSeparator_append]
    exact ⟨⟨⟨⟨hname.1, hopen⟩, noSeparator_decimal _⟩, hclose⟩, hname.2⟩

private theorem stagingPaths_suffix {target staging : Bytes} (h : staging ∈ stagingPaths target) :
    ∃ suffix, suffix ≠ [] ∧ NoSeparator suffix ∧ staging = target ++ suffix := by
  have hpart : NoSeparator (ascii ".part") := by unfold NoSeparator; decide
  have hdot : NoSeparator (ascii ".") := by unfold NoSeparator; decide
  rcases List.mem_cons.mp h with rfl | h
  · exact ⟨ascii ".part", by decide, hpart, rfl⟩
  · obtain ⟨n, -, rfl⟩ := List.mem_map.mp h
    refine ⟨ascii "." ++ decimal (n + 1) ++ ascii ".part", by simp [ascii], ?_, by simp⟩
    simp only [noSeparator_append]
    exact ⟨⟨hdot, noSeparator_decimal _⟩, hpart⟩

/-- A staging file is new, beside the target and not the target. -/
theorem openStaging_free {disk : Disk} {fs fs' : FileSystem} {directory target staging : Bytes}
    (htarget : DirectlyIn directory target) (h : openStaging disk fs target = some (staging, fs')) :
    fs staging = none ∧ fs' = Function.update fs staging (some []) ∧ staging ≠ target ∧
      DirectlyIn directory staging := by
  obtain ⟨path, hmem, hpath⟩ := List.exists_of_findSome?_eq_some h
  obtain ⟨opened, hopen, heq⟩ := Option.map_eq_some_iff.mp hpath
  obtain ⟨rfl, rfl⟩ := Prod.mk.inj heq
  obtain ⟨suffix, hne, hs, rfl⟩ := stagingPaths_suffix hmem
  unfold Disk.openExclusive at hopen
  split at hopen
  next =>
    obtain ⟨hfree, hfs⟩ := Files.create_eq_some hopen
    exact ⟨hfree, hfs, by simp [hne], htarget.append hs⟩
  next => simp at hopen

namespace Drop

/-- The ways in which a write can end: refused, with the files as they were, or with one
new file under the name and its counters moved on. -/
inductive Wrote (d : Drop) (name content : Bytes) (d' : Drop) : Prop
  | refused (created : List Bytes) (hc : ∀ path ∈ created, DirectlyIn d.receiver.options.dropDirectory path)
      (h : d' = { d with receiver := d.receiver.refuse 1, created := d.created ++ created })
  | stored (target staging : Bytes) (ht : DirectlyIn d.receiver.options.dropDirectory target)
      (hs : DirectlyIn d.receiver.options.dropDirectory staging) (hfree : d.files target = none)
      (hlimit : (d.receiver.totalWritten + content.length) % 2 ^ 64 ≤ d.receiver.options.maxTotalBytes)
      (h : d' = { d with
        files := Function.update d.files target (some content)
        created := d.created ++ [staging, target]
        stored := d.stored ++ [⟨name, target, content⟩]
        receiver := { d.receiver with
          totalWritten := (d.receiver.totalWritten + content.length) % 2 ^ 64
          writtenFiles := d.receiver.writtenFiles ++ [target] } })

private theorem update_remove {fs : FileSystem} {path : Bytes} (h : fs path = none) (content : Option Bytes) :
    Files.remove (Function.update fs path content) path = fs := by
  funext p
  by_cases hp : p = path
  · simp [Files.remove, hp, h]
  · simp [Files.remove, hp]

theorem publish_wrote {d : Drop} {disk : Disk} {name target content : Bytes}
    (ht : DirectlyIn d.receiver.options.dropDirectory target) (hfree : d.files target = none)
    (hlimit : (d.receiver.totalWritten + content.length) % 2 ^ 64 ≤ d.receiver.options.maxTotalBytes) :
    Wrote d name content (d.publish disk name target content) := by
  unfold publish
  split
  next => exact .refused [] (by simp) (by simp [refuse])
  next staging fs hopen =>
    obtain ⟨hnone, rfl, hne, hstaging⟩ := openStaging_free ht hopen
    dsimp only
    split
    · exact .refused [staging] (by simpa using hstaging) (by simp [refuse, update_remove hnone])
    split
    next => exact .refused [staging] (by simpa using hstaging) (by simp [refuse, update_remove hnone])
    next fs hpub =>
      refine .stored target staging ht hstaging hfree hlimit ?_
      have hfiles : fs = Function.update d.files target (some content) := by
        unfold Disk.publishStagedFile at hpub
        split at hpub
        next =>
          obtain ⟨-, rfl⟩ := Files.publish_eq_some hpub
          funext path
          by_cases hs : path = staging
          · simp [Files.remove, hs, hne, hnone]
          · by_cases htarget : path = target
            · subst htarget
              simp [Files.remove, hs]
            · simp [Files.remove, hs, htarget]
        next => simp at hpub
      simp [hfiles]

theorem store_wrote {d : Drop} {disk : Disk} {name content : Bytes} (hname : NoSeparator name) (hne : name ≠ []) :
    Wrote d name content (d.store disk name content) := by
  have hrefused : Wrote d name content d.refuse := .refused [] (by simp) (by simp [refuse])
  unfold store
  dsimp only
  split
  next => exact hrefused
  next hlimit =>
    split
    next => exact hrefused
    next =>
      split
      next => exact hrefused
      next target htarget =>
        obtain ⟨hfree, hin⟩ := uniqueTargetPath_free hname hne htarget
        split
        next => exact hrefused
        next => exact publish_wrote hin hfree (not_lt.mp hlimit)

theorem store_over_total {d : Drop} {disk : Disk} {name content : Bytes}
    (h : d.receiver.options.maxTotalBytes < (d.receiver.totalWritten + content.length) % 2 ^ 64) :
    d.store disk name content = d.refuse := by
  rw [store, if_pos h]

/-- The system lets a file be written under the name: a free path for it can be found,
staged, written and published. -/
def canStore (disk : Disk) (fs : FileSystem) (directory name : Bytes) : Bool :=
  disk.makesDirectory && disk.writes && (disk.links || disk.copies) &&
    match uniqueTargetPath disk fs directory name with
    | none => false
    | some target => disk.staysInside directory target && (openStaging disk fs target).isSome

/-- When the system lets it, a file within the total is stored at a path for its name. -/
theorem store_of_canStore {d : Drop} {disk : Disk} {name content : Bytes} (hname : NoSeparator name) (hne : name ≠ [])
    (hcan : canStore disk d.files d.receiver.options.dropDirectory name = true)
    (hlimit : (d.receiver.totalWritten + content.length) % 2 ^ 64 ≤ d.receiver.options.maxTotalBytes) :
    ∃ target files created, target ∈ targetPaths d.receiver.options.dropDirectory name ∧
      d.store disk name content = { d with
        files := files
        created := created
        stored := d.stored ++ [⟨name, target, content⟩]
        receiver := { d.receiver with
          totalWritten := (d.receiver.totalWritten + content.length) % 2 ^ 64
          writtenFiles := d.receiver.writtenFiles ++ [target] } } := by
  simp only [canStore, Bool.and_eq_true] at hcan
  obtain ⟨⟨⟨hmakes, hwrites⟩, hpublishes⟩, hcan⟩ := hcan
  cases htarget : uniqueTargetPath disk d.files d.receiver.options.dropDirectory name with
  | none => simp [htarget] at hcan
  | some target =>
  rw [htarget] at hcan
  simp only [Bool.and_eq_true, Option.isSome_iff_exists] at hcan
  obtain ⟨hinside, ⟨staging, fs⟩, hopen⟩ := hcan
  obtain ⟨hfree, hin⟩ := uniqueTargetPath_free hname hne htarget
  obtain ⟨-, rfl, hneq, -⟩ := openStaging_free hin hopen
  have hpub : ∃ fs', disk.publishStagedFile
      (Function.update (Function.update d.files staging (some [])) staging (some content)) staging target = some fs' := by
    rw [Disk.publishStagedFile, if_pos hpublishes, Files.publish, if_pos (by simp [hneq.symm, hfree])]
    exact ⟨_, rfl⟩
  obtain ⟨fs', hfs'⟩ := hpub
  refine ⟨target, fs', d.created ++ [staging] ++ [target], List.mem_of_find?_eq_some htarget, ?_⟩
  simp only [store, if_neg (not_lt.mpr hlimit), hmakes, htarget, hinside, publish, hopen, hwrites, hfs',
    Bool.not_true, Bool.false_eq_true, if_false]

end Drop
end Synergy
