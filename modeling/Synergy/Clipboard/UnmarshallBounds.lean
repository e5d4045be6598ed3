import Synergy.Clipboard.Clipboard

/-! Where unmarshalling reads, and what it adds. -/
namespace Synergy
open Lib
namespace Clipboard

/-- The 32-bit number at an offset. -/
def wordAt (data : Bytes) (offset : Nat) : Nat := readUInt32 (data.drop offset)

private theorem readUInt32_drop (data : Bytes) (offset : Nat) : readUInt32 (data.drop offset) = wordAt data offset := rfl

theorem wordAt_lt (data : Bytes) (offset : Nat) : wordAt data offset < 2 ^ 32 := by
  have hlt := ofBigEndian_lt ((data.drop offset).take 4)
  have hlen : ((data.drop offset).take 4).length ≤ 4 := List.length_take_le _ _
  exact hlt.trans_le ((Nat.pow_le_pow_right (by decide) hlen).trans (by decide))

/-- A read of `unmarshall`: a number, or the data that it adds under a format. -/
inductive Access
  | word (offset : Nat)
  | payload (format : Int) (offset size : Nat)
  deriving DecidableEq, Repr

namespace Access

def Within (data : Bytes) : Access → Prop
  | word offset => offset + 4 ≤ data.length
  | payload _ offset size => offset + size ≤ data.length

def added (data : Bytes) : Access → Option (Int × Bytes)
  | word _ => none
  | payload format offset size => some (format, (data.drop offset).take size)

end Access

/-- The reads of the loop over the formats, with the cursor at `index`. -/
def scanFormats (data : Bytes) : Nat → Nat → List Access
  | 0, _ => []
  | n + 1, index =>
    if (data.length : Int) - index < 8 then []
    else
      let format := formatOf (wordAt data index)
      let size := wordAt data (index + 4)
      .word index :: .word (index + 4) ::
        if ((data.length : Int) - (index + 8 : Nat)) % 2 ^ 32 < size then []
        else (if format < 3 then [.payload format (index + 8) size] else []) ++ scanFormats data n (index + 8 + size)

def accesses (data : Bytes) : List Access :=
  if (data.length : Int) < 4 then [] else .word 0 :: scanFormats data (wordAt data 0) 4

/-- An entry of the marshalled form: where it is, its format number and its size. -/
structure Entry where
  offset : Nat
  format : Nat
  size : Nat
  deriving DecidableEq, Repr

/-- The entries from an offset on, up to the first that is not all there. -/
def wholeEntries (data : Bytes) : Nat → Nat → List Entry
  | 0, _ => []
  | n + 1, offset =>
    let size := wordAt data (offset + 4)
    if offset + 8 ≤ data.length ∧ size ≤ (data.length - (offset + 8)) % 2 ^ 32 then
      ⟨offset, wordAt data offset, size⟩ :: wholeEntries data n (offset + 8 + size)
    else []

/-- The whole entries of the data, as many as it says at most. -/
def marshalledEntries (data : Bytes) : List Entry :=
  if data.length < 4 then [] else wholeEntries data (wordAt data 0) 4

private theorem scanFormats_succ (data : Bytes) (n index : Nat) : scanFormats data (n + 1) index =
    if data.length < index + 8 then []
    else .word index :: .word (index + 4) ::
      if (data.length - (index + 8)) % 2 ^ 32 < wordAt data (index + 4) then []
      else (if formatOf (wordAt data index) < 3 then
          [.payload (formatOf (wordAt data index)) (index + 8) (wordAt data (index + 4))] else []) ++
        scanFormats data n (index + 8 + wordAt data (index + 4)) := by
  have hshort : (data.length : Int) - index < 8 ↔ data.length < index + 8 := by omega
  rw [scanFormats]
  by_cases h : data.length < index + 8
  · rw [if_pos (hshort.mpr h), if_pos h]
  · have hrest : ((data.length : Int) - (index + 8 : Nat)) % 2 ^ 32 < wordAt data (index + 4) ↔
        (data.length - (index + 8)) % 2 ^ 32 < wordAt data (index + 4) := by omega
    rw [if_neg (mt hshort.mp h), if_neg h]
    simp only [hrest]

theorem scanFormats_within (data : Bytes) (n index : Nat) : ∀ a ∈ scanFormats data n index, a.Within data := by
  induction n generalizing index with
  | zero => exact fun a ha => absurd ha List.not_mem_nil
  | succ n ih =>
    rw [scanFormats_succ]
    split
    · exact fun a ha => absurd ha List.not_mem_nil
    · rename_i hheader
      refine List.forall_mem_cons.mpr ⟨by simp only [Access.Within]; omega, List.forall_mem_cons.mpr ⟨?_, ?_⟩⟩
      · simp only [Access.Within]
        omega
      split
      · exact fun a ha => absurd ha List.not_mem_nil
      · rename_i hsize
        have hle := Nat.mod_le (data.length - (index + 8)) (2 ^ 32)
        rintro a ha
        rcases List.mem_append.mp ha with ha | ha
        · split at ha
          · rw [List.mem_singleton.mp ha, Access.Within]
            omega
          · exact absurd ha List.not_mem_nil
        · exact ih _ a ha

/-- Each turn of the loop passes eight bytes at least. -/
theorem length_scanFormats (data : Bytes) (n index : Nat) :
    8 * (scanFormats data n index).length ≤ 3 * (data.length - index) := by
  induction n generalizing index with
  | zero => exact Nat.zero_le _
  | succ n ih =>
    rw [scanFormats_succ]
    split
    · exact Nat.zero_le _
    · rename_i hheader
      split
      · simp only [List.length_cons, List.length_nil]
        omega
      · have hrest := ih (index + 8 + wordAt data (index + 4))
        have hadd : (if formatOf (wordAt data index) < 3 then
            [Access.payload (formatOf (wordAt data index)) (index + 8) (wordAt data (index + 4))] else []).length ≤ 1 := by
          split <;> simp
        simp only [List.length_cons, List.length_append]
        omega

theorem mem_scanFormats {data : Bytes} {n index : Nat} {format : Int} {offset size : Nat} :
    .payload format offset size ∈ scanFormats data n index ↔ ∃ e ∈ wholeEntries data n index,
      format = formatOf e.format ∧ format < 3 ∧ offset = e.offset + 8 ∧ size = e.size := by
  induction n generalizing index with
  | zero => simp [scanFormats, wholeEntries]
  | succ n ih =>
    rw [scanFormats_succ, wholeEntries]
    by_cases hheader : data.length < index + 8
    · simp [hheader, not_le.mpr hheader]
    · by_cases hsize : (data.length - (index + 8)) % 2 ^ 32 < wordAt data (index + 4)
      · rw [if_neg hheader, if_pos hsize, if_neg fun hwhole => absurd hwhole.2 (not_le.mpr hsize)]
        simp
      · have hwhole : index + 8 ≤ data.length ∧ wordAt data (index + 4) ≤ (data.length - (index + 8)) % 2 ^ 32 :=
          ⟨not_lt.mp hheader, not_lt.mp hsize⟩
        rw [if_neg hheader, if_neg hsize, if_pos hwhole, List.exists_mem_cons_iff, ← ih]
        by_cases hknown : formatOf (wordAt data index) < 3
        · simp only [hknown, if_true, List.mem_cons, reduceCtorEq, false_or, List.singleton_append,
            Access.payload.injEq]
          grind
        · simp only [hknown, if_false, List.mem_cons, reduceCtorEq, false_or, List.nil_append]
          grind

theorem wholeEntries_spec {data : Bytes} {n index : Nat} {e : Entry} (he : e ∈ wholeEntries data n index) :
    e.format = wordAt data e.offset ∧ e.size = wordAt data (e.offset + 4) ∧
      e.offset + 8 + e.size ≤ data.length := by
  induction n generalizing index with
  | zero => exact absurd he List.not_mem_nil
  | succ n ih =>
    rw [wholeEntries] at he
    split at he
    · rename_i hwhole
      rcases List.mem_cons.mp he with rfl | he
      · have hle := Nat.mod_le (data.length - (index + 8)) (2 ^ 32)
        exact ⟨rfl, rfl, by simp only; omega⟩
      · exact ih he
    · exact absurd he List.not_mem_nil

/-- What the loop adds are the payloads it reads. -/
theorem readFormats_drop (data : Bytes) (n index : Nat) :
    readFormats n (data.drop index) = (scanFormats data n index).filterMap (Access.added data) := by
  induction n generalizing index with
  | zero => rfl
  | succ n ih =>
    rw [scanFormats_succ, readFormats]
    simp only [List.length_drop, List.drop_drop, readUInt32_drop]
    by_cases hheader : data.length < index + 8
    · rw [if_pos (by omega), if_pos hheader, List.filterMap_nil]
    · rw [if_neg (by omega), if_neg hheader]
      by_cases hsize : (data.length - (index + 8)) % 2 ^ 32 < wordAt data (index + 4)
      · rw [if_pos hsize, if_pos hsize]
        rfl
      · rw [if_neg hsize, if_neg hsize]
        have hrest := ih (index + 8 + wordAt data (index + 4))
        by_cases hknown : formatOf (wordAt data index) < 3
        · rw [if_pos hknown, if_pos hknown]
          exact congrArg (List.cons _) hrest
        · rw [if_neg hknown, if_neg hknown]
          exact hrest

/-- What is added by `unmarshall` are the payloads it reads, in order. -/
theorem unmarshall_accesses (c : Clipboard) (data : Bytes) (time : Nat) :
    c.unmarshall data time = (((accesses data).filterMap (Access.added data)).foldlM
      (fun (c : Clipboard) e => c.add e.1 e.2) (c.opened time).empty).map close := by
  rw [unmarshall, accesses]
  by_cases hshort : data.length < 4
  · rw [if_pos hshort, if_pos (by omega)]
    rfl
  · rw [if_neg hshort, if_neg (by omega), readFormats_drop, List.filterMap_cons_none rfl]
    rfl

theorem mem_accesses {data : Bytes} {format : Int} {offset size : Nat} :
    .payload format offset size ∈ accesses data ↔ ∃ e ∈ marshalledEntries data,
      format = formatOf e.format ∧ format < 3 ∧ offset = e.offset + 8 ∧ size = e.size := by
  rw [accesses, marshalledEntries]
  by_cases hshort : data.length < 4
  · rw [if_pos (by omega), if_pos hshort]
    simp
  · rw [if_neg (by omega), if_neg hshort, List.mem_cons, ← mem_scanFormats]
    simp

theorem accesses_within (data : Bytes) : ∀ a ∈ accesses data, a.Within data := by
  rw [accesses]
  split
  · exact fun a ha => absurd ha List.not_mem_nil
  · exact List.forall_mem_cons.mpr ⟨by simp only [Access.Within]; omega, scanFormats_within _ _ _⟩

theorem length_accesses (data : Bytes) : 8 * (accesses data).length ≤ 3 * data.length := by
  rw [accesses]
  split
  · exact Nat.zero_le _
  · have hloop := length_scanFormats data (wordAt data 0) 4
    rw [List.length_cons]
    omega

theorem marshalledEntries_spec {data : Bytes} {e : Entry} (he : e ∈ marshalledEntries data) :
    e.format = wordAt data e.offset ∧ e.size = wordAt data (e.offset + 4) ∧ e.offset + 8 + e.size ≤ data.length := by
  rw [marshalledEntries] at he
  split at he
  · exact absurd he List.not_mem_nil
  · exact wholeEntries_spec he

private theorem formatOf_known {v : Nat} (hv : v < 2 ^ 31) (h : formatOf v < 3) : 0 ≤ formatOf v ∧ formatOf v < 3 := by
  rw [formatOf, if_pos hv] at *
  omega

private theorem formatOf_negative {v : Nat} (hv : ¬ v < 2 ^ 31) (hlt : v < 2 ^ 32) : formatOf v < 0 := by
  rw [formatOf, if_neg hv]
  omega

private theorem ofInt_isSome {format : Int} (h0 : 0 ≤ format) (h3 : format < 3) :
    ∃ f, ClipboardFormat.ofInt format = some f := by
  obtain rfl | rfl | rfl : format = 0 ∨ format = 1 ∨ format = 2 := by omega
  · exact ⟨.text, rfl⟩
  · exact ⟨.html, rfl⟩
  · exact ⟨.bitmap, rfl⟩

private theorem add_known (entries : List (Int × Bytes)) (h : ∀ e ∈ entries, 0 ≤ e.1 ∧ e.1 < 3) (c : Clipboard) :
    (entries.foldlM (fun (c : Clipboard) e => c.add e.1 e.2) c) ≠ none := by
  induction entries generalizing c with
  | nil => exact fun hnone => by cases hnone
  | cons e entries ih =>
    obtain ⟨he, hrest⟩ := List.forall_mem_cons.mp h
    obtain ⟨f, hf⟩ := ofInt_isSome he.1 he.2
    obtain ⟨d, hd⟩ : ∃ d, c.add e.1 e.2 = some d := by
      rw [add, hf]
      split
      · exact ⟨c, rfl⟩
      · exact ⟨_, rfl⟩
    rw [List.foldlM_cons, hd]
    exact ih hrest d

/-- No call reads beyond the data, the reads are bounded by its length, and all that is added is the payload
behind its header; the tables are never indexed outside, whatever the clipboard, if and only if no whole
entry has a format number of 2^31 or more. -/
theorem unmarshall_in_bounds_iff (data : Bytes) :
    ((∀ a ∈ accesses data, a.Within data) ∧ 8 * (accesses data).length ≤ 3 * data.length ∧
      (∀ format offset size, .payload format offset size ∈ accesses data →
        (0 ≤ format ∧ format < 3) ∧
        ∃ header, offset = header + 8 ∧ format = formatOf (wordAt data header) ∧ size = wordAt data (header + 4) ∧
          ((data.drop offset).take size).length = size) ∧
      ∀ c time, unmarshall c data time ≠ none) ↔
    ∀ e ∈ marshalledEntries data, e.format < 2 ^ 31 := by
  constructor
  · rintro ⟨-, -, hpayload, -⟩ e he
    by_contra hlarge
    have hlt : e.format < 2 ^ 32 := by
      rw [(marshalledEntries_spec he).1]
      exact wordAt_lt data e.offset
    have hneg := formatOf_negative hlarge hlt
    have hmem : .payload (formatOf e.format) (e.offset + 8) e.size ∈ accesses data :=
      mem_accesses.mpr ⟨e, he, rfl, by omega, rfl, rfl⟩
    have h0 := (hpayload _ _ _ hmem).1.1
    omega
  · intro hsmall
    have hknown : ∀ format offset size, .payload format offset size ∈ accesses data → 0 ≤ format ∧ format < 3 := by
      intro format offset size hmem
      obtain ⟨e, he, rfl, hlt, -⟩ := mem_accesses.mp hmem
      exact formatOf_known (hsmall e he) hlt
    refine ⟨accesses_within data, length_accesses data, fun format offset size hmem => ⟨hknown _ _ _ hmem, ?_⟩, ?_⟩
    · obtain ⟨e, he, rfl, -, rfl, rfl⟩ := mem_accesses.mp hmem
      obtain ⟨hformat, hsize, hfit⟩ := marshalledEntries_spec he
      refine ⟨e.offset, rfl, by rw [hformat], hsize, ?_⟩
      rw [List.length_take, List.length_drop]
      omega
    · intro c time
      rw [unmarshall_accesses, ne_eq, Option.map_eq_none_iff]
      refine add_known _ (fun entry hentry => ?_) _
      obtain ⟨a, ha, hadded⟩ := List.mem_filterMap.mp hentry
      cases a with
      | word offset => cases hadded
      | payload format offset size =>
        rw [← Option.some.inj hadded]
        exact hknown _ _ _ ha

/-- One empty entry of format number 2^31 is added under a negative number. -/
theorem negative_format_added : ¬ ∀ data : Bytes,
    (∀ format offset size, .payload format offset size ∈ accesses data → 0 ≤ format ∧ format < 3) ∧
      ∀ c time, unmarshall c data time ≠ none := by
  intro hall
  refine (hall [0, 0, 0, 1, 128, 0, 0, 0, 0, 0, 0, 0]).2 {} 0 ?_
  decide

end Clipboard
end Synergy
