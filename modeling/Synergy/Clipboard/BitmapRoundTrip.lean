import Synergy.Clipboard.BitmapConverters

/-! Which bitmaps keep their pixels in the image formats, and which strings the converters read safely. -/
namespace Synergy
open Synergy.Lib

/-- What a bitmap with these masks adds to its info header. -/
def masksSize (compression : Nat) : Nat := if compression = 3 then 12 else if compression = 6 then 16 else 0

/-- The colors in the table of a bitmap. -/
def numColors (bitCount clrUsed : Nat) : Nat :=
  if clrUsed ≠ 0 then clrUsed else if 0 < bitCount ∧ bitCount ≤ 8 then 2 ^ bitCount else 0

/-- A bitmap with an info header of 40 bytes, whose masks and color table are as the header says. -/
structure Dib where
  dimensions : Bytes
  bitCount : Nat
  compression : Nat
  sizes : Bytes
  clrUsed : Nat
  clrImportant : Bytes
  masks : Bytes
  colorTable : Bytes
  pixels : Bytes
  length_dimensions : dimensions.length = 10
  bitCount_lt : bitCount < 256 ^ 2
  compression_lt : compression < 256 ^ 4
  length_sizes : sizes.length = 12
  clrUsed_lt : clrUsed < 256 ^ 4
  length_clrImportant : clrImportant.length = 4
  length_masks : masks.length = masksSize compression
  length_colorTable : colorTable.length = 4 * numColors bitCount clrUsed

namespace Dib
variable (d : Dib)

def infoHeader : Bytes :=
  littleEndian 4 40 ++ d.dimensions ++ littleEndian 2 d.bitCount ++ littleEndian 4 d.compression ++ d.sizes ++
    littleEndian 4 d.clrUsed ++ d.clrImportant

def bytes : Bytes := d.infoHeader ++ d.masks ++ d.colorTable ++ d.pixels

/-- Where the pixels are in a file with this bitmap. -/
def pixelsAt : Nat := 14 + 40 + d.masks.length + d.colorTable.length

theorem length_bytes : d.bytes.length = 40 + d.masks.length + d.colorTable.length + d.pixels.length := by
  simp only [bytes, infoHeader, List.length_append, length_littleEndian, d.length_dimensions, d.length_sizes,
    d.length_clrImportant]

end Dib

theorem fromLE_ok {width offset : Nat} {s : Bytes} (h : offset + width ≤ s.length) :
    ∃ n, fromLE width s offset = .ok n ∧ n < 256 ^ width := by
  refine ⟨_, if_pos h, ?_⟩
  have hlt := ofLittleEndian_lt ((s.drop offset).take width)
  have hlength : ((s.drop offset).take width).length = width := by
    rw [List.length_take, List.length_drop]
    omega
  rwa [hlength] at hlt

theorem fromLE_append (width n : Nat) (before behind : Bytes) {offset : Nat} (h : before.length = offset) :
    fromLE width (before ++ (littleEndian width n ++ behind)) offset = .ok (n % 256 ^ width) := by
  subst h
  have hlength : before.length + width ≤ (before ++ (littleEndian width n ++ behind)).length := by
    simp only [List.length_append, length_littleEndian]
    omega
  rw [fromLE, if_pos hlength, List.drop_left, List.take_left' (length_littleEndian width n),
    ofLittleEndian_littleEndian]

theorem substr_ok {s : Bytes} {pos : Nat} (h : pos ≤ s.length) (count : Nat) :
    substr s pos count = .ok ((s.drop pos).take count) :=
  if_neg (Nat.not_lt.mpr h)

theorem length_fileHeader (size offset : Nat) : (fileHeader size offset).length = 14 := by
  simp [fileHeader, signature]

section
variable (size offset : Nat) (s : Bytes)

theorem fileHeader_offset : fromLE 4 (fileHeader size offset ++ s) 10 = .ok (offset % 2 ^ 32) := by
  have hsplit : fileHeader size offset ++ s =
      (signature ++ littleEndian 4 size ++ littleEndian 2 0 ++ littleEndian 2 0) ++ (littleEndian 4 offset ++ s) := by
    simp [fileHeader]
  rw [hsplit, fromLE_append 4 offset _ s (by simp [signature])]
  rfl

theorem fileHeader_signature : (fileHeader size offset ++ s).take 2 = signature := by
  simp [fileHeader, signature]

theorem drop_fileHeader : (fileHeader size offset ++ s).drop 14 = s :=
  List.drop_left' (length_fileHeader size offset)

theorem length_fileHeader_append : (fileHeader size offset ++ s).length = 14 + s.length := by
  rw [List.length_append, length_fileHeader]

end

/-- In a bitmap of some size the offset is always computed. -/
theorem dibPixelOffset_ok (dib : Bytes) : ∃ n, OSXClipboardBMPConverter.dibPixelOffset dib = .ok n := by
  unfold OSXClipboardBMPConverter.dibPixelOffset
  by_cases hshort : dib.length < 16
  · rw [if_pos hshort]
    exact ⟨0, rfl⟩
  · obtain ⟨biSize, hbiSize, -⟩ := @fromLE_ok 4 0 dib (by omega)
    rw [if_neg hshort, hbiSize]
    change ∃ n, ite _ _ (ite _ _ _) = _
    by_cases hsize : biSize < 12 ∨ dib.length < biSize
    · rw [if_pos hsize]
      exact ⟨0, rfl⟩
    · by_cases hcore : biSize < OSXClipboardBMPConverter.kFallbackPixelOffset
      · rw [if_neg hsize, if_pos hcore]
        exact ⟨biSize, rfl⟩
      · have hforty : 40 ≤ dib.length := by
          unfold OSXClipboardBMPConverter.kFallbackPixelOffset at hcore
          omega
        obtain ⟨biBitCount, hbiBitCount, -⟩ := @fromLE_ok 2 14 dib (by omega)
        obtain ⟨biCompression, hbiCompression, -⟩ := @fromLE_ok 4 16 dib (by omega)
        obtain ⟨biClrUsed, hbiClrUsed, -⟩ := @fromLE_ok 4 32 dib (by omega)
        rw [if_neg hsize, if_neg hcore, hbiBitCount, hbiCompression, hbiClrUsed]
        by_cases hindexed : 0 < biBitCount ∧ biBitCount ≤ 8
        · exact ⟨_, if_pos hindexed⟩
        · exact ⟨_, if_neg hindexed⟩

namespace Dib
variable (d : Dib)

theorem biSize_bytes : fromLE 4 d.bytes 0 = .ok 40 := by
  have hsplit : d.bytes = [] ++ (littleEndian 4 40 ++ (d.dimensions ++ littleEndian 2 d.bitCount ++
      littleEndian 4 d.compression ++ d.sizes ++ littleEndian 4 d.clrUsed ++ d.clrImportant ++ d.masks ++
      d.colorTable ++ d.pixels)) := by
    simp [bytes, infoHeader]
  rw [hsplit, fromLE_append 4 40 [] _ List.length_nil]
  rfl

theorem biBitCount_bytes : fromLE 2 d.bytes 14 = .ok d.bitCount := by
  have hsplit : d.bytes = (littleEndian 4 40 ++ d.dimensions) ++ (littleEndian 2 d.bitCount ++
      (littleEndian 4 d.compression ++ d.sizes ++ littleEndian 4 d.clrUsed ++ d.clrImportant ++ d.masks ++
      d.colorTable ++ d.pixels)) := by
    simp [bytes, infoHeader]
  rw [hsplit, fromLE_append 2 _ _ _ (by simp [d.length_dimensions]), Nat.mod_eq_of_lt d.bitCount_lt]

theorem biCompression_bytes : fromLE 4 d.bytes 16 = .ok d.compression := by
  have hsplit : d.bytes = (littleEndian 4 40 ++ d.dimensions ++ littleEndian 2 d.bitCount) ++
      (littleEndian 4 d.compression ++ (d.sizes ++ littleEndian 4 d.clrUsed ++ d.clrImportant ++ d.masks ++
      d.colorTable ++ d.pixels)) := by
    simp [bytes, infoHeader]
  rw [hsplit, fromLE_append 4 _ _ _ (by simp [d.length_dimensions]), Nat.mod_eq_of_lt d.compression_lt]

theorem biClrUsed_bytes : fromLE 4 d.bytes 32 = .ok d.clrUsed := by
  have hsplit : d.bytes = (littleEndian 4 40 ++ d.dimensions ++ littleEndian 2 d.bitCount ++
      littleEndian 4 d.compression ++ d.sizes) ++ (littleEndian 4 d.clrUsed ++ (d.clrImportant ++ d.masks ++
      d.colorTable ++ d.pixels)) := by
    simp [bytes, infoHeader]
  rw [hsplit, fromLE_append 4 _ _ _ (by simp [d.length_dimensions, d.length_sizes]), Nat.mod_eq_of_lt d.clrUsed_lt]

/-- The offset counts the color table when there are no more than eight bits for a pixel. -/
theorem dibPixelOffset_bytes (hsize : d.bytes.length < 2 ^ 31) :
    OSXClipboardBMPConverter.dibPixelOffset d.bytes = .ok (40 + d.masks.length +
      if 0 < d.bitCount ∧ d.bitCount ≤ 8 then d.colorTable.length else 0) := by
  have hlength := d.length_bytes
  have hmasks : (if (40 : Nat) ≠ OSXClipboardBMPConverter.kFallbackPixelOffset then 40
      else if d.compression = OSXClipboardBMPConverter.kBiBitfields then 40 + 12
      else if d.compression = OSXClipboardBMPConverter.kBiAlphabitfields then 40 + 16 else 40) =
      40 + d.masks.length := by
    rw [d.length_masks, masksSize, if_neg (by decide)]
    by_cases hthree : d.compression = 3
    · rw [if_pos (show d.compression = OSXClipboardBMPConverter.kBiBitfields from hthree), if_pos hthree]
    · rw [if_neg (show d.compression ≠ OSXClipboardBMPConverter.kBiBitfields from hthree), if_neg hthree]
      by_cases hsix : d.compression = 6
      · rw [if_pos (show d.compression = OSXClipboardBMPConverter.kBiAlphabitfields from hsix), if_pos hsix]
      · rw [if_neg (show d.compression ≠ OSXClipboardBMPConverter.kBiAlphabitfields from hsix), if_neg hsix]
  unfold OSXClipboardBMPConverter.dibPixelOffset
  rw [if_neg (by omega), d.biSize_bytes, d.biBitCount_bytes, d.biCompression_bytes, d.biClrUsed_bytes]
  change ite _ _ (ite _ _ (ite _ _ _)) = _
  rw [if_neg (by omega), if_neg (by decide)]
  by_cases hindexed : 0 < d.bitCount ∧ d.bitCount ≤ 8
  · have hcolors : (if d.clrUsed ≠ 0 then d.clrUsed else 2 ^ d.bitCount) * 4 = d.colorTable.length := by
      rw [d.length_colorTable, numColors, if_pos hindexed, Nat.mul_comm]
    rw [if_pos hindexed, if_pos hindexed]
    change Except.ok ((ite _ _ _ + ite _ _ _ * 4) % 2 ^ 32) = _
    rw [hmasks, hcolors, Nat.mod_eq_of_lt (by omega)]
  · rw [if_neg hindexed, if_neg hindexed]
    exact congrArg Except.ok hmasks

end Dib

/-- The file that a bitmap is put in says where its pixels are, and the bitmap is got back from it. -/
def Lossless (fromDib toDib : Bytes → Except Fault Bytes) (d : Dib) : Prop :=
  ∃ file, fromDib d.bytes = .ok file ∧ fromLE 4 file 10 = .ok d.pixelsAt ∧ toDib file = .ok d.bytes

section
variable {d : Dib}

private theorem lossless_iff {fromDib toDib : Bytes → Except Fault Bytes} {size n : Nat}
    (hfrom : fromDib d.bytes = .ok (fileHeader size (14 + n) ++ d.bytes)) (hn : n < 2 ^ 31) :
    Lossless fromDib toDib d ↔
      n = 40 + d.masks.length + d.colorTable.length ∧ toDib (fileHeader size (14 + n) ++ d.bytes) = .ok d.bytes := by
  have hoffset : (.ok ((14 + n) % 2 ^ 32) : Except Fault Nat) = .ok d.pixelsAt ↔
      n = 40 + d.masks.length + d.colorTable.length := by
    rw [Except.ok.injEq, Nat.mod_eq_of_lt (by omega), Dib.pixelsAt]
    omega
  constructor
  · rintro ⟨file, hfile, hat, hto⟩
    rw [hfrom] at hfile
    cases hfile
    rw [fileHeader_offset] at hat
    exact ⟨hoffset.mp hat, hto⟩
  · rintro ⟨hat, hto⟩
    exact ⟨_, hfrom, (fileHeader_offset _ _ _).trans (hoffset.mpr hat), hto⟩

private theorem no_masks_and_colors :
    40 = 40 + d.masks.length + d.colorTable.length ↔ d.masks = [] ∧ d.colorTable = [] := by
  rw [← List.length_eq_zero_iff, ← List.length_eq_zero_iff]
  omega

/-- The file for X11 is for a bitmap with pixels, which follow the info header. -/
theorem xWindows_lossless_iff :
    Lossless (fun s => .ok (XWindowsClipboardBMPConverter.fromIClipboard s)) XWindowsClipboardBMPConverter.toIClipboard
      d ↔ d.masks = [] ∧ d.colorTable = [] ∧ d.pixels ≠ [] := by
  have hsize := d.length_bytes
  rw [lossless_iff rfl (by decide), no_masks_and_colors, and_assoc]
  refine and_congr_right fun hmasks => and_congr_right fun hcolors => ?_
  rw [hmasks, hcolors] at hsize
  unfold XWindowsClipboardBMPConverter.toIClipboard
  rw [length_fileHeader_append, fileHeader_signature, fileHeader_offset]
  by_cases hpixels : d.pixels = []
  · rw [hpixels] at hsize
    rw [if_pos (by simp [hsize])]
    refine iff_of_false (fun h => ?_) (not_not_intro hpixels)
    rw [← Except.ok.inj h] at hsize
    cases hsize
  · have hpos := List.length_pos_iff.mpr hpixels
    rw [if_neg (by simp [hsize]; omega), if_neg (fun h => h rfl)]
    refine iff_of_true ?_ hpixels
    generalize hplain : (14 + 40) % 2 ^ 32 = offset
    change ite _ _ _ = _
    rw [if_pos (show offset = 14 + 40 by omega), substr_ok (by rw [length_fileHeader_append]; omega), drop_fileHeader,
      List.take_of_length_le (by omega)]

/-- The file for the portal is for a bitmap whose pixels follow the info header. -/
theorem portal_lossless_iff (hlength : d.bytes.length < 2 ^ 31) :
    Lossless PortalClipboard.dibToBmp (fun s => .ok (PortalClipboard.bmpToDib s)) d ↔
      d.masks = [] ∧ d.colorTable = [] := by
  have hsize := d.length_bytes
  have hwritten : PortalClipboard.writeRawData d.bytes = d.bytes := by
    unfold PortalClipboard.writeRawData
    rw [Int.bmod_eq_of_le (by omega) (by omega), Int.toNat_natCast, List.take_length]
  have hfrom : PortalClipboard.dibToBmp d.bytes = .ok (fileHeader (14 + d.bytes.length) (14 + 40) ++ d.bytes) := by
    unfold PortalClipboard.dibToBmp
    rw [if_neg (by omega), d.biSize_bytes, hwritten]
    exact if_neg (by rw [Nat.mod_eq_of_lt (by omega), PortalClipboard.kMinDibHeaderSize]; omega)
  rw [lossless_iff hfrom (by decide), no_masks_and_colors]
  refine and_iff_left ?_
  unfold PortalClipboard.bmpToDib PortalClipboard.kBmpFileHeaderSize
  rw [length_fileHeader_append, if_neg (by omega), drop_fileHeader]

/-- The file for macOS is for a bitmap whose color table, if there is one, is for no more than eight bits. -/
theorem osx_lossless_iff (hlength : d.bytes.length < 2 ^ 31) :
    Lossless OSXClipboardBMPConverter.fromIClipboard OSXClipboardBMPConverter.toIClipboard d ↔
      (0 < d.bitCount ∧ d.bitCount ≤ 8) ∨ d.colorTable = [] := by
  have hsize := d.length_bytes
  have hnatural := d.dibPixelOffset_bytes hlength
  generalize hn : (40 + d.masks.length + if 0 < d.bitCount ∧ d.bitCount ≤ 8 then d.colorTable.length else 0) = n
    at hnatural
  have hle : 40 ≤ n ∧ n ≤ d.bytes.length := by
    rw [← hn]
    split_ifs <;> omega
  have hfrom : OSXClipboardBMPConverter.fromIClipboard d.bytes =
      .ok (fileHeader (14 + d.bytes.length) (14 + n) ++ d.bytes) := by
    unfold OSXClipboardBMPConverter.fromIClipboard
    rw [if_neg (by omega), hnatural]
    change Except.ok (fileHeader _ (_ + ite _ _ _) ++ _) = _
    rw [if_neg (by omega)]
    rfl
  have hto : OSXClipboardBMPConverter.toIClipboard (fileHeader (14 + d.bytes.length) (14 + n) ++ d.bytes) =
      .ok d.bytes := by
    unfold OSXClipboardBMPConverter.toIClipboard OSXClipboardBMPConverter.kBmpFileHeaderSize
      OSXClipboardBMPConverter.kBmpHeaderDIBPad
    rw [length_fileHeader_append, fileHeader_signature, fileHeader_offset, drop_fileHeader, hnatural,
      if_neg (by omega), if_neg (fun h => h rfl)]
    change ite _ _ _ = _
    rw [if_neg (by rintro ⟨-, h, -⟩; exact absurd h (Nat.lt_irrefl _)),
      substr_ok (by rw [length_fileHeader_append]; omega), drop_fileHeader, List.take_of_length_le (by omega)]
  rw [lossless_iff hfrom (by omega), and_iff_left hto, ← hn, ← List.length_eq_zero_iff]
  split_ifs with hindexed
  · exact iff_of_true rfl (.inl hindexed)
  · refine ⟨fun h => .inr (by omega), ?_⟩
    rintro (h | h)
    · exact absurd h hindexed
    · omega

end

theorem osx_fromIClipboard_ok (s : Bytes) : ∃ file, OSXClipboardBMPConverter.fromIClipboard s = .ok file := by
  unfold OSXClipboardBMPConverter.fromIClipboard
  split_ifs
  · exact ⟨[], rfl⟩
  · obtain ⟨n, hn⟩ := dibPixelOffset_ok s
    rw [hn]
    exact ⟨_, rfl⟩

theorem osx_toIClipboard_ok (s : Bytes) : ∃ dib, OSXClipboardBMPConverter.toIClipboard s = .ok dib := by
  unfold OSXClipboardBMPConverter.toIClipboard OSXClipboardBMPConverter.kBmpFileHeaderSize
    OSXClipboardBMPConverter.kBmpHeaderDIBPad
  by_cases hshort : s.length ≤ 14
  · exact ⟨[], if_pos hshort⟩
  · rw [if_neg hshort]
    by_cases hsignature : s.take 2 ≠ signature
    · exact ⟨[], if_pos hsignature⟩
    · obtain ⟨offset, hoffset, -⟩ := @fromLE_ok 4 10 s (by omega)
      obtain ⟨n, hn⟩ := dibPixelOffset_ok (s.drop 14)
      rw [if_neg hsignature, hoffset, hn]
      change ∃ dib, ite _ _ _ = _
      split_ifs with hgap
      · rw [substr_ok (by omega), substr_ok hgap.2.2]
        exact ⟨_, rfl⟩
      · exact ⟨_, substr_ok (by omega) _⟩

theorem dibToBmp_ok (s : Bytes) : ∃ file, PortalClipboard.dibToBmp s = .ok file := by
  unfold PortalClipboard.dibToBmp
  by_cases hshort : s.length < 4
  · exact ⟨[], if_pos hshort⟩
  · obtain ⟨headerSize, hheader, -⟩ := @fromLE_ok 4 0 s (by omega)
    rw [if_neg hshort, hheader]
    change ∃ file, ite _ _ _ = _
    split_ifs
    · exact ⟨[], rfl⟩
    · exact ⟨_, rfl⟩

/-- A file whose pixels are declared to be behind its end. -/
def PixelsBehindEnd (s : Bytes) : Prop :=
  14 + 40 < s.length ∧ s.take 2 = signature ∧ s.length < ofLittleEndian ((s.drop 10).take 4)

theorem xWindows_toIClipboard_ok_iff (s : Bytes) :
    (∃ dib, XWindowsClipboardBMPConverter.toIClipboard s = .ok dib) ↔ ¬PixelsBehindEnd s := by
  unfold XWindowsClipboardBMPConverter.toIClipboard PixelsBehindEnd
  by_cases hshort : s.length ≤ 14 + 40
  · rw [if_pos hshort]
    exact iff_of_true ⟨[], rfl⟩ fun h => absurd h.1 (Nat.not_lt.mpr hshort)
  · rw [if_neg hshort]
    by_cases hsignature : s.take 2 ≠ signature
    · rw [if_pos hsignature]
      exact iff_of_true ⟨[], rfl⟩ fun h => hsignature h.2.1
    · have hoffset : fromLE 4 s 10 = .ok (ofLittleEndian ((s.drop 10).take 4)) := if_pos (by omega)
      rw [if_neg hsignature, hoffset]
      generalize ofLittleEndian ((s.drop 10).take 4) = offset
      change (∃ dib, ite _ _ _ = _) ↔ _
      by_cases hplain : offset = 14 + 40
      · rw [if_pos hplain, substr_ok (by omega)]
        refine iff_of_true ⟨_, rfl⟩ ?_
        rintro ⟨-, -, hbehind⟩
        omega
      · rw [if_neg hplain, substr_ok (by omega)]
        by_cases hinside : offset ≤ s.length
        · rw [substr_ok hinside]
          refine iff_of_true ⟨_, rfl⟩ ?_
          rintro ⟨-, -, hbehind⟩
          omega
        · rw [substr, if_pos (by omega)]
          refine iff_of_false ?_ fun h => h ⟨by omega, not_not.mp hsignature, by omega⟩
          rintro ⟨dib, hdib⟩
          cases hdib

namespace XWindowsClipboardAnyBitmapConverter

/-- The pixels of a bitmap whose format is acceptable are converted. -/
def ConvertsPixels (doBGRFromIClipboard doBGRAFromIClipboard : PixelConversion) (s : Bytes) : Prop :=
  ∀ h, infoHeader s = .ok h → h.Acceptable →
    ∃ image, (if h.biBitCount = 24 then doBGRFromIClipboard else doBGRAFromIClipboard) (s.drop 40) (.ofInt h.biWidth)
      (.ofInt h.biHeight) = .ok image

/-- The header is read only when the string holds all of it. -/
theorem infoHeader_ok_iff (s : Bytes) : (∃ h, infoHeader s = .ok h) ↔ 40 ≤ s.length := by
  constructor
  · rintro ⟨h, hread⟩
    obtain ⟨_, -, hread⟩ := bind_eq_ok.mp hread
    obtain ⟨_, -, hread⟩ := bind_eq_ok.mp hread
    obtain ⟨_, -, hread⟩ := bind_eq_ok.mp hread
    obtain ⟨_, -, hread⟩ := bind_eq_ok.mp hread
    obtain ⟨_, -, hread⟩ := bind_eq_ok.mp hread
    obtain ⟨_, -, hread⟩ := bind_eq_ok.mp hread
    obtain ⟨_, -, hread⟩ := bind_eq_ok.mp hread
    obtain ⟨_, -, hread⟩ := bind_eq_ok.mp hread
    obtain ⟨_, -, hread⟩ := bind_eq_ok.mp hread
    obtain ⟨_, -, hread⟩ := bind_eq_ok.mp hread
    obtain ⟨biClrImportant, hlast, -⟩ := bind_eq_ok.mp hread
    by_contra hshort
    rw [fromLE, if_neg (by omega)] at hlast
    cases hlast
  · intro hlong
    have hfour {offset : Nat} (h : offset + 4 ≤ s.length) : ∃ n, fromLE 4 s offset = .ok n :=
      (fromLE_ok h).imp fun _ hn => hn.1
    have htwo {offset : Nat} (h : offset + 2 ≤ s.length) : ∃ n, fromLE 2 s offset = .ok n :=
      (fromLE_ok h).imp fun _ hn => hn.1
    have hsigned {offset : Nat} (h : offset + 4 ≤ s.length) : ∃ n, fromLES32 s offset = .ok n := by
      obtain ⟨n, hn⟩ := hfour h
      exact ⟨Int.bmod n (2 ^ 32), by rw [fromLES32, hn]; rfl⟩
    obtain ⟨biSize, h0⟩ := @hfour 0 (by omega)
    obtain ⟨biWidth, h4⟩ := @hsigned 4 (by omega)
    obtain ⟨biHeight, h8⟩ := @hsigned 8 (by omega)
    obtain ⟨biPlanes, h12⟩ := @htwo 12 (by omega)
    obtain ⟨biBitCount, h14⟩ := @htwo 14 (by omega)
    obtain ⟨biCompression, h16⟩ := @hfour 16 (by omega)
    obtain ⟨biSizeImage, h20⟩ := @hfour 20 (by omega)
    obtain ⟨biXPelsPerMeter, h24⟩ := @hsigned 24 (by omega)
    obtain ⟨biYPelsPerMeter, h28⟩ := @hsigned 28 (by omega)
    obtain ⟨biClrUsed, h32⟩ := @hfour 32 (by omega)
    obtain ⟨biClrImportant, h36⟩ := @hfour 36 (by omega)
    refine ⟨⟨biSize, biWidth, biHeight, biPlanes, biBitCount, biCompression, biSizeImage, biXPelsPerMeter,
      biYPelsPerMeter, biClrUsed, biClrImportant⟩, ?_⟩
    rw [infoHeader, h0, h4, h8, h12, h14, h16, h20, h24, h28, h32, h36]
    rfl

theorem fromIClipboard_ok_iff (doBGRFromIClipboard doBGRAFromIClipboard : PixelConversion) (s : Bytes) :
    (∃ image, fromIClipboard doBGRFromIClipboard doBGRAFromIClipboard s = .ok image) ↔
      40 ≤ s.length ∧ ConvertsPixels doBGRFromIClipboard doBGRAFromIClipboard s := by
  rw [← infoHeader_ok_iff]
  unfold fromIClipboard ConvertsPixels
  cases hheader : infoHeader s with
  | error e =>
    refine iff_of_false ?_ ?_
    · rintro ⟨image, himage⟩
      cases himage
    · rintro ⟨⟨h, hh⟩, -⟩
      cases hh
  | ok h =>
    have honly : (∀ h', (.ok h : Except Fault CBMPInfoHeader) = .ok h' → h'.Acceptable → ∃ image,
        (if h'.biBitCount = 24 then doBGRFromIClipboard else doBGRAFromIClipboard) (s.drop 40) (.ofInt h'.biWidth)
          (.ofInt h'.biHeight) = .ok image) ↔ (h.Acceptable → ∃ image,
        (if h.biBitCount = 24 then doBGRFromIClipboard else doBGRAFromIClipboard) (s.drop 40) (.ofInt h.biWidth)
          (.ofInt h.biHeight) = .ok image) :=
      ⟨fun hall => hall h rfl, fun hone h' hh' => Except.ok.inj hh' ▸ hone⟩
    rw [honly, and_iff_right ⟨h, rfl⟩]
    change (∃ image, ite _ _ _ = _) ↔ _
    by_cases haccept : h.Acceptable
    · rw [if_neg (not_not_intro haccept), forall_prop_of_true haccept]
      split_ifs <;> rfl
    · rw [if_pos haccept]
      exact iff_of_true ⟨[], rfl⟩ fun h' => absurd h' haccept

end XWindowsClipboardAnyBitmapConverter

open XWindowsClipboardAnyBitmapConverter (PixelConversion ConvertsPixels)

/-- All the converters keep a bitmap and where its pixels are. -/
def AllLossless (d : Dib) : Prop :=
  Lossless (fun s => .ok (XWindowsClipboardBMPConverter.fromIClipboard s)) XWindowsClipboardBMPConverter.toIClipboard
    d ∧
  Lossless OSXClipboardBMPConverter.fromIClipboard OSXClipboardBMPConverter.toIClipboard d ∧
  Lossless PortalClipboard.dibToBmp (fun s => .ok (PortalClipboard.bmpToDib s)) d

/-- The converters read a string only inside of it and return a value; those of the types of plain bytes do. -/
def ReadsSafely (doBGRFromIClipboard doBGRAFromIClipboard : PixelConversion) (s : Bytes) : Prop :=
  (∃ dib, XWindowsClipboardBMPConverter.toIClipboard s = .ok dib) ∧
  (∃ n, OSXClipboardBMPConverter.dibPixelOffset s = .ok n) ∧
  (∃ file, OSXClipboardBMPConverter.fromIClipboard s = .ok file) ∧
  (∃ dib, OSXClipboardBMPConverter.toIClipboard s = .ok dib) ∧
  (∃ file, PortalClipboard.dibToBmp s = .ok file) ∧
  ∃ image, XWindowsClipboardAnyBitmapConverter.fromIClipboard doBGRFromIClipboard doBGRAFromIClipboard s = .ok image

/-- The converters keep the bitmaps whose pixels follow the info header; they read a string safely unless it is a file
whose pixels are declared behind its end or shorter than an info header. -/
theorem bitmaps_iff (doBGRFromIClipboard doBGRAFromIClipboard : PixelConversion) :
    (∀ d : Dib, d.bytes.length < 2 ^ 31 → (AllLossless d ↔ d.masks = [] ∧ d.colorTable = [] ∧ d.pixels ≠ [])) ∧
    ∀ s, ReadsSafely doBGRFromIClipboard doBGRAFromIClipboard s ↔
      ¬PixelsBehindEnd s ∧ 40 ≤ s.length ∧ ConvertsPixels doBGRFromIClipboard doBGRAFromIClipboard s := by
  refine ⟨fun d hlength => ?_, fun s => ?_⟩
  · rw [AllLossless, xWindows_lossless_iff, osx_lossless_iff hlength, portal_lossless_iff hlength]
    constructor
    · exact fun h => h.1
    · rintro ⟨hmasks, hcolors, hpixels⟩
      exact ⟨⟨hmasks, hcolors, hpixels⟩, .inr hcolors, hmasks, hcolors⟩
  · rw [ReadsSafely, xWindows_toIClipboard_ok_iff, XWindowsClipboardAnyBitmapConverter.fromIClipboard_ok_iff]
    refine and_congr_right fun _ => ?_
    constructor
    · exact fun h => h.2.2.2.2
    · exact fun h => ⟨dibPixelOffset_ok s, osx_fromIClipboard_ok s, osx_toIClipboard_ok s, dibToBmp_ok s, h⟩

/-- One row of eight pixels in black and white. -/
def blackAndWhite : Dib where
  dimensions := [8, 0, 0, 0, 1, 0, 0, 0, 1, 0]
  bitCount := 1
  compression := 0
  sizes := List.replicate 12 0
  clrUsed := 0
  clrImportant := [0, 0, 0, 0]
  masks := []
  colorTable := [0, 0, 0, 0, 255, 255, 255, 0]
  pixels := [170, 0, 0, 0]
  length_dimensions := rfl
  bitCount_lt := by decide
  compression_lt := by decide
  length_sizes := rfl
  clrUsed_lt := by decide
  length_clrImportant := rfl
  length_masks := rfl
  length_colorTable := rfl

/-- One pixel in its three colors. -/
def onePixel : Dib where
  dimensions := [1, 0, 0, 0, 1, 0, 0, 0, 1, 0]
  bitCount := 24
  compression := 0
  sizes := List.replicate 12 0
  clrUsed := 0
  clrImportant := [0, 0, 0, 0]
  masks := []
  colorTable := []
  pixels := [1, 2, 3, 0]
  length_dimensions := rfl
  bitCount_lt := by decide
  compression_lt := by decide
  length_sizes := rfl
  clrUsed_lt := by decide
  length_clrImportant := rfl
  length_masks := rfl
  length_colorTable := rfl

/-- The color table is taken for pixels, a declared offset is trusted, and a header is read from an empty string. -/
theorem color_table_taken_for_pixels :
    ¬AllLossless blackAndWhite ∧
      XWindowsClipboardBMPConverter.toIClipboard (fileHeader 0 100 ++ List.replicate 41 0) = .error .outOfRange ∧
      ∀ doBGRFromIClipboard doBGRAFromIClipboard : PixelConversion,
        XWindowsClipboardAnyBitmapConverter.fromIClipboard doBGRFromIClipboard doBGRAFromIClipboard [] =
          .error .outside := by
  refine ⟨?_, by decide, fun _ _ => rfl⟩
  rintro ⟨hlossless, -⟩
  exact absurd (xWindows_lossless_iff.mp hlossless).2.1 (by decide)

theorem bitmaps_iff_onePixel : AllLossless onePixel :=
  ((bitmaps_iff (fun _ _ _ => .ok []) fun _ _ _ => .ok []).1 onePixel (by decide)).mpr ⟨rfl, rfl, by decide⟩

end Synergy
