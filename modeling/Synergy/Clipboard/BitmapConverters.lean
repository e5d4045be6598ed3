import Synergy.Io.StreamBuffer
import Synergy.Lib.Fallible
import Synergy.Lib.ByteOrder

/-! The converters between the bitmap of a clipboard, which has no file header, and the image formats of the
platforms. An access outside of a string and an exception are failures. -/
namespace Synergy
open Synergy.Lib

/-- What may go wrong with a string: a byte outside of it is read, or a position behind its end is an exception. -/
inductive Fault
  | outside
  | outOfRange
  deriving DecidableEq

/-- The unsigned number in the bytes from an offset, least significant first. -/
def fromLE (width : Nat) (s : Bytes) (offset : Nat) : Except Fault Nat :=
  if offset + width ≤ s.length then .ok (ofLittleEndian ((s.drop offset).take width)) else .error .outside

def substr (s : Bytes) (pos count : Nat) : Except Fault Bytes :=
  if s.length < pos then .error .outOfRange else .ok ((s.drop pos).take count)

/-- The two bytes that a BMP file begins with. -/
def signature : Bytes := [66, 77]

/-- The file header: the signature, the size, two numbers that are reserved, and where the pixels are. -/
def fileHeader (size offset : Nat) : Bytes :=
  signature ++ littleEndian 4 size ++ littleEndian 2 0 ++ littleEndian 2 0 ++ littleEndian 4 offset

namespace XWindowsClipboardBMPConverter

def fromIClipboard (bmp : Bytes) : Bytes := fileHeader (14 + bmp.length) (14 + 40) ++ bmp

def toIClipboard (bmp : Bytes) : Except Fault Bytes :=
  if bmp.length ≤ 14 + 40 then .ok []
  else if bmp.take 2 ≠ signature then .ok []
  else do
    let offset ← fromLE 4 bmp 10
    if offset = 14 + 40 then substr bmp 14 bmp.length
    else return (← substr bmp 14 40) ++ (← substr bmp offset (bmp.length - offset))

end XWindowsClipboardBMPConverter

namespace PortalClipboard

def kBmpFileHeaderSize : Nat := 14

def kMinDibHeaderSize : Nat := 12

/-- The data that is written when its size is made an `int`. -/
def writeRawData (data : Bytes) : Bytes := data.take (Int.bmod data.length (2 ^ 32)).toNat

def dibToBmp (dib : Bytes) : Except Fault Bytes :=
  if dib.length < 4 then .ok []
  else do
    let headerSize ← fromLE 4 dib 0
    if headerSize < kMinDibHeaderSize ∨ dib.length % 2 ^ 32 < headerSize then return []
    else return fileHeader (kBmpFileHeaderSize + dib.length) (kBmpFileHeaderSize + headerSize) ++ writeRawData dib

def bmpToDib (bmp : Bytes) : Bytes :=
  if bmp.length < kBmpFileHeaderSize then [] else bmp.drop kBmpFileHeaderSize

end PortalClipboard

namespace OSXClipboardBMPConverter

def kBiBitfields : Nat := 3

def kBiAlphabitfields : Nat := 6

def kBmpHeaderDIBPad : Nat := 10

def kBmpFileHeaderSize : Nat := 14

def kFallbackPixelOffset : Nat := 40

/-- Where the pixels are in a bitmap, zero when that is not known. -/
def dibPixelOffset (dib : Bytes) : Except Fault Nat :=
  if dib.length < 16 then .ok 0
  else do
    let biSize ← fromLE 4 dib 0
    if biSize < 12 ∨ dib.length < biSize then return 0
    else if biSize < kFallbackPixelOffset then return biSize
    else
      let biBitCount ← fromLE 2 dib 14
      let biCompression ← fromLE 4 dib 16
      let pixelOffset :=
        if biSize ≠ kFallbackPixelOffset then biSize
        else if biCompression = kBiBitfields then biSize + 12
        else if biCompression = kBiAlphabitfields then biSize + 16
        else biSize
      if 0 < biBitCount ∧ biBitCount ≤ 8 then
        let biClrUsed ← fromLE 4 dib 32
        let numColors := if biClrUsed ≠ 0 then biClrUsed else 2 ^ biBitCount
        return (pixelOffset + numColors * 4) % 2 ^ 32
      else return pixelOffset

def fromIClipboard (bmp : Bytes) : Except Fault Bytes :=
  if bmp.length < 4 then .ok []
  else do
    let pixelOffset ← dibPixelOffset bmp
    let pixelOffset := if pixelOffset = 0 then kFallbackPixelOffset else pixelOffset
    return fileHeader (kBmpFileHeaderSize + bmp.length) (kBmpFileHeaderSize + pixelOffset) ++ bmp

def toIClipboard (bmp : Bytes) : Except Fault Bytes :=
  if bmp.length ≤ kBmpFileHeaderSize then .ok []
  else if bmp.take 2 ≠ signature then .ok []
  else do
    let offset ← fromLE 4 bmp kBmpHeaderDIBPad
    let naturalOffset ← dibPixelOffset (bmp.drop kBmpFileHeaderSize)
    if naturalOffset ≠ 0 ∧ (kBmpFileHeaderSize + naturalOffset) % 2 ^ 32 < offset ∧ offset ≤ bmp.length then
      return (← substr bmp kBmpFileHeaderSize naturalOffset) ++ (← substr bmp offset bmp.length)
    else substr bmp kBmpFileHeaderSize bmp.length

end OSXClipboardBMPConverter

namespace XWindowsClipboardAnyBitmapConverter

/-- The conversion of pixels, from the bytes that begin with them, their width and their height. -/
abbrev PixelConversion := Bytes → UInt32 → UInt32 → Except Fault Bytes

structure CBMPInfoHeader where
  biSize : Nat
  biWidth : Int
  biHeight : Int
  biPlanes : Nat
  biBitCount : Nat
  biCompression : Nat
  biSizeImage : Nat
  biXPelsPerMeter : Int
  biYPelsPerMeter : Int
  biClrUsed : Nat
  biClrImportant : Nat

def fromLES32 (s : Bytes) (offset : Nat) : Except Fault Int :=
  (fromLE 4 s offset).map fun n => Int.bmod n (2 ^ 32)

def infoHeader (bmp : Bytes) : Except Fault CBMPInfoHeader := do
  let biSize ← fromLE 4 bmp 0
  let biWidth ← fromLES32 bmp 4
  let biHeight ← fromLES32 bmp 8
  let biPlanes ← fromLE 2 bmp 12
  let biBitCount ← fromLE 2 bmp 14
  let biCompression ← fromLE 4 bmp 16
  let biSizeImage ← fromLE 4 bmp 20
  let biXPelsPerMeter ← fromLES32 bmp 24
  let biYPelsPerMeter ← fromLES32 bmp 28
  let biClrUsed ← fromLE 4 bmp 32
  let biClrImportant ← fromLE 4 bmp 36
  return ⟨biSize, biWidth, biHeight, biPlanes, biBitCount, biCompression, biSizeImage, biXPelsPerMeter,
    biYPelsPerMeter, biClrUsed, biClrImportant⟩

/-- The format is one that the pixels are converted from. -/
def CBMPInfoHeader.Acceptable (h : CBMPInfoHeader) : Prop :=
  h.biSize = 40 ∧ h.biWidth ≠ 0 ∧ h.biHeight ≠ 0 ∧ h.biPlanes = 0 ∧ h.biCompression = 0 ∧
    (h.biBitCount = 24 ∨ h.biBitCount = 32)

instance (h : CBMPInfoHeader) : Decidable h.Acceptable := inferInstanceAs (Decidable (_ ∧ _))

def fromIClipboard (doBGRFromIClipboard doBGRAFromIClipboard : PixelConversion) (bmp : Bytes) : Except Fault Bytes := do
  let h ← infoHeader bmp
  if ¬h.Acceptable then return []
  else if h.biBitCount = 24 then doBGRFromIClipboard (bmp.drop 40) (.ofInt h.biWidth) (.ofInt h.biHeight)
  else doBGRAFromIClipboard (bmp.drop 40) (.ofInt h.biWidth) (.ofInt h.biHeight)

end XWindowsClipboardAnyBitmapConverter
end Synergy
