import Synergy.Base.Types
import Synergy.Base.Numerals
import Synergy.Input.KeyMap

/-! The names of keys and modifiers, and the text of a keystroke as the configuration writes and
reads it. -/
namespace Synergy

/-- The names of keys. The source has the ids from `0xE001` on by the names that `KeyTypes.h` gives them. -/
def kKeyNameMap : List (Str × KeyID) :=
  [("AltGr".toList, 0xEF7E), ("Alt_L".toList, 0xEFE9), ("Alt_R".toList, 0xEFEA), ("AppMail".toList, 0xE0B4),
   ("AppMedia".toList, 0xE0B5), ("AppUser1".toList, 0xE0B6), ("AppUser2".toList, 0xE0B7),
   ("AudioDown".toList, 0xE0AE), ("AudioMute".toList, 0xE0AD), ("AudioNext".toList, 0xE0B0),
   ("AudioPlay".toList, 0xE0B3), ("AudioPrev".toList, 0xE0B1), ("AudioStop".toList, 0xE0B2),
   ("AudioUp".toList, 0xE0AF), ("BackSpace".toList, 0xEF08), ("Begin".toList, 0xEF58),
   ("Break".toList, 0xEF6B), ("Cancel".toList, 0xEF69), ("CapsLock".toList, 0xEFE5), ("Clear".toList, 0xEF0B),
   ("Control_L".toList, 0xEFE3), ("Control_R".toList, 0xEFE4), ("Delete".toList, 0xEFFF),
   ("Down".toList, 0xEF54), ("Eject".toList, 0xE001), ("End".toList, 0xEF57), ("Escape".toList, 0xEF1B),
   ("Execute".toList, 0xEF62), ("F1".toList, 0xEFBE), ("F2".toList, 0xEFBF), ("F3".toList, 0xEFC0),
   ("F4".toList, 0xEFC1), ("F5".toList, 0xEFC2), ("F6".toList, 0xEFC3), ("F7".toList, 0xEFC4),
   ("F8".toList, 0xEFC5), ("F9".toList, 0xEFC6), ("F10".toList, 0xEFC7), ("F11".toList, 0xEFC8),
   ("F12".toList, 0xEFC9), ("F13".toList, 0xEFCA), ("F14".toList, 0xEFCB), ("F15".toList, 0xEFCC),
   ("F16".toList, 0xEFCD), ("F17".toList, 0xEFCE), ("F18".toList, 0xEFCF), ("F19".toList, 0xEFD0),
   ("F20".toList, 0xEFD1), ("F21".toList, 0xEFD2), ("F22".toList, 0xEFD3), ("F23".toList, 0xEFD4),
   ("F24".toList, 0xEFD5), ("F25".toList, 0xEFD6), ("F26".toList, 0xEFD7), ("F27".toList, 0xEFD8),
   ("F28".toList, 0xEFD9), ("F29".toList, 0xEFDA), ("F30".toList, 0xEFDB), ("F31".toList, 0xEFDC),
   ("F32".toList, 0xEFDD), ("F33".toList, 0xEFDE), ("F34".toList, 0xEFDF), ("F35".toList, 0xEFE0),
   ("Find".toList, 0xEF68), ("Help".toList, 0xEF6A), ("Henkan".toList, 0xEF23), ("Home".toList, 0xEF50),
   ("Hyper_L".toList, 0xEFED), ("Hyper_R".toList, 0xEFEE), ("Insert".toList, 0xEF63), ("KP_0".toList, 0xEFB0),
   ("KP_1".toList, 0xEFB1), ("KP_2".toList, 0xEFB2), ("KP_3".toList, 0xEFB3), ("KP_4".toList, 0xEFB4),
   ("KP_5".toList, 0xEFB5), ("KP_6".toList, 0xEFB6), ("KP_7".toList, 0xEFB7), ("KP_8".toList, 0xEFB8),
   ("KP_9".toList, 0xEFB9), ("KP_Add".toList, 0xEFAB), ("KP_Begin".toList, 0xEF9D),
   ("KP_Decimal".toList, 0xEFAE), ("KP_Delete".toList, 0xEF9F), ("KP_Divide".toList, 0xEFAF),
   ("KP_Down".toList, 0xEF99), ("KP_End".toList, 0xEF9C), ("KP_Enter".toList, 0xEF8D),
   ("KP_Equal".toList, 0xEFBD), ("KP_F1".toList, 0xEF91), ("KP_F2".toList, 0xEF92), ("KP_F3".toList, 0xEF93),
   ("KP_F4".toList, 0xEF94), ("KP_Home".toList, 0xEF95), ("KP_Insert".toList, 0xEF9E),
   ("KP_Left".toList, 0xEF96), ("KP_Multiply".toList, 0xEFAA), ("KP_PageDown".toList, 0xEF9B),
   ("KP_PageUp".toList, 0xEF9A), ("KP_Right".toList, 0xEF98), ("KP_Separator".toList, 0xEFAC),
   ("KP_Space".toList, 0xEF80), ("KP_Subtract".toList, 0xEFAD), ("KP_Tab".toList, 0xEF89),
   ("KP_Up".toList, 0xEF97), ("Left".toList, 0xEF51), ("LeftTab".toList, 0xEE20), ("Linefeed".toList, 0xEF0A),
   ("Menu".toList, 0xEF67), ("Meta_L".toList, 0xEFE7), ("Meta_R".toList, 0xEFE8), ("NumLock".toList, 0xEF7F),
   ("PageDown".toList, 0xEF56), ("PageUp".toList, 0xEF55), ("Pause".toList, 0xEF13), ("Print".toList, 0xEF61),
   ("Redo".toList, 0xEF66), ("Return".toList, 0xEF0D), ("Right".toList, 0xEF53), ("ScrollLock".toList, 0xEF14),
   ("Select".toList, 0xEF60), ("ShiftLock".toList, 0xEFE6), ("Shift_L".toList, 0xEFE1),
   ("Shift_R".toList, 0xEFE2), ("Sleep".toList, 0xE05F), ("Super_L".toList, 0xEFEB),
   ("Super_R".toList, 0xEFEC), ("SysReq".toList, 0xEF15), ("Tab".toList, 0xEF09), ("Undo".toList, 0xEF65),
   ("Up".toList, 0xEF52), ("WWWBack".toList, 0xE0A6), ("WWWFavorites".toList, 0xE0AB),
   ("WWWForward".toList, 0xE0A7), ("WWWHome".toList, 0xE0AC), ("WWWRefresh".toList, 0xE0A8),
   ("WWWSearch".toList, 0xE0AA), ("WWWStop".toList, 0xE0A9), ("Zenkaku".toList, 0xEF2A),
   ("Space".toList, 0x0020), ("Exclaim".toList, 0x0021), ("DoubleQuote".toList, 0x0022),
   ("Number".toList, 0x0023), ("Dollar".toList, 0x0024), ("Percent".toList, 0x0025),
   ("Ampersand".toList, 0x0026), ("Apostrophe".toList, 0x0027), ("ParenthesisL".toList, 0x0028),
   ("ParenthesisR".toList, 0x0029), ("Asterisk".toList, 0x002A), ("Plus".toList, 0x002B),
   ("Comma".toList, 0x002C), ("Minus".toList, 0x002D), ("Period".toList, 0x002E), ("Slash".toList, 0x002F),
   ("Colon".toList, 0x003A), ("Semicolon".toList, 0x003B), ("Less".toList, 0x003C), ("Equal".toList, 0x003D),
   ("Greater".toList, 0x003E), ("Question".toList, 0x003F), ("At".toList, 0x0040), ("BracketL".toList, 0x005B),
   ("Backslash".toList, 0x005C), ("BracketR".toList, 0x005D), ("Circumflex".toList, 0x005E),
   ("Underscore".toList, 0x005F), ("Grave".toList, 0x0060), ("BraceL".toList, 0x007B), ("Bar".toList, 0x007C),
   ("BraceR".toList, 0x007D), ("Tilde".toList, 0x007E)]

def kModifierNameMap : List (Str × KeyModifierMask) :=
  [("Alt".toList, 0x0004), ("AltGr".toList, 0x0020), ("Control".toList, 0x0002), ("Meta".toList, 0x0008),
   ("Shift".toList, 0x0001), ("Super".toList, 0x0010)]

namespace KeyMap

/-- The value of a name in a table, where the last entry counts. -/
def valueOf {α : Type*} (table : List (Str × α)) (x : Str) : Option α :=
  (table.reverse.find? fun e => CaselessCmp.equal e.1 x).map Prod.snd

/-- The name of a value in a table, where the last entry counts. -/
def nameOf {α : Type*} [DecidableEq α] (table : List (Str × α)) (id : α) : Option Str :=
  (table.reverse.find? fun e => e.2 = id).map Prod.fst

def nameToKeyMap (x : Str) : Option KeyID := valueOf kKeyNameMap x
def keyToNameMap (key : KeyID) : Option Str := nameOf kKeyNameMap key
def nameToModifierMap (x : Str) : Option KeyModifierMask := valueOf kModifierNameMap x
def modifierToNameMap (mod : KeyModifierMask) : Option Str := nameOf kModifierNameMap mod

/-- What a bit of the mask adds to the text. -/
def modifierText (mask : KeyModifierMask) (i : Nat) : Str :=
  if mask &&& (1 <<< i) = 0 then [] else (modifierToNameMap (1 <<< i)).elim [] (· ++ ['+'])

/-- The name of the key, its character, or an escape. -/
def keyText (key : KeyID) : Str :=
  match keyToNameMap key with
  | some name => name
  | none =>
    if 33 ≤ key ∧ key < 127 then [Char.ofNat key] else ['\\', 'u'] ++ (Nat.toDigits 16 key).leftpad 4 '0'

def formatKey (key : KeyID) (mask : KeyModifierMask) : Str :=
  let x := (List.range kKeyModifierNumBits).flatMap (modifierText mask)
  if key ≠ kKeyNone then x ++ keyText key else x.dropLast

def parseKey (x : Str) : Option KeyID :=
  match nameToKeyMap x with
  | some id => some id
  | none =>
    match x with
    | [c] => if isgraph c then some c.toNat else none
    | '\\' :: 'u' :: digits =>
      if digits.length = 4 then
        let (n, rest) := strtolHex (cStr digits)
        if rest = [] then some (n % 2 ^ 32).toNat else none
      else none
    | [] => some kKeyNone
    | _ => none

/-- A character of a modifier or a key, and not between two of them. -/
def inComponent (c : Char) : Bool := !(isBlank c || c == '+' || c == ')')

/-- `parseModifiers` with the modifiers before it taken: the text that is left for the key, and
the modifiers. -/
def parseModifiersFrom (mask : KeyModifierMask) (x : Str) : Option (Str × KeyModifierMask) :=
  match x.dropWhile isBlank with
  | [] => some ([], mask)
  | first :: _ =>
    let c := (x.dropWhile isBlank).takeWhile inComponent
    if c = [] then
      -- a plus sign is the key after modifiers
      if first = '+' then some (x.dropWhile isBlank, mask) else none
    else
      match nameToModifierMap c with
      | none => some (((x.dropWhile isBlank).reverse.dropWhile isBlank).reverse, mask)
      | some mod =>
        if mask &&& mod ≠ 0 then none
        else
          match _hr : ((x.dropWhile isBlank).dropWhile inComponent).dropWhile isBlank with
          | [] => some ([], mask ||| mod)
          | plus :: rest => if plus ≠ '+' then none else parseModifiersFrom (mask ||| mod) rest
termination_by x.length
decreasing_by
  have hblank := (List.dropWhile_sublist isBlank (l := x)).length_le
  have hname := (List.dropWhile_sublist inComponent (l := x.dropWhile isBlank)).length_le
  have hrest := (List.dropWhile_sublist isBlank (l := (x.dropWhile isBlank).dropWhile inComponent)).length_le
  rw [_hr, List.length_cons] at hrest
  omega

def parseModifiers (x : Str) : Option (Str × KeyModifierMask) := parseModifiersFrom 0 x

/-- The key and the modifiers of a text. -/
def parseKeystroke (text : Str) : Option (KeyID × KeyModifierMask) :=
  (parseModifiers text).bind fun parsed => (parseKey parsed.1).map fun key => (key, parsed.2)

end KeyMap
end Synergy
