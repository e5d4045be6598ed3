import Synergy.Input.InputValidator
import Synergy.Protocol.ProtocolUtil
import Synergy.Protocol.ProtocolRoundTrip

/-! The key events that the server's end of a connection sends, in each version of the
protocol that has buttons. -/
namespace Synergy
open Lib ProtocolUtil

/-- All modifiers that have a bit. -/
def keyModifiers : KeyModifierMask :=
  keyModifierShift ||| keyModifierControl ||| keyModifierAlt ||| keyModifierMeta ||| keyModifierSuper |||
    keyModifierAltGr ||| keyModifierLevel5Lock ||| keyModifierCapsLock ||| keyModifierNumLock ||| keyModifierScrollLock

/-- A key event for the active client. The count is a signed 32-bit value. -/
inductive KeyStroke
  | keyDown (key : KeyID) (mask : KeyModifierMask) (button : Nat) (language : Bytes)
  | keyRepeat (key : KeyID) (mask : KeyModifierMask) (count : Int) (button : Nat) (lang : Bytes)
  | keyUp (key : KeyID) (mask : KeyModifierMask) (button : Nat)

namespace KeyStroke

def key : KeyStroke → KeyID
  | keyDown key _ _ _ | keyRepeat key _ _ _ _ | keyUp key _ _ => key

def mask : KeyStroke → KeyModifierMask
  | keyDown _ mask _ _ | keyRepeat _ mask _ _ _ | keyUp _ mask _ => mask

def button : KeyStroke → Nat
  | keyDown _ _ button _ | keyRepeat _ _ _ button _ | keyUp _ _ button => button

def language : KeyStroke → Bytes
  | keyDown _ _ _ language => language
  | keyRepeat _ _ _ _ lang => lang
  | keyUp _ _ _ => []

def releases : KeyStroke → Bool
  | keyUp _ _ _ => true
  | _ => false

end KeyStroke

/-- The versions of the server's end; each one adds to the one before it. -/
inductive KeyProxyVersion
  | v1_1
  | v1_2
  | v1_3
  | v1_4
  | v1_5
  | v1_6
  | v1_7
  | v1_8
  deriving DecidableEq, Repr

namespace ClientProxy1_1

def keyDown (key : KeyID) (mask : KeyModifierMask) (button : Nat) : Except String Bytes :=
  writef kMsgDKeyDown [.int key, .int mask.toNat, .int button]

def keyRepeat (key : KeyID) (mask : KeyModifierMask) (count : Int) (button : Nat) (lang : Bytes) : Except String Bytes :=
  writef kMsgDKeyRepeat [.int key, .int mask.toNat, .int (BitVec.ofInt 32 count).toNat, .int button, .string lang]

def keyUp (key : KeyID) (mask : KeyModifierMask) (button : Nat) : Except String Bytes :=
  writef kMsgDKeyUp [.int key, .int mask.toNat, .int button]

end ClientProxy1_1

def ClientProxy1_8.keyDown (key : KeyID) (mask : KeyModifierMask) (button : Nat) (language : Bytes) :
    Except String Bytes :=
  writef kMsgDKeyDownLang [.int key, .int mask.toNat, .int button, .string language]

/-- Only the last version overrides what the first one does. -/
def KeyProxyVersion.send (version : KeyProxyVersion) : KeyStroke → Except String Bytes
  | .keyDown key mask button language =>
    if version = .v1_8 then ClientProxy1_8.keyDown key mask button language else ClientProxy1_1.keyDown key mask button
  | .keyRepeat key mask count button lang => ClientProxy1_1.keyRepeat key mask count button lang
  | .keyUp key mask button => ClientProxy1_1.keyUp key mask button

/-- A count is sent as its low two bytes. -/
theorem writef_count (key mask count button : Nat) (lang : Bytes) :
    writef kMsgDKeyRepeat [.int key, .int mask, .int count, .int button, .string lang] =
      writef kMsgDKeyRepeat [.int key, .int mask, .int (count % 2 ^ 16), .int button, .string lang] := by
  have hcount : writeInt (count % 2 ^ 16) 2 = writeInt count 2 := congrArg Except.ok (bigEndian_mod 2 count)
  have hscan : scanFormat none kMsgDKeyRepeat = [.regular 68, .regular 75, .regular 82, .regular 80, .spec 2 .int,
      .spec 2 .int, .spec 2 .int, .spec 2 .int, .spec 0 .string] := by decide
  unfold writef
  rw [hscan]
  simp only [getLength, writeBuffer, hcount]

/-- The code of the message that a stroke becomes, and its fields. -/
def KeyProxyVersion.message (version : KeyProxyVersion) : KeyStroke → Bytes × List Field
  | .keyDown key mask button language =>
    if version = .v1_8 then
      (codeOf kMsgDKeyDownLang, [.int 2 key, .int 2 mask.toNat, .int 2 button, .string language])
    else (codeOf kMsgDKeyDown, [.int 2 key, .int 2 mask.toNat, .int 2 button])
  | .keyRepeat key mask count button lang => (codeOf kMsgDKeyRepeat,
      [.int 2 key, .int 2 mask.toNat, .int 2 (count % 2 ^ 16).toNat, .int 2 button, .string lang])
  | .keyUp key mask button => (codeOf kMsgDKeyUp, [.int 2 key, .int 2 mask.toNat, .int 2 button])

namespace KeyStroke

/-- What the fields of the messages can hold, but for the count. -/
structure Sendable (stroke : KeyStroke) : Prop where
  key : stroke.key < 2 ^ 16
  mask : stroke.mask.toNat < 2 ^ 16
  button : stroke.button < 2 ^ 16
  language : stroke.language.length ≤ protocolMaxStringLength

theorem Sendable.valid {stroke : KeyStroke} (h : stroke.Sendable) (version : KeyProxyVersion) :
    ∀ f ∈ (version.message stroke).2, f.Valid := by
  have hint : ∀ {v : Nat}, v < 2 ^ 16 → (Field.int 2 v).Valid := fun hv => ⟨.inr (.inl rfl), hv⟩
  obtain ⟨hkey, hmask, hbutton, hlanguage⟩ := h
  cases stroke with
  | keyDown key mask button language =>
    by_cases hversion : version = .v1_8
    · rw [KeyProxyVersion.message, if_pos hversion]
      simpa only [List.forall_mem_cons] using ⟨hint hkey, hint hmask, hint hbutton, hlanguage, List.forall_mem_nil _⟩
    · rw [KeyProxyVersion.message, if_neg hversion]
      simpa only [List.forall_mem_cons] using ⟨hint hkey, hint hmask, hint hbutton, List.forall_mem_nil _⟩
  | keyRepeat key mask count button lang =>
    have hcount : (count % 2 ^ 16).toNat < 2 ^ 16 := by omega
    simpa only [KeyProxyVersion.message, List.forall_mem_cons] using
      ⟨hint hkey, hint hmask, hint hcount, hint hbutton, hlanguage, List.forall_mem_nil _⟩
  | keyUp key mask button =>
    simpa only [KeyProxyVersion.message, List.forall_mem_cons] using
      ⟨hint hkey, hint hmask, hint hbutton, List.forall_mem_nil _⟩

private theorem text_int (v : Nat) : (Field.int 2 v).text = ascii "%2i" := by
  have htext : [byte '%', Field.digit 2, byte 'i'] = ascii "%2i" := by decide
  exact htext

private theorem text_string (v : Bytes) : (Field.string v).text = ascii "%s" := by
  have htext : [byte '%', byte 's'] = ascii "%s" := by decide
  exact htext

/-- What follows the code in the formats of key messages. -/
theorem format_key (key mask button : Nat) : formatOf [.int 2 key, .int 2 mask, .int 2 button] = ascii "%2i%2i%2i" := by
  simp only [formatOf, List.flatMap_cons, List.flatMap_nil, text_int]
  decide

theorem format_keyLang (key mask button : Nat) (lang : Bytes) :
    formatOf [.int 2 key, .int 2 mask, .int 2 button, .string lang] = ascii "%2i%2i%2i%s" := by
  simp only [formatOf, List.flatMap_cons, List.flatMap_nil, text_int, text_string]
  decide

theorem format_keyRepeat (key mask count button : Nat) (lang : Bytes) :
    formatOf [.int 2 key, .int 2 mask, .int 2 count, .int 2 button, .string lang] = ascii "%2i%2i%2i%2i%s" := by
  simp only [formatOf, List.flatMap_cons, List.flatMap_nil, text_int, text_string]
  decide

theorem drop_kMsgDKeyDown : kMsgDKeyDown.drop 4 = ascii "%2i%2i%2i" := by decide
theorem drop_kMsgDKeyDownLang : kMsgDKeyDownLang.drop 4 = ascii "%2i%2i%2i%s" := by decide
theorem drop_kMsgDKeyRepeat : kMsgDKeyRepeat.drop 4 = ascii "%2i%2i%2i%2i%s" := by decide
theorem drop_kMsgDKeyUp : kMsgDKeyUp.drop 4 = ascii "%2i%2i%2i" := by decide

/-- A format that is a code and then fields. -/
theorem writef_message {fmt : Bytes} {fields : List Field} (hfmt : fmt.drop 4 = formatOf fields)
    (hcode : ∀ c ∈ codeOf fmt, c ≠ 0 ∧ c ≠ byte '%') (hvalid : ∀ f ∈ fields, f.Valid)
    (hlen : (bytesOf fields).length < 2 ^ 32 - 4) : writef fmt (argsOf fields) = .ok (codeOf fmt ++ bytesOf fields) := by
  have hsplit : fmt = codeOf fmt ++ formatOf fields := by rw [← hfmt, codeOf, List.take_append_drop]
  have hcodeLength : (codeOf fmt).length ≤ 4 := List.length_take_le 4 fmt
  have hwrite := writef_code hcode (fun f hf => (hvalid f hf).encodable)
    (show (codeOf fmt).length + (bytesOf fields).length < 2 ^ 32 by omega)
  rwa [← hsplit] at hwrite

theorem length_message (version : KeyProxyVersion) (stroke : KeyStroke) :
    (bytesOf (version.message stroke).2).length ≤ 12 + stroke.language.length := by
  cases stroke with
  | keyDown key mask button language =>
    unfold KeyProxyVersion.message
    by_cases hversion : version = .v1_8 <;> simp [hversion, bytesOf, Field.bytes, KeyStroke.language] <;> omega
  | keyRepeat key mask count button lang =>
    simp [KeyProxyVersion.message, bytesOf, Field.bytes, KeyStroke.language]
    omega
  | keyUp key mask button => simp [KeyProxyVersion.message, bytesOf, Field.bytes, KeyStroke.language]

theorem length_messageCode (version : KeyProxyVersion) (stroke : KeyStroke) :
    (version.message stroke).1.length = 4 ∧ bytesOf (version.message stroke).2 ≠ [] := by
  cases stroke with
  | keyDown key mask button language =>
    by_cases hversion : version = .v1_8
    · rw [KeyProxyVersion.message, if_pos hversion]
      exact ⟨rfl, List.cons_ne_nil _ _⟩
    · rw [KeyProxyVersion.message, if_neg hversion]
      exact ⟨rfl, List.cons_ne_nil _ _⟩
  | keyRepeat key mask count button lang => exact ⟨rfl, List.cons_ne_nil _ _⟩
  | keyUp key mask button => exact ⟨rfl, List.cons_ne_nil _ _⟩

/-- The message holds the code and the fields. -/
theorem Sendable.send_eq {stroke : KeyStroke} (h : stroke.Sendable) (version : KeyProxyVersion) :
    version.send stroke = .ok ((version.message stroke).1 ++ bytesOf (version.message stroke).2) := by
  have hvalid := h.valid version
  have hlen : (bytesOf (version.message stroke).2).length < 2 ^ 32 - 4 := by
    have hlength := length_message version stroke
    have hlanguage := h.language
    unfold protocolMaxStringLength at hlanguage
    omega
  cases stroke with
  | keyDown key mask button language =>
    by_cases hversion : version = .v1_8
    · rw [KeyProxyVersion.message, if_pos hversion] at hvalid hlen ⊢
      rw [KeyProxyVersion.send, if_pos hversion]
      exact writef_message (drop_kMsgDKeyDownLang.trans (format_keyLang _ _ _ _).symm) (by decide +kernel) hvalid hlen
    · rw [KeyProxyVersion.message, if_neg hversion] at hvalid hlen ⊢
      rw [KeyProxyVersion.send, if_neg hversion]
      exact writef_message (drop_kMsgDKeyDown.trans (format_key _ _ _).symm) (by decide +kernel) hvalid hlen
  | keyRepeat key mask count button lang =>
    have hcount : (BitVec.ofInt 32 count).toNat % 2 ^ 16 = (count % 2 ^ 16).toNat := by
      rw [BitVec.toNat_ofInt]
      omega
    change ClientProxy1_1.keyRepeat key mask count button lang = _
    unfold ClientProxy1_1.keyRepeat
    rw [writef_count, hcount]
    exact writef_message (drop_kMsgDKeyRepeat.trans (format_keyRepeat _ _ _ _ _).symm) (by decide +kernel) hvalid hlen
  | keyUp key mask button =>
    exact writef_message (drop_kMsgDKeyUp.trans (format_key _ _ _).symm) (by decide +kernel) hvalid hlen

end KeyStroke
end Synergy
