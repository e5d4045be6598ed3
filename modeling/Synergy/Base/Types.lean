import Mathlib.Data.List.Infix
import Mathlib.Data.List.TakeWhile
import Synergy.Base.Text
import Synergy.Lib.SortedMap

/-! Edge directions, key masks and the option codes that the configuration and
the protocol share. -/
namespace Synergy

/-- The edge of a screen that the cursor crosses. `NoDirection` is the absence
of a direction. -/
inductive Direction where
  | left | right | top | bottom
  deriving DecidableEq, Repr, Inhabited

namespace Direction

/-- The value of the enumerator. -/
def toNat : Direction → Nat
  | left => 1
  | right => 2
  | top => 3
  | bottom => 4

/-- `DirectionMask` of an edge. -/
def mask (d : Direction) : Nat := 1 <<< d.toNat

/-- The edge that the cursor comes in by. -/
def opposite : Direction → Direction
  | left => right
  | right => left
  | top => bottom
  | bottom => top

/-- The cursor crosses the edge along the x axis. -/
def horizontal : Direction → Bool
  | left | right => true
  | top | bottom => false

/-- Crossing the edge makes the coordinate smaller. -/
def back : Direction → Bool
  | left | top => true
  | right | bottom => false

theorem toNat_injective : Function.Injective toNat := by
  intro a b h
  cases a <;> cases b <;> first | rfl | cases h

end Direction

/-- How clients and server communicate; peers are authenticated at the last level only. -/
inductive SecurityLevel
  | plainText
  | encryptedTestOnly
  | peerAuth
  deriving DecidableEq, Repr

/-- Key identifier, a 32-bit value. -/
abbrev KeyID := Nat
abbrev KeyModifierMask := BitVec 32
/-- Mouse button number, an 8-bit value. -/
abbrev ButtonID := BitVec 8

def keyModifierShift : KeyModifierMask := 0x0001
def keyModifierControl : KeyModifierMask := 0x0002
def keyModifierAlt : KeyModifierMask := 0x0004
def keyModifierMeta : KeyModifierMask := 0x0008
def keyModifierSuper : KeyModifierMask := 0x0010
def keyModifierAltGr : KeyModifierMask := 0x0020
def keyModifierCapsLock : KeyModifierMask := 0x1000
def keyModifierNumLock : KeyModifierMask := 0x2000
def keyModifierScrollLock : KeyModifierMask := 0x4000

abbrev KeyModifierID := Nat
def kKeyModifierIDNull : KeyModifierID := 0
def kKeyModifierIDShift : KeyModifierID := 1
def kKeyModifierIDControl : KeyModifierID := 2
def kKeyModifierIDAlt : KeyModifierID := 3
def kKeyModifierIDMeta : KeyModifierID := 4
def kKeyModifierIDSuper : KeyModifierID := 5
def kKeyModifierIDAltGr : KeyModifierID := 6
def kKeyModifierIDLast : KeyModifierID := 7

def kKeyNone : KeyID := 0x0000
def kKeyScrollLock : KeyID := 0xEF14
def kKeyShift_L : KeyID := 0xEFE1
def kKeyShift_R : KeyID := 0xEFE2
def kKeyControl_L : KeyID := 0xEFE3
def kKeyControl_R : KeyID := 0xEFE4
def kKeyMeta_L : KeyID := 0xEFE7
def kKeyMeta_R : KeyID := 0xEFE8
def kKeyAlt_L : KeyID := 0xEFE9
def kKeyAlt_R : KeyID := 0xEFEA
def kKeySuper_L : KeyID := 0xEFEB
def kKeySuper_R : KeyID := 0xEFEC
def kKeyAltGr : KeyID := 0xEF7E
def kKeyCapsLock : KeyID := 0xEFE5
def kKeyNumLock : KeyID := 0xEF7F
def kKeyCompose : KeyID := 0xEF20
def kKeySetModifiers : KeyID := 0xEE06
def kKeyClearModifiers : KeyID := 0xEE07
def kKeyNextGroup : KeyID := 0xEE08
def kKeyPrevGroup : KeyID := 0xEE0A

abbrev OptionID := Nat
/-- A signed 32-bit option value. -/
abbrev OptionValue := Int

/-- Four characters packed into an option identifier, the first one highest. -/
def optionCode (a b c d : Char) : OptionID :=
  a.toNat <<< 24 ||| b.toNat <<< 16 ||| c.toNat <<< 8 ||| d.toNat

def kOptionHalfDuplexCapsLock : OptionID := optionCode 'H' 'D' 'C' 'L'
def kOptionHalfDuplexNumLock : OptionID := optionCode 'H' 'D' 'N' 'L'
def kOptionHalfDuplexScrollLock : OptionID := optionCode 'H' 'D' 'S' 'L'
def kOptionModifierMapForShift : OptionID := optionCode 'M' 'M' 'F' 'S'
def kOptionModifierMapForControl : OptionID := optionCode 'M' 'M' 'F' 'C'
def kOptionModifierMapForAlt : OptionID := optionCode 'M' 'M' 'F' 'A'
def kOptionModifierMapForAltGr : OptionID := optionCode 'M' 'M' 'F' 'G'
def kOptionModifierMapForMeta : OptionID := optionCode 'M' 'M' 'F' 'M'
def kOptionModifierMapForSuper : OptionID := optionCode 'M' 'M' 'F' 'R'
def kOptionHeartbeat : OptionID := optionCode 'H' 'A' 'R' 'T'
def kOptionScreenSwitchCorners : OptionID := optionCode 'S' 'S' 'C' 'M'
def kOptionScreenSwitchCornerSize : OptionID := optionCode 'S' 'S' 'C' 'S'
def kOptionScreenSwitchDelay : OptionID := optionCode 'S' 'S' 'W' 'T'
def kOptionScreenSwitchTwoTap : OptionID := optionCode 'S' 'S' 'T' 'T'
def kOptionScreenSwitchNeedsShift : OptionID := optionCode 'S' 'S' 'N' 'S'
def kOptionScreenSwitchNeedsControl : OptionID := optionCode 'S' 'S' 'N' 'C'
def kOptionScreenSwitchNeedsAlt : OptionID := optionCode 'S' 'S' 'N' 'A'
def kOptionXTestXineramaUnaware : OptionID := optionCode 'X' 'T' 'X' 'U'
def kOptionScreenPreserveFocus : OptionID := optionCode 'S' 'F' 'O' 'C'
def kOptionRelativeMouseMoves : OptionID := optionCode 'M' 'D' 'L' 'T'
def kOptionWin32KeepForeground : OptionID := optionCode '_' 'K' 'F' 'W'
def kOptionDefaultLockToScreenState : OptionID := optionCode 'L' 'T' 'S' 'S'
def kOptionDisableLockToScreen : OptionID := optionCode 'D' 'L' 'T' 'S'
def kOptionClipboardSharing : OptionID := optionCode 'C' 'L' 'P' 'S'
def kOptionClipboardSharingSize : OptionID := optionCode 'C' 'L' 'S' 'Z'

def topLeftCornerMask : Nat := 1 <<< 0
def topRightCornerMask : Nat := 1 <<< 1
def bottomLeftCornerMask : Nat := 1 <<< 2
def bottomRightCornerMask : Nat := 1 <<< 3
def noCornerMask : Nat := 0
def allCornersMask : Nat :=
  topLeftCornerMask ||| topRightCornerMask ||| bottomLeftCornerMask ||| bottomRightCornerMask

end Synergy

/-! Key event data and the encoding of destination screens as one string. -/
namespace Synergy
open Synergy.Lib

/-- A `std::set<std::string>`. -/
abbrev StringSet := SortedMap (fun s : Str => s) Unit

/-- The names in the set, in iteration order. -/
def StringSet.names (s : StringSet) : List Str := s.entries.map Prod.fst

/-- What a C string function sees of a `std::string`. -/
def cStr (s : Str) : Str := s.takeWhile (· ≠ '\x00')

theorem cStr_eq_self {s : Str} (h : '\x00' ∉ s) : cStr s = s := by
  rw [cStr, List.takeWhile_eq_self_iff]
  intro c hc
  simpa using fun e : c = '\x00' => h (e ▸ hc)

/-- `strstr(haystack, needle) != nullptr`. -/
def strstr (haystack needle : Str) : Bool := decide (needle <:+: haystack)

structure KeyInfo where
  key : KeyID
  mask : KeyModifierMask
  button : Nat
  count : Int
  screens : Str
  deriving DecidableEq

namespace KeyInfo

/-- A null pointer or an empty C string. -/
def isDefault : Option Str → Bool
  | none => true
  | some s => s.isEmpty

def contains (screens : Option Str) (name : Str) : Bool :=
  match screens with
  | none => false
  | some [] => false
  | some ('*' :: _) => true
  | some s => strstr s (cStr (':' :: name ++ [':']))

private def joinLoop (screens : Str) : List Str → Str
  | [] => screens
  | i :: rest =>
    if i = ['*'] then ['*']
    else joinLoop ((if screens.isEmpty then [':'] else screens) ++ i ++ [':']) rest

/-- Names are surrounded by ':'. The string is empty if there are no
destinations and "*" means all destinations. -/
def join (destinations : StringSet) : Str := joinLoop [] destinations.names

private theorem joinLoop_eq (screens : Str) {l : List Str} (h : ['*'] ∉ l) :
    joinLoop screens l = if l = [] then screens
      else (if screens.isEmpty then [':'] else screens) ++ l.flatMap (· ++ [':']) := by
  induction l generalizing screens with
  | nil => rfl
  | cons n l ih =>
    have hn : n ≠ ['*'] := fun q => h (q ▸ List.mem_cons_self)
    rw [joinLoop, if_neg hn, ih _ fun q => h (List.mem_cons_of_mem _ q), if_neg (List.cons_ne_nil _ _)]
    split <;> simp_all

private theorem joinLoop_star {screens : Str} {l : List Str} (h : ['*'] ∈ l) : joinLoop screens l = ['*'] := by
  induction l generalizing screens with
  | nil => cases h
  | cons n l ih =>
    rw [joinLoop]
    split
    · rfl
    · exact ih ((List.mem_cons.mp h).resolve_left (by simpa [eq_comm] using ‹¬ n = ['*']›))

/-- A name between separators occurs in a list of separated names only as one of them. -/
private theorem infix_separated_iff {name : Str} (hname : ':' ∉ name) {l : List Str} (hl : ∀ n ∈ l, ':' ∉ n) :
    (':' :: (name ++ [':'])) <:+: (':' :: l.flatMap (· ++ [':'])) ↔ name ∈ l := by
  have hskip : ∀ w n rest : Str, ':' ∉ n → (':' :: w <:+: n ++ rest ↔ ':' :: w <:+: rest) := by
    intro w n rest hn
    induction n with
    | nil => rfl
    | cons c n ih =>
      have hc : ':' ≠ c := fun q => hn (q ▸ List.mem_cons_self)
      rw [List.cons_append, List.infix_cons_iff, ih fun q => hn (List.mem_cons_of_mem _ q)]
      simp [List.cons_prefix_cons, hc]
  have hfirst : ∀ n rest : Str, ':' ∉ n → ((name ++ [':']) <+: (n ++ ':' :: rest) ↔ name = n) := by
    intro n rest hn
    constructor
    · rintro ⟨r, hr⟩
      rw [List.append_assoc, List.singleton_append] at hr
      have htake := congrArg (List.takeWhile (· ≠ ':')) hr
      have hfree : ∀ a : Str, ':' ∉ a → ∀ c ∈ a, decide (c ≠ ':') = true := fun a ha c hc =>
        decide_eq_true fun q => ha (q ▸ hc)
      rw [List.takeWhile_append_of_pos (hfree name hname), List.takeWhile_append_of_pos (hfree n hn)] at htake
      simpa using htake
    · rintro rfl
      exact ⟨rest, by simp⟩
  induction l with
  | nil =>
    simp only [List.flatMap_nil, List.not_mem_nil, iff_false]
    intro hinfix
    simpa using hinfix.length_le
  | cons n l ih =>
    have hn := hl n List.mem_cons_self
    have hrest : (':' :: (name ++ [':'])) <:+: (':' :: l.flatMap (· ++ [':'])) ↔ name ∈ l :=
      ih fun m hm => hl m (List.mem_cons_of_mem _ hm)
    rw [List.infix_cons_iff, List.flatMap_cons, List.append_assoc n, List.singleton_append, hskip _ n _ hn,
      hrest, List.cons_prefix_cons, hfirst n _ hn]
    simp

/-- The encoded destinations contain exactly the names they were made of, or
every name when there is none or one of them is "*". -/
theorem contains_join {destinations : StringSet} (hd : ∀ n ∈ destinations.names, ':' ∉ n ∧ '\x00' ∉ n) {name : Str}
    (hname : ':' ∉ name ∧ '\x00' ∉ name) :
    contains (if isDefault (some (cStr (join destinations))) then some ['*'] else some (cStr (join destinations))) name
      = true ↔ destinations.names = [] ∨ ['*'] ∈ destinations.names ∨ name ∈ destinations.names := by
  by_cases hstar : ['*'] ∈ destinations.names
  · have hj : join destinations = ['*'] := joinLoop_star hstar
    simp [hj, hstar, cStr, isDefault, contains]
  · have hj := joinLoop_eq [] hstar
    by_cases hnil : destinations.names = []
    · have hj : join destinations = [] := by rw [join, hnil]; rfl
      simp [hj, hnil, cStr, isDefault, contains]
    · rw [if_neg hnil] at hj
      have hjoin : join destinations = ':' :: destinations.names.flatMap (· ++ [':']) := hj
      have hnul : '\x00' ∉ join destinations := by
        rw [hjoin]
        simp only [List.mem_cons, List.mem_flatMap, List.mem_append, not_or]
        refine ⟨by decide, ?_⟩
        rintro ⟨n, hn, hc⟩
        rcases hc with hc | hc
        · exact (hd n hn).2 hc
        · simp at hc
      have hneedle : cStr (':' :: name ++ [':']) = ':' :: (name ++ [':']) := by
        rw [cStr_eq_self (by simp [hname.2])]
        rfl
      have hcontains : ∀ l : Str, contains (some (':' :: l)) name = strstr (':' :: l) (cStr (':' :: name ++ [':'])) :=
        fun l => rfl
      rw [cStr_eq_self hnul, hjoin, isDefault, List.isEmpty_cons, if_neg (by decide), hcontains, hneedle, strstr,
        decide_eq_true_eq, infix_separated_iff hname.1 fun n hn => (hd n hn).1]
      simp [hnil, hstar]

theorem contains_join_two :
    let destinations : StringSet := (SortedMap.empty.insert ['a'] ()).insert ['b'] ()
    contains (if isDefault (some (cStr (join destinations))) then some ['*'] else some (cStr (join destinations))) ['b']
      = true ↔ destinations.names = [] ∨ ['*'] ∈ destinations.names ∨ ['b'] ∈ destinations.names :=
  contains_join (by decide) (by decide)

private def splitLoop (fuel : Nat) (i : Str) (dst : StringSet) : StringSet :=
  match fuel, i with
  | 0, _ => dst
  | _, [] => dst
  | fuel + 1, i =>
    -- a list without the trailing separator gives its remainder as the last name
    if ':' ∈ i then
      splitLoop fuel (i.dropWhile (· ≠ ':')).tail (dst.insert (i.takeWhile (· ≠ ':')) ())
    else dst.insert i ()

def split : Option Str → StringSet
  | none => .empty
  | some [] => .empty
  | some ('*' :: _) => SortedMap.empty.insert ['*'] ()
  | some (_ :: i) => splitLoop i.length i .empty

end KeyInfo
end Synergy
