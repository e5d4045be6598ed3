import Synergy.Server.Config
import Synergy.Server.ConfigTokens
import Synergy.Server.ScreenNames

/-! The sections of a configuration, read line by line. -/
namespace Synergy
open ConfigReadContext

def kDefaultPort : Int := 24800

namespace Config

/-- A line that names the screen that the lines behind it are about. -/
def isHeader (line : Str) : Bool := line.getLast? = some ':'

/-- The options of a screen: their names, and how their values are read. -/
def screenArguments : List (String × OptionID × (Str → Except String OptionValue)) :=
  [("halfDuplexCapsLock", kOptionHalfDuplexCapsLock, parseBoolean),
    ("halfDuplexNumLock", kOptionHalfDuplexNumLock, parseBoolean),
    ("halfDuplexScrollLock", kOptionHalfDuplexScrollLock, parseBoolean),
    ("shift", kOptionModifierMapForShift, parseModifierKey),
    ("ctrl", kOptionModifierMapForControl, parseModifierKey),
    ("alt", kOptionModifierMapForAlt, parseModifierKey),
    ("altgr", kOptionModifierMapForAltGr, parseModifierKey),
    ("meta", kOptionModifierMapForMeta, parseModifierKey),
    ("super", kOptionModifierMapForSuper, parseModifierKey),
    ("xtestIsXineramaUnaware", kOptionXTestXineramaUnaware, parseBoolean),
    ("switchCorners", kOptionScreenSwitchCorners, parseCorners),
    ("switchCornerSize", kOptionScreenSwitchCornerSize, parseInt),
    ("preserveFocus", kOptionScreenPreserveFocus, parseBoolean)]

def screensArgument (c : Config) (screen line : Str) : Except String Config :=
  let inName (ch : Char) : Bool := !isBlank ch && ch ≠ '='
  let name := line.takeWhile inName
  if name.isEmpty then .error "missing argument name"
  else if ((line.dropWhile inName).dropWhile isBlank).head? ≠ some '=' then .error "missing ="
  else
    let value := (((line.dropWhile inName).dropWhile isBlank).drop 1).dropWhile isBlank
    match screenArguments.find? fun e => e.1.toList = name with
    | none => .error ("unknown argument \"" ++ String.ofList name ++ "\"")
    | some (_, option, parse) =>
      match parse value with
      | .error error => .error error
      | .ok value => .ok ((c.addOption screen option value).getD c)

def screensLine (st : Config × Str) (line : Str) : Except String (Config × Str) :=
  if isHeader line then
    if !isValidScreenName line.dropLast then
      .error ("invalid screen name \"" ++ String.ofList line.dropLast ++ "\"")
    else
      match st.1.addScreen line.dropLast with
      | none => .error ("duplicate screen name \"" ++ String.ofList line.dropLast ++ "\"")
      | some c => .ok (c, line.dropLast)
  else if st.2.isEmpty then .error "argument before first screen"
  else (screensArgument st.1 st.2 line).map fun c => (c, st.2)

def readSectionScreens (c : Config) (s : ConfigReadContext) :
    Except ServerConfigReadException ((Config × Str) × ConfigReadContext) :=
  eachLine "unexpected end of screens section" screensLine s.lastLine (c, []) s.lines

/-- A header of the sections that are about known screens. -/
def knownScreen (c : Config) (screen : Str) : Except String (Config × Str) :=
  if !c.isScreen screen then .error ("unknown screen name \"" ++ String.ofList screen ++ "\"")
  else if !c.isCanonicalName screen then .error "cannot use screen name alias here"
  else .ok (c, screen)

def aliasesLine (st : Config × Str) (line : Str) : Except String (Config × Str) :=
  if isHeader line then knownScreen st.1 line.dropLast
  else if st.2.isEmpty then .error "argument before first screen"
  else if !isValidScreenName line then .error ("invalid screen alias \"" ++ String.ofList line ++ "\"")
  else
    match st.1.addAlias st.2 line with
    | none => .error ("alias \"" ++ String.ofList line ++ "\" is already used")
    | some c => .ok (c, st.2)

def readSectionAliases (c : Config) (s : ConfigReadContext) :
    Except ServerConfigReadException ((Config × Str) × ConfigReadContext) :=
  eachLine "unexpected end of aliases section" aliasesLine s.lastLine (c, []) s.lines

def sideNamed (side : Str) : Option Direction :=
  if side = "left".toList then some .left
  else if side = "right".toList then some .right
  else if side = "up".toList then some .top
  else if side = "down".toList then some .bottom
  else none

/-- The ends of an interval, unless they are ends that `CellEdge` asserts against. -/
def properInterval : Double × Double → Option Interval
  | (.finite first, .finite second) =>
    if h : 0 ≤ first ∧ first < second ∧ second ≤ 1 then some ⟨first, second, h.1, h.2.1, h.2.2⟩ else none
  | _ => none

/-- What links do whose intervals `CellEdge` asserts against. -/
abbrev AssertedLink := Config → Str → Direction → Double × Double → Str → Double × Double → Option Config

/-- What the other options line does: the rule that a condition and its actions make. -/
abbrev RuleReader := Config → Token → Token → Str → Except String Config

/-- What is done with lines that are no rules. -/
def noRule : RuleReader := fun _ _ _ _ => .error "unknown argument"

/-- An assertion is the end of the program. -/
def noLink : AssertedLink := fun _ _ _ _ _ _ => none

section
variable (asserted : AssertedLink)

def connectParsed (c : Config) (screen : Str) (dir : Direction) (src : Double × Double) (dstScreen : Str)
    (dst : Double × Double) : Option Config :=
  match properInterval src, properInterval dst with
  | some srcInterval, some dstInterval => c.connect screen dir srcInterval dstScreen dstInterval
  | _, _ => asserted c screen dir src dstScreen dst

def linksArgument (c : Config) (screen line : Str) : Except String Config := do
  let (side, rest) ← parseNameWithArgs "link" ['='] line
  let (dstScreen, _) ← parseNameWithArgs "screen" [] (rest.drop 1)
  let srcInterval ← parseInterval side.args
  let dstInterval ← parseInterval dstScreen.args
  match sideNamed side.name with
  | none => .error ("unknown side \"" ++ String.ofList side.name ++ "\" in link")
  | some dir =>
    if !c.isScreen dstScreen.name then
      .error ("unknown screen name \"" ++ String.ofList dstScreen.name ++ "\"")
    else
      match connectParsed asserted c screen dir srcInterval dstScreen.name dstInterval with
      | none => .error "overlapping range"
      | some c => .ok c

def linksLine (st : Config × Str) (line : Str) : Except String (Config × Str) :=
  if isHeader line then knownScreen st.1 line.dropLast
  else if st.2.isEmpty then .error "argument before first screen"
  else (linksArgument asserted st.1 st.2 line).map fun c => (c, st.2)

def readSectionLinks (c : Config) (s : ConfigReadContext) :
    Except ServerConfigReadException ((Config × Str) × ConfigReadContext) :=
  eachLine "unexpected end of links section" (linksLine asserted) s.lastLine (c, []) s.lines

end

/-- The global options: their names, and how their values are read. -/
def globalArguments : List (String × OptionID × (Str → Except String OptionValue)) :=
  [("heartbeat", kOptionHeartbeat, parseInt),
    ("switchCorners", kOptionScreenSwitchCorners, parseCorners),
    ("switchCornerSize", kOptionScreenSwitchCornerSize, parseInt),
    ("switchDelay", kOptionScreenSwitchDelay, parseInt),
    ("switchDoubleTap", kOptionScreenSwitchTwoTap, parseInt),
    ("switchNeedsShift", kOptionScreenSwitchNeedsShift, parseBoolean),
    ("switchNeedsControl", kOptionScreenSwitchNeedsControl, parseBoolean),
    ("switchNeedsAlt", kOptionScreenSwitchNeedsAlt, parseBoolean),
    ("relativeMouseMoves", kOptionRelativeMouseMoves, parseBoolean),
    ("win32KeepForeground", kOptionWin32KeepForeground, parseBoolean),
    ("defaultLockToScreenState", kOptionDefaultLockToScreenState, parseBoolean),
    ("disableLockToScreen", kOptionDisableLockToScreen, parseBoolean),
    ("clipboardSharing", kOptionClipboardSharing, parseBoolean),
    ("clipboardSharingSize", kOptionClipboardSharingSize, parseInt)]

section
variable (nameToAddr : Str → Except SocketAddressError (List Nat)) (readRule : RuleReader)

/-- The value that a plain option is given; nothing when the name is not one of a plain option. -/
def plainOption (c : Config) (name value : Str) : Option (Except String Config) :=
  if name = "address".toList then
    some (match (NetworkAddress.ofHostname value kDefaultPort).bind (NetworkAddress.resolve nameToAddr) with
      | .error e => .error ("invalid address argument " ++ e.getWhat)
      | .ok address => .ok { c with synergyAddress := address })
  else
    (globalArguments.find? fun e => e.1.toList = name).map fun e =>
      (e.2.2 value).map fun v => (c.addOption [] e.2.1 v).getD c

def optionsLine (c : Config) (line : Str) : Except String Config := do
  let (name, rest) ← parseNameWithArgs "name" ['='] line
  let (value, rest) ← parseNameWithArgs "value" [',', ';', '\n'] (rest.drop 1)
  -- the old protocol name, which is skipped
  if name.name = "protocol".toList then .ok c
  else
    match plainOption nameToAddr c name.name value.name with
    | some handled =>
      match handled with
      | .error error => .error error
      | .ok c =>
        if rest.head? = some ',' ∨ rest.head? = some ';' then
          .error ("too many arguments for: " ++ String.ofList name.name)
        else .ok c
    | none => readRule c name value rest

def readSectionOptions (c : Config) (s : ConfigReadContext) :
    Except ServerConfigReadException (Config × ConfigReadContext) :=
  eachLine "unexpected end of options section" (optionsLine nameToAddr readRule) s.lastLine c s.lines

end
end Config
end Synergy

/-! Which names the sections of screens and of aliases admit, against the grammar of names.
The test of names looks at no character, so it is the file that has to follow the grammar. -/
namespace Synergy
open Synergy.Lib ConfigReadContext

namespace Config

/-- The names that a configuration has and an earlier one has not follow the grammar. -/
def AdmitsScreenNames (before after : Config) : Prop :=
  ∀ name ∈ after.nameToCanonicalName.keys, name ∉ before.nameToCanonicalName.keys → ScreenName name

/-- One more name, if any, which is new and not empty. -/
structure Admits (before after : NameMap) (name : Option Str) : Prop where
  keys : ∀ k, k ∈ after.keys ↔ k ∈ before.keys ∨ name = some k
  fresh : ∀ k, name = some k → k ∉ before.keys ∧ k ≠ []

private theorem admits_none (names : NameMap) : Admits names names none := ⟨by simp, by simp⟩

private theorem admits_insert {names : NameMap} {name canonical : Str} (h : names.contains name = false)
    (hname : name ≠ []) : Admits names (names.insert name canonical) (some name) := by
  refine ⟨fun k => ?_, ?_⟩
  · rw [names.mem_keys_insert h, Option.some_inj, or_comm, eq_comm]
  · rintro k hk
    obtain rfl := Option.some.inj hk
    exact ⟨fun hm => by simp [(names.contains_iff_keys name).mpr ⟨name, hm, rfl⟩] at h, hname⟩

/-- A section whose turns each admit a name of their line admits these names. -/
private theorem admits_run {unexpectedEnd : String} {turn : Config × Str → Str → Except String (Config × Str)}
    {admitted : Str → Option Str} {lastLine : Nat} {st st' : Config × Str} {lines : List (Except ServerConfigReadException ConfigLine)}
    {s : ConfigReadContext} (h : eachLine unexpectedEnd turn lastLine st lines = .ok (st', s))
    (hturn : ∀ st line st', turn st line = .ok st' →
      Admits st.1.nameToCanonicalName st'.1.nameToCanonicalName (admitted line)) :
    AdmitsScreenNames st.1 st'.1 ↔ ∀ line ∈ sectionLines lines, ∀ name, admitted line = some name → WellSpelled name := by
  have hrun := eachLine_run (R := fun st lines st' =>
    (∀ k, k ∈ st'.1.nameToCanonicalName.keys ↔
      k ∈ st.1.nameToCanonicalName.keys ∨ ∃ line ∈ lines, admitted line = some k) ∧
    ∀ line ∈ lines, ∀ k, admitted line = some k → k ∉ st.1.nameToCanonicalName.keys ∧ k ≠ [])
    (fun st => ⟨by simp, by simp⟩) ?_ h
  · obtain ⟨hkeys, hfresh⟩ := hrun
    constructor
    · intro hadmits line hline name hname
      obtain ⟨hnew, hne⟩ := hfresh line hline name hname
      have hscreen := hadmits name ((hkeys name).mpr (.inr ⟨line, hline, hname⟩)) hnew
      exact ((screenName_iff name).mp hscreen).2
    · intro hspelled name hname hnew
      rcases (hkeys name).mp hname with hold | ⟨line, hline, hadmitted⟩
      · exact absurd hold hnew
      · exact (screenName_iff name).mpr ⟨(hfresh line hline name hadmitted).2, hspelled line hline name hadmitted⟩
  · rintro st line next lines st' hnext ⟨hkeys, hfresh⟩
    have hone := hturn st line next hnext
    refine ⟨fun k => ?_, ?_⟩
    · rw [hkeys, hone.keys]
      simp [or_assoc]
    · intro other hother k hk
      rcases List.mem_cons.mp hother with rfl | hother
      · exact hone.fresh k hk
      · obtain ⟨hnew, hne⟩ := hfresh other hother k hk
        exact ⟨fun hm => hnew ((hone.keys k).mpr (.inl hm)), hne⟩

theorem names_addOption (c : Config) (name : Str) (option : OptionID) (value : OptionValue) :
    ((c.addOption name option value).getD c).nameToCanonicalName = c.nameToCanonicalName := by
  unfold addOption
  split_ifs
  · rfl
  · cases c.map.find? name <;> rfl

private theorem names_screensArgument {c c' : Config} {screen line : Str}
    (h : screensArgument c screen line = .ok c') : c'.nameToCanonicalName = c.nameToCanonicalName := by
  unfold screensArgument at h
  dsimp only at h
  split_ifs at h
  split at h
  · cases h
  · split at h
    · cases h
    · cases h
      exact names_addOption _ _ _ _

theorem screensLine_admits {st st' : Config × Str} {line : Str} (h : screensLine st line = .ok st') :
    Admits st.1.nameToCanonicalName st'.1.nameToCanonicalName (if isHeader line then some line.dropLast else none) := by
  unfold screensLine at h
  by_cases hheader : isHeader line = true
  · rw [if_pos hheader] at h ⊢
    split_ifs at h with hvalid
    have hname : line.dropLast ≠ [] := by
      intro he
      simp [he, isValidScreenName] at hvalid
    cases hadd : st.1.addScreen line.dropLast with
    | none => simp [hadd] at h
    | some c =>
      rw [hadd] at h
      cases h
      unfold addScreen at hadd
      split_ifs at hadd with hcontains
      cases hadd
      exact admits_insert (by simpa using hcontains) hname
  · rw [if_neg hheader] at h ⊢
    split_ifs at h
    cases harg : screensArgument st.1 st.2 line with
    | error error => simp [harg, Except.map] at h
    | ok c =>
      rw [harg] at h
      cases h
      rw [names_screensArgument harg]
      exact admits_none _

theorem aliasesLine_admits {st st' : Config × Str} {line : Str} (h : aliasesLine st line = .ok st') :
    Admits st.1.nameToCanonicalName st'.1.nameToCanonicalName (if isHeader line then none else some line) := by
  unfold aliasesLine at h
  by_cases hheader : isHeader line = true
  · rw [if_pos hheader] at h ⊢
    unfold knownScreen at h
    split_ifs at h
    cases h
    exact admits_none _
  · rw [if_neg hheader] at h ⊢
    split_ifs at h with hempty hvalid
    have hname : line ≠ [] := by
      rintro rfl
      exact hvalid rfl
    cases hadd : st.1.addAlias st.2 line with
    | none => simp [hadd] at h
    | some c =>
      rw [hadd] at h
      cases h
      unfold addAlias at hadd
      split_ifs at hadd with hcontains
      cases hadd
      exact admits_insert (by simpa using hcontains) hname

/-- The test agrees with the grammar on the names that are spelled well, the empty one among them, and a
section admits names of the grammar alone when its lines have no others. -/
theorem isValidScreenName_iff (name : Str) :
    ((isValidScreenName name = true ↔ ScreenName name) ↔ WellSpelled name) ∧
    (∀ c s c' screen s', readSectionScreens c s = .ok ((c', screen), s') →
      (AdmitsScreenNames c c' ↔
        ∀ line ∈ sectionLines s.lines, isHeader line = true → WellSpelled line.dropLast)) ∧
    (∀ c s c' screen s', readSectionAliases c s = .ok ((c', screen), s') →
      (AdmitsScreenNames c c' ↔ ∀ line ∈ sectionLines s.lines, isHeader line = false → WellSpelled line)) := by
  refine ⟨?_, ?_, ?_⟩
  · rw [screenName_iff, isValidScreenName_eq]
    cases name with
    | nil => simp [wellSpelled_nil]
    | cons c name => simp
  · intro c s c' screen s' h
    rw [admits_run h fun _ _ _ hturn => screensLine_admits hturn]
    refine forall₂_congr fun line _ => ?_
    cases isHeader line <;> simp
  · intro c s c' screen s' h
    rw [admits_run h fun _ _ _ hturn => aliasesLine_admits hturn]
    refine forall₂_congr fun line _ => ?_
    cases isHeader line <;> simp

theorem lone_dash_valid : ¬(isValidScreenName ['-'] = true ↔ ScreenName ['-']) := by
  rw [screenName_iff]
  exact fun h => (h.mp (isValidScreenName_eq _)).2.last rfl

end Config
end Synergy
