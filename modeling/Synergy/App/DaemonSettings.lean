import Mathlib.Data.Bool.AllAny
import Mathlib.Data.List.Basic
import Mathlib.Tactic.SplitIfs
import Synergy.Lib.Trace
import Synergy.Platform.MSWindowsProcess

/-! The config file of the daemon on Windows: the relative path that is taken from the GUI or kept from the last run,
and the command that the watchdog is told for it. -/
namespace Synergy.Daemon

def text (s : String) : WString := s.toList.map wide

def slash : UInt16 := wide '/'

/-- What Qt and the system answer about paths and files. No file has a NUL in its name. -/
structure Files where
  isFile : WString → Bool
  isAbsolute : WString → Bool
  canonicalFilePath : WString → WString
  absoluteFilePath : WString → WString
  relativeFilePath : WString → WString → WString
  /-- The comparison that is insensitive to case. -/
  alike : WString → WString → Bool
  coreMode : WString → Int
  elevate : WString → Bool
  named : ∀ path, isFile path = true → 0 ∉ path

/-- Where the daemon is installed. Neither a NUL nor a quote is in the name of a directory or program. -/
structure Install where
  applicationDirPath : WString
  kCoreBinName : WString
  settingsPath : WString
  logFilename : WString
  plain : ∀ ch ∈ applicationDirPath ++ (kCoreBinName ++ settingsPath), ch ≠ 0 ∧ ch ≠ wide '"'

/-! ### Relative paths -/

def fromNativeSeparators (path : WString) : WString := path.map fun ch => if ch = wide '\\' then slash else ch

def kMaxRelativePathLength : Nat := 512

def isSafeRelativePath (path : WString) : Bool :=
  if path.isEmpty || kMaxRelativePathLength < path.length then false
  else if path.contains (wide '"') || path.contains (wide '\n') || path.contains (wide '\r') then false
  else if (text "\\\\").isPrefixOf path || (text "//").isPrefixOf path then false
  else if path.head? = some slash || path.head? = some (wide '\\') then false
  else if 2 ≤ path.length && path[1]? = some (wide ':') then false
  else
    let normalized := fromNativeSeparators path
    if normalized.head? = some slash then false
    else
      let parts := (normalized.splitOn slash).filter (!·.isEmpty)
      if parts.isEmpty then false
      else parts.all fun part => !(part = text "." || part = text "..")

def relativeToDirectory (files : Files) (directory absoluteFile : WString) : WString :=
  let relative := fromNativeSeparators (files.relativeFilePath directory (files.absoluteFilePath absoluteFile))
  let relative := if (text "./").isPrefixOf relative then relative.drop 2 else relative
  if isSafeRelativePath relative then relative else []

/-- `QDir(directory).filePath(fileName)`. -/
def filePath (files : Files) (directory fileName : WString) : WString :=
  let directory := fromNativeSeparators directory
  if files.isAbsolute fileName then fileName
  else if directory = [] ∨ directory.getLast? = some slash then directory ++ fileName
  else directory ++ slash :: fileName

def resolveRelativePath (files : Files) (directory relative : WString) : WString :=
  if isSafeRelativePath relative then filePath files directory (fromNativeSeparators relative) else []

/-- `file.startsWith(root + '/')`. -/
def isInside (files : Files) (root file : WString) : Bool :=
  decide (root.length < file.length) && files.alike (file.take (root.length + 1)) (root ++ [slash])

def canonicalFileIsInsideDirectory (files : Files) (directory path : WString) : Bool :=
  if files.isFile path then
    let file := fromNativeSeparators (files.canonicalFilePath path)
    let root := fromNativeSeparators (files.canonicalFilePath directory)
    if file.isEmpty || root.isEmpty then false else isInside files root file
  else false

/-! ### The daemon -/

structure Settings where
  configFile : Option WString
  logFile : Option WString
  logLevel : Option WString

/-- The daemon, with its settings and the commands that the watchdog has been told. -/
structure DaemonApp where
  configFile : WString
  settings : Settings
  commands : List (WString × Bool)

def Install.corePath (install : Install) : WString := install.applicationDirPath ++ slash :: install.kCoreBinName

/-- The mode of a core that is a client or a server. -/
def modeArg (coreMode : Int) : Option WString :=
  if coreMode = 2 then some (text "server") else if coreMode = 1 then some (text "client") else none

def coreCommand (corePath modeArg configPath : WString) : WString :=
  wide '"' :: (corePath ++ (text "\" " ++ (modeArg ++ (text " --settings \"" ++ (configPath ++ [wide '"'])))))

namespace DaemonApp

def setProcessConfig (d : DaemonApp) (command : WString) (elevate : Bool) : DaemonApp :=
  { d with commands := d.commands ++ [(command, elevate)] }

def saveLogLevel (d : DaemonApp) (logLevel : WString) : DaemonApp :=
  { d with settings := { d.settings with logLevel := some logLevel } }

def setConfigFile (d : DaemonApp) (configFile : WString) : DaemonApp :=
  if isSafeRelativePath configFile then
    { d with configFile := configFile, settings := { d.settings with configFile := some configFile } }
  else d

def applyWatchdogCommand (install : Install) (files : Files) (d : DaemonApp) : DaemonApp :=
  if d.configFile.isEmpty then d
  else
    let configPath := resolveRelativePath files install.settingsPath d.configFile
    if configPath.isEmpty then d
    else if canonicalFileIsInsideDirectory files install.settingsPath configPath then
      match modeArg (files.coreMode configPath) with
      | none => d
      | some modeArg =>
        d.setProcessConfig (coreCommand install.corePath modeArg configPath) (files.elevate configPath)
    else d

def clearWatchdogCommand (d : DaemonApp) : DaemonApp :=
  { d with configFile := [], settings := { d.settings with configFile := none } }.setProcessConfig [] false

def clearSettings (d : DaemonApp) : DaemonApp := { d with configFile := [], settings := ⟨none, none, none⟩ }

/-- The daemon that `run` starts with what is in its settings. -/
def run (install : Install) (files : Files) (settings : Settings) : DaemonApp :=
  let persistedConfig := settings.configFile.getD []
  let d : DaemonApp := ⟨[], settings, []⟩
  if persistedConfig.isEmpty then d
  else
    let relativeConfig :=
      if isSafeRelativePath persistedConfig then persistedConfig
      else relativeToDirectory files install.settingsPath persistedConfig
    if isSafeRelativePath relativeConfig then
      { d with
        configFile := relativeConfig
        settings := { settings with configFile := some relativeConfig } }.applyWatchdogCommand install files
    else { d with settings := { settings with configFile := none } }

end DaemonApp

/-! ### The messages of the GUI -/

inductive Signal
  | logLevelChanged (logLevel : WString)
  | configFileChanged (configFile : WString)
  | startProcessRequested
  | stopProcessRequested
  | clearSettingsRequested

def kAckMessage : WString := text "ok"
def kErrorMessage : WString := text "error"

/-- The value of a message, for the signal that carries it. -/
def processValue (signal : WString → Signal) (messageParts : List WString) : Option Signal × Option WString :=
  match messageParts[1]? with
  | none => (none, some kErrorMessage)
  | some value => if value.isEmpty then (none, some kErrorMessage) else (some (signal value), some kAckMessage)

def processLogLevel : List WString → Option Signal × Option WString := processValue .logLevelChanged
def processConfigFile : List WString → Option Signal × Option WString := processValue .configFileChanged

/-- The signal that is emitted and the answer that is written. -/
def processCommand (logFilename command : WString) (parts : List WString) : Option Signal × Option WString :=
  if command = text "logLevel" then processLogLevel parts
  else if command = text "configFile" then processConfigFile parts
  else if command = text "start" then (some .startProcessRequested, some kAckMessage)
  else if command = text "stop" then (some .stopProcessRequested, some kAckMessage)
  else if command = text "logPath" then (none, some (text "logPath=" ++ logFilename))
  else if command = text "clearSettings" then (some .clearSettingsRequested, some kAckMessage)
  else (none, none)

/-- A message, and what is answered about files when it is processed. -/
structure Message where
  command : WString
  parts : List WString
  files : Files

def DaemonApp.receive (install : Install) (files : Files) (d : DaemonApp) : Signal → DaemonApp
  | .logLevelChanged logLevel => d.saveLogLevel logLevel
  | .configFileChanged configFile => d.setConfigFile configFile
  | .startProcessRequested => d.applyWatchdogCommand install files
  | .stopProcessRequested => d.clearWatchdogCommand
  | .clearSettingsRequested => d.clearSettings

def DaemonApp.handle (install : Install) (d : DaemonApp) (m : Message) : DaemonApp :=
  (processCommand install.logFilename m.command m.parts).1.elim d (d.receive install m.files)

/-- The daemon after it has been started and has processed messages. -/
def serve (install : Install) (files : Files) (settings : Settings) (messages : List Message) : DaemonApp :=
  messages.foldl (DaemonApp.handle install) (.run install files settings)

/-! ### Where a path leads -/

/-- The place that a name leads to, as a list of names from the root. -/
def enter (place : List WString) (name : WString) : List WString :=
  if name = [] ∨ name = text "." then place
  else if name = text ".." then place.dropLast
  else place ++ [name]

def place (path : WString) : List WString := (path.splitOn slash).foldl enter []

section
variable {path name directory : WString} {files : Files} {install : Install}

theorem foldl_enter {names : List WString} (start : List WString)
    (hnames : ∀ name ∈ names, name ≠ text "." ∧ name ≠ text "..") :
    names.foldl enter start = start ++ names.filter (!·.isEmpty) := by
  induction names generalizing start with
  | nil => exact (List.append_nil start).symm
  | cons name names ih =>
    obtain ⟨hdot, hup⟩ := hnames name List.mem_cons_self
    rw [List.foldl_cons, ih _ fun name hname => hnames name (List.mem_cons_of_mem _ hname), enter]
    by_cases hempty : name = []
    · rw [if_pos (.inl hempty), List.filter_cons_of_neg (by simp [hempty])]
    · rw [if_neg (not_or.mpr ⟨hempty, hdot⟩), if_neg hup, List.filter_cons_of_pos (by simp [hempty])]
      exact List.append_assoc ..

/-- A name that is joined to a directory leads on from there. -/
theorem place_filePath (habsolute : files.isAbsolute name = false) :
    place (filePath files directory name) =
      (name.splitOn slash).foldl enter (place (fromNativeSeparators directory)) := by
  have hjoin (before : WString) :
      place (before ++ slash :: name) = (name.splitOn slash).foldl enter (place before) := by
    rw [place, List.splitOn_append_cons_self, List.foldl_append, ← place]
  rw [filePath, habsolute, if_neg Bool.false_ne_true]
  split_ifs with hend
  · rcases hend with hempty | hslash
    · rw [hempty]
      rfl
    · obtain ⟨before, hbefore⟩ := List.getLast?_eq_some_iff.mp hslash
      have hbehind : place (before ++ [slash]) = place before := by
        rw [place, List.splitOn_append_cons_self, List.foldl_append, ← place, List.splitOn_nil]
        change enter (place before) [] = place before
        exact if_pos (Or.inl rfl)
      rw [hbefore, List.append_assoc, List.singleton_append, hjoin, hbehind]
  · exact hjoin _

/-- What the checks of a relative path leave. -/
theorem safe_spec (hsafe : isSafeRelativePath path = true) :
    path ≠ [] ∧ wide '"' ∉ path ∧
      ∃ names, names ≠ [] ∧ names = ((fromNativeSeparators path).splitOn slash).filter (!·.isEmpty) ∧
        ∀ name ∈ (fromNativeSeparators path).splitOn slash, name ≠ text "." ∧ name ≠ text ".." := by
  unfold isSafeRelativePath at hsafe
  dsimp only at hsafe
  split_ifs at hsafe with hlength hquote hnetwork hroot hdrive hnormalized hparts
  refine ⟨?_, ?_, _, ?_, rfl, ?_⟩
  · rintro rfl
    exact hlength rfl
  · intro hmem
    exact hquote (by rw [List.contains_iff_mem.mpr hmem]; rfl)
  · intro hempty
    exact hparts (List.isEmpty_iff.mpr hempty)
  · intro name hname
    by_cases hempty : name = []
    · subst hempty
      decide +kernel
    · have hpart := List.all_eq_true.mp hsafe name (List.mem_filter.mpr ⟨hname, by simp [hempty]⟩)
      simpa using hpart

/-! ### The command -/

theorem not_mem_fromNativeSeparators (path : WString) : wide '\\' ∉ fromNativeSeparators path := by
  intro hmem
  obtain ⟨ch, -, hch⟩ := List.mem_map.mp hmem
  split_ifs at hch with hslash
  · exact absurd hch (by decide)
  · exact hslash hch

theorem mem_fromNativeSeparators {ch : UInt16} (hmem : ch ∈ fromNativeSeparators path) : ch ∈ path ∨ ch = slash := by
  obtain ⟨c, hc, rfl⟩ := List.mem_map.mp hmem
  split_ifs
  · exact .inr rfl
  · exact .inl hc

theorem mem_filePath {ch : UInt16} (hmem : ch ∈ filePath files directory name) :
    ch ∈ directory ∨ ch ∈ name ∨ ch = slash := by
  have hdirectory (hmem : ch ∈ fromNativeSeparators directory) : ch ∈ directory ∨ ch ∈ name ∨ ch = slash :=
    (mem_fromNativeSeparators hmem).imp_right .inr
  unfold filePath at hmem
  dsimp only at hmem
  split_ifs at hmem
  · exact .inr (.inl hmem)
  · exact (List.mem_append.mp hmem).elim hdirectory fun hmem => .inr (.inl hmem)
  · rcases List.mem_append.mp hmem with hmem | hmem
    · exact hdirectory hmem
    · exact .inr ((List.mem_cons.mp hmem).symm)

theorem getLast?_filePath (hname : wide '\\' ∉ name) :
    (filePath files directory name).getLast? ≠ some (wide '\\') := by
  intro hlast
  have hmem := List.mem_of_getLast? hlast
  unfold filePath at hmem
  dsimp only at hmem
  split_ifs at hmem
  · exact hname hmem
  · rcases List.mem_append.mp hmem with hmem | hmem
    · exact not_mem_fromNativeSeparators _ hmem
    · exact hname hmem
  · rcases List.mem_append.mp hmem with hmem | hmem
    · exact not_mem_fromNativeSeparators _ hmem
    · exact (List.mem_cons.mp hmem).elim (by decide) hname

end

section
open CommandLine MSWindowsProcess
variable {first arg rest more line : WString} {fuel : Nat} {ch : UInt16}

instance (arg : WString) : Decidable (Plain arg) :=
  inferInstanceAs (Decidable (∀ ch ∈ arg, wideBlank ch = false ∧ ch ≠ wide '"'))

theorem argument_open (line : WString) : argument false 0 (wide '"' :: line) = argument true 0 line := by
  have hpush (read : WString × WString) : push (slashes (0 / 2)) read = read := rfl
  rw [argument.eq_def]
  dsimp only
  rw [if_neg (by decide), if_pos rfl, if_neg (by decide)]
  cases line with
  | nil => rfl
  | cons next more => rfl

theorem arguments_cons (hch : wideBlank ch = false) (hread : argument false 0 (ch :: line) = (first, more)) :
    arguments (fuel + 1) (ch :: line) = first :: arguments fuel more := by
  rw [arguments, List.dropWhile_cons_of_neg (by rw [hch]; decide)]
  dsimp only
  rw [hread]

/-- An argument of which no character needs quotes, with another one behind it. -/
theorem arguments_plain (hne : arg ≠ []) (hplain : Plain arg) (rest : WString) :
    arguments (fuel + 1) (arg ++ wide ' ' :: rest) = arg :: arguments fuel rest := by
  obtain ⟨ch, arg, rfl⟩ := List.exists_cons_of_ne_nil hne
  have hread := argument_plain 0 hplain (.inr rfl : Follows (wide ' ' :: rest) rest)
  rw [List.cons_append] at hread ⊢
  exact arguments_cons (hplain ch List.mem_cons_self).1 hread

/-- The last argument, in quotes that it does not end. -/
theorem arguments_last (hquote : wide '"' ∉ arg) (hend : arg.getLast? ≠ some (wide '\\')) :
    arguments (fuel + 1) (wide '"' :: (arg ++ [wide '"'])) = [arg] := by
  have hloop : quoteLoop 0 arg = arg ++ [wide '"'] := by
    rw [quoteLoop_eq 0 hquote, (pendingSlashes_eq_zero 0 arg).mpr hend, slashes, List.replicate_zero, List.nil_append,
      List.append_nil]
  have hread : argument true 0 (arg ++ [wide '"']) = (arg, []) := by
    have hread := argument_quoteLoop 0 arg (.inl ⟨rfl, rfl⟩ : Follows [] [])
    rwa [hloop, List.append_nil, slashes, List.replicate_zero, List.nil_append] at hread
  rw [arguments_cons (by decide) ((argument_open _).trans hread)]
  cases fuel with
  | zero => rfl
  | succ fuel => rfl

theorem split_coreCommand {corePath mode configPath : WString} (hcore : ∀ ch ∈ corePath, ch ≠ 0 ∧ ch ≠ wide '"')
    (hmode : mode ≠ [] ∧ Plain mode ∧ 0 ∉ mode) (hzero : 0 ∉ configPath) (hquote : wide '"' ∉ configPath)
    (hend : configPath.getLast? ≠ some (wide '\\')) :
    split (coreCommand corePath mode configPath) = [corePath, mode, text "--settings", configPath] := by
  obtain ⟨hne, hplain, hmodeZero⟩ := hmode
  have hwhole : (coreCommand corePath mode configPath).takeWhile (· ≠ 0) = coreCommand corePath mode configPath := by
    refine List.takeWhile_eq_self_iff.mpr fun ch hch => decide_eq_true ?_
    rintro rfl
    rcases List.mem_cons.mp hch with hch | hch
    · exact absurd hch (by decide)
    rcases List.mem_append.mp hch with hch | hch
    · exact (hcore 0 hch).1 rfl
    rcases List.mem_append.mp hch with hch | hch
    · exact absurd hch (by decide +kernel)
    rcases List.mem_append.mp hch with hch | hch
    · exact hmodeZero hch
    rcases List.mem_append.mp hch with hch | hch
    · exact absurd hch (by decide +kernel)
    rcases List.mem_append.mp hch with hch | hch
    · exact hzero hch
    · exact absurd hch (by decide)
  have hprogram (rest : WString) :
      programName false (wide '"' :: (corePath ++ wide '"' :: wide ' ' :: rest)) = (corePath, rest) := by
    have hclose : programName true (wide '"' :: wide ' ' :: rest) = ([], rest) := by
      rw [programName, if_pos rfl]
      exact programName_follows (.inr rfl)
    rw [programName, if_pos rfl]
    change programName true _ = _
    rw [programName_append (fun hmem => (hcore _ hmem).2 rfl) (.inl rfl), hclose, push, List.append_nil]
  have hline : coreCommand corePath mode configPath = wide '"' :: (corePath ++ wide '"' :: wide ' ' ::
      (mode ++ wide ' ' :: (text "--settings" ++ wide ' ' :: (wide '"' :: (configPath ++ [wide '"']))))) := by
    rfl
  have hlong : 2 ≤ (mode ++ wide ' ' :: (text "--settings" ++ wide ' ' ::
      (wide '"' :: (configPath ++ [wide '"'])))).length := by
    simp only [List.length_append, List.length_cons]
    omega
  obtain ⟨fuel, hfuel⟩ := Nat.exists_eq_add_of_le' hlong
  rw [split, hwhole, hline, hprogram]
  dsimp only
  rw [hfuel, arguments_plain hne hplain, arguments_plain (by decide +kernel)
    (List.all_iff_forall_prop.mp (by decide +kernel)), arguments_last hquote hend]

end

/-! ### What the watchdog is told -/

/-- The file of a relative path that is in the directory of the settings, links resolved, and below it by its name,
unless Qt takes the relative path for an absolute one. -/
structure InSettings (install : Install) (files : Files) (configFile path : WString) : Prop where
  isFile : files.isFile path = true
  canonical : isInside files (fromNativeSeparators (files.canonicalFilePath install.settingsPath))
    (fromNativeSeparators (files.canonicalFilePath path)) = true
  below : files.isAbsolute (fromNativeSeparators configFile) = false →
    ∃ names, names ≠ [] ∧ place path = place (fromNativeSeparators install.settingsPath) ++ names

/-- A command that starts the core with a config file among the settings, in the mode and elevated as the file says. -/
def StartsCore (install : Install) (files : Files) (configFile : WString) (told : WString × Bool) : Prop :=
  ∃ path mode, InSettings install files configFile path ∧ modeArg (files.coreMode path) = some mode ∧
    told.2 = files.elevate path ∧
    CommandLine.split told.1 = [install.corePath, mode, text "--settings", path]

/-- What a message makes the daemon tell the watchdog: nothing, to stop, or to start the core. -/
def Tells (install : Install) (d : DaemonApp) (m : Message) (d' : DaemonApp) : Prop :=
  d'.commands = d.commands ∨ (d'.configFile = [] ∧ d'.commands = d.commands ++ [([], false)]) ∨
    ∃ told, StartsCore install m.files d.configFile told ∧ d'.commands = d.commands ++ [told]

/-- What the daemon keeps: no config file, or a relative path that is safe, and the same in its settings. -/
structure Kept (d : DaemonApp) : Prop where
  safe : d.configFile = [] ∨ isSafeRelativePath d.configFile = true
  stored : d.settings.configFile.getD [] = d.configFile

section
variable {install : Install} {files : Files} {d : DaemonApp} {path : WString}

theorem resolved_below (hsafe : isSafeRelativePath path = true)
    (habsolute : files.isAbsolute (fromNativeSeparators path) = false) :
    ∃ names, names ≠ [] ∧ place (resolveRelativePath files install.settingsPath path) =
      place (fromNativeSeparators install.settingsPath) ++ names := by
  obtain ⟨-, -, names, hne, hnames, hplain⟩ := safe_spec hsafe
  exact ⟨names, hne, by rw [resolveRelativePath, if_pos hsafe, place_filePath habsolute, foldl_enter _ hplain, hnames]⟩

theorem modeArg_plain {coreMode : Int} {mode : WString} (h : modeArg coreMode = some mode) :
    mode ≠ [] ∧ CommandLine.Plain mode ∧ 0 ∉ mode := by
  unfold modeArg at h
  split_ifs at h
  · obtain rfl := Option.some.inj h
    exact ⟨by decide +kernel, List.all_iff_forall_prop.mp (by decide +kernel), by decide +kernel⟩
  · obtain rfl := Option.some.inj h
    exact ⟨by decide +kernel, List.all_iff_forall_prop.mp (by decide +kernel), by decide +kernel⟩

theorem corePath_plain : ∀ ch ∈ install.corePath, ch ≠ 0 ∧ ch ≠ wide '"' := by
  intro ch hch
  rcases List.mem_append.mp hch with hch | hch
  · exact install.plain ch (List.mem_append_left _ hch)
  · rcases List.mem_cons.mp hch with rfl | hch
    · decide
    · exact install.plain ch (List.mem_append_right _ (List.mem_append_left _ hch))

/-- The command for a file is split into what it was made of. -/
theorem split_resolved (hsafe : isSafeRelativePath path = true) {mode : WString}
    (hmode : mode ≠ [] ∧ CommandLine.Plain mode ∧ 0 ∉ mode)
    (hfile : files.isFile (resolveRelativePath files install.settingsPath path) = true) :
    CommandLine.split (coreCommand install.corePath mode (resolveRelativePath files install.settingsPath path)) =
      [install.corePath, mode, text "--settings", resolveRelativePath files install.settingsPath path] := by
  obtain ⟨-, hquote, -⟩ := safe_spec hsafe
  have hresolved : resolveRelativePath files install.settingsPath path =
      filePath files install.settingsPath (fromNativeSeparators path) := if_pos hsafe
  refine split_coreCommand corePath_plain hmode (files.named _ hfile) ?_ ?_
  · intro hmem
    rw [hresolved] at hmem
    rcases mem_filePath hmem with hmem | hmem | hmem
    · exact (install.plain _ (List.mem_append_right _ (List.mem_append_right _ hmem))).2 rfl
    · exact (mem_fromNativeSeparators hmem).elim hquote (by decide)
    · exact absurd hmem (by decide)
  · rw [hresolved]
    exact getLast?_filePath (not_mem_fromNativeSeparators path)

/-- Nothing is told, or one command. -/
theorem applyWatchdogCommand_spec (hkept : Kept d) :
    d.applyWatchdogCommand install files = d ∨
      ∃ told, StartsCore install files d.configFile told ∧
        d.applyWatchdogCommand install files = d.setProcessConfig told.1 told.2 := by
  unfold DaemonApp.applyWatchdogCommand
  dsimp only
  split_ifs with hempty hunsafe hinside
  · exact .inl rfl
  · exact .inl rfl
  · cases hmode : modeArg (files.coreMode (resolveRelativePath files install.settingsPath d.configFile)) with
    | none => exact .inl rfl
    | some mode =>
      have hsafe := hkept.safe.resolve_left fun h => hempty (List.isEmpty_iff.mpr h)
      unfold canonicalFileIsInsideDirectory at hinside
      dsimp only at hinside
      split_ifs at hinside with hfile hnames
      exact .inr ⟨(_, _), ⟨_, mode, ⟨hfile, hinside, resolved_below hsafe⟩, hmode, rfl,
        split_resolved hsafe (modeArg_plain hmode) hfile⟩, rfl⟩
  · exact .inl rfl

theorem Kept.applyWatchdogCommand (hkept : Kept d) : Kept (d.applyWatchdogCommand install files) := by
  rcases applyWatchdogCommand_spec hkept with happly | ⟨told, -, happly⟩
  · rwa [happly]
  · rw [happly]
    exact ⟨hkept.safe, hkept.stored⟩

theorem Kept.receive (hkept : Kept d) (signal : Signal) : Kept (d.receive install files signal) := by
  cases signal with
  | logLevelChanged logLevel => exact ⟨hkept.safe, hkept.stored⟩
  | configFileChanged configFile =>
    change Kept (d.setConfigFile configFile)
    unfold DaemonApp.setConfigFile
    split_ifs with hsafe
    · exact ⟨.inr hsafe, rfl⟩
    · exact hkept
  | startProcessRequested => exact hkept.applyWatchdogCommand
  | stopProcessRequested => exact ⟨.inl rfl, rfl⟩
  | clearSettingsRequested => exact ⟨.inl rfl, rfl⟩

theorem Kept.handle (hkept : Kept d) (m : Message) : Kept (d.handle install m) := by
  unfold DaemonApp.handle
  cases (processCommand install.logFilename m.command m.parts).1 with
  | none => exact hkept
  | some signal => exact hkept.receive signal

theorem Kept.tells (hkept : Kept d) (m : Message) : Tells install d m (d.handle install m) := by
  unfold DaemonApp.handle
  cases (processCommand install.logFilename m.command m.parts).1 with
  | none => exact .inl rfl
  | some signal =>
    cases signal with
    | logLevelChanged logLevel => exact .inl rfl
    | configFileChanged configFile =>
      refine .inl ?_
      change (d.setConfigFile configFile).commands = d.commands
      unfold DaemonApp.setConfigFile
      split_ifs
      · rfl
      · rfl
    | startProcessRequested =>
      rcases applyWatchdogCommand_spec hkept with happly | ⟨told, htold, happly⟩
      · exact .inl (congrArg DaemonApp.commands happly)
      · exact .inr (.inr ⟨told, htold, congrArg DaemonApp.commands happly⟩)
    | stopProcessRequested => exact .inr (.inl ⟨rfl, rfl⟩)
    | clearSettingsRequested => exact .inl rfl

/-! ### Runs -/

/-- A command is applied with a config file only. -/
theorem applyWatchdogCommand_idle (hidle : d.configFile = []) : d.applyWatchdogCommand install files = d := by
  unfold DaemonApp.applyWatchdogCommand
  rw [hidle]
  rfl

/-- A daemon is started with a config file that is safe, and applies its command. -/
theorem run_spec (install : Install) (files : Files) (settings : Settings) :
    ∃ d, Kept d ∧ d.commands = [] ∧ DaemonApp.run install files settings = d.applyWatchdogCommand install files := by
  unfold DaemonApp.run
  dsimp only
  split_ifs with hempty hsafe hsafe
  · have hnone : settings.configFile.getD [] = [] := List.isEmpty_iff.mp hempty
    exact ⟨⟨[], settings, []⟩, ⟨.inl rfl, hnone⟩, rfl, (applyWatchdogCommand_idle rfl).symm⟩
  · exact ⟨_, ⟨.inr hsafe, rfl⟩, rfl, rfl⟩
  · exact ⟨_, ⟨.inr ‹_›, rfl⟩, rfl, rfl⟩
  · exact ⟨⟨[], { settings with configFile := none }, []⟩, ⟨.inl rfl, rfl⟩, rfl, (applyWatchdogCommand_idle rfl).symm⟩

/-- It takes up the config file that another one has kept. -/
theorem run_kept (hkept : Kept d) :
    DaemonApp.run install files d.settings = { d with commands := [] }.applyWatchdogCommand install files := by
  unfold DaemonApp.run
  dsimp only
  rw [hkept.stored]
  by_cases hempty : d.configFile = []
  · rw [if_pos (List.isEmpty_iff.mpr hempty), applyWatchdogCommand_idle (d := ⟨d.configFile, d.settings, []⟩) hempty,
      hempty]
  · have hsafe := hkept.safe.resolve_left hempty
    have hsettings : { d.settings with configFile := some d.configFile } = d.settings := by
      obtain ⟨configFile, ⟨stored, logFile, logLevel⟩, commands⟩ := d
      cases stored with
      | none => exact absurd hkept.stored.symm hempty
      | some stored => rw [show stored = configFile from hkept.stored]
    rw [if_neg (mt List.isEmpty_iff.mp hempty), if_pos hsafe, if_pos hsafe, hsettings]

/-- What has been told before changes nothing. -/
theorem applyWatchdogCommand_commands (d : DaemonApp) : (d.applyWatchdogCommand install files).commands =
    d.commands ++ ({ d with commands := [] }.applyWatchdogCommand install files).commands := by
  unfold DaemonApp.applyWatchdogCommand
  dsimp only
  split_ifs
  · exact (List.append_nil _).symm
  · exact (List.append_nil _).symm
  · cases modeArg (files.coreMode (resolveRelativePath files install.settingsPath d.configFile)) with
    | none => exact (List.append_nil _).symm
    | some mode => rfl
  · exact (List.append_nil _).symm

theorem Kept.run (install : Install) (files : Files) (settings : Settings) :
    Kept (DaemonApp.run install files settings) := by
  obtain ⟨d, hkept, -, hrun⟩ := run_spec install files settings
  rw [hrun]
  exact hkept.applyWatchdogCommand

theorem Kept.foldl (hkept : Kept d) (messages : List Message) : Kept (messages.foldl (DaemonApp.handle install) d) := by
  induction messages generalizing d with
  | nil => exact hkept
  | cons m messages ih => exact ih (hkept.handle m)

theorem Kept.eachStep (hkept : Kept d) (messages : List Message) :
    Lib.EachStep (Tells install) d (Lib.runTrace (DaemonApp.handle install) d messages) := by
  induction messages generalizing d with
  | nil => trivial
  | cons m messages ih => exact ⟨hkept.tells m, ih (hkept.handle m)⟩

end

/-- Whatever is in the settings that the daemon is started with, and whatever messages it processes, the watchdog is
told nothing else than to stop, or to start the core with a config file among the settings. -/
theorem commands_confined (install : Install) (files : Files) (settings : Settings) (messages : List Message) :
    let d := DaemonApp.run install files settings
    (d.commands = [] ∨ ∃ told, StartsCore install files d.configFile told ∧ d.commands = [told]) ∧
      Lib.EachStep (Tells install) d (Lib.runTrace (DaemonApp.handle install) d messages) := by
  refine ⟨?_, (Kept.run install files settings).eachStep messages⟩
  obtain ⟨d, hkept, hnone, hrun⟩ := run_spec install files settings
  rw [hrun]
  rcases applyWatchdogCommand_spec hkept with happly | ⟨told, htold, happly⟩
  · exact .inl (happly.symm ▸ hnone)
  · refine .inr ⟨told, ?_, ?_⟩
    · rw [happly]
      exact htold
    · rw [happly]
      exact congrArg (· ++ [told]) hnone

/-- A directory of settings with one config file, of a server. -/
def oneFile : Files where
  isFile := fun path => path = text "C:/s/a.conf"
  isAbsolute := fun path => path[1]? = some (wide ':')
  canonicalFilePath := id
  absoluteFilePath := id
  relativeFilePath := fun _ path => path
  alike := fun a b => a = b
  coreMode := fun _ => 2
  elevate := fun _ => true
  named := by
    intro path hfile
    obtain rfl := of_decide_eq_true hfile
    decide +kernel

def installed : Install where
  applicationDirPath := text "C:/p"
  kCoreBinName := text "core.exe"
  settingsPath := text "C:/s"
  logFilename := text "C:/s/daemon.log"
  plain := List.all_iff_forall_prop.mp (by decide +kernel)

example : (serve installed oneFile ⟨none, none, none⟩ [⟨text "configFile", [text "configFile", text "a.conf"], oneFile⟩,
    ⟨text "start", [text "start"], oneFile⟩]).commands =
      [(text "\"C:/p/core.exe\" server --settings \"C:/s/a.conf\"", true)] := by
  decide +kernel

/-- A daemon that is started with the settings that another one has left takes up its config file, leaves the settings
as they are, and tells the watchdog what a message to start would have made the other one tell it. -/
theorem restart_takes_up (install : Install) (files files' : Files) (settings : Settings) (messages : List Message) :
    let d := serve install files settings messages
    let d' := DaemonApp.run install files' d.settings
    d'.configFile = d.configFile ∧ d'.settings = d.settings ∧
      (d.applyWatchdogCommand install files').commands = d.commands ++ d'.commands := by
  have hkept : Kept (serve install files settings messages) := (Kept.run install files settings).foldl messages
  dsimp only
  rw [run_kept hkept, ← applyWatchdogCommand_commands]
  have hsame : Kept { serve install files settings messages with commands := [] } := ⟨hkept.safe, hkept.stored⟩
  rcases applyWatchdogCommand_spec hsame with happly | ⟨told, -, happly⟩
  · rw [happly]
    exact ⟨rfl, rfl, rfl⟩
  · rw [happly]
    exact ⟨rfl, rfl, rfl⟩

end Synergy.Daemon
