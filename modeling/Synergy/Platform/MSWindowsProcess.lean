import Mathlib.Data.List.Basic
import Mathlib.Data.List.TakeWhile
import Mathlib.Tactic.SplitIfs

/-! The command line of a process that is started for the user of the session, and how Windows and the C runtime
split it. -/
namespace Synergy

/-- A string of UTF-16 units. -/
abbrev WString := List UInt16

def wide (c : Char) : UInt16 := .ofNat c.toNat

/-- A delimiter of arguments: a space or a tab. -/
def wideBlank (ch : UInt16) : Bool := ch = wide ' ' || ch = wide '\t'

namespace MSWindowsProcess

def slashes (n : Nat) : WString := List.replicate n (wide '\\')

/-- The loop over the rest of an argument, with the backslashes that have been counted and not been written. -/
def quoteLoop (backslashes : Nat) : WString → WString
  | [] => slashes (backslashes * 2) ++ [wide '"']
  | ch :: arg =>
    if ch = wide '\\' then quoteLoop (backslashes + 1) arg
    else if ch = wide '"' then slashes (backslashes * 2 + 1) ++ ch :: quoteLoop 0 arg
    else slashes backslashes ++ ch :: quoteLoop 0 arg

def quoteWindowsArgument (arg : WString) : WString :=
  if arg.isEmpty then [wide '"', wide '"']
  else if arg.all fun ch => !(wideBlank ch || ch = wide '"') then arg
  else wide '"' :: quoteLoop 0 arg

/-- The command line that the process is created with, unless there is no application. -/
def startDetachedAsSessionUser (application : WString) (arguments : List WString) : Option WString :=
  if application.isEmpty then none
  else
    some (quoteWindowsArgument application ++
      arguments.flatMap fun argument => wide ' ' :: quoteWindowsArgument argument)

end MSWindowsProcess

/-! The documented rules for splitting a command line. -/
namespace CommandLine
open MSWindowsProcess

/-- A text in front of what is read. -/
def push (text : WString) (read : WString × WString) : WString × WString := (text ++ read.1, read.2)

/-- The name of the program, in which only quotes are special, and what follows the delimiter behind it. -/
def programName (quoted : Bool) : WString → WString × WString
  | [] => ([], [])
  | ch :: line =>
    if ch = wide '"' then programName (!quoted) line
    else if !quoted && wideBlank ch then ([], line)
    else push [ch] (programName quoted line)

/-- An argument, in which backslashes are special in front of a quote, and what follows the delimiter behind it.
Two quotes in a row stand for one in a quoted part. -/
def argument (quoted : Bool) (backslashes : Nat) : WString → WString × WString
  | [] => (slashes backslashes, [])
  | ch :: line =>
    if ch = wide '\\' then argument quoted (backslashes + 1) line
    else if ch = wide '"' then
      if backslashes % 2 = 1 then push (slashes (backslashes / 2) ++ [ch]) (argument quoted 0 line)
      else
        match line with
        | [] => push (slashes (backslashes / 2)) (argument (!quoted) 0 [])
        | next :: more =>
          if quoted && next = wide '"' then push (slashes (backslashes / 2) ++ [ch]) (argument quoted 0 more)
          else push (slashes (backslashes / 2)) (argument (!quoted) 0 (next :: more))
    else if !quoted && wideBlank ch then (slashes backslashes, line)
    else push (slashes backslashes ++ [ch]) (argument quoted 0 line)

/-- The arguments that are left; `fuel` bounds their number. -/
def arguments : Nat → WString → List WString
  | 0, _ => []
  | fuel + 1, line =>
    match line.dropWhile wideBlank with
    | [] => []
    | ch :: rest =>
      let (first, more) := argument false 0 (ch :: rest)
      first :: arguments fuel more

/-- A command line ends with a NUL. -/
def split (commandLine : WString) : List WString :=
  let (program, rest) := programName false (commandLine.takeWhile (· ≠ 0))
  program :: arguments (rest.length + 1) rest

/-! ### Arguments come back -/

/-- What may follow an argument, and what is read behind it. -/
def Follows (rest more : WString) : Prop := rest = [] ∧ more = [] ∨ rest = wide ' ' :: more

section
variable {quoted : Bool} {n : Nat} {ch : UInt16} {arg rest more line : WString}

theorem slashes_cons (n : Nat) (line : WString) : slashes n ++ wide '\\' :: line = slashes (n + 1) ++ line := by
  rw [slashes, slashes, List.replicate_succ', List.append_assoc, List.singleton_append]

theorem argument_slash (quoted : Bool) (n : Nat) (line : WString) :
    argument quoted n (wide '\\' :: line) = argument quoted (n + 1) line := by
  rw [argument.eq_def]
  exact if_pos rfl

theorem argument_slashes (quoted : Bool) (n m : Nat) (line : WString) :
    argument quoted n (slashes m ++ line) = argument quoted (n + m) line := by
  induction m generalizing n with
  | zero => rfl
  | succ m ih => rw [slashes, List.replicate_succ, List.cons_append, argument_slash, ← slashes, ih,
      Nat.succ_add_eq_add_succ]

theorem argument_char (hslash : ch ≠ wide '\\') (hquote : ch ≠ wide '"') (hblank : quoted = true ∨ wideBlank ch =
    false) :
    argument quoted n (ch :: line) = push (slashes n ++ [ch]) (argument quoted 0 line) := by
  have hgo : (!quoted && wideBlank ch) = false := by
    rcases hblank with rfl | hblank
    · rfl
    · rw [hblank, Bool.and_false]
  rw [argument.eq_def]
  dsimp only
  rw [if_neg hslash, if_neg hquote, hgo, if_neg Bool.false_ne_true]

theorem argument_blank (n : Nat) (line : WString) : argument false n (wide ' ' :: line) = (slashes n, line) := by
  rw [argument.eq_def]
  dsimp only
  rw [if_neg (by decide), if_neg (by decide), if_pos (by decide)]

/-- The quote that is escaped. -/
theorem argument_odd (quoted : Bool) (n : Nat) (line : WString) : argument quoted (n * 2 + 1) (wide '"' :: line) =
    push (slashes n ++ [wide '"']) (argument quoted 0 line) := by
  rw [argument.eq_def]
  dsimp only
  rw [if_neg (by decide), if_pos rfl, if_pos (by omega), show (n * 2 + 1) / 2 = n by omega]

/-- The quote that closes an argument. -/
theorem argument_close (n : Nat) (h : Follows rest more) :
    argument true (n * 2) (wide '"' :: rest) = (slashes n, more) := by
  have hhalf : n * 2 / 2 = n := by omega
  rcases h with ⟨rfl, rfl⟩ | rfl
  · rw [argument.eq_def]
    dsimp only
    rw [if_neg (by decide), if_pos rfl, if_neg (by omega), hhalf]
    change (slashes n ++ [], []) = _
    rw [List.append_nil]
  · rw [argument.eq_def]
    dsimp only
    rw [if_neg (by decide), if_pos rfl, if_neg (by omega), hhalf]
    change push (slashes n) (argument false 0 (wide ' ' :: more)) = _
    rw [argument_blank, push]
    exact congrArg (·, more) (List.append_nil _)

theorem argument_quoteLoop (n : Nat) (arg : WString) (h : Follows rest more) :
    argument true 0 (quoteLoop n arg ++ rest) = (slashes n ++ arg, more) := by
  induction arg generalizing n with
  | nil =>
    rw [quoteLoop, List.append_assoc, argument_slashes, Nat.zero_add, List.singleton_append, argument_close n h,
      List.append_nil]
  | cons ch arg ih =>
    rw [quoteLoop]
    split_ifs with hslash hquote
    · rw [ih, hslash, slashes_cons]
    · rw [List.append_assoc, List.cons_append, argument_slashes, Nat.zero_add, hquote, argument_odd, ih, push]
      rw [List.append_assoc]
      rfl
    · rw [List.append_assoc, List.cons_append, argument_slashes, Nat.zero_add,
        argument_char hslash hquote (.inl rfl), ih,
        push, List.append_assoc]
      rfl

/-- An argument that is not quoted is read as it is. -/
theorem argument_plain (n : Nat) (harg : ∀ ch ∈ arg, wideBlank ch = false ∧ ch ≠ wide '"') (h : Follows rest more) :
    argument false n (arg ++ rest) = (slashes n ++ arg, more) := by
  induction arg generalizing n with
  | nil =>
    rcases h with ⟨rfl, rfl⟩ | rfl
    · rw [List.append_nil, List.append_nil]
      rfl
    · rw [List.nil_append, argument_blank, List.append_nil]
  | cons ch arg ih =>
    obtain ⟨hblank, hquote⟩ := harg ch List.mem_cons_self
    have hrest : ∀ ch ∈ arg, wideBlank ch = false ∧ ch ≠ wide '"' := fun c hc => harg c (List.mem_cons_of_mem ch hc)
    rw [List.cons_append]
    by_cases hslash : ch = wide '\\'
    · rw [hslash, argument_slash, ih _ hrest, slashes_cons]
    · rw [argument_char hslash hquote (.inr hblank), ih _ hrest, push, List.append_assoc]
      rfl

/-- What is written unquoted. -/
def Plain (arg : WString) : Prop := ∀ ch ∈ arg, wideBlank ch = false ∧ ch ≠ wide '"'

theorem quoteWindowsArgument_cases (arg : WString) :
    (arg ≠ [] ∧ Plain arg ∧ quoteWindowsArgument arg = arg) ∨
      ((arg = [] ∨ ¬ Plain arg) ∧ quoteWindowsArgument arg = wide '"' :: quoteLoop 0 arg) := by
  have hiff : (arg.all fun ch => !(wideBlank ch || ch = wide '"')) = true ↔ Plain arg := by
    rw [List.all_eq_true]
    exact forall₂_congr fun ch _ => by simp
  by_cases hempty : arg = []
  · subst hempty
    exact .inr ⟨.inl rfl, rfl⟩
  · rw [quoteWindowsArgument, if_neg (mt List.isEmpty_iff.mp hempty)]
    by_cases hplain : Plain arg
    · exact .inl ⟨hempty, hplain, if_pos (hiff.mpr hplain)⟩
    · exact .inr ⟨.inr hplain, if_neg (mt hiff.mp hplain)⟩

theorem argument_quoted (arg : WString) (h : Follows rest more) :
    argument false 0 (quoteWindowsArgument arg ++ rest) = (arg, more) := by
  rcases quoteWindowsArgument_cases arg with ⟨-, hplain, hquoted⟩ | ⟨-, hquoted⟩
  · rw [hquoted, argument_plain 0 hplain h]
    rfl
  · rw [hquoted, List.cons_append]
    have hopen : argument false 0 (wide '"' :: (quoteLoop 0 arg ++ rest)) = argument true 0
        (quoteLoop 0 arg ++ rest) := by
      have hpush (read : WString × WString) : push (slashes (0 / 2)) read = read := rfl
      rw [argument.eq_def]
      dsimp only
      rw [if_neg (by decide), if_pos rfl, if_neg (by decide)]
      cases quoteLoop 0 arg ++ rest with
      | nil => rfl
      | cons next more => rfl
    rw [hopen, argument_quoteLoop 0 arg h]
    rfl

/-- A quoted argument starts with no delimiter. -/
theorem quoteWindowsArgument_head (arg : WString) :
    ∃ ch rest, quoteWindowsArgument arg = ch :: rest ∧ wideBlank ch = false := by
  rcases quoteWindowsArgument_cases arg with ⟨hne, hplain, hquoted⟩ | ⟨-, hquoted⟩
  · obtain ⟨ch, rest, rfl⟩ := List.exists_cons_of_ne_nil hne
    exact ⟨ch, rest, hquoted, (hplain ch List.mem_cons_self).1⟩
  · exact ⟨_, _, hquoted, by decide⟩

theorem mem_quoteLoop (hmem : ch ∈ quoteLoop n arg) : ch ∈ arg ∨ ch = wide '\\' ∨ ch = wide '"' := by
  induction arg generalizing n with
  | nil =>
    rcases List.mem_append.mp hmem with hmem | hmem
    · exact .inr (.inl (List.eq_of_mem_replicate hmem))
    · exact .inr (.inr (List.mem_singleton.mp hmem))
  | cons c arg ih =>
    have hloop (m : Nat) (hmem : ch ∈ quoteLoop m arg) : ch ∈ c :: arg ∨ ch = wide '\\' ∨ ch = wide '"' :=
      (ih hmem).imp_left (List.mem_cons_of_mem c)
    have hpiece (m : Nat) (hmem : ch ∈ slashes m ++ c :: quoteLoop 0 arg) :
        ch ∈ c :: arg ∨ ch = wide '\\' ∨ ch = wide '"' := by
      rcases List.mem_append.mp hmem with hmem | hmem
      · exact .inr (.inl (List.eq_of_mem_replicate hmem))
      · rcases List.mem_cons.mp hmem with rfl | hmem
        · exact .inl List.mem_cons_self
        · exact hloop 0 hmem
    rw [quoteLoop] at hmem
    split_ifs at hmem with hslash hquote
    · exact hloop _ hmem
    · exact hpiece _ hmem
    · exact hpiece _ hmem

theorem zero_not_mem_quoteWindowsArgument (h : 0 ∉ arg) : 0 ∉ quoteWindowsArgument arg := by
  rcases quoteWindowsArgument_cases arg with ⟨-, -, hquoted⟩ | ⟨-, hquoted⟩
  · rwa [hquoted]
  · rw [hquoted]
    intro hmem
    rcases List.mem_cons.mp hmem with hmem | hmem
    · exact absurd hmem (by decide)
    · rcases mem_quoteLoop hmem with hmem | hmem | hmem
      · exact h hmem
      · exact absurd hmem (by decide)
      · exact absurd hmem (by decide)

/-! ### The name of the program -/

theorem programName_char (hquote : ch ≠ wide '"') (hblank : quoted = true ∨ wideBlank ch = false) (line : WString) :
    programName quoted (ch :: line) = push [ch] (programName quoted line) := by
  have hgo : (!quoted && wideBlank ch) = false := by
    rcases hblank with rfl | hblank
    · rfl
    · rw [hblank, Bool.and_false]
  rw [programName, if_neg hquote, hgo, if_neg Bool.false_ne_true]

theorem programName_follows (h : Follows rest more) : programName false rest = ([], more) := by
  rcases h with ⟨rfl, rfl⟩ | rfl
  · rfl
  · rw [programName, if_neg (by decide), if_pos (by decide)]

/-- Characters without a quote are read as they are, in a quoted part or when no delimiter is among them. -/
theorem programName_append (hquote : wide '"' ∉ arg) (hblank : quoted = true ∨ ∀ ch ∈ arg, wideBlank ch = false)
    (line : WString) : programName quoted (arg ++ line) = push arg (programName quoted line) := by
  induction arg with
  | nil => rfl
  | cons ch arg ih =>
    have hch : ch ≠ wide '"' := fun heq => hquote (heq ▸ List.mem_cons_self)
    rw [List.cons_append, programName_char hch (hblank.imp_right fun h => h ch List.mem_cons_self),
      ih (fun hmem => hquote (List.mem_cons_of_mem ch hmem))
        (hblank.imp_right fun h c hc => h c (List.mem_cons_of_mem ch hc))]
    rfl

/-- The backslashes at the end of a text, in front of which there are some more. -/
def pendingSlashes (n : Nat) : WString → Nat
  | [] => n
  | ch :: text => if ch = wide '\\' then pendingSlashes (n + 1) text else pendingSlashes 0 text

theorem quoteLoop_eq (n : Nat) (hquote : wide '"' ∉ arg) :
    quoteLoop n arg = slashes n ++ arg ++ slashes (pendingSlashes n arg) ++ [wide '"'] := by
  induction arg generalizing n with
  | nil =>
    rw [quoteLoop, pendingSlashes, List.append_nil, slashes, slashes, List.replicate_append_replicate, Nat.mul_two]
  | cons ch arg ih =>
    have hch : ch ≠ wide '"' := fun heq => hquote (heq ▸ List.mem_cons_self)
    have hrest := fun m => ih m fun hmem => hquote (List.mem_cons_of_mem ch hmem)
    rw [quoteLoop, pendingSlashes]
    split_ifs with hslash
    · rw [hrest, hslash, slashes_cons]
    · rw [hrest]
      simp [slashes]

theorem pendingSlashes_eq_zero (n : Nat) (text : WString) :
    pendingSlashes n text = 0 ↔ (slashes n ++ text).getLast? ≠ some (wide '\\') := by
  induction text generalizing n with
  | nil =>
    rw [pendingSlashes, List.append_nil]
    cases n with
    | zero => exact iff_of_true rfl (by decide)
    | succ n => exact iff_of_false (Nat.succ_ne_zero n) (by simp [slashes, List.getLast?_replicate])
  | cons ch text ih =>
    rw [pendingSlashes]
    split_ifs with hslash
    · rw [ih, hslash, slashes_cons]
    · rw [ih, List.getLast?_append_cons]
      cases text with
      | nil => exact iff_of_true (by decide) (by simpa using hslash)
      | cons c text => rw [slashes, List.replicate_zero, List.nil_append, List.getLast?_cons_cons]

/-- The name of a program that is not quoted is read as it was. -/
theorem programName_plain (hplain : Plain arg) (h : Follows rest more) : programName false (arg ++ rest) = (arg,
    more) := by
  have hquote : wide '"' ∉ arg := fun hmem => (hplain _ hmem).2 rfl
  rw [programName_append hquote (.inr fun ch hch => (hplain ch hch).1), programName_follows h, push]
  exact congrArg (·, more) (List.append_nil arg)

/-- In one that is quoted the backslashes at the end are read twice. -/
theorem programName_quoted (hquote : wide '"' ∉ arg) (h : Follows rest more) :
    programName false (wide '"' :: (quoteLoop 0 arg ++ rest)) = (arg ++ slashes (pendingSlashes 0 arg), more) := by
  have hmore : wide '"' ∉ arg ++ slashes (pendingSlashes 0 arg) := by
    intro hmem
    rcases List.mem_append.mp hmem with hmem | hmem
    · exact hquote hmem
    · exact absurd (List.eq_of_mem_replicate hmem) (by decide)
  have hclose : programName true (wide '"' :: rest) = ([], more) := by
    rw [programName, if_pos rfl]
    exact programName_follows h
  rw [programName, if_pos rfl, quoteLoop_eq 0 hquote, List.append_assoc _ [wide '"'] rest]
  change programName true (arg ++ slashes (pendingSlashes 0 arg) ++ (wide '"' :: rest)) = _
  rw [programName_append hmore (.inl rfl), hclose, push, List.append_nil]

end

/-! ### Command lines -/

/-- The arguments of a command line, each with the blank in front of it. -/
def joined (args : List WString) : WString := args.flatMap fun argument => wide ' ' :: quoteWindowsArgument argument

/-- What is left behind the first blank. -/
def behind : List WString → WString
  | [] => []
  | arg :: args => quoteWindowsArgument arg ++ joined args

theorem follows_joined (args : List WString) : Follows (joined args) (behind args) := by
  cases args with
  | nil => exact .inl ⟨rfl, rfl⟩
  | cons arg args => exact .inr (List.flatMap_cons ..)

theorem arguments_behind {fuel : Nat} {args : List WString} (hfuel : args.length < fuel) :
    arguments fuel (behind args) = args := by
  induction args generalizing fuel with
  | nil =>
    cases fuel with
    | zero => exact absurd hfuel (Nat.not_lt_zero _)
    | succ fuel => rfl
  | cons arg args ih =>
    cases fuel with
    | zero => exact absurd hfuel (Nat.not_lt_zero _)
    | succ fuel =>
      obtain ⟨ch, rest, hquoted, hblank⟩ := quoteWindowsArgument_head arg
      have hread := argument_quoted arg (follows_joined args)
      rw [hquoted, List.cons_append] at hread
      rw [behind, hquoted, List.cons_append, arguments, List.dropWhile_cons_of_neg (by rw [hblank]; decide)]
      dsimp only
      rw [hread]
      dsimp only
      rw [ih (Nat.lt_of_succ_lt_succ hfuel)]

theorem length_behind (args : List WString) : args.length ≤ (behind args).length := by
  have hjoined (args : List WString) : args.length ≤ (joined args).length := by
    induction args with
    | nil => exact Nat.zero_le _
    | cons arg args ih =>
      rw [joined, List.flatMap_cons, List.length_append, List.length_cons, List.length_cons, ← joined]
      omega
  cases args with
  | nil => exact Nat.zero_le _
  | cons arg args =>
    obtain ⟨ch, rest, hquoted, -⟩ := quoteWindowsArgument_head arg
    have hrest := hjoined args
    rw [behind, hquoted, List.length_append, List.length_cons, List.length_cons]
    omega

/-- The command line of a process is split into the application and the arguments it was made of. -/
def SplitsBack (application : WString) (args : List WString) : Prop :=
  ∀ commandLine, startDetachedAsSessionUser application args = some commandLine →
    split commandLine = application :: args

/-- The application is quoted, and its last character is a backslash. -/
def QuotedDirectory (application : WString) : Prop :=
  (∃ ch ∈ application, wideBlank ch = true) ∧ application.getLast? = some (wide '\\')

/-- Nothing else than a quoted application that ends with a backslash is changed by the splitting. -/
theorem splitsBack_iff {application : WString} {args : List WString} (hquote : wide '"' ∉ application)
    (happlication : 0 ∉ application) (hargs : ∀ arg ∈ args, 0 ∉ arg) :
    SplitsBack application args ↔ ¬ QuotedDirectory application := by
  by_cases hempty : application = []
  · subst hempty
    refine iff_of_true (fun commandLine hnone => nomatch hnone) ?_
    rintro ⟨⟨ch, hch, -⟩, -⟩
    cases hch
  · have hstart : startDetachedAsSessionUser application args =
        some (quoteWindowsArgument application ++ joined args) := if_neg (mt List.isEmpty_iff.mp hempty)
    have hjoined : 0 ∉ joined args := by
      intro hmem
      obtain ⟨arg, harg, hmem⟩ := List.mem_flatMap.mp hmem
      rcases List.mem_cons.mp hmem with hmem | hmem
      · exact absurd hmem (by decide)
      · exact zero_not_mem_quoteWindowsArgument (hargs arg harg) hmem
    have hwhole : (quoteWindowsArgument application ++ joined args).takeWhile (· ≠ 0) =
        quoteWindowsArgument application ++ joined args := by
      refine List.takeWhile_eq_self_iff.mpr fun ch hch => decide_eq_true ?_
      rintro rfl
      rcases List.mem_append.mp hch with hch | hch
      · exact zero_not_mem_quoteWindowsArgument happlication hch
      · exact hjoined hch
    have hsplit {program : WString}
        (hprogram : programName false (quoteWindowsArgument application ++ joined args) = (program, behind args)) :
        SplitsBack application args ↔ program = application := by
      have hline : split (quoteWindowsArgument application ++ joined args) = program :: args := by
        rw [split, hwhole, hprogram]
        dsimp only
        rw [arguments_behind (Nat.lt_succ_of_le (length_behind args))]
      constructor
      · intro h
        exact (List.cons.inj (hline.symm.trans (h _ hstart))).1
      · rintro rfl commandLine hcommand
        obtain rfl := Option.some.inj (hstart.symm.trans hcommand)
        exact hline
    rcases quoteWindowsArgument_cases application with ⟨-, hplain, hquoted⟩ | ⟨hnot, hquoted⟩
    · have hprogram : programName false (quoteWindowsArgument application ++ joined args) = (application,
        behind args) := by
        rw [hquoted]
        exact programName_plain hplain (follows_joined args)
      refine iff_of_true ?_ ?_
      · exact (hsplit hprogram).mpr rfl
      · rintro ⟨⟨ch, hch, hblank⟩, -⟩
        exact absurd ((hplain ch hch).1.symm.trans hblank) (by decide)
    · have hprogram := programName_quoted hquote (follows_joined args)
      rw [← List.cons_append, ← hquoted] at hprogram
      have hblank : ∃ ch ∈ application, wideBlank ch = true := by
        by_contra hnone
        refine (hnot.resolve_left hempty) fun ch hch => ⟨?_, ?_⟩
        · exact eq_false_of_ne_true fun hblank => hnone ⟨ch, hch, hblank⟩
        · rintro rfl
          exact hquote hch
      rw [hsplit hprogram, QuotedDirectory, and_iff_right hblank, ← ne_eq]
      have hzero := pendingSlashes_eq_zero 0 application
      change _ ↔ application.getLast? ≠ _ at hzero
      rw [← hzero]
      constructor
      · intro hsame
        have hlength := congrArg List.length hsame
        rw [List.length_append, slashes, List.length_replicate] at hlength
        omega
      · intro hnone
        rw [hnone]
        exact List.append_nil application

theorem splitsBack_iff_blank :
    SplitsBack ("C:\\a b.exe".toList.map wide) ["\\\"".toList.map wide] ↔
      ¬ QuotedDirectory ("C:\\a b.exe".toList.map wide) :=
  splitsBack_iff (by decide +kernel) (by decide +kernel) (by decide +kernel)

/-- The backslash at the end of a quoted application is read twice. -/
theorem application_directory_doubled : ¬ ∀ (application : WString) (args : List WString),
    wide '"' ∉ application → 0 ∉ application → (∀ arg ∈ args, 0 ∉ arg) → SplitsBack application args := by
  intro h
  have hsplit := h ("C:\\a b\\".toList.map wide) [] (by decide +kernel) (by decide +kernel) (by decide) _ rfl
  exact absurd hsplit (by decide +kernel)

end CommandLine
end Synergy
