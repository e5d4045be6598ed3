import Synergy.Server.ConfigSections

/-! The options of the screens and the global ones, after any calls that add and remove them. -/
namespace Synergy
open Synergy.Lib ConfigReadContext

namespace Config

/-- The name is the global one or names a screen. -/
def hasStore (c : Config) (name : Str) : Bool := name.isEmpty || c.map.contains name

/-- The value that `getOptions` shows for an option. -/
def option? (c : Config) (name : Str) (option : OptionID) : Option OptionValue :=
  (c.getOptions name).bind fun options => options.get? option

end Config

inductive OptionCall where
  | addOption (name : Str) (option : OptionID) (value : OptionValue)
  | removeOption (name : Str) (option : OptionID)
  | removeOptions (name : Str)
  deriving DecidableEq

namespace OptionCall

def name : OptionCall → Str
  | addOption name _ _ | removeOption name _ | removeOptions name => name

def change : OptionCall → ScreenOptions → ScreenOptions
  | addOption _ option value, options => options.insert option value
  | removeOption _ option, options => options.erase option
  | removeOptions _, _ => .empty

/-- A call on a configuration, which stays as it is when the call returns false. -/
def apply (c : Config) : OptionCall → Config
  | addOption name option value => (c.addOption name option value).getD c
  | removeOption name option => (c.removeOption name option).getD c
  | removeOptions name => (c.removeOptions name).getD c

def run (c : Config) (calls : List OptionCall) : Config := calls.foldl apply c

/-- What a call does to the record of the values that an option was given since it was last removed. -/
def record (name : Str) (option : OptionID) (values : List OptionValue) : OptionCall → List OptionValue
  | addOption n o value => if n.fold = name.fold ∧ o = option then values ++ [value] else values
  | removeOption n o => if n.fold = name.fold ∧ o = option then [] else values
  | removeOptions n => if n.fold = name.fold then [] else values

/-- The values that an option was given since it was last removed, the one it has at the start first. -/
def written (start : Option OptionValue) (calls : List OptionCall) (name : Str) (option : OptionID) :
    List OptionValue :=
  calls.foldl (record name option) start.toList

theorem apply_eq (c : Config) (call : OptionCall) : call.apply c = (c.withOptions call.name call.change).getD c := by
  cases call <;> rfl

end OptionCall

namespace Config
open OptionCall

private theorem fold_eq_nil {name : Str} : name.fold = [] ↔ name = [] := by
  simp [Str.fold]

theorem getOptions_withOptions {c : Config} {name : Str} (change : ScreenOptions → ScreenOptions) (n : Str)
    (hs : c.hasStore name = true) :
    ((c.withOptions name change).getD c).getOptions n =
      if name.fold = n.fold then (c.getOptions n).map change else c.getOptions n := by
  unfold withOptions getOptions
  by_cases hname : name.isEmpty = true
  · obtain rfl := List.isEmpty_iff.mp hname
    by_cases hn : n.isEmpty = true
    · obtain rfl := List.isEmpty_iff.mp hn
      simp
    · have hne : ¬Str.fold [] = n.fold := fun h => hn (List.isEmpty_iff.mpr (fold_eq_nil.mp h.symm))
      simp [hn, hne]
  · have hstore : c.map.contains name = true := by simpa [hasStore, hname] using hs
    obtain ⟨index, hfind⟩ := Option.isSome_iff_exists.mp hstore
    obtain ⟨hmem, hrank⟩ := (c.map.find?_eq_some_iff _ _).mp hfind
    simp only [hname, hfind, Bool.false_eq_true, if_false, Option.getD_some]
    by_cases hn : n.isEmpty = true
    · obtain rfl := List.isEmpty_iff.mp hn
      have hne : ¬name.fold = Str.fold [] := fun h => hname (List.isEmpty_iff.mpr (fold_eq_nil.mp h))
      simp [hne]
    · simp only [hn, Bool.false_eq_true, if_false, SortedMap.get?, SortedMap.find?_mapValues, Option.map_map,
        Function.comp_def]
      by_cases heq : name.fold = n.fold
      · simp [← c.map.find?_congr heq, hfind, heq]
      · rw [if_neg heq]
        cases hf : c.map.find? n with
        | none => rfl
        | some e =>
          have he := (c.map.find?_eq_some_iff _ _).mp hf
          have hne : ¬e.1 = index.1 := fun h => heq (by rw [← hrank, ← he.2, h])
          simp [hne]

theorem hasStore_withOptions (c : Config) (name : Str) (change : ScreenOptions → ScreenOptions) (n : Str) :
    ((c.withOptions name change).getD c).hasStore n = c.hasStore n := by
  unfold withOptions hasStore
  split_ifs
  · rfl
  · cases c.map.find? name with
    | none => rfl
    | some index => simp [SortedMap.contains_mapValues]

theorem hasStore_congr (c : Config) {name n : Str} (h : name.fold = n.fold) : c.hasStore name = c.hasStore n := by
  have hnil : name = [] ↔ n = [] := fold_eq_nil.symm.trans (h ▸ fold_eq_nil)
  have hempty : name.isEmpty = n.isEmpty := by
    rw [Bool.eq_iff_iff, List.isEmpty_iff, List.isEmpty_iff, hnil]
  rw [hasStore, hasStore, hempty, c.map.contains_congr h]

theorem getOptions_isSome (c : Config) (name : Str) : (c.getOptions name).isSome = c.hasStore name := by
  unfold getOptions hasStore
  by_cases hname : name.isEmpty = true <;> simp [hname, SortedMap.contains_eq_isSome_get?]

theorem option?_withOptions {c : Config} {name : Str} (change : ScreenOptions → ScreenOptions) {n : Str}
    (option : OptionID) (hs : c.hasStore name = true) (heq : name.fold = n.fold) :
    ((c.withOptions name change).getD c).option? n option =
      (c.getOptions n).bind fun options => (change options).get? option := by
  rw [option?, getOptions_withOptions change n hs, if_pos heq]
  cases c.getOptions n <;> rfl

/-- Every option has the first of the values it was given, one of those before the calls first. -/
def Records (c c' : Config) (calls : List OptionCall) : Prop :=
  ∀ name option values, c.option? name option = values.head? →
    c'.option? name option = (calls.foldl (record name option) values).head?

theorem Records.refl (c : Config) : Records c c [] := fun _ _ _ h => h

theorem Records.trans {c c' c'' : Config} {calls more : List OptionCall} (h : Records c c' calls)
    (h' : Records c' c'' more) : Records c c'' (calls ++ more) := by
  intro name option values hvalues
  rw [List.foldl_append]
  exact h' name option _ (h name option values hvalues)

/-- A call on a store that exists: an option that is there already is not replaced. -/
theorem Records.apply {c : Config} {call : OptionCall} (hcall : c.hasStore call.name = true) :
    Records c (call.apply c) [call] := by
  intro name option values hvalues
  rw [apply_eq, List.foldl_cons, List.foldl_nil]
  by_cases heq : call.name.fold = name.fold
  · rw [option?_withOptions _ _ hcall heq]
    have hname : c.hasStore name = true := (c.hasStore_congr heq).symm.trans hcall
    obtain ⟨options, hoptions⟩ := Option.isSome_iff_exists.mp ((c.getOptions_isSome name).trans hname)
    rw [option?, hoptions, Option.bind_some] at hvalues
    rw [hoptions, Option.bind_some]
    cases call with
    | addOption n o value =>
      simp only [OptionCall.name] at heq
      simp only [change, record, heq, true_and, SortedMap.get?_insert]
      by_cases ho : o = option
      · subst ho
        cases values with
        | nil => simp [SortedMap.contains_eq_isSome_get?, hvalues]
        | cons v values => simp [SortedMap.contains_eq_isSome_get?, hvalues]
      · simp [ho, hvalues]
    | removeOption n o =>
      simp only [OptionCall.name] at heq
      simp only [change, record, heq, true_and, SortedMap.get?_erase]
      by_cases ho : o = option
      · simp [ho]
      · simp [ho, Ne.symm ho, hvalues]
    | removeOptions n =>
      simp only [OptionCall.name] at heq
      simp [change, record, heq]
  · have hkept : record name option values call = values := by
      cases call <;> simp only [OptionCall.name] at heq <;> simp [record, heq]
    rw [hkept, ← hvalues, option?, option?, getOptions_withOptions _ _ hcall, if_neg heq]

theorem Records.run {c : Config} {calls : List OptionCall} (hcalls : ∀ call ∈ calls, c.hasStore call.name = true) :
    Records c (run c calls) calls := by
  induction calls generalizing c with
  | nil => exact Records.refl c
  | cons call calls ih =>
    refine (Records.apply (hcalls call List.mem_cons_self)).trans (ih fun other hother => ?_)
    rw [apply_eq, hasStore_withOptions]
    exact hcalls other (List.mem_cons_of_mem _ hother)

/-- A step that changes no options. -/
theorem Records.of_kept {c c' : Config} (h : ∀ name, c'.option? name = c.option? name) : Records c c' [] := by
  intro name option values hvalues
  rw [h name]
  exact hvalues

/-- What the calls make of the options is the last value that each was given, and the stores that no call
names keep theirs. -/
structure ObeysLastWrite (c c' : Config) (calls : List OptionCall) : Prop where
  last : ∀ name option, c'.option? name option = (written (c.option? name option) calls name option).getLast?
  others : ∀ name, (∀ call ∈ calls, call.name.fold ≠ name.fold) →
    ∀ option, c'.option? name option = c.option? name option

/-- Of the values that an option was given since its last removal, the first one is the last one as well. -/
def GivenOneValue (c : Config) (calls : List OptionCall) : Prop :=
  ∀ name option,
    (written (c.option? name option) calls name option).head? =
        (written (c.option? name option) calls name option).getLast?

private theorem head?_toList (start : Option OptionValue) : start = start.toList.head? := by
  cases start <;> rfl

private theorem foldl_record_others {calls : List OptionCall} {name : Str}
    (hother : ∀ call ∈ calls, call.name.fold ≠ name.fold) (option : OptionID) (values : List OptionValue) :
    calls.foldl (record name option) values = values := by
  induction calls with
  | nil => rfl
  | cons call calls ih =>
    have hne := hother call List.mem_cons_self
    have hkept : record name option values call = values := by
      cases call <;> simp only [OptionCall.name] at hne <;> simp [record, hne]
    rw [List.foldl_cons, hkept]
    exact ih fun other h => hother other (List.mem_cons_of_mem _ h)

theorem Records.obeysLastWrite_iff {c c' : Config} {calls : List OptionCall} (h : Records c c' calls) :
    ObeysLastWrite c c' calls ↔ GivenOneValue c calls := by
  have hfirst (name : Str) (option : OptionID) :
      c'.option? name option = (written (c.option? name option) calls name option).head? :=
    h name option _ (head?_toList _)
  constructor
  · intro hobeys name option
    rw [← hobeys.last, hfirst]
  · intro hone
    refine ⟨fun name option => (hfirst name option).trans (hone name option), fun name hother option => ?_⟩
    rw [hfirst, written, foldl_record_others hother, ← head?_toList]

/-- The call that a line of the options section makes. -/
def optionsCall (line : Str) : Option OptionCall :=
  match parseNameWithArgs "name" ['='] line with
  | .error _ => none
  | .ok (name, rest) =>
    match parseNameWithArgs "value" [',', ';', '\n'] (rest.drop 1) with
    | .error _ => none
    | .ok (value, _) =>
      if name.name = "protocol".toList ∨ name.name = "address".toList then none
      else
        match globalArguments.find? fun e => e.1.toList = name.name with
        | none => none
        | some (_, option, parse) => (parse value.name).toOption.map (.addOption [] option)

/-- The call that a line about a screen makes. -/
def screensCall (screen line : Str) : Option OptionCall :=
  let inName (ch : Char) : Bool := !isBlank ch && ch ≠ '='
  let value := (((line.dropWhile inName).dropWhile isBlank).drop 1).dropWhile isBlank
  match screenArguments.find? fun e => e.1.toList = line.takeWhile inName with
  | none => none
  | some (_, option, parse) => (parse value).toOption.map (.addOption screen option)

/-- The calls that the lines of the screens section make, each on the screen of the header above it. -/
def screensCalls : Str → List Str → List OptionCall
  | _, [] => []
  | screen, line :: next =>
    if isHeader line then screensCalls line.dropLast next
    else (screensCall screen line).toList ++ screensCalls screen next

/-- A rule leaves the options and the screens alone. -/
def KeepsStores (readRule : RuleReader) : Prop :=
  ∀ c condition action rest c', readRule c condition action rest = .ok c' →
    c'.globalOptions = c.globalOptions ∧ c'.map = c.map

private theorem option?_of_stores {c c' : Config} (hglobal : c'.globalOptions = c.globalOptions) (hmap : c'.map = c.map)
    (name : Str) : c'.option? name = c.option? name := by
  funext option
  rw [option?, option?, getOptions, getOptions, hglobal, hmap]

private theorem records_optionsLine {nameToAddr : Str → Except SocketAddressError (List Nat)} {readRule : RuleReader}
    (hrule : KeepsStores readRule) {c c' : Config} {line : Str} (h : optionsLine nameToAddr readRule c line = .ok c') :
    Records c c' (optionsCall line).toList := by
  unfold optionsLine at h
  unfold optionsCall
  obtain ⟨⟨name, behind⟩, hname, hbehind⟩ := bind_eq_ok.mp h
  obtain ⟨⟨value, rest⟩, hvalue, h⟩ := bind_eq_ok.mp hbehind
  dsimp only at h
  simp only [hname, hvalue]
  by_cases hprotocol : name.name = "protocol".toList
  · rw [if_pos hprotocol] at h
    cases h
    rw [if_pos (.inl hprotocol)]
    exact Records.refl c
  · rw [if_neg hprotocol] at h
    unfold plainOption at h
    by_cases haddress : name.name = "address".toList
    · rw [if_pos (.inr haddress)]
      rw [if_pos haddress] at h
      dsimp only at h
      split at h
      · cases h
      · rename_i c'' hhandled
        split at hhandled
        · cases hhandled
        · cases hhandled
          split_ifs at h
          cases h
          exact Records.of_kept (option?_of_stores rfl rfl)
    · rw [if_neg (not_or.mpr ⟨hprotocol, haddress⟩)]
      rw [if_neg haddress] at h
      cases hfound : globalArguments.find? fun e => e.1.toList = name.name with
      | none =>
        simp only [hfound, Option.map_none] at h
        obtain ⟨hglobal, hmap⟩ := hrule _ _ _ _ _ h
        exact Records.of_kept (option?_of_stores hglobal hmap)
      | some found =>
        obtain ⟨text, option, parse⟩ := found
        simp only [hfound, Option.map_some] at h
        cases hparse : parse value.name with
        | error error => simp [hparse, Except.map] at h
        | ok v =>
          simp only [hparse, Except.map] at h
          split_ifs at h
          cases h
          have hcall : Records c (OptionCall.apply c (.addOption [] option v)) [.addOption [] option v] :=
            Records.apply rfl
          simp only [hparse]
          exact hcall

/-- The options section gives every option the first of its values. -/
theorem records_readSectionOptions {nameToAddr : Str → Except SocketAddressError (List Nat)} {readRule : RuleReader}
    (hrule : KeepsStores readRule) {c c' : Config} {s s' : ConfigReadContext}
    (h : readSectionOptions nameToAddr readRule c s = .ok (c', s')) :
    Records c c' ((sectionLines s.lines).filterMap optionsCall) := by
  refine eachLine_run (R := fun c lines c' => Records c c' (lines.filterMap optionsCall)) Records.refl ?_ h
  intro c line next lines c' hturn hmore
  have hcalls : (line :: lines).filterMap optionsCall = (optionsCall line).toList ++ lines.filterMap optionsCall := by
    cases hcall : optionsCall line <;> simp [hcall]
  rw [hcalls]
  exact (records_optionsLine hrule hturn).trans hmore

private theorem addScreen_stores {c c' : Config} {name : Str} (h : c.addScreen name = some c') :
    (∀ n, c'.option? n = c.option? n) ∧ c'.hasStore name = true := by
  unfold addScreen at h
  split_ifs at h
  cases h
  constructor
  · intro n
    funext option
    rw [option?, option?, getOptions, getOptions]
    by_cases hn : n.isEmpty = true
    · rw [if_pos hn, if_pos hn]
    · rw [if_neg hn, if_neg hn]
      dsimp only
      rw [SortedMap.get?_insert]
      split_ifs with hnew
      · have hnone : c.map.get? n = none := by
          rw [← c.map.get?_congr hnew.1, ← Option.not_isSome_iff_eq_none, ← SortedMap.contains_eq_isSome_get?, hnew.2]
          simp
        rw [hnone]
        rfl
      · rfl
  · refine Bool.or_eq_true_iff.mpr (.inr ?_)
    rw [SortedMap.contains_eq_isSome_get?, SortedMap.get?_insert]
    split_ifs with hnew
    · rfl
    · rw [← SortedMap.contains_eq_isSome_get?]
      simpa using hnew

private theorem records_screensArgument {c c' : Config} {screen line : Str} (hs : c.hasStore screen = true)
    (h : screensArgument c screen line = .ok c') :
    Records c c' (screensCall screen line).toList ∧ c'.hasStore screen = true := by
  unfold screensArgument at h
  dsimp only at h
  split_ifs at h
  unfold screensCall
  dsimp only
  split at h
  · cases h
  · rename_i text option parse hfound
    split at h
    · cases h
    · rename_i value hparse
      cases h
      have hcall : Records c (OptionCall.apply c (.addOption screen option value)) [.addOption screen option value] :=
        Records.apply hs
      refine ⟨?_, ?_⟩
      · simp only [hfound, hparse]
        exact hcall
      · exact ((congrArg (hasStore · screen) (apply_eq c (.addOption screen option value))).trans
          (c.hasStore_withOptions _ _ _)).trans hs

private theorem records_screensLine {st st' : Config × Str} {line : Str} (hs : st.1.hasStore st.2 = true)
    (h : screensLine st line = .ok st') :
    Records st.1 st'.1 (if isHeader line then [] else (screensCall st.2 line).toList) ∧
      st'.1.hasStore st'.2 = true ∧ st'.2 = if isHeader line then line.dropLast else st.2 := by
  unfold screensLine at h
  by_cases hheader : isHeader line = true
  · rw [if_pos hheader] at h
    rw [if_pos hheader, if_pos hheader]
    split_ifs at h
    cases hadd : st.1.addScreen line.dropLast with
    | none => simp [hadd] at h
    | some c =>
      rw [hadd] at h
      cases h
      obtain ⟨hkept, hstore⟩ := addScreen_stores hadd
      exact ⟨Records.of_kept hkept, hstore, rfl⟩
  · rw [if_neg hheader] at h
    rw [if_neg hheader, if_neg hheader]
    split_ifs at h
    cases harg : screensArgument st.1 st.2 line with
    | error error => simp [harg, Except.map] at h
    | ok c =>
      rw [harg] at h
      cases h
      obtain ⟨hrecords, hstore⟩ := records_screensArgument hs harg
      exact ⟨hrecords, hstore, rfl⟩

/-- The screens section gives every option of a screen the first of its values. -/
theorem records_readSectionScreens {c : Config} {st' : Config × Str} {s s' : ConfigReadContext}
    (h : readSectionScreens c s = .ok (st', s')) : Records c st'.1 (screensCalls [] (sectionLines s.lines)) := by
  refine eachLine_run (R := fun st lines st' => st.1.hasStore st.2 = true →
      Records st.1 st'.1 (screensCalls st.2 lines))
    (fun st _ => Records.refl st.1) ?_ h rfl
  intro st line next lines st' hturn hmore hs
  obtain ⟨hrecords, hnext, hscreen⟩ := records_screensLine hs hturn
  have hrun := hrecords.trans (hmore hnext)
  rw [hscreen] at hrun
  rw [screensCalls]
  split_ifs at hrun ⊢
  · exact hrun
  · exact hrun

/-- A store obeys the last write, after calls that a program makes or that the lines of a section make, exactly
when the first value that an option is given since its last removal is also the last one. -/
theorem last_write_iff (nameToAddr : Str → Except SocketAddressError (List Nat)) (readRule : RuleReader)
    (hrule : KeepsStores readRule) (c : Config) :
    (∀ calls : List OptionCall, (∀ call ∈ calls, c.hasStore call.name = true) →
      (ObeysLastWrite c (run c calls) calls ↔ GivenOneValue c calls)) ∧
    (∀ s c' s', readSectionOptions nameToAddr readRule c s = .ok (c', s') →
      (ObeysLastWrite c c' ((sectionLines s.lines).filterMap optionsCall) ↔
        GivenOneValue c ((sectionLines s.lines).filterMap optionsCall))) ∧
    (∀ s st' s', readSectionScreens c s = .ok (st', s') →
      (ObeysLastWrite c st'.1 (screensCalls [] (sectionLines s.lines)) ↔
        GivenOneValue c (screensCalls [] (sectionLines s.lines)))) := by
  refine ⟨fun calls hcalls => (Records.run hcalls).obeysLastWrite_iff, fun s c' s' h => ?_, fun s st' s' h => ?_⟩
  · exact (records_readSectionOptions hrule h).obeysLastWrite_iff
  · exact (records_readSectionScreens h).obeysLastWrite_iff

def twoHeartbeats : ConfigReadContext := ofStream "heartbeat = 5\nheartbeat = 7\nend\n".toList 1

def twoHeartbeatCalls : List OptionCall :=
  [.addOption [] kOptionHeartbeat 5, .addOption [] kOptionHeartbeat 7]

/-- A second value for an option is dropped, by calls and by lines of a configuration. -/
theorem second_heartbeat_dropped :
    ¬ObeysLastWrite .empty (run .empty twoHeartbeatCalls) twoHeartbeatCalls ∧
      ∃ c s, readSectionOptions (fun _ => .ok []) noRule .empty twoHeartbeats = .ok (c, s) ∧
        ¬ObeysLastWrite .empty c ((sectionLines twoHeartbeats.lines).filterMap optionsCall) := by
  refine ⟨fun h => absurd (h.last [] kOptionHeartbeat) (by decide), ?_⟩
  have hread : ((readSectionOptions (fun _ => .ok []) noRule .empty twoHeartbeats).toOption.bind fun r =>
      r.1.option? [] kOptionHeartbeat) = some 5 := by
    decide +kernel
  have hcalls : (written none ((sectionLines twoHeartbeats.lines).filterMap optionsCall) [] kOptionHeartbeat).getLast? =
      some 7 := by
    decide +kernel
  cases hsection : readSectionOptions (fun _ => .ok []) noRule .empty twoHeartbeats with
  | error error => simp [hsection, Except.toOption] at hread
  | ok r =>
    obtain ⟨c, s⟩ := r
    refine ⟨c, s, rfl, fun hobeys => ?_⟩
    have hfive : c.option? [] kOptionHeartbeat = some 5 := by simpa [hsection, Except.toOption] using hread
    have hseven : c.option? [] kOptionHeartbeat = some 7 := (hobeys.last [] kOptionHeartbeat).trans hcalls
    simp [hfive] at hseven

theorem last_write_iff_twoHeartbeats :
    ObeysLastWrite .empty (run .empty twoHeartbeatCalls) twoHeartbeatCalls ↔ GivenOneValue .empty twoHeartbeatCalls :=
  (last_write_iff (fun _ => .ok []) noRule (fun _ _ _ _ _ h => nomatch h) .empty).1 twoHeartbeatCalls (by decide)

end Config
end Synergy
