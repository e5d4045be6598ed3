import Synergy.Lib.Multimap
import Synergy.Server.LayoutEdits

/-! Writing a configuration, and reading one back that consists of screens alone. -/
namespace Synergy
open Synergy.Lib ConfigReadContext

namespace ConfigReadContext

/-- A line of characters that are neither blanks nor the start of a comment. -/
def Plain (line : Str) : Prop := ∀ c ∈ line, isgraph c = true ∧ c ≠ '#'

private theorem graph_not_space {c : Char} (h : isgraph c = true) : isBlank c = false ∧ isSpace c = false ∧
    c ≠ '\n' := by
  have hc : 33 ≤ c.toNat := by
    simp only [isgraph, Bool.and_eq_true, decide_eq_true_eq] at h
    exact h.1
  have hne {d : Char} (hd : d.toNat < 33) : c ≠ d := by
    rintro rfl
    omega
  have hblank : isBlank c = false := by
    simp [isBlank, hne (d := ' ') (by decide), hne (d := '\t') (by decide)]
  exact ⟨hblank, by simp [isSpace, hblank, hne (d := '\r') (by decide)], hne (by decide)⟩

theorem content_plain {line : Str} (h : Plain line) : content line = line := by
  have hbefore : beforeComment line = line := List.takeWhile_eq_self_iff.mpr fun c hc => by simpa using (h c hc).2
  have hleft : line.dropWhile isBlank = line := by
    cases line with
    | nil => rfl
    | cons c line => exact List.dropWhile_cons_of_neg (by simp [(graph_not_space (h c List.mem_cons_self).1).1])
  have hright : line.reverse.dropWhile isSpace = line.reverse := by
    cases hr : line.reverse with
    | nil => rfl
    | cons c back =>
      have hc : c ∈ line := List.mem_reverse.mp (hr ▸ List.mem_cons_self)
      exact List.dropWhile_cons_of_neg (by simp [(graph_not_space (h c hc).1).2.1])
  rw [content, hbefore, hleft, hright, List.reverse_reverse]

/-- The text of lines, each ended. -/
def textOf (lines : List Str) : Str := lines.flatMap (· ++ ['\n'])

theorem getlines_textOf {lines : List Str} (h : ∀ line ∈ lines, '\n' ∉ line) : getlines (textOf lines) = lines := by
  induction lines with
  | nil => rfl
  | cons line lines ih =>
    have hmore := ih fun other hother => h other (List.mem_cons_of_mem _ hother)
    rw [textOf, List.flatMap_cons, List.append_assoc, List.singleton_append, ← textOf,
      getlines_line (h line List.mem_cons_self), hmore]

/-- A line of the file that is handed out as what it says. -/
structure Says (raw : Str) : Prop where
  oneLine : '\n' ∉ raw
  said : (beforeComment raw).all isSpace = false
  printable : ((content raw).all fun c => isgraph c || isBlank c) = true

theorem handed_textOf {lines : List Str} (h : ∀ raw ∈ lines, Says raw) (firstLine : Nat) :
    handed (ofStream (textOf lines) firstLine).lines = (lines.map content).map some := by
  rw [handed_ofStream, givenLines, getlines_textOf fun raw hraw => (h raw hraw).oneLine]
  induction lines with
  | nil => rfl
  | cons raw lines ih =>
    have hraw := h raw List.mem_cons_self
    obtain ⟨hstripped, c, rest, hcontent, -⟩ := stripped_of_text hraw.said
    have hmore := ih fun other hother => h other (List.mem_cons_of_mem _ hother)
    rw [List.map_cons, hstripped, List.filter_cons_of_pos (by simp [hcontent]), List.map_cons, hmore,
      if_pos hraw.printable, List.map_cons, List.map_cons]

/-- A section whose lines are all accepted is read up to its end. -/
theorem eachLine_reads {σ : Type} (unexpectedEnd : String) {turn : σ → Str → Except String σ} (lastLine : Nat)
    {st st' : σ} {lines : List (Except ServerConfigReadException ConfigLine)} {body : List Str}
    {rest : List (Option Str)} (hlines : handed lines = body.map some ++ some "end".toList :: rest)
    (hbody : "end".toList ∉ body) (hturns : body.foldlM turn st = .ok st') :
    ∃ s, eachLine unexpectedEnd turn lastLine st lines = .ok (st', s) ∧ handed s.lines = rest := by
  induction body generalizing st lines with
  | nil =>
    obtain rfl := Except.ok.inj hturns
    cases lines with
    | nil => cases hlines
    | cons l more =>
      obtain ⟨hl, hmore⟩ := List.cons.inj hlines
      cases l with
      | error e => cases hl
      | ok line =>
        rw [eachLine, if_pos (Option.some.inj hl)]
        exact ⟨_, rfl, hmore⟩
  | cons text body ih =>
    obtain ⟨htext, hrest⟩ := not_or.mp fun hm => hbody (List.mem_cons.mpr hm)
    rw [List.foldlM_cons] at hturns
    obtain ⟨next, hturn, hafter⟩ := bind_eq_ok.mp hturns
    cases lines with
    | nil => cases hlines
    | cons l more =>
      obtain ⟨hl, hmore⟩ := List.cons.inj hlines
      cases l with
      | error e => cases hl
      | ok line =>
        obtain rfl : line.text = text := Option.some.inj hl
        rw [eachLine, if_neg (Ne.symm htext), hturn]
        exact ih hmore hrest hafter

end ConfigReadContext

namespace Config

/-- How the parts of lines are written: an option with its value, if it has a name and a text, a link
and a rule. -/
structure Forms where
  option : OptionID → OptionValue → Option Str
  link : CellEdge → CellEdge → Str
  rule : InputFilter.Rule → Str

def header (name : Str) : Str := '\t' :: (name ++ [':'])

def optionLines (forms : Forms) (indent : Str) (options : Option ScreenOptions) : List Str :=
  options.elim [] fun options => options.entries.filterMap fun o => (forms.option o.1 o.2).map (indent ++ ·)

/-- The lines of aliases in order of the screens they stand for, each screen named once. -/
def aliasLines : Str → List (Str × Str) → List Str
  | _, [] => []
  | screen, (canonical, name) :: more =>
    (if canonical ≠ screen then [header canonical] else []) ++ ("\t\t".toList ++ name) :: aliasLines canonical more

/-- The lines that `operator<<` writes. -/
def writtenLines (forms : Forms) (c : Config) : List Str :=
  ["section: screens".toList] ++
    c.map.keys.flatMap (fun screen => header screen :: optionLines forms "\t\t".toList (c.getOptions screen)) ++
    ["end".toList] ++
  ["section: links".toList] ++
    c.map.keys.flatMap (fun screen => header screen :: ((c.map.get? (c.getCanonicalName screen)).elim [] fun cell =>
      cell.neighbors.entries.map fun link => "\t\t".toList ++ forms.link link.1 link.2)) ++
    ["end".toList] ++
  (if c.map.size ≠ c.nameToCanonicalName.size then
    let aliases := (c.nameToCanonicalName.entries.filter fun e => e.1 ≠ e.2).foldl
      (fun aliases e => aliases.insert e.2 e.1) (Multimap.empty : Multimap Str.fold Str)
    ["section: aliases".toList] ++ aliasLines [] aliases.entries ++ ["end".toList]
  else []) ++
  ["section: options".toList] ++ optionLines forms "\t".toList (c.getOptions []) ++
    (if c.synergyAddress.isValid then ["\taddress = ".toList ++ c.synergyAddress.hostname] else []) ++
    c.inputFilter.map (fun rule => '\t' :: forms.rule rule) ++
    ["end".toList]

/-- The configuration of these screens alone. -/
def ofScreens (names : List Str) : Option Config := names.foldlM addScreen .empty

/-- What the tables of a configuration of screens hold. -/
structure Screens (c : Config) (names : List Str) : Prop where
  cells : ∀ e, e ∈ c.map.entries ↔ e.1 ∈ names ∧ e.2 = Cell.empty
  canonical : ∀ e, e ∈ c.nameToCanonicalName.entries ↔ e.1 ∈ names ∧ e.2 = e.1
  rest : c.synergyAddress = .empty ∧ c.globalOptions = .empty ∧ c.inputFilter = [] ∧ c.hasLockToScreenAction = false

private theorem screens_empty : Screens .empty [] := ⟨by simp [empty], by simp [empty], rfl, rfl, rfl, rfl⟩

theorem Screens.addScreen {c c' : Config} {names : List Str} {name : Str} (h : Screens c names)
    (hadd : c.addScreen name = some c') : Screens c' (names ++ [name]) := by
  unfold Config.addScreen at hadd
  split_ifs at hadd with hcontains
  obtain rfl := Option.some.inj hadd
  have hnames : c.nameToCanonicalName.contains name = false := by simpa using hcontains
  have hmap : c.map.contains name = false := by
    rw [Bool.eq_false_iff]
    intro hm
    obtain ⟨e, he, hfold⟩ := (c.map.contains_iff name).mp hm
    refine hcontains ((c.nameToCanonicalName.contains_iff name).mpr ⟨(e.1, e.1), ?_, hfold⟩)
    exact (h.canonical _).mpr ⟨((h.cells e).mp he).1, rfl⟩
  refine ⟨fun e => ?_, fun e => ?_, h.rest⟩
  · rw [c.map.mem_insert hmap, h.cells, List.mem_append, List.mem_singleton, Prod.ext_iff]
    constructor
    · rintro (⟨hname, hcell⟩ | ⟨hmem, hcell⟩)
      · exact ⟨.inr hname, hcell⟩
      · exact ⟨.inl hmem, hcell⟩
    · rintro ⟨hmem | hname, hcell⟩
      · exact .inr ⟨hmem, hcell⟩
      · exact .inl ⟨hname, hcell⟩
  · rw [c.nameToCanonicalName.mem_insert hnames, h.canonical, List.mem_append, List.mem_singleton, Prod.ext_iff]
    constructor
    · rintro (⟨hname, htarget⟩ | ⟨hmem, htarget⟩)
      · exact ⟨.inr hname, htarget.trans hname.symm⟩
      · exact ⟨.inl hmem, htarget⟩
    · rintro ⟨hmem | hname, htarget⟩
      · exact .inr ⟨hmem, htarget⟩
      · exact .inl ⟨hname, htarget.trans hname⟩

private theorem Screens.addScreens {c c' : Config} {before names : List Str} (h : Screens c before)
    (hadd : names.foldlM Config.addScreen c = some c') : Screens c' (before ++ names) := by
  induction names generalizing c before with
  | nil =>
    obtain rfl := Option.some.inj hadd
    rwa [List.append_nil]
  | cons name names ih =>
    rw [List.foldlM_cons] at hadd
    obtain ⟨next, hnext, hmore⟩ := Option.bind_eq_some_iff.mp hadd
    have hall := ih (h.addScreen hnext) hmore
    rwa [List.append_assoc] at hall

theorem screens_ofScreens {c : Config} {names : List Str} (h : ofScreens names = some c) : Screens c names :=
  screens_empty.addScreens h

theorem Screens.eq {c c' : Config} {names names' : List Str} (h : Screens c names) (h' : Screens c' names')
    (hnames : ∀ name, name ∈ names ↔ name ∈ names') : c = c' := by
  obtain ⟨map, canonical, address, options, rules, lock⟩ := c
  obtain ⟨map', canonical', address', options', rules', lock'⟩ := c'
  obtain ⟨rfl, rfl, rfl, rfl⟩ := h.rest
  obtain ⟨rfl, rfl, rfl, rfl⟩ := h'.rest
  have hmap : map = map' := SortedMap.ext_of_mem fun e =>
    (h.cells e).trans ((and_congr_left' (hnames e.1)).trans (h'.cells e).symm)
  have hcanonical : canonical = canonical' := SortedMap.ext_of_mem fun e =>
    (h.canonical e).trans ((and_congr_left' (hnames e.1)).trans (h'.canonical e).symm)
  rw [hmap, hcanonical]

theorem Screens.mem_keys {c : Config} {names : List Str} (h : Screens c names) (name : Str) :
    name ∈ c.map.keys ↔ name ∈ names := by
  rw [c.map.mem_keys]
  exact ⟨fun ⟨cell, he⟩ => ((h.cells _).mp he).1, fun hm => ⟨_, (h.cells (name, Cell.empty)).mpr ⟨hm, rfl⟩⟩⟩

/-- Names that are new and of different spellings can all be added. -/
private theorem Screens.admits {c : Config} {before names : List Str} (h : Screens c before)
    (hnew : ∀ name ∈ names, ∀ other ∈ before, other.fold ≠ name.fold)
    (hnames : names.Pairwise fun name other => name.fold ≠ other.fold) :
    ∃ c', names.foldlM Config.addScreen c = some c' := by
  induction names generalizing c before with
  | nil => exact ⟨c, rfl⟩
  | cons name names ih =>
    obtain ⟨hname, hnames⟩ := List.pairwise_cons.mp hnames
    have hcontains : c.nameToCanonicalName.contains name = false := by
      rw [Bool.eq_false_iff]
      intro hm
      obtain ⟨e, he, hfold⟩ := (c.nameToCanonicalName.contains_iff name).mp hm
      exact hnew name List.mem_cons_self e.1 ((h.canonical e).mp he).1 hfold
    obtain ⟨next, hnext⟩ : ∃ next, c.addScreen name = some next := by
      unfold Config.addScreen
      rw [if_neg (by simp [hcontains])]
      exact ⟨_, rfl⟩
    have hmore : ∀ other ∈ names, ∀ old ∈ before ++ [name], old.fold ≠ other.fold := by
      intro other hother old hold
      rcases List.mem_append.mp hold with hold | hold
      · exact hnew other (List.mem_cons_of_mem _ hother) old hold
      · exact List.mem_singleton.mp hold ▸ hname other hother
    obtain ⟨c', hc'⟩ := ih (h.addScreen hnext) hmore hnames
    refine ⟨c', ?_⟩
    rw [List.foldlM_cons, hnext]
    exact hc'

/-- The same screens in the order in which they are written. -/
theorem ofScreens_keys {c : Config} {names : List Str} (h : ofScreens names = some c) :
    ofScreens c.map.keys = some c := by
  have hscreens := screens_ofScreens h
  have hsorted : c.map.keys.Pairwise fun name other => name.fold ≠ other.fold :=
    List.pairwise_map.mpr (c.map.sorted.imp fun hlt => hlt.ne)
  obtain ⟨c', hc'⟩ := screens_empty.admits (by simp) hsorted
  have heq : c' = c := (screens_ofScreens hc').eq hscreens hscreens.mem_keys
  rw [ofScreens, hc', heq]

private theorem canonical_eq {c : Config} {names : List Str} (h : Screens c names) :
    c.nameToCanonicalName = c.map.mapValues fun name _ => name := by
  refine SortedMap.ext_of_mem fun e => ?_
  rw [h.canonical, SortedMap.mem_mapValues]
  constructor
  · rintro ⟨hmem, htarget⟩
    exact ⟨Cell.empty, (h.cells _).mpr ⟨hmem, rfl⟩, htarget⟩
  · rintro ⟨cell, he, htarget⟩
    exact ⟨((h.cells _).mp he).1, htarget⟩

private theorem get_cell {c : Config} {names : List Str} (h : Screens c names) {name : Str} (hname : name ∈ names) :
    c.map.get? name = some Cell.empty ∧ c.getCanonicalName name = name := by
  refine ⟨c.map.get?_of_mem ((h.cells (name, Cell.empty)).mpr ⟨hname, rfl⟩), ?_⟩
  have hget := c.nameToCanonicalName.get?_of_mem ((h.canonical (name, name)).mpr ⟨hname, rfl⟩)
  unfold getCanonicalName NameMap.getCanonicalName
  rw [hget, Option.getD_some]

/-- What is written for screens alone. -/
def screenLines (names : List Str) : List Str :=
  ["section: screens".toList] ++ names.map header ++ ["end".toList] ++
    ["section: links".toList] ++ names.map header ++ ["end".toList] ++
    ["section: options".toList] ++ ["end".toList]

theorem Screens.writtenLines {c : Config} {names : List Str} (h : Screens c names) (forms : Forms) :
    writtenLines forms c = screenLines c.map.keys := by
  obtain ⟨haddress, hoptions, hrules, -⟩ := h.rest
  have hscreen : ∀ name ∈ c.map.keys, c.getOptions name = some .empty := by
    intro name hname
    unfold getOptions
    split_ifs
    · rw [hoptions]
    · rw [(get_cell h ((h.mem_keys name).mp hname)).1]
      rfl
  have hoptionLines : c.map.keys.flatMap (fun screen => header screen ::
      optionLines forms "\t\t".toList (c.getOptions screen)) = c.map.keys.map header := by
    rw [List.map_eq_flatMap]
    refine List.flatMap_congr fun name hname => ?_
    rw [hscreen name hname]
    rfl
  have hlinkLines : c.map.keys.flatMap (fun screen => header screen ::
      ((c.map.get? (c.getCanonicalName screen)).elim [] fun cell =>
        cell.neighbors.entries.map fun link => "\t\t".toList ++ forms.link link.1 link.2)) =
      c.map.keys.map header := by
    rw [List.map_eq_flatMap]
    refine List.flatMap_congr fun name hname => ?_
    obtain ⟨hget, hcanonical⟩ := get_cell h ((h.mem_keys name).mp hname)
    rw [hcanonical, hget]
    rfl
  have hsize : ¬c.map.size ≠ c.nameToCanonicalName.size := by
    rw [canonical_eq h]
    simp [SortedMap.size, SortedMap.mapValues]
  have hglobal : c.getOptions [] = some .empty := congrArg some hoptions
  have hnone : optionLines forms "\t".toList (some .empty) = [] := rfl
  unfold Config.writtenLines
  rw [hoptionLines, hlinkLines, if_neg hsize, hglobal, haddress, hrules, hnone, if_neg (by decide), List.map_nil]
  simp only [List.append_nil]
  rfl

private theorem screensLine_header {c c' : Config} {screen name : Str} (hname : name ≠ []) (h : c.addScreen name =
    some c') :
    screensLine (c, screen) (name ++ [':']) = .ok (c', name) := by
  have hvalid : isValidScreenName name = true := by
    rw [isValidScreenName_eq]
    cases name with
    | nil => exact absurd rfl hname
    | cons ch name => rfl
  unfold screensLine
  rw [if_pos (by simp [isHeader]), List.dropLast_concat, hvalid, h]
  rfl

theorem screens_turns {c c' : Config} {names : List Str} (screen : Str) (hne : ∀ name ∈ names, name ≠ [])
    (h : names.foldlM Config.addScreen c = some c') :
    ∃ last, (names.map (· ++ [':'])).foldlM screensLine (c, screen) = .ok (c', last) := by
  induction names generalizing c screen with
  | nil =>
    obtain rfl := Option.some.inj h
    exact ⟨screen, rfl⟩
  | cons name names ih =>
    rw [List.foldlM_cons] at h
    obtain ⟨next, hnext, hmore⟩ := Option.bind_eq_some_iff.mp h
    obtain ⟨last, hlast⟩ := ih name (fun other hother => hne other (List.mem_cons_of_mem _ hother)) hmore
    refine ⟨last, ?_⟩
    rw [List.map_cons, List.foldlM_cons, screensLine_header (hne name List.mem_cons_self) hnext]
    exact hlast

theorem links_turns (asserted : AssertedLink) {c : Config} {names : List Str} (screen : Str)
    (hknown : ∀ name ∈ names, c.isScreen name = true ∧ c.isCanonicalName name = true) :
    ∃ last, (names.map (· ++ [':'])).foldlM (linksLine asserted) (c, screen) = .ok (c, last) := by
  induction names generalizing screen with
  | nil => exact ⟨screen, rfl⟩
  | cons name names ih =>
    obtain ⟨last, hlast⟩ := ih name fun other hother => hknown other (List.mem_cons_of_mem _ hother)
    obtain ⟨hscreen, hcanonical⟩ := hknown name List.mem_cons_self
    have hturn : linksLine asserted (c, screen) (name ++ [':']) = .ok (c, name) := by
      unfold linksLine knownScreen
      rw [if_pos (by simp [isHeader]), List.dropLast_concat, hscreen, hcanonical]
      rfl
    refine ⟨last, ?_⟩
    rw [List.map_cons, List.foldlM_cons, hturn]
    exact hlast

private theorem exists_line {lines : List (Except ServerConfigReadException ConfigLine)} {text : Str}
    {rest : List (Option Str)} (h : handed lines = some text :: rest) :
    ∃ line more, lines = .ok line :: more ∧ line.text = text ∧ handed more = rest := by
  cases lines with
  | nil => cases h
  | cons l more =>
    obtain ⟨hl, hmore⟩ := List.cons.inj h
    cases l with
    | error e => cases hl
    | ok line => exact ⟨line, more, rfl, Option.some.inj hl, hmore⟩

section
variable (asserted : AssertedLink) (nameToAddr : Str → Except SocketAddressError (List Nat)) (readRule : RuleReader)

private theorem end_not_header (names : List Str) : "end".toList ∉ names.map (· ++ [':']) := by
  intro h
  obtain ⟨name, -, hname⟩ := List.mem_map.mp h
  have hlast := congrArg List.getLast? hname
  rw [List.getLast?_concat] at hlast
  exact absurd hlast (by decide)

variable {asserted nameToAddr readRule}

/-- A section is left behind with what its turns come to. -/
private theorem readSections_turns {σ : Type} {c : Config} {s : ConfigReadContext} {text : Str} {body : List Str}
    {rest : List (Option Str)} {unexpectedEnd : String} {turn : σ → Str → Except String σ} {st st' : σ}
    {out : σ → Config}
    (hlines : handed s.lines = some text :: (body.map some ++ some "end".toList :: rest)) (hbody : "end".toList ∉ body)
    (hsection : ∀ (line : ConfigLine) more, line.text = text →
      readSection asserted nameToAddr readRule c ⟨.ok line :: more, s.lastLine⟩ =
        (eachLine unexpectedEnd turn s.lastLine st more).map fun r => (out r.1, r.2))
    (hturns : body.foldlM turn st = .ok st') :
    ∃ s', handed s'.lines = rest ∧
      readSections asserted nameToAddr readRule c s = readSections asserted nameToAddr readRule (out st') s' := by
  obtain ⟨line, more, hs, htext, hmore⟩ := exists_line hlines
  obtain ⟨s', hread, hrest⟩ := eachLine_reads unexpectedEnd s.lastLine hmore hbody hturns
  refine ⟨s', hrest, ?_⟩
  obtain ⟨lines, lastLine⟩ := s
  obtain rfl : lines = .ok line :: more := hs
  rw [readSections_cons c (List.cons_ne_nil _ _), hsection line more htext, hread]
  rfl

private theorem readSection_screens (c : Config) {line : ConfigLine} (lastLine : Nat)
    (more : List (Except ServerConfigReadException ConfigLine)) (h : line.text = "section: screens".toList) :
    readSection asserted nameToAddr readRule c ⟨.ok line :: more, lastLine⟩ =
      (eachLine "unexpected end of screens section" screensLine lastLine (c, []) more).map fun r => (r.1.1, r.2) := by
  unfold readSection readSectionScreens
  dsimp only
  rw [h, show sectionName "section: screens".toList = .ok "screens".toList from rfl]
  dsimp only
  rw [if_neg (by decide), if_pos rfl]

private theorem readSection_links (c : Config) {line : ConfigLine} (lastLine : Nat)
    (more : List (Except ServerConfigReadException ConfigLine)) (h : line.text = "section: links".toList) :
    readSection asserted nameToAddr readRule c ⟨.ok line :: more, lastLine⟩ =
      (eachLine "unexpected end of links section" (linksLine asserted) lastLine (c, []) more).map
        fun r => (r.1.1, r.2) := by
  unfold readSection readSectionLinks
  dsimp only
  rw [h, show sectionName "section: links".toList = .ok "links".toList from rfl]
  dsimp only
  rw [if_neg (by decide), if_neg (by decide), if_pos rfl]

private theorem readSection_options (c : Config) {line : ConfigLine} (lastLine : Nat)
    (more : List (Except ServerConfigReadException ConfigLine)) (h : line.text = "section: options".toList) :
    readSection asserted nameToAddr readRule c ⟨.ok line :: more, lastLine⟩ =
      (eachLine "unexpected end of options section" (optionsLine nameToAddr readRule) lastLine c more).map
        fun r => (id r.1, r.2) := by
  unfold readSection readSectionOptions
  dsimp only
  rw [h, show sectionName "section: options".toList = .ok "options".toList from rfl]
  dsimp only
  rw [if_pos rfl]
  cases eachLine "unexpected end of options section" (optionsLine nameToAddr readRule) lastLine c more <;> rfl

private theorem says_header {name : Str} (h : Plain name) :
    Says (header name) ∧ content (header name) = name ++ [':'] := by
  have hplain : Plain (name ++ [':']) := by
    intro c hc
    rcases List.mem_append.mp hc with hc | hc
    · exact h c hc
    · obtain rfl := List.mem_singleton.mp hc
      decide
  have hcontent : content (header name) = name ++ [':'] := by
    unfold header
    rw [content_cons rfl, content_plain hplain]
  refine ⟨⟨fun hm => ?_, ?_, ?_⟩, hcontent⟩
  · rcases List.mem_cons.mp hm with hm | hm
    · cases hm
    · exact (graph_not_space (hplain _ hm).1).2.2 rfl
  · by_contra hspace
    have hnone := (stripped_of_space (by simpa using hspace)).1
    rw [hcontent] at hnone
    simp at hnone
  · rw [hcontent, List.all_eq_true]
    exact fun c hc => by simp [(hplain c hc).1]

private theorem handed_screenLines {names : List Str} (h : ∀ name ∈ names, Plain name) (firstLine : Nat) :
    handed (ofStream (textOf (screenLines names)) firstLine).lines =
      some "section: screens".toList :: ((names.map (· ++ [':'])).map some ++ some "end".toList ::
        some "section: links".toList :: ((names.map (· ++ [':'])).map some ++ some "end".toList ::
          some "section: options".toList :: (([] : List Str).map some ++ some "end".toList :: []))) := by
  have hheaders : (names.map header).map content = names.map (· ++ [':']) := by
    rw [List.map_map]
    exact List.map_congr_left fun name hname => (says_header (h name hname)).2
  have hheader (raw : Str) (hraw : raw ∈ names.map header) : Says raw := by
    obtain ⟨name, hname, rfl⟩ := List.mem_map.mp hraw
    exact (says_header (h name hname)).1
  have hscreens : Says "section: screens".toList := ⟨by decide, by decide, by decide⟩
  have hlinks : Says "section: links".toList := ⟨by decide, by decide, by decide⟩
  have hoptions : Says "section: options".toList := ⟨by decide, by decide, by decide⟩
  have hend : Says "end".toList := ⟨by decide, by decide, by decide⟩
  have hsays : ∀ raw ∈ screenLines names, Says raw := by
    simp only [screenLines, List.forall_mem_append, List.forall_mem_singleton]
    exact ⟨⟨⟨⟨⟨⟨⟨hscreens, hheader⟩, hend⟩, hlinks⟩, hheader⟩, hend⟩, hoptions⟩, hend⟩
  have hcontents : content "section: screens".toList = "section: screens".toList ∧
      content "section: links".toList = "section: links".toList ∧
      content "section: options".toList = "section: options".toList ∧ content "end".toList = "end".toList := by decide
  obtain ⟨hcontent, hcontent', hcontent'', hcontentEnd⟩ := hcontents
  rw [handed_textOf hsays]
  simp only [screenLines, List.map_append, hheaders]
  simp only [List.map_cons, List.map_nil, hcontent, hcontent', hcontent'', hcontentEnd, List.append_assoc,
    List.cons_append, List.nil_append]

/-- The screen without a name comes first. -/
private theorem keys_of_unnamed {m : CellMap} (h : [] ∈ m.keys) : ∃ more, m.keys = [] :: more := by
  have hsorted : m.keys.Pairwise fun name other => name.fold < other.fold := List.pairwise_map.mpr m.sorted
  cases hkeys : m.keys with
  | nil => simp [hkeys] at h
  | cons name more =>
    rw [hkeys] at h hsorted
    rcases List.mem_cons.mp h with rfl | hmem
    · exact ⟨more, rfl⟩
    · exact absurd ((List.pairwise_cons.mp hsorted).1 [] hmem) (List.not_lt_nil _)

private theorem readSections_unnamed (c : Config) {s : ConfigReadContext} {rest : List (Option Str)}
    (hlines : handed s.lines = some "section: screens".toList :: some [':'] :: rest) :
    ∃ e, readSections asserted nameToAddr readRule c s = .error e := by
  obtain ⟨line, more, hs, htext, hmore⟩ := exists_line hlines
  obtain ⟨first, behind, rfl, hfirst, -⟩ := exists_line hmore
  obtain ⟨lines, lastLine⟩ := s
  obtain rfl : lines = .ok line :: .ok first :: behind := hs
  rw [readSections_cons c (List.cons_ne_nil _ _), readSection_screens c lastLine _ htext, eachLine, hfirst,
    if_neg (by decide), show screensLine (c, []) [':'] = .error "invalid screen name \"\"" from rfl]
  exact ⟨_, rfl⟩

/-- Screens with names are read back; a screen without a name is refused. -/
theorem read_written_iff (asserted : AssertedLink) (nameToAddr : Str → Except SocketAddressError (List Nat))
    (readRule : RuleReader) (forms : Forms) {c : Config} {names : List Str} (h : ofScreens names = some c)
    (hplain : ∀ name ∈ names, Plain name) :
    read asserted nameToAddr readRule (textOf (writtenLines forms c)) = .ok c ↔ ∀ name ∈ names, name ≠ [] := by
  have hscreens := screens_ofScreens h
  have hlines := @handed_screenLines c.map.keys (fun name hname => hplain name ((hscreens.mem_keys name).mp hname)) 1
  rw [hscreens.writtenLines]
  constructor
  · rintro hread name hname rfl
    obtain ⟨more, hkeys⟩ := keys_of_unnamed ((hscreens.mem_keys []).mpr hname)
    rw [hkeys] at hlines hread
    obtain ⟨e, he⟩ : ∃ e, readSections asserted nameToAddr readRule .empty
        (ofStream (textOf (screenLines ([] :: more))) 1) = .error e := readSections_unnamed .empty hlines
    rw [read, he] at hread
    cases hread
  · intro hnames
    have hnamed : ∀ name ∈ c.map.keys, name ≠ [] := fun name hname =>
      hnames name ((hscreens.mem_keys name).mp hname)
    have hknown : ∀ name ∈ c.map.keys, c.isScreen name = true ∧ c.isCanonicalName name = true := by
      intro name hname
      have hmem := (hscreens.mem_keys name).mp hname
      refine ⟨(c.nameToCanonicalName.contains_iff name).mpr ⟨_, (hscreens.canonical (name, name)).mpr ⟨hmem, rfl⟩,
          rfl⟩, ?_⟩
      unfold isCanonicalName
      rw [(get_cell hscreens hmem).2, Bool.and_eq_true, CaselessCmp.equal_iff]
      exact ⟨by simp [hnamed name hname], rfl⟩
    obtain ⟨last, hadded⟩ := screens_turns [] hnamed (ofScreens_keys h)
    obtain ⟨last', hlinked⟩ := links_turns asserted [] hknown
    obtain ⟨s₁, hrest, hscreensRead⟩ := readSections_turns hlines (end_not_header _)
      (fun line more => readSection_screens .empty _ more) hadded
    obtain ⟨s₂, hrest', hlinksRead⟩ := readSections_turns hrest (end_not_header _)
      (fun line more => readSection_links c _ more) hlinked
    obtain ⟨s₃, hrest'', hoptionsRead⟩ := readSections_turns hrest' List.not_mem_nil
      (fun line more => readSection_options c _ more) rfl
    rw [read, hscreensRead, hlinksRead, hoptionsRead]
    exact readSections_nil c (handed_eq_nil.mp hrest'')

end

end Config
end Synergy
