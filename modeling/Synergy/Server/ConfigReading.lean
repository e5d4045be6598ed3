import Synergy.Server.ConfigSections

/-! A whole configuration, section by section. Line numbers only show in exceptions, so that
a reading goes by the texts of the lines that are handed out. -/
namespace Synergy
open Synergy.Lib ConfigReadContext

namespace ConfigReadContext

/-- The text of a line that is handed out, if it is not one that throws. -/
def handed (lines : List (Except ServerConfigReadException ConfigLine)) : List (Option Str) :=
  lines.map fun line => line.toOption.map ConfigLine.text

theorem handed_eq_nil {lines : List (Except ServerConfigReadException ConfigLine)} : handed lines = [] ↔ lines = [] :=
  List.map_eq_nil_iff

theorem eachLine_length {σ : Type} {unexpectedEnd : String} {turn : σ → Str → Except String σ} {lastLine : Nat}
    {st st' : σ} {lines : List (Except ServerConfigReadException ConfigLine)} {s : ConfigReadContext}
    (h : eachLine unexpectedEnd turn lastLine st lines = .ok (st', s)) : s.lines.length < lines.length := by
  induction lines generalizing st with
  | nil => cases h
  | cons l lines ih =>
    cases l with
    | error e => cases h
    | ok line =>
      rw [eachLine] at h
      split_ifs at h
      · cases h
        exact Nat.lt_succ_self _
      · split at h
        · cases h
        · exact Nat.lt_succ_of_lt (ih h)

/-- Two readings that agree, but for the numbers of lines. -/
def SameReading {σ : Type} : Except ServerConfigReadException (σ × ConfigReadContext) →
    Except ServerConfigReadException (σ × ConfigReadContext) → Prop
  | .ok r, .ok r' => r.1 = r'.1 ∧ handed r.2.lines = handed r'.2.lines
  | .error _, .error _ => True
  | _, _ => False

theorem SameReading.map {σ τ : Type} {r r' : Except ServerConfigReadException (σ × ConfigReadContext)}
    (h : SameReading r r') (f : σ → τ) : SameReading (r.map fun x => (f x.1, x.2)) (r'.map fun x => (f x.1, x.2)) := by
  cases r with
  | error e =>
    cases r' with
    | error e' => trivial
    | ok x' => cases h
  | ok x =>
    cases r' with
    | error e' => cases h
    | ok x' => exact ⟨congrArg f h.1, h.2⟩

theorem eachLine_same {σ : Type} (unexpectedEnd : String) (turn : σ → Str → Except String σ) (lastLine lastLine' : Nat)
    (st : σ) {lines lines' : List (Except ServerConfigReadException ConfigLine)} (h : handed lines = handed lines') :
    SameReading (eachLine unexpectedEnd turn lastLine st lines) (eachLine unexpectedEnd turn lastLine' st lines') := by
  induction lines generalizing st lines' with
  | nil =>
    cases lines' with
    | nil => trivial
    | cons l' lines' => cases h
  | cons l lines ih =>
    cases lines' with
    | nil => cases h
    | cons l' lines' =>
      obtain ⟨hl, hmore⟩ := List.cons.inj h
      cases l with
      | error e =>
        cases l' with
        | error e' => trivial
        | ok line' => cases hl
      | ok line =>
        cases l' with
        | error e' => cases hl
        | ok line' =>
          have htext : line.text = line'.text := Option.some.inj hl
          rw [eachLine, eachLine, ← htext]
          by_cases hend : line.text = "end".toList
          · rw [if_pos hend, if_pos hend]
            exact ⟨rfl, hmore⟩
          · rw [if_neg hend, if_neg hend]
            cases turn st line.text with
            | error error => trivial
            | ok next => exact ih next hmore

/-- A section that is read has only lines to read up to its end that are handed out. -/
theorem eachLine_handed {σ : Type} {unexpectedEnd : String} {turn : σ → Str → Except String σ} {lastLine : Nat}
    {st st' : σ} {lines : List (Except ServerConfigReadException ConfigLine)} {s : ConfigReadContext}
    (h : eachLine unexpectedEnd turn lastLine st lines = .ok (st', s)) :
    handed lines = (sectionLines lines).map some ++ some "end".toList :: handed s.lines := by
  induction lines generalizing st with
  | nil => cases h
  | cons l lines ih =>
    cases l with
    | error e => cases h
    | ok line =>
      rw [eachLine] at h
      rw [sectionLines]
      by_cases hend : line.text = "end".toList
      · rw [if_pos hend] at h ⊢
        cases h
        simp [handed, Except.toOption, hend]
      · rw [if_neg hend] at h ⊢
        split at h
        · cases h
        · have hmore := ih h
          rw [handed, List.map_cons, ← handed, hmore]
          rfl

end ConfigReadContext

namespace Config

/-- The name in the header of a section. -/
def sectionName (line : Str) : Except String Str :=
  if !"section:".toList.isPrefixOf line then .error "found data outside section"
  else
    let name := (line.drop 8).dropWhile isBlank
    if name.isEmpty then .error "section name is missing"
    else if name.any isBlank then .error "unexpected data after section name"
    else .ok name

section
variable (asserted : AssertedLink) (nameToAddr : Str → Except SocketAddressError (List Nat)) (readRule : RuleReader)

def readSection (c : Config) (s : ConfigReadContext) : Except ServerConfigReadException (Config × ConfigReadContext) :=
  match s.lines with
  | [] => .ok (c, s)
  | .error e :: _ => .error e
  | .ok line :: more =>
    match sectionName line.text with
    | .error error => .error ⟨line.number, error⟩
    | .ok name =>
      if name = "options".toList then readSectionOptions nameToAddr readRule c ⟨more, s.lastLine⟩
      else if name = "screens".toList then
        (readSectionScreens c ⟨more, s.lastLine⟩).map fun r => (r.1.1, r.2)
      else if name = "links".toList then
        (readSectionLinks asserted c ⟨more, s.lastLine⟩).map fun r => (r.1.1, r.2)
      else if name = "aliases".toList then
        (readSectionAliases c ⟨more, s.lastLine⟩).map fun r => (r.1.1, r.2)
      else .error ⟨line.number, "unknown section name \"" ++ String.ofList name ++ "\""⟩

variable {asserted nameToAddr readRule}

theorem readSection_length {c c' : Config} {s s' : ConfigReadContext} (hs : s.lines ≠ [])
    (h : readSection asserted nameToAddr readRule c s = .ok (c', s')) : s'.lines.length < s.lines.length := by
  obtain ⟨lines, lastLine⟩ := s
  cases lines with
  | nil => exact absurd rfl hs
  | cons l more =>
    refine Nat.lt_succ_of_lt ?_
    cases l with
    | error e => cases h
    | ok line =>
      unfold readSection at h
      dsimp only at h
      split at h
      · cases h
      · split_ifs at h
        · exact eachLine_length h
        · obtain ⟨r, hr, hs'⟩ := map_eq_ok.mp h
          cases hs'
          exact eachLine_length hr
        · obtain ⟨r, hr, hs'⟩ := map_eq_ok.mp h
          cases hs'
          exact eachLine_length hr
        · obtain ⟨r, hr, hs'⟩ := map_eq_ok.mp h
          cases hs'
          exact eachLine_length hr

variable (asserted nameToAddr readRule)

/-- Sections are read as long as there are lines. -/
def readSections (c : Config) (s : ConfigReadContext) : Except ServerConfigReadException Config :=
  if _hs : s.lines = [] then .ok c
  else
    match _h : readSection asserted nameToAddr readRule c s with
    | .error e => .error e
    | .ok (c', s') => readSections c' s'
termination_by s.lines.length
decreasing_by exact readSection_length _hs _h

/-- The configuration that a stream holds. -/
def read (stream : Str) : Except ServerConfigReadException Config :=
  readSections asserted nameToAddr readRule .empty (ofStream stream 1)

variable {asserted nameToAddr readRule}

theorem readSection_same (c : Config) {s s' : ConfigReadContext} (h : handed s.lines = handed s'.lines) :
    SameReading (readSection asserted nameToAddr readRule c s) (readSection asserted nameToAddr readRule c s') := by
  obtain ⟨lines, lastLine⟩ := s
  obtain ⟨lines', lastLine'⟩ := s'
  cases lines with
  | nil =>
    cases lines' with
    | nil => exact ⟨rfl, rfl⟩
    | cons l' lines' => cases h
  | cons l lines =>
    cases lines' with
    | nil => cases h
    | cons l' lines' =>
      obtain ⟨hl, hmore⟩ := List.cons.inj h
      cases l with
      | error e =>
        cases l' with
        | error e' => trivial
        | ok line' => cases hl
      | ok line =>
        cases l' with
        | error e' => cases hl
        | ok line' =>
          have htext : line.text = line'.text := Option.some.inj hl
          unfold readSection
          dsimp only
          rw [← htext]
          cases sectionName line.text with
          | error error => trivial
          | ok name =>
            dsimp only
            split_ifs
            · exact eachLine_same _ _ _ _ c hmore
            · exact (eachLine_same _ _ _ _ (c, []) hmore).map Prod.fst
            · exact (eachLine_same _ _ _ _ (c, []) hmore).map Prod.fst
            · exact (eachLine_same _ _ _ _ (c, []) hmore).map Prod.fst
            · trivial

theorem readSections_nil (c : Config) {s : ConfigReadContext} (hs : s.lines = []) :
    readSections asserted nameToAddr readRule c s = .ok c := by
  rw [readSections, dif_pos hs]

theorem readSections_cons (c : Config) {s : ConfigReadContext} (hs : s.lines ≠ []) :
    readSections asserted nameToAddr readRule c s =
      (readSection asserted nameToAddr readRule c s).bind fun r =>
        readSections asserted nameToAddr readRule r.1 r.2 := by
  rw [readSections, dif_neg hs]
  split
  · next e he => rw [he]; rfl
  · next c' s' hr => rw [hr]; rfl

/-- Contexts that hand out the same lines are read as the same configuration. -/
theorem readSections_same (c : Config) {s s' : ConfigReadContext} (h : handed s.lines = handed s'.lines) :
    (readSections asserted nameToAddr readRule c s).toOption =
        (readSections asserted nameToAddr readRule c s').toOption := by
  induction hn : s.lines.length using Nat.strong_induction_on generalizing c s s' with
  | _ n ih =>
    have hempty : s.lines = [] ↔ s'.lines = [] := by
      rw [← handed_eq_nil, h, handed_eq_nil]
    by_cases hs : s.lines = []
    · rw [readSections_nil c hs, readSections_nil c (hempty.mp hs)]
    · have hsame : SameReading (readSection asserted nameToAddr readRule c s)
          (readSection asserted nameToAddr readRule c s') := readSection_same c h
      rw [readSections_cons c hs, readSections_cons c (fun hs' => hs (hempty.mpr hs'))]
      cases hread : readSection asserted nameToAddr readRule c s with
      | error e =>
        rw [hread] at hsame
        cases hread' : readSection asserted nameToAddr readRule c s' with
        | error e' => rfl
        | ok r' =>
          rw [hread'] at hsame
          cases hsame
      | ok r =>
        rw [hread] at hsame
        cases hread' : readSection asserted nameToAddr readRule c s' with
        | error e' =>
          rw [hread'] at hsame
          cases hsame
        | ok r' =>
          rw [hread'] at hsame
          obtain ⟨c', rest⟩ := r
          obtain ⟨c'', rest'⟩ := r'
          obtain ⟨rfl, hrest⟩ := hsame
          exact ih rest.lines.length (hn ▸ readSection_length hs hread) c' hrest rfl
/-- What texts make of the names: those before are kept, a text of blanks becomes a name, and a name
that is new is what a text starts with. -/
structure Grows (before after : NameMap) (texts : List Str) : Prop where
  kept : ∀ k ∈ before.keys, k ∈ after.keys
  blank : ∀ text ∈ texts, text ≠ [] → text.all isBlank = true → text ∈ after.keys
  origin : ∀ k ∈ after.keys, k ∈ before.keys ∨ ∃ text ∈ texts, k ≠ [] ∧ k <+: text

theorem Grows.refl (names : NameMap) : Grows names names [] := ⟨fun _ h => h, by simp, fun _ h => .inl h⟩

theorem Grows.trans {before names after : NameMap} {texts more : List Str} (h : Grows before names texts)
    (h' : Grows names after more) : Grows before after (texts ++ more) := by
  refine ⟨fun k hk => h'.kept k (h.kept k hk), fun text htext hne hblank => ?_, fun k hk => ?_⟩
  · rcases List.mem_append.mp htext with htext | htext
    · exact h'.kept text (h.blank text htext hne hblank)
    · exact h'.blank text htext hne hblank
  · rcases h'.origin k hk with hk | ⟨text, htext, hprefix⟩
    · rcases h.origin k hk with hk | ⟨text, htext, hprefix⟩
      · exact .inl hk
      · exact .inr ⟨text, List.mem_append_left _ htext, hprefix⟩
    · exact .inr ⟨text, List.mem_append_right _ htext, hprefix⟩

/-- A text with other characters than blanks that changes no names. -/
theorem Grows.of_kept {names : NameMap} {text : Str} (h : text ≠ [] → text.all isBlank = false) :
    Grows names names [text] := by
  refine ⟨fun _ h => h, fun other hother hne hblank => ?_, fun _ h => .inl h⟩
  obtain rfl := List.mem_singleton.mp hother
  rw [h hne] at hblank
  cases hblank

theorem Grows.of_admits {before after : NameMap} {text : Str} {name : Option Str} (h : Admits before after name)
    (hblank : text ≠ [] → text.all isBlank = true → name = some text) (hname : ∀ k, name = some k → k <+: text) :
    Grows before after [text] := by
  refine ⟨fun k hk => (h.keys k).mpr (.inl hk), fun other hother hne hother' => ?_, fun k hk => ?_⟩
  · obtain rfl := List.mem_singleton.mp hother
    exact (h.keys _).mpr (.inr (hblank hne hother'))
  · refine ((h.keys k).mp hk).imp id fun hnew => ?_
    exact ⟨text, List.mem_singleton_self _, (h.fresh k hnew).2, hname k hnew⟩

private theorem header_not_blank {line : Str} (h : isHeader line = true) : line.all isBlank = false := by
  have hlast : line.getLast? = some ':' := by simpa [isHeader] using h
  obtain ⟨front, rfl⟩ := List.getLast?_eq_some_iff.mp hlast
  simp [isBlank]

private theorem takeWhile_of_blank {line : Str} (hne : line ≠ []) (hblank : line.all isBlank = true) :
    (line.takeWhile fun ch => !isBlank ch && ch ≠ '=').isEmpty = true := by
  cases line with
  | nil => exact absurd rfl hne
  | cons c line =>
    have hc : isBlank c = true := List.all_eq_true.mp hblank c List.mem_cons_self
    simp [hc]

private theorem parse_of_blank (type : String) (delim : Str) {line : Str} (hblank : line.all isBlank = true) :
    parseNameWithArgs type delim line = .error ("missing " ++ type) := by
  have hnil : line.dropWhile isBlank = [] := List.dropWhile_eq_nil_iff.mpr (List.all_eq_true.mp hblank)
  unfold parseNameWithArgs
  rw [hnil]

theorem screensLine_grows {st st' : Config × Str} {line : Str} (h : screensLine st line = .ok st') :
    Grows st.1.nameToCanonicalName st'.1.nameToCanonicalName [line] := by
  refine Grows.of_admits (screensLine_admits h) (fun hne hblank => ?_) fun k hk => ?_
  · by_cases hheader : isHeader line = true
    · rw [header_not_blank hheader] at hblank
      cases hblank
    · unfold screensLine at h
      rw [if_neg hheader] at h
      split_ifs at h
      obtain ⟨c, hc, -⟩ := map_eq_ok.mp h
      unfold screensArgument at hc
      dsimp only at hc
      rw [if_pos (takeWhile_of_blank hne hblank)] at hc
      cases hc
  · split_ifs at hk
    cases hk
    exact List.dropLast_prefix line

theorem aliasesLine_grows {st st' : Config × Str} {line : Str} (h : aliasesLine st line = .ok st') :
    Grows st.1.nameToCanonicalName st'.1.nameToCanonicalName [line] := by
  refine Grows.of_admits (aliasesLine_admits h) (fun hne hblank => ?_) fun k hk => ?_
  · rw [if_neg]
    intro hheader
    rw [header_not_blank hheader] at hblank
    cases hblank
  · split_ifs at hk
    cases hk
    exact List.prefix_rfl


/-- A rule leaves the names of the screens alone. -/
def RuleKeepsNames (readRule : RuleReader) : Prop :=
  ∀ c condition action rest c', readRule c condition action rest = .ok c' →
    c'.nameToCanonicalName = c.nameToCanonicalName

/-- A link leaves the names of the screens alone. -/
def LinkKeepsNames (asserted : AssertedLink) : Prop :=
  ∀ c screen dir src dstScreen dst c', asserted c screen dir src dstScreen dst = some c' →
    c'.nameToCanonicalName = c.nameToCanonicalName

theorem connect_names {c c' : Config} {srcName dstName : Str} {srcSide : Direction} {src dst : Interval}
    (h : c.connect srcName srcSide src dstName dst = some c') : c'.nameToCanonicalName = c.nameToCanonicalName := by
  unfold connect at h
  split at h
  · cases h
  · split at h
    · cases h
    · cases h
      rfl

private theorem linksArgument_names (hlink : LinkKeepsNames asserted) {c c' : Config} {screen line : Str}
    (h : linksArgument asserted c screen line = .ok c') :
    c'.nameToCanonicalName = c.nameToCanonicalName ∧ line.all isBlank = false := by
  unfold linksArgument at h
  obtain ⟨⟨side, behind⟩, hside, h⟩ := bind_eq_ok.mp h
  obtain ⟨⟨dst, rest⟩, -, h⟩ := bind_eq_ok.mp h
  obtain ⟨src, -, h⟩ := bind_eq_ok.mp h
  obtain ⟨dst', -, h⟩ := bind_eq_ok.mp h
  constructor
  · split at h
    · cases h
    · split_ifs at h
      split at h
      · cases h
      · rename_i c'' hconnect
        cases h
        unfold connectParsed at hconnect
        split at hconnect
        · exact connect_names hconnect
        · exact hlink _ _ _ _ _ _ _ hconnect
  · by_contra hblank
    rw [parse_of_blank _ _ (by simpa using hblank)] at hside
    cases hside

theorem linksLine_grows (hlink : LinkKeepsNames asserted) {st st' : Config × Str} {line : Str}
    (h : linksLine asserted st line = .ok st') : Grows st.1.nameToCanonicalName st'.1.nameToCanonicalName [line] := by
  unfold linksLine at h
  by_cases hheader : isHeader line = true
  · rw [if_pos hheader] at h
    unfold knownScreen at h
    split_ifs at h
    cases h
    exact Grows.of_kept fun _ => header_not_blank hheader
  · rw [if_neg hheader] at h
    split_ifs at h
    obtain ⟨c, hc, rfl⟩ := map_eq_ok.mp h
    obtain ⟨hnames, hblank⟩ := linksArgument_names hlink hc
    dsimp only
    rw [hnames]
    exact Grows.of_kept fun _ => hblank

private theorem plainOption_names {c c' : Config} {name value : Str}
    (h : plainOption nameToAddr c name value = some (.ok c')) : c'.nameToCanonicalName = c.nameToCanonicalName := by
  unfold plainOption at h
  split_ifs at h
  · split at h
    · cases h
    · cases h
      rfl
  · obtain ⟨e, -, he⟩ := Option.map_eq_some_iff.mp h
    obtain ⟨v, -, rfl⟩ := map_eq_ok.mp he
    exact names_addOption c _ _ _

theorem optionsLine_grows (hrule : RuleKeepsNames readRule) {c c' : Config} {line : Str}
    (h : optionsLine nameToAddr readRule c line = .ok c') : Grows c.nameToCanonicalName c'.nameToCanonicalName
        [line] := by
  unfold optionsLine at h
  obtain ⟨⟨name, behind⟩, hname, h⟩ := bind_eq_ok.mp h
  obtain ⟨⟨value, rest⟩, -, h⟩ := bind_eq_ok.mp h
  have hblank : line.all isBlank = false := by
    by_contra hblank
    rw [parse_of_blank _ _ (by simpa using hblank)] at hname
    cases hname
  suffices hnames : c'.nameToCanonicalName = c.nameToCanonicalName by
    rw [hnames]
    exact Grows.of_kept fun _ => hblank
  dsimp only at h
  by_cases hprotocol : name.name = "protocol".toList
  · rw [if_pos hprotocol] at h
    cases h
    rfl
  · rw [if_neg hprotocol] at h
    cases hplain : plainOption nameToAddr c name.name value.name with
    | none =>
      simp only [hplain] at h
      exact hrule _ _ _ _ _ h
    | some handled =>
      simp only [hplain] at h
      cases handled with
      | error error => cases h
      | ok c'' =>
        dsimp only at h
        split_ifs at h
        cases h
        exact plainOption_names hplain

private theorem sectionName_not_blank {line name : Str} (h : sectionName line = .ok name) :
    line.all isBlank = false := by
  unfold sectionName at h
  split_ifs at h with hprefix
  have hs : 's' ∈ line := by
    have hmem := (List.isPrefixOf_iff_prefix.mp (by simpa using hprefix)).subset (a := 's')
    exact hmem (by decide)
  rw [Bool.eq_false_iff]
  intro hblank
  exact absurd (List.all_eq_true.mp hblank 's' hs) (by decide)

private theorem eachLine_grows {σ : Type} {unexpectedEnd : String} {turn : σ → Str → Except String σ} (names : σ →
    NameMap)
    (hturn : ∀ st line st', turn st line = .ok st' → Grows (names st) (names st') [line]) {lastLine : Nat} {st st' : σ}
    {lines : List (Except ServerConfigReadException ConfigLine)} {s : ConfigReadContext}
    (h : eachLine unexpectedEnd turn lastLine st lines = .ok (st', s)) :
    ∃ texts : List Str, handed lines = texts.map some ++ handed s.lines ∧ Grows (names st) (names st') texts := by
  refine ⟨sectionLines lines ++ ["end".toList], ?_, ?_⟩
  · rw [eachLine_handed h]
    simp
  · refine Grows.trans ?_ (Grows.of_kept fun _ => by decide)
    refine eachLine_run (R := fun st lines st' => Grows (names st) (names st') lines) (fun st => Grows.refl _) ?_ h
    intro st line next lines st' hnext hmore
    exact (hturn st line next hnext).trans hmore

/-- What reading a section does to the names, header and end included. -/
theorem readSection_grows (hlink : LinkKeepsNames asserted) (hrule : RuleKeepsNames readRule) {c c' : Config}
    {s s' : ConfigReadContext} (hs : s.lines ≠ []) (h : readSection asserted nameToAddr readRule c s = .ok (c', s')) :
    ∃ texts : List Str, handed s.lines = texts.map some ++ handed s'.lines ∧
      Grows c.nameToCanonicalName c'.nameToCanonicalName texts := by
  obtain ⟨lines, lastLine⟩ := s
  cases lines with
  | nil => exact absurd rfl hs
  | cons l more =>
    cases l with
    | error e => cases h
    | ok line =>
      suffices hmore : ∃ texts : List Str, handed more = texts.map some ++ handed s'.lines ∧
          Grows c.nameToCanonicalName c'.nameToCanonicalName texts by
        obtain ⟨texts, hhanded, hgrows⟩ := hmore
        refine ⟨line.text :: texts, ?_, ?_⟩
        · rw [handed, List.map_cons, ← handed, hhanded]
          rfl
        · have hheader : Grows c.nameToCanonicalName c.nameToCanonicalName [line.text] := by
            refine Grows.of_kept fun _ => ?_
            unfold readSection at h
            dsimp only at h
            split at h
            · cases h
            · next name hname => exact sectionName_not_blank hname
          exact hheader.trans hgrows
      unfold readSection at h
      dsimp only at h
      split at h
      · cases h
      · split_ifs at h
        · exact eachLine_grows nameToCanonicalName (fun _ _ _ => optionsLine_grows hrule) h
        · obtain ⟨r, hr, hs'⟩ := map_eq_ok.mp h
          cases hs'
          exact eachLine_grows (fun st => st.1.nameToCanonicalName) (fun _ _ _ => screensLine_grows) hr
        · obtain ⟨r, hr, hs'⟩ := map_eq_ok.mp h
          cases hs'
          exact eachLine_grows (fun st => st.1.nameToCanonicalName) (fun _ _ _ => linksLine_grows hlink) hr
        · obtain ⟨r, hr, hs'⟩ := map_eq_ok.mp h
          cases hs'
          exact eachLine_grows (fun st => st.1.nameToCanonicalName) (fun _ _ _ => aliasesLine_grows) hr

/-- A configuration that can be read is one whose lines are all handed out; its names are what they make of them. -/
theorem readSections_grows (hlink : LinkKeepsNames asserted) (hrule : RuleKeepsNames readRule) {c c' : Config}
    {s : ConfigReadContext} (h : readSections asserted nameToAddr readRule c s = .ok c') :
    ∃ texts : List Str, handed s.lines = texts.map some ∧ Grows c.nameToCanonicalName c'.nameToCanonicalName texts := by
  induction hn : s.lines.length using Nat.strong_induction_on generalizing c s with
  | _ n ih =>
    by_cases hs : s.lines = []
    · rw [readSections_nil c hs] at h
      cases h
      exact ⟨[], handed_eq_nil.mpr hs, Grows.refl _⟩
    · rw [readSections_cons c hs] at h
      obtain ⟨⟨next, rest⟩, hsection, hmore⟩ : ∃ r, readSection asserted nameToAddr readRule c s = .ok r ∧
          readSections asserted nameToAddr readRule r.1 r.2 = .ok c' := by
        cases hr : readSection asserted nameToAddr readRule c s with
        | error e => simp [hr, Except.bind] at h
        | ok r => exact ⟨r, rfl, by simpa [hr, Except.bind] using h⟩
      obtain ⟨texts, hhanded, hgrows⟩ := readSection_grows hlink hrule hs hsection
      obtain ⟨more, hmore', hgrows'⟩ := ih rest.lines.length (hn ▸ readSection_length hs hsection) hmore rfl
      exact ⟨texts ++ more, by rw [hhanded, hmore', List.map_append], hgrows.trans hgrows'⟩

end
end Config
end Synergy
