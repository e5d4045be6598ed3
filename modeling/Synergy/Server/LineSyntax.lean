import Synergy.Server.ConfigSections

/-! The syntax that the lines of links and the plain options are documented to have, against
what is read. The character behind a name is skipped unseen when there are no arguments, and
what follows the last token of a line is not looked at. -/
namespace Synergy
open Synergy.Lib ConfigReadContext

namespace Config

/-- Two percentages in order, as they are spelled, or no arguments. -/
def Percentages (args : List Str) : Prop :=
  args = [] ∨ ∃ first second p q, args = [first, second] ∧ spelledNumber first = some (.finite p, []) ∧
    spelledNumber second = some (.finite q, []) ∧ 0 ≤ p ∧ p < q ∧ q ≤ 100

/-- `<side>[(<s0>,<e0>)] = <screen>[(<s1>,<e1>)]`, with blanks anywhere between the tokens. -/
def DocumentedLink (line : Str) : Prop :=
  ∃ side gap text dst gap' text', line = text ++ '=' :: text' ∧ TokenText ['='] side gap text ∧
    TokenText [] dst gap' text' ∧ (sideNamed side.name).isSome = true ∧ dst.name ≠ [] ∧ Percentages side.args ∧
    Percentages dst.args

/-- `<name> = <value>`, with blanks anywhere around the tokens. -/
def DocumentedOption (line : Str) : Prop :=
  ∃ name gap text value gap' text', line = text ++ '=' :: text' ∧ TokenText ['='] ⟨name, []⟩ gap text ∧
    TokenText [',', ';', '\n'] ⟨value, []⟩ gap' text' ∧ name ≠ [] ∧ value ≠ []

/-- The two tokens of a line, with the character between them and the rest of the line. -/
def LineTokens (delim : Str) (first : Token) (between : Char) (second : Token) (rest line : Str) : Prop :=
  ∃ gap text gap' text', line = text ++ between :: (text' ++ rest) ∧ TokenText ['='] first gap text ∧
    Stops ['='] first gap [between] ∧ TokenText delim second gap' text' ∧ Stops delim second gap' rest ∧
    ¬ Blanks (text' ++ rest)

/-- A link line that is taken although its delimiter is another character, text follows its tokens, the
screen has an empty name, or an interval is none of percentages in order. -/
def SlippedLink (asserted : AssertedLink) (c : Config) (screen line : Str) : Prop :=
  ∃ side between dst rest dir src dst', LineTokens [] side between dst rest line ∧ sideNamed side.name = some dir ∧
    parseInterval side.args = .ok src ∧ parseInterval dst.args = .ok dst' ∧ c.isScreen dst.name = true ∧
    (connectParsed asserted c screen dir src dst.name dst').isSome = true ∧
    (between ≠ '=' ∨ rest ≠ [] ∨ dst.name = [] ∨ ¬ Percentages side.args ∨ ¬ Percentages dst.args)

/-- The name of a plain option, or the old one that is skipped. -/
def isPlainName (name : Str) : Bool :=
  name = "protocol".toList || name = "address".toList || (globalArguments.any fun e => e.1.toList = name)

/-- A plain option that is taken although its delimiter is another character, its name or its value has
arguments, it has no value, or text follows it. -/
def SlippedOption (nameToAddr : Str → Except SocketAddressError (List Nat)) (c : Config) (line : Str) : Prop :=
  ∃ name between value rest, LineTokens [',', ';', '\n'] name between value rest line ∧ isPlainName name.name = true ∧
    (name.name = "protocol".toList ∨
      (∃ c', plainOption nameToAddr c name.name value.name = some (.ok c')) ∧
        rest.head? ≠ some ',' ∧ rest.head? ≠ some ';') ∧
    (between ≠ '=' ∨ name.args ≠ [] ∨ value.args ≠ [] ∨ value.name = [] ∨ rest ≠ [])

/-- The tokens of a line are the ones that are read from it. -/
theorem lineTokens_iff (type type' : String) {delim : Str} {first second : Token} {between : Char} {rest line : Str} :
    LineTokens delim first between second rest line ↔
      ∃ behind, parseNameWithArgs type ['='] line = .ok (first, between :: behind) ∧
        parseNameWithArgs type' delim behind = .ok (second, rest) := by
  constructor
  · rintro ⟨gap, text, gap', text', rfl, htext, hstops, htext', hstops', hblank⟩
    refine ⟨text' ++ rest, parseNameWithArgs_iff.mpr ⟨?_, gap, text, htext, hstops, rfl⟩,
      parseNameWithArgs_iff.mpr ⟨hblank, gap', text', htext', hstops', rfl⟩⟩
    intro hall
    have hb := hall between (by simp)
    simp [hstops.1] at hb
  · rintro ⟨behind, hfirst, hsecond⟩
    obtain ⟨-, gap, text, htext, hstops, rfl⟩ := parseNameWithArgs_iff.mp hfirst
    obtain ⟨hblank, gap', text', htext', hstops', rfl⟩ := parseNameWithArgs_iff.mp hsecond
    exact ⟨gap, text, gap', text', rfl, htext, hstops, htext', hstops', hblank⟩

private theorem lineTokens_unique {delim : Str} {first first' second second' : Token} {between between' : Char}
    {rest rest' line : Str} (h : LineTokens delim first between second rest line)
    (h' : LineTokens delim first' between' second' rest' line) :
    first = first' ∧ between = between' ∧ second = second' ∧ rest = rest' := by
  obtain ⟨behind, hfirst, hsecond⟩ := (lineTokens_iff "" "").mp h
  obtain ⟨behind', hfirst', hsecond'⟩ := (lineTokens_iff "" "").mp h'
  obtain ⟨rfl, hbehind⟩ := Prod.mk.inj (Except.ok.inj (hfirst.symm.trans hfirst'))
  obtain ⟨rfl, rfl⟩ := List.cons.inj hbehind
  obtain ⟨rfl, rfl⟩ := Prod.mk.inj (Except.ok.inj (hsecond.symm.trans hsecond'))
  exact ⟨rfl, rfl, rfl, rfl⟩

/-- A delimiter that has to be there is followed or preceded by something, so one character is skipped. -/
private theorem lineTokens_of_parse {type type' : String} {delim : Str} {first second : Token} {behind rest line : Str}
    (hfirst : parseNameWithArgs type ['='] line = .ok (first, behind))
    (hsecond : parseNameWithArgs type' delim (behind.drop 1) = .ok (second, rest)) :
    ∃ between, LineTokens delim first between second rest line := by
  cases behind with
  | nil =>
    obtain ⟨-, _, _, -, hstops, -⟩ := parseNameWithArgs_iff.mp hfirst
    cases hstops
  | cons between behind => exact ⟨between, (lineTokens_iff type type').mpr ⟨behind, hfirst, hsecond⟩⟩

private theorem parse_of_lineTokens (type type' : String) {delim : Str} {first second : Token} {between : Char}
    {rest line : Str} (h : LineTokens delim first between second rest line) :
    ∃ behind, parseNameWithArgs type ['='] line = .ok (first, behind) ∧
      parseNameWithArgs type' delim (behind.drop 1) = .ok (second, rest) := by
  obtain ⟨behind, hfirst, hsecond⟩ := (lineTokens_iff type type').mp h
  exact ⟨between :: behind, hfirst, hsecond⟩

/-- Between the tokens of a documented line stands the delimiter. -/
private theorem lineTokens_of_texts {delim : Str} {first second : Token} {gap text gap' text' line : Str}
    (hline : line = text ++ '=' :: text') (htext : TokenText ['='] first gap text)
    (htext' : TokenText delim second gap' text') (hdelim : needDelim delim = false) (hname : second.name ≠ []) :
    LineTokens delim first '=' second [] line := by
  refine ⟨gap, text, gap', text', by simpa using hline, htext, ?_, htext', hdelim, ?_⟩
  · exact ⟨by decide, fun _ => ⟨by decide, fun _ => List.mem_singleton_self _⟩, fun _ _ => List.mem_singleton_self _⟩
  · obtain ⟨lead, args, rfl, -, -, hchars, -⟩ := htext'
    obtain ⟨c, name, hc⟩ := List.exists_cons_of_ne_nil hname
    intro hall
    have hb := hall c (by simp [hc])
    have hn := hchars c (by simp [hc])
    simp [inName, hb] at hn

private theorem texts_of_lineTokens {delim : Str} {first second : Token} {line : Str}
    (h : LineTokens delim first '=' second [] line) :
    ∃ gap text gap' text', line = text ++ '=' :: text' ∧ TokenText ['='] first gap text ∧
      TokenText delim second gap' text' := by
  obtain ⟨gap, text, gap', text', hline, htext, -, htext', -⟩ := h
  exact ⟨gap, text, gap', text', by simpa using hline, htext, htext'⟩

private theorem linksArgument_iff {asserted : AssertedLink} {c : Config} {screen line : Str} :
    (∃ c', linksArgument asserted c screen line = .ok c') ↔
      ∃ side between dst rest dir src dst', LineTokens [] side between dst rest line ∧ sideNamed side.name = some dir ∧
        parseInterval side.args = .ok src ∧ parseInterval dst.args = .ok dst' ∧ c.isScreen dst.name = true ∧
        (connectParsed asserted c screen dir src dst.name dst').isSome = true := by
  constructor
  · rintro ⟨c', h⟩
    unfold linksArgument at h
    obtain ⟨⟨side, behind⟩, hside, h⟩ := bind_eq_ok.mp h
    obtain ⟨⟨dst, rest⟩, hdst, h⟩ := bind_eq_ok.mp h
    obtain ⟨src, hsrc, h⟩ := bind_eq_ok.mp h
    obtain ⟨dst', hdst', h⟩ := bind_eq_ok.mp h
    obtain ⟨between, htokens⟩ := lineTokens_of_parse hside hdst
    cases hdir : sideNamed side.name with
    | none => simp [hdir] at h
    | some dir =>
      simp only [hdir] at h
      split_ifs at h with hscreen
      cases hconnect : connectParsed asserted c screen dir src dst.name dst' with
      | none => simp [hconnect] at h
      | some c'' =>
        exact ⟨side, between, dst, rest, dir, src, dst', htokens, hdir, hsrc, hdst', by simpa using hscreen,
          by rw [hconnect]; rfl⟩
  · rintro ⟨side, between, dst, rest, dir, src, dst', htokens, hdir, hsrc, hdst', hscreen, hconnect⟩
    obtain ⟨behind, hside, hdst⟩ := parse_of_lineTokens "link" "screen" htokens
    obtain ⟨c', hc⟩ := Option.isSome_iff_exists.mp hconnect
    refine ⟨c', ?_⟩
    unfold linksArgument
    refine bind_eq_ok.mpr ⟨_, hside, bind_eq_ok.mpr ⟨_, hdst, bind_eq_ok.mpr ⟨_, hsrc, bind_eq_ok.mpr ⟨_, hdst', ?_⟩⟩⟩⟩
    simp only [hdir, hscreen, hc]
    rfl

/-- A link line that is accepted is documented exactly when it does not slip through. -/
private theorem link_documented_iff {asserted : AssertedLink} {c : Config} {screen line : Str}
    (h : ∃ c', linksArgument asserted c screen line = .ok c') :
    DocumentedLink line ↔ ¬ SlippedLink asserted c screen line := by
  constructor
  · rintro ⟨side, gap, text, dst, gap', text', hline, htext, htext', -, hname, hside, hdst⟩
    rintro ⟨side₂, between, dst₂, rest, dir, src, dst', htokens, -, -, -, -, -, hslip⟩
    obtain ⟨rfl, rfl, rfl, rfl⟩ := lineTokens_unique htokens (lineTokens_of_texts hline htext htext' rfl hname)
    rcases hslip with hslip | hslip | hslip | hslip | hslip
    · exact hslip rfl
    · exact hslip rfl
    · exact hname hslip
    · exact hslip hside
    · exact hslip hdst
  · intro hslip
    obtain ⟨side, between, dst, rest, dir, src, dst', htokens, hdir, hsrc, hdst', hscreen, hconnect⟩ :=
      linksArgument_iff.mp h
    have hgood : ¬(between ≠ '=' ∨ rest ≠ [] ∨ dst.name = [] ∨ ¬ Percentages side.args ∨ ¬ Percentages dst.args) :=
      fun hbad => hslip ⟨side, between, dst, rest, dir, src, dst', htokens, hdir, hsrc, hdst', hscreen, hconnect, hbad⟩
    simp only [not_or, not_not, ne_eq] at hgood
    obtain ⟨rfl, rfl, hname, hside, hdst⟩ := hgood
    obtain ⟨gap, text, gap', text', hline, htext, htext'⟩ := texts_of_lineTokens htokens
    exact ⟨side, gap, text, dst, gap', text', hline, htext, htext', by rw [hdir]; rfl, hname, hside, hdst⟩

/-- A line of a plain option, by the name that it starts with. -/
def IsPlainLine (line : Str) : Prop :=
  ∃ name behind, parseNameWithArgs "name" ['='] line = .ok (name, behind) ∧ isPlainName name.name = true

private theorem plainOption_of_plain (nameToAddr : Str → Except SocketAddressError (List Nat)) (c : Config) {name : Str}
    (value : Str) (h : isPlainName name = true) (hname : name ≠ "protocol".toList) :
    ∃ handled, plainOption nameToAddr c name value = some handled := by
  unfold plainOption
  by_cases haddress : name = "address".toList
  · rw [if_pos haddress]
    exact ⟨_, rfl⟩
  · rw [if_neg haddress]
    rw [isPlainName, Bool.or_eq_true, Bool.or_eq_true] at h
    generalize globalArguments = arguments at h ⊢
    rcases h with (h | h) | h
    · exact absurd (of_decide_eq_true h) hname
    · exact absurd (of_decide_eq_true h) haddress
    · obtain ⟨e, he, hen⟩ := List.any_eq_true.mp h
      cases hfound : arguments.find? fun e => e.1.toList = name with
      | none => exact absurd hen (List.find?_eq_none.mp hfound e he)
      | some found => exact ⟨_, rfl⟩

private theorem optionsLine_iff {nameToAddr : Str → Except SocketAddressError (List Nat)} {readRule : RuleReader}
    {c : Config}
    {line : Str} :
    (IsPlainLine line ∧ ∃ c', optionsLine nameToAddr readRule c line = .ok c') ↔
      ∃ name between value rest, LineTokens [',', ';', '\n'] name between value rest line ∧
        isPlainName name.name = true ∧ (name.name = "protocol".toList ∨
          (∃ c', plainOption nameToAddr c name.name value.name = some (.ok c')) ∧
            rest.head? ≠ some ',' ∧ rest.head? ≠ some ';') := by
  constructor
  · rintro ⟨⟨plain, behind, hplain, hplainName⟩, c', hread⟩
    unfold optionsLine at hread
    obtain ⟨⟨name, behind'⟩, hname, hbehind⟩ := bind_eq_ok.mp hread
    obtain ⟨rfl, rfl⟩ := Prod.mk.inj (Except.ok.inj (hplain.symm.trans hname))
    obtain ⟨⟨value, rest⟩, hvalue, h⟩ := bind_eq_ok.mp hbehind
    dsimp only at h
    obtain ⟨between, htokens⟩ := lineTokens_of_parse hname hvalue
    refine ⟨plain, between, value, rest, htokens, hplainName, ?_⟩
    by_cases hprotocol : plain.name = "protocol".toList
    · exact .inl hprotocol
    · obtain ⟨handled, hhandled⟩ := plainOption_of_plain nameToAddr c value.name hplainName hprotocol
      rw [if_neg hprotocol] at h
      simp only [hhandled] at h
      cases handled with
      | error error => cases h
      | ok c'' =>
        dsimp only at h
        split_ifs at h with hrest
        exact .inr ⟨⟨c'', hhandled⟩, not_or.mp hrest⟩
  · rintro ⟨name, between, value, rest, htokens, hplainName, hcase⟩
    obtain ⟨behind, hname, hvalue⟩ := parse_of_lineTokens "name" "value" htokens
    refine ⟨⟨name, behind, hname, hplainName⟩, ?_⟩
    by_cases hprotocol : name.name = "protocol".toList
    · refine ⟨c, ?_⟩
      unfold optionsLine
      refine bind_eq_ok.mpr ⟨_, hname, bind_eq_ok.mpr ⟨_, hvalue, ?_⟩⟩
      exact if_pos hprotocol
    · obtain ⟨⟨c', hhandled⟩, hrest⟩ := hcase.resolve_left hprotocol
      refine ⟨c', ?_⟩
      unfold optionsLine
      refine bind_eq_ok.mpr ⟨_, hname, bind_eq_ok.mpr ⟨_, hvalue, ?_⟩⟩
      dsimp only
      rw [if_neg hprotocol]
      simp only [hhandled]
      exact if_neg (not_or.mpr hrest)

private theorem option_documented_iff {nameToAddr : Str → Except SocketAddressError (List Nat)} {readRule : RuleReader}
    {c : Config} {line : Str} (hplain : IsPlainLine line)
    (h : ∃ c', optionsLine nameToAddr readRule c line = .ok c') :
    DocumentedOption line ↔ ¬ SlippedOption nameToAddr c line := by
  obtain ⟨name, between, value, rest, htokens, hname, hcase⟩ := optionsLine_iff.mp ⟨hplain, h⟩
  constructor
  · rintro ⟨name', gap, text, value', gap', text', hline, htext, htext', -, hvalue⟩
    rintro ⟨name₂, between₂, value₂, rest₂, htokens₂, -, -, hslip⟩
    obtain ⟨rfl, rfl, rfl, rfl⟩ := lineTokens_unique htokens₂ (lineTokens_of_texts hline htext htext' rfl hvalue)
    rcases hslip with hslip | hslip | hslip | hslip | hslip
    · exact hslip rfl
    · exact hslip rfl
    · exact hslip rfl
    · exact hvalue hslip
    · exact hslip rfl
  · intro hslip
    have hgood : ¬(between ≠ '=' ∨ name.args ≠ [] ∨ value.args ≠ [] ∨ value.name = [] ∨ rest ≠ []) :=
      fun hbad => hslip ⟨name, between, value, rest, htokens, hname, hcase, hbad⟩
    simp only [not_or, not_not, ne_eq] at hgood
    obtain ⟨rfl, hargs, hargs', hvalue, rfl⟩ := hgood
    obtain ⟨gap, text, gap', text', hline, htext, htext'⟩ := texts_of_lineTokens htokens
    obtain ⟨name, nameArgs⟩ := name
    obtain ⟨value, valueArgs⟩ := value
    dsimp only at hargs hargs' hvalue hname
    subst hargs hargs'
    refine ⟨name, gap, text, value, gap', text', hline, htext, htext', ?_, hvalue⟩
    rintro rfl
    revert hname
    decide

/-- A line that is accepted as a link, or as a plain option, is documented unless it slips through; and
so are all that a section accepts. -/
theorem line_syntax_iff (asserted : AssertedLink) (nameToAddr : Str → Except SocketAddressError (List Nat))
    (readRule : RuleReader) (c : Config) (s : ConfigReadContext) :
    (∀ (screen : Str) (line : ConfigLine),
      ((∃ c', linksArgument asserted c screen line.text = .ok c') → DocumentedLink line.text) ↔
        ¬ SlippedLink asserted c screen line.text) ∧
    (∀ line : ConfigLine,
      (IsPlainLine line.text → (∃ c', optionsLine nameToAddr readRule c line.text = .ok c') →
        DocumentedOption line.text) ↔ ¬ SlippedOption nameToAddr c line.text) ∧
    ((∀ turn ∈ turns (linksLine asserted) (c, []) s.lines, isHeader turn.2 = false → DocumentedLink turn.2) ↔
      ∀ turn ∈ turns (linksLine asserted) (c, []) s.lines, isHeader turn.2 = false →
        ¬ SlippedLink asserted turn.1.1 turn.1.2 turn.2) ∧
    ((∀ turn ∈ turns (optionsLine nameToAddr readRule) c s.lines, IsPlainLine turn.2 → DocumentedOption turn.2) ↔
      ∀ turn ∈ turns (optionsLine nameToAddr readRule) c s.lines, IsPlainLine turn.2 →
        ¬ SlippedOption nameToAddr turn.1 turn.2) := by
  refine ⟨fun screen line => ?_, fun line => ?_, ?_, ?_⟩
  · constructor
    · intro hdoc hslip
      have haccepted : ∃ c', linksArgument asserted c screen line.text = .ok c' := by
        obtain ⟨side, between, dst, rest, dir, src, dst', htokens, hdir, hsrc, hdst', hscreen, hconnect, -⟩ := hslip
        exact linksArgument_iff.mpr
          ⟨side, between, dst, rest, dir, src, dst', htokens, hdir, hsrc, hdst', hscreen, hconnect⟩
      exact (link_documented_iff haccepted).mp (hdoc haccepted) hslip
    · exact fun hslip haccepted => (link_documented_iff haccepted).mpr hslip
  · constructor
    · intro hdoc hslip
      have haccepted : IsPlainLine line.text ∧ ∃ c', optionsLine nameToAddr readRule c line.text = .ok c' := by
        obtain ⟨name, between, value, rest, htokens, hname, hcase, -⟩ := hslip
        exact optionsLine_iff.mpr ⟨name, between, value, rest, htokens, hname, hcase⟩
      exact (option_documented_iff haccepted.1 haccepted.2).mp (hdoc haccepted.1 haccepted.2) hslip
    · exact fun hslip hplain haccepted => (option_documented_iff hplain haccepted).mpr hslip
  · refine forall₃_congr fun turn hturn hheader => ?_
    obtain ⟨next, hnext⟩ := turns_accepted hturn
    have haccepted : ∃ c', linksArgument asserted turn.1.1 turn.1.2 turn.2 = .ok c' := by
      unfold linksLine at hnext
      rw [if_neg (by simp [hheader])] at hnext
      split_ifs at hnext
      cases harg : linksArgument asserted turn.1.1 turn.1.2 turn.2 with
      | error error => simp [harg, Except.map] at hnext
      | ok c' => exact ⟨c', rfl⟩
    exact link_documented_iff haccepted
  · refine forall₃_congr fun turn hturn hplain => ?_
    exact option_documented_iff hplain (turns_accepted hturn)

private theorem not_documentedLink {line : Str} (h : '=' ∉ line) : ¬ DocumentedLink line := by
  rintro ⟨-, -, text, -, -, text', rfl, -⟩
  exact h (by simp)

private theorem not_documentedOption {line : Str} (h : '=' ∉ line) : ¬ DocumentedOption line := by
  rintro ⟨-, -, text, -, -, text', rfl, -⟩
  exact h (by simp)

/-- A link whose delimiter is another character, and an option whose value loses its first digit. -/
theorem undocumented_lines_accepted :
    (∃ c c' : Config, linksArgument (fun _ _ _ _ _ _ => none) c "bar".toList "left x foo".toList = .ok c') ∧
      ¬ DocumentedLink "left x foo".toList ∧
    (∃ c', optionsLine (fun _ => .error .unknown) (fun _ _ _ _ => .error "") empty "heartbeat 5000".toList = .ok c') ∧
      ¬ DocumentedOption "heartbeat 5000".toList := by
  refine ⟨⟨((empty.addScreen "bar".toList).bind (·.addScreen "foo".toList)).getD empty, _, rfl⟩,
    not_documentedLink (by decide), ⟨_, rfl⟩, not_documentedOption (by decide)⟩

end Config
end Synergy
