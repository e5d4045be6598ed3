import Mathlib.Data.List.TakeWhile
import Synergy.Base.Numerals
import Synergy.Server.ConfigReadContext

/-! The tokens of a line: a name and the arguments that may follow it in parentheses. A
position in the line is kept as the text from there on. -/
namespace Synergy

/-- A name with its arguments; there are none when there are no parentheses. -/
structure Token where
  name : Str
  args : List Str
  deriving DecidableEq

namespace ConfigReadContext

/-- The token has to be followed by a delimiter. -/
def needDelim (delim : Str) : Bool := !delim.isEmpty && !delim.contains '\n'

def inName (delim : Str) (c : Char) : Bool := !isBlank c && c ≠ '(' && !delim.contains c

def trimArg (arg : Str) : Str := eraseTrailing isBlank (eraseLeading isBlank arg)

/-- The texts up to the closing parenthesis, and what follows it. -/
def splitArgs : Str → Option (List Str × Str)
  | [] => none
  | c :: s =>
    if c = ')' then some ([[]], s)
    else
      match splitArgs s with
      | some (arg :: args, rest) => if c = ',' then some ([] :: arg :: args, rest) else some ((c :: arg) :: args, rest)
      | _ => none

def missingDelim (delim : Str) : String := "missing " ++ String.ofList (delim.take 1)

/-- The arguments behind a name, if there are any. A delimiter that has to be there is looked for
behind arguments only. -/
def parseArgs (delim name : Str) : Str → Except String (Token × Str)
  | [] => if needDelim delim then .error (missingDelim delim) else .ok (⟨name, []⟩, [])
  | c :: s =>
    if c ≠ '(' then .ok (⟨name, []⟩, c :: s)
    else
      match splitArgs s with
      | none => .error "missing )"
      | some (args, s) =>
        match s.dropWhile isBlank with
        | [] => if needDelim delim then .error (missingDelim delim) else .ok (⟨name, args.map trimArg⟩, [])
        | c :: s =>
          if needDelim delim && !delim.contains c then .error ("expected " ++ String.ofList (delim.take 1))
          else .ok (⟨name, args.map trimArg⟩, c :: s)

/-- The token that a text starts with, and the text it stops at. -/
def parseNameWithArgs (type : String) (delim line : Str) : Except String (Token × Str) :=
  match line.dropWhile isBlank with
  | [] => .error ("missing " ++ type)
  | c :: s =>
    parseArgs delim ((c :: s).takeWhile (inName delim)) (((c :: s).dropWhile (inName delim)).dropWhile isBlank)

def concatArgs (args : List Str) : String := "(" ++ String.intercalate "," (args.map String.ofList) ++ ")"

/-- `static_cast<float>(value / 100.0f)`. -/
def hundredth : Double → Double
  | .finite q =>
    match Double.toDouble (q / 100) with
    | .finite r => Double.toFloat r
    | x => x
  | x => x

/-- The portion of an edge that arguments stand for, as its two ends. -/
def parseInterval (args : List Str) : Except String (Double × Double) :=
  match args with
  | [] => .ok (.finite 0, .finite 1)
  | [first, second] =>
    if first.isEmpty || second.isEmpty then .error ("invalid interval \"" ++ concatArgs args ++ "\"")
    else
      let (startValue, rest) := strtod first
      let (endValue, rest') := strtod second
      if rest ≠ [] ∨ rest' ≠ [] then .error ("invalid interval \"" ++ concatArgs args ++ "\"")
      else if startValue.less (.finite 0) || Double.less (.finite 100) startValue || endValue.less (.finite 0) ||
          Double.less (.finite 100) endValue || startValue.notLess endValue then
        .error ("invalid interval \"" ++ concatArgs args ++ "\"")
      else .ok (hundredth startValue, hundredth endValue)
  | _ => .error ("invalid interval \"" ++ concatArgs args ++ "\"")

def Blanks (s : Str) : Prop := ∀ c ∈ s, isBlank c = true

/-- The text of arguments, with the blanks behind them. -/
inductive ArgsText : List Str → Str → Prop
  | none : ArgsText [] []
  | given (fields : List Str) (trail : Str) : fields ≠ [] → (∀ f ∈ fields, ',' ∉ f ∧ ')' ∉ f) → Blanks trail →
      ArgsText (fields.map trimArg) ('(' :: ([','].intercalate fields ++ ')' :: trail))

/-- The text of a token: its name between blanks, those behind it being the gap, and its arguments. -/
def TokenText (delim : Str) (t : Token) (gap text : Str) : Prop :=
  ∃ lead args, text = lead ++ (t.name ++ (gap ++ args)) ∧ Blanks lead ∧ Blanks gap ∧
    (∀ c ∈ t.name, inName delim c = true) ∧ (t.name = [] → gap = []) ∧ ArgsText t.args args

/-- The text that a token stops at. Without arguments that is any text that is not part of the token,
if there is a gap. -/
def Stops (delim : Str) (t : Token) (gap : Str) : Str → Prop
  | [] => needDelim delim = false
  | c :: _ => isBlank c = false ∧ (t.args = [] → c ≠ '(' ∧ (gap = [] → c ∈ delim)) ∧
      (t.args ≠ [] → needDelim delim = true → c ∈ delim)

private theorem dropWhile_iff {p : Char → Bool} {s rest : Str} :
    s.dropWhile p = rest ↔
      ∃ body, s = body ++ rest ∧ (∀ c ∈ body, p c = true) ∧ ∀ c, rest.head? = some c → p c = false := by
  constructor
  · rintro rfl
    refine ⟨s.takeWhile p, List.takeWhile_append_dropWhile.symm, fun c hc => List.mem_takeWhile_imp hc, ?_⟩
    intro c hc
    have h := List.head?_dropWhile_not p s
    rw [hc] at h
    simpa using h
  · rintro ⟨body, rfl, hbody, hrest⟩
    rw [List.dropWhile_append_of_pos hbody]
    cases rest with
    | nil => rfl
    | cons c rest => simp [hrest c rfl]

private theorem takeWhile_of_boundary {p : Char → Bool} {body rest : Str} (hbody : ∀ c ∈ body, p c = true)
    (hrest : ∀ c, rest.head? = some c → p c = false) : (body ++ rest).takeWhile p = body := by
  rw [List.takeWhile_append_of_pos hbody]
  cases rest with
  | nil => simp
  | cons c rest => simp [hrest c rfl]

private theorem splitArgs_sound {s rest : Str} {fields : List Str} (h : splitArgs s = some (fields, rest)) :
    fields ≠ [] ∧ (∀ f ∈ fields, ',' ∉ f ∧ ')' ∉ f) ∧ s = [','].intercalate fields ++ ')' :: rest := by
  induction s generalizing fields rest with
  | nil => cases h
  | cons c s ih =>
    rw [splitArgs] at h
    by_cases hclose : c = ')'
    · rw [if_pos hclose] at h
      obtain ⟨rfl, rfl⟩ := Prod.mk.inj (Option.some.inj h)
      simp [hclose]
    · rw [if_neg hclose] at h
      split at h
      · rename_i arg args rest' hsplit
        obtain ⟨-, hplain, hs⟩ := ih hsplit
        split_ifs at h with hcomma
        · obtain ⟨rfl, rfl⟩ := Prod.mk.inj (Option.some.inj h)
          refine ⟨List.cons_ne_nil _ _, ?_, ?_⟩
          · simpa using hplain
          · simp [List.intercalate_cons_cons, hs, hcomma]
        · obtain ⟨rfl, rfl⟩ := Prod.mk.inj (Option.some.inj h)
          refine ⟨List.cons_ne_nil _ _, ?_, ?_⟩
          · have harg := hplain arg (by simp)
            intro f hf
            rcases List.mem_cons.mp hf with rfl | hf
            · exact ⟨by simp [harg.1, Ne.symm hcomma], by simp [harg.2, Ne.symm hclose]⟩
            · exact hplain f (by simp [hf])
          · rw [hs]
            cases args <;> simp [List.intercalate_cons_cons]
      · cases h

private theorem splitArgs_complete {rest : Str} {fields : List Str} (hfields : fields ≠ [])
    (hplain : ∀ f ∈ fields, ',' ∉ f ∧ ')' ∉ f) :
    splitArgs ([','].intercalate fields ++ ')' :: rest) = some (fields, rest) := by
  induction fields with
  | nil => exact absurd rfl hfields
  | cons f fields ih =>
    obtain ⟨hcomma, hclose⟩ := hplain f (by simp)
    have hmore : ∀ g ∈ fields, ',' ∉ g ∧ ')' ∉ g := fun g hg => hplain g (by simp [hg])
    clear hplain hfields
    induction f with
    | nil =>
      cases fields with
      | nil => simp [splitArgs]
      | cons g fields =>
        have ih := ih (List.cons_ne_nil _ _) hmore
        simp only [List.intercalate_cons_cons, List.nil_append, List.cons_append, splitArgs, ih]
        rw [if_neg (by decide)]
        rfl
    | cons c f ihf =>
      obtain ⟨hc, hcomma⟩ := not_or.mp fun h => hcomma (List.mem_cons.mpr h)
      obtain ⟨hc', hclose⟩ := not_or.mp fun h => hclose (List.mem_cons.mpr h)
      have ihf := ihf hcomma hclose
      have hcons : [','].intercalate ((c :: f) :: fields) = c :: [','].intercalate (f :: fields) := by
        cases fields <;> simp [List.intercalate_cons_cons]
      rw [hcons, List.cons_append, splitArgs, if_neg (Ne.symm hc'), ihf]
      exact if_neg (Ne.symm hc)

private theorem argsText_nil {text : Str} (h : ArgsText [] text) : text = [] := by
  generalize hargs : ([] : List Str) = args at h
  cases h with
  | none => rfl
  | given fields trail hfields => exact absurd (List.map_eq_nil_iff.mp hargs.symm) hfields

/-- What is read behind a name, in a text that does not start with a blank. -/
private theorem parseArgs_iff {delim name u rest : Str} {t : Token}
    (hu : ∀ c, u.head? = some c → isBlank c = false) :
    parseArgs delim name u = .ok (t, rest) ↔ t.name = name ∧ ∃ args, u = args ++ rest ∧ ArgsText t.args args ∧
      (rest = [] → needDelim delim = false) ∧ ∀ c, rest.head? = some c → isBlank c = false ∧
        (t.args = [] → c ≠ '(') ∧ (t.args ≠ [] → needDelim delim = true → c ∈ delim) := by
  constructor
  · intro h
    cases u with
    | nil =>
      rw [parseArgs] at h
      split_ifs at h with hneed
      obtain ⟨rfl, rfl⟩ := Prod.mk.inj (Except.ok.inj h)
      exact ⟨rfl, [], rfl, .none, by simpa using hneed, by simp⟩
    | cons c s =>
      rw [parseArgs] at h
      by_cases hopen : c = '('
      · rw [if_neg (not_not.mpr hopen)] at h
        split at h
        · cases h
        · rename_i args s' hsplit
          obtain ⟨hfields, hplain, rfl⟩ := splitArgs_sound hsplit
          have hmap : args.map trimArg ≠ [] := by simpa using hfields
          obtain ⟨trail, hs', htrail, hstop⟩ := dropWhile_iff.mp (Eq.refl (s'.dropWhile isBlank))
          have hgiven := ArgsText.given args trail hfields hplain htrail
          split at h
          · rename_i hend
            split_ifs at h with hneed
            obtain ⟨rfl, rfl⟩ := Prod.mk.inj (Except.ok.inj h)
            rw [hend] at hs'
            exact ⟨rfl, _, by simp [hopen, hs'], hgiven, by simpa using hneed, by simp⟩
          · rename_i d s'' hend
            split_ifs at h with hneed
            obtain ⟨rfl, rfl⟩ := Prod.mk.inj (Except.ok.inj h)
            rw [hend] at hs' hstop
            refine ⟨rfl, _, by simp [hopen, hs'], hgiven, by simp, ?_⟩
            intro c hc
            obtain rfl : d = c := by simpa using hc
            exact ⟨hstop d rfl, fun h => absurd h hmap, fun _ hn => by simpa [hn] using hneed⟩
      · rw [if_pos hopen] at h
        obtain ⟨rfl, rfl⟩ := Prod.mk.inj (Except.ok.inj h)
        refine ⟨rfl, [], rfl, .none, by simp, ?_⟩
        intro d hd
        obtain rfl : c = d := by simpa using hd
        exact ⟨hu c rfl, fun _ => hopen, fun h => absurd rfl h⟩
  · rintro ⟨rfl, args, rfl, hargs, hend, hstop⟩
    obtain ⟨name, targs⟩ := t
    cases hargs with
    | none =>
      cases rest with
      | nil => simp [parseArgs, hend rfl]
      | cons c rest => simp [parseArgs, (hstop c rfl).2.1 rfl]
    | given fields trail hfields hplain htrail =>
      have hmap : fields.map trimArg ≠ [] := by simpa using hfields
      have hsplit : splitArgs ([','].intercalate fields ++ ')' :: (trail ++ rest)) = some (fields, trail ++ rest) :=
        splitArgs_complete hfields hplain
      have htail : (trail ++ rest).dropWhile isBlank = rest :=
        dropWhile_iff.mpr ⟨trail, rfl, htrail, fun c hc => (hstop c hc).1⟩
      have htext : [','].intercalate fields ++ ')' :: trail ++ rest = [','].intercalate fields ++ ')' :: (trail ++ rest) :=
        by simp
      simp only [List.cons_append, parseArgs, htext, hsplit, htail]
      cases rest with
      | nil => simp [hend rfl]
      | cons c rest =>
        have hdelim := (hstop c rfl).2.2 hmap
        cases hneed : needDelim delim with
        | false => simp
        | true => simp [hdelim hneed]

/-- What is read is the token whose text comes first, up to where it stops. -/
theorem parseNameWithArgs_iff {type : String} {delim line rest : Str} {t : Token} :
    parseNameWithArgs type delim line = .ok (t, rest) ↔
      ¬ Blanks line ∧ ∃ gap text, TokenText delim t gap text ∧ Stops delim t gap rest ∧ line = text ++ rest := by
  constructor
  · intro h
    unfold parseNameWithArgs at h
    split at h
    · cases h
    · rename_i c s hline
      obtain ⟨lead, hlead, hblank, hstart⟩ := dropWhile_iff.mp hline
      have hc : isBlank c = false := hstart c rfl
      obtain ⟨name, hafter, hname, hend⟩ := dropWhile_iff.mp (Eq.refl ((c :: s).dropWhile (inName delim)))
      obtain ⟨gap, hrest, hgap, hu⟩ :=
        dropWhile_iff.mp (Eq.refl (((c :: s).dropWhile (inName delim)).dropWhile isBlank))
      have htake : (c :: s).takeWhile (inName delim) = name := by
        rw [hafter]
        exact takeWhile_of_boundary hname hend
      obtain ⟨hn, args, hargs, hargsText, hneed, hstop⟩ := (parseArgs_iff hu).mp h
      rw [htake] at hn
      rw [hargs] at hrest
      rw [hrest] at hafter hend
      refine ⟨fun hall => ?_, gap, lead ++ (name ++ (gap ++ args)), ?_, ?_, ?_⟩
      · have hm := hall c (by simp [hlead])
        simp [hc] at hm
      · refine ⟨lead, args, by rw [hn], hblank, hgap, by rwa [hn], ?_, hargsText⟩
        -- a text that starts with a gap would start with a blank
        intro hnil
        cases gap with
        | nil => rfl
        | cons d gap =>
          have hd := hgap d (by simp)
          rw [← hn, hnil] at hafter
          obtain rfl : c = d := (List.cons.inj hafter).1
          simp [hc] at hd
      · cases rest with
        | nil => exact hneed rfl
        | cons d rest =>
          obtain ⟨hd, hopen, hdelim⟩ := hstop d rfl
          refine ⟨hd, fun hnone => ⟨hopen hnone, ?_⟩, hdelim⟩
          rintro rfl
          rw [hnone] at hargsText
          obtain rfl := argsText_nil hargsText
          have hout := hend d rfl
          simpa [inName, hd, hopen hnone] using hout
      · rw [hlead, hafter]
        simp
  · rintro ⟨hblank, gap, text, ⟨lead, args, rfl, hlead, hgap, hname, hempty, hargs⟩, hstops, rfl⟩
    obtain ⟨name, targs⟩ := t
    dsimp only at hname hempty hargs
    have hrest : ∀ c, rest.head? = some c → isBlank c = false := by
      intro c hc
      cases rest with
      | nil => cases hc
      | cons d rest => exact Option.some.inj hc ▸ hstops.1
    have htail : ∀ c, (args ++ rest).head? = some c → isBlank c = false := by
      intro c hc
      cases hargs with
      | none => exact hrest c hc
      | given => exact Option.some.inj hc ▸ rfl
    have hbehind : ∀ c, (gap ++ (args ++ rest)).head? = some c → inName delim c = false := by
      intro c hc
      cases gap with
      | cons d gap =>
        have hd := hgap d (by simp)
        obtain rfl : d = c := Option.some.inj hc
        simp [inName, hd]
      | nil =>
        cases hargs with
        | given => exact Option.some.inj hc ▸ rfl
        | none =>
          cases rest with
          | nil => cases hc
          | cons d rest =>
            obtain rfl : d = c := Option.some.inj hc
            simp [inName, (hstops.2.1 rfl).2 rfl]
    have hstart : ∀ c, (name ++ (gap ++ (args ++ rest))).head? = some c → isBlank c = false := by
      intro c hc
      cases name with
      | cons d name =>
        have hd := hname d (by simp)
        obtain rfl : d = c := Option.some.inj hc
        simp only [inName, Bool.and_eq_true, Bool.not_eq_true'] at hd
        exact hd.1.1
      | nil =>
        rw [hempty rfl] at hc
        exact htail c hc
    have hline : (lead ++ (name ++ (gap ++ args)) ++ rest).dropWhile isBlank = name ++ (gap ++ (args ++ rest)) :=
      dropWhile_iff.mpr ⟨lead, by simp, hlead, hstart⟩
    unfold parseNameWithArgs
    split
    · rename_i hnil
      exact absurd (List.dropWhile_eq_nil_iff.mp hnil) hblank
    · rename_i c s hcons
      rw [← hcons, hline, takeWhile_of_boundary hname hbehind,
        dropWhile_iff.mpr ⟨name, rfl, hname, hbehind⟩, dropWhile_iff.mpr ⟨gap, rfl, hgap, htail⟩]
      refine (parseArgs_iff htail).mpr ⟨rfl, args, rfl, hargs, ?_, ?_⟩
      · rintro rfl
        exact hstops
      · intro c hc
        cases rest with
        | nil => cases hc
        | cons d rest =>
          obtain rfl : d = c := Option.some.inj hc
          exact ⟨hstops.1, fun hnone => (hstops.2.1 hnone).1, hstops.2.2⟩

end ConfigReadContext
end Synergy
