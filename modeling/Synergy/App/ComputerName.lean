import Mathlib
import Synergy.Server.ConfigWriting

/-! The name of the computer that the settings derive from a text, such as the name of the host. A
text is a sequence of characters, and those that regular expressions take for parts of words are ASCII. -/
namespace Synergy
open ConfigReadContext Config

namespace QChar

/-- `QChar::isSpace`. -/
def isSpace (c : Char) : Bool :=
  (9 ≤ c.toNat && c.toNat ≤ 13) || c.toNat = 0x20 || c.toNat = 0x85 || c.toNat = 0xA0 || c.toNat = 0x1680 ||
    (0x2000 ≤ c.toNat && c.toNat ≤ 0x200A) || c.toNat = 0x2028 || c.toNat = 0x2029 || c.toNat = 0x202F ||
    c.toNat = 0x205F || c.toNat = 0x3000

end QChar

namespace Settings

/-- The rest of a text, with one space for spaces that have another character behind them. -/
def simplifiedRest (spaces : Bool) : Str → Str
  | [] => []
  | c :: s =>
    if QChar.isSpace c then simplifiedRest true s
    else if spaces then ' ' :: c :: simplifiedRest false s
    else c :: simplifiedRest false s

/-- `QString::simplified`. -/
def simplified (name : Str) : Str := simplifiedRest false (name.dropWhile QChar.isSpace)

/-- A character that the expression leaves in a name. -/
def isNameChar (c : Char) : Bool := isalnum c || c == '_' || c == '-' || c == '.'

/-- A character that does not stand at the ends of a name. -/
def isTrimmed (c : Char) : Bool := c == '-' || c == '_' || c == '.'

/-- The name before its length is looked at. -/
def trimmedName (name : Str) : Str :=
  let cleanName := (simplified name).map fun c => if c = ' ' then '_' else c
  (((cleanName.filter isNameChar).dropWhile isTrimmed).reverse.dropWhile isTrimmed).reverse

theorem length_simplifiedRest (spaces : Bool) (s : Str) :
    (simplifiedRest spaces s).length ≤ s.length + spaces.toNat := by
  induction s generalizing spaces with
  | nil => exact Nat.zero_le _
  | cons c s ih =>
    rw [simplifiedRest]
    have htrue := ih true
    have hfalse := ih false
    simp only [Bool.toNat_true, Bool.toNat_false] at htrue hfalse
    split_ifs with hspace hspaces
    · rw [List.length_cons]
      omega
    · simp only [List.length_cons, hspaces, Bool.toNat_true]
      omega
    · simp only [List.length_cons]
      omega

theorem length_trimmedName (name : Str) : (trimmedName name).length ≤ name.length := by
  have hsimplified := length_simplifiedRest false (name.dropWhile QChar.isSpace)
  have hleft := (List.dropWhile_sublist QChar.isSpace (l := name)).length_le
  unfold trimmedName
  rw [List.length_reverse]
  refine (List.dropWhile_sublist isTrimmed).length_le.trans ?_
  rw [List.length_reverse]
  refine (List.dropWhile_sublist isTrimmed).length_le.trans ((List.length_filter_le _ _).trans ?_)
  rw [List.length_map]
  exact hsimplified.trans (by simpa using hleft)

/-- A name that is too long is cut off and cleaned again. -/
def cleanComputerName (name : Str) : Str :=
  if _h : 255 < (trimmedName name).length then cleanComputerName ((trimmedName name).take 255)
  else trimmedName name
termination_by name.length
decreasing_by
  have hlength := length_trimmedName name
  rw [List.length_take]
  omega

/-- Characters of names alone, and other ones than dashes, underscores and dots at both ends. -/
structure Clean (name : Str) : Prop where
  chars : ∀ c ∈ name, isNameChar c = true
  head : ∀ c, name.head? = some c → isTrimmed c = false
  last : ∀ c, name.getLast? = some c → isTrimmed c = false

private theorem alphanum_range {c : Char} (h : isalnum c = true) : 48 ≤ c.toNat ∧ c.toNat ≤ 122 := by
  simp only [isalnum, Char.isAlphanum, Char.isAlpha, Char.isUpper, Char.isLower, Char.isDigit, Bool.or_eq_true,
    Bool.and_eq_true, decide_eq_true_eq, ge_iff_le, UInt32.le_iff_toNat_le] at h
  have hupper : 'A'.val.toNat = 65 ∧ 'Z'.val.toNat = 90 := ⟨rfl, rfl⟩
  have hlower : 'a'.val.toNat = 97 ∧ 'z'.val.toNat = 122 := ⟨rfl, rfl⟩
  have hdigit : '0'.val.toNat = 48 ∧ '9'.val.toNat = 57 := ⟨rfl, rfl⟩
  change 48 ≤ c.val.toNat ∧ c.val.toNat ≤ 122
  omega

theorem nameChar_range {c : Char} (h : isNameChar c = true) : 45 ≤ c.toNat ∧ c.toNat ≤ 122 := by
  simp only [isNameChar, Bool.or_eq_true, beq_iff_eq] at h
  rcases h with ((h | rfl) | rfl) | rfl
  · exact ⟨by have := (alphanum_range h).1; omega, (alphanum_range h).2⟩
  all_goals decide

theorem alphanum_iff (c : Char) : isalnum c = true ↔ isNameChar c = true ∧ isTrimmed c = false := by
  constructor
  · intro h
    refine ⟨by simp [isNameChar, h], ?_⟩
    rw [Bool.eq_false_iff]
    intro htrimmed
    simp only [isTrimmed, Bool.or_eq_true, beq_iff_eq] at htrimmed
    rcases htrimmed with (rfl | rfl) | rfl
    all_goals exact absurd h (by decide)
  · rintro ⟨hname, htrimmed⟩
    simp only [isTrimmed, Bool.or_eq_false_iff, beq_eq_false_iff_ne] at htrimmed
    simpa [isNameChar, htrimmed.1.1, htrimmed.1.2, htrimmed.2] using hname

private theorem nameChar_not_space {c : Char} (h : isNameChar c = true) : QChar.isSpace c = false := by
  obtain ⟨hlow, hhigh⟩ := nameChar_range h
  rw [Bool.eq_false_iff]
  intro hspace
  simp only [QChar.isSpace, Bool.or_eq_true, Bool.and_eq_true, decide_eq_true_eq] at hspace
  omega

private theorem mem_dropWhile_iff {p : Char → Bool} {s : Str} {c : Char} (h : p c = false) :
    c ∈ s.dropWhile p ↔ c ∈ s := by
  refine ⟨fun hm => (List.dropWhile_sublist p).subset hm, fun hm => ?_⟩
  rw [← @List.takeWhile_append_dropWhile _ p s] at hm
  refine (List.mem_append.mp hm).resolve_left fun hleft => ?_
  rw [List.mem_takeWhile_imp hleft] at h
  cases h

private theorem space_is_space : QChar.isSpace ' ' = true := by decide

theorem mem_simplified {s : Str} {c : Char} (h : QChar.isSpace c = false) : c ∈ simplified s ↔ c ∈ s := by
  have hrest (spaces : Bool) (t : Str) : c ∈ simplifiedRest spaces t ↔ c ∈ t := by
    induction t generalizing spaces with
    | nil => rfl
    | cons d t ih =>
      have hspace : c ≠ ' ' := by
        rintro rfl
        rw [space_is_space] at h
        cases h
      rw [simplifiedRest]
      split_ifs with hd
      · have hne : c ≠ d := by
          rintro rfl
          rw [hd] at h
          cases h
        rw [ih, List.mem_cons, or_iff_right hne]
      · rw [List.mem_cons, List.mem_cons, ih, List.mem_cons, or_iff_right hspace]
      · rw [List.mem_cons, ih, List.mem_cons]
  rw [simplified, hrest]
  exact mem_dropWhile_iff h

theorem simplified_clean {name : Str} (h : ∀ c ∈ name, isNameChar c = true) : simplified name = name := by
  have hrest (t : Str) (ht : ∀ c ∈ t, isNameChar c = true) : simplifiedRest false t = t := by
    induction t with
    | nil => rfl
    | cons c t ih =>
      rw [simplifiedRest, if_neg (by simp [nameChar_not_space (ht c List.mem_cons_self)]), if_neg Bool.false_ne_true,
        ih fun d hd => ht d (List.mem_cons_of_mem _ hd)]
  have hleft : name.dropWhile QChar.isSpace = name := by
    cases name with
    | nil => rfl
    | cons c name => exact List.dropWhile_cons_of_neg (by simp [nameChar_not_space (h c List.mem_cons_self)])
  rw [simplified, hleft, hrest name h]

/-- What is left when both ends are trimmed. -/
private theorem trimmed_ends {s : Str} (h : ∀ c ∈ s, isNameChar c = true) :
    Clean ((s.dropWhile isTrimmed).reverse.dropWhile isTrimmed).reverse := by
  have hsub : ((s.dropWhile isTrimmed).reverse.dropWhile isTrimmed).reverse <+: s.dropWhile isTrimmed := by
    rw [← List.reverse_suffix, List.reverse_reverse]
    exact List.dropWhile_suffix _
  refine ⟨fun c hc => h c ((List.dropWhile_sublist _).subset (hsub.subset hc)), fun c hc => ?_, fun c hc => ?_⟩
  · have hne : ((s.dropWhile isTrimmed).reverse.dropWhile isTrimmed).reverse ≠ [] := by
      intro hnil
      rw [hnil] at hc
      cases hc
    have hhead := List.head?_dropWhile_not isTrimmed s
    obtain ⟨behind, hbehind⟩ := hsub
    rw [← hbehind, List.head?_append_of_ne_nil _ hne, hc] at hhead
    simpa using hhead
  · have hhead := List.head?_dropWhile_not isTrimmed (s.dropWhile isTrimmed).reverse
    rw [List.getLast?_reverse] at hc
    rw [hc] at hhead
    simpa using hhead

theorem trimmedName_clean (name : Str) : Clean (trimmedName name) := by
  refine trimmed_ends fun c hc => ?_
  exact (List.mem_filter.mp hc).2

/-- Letters and digits stay. -/
theorem mem_trimmedName {name : Str} {c : Char} (h : isalnum c = true) : c ∈ trimmedName name ↔ c ∈ name := by
  obtain ⟨hname, htrimmed⟩ := (alphanum_iff c).mp h
  unfold trimmedName
  rw [List.mem_reverse, mem_dropWhile_iff htrimmed, List.mem_reverse, mem_dropWhile_iff htrimmed, List.mem_filter,
    and_iff_left hname, List.mem_map, ← mem_simplified (nameChar_not_space hname)]
  constructor
  · rintro ⟨d, hd, hdc⟩
    split_ifs at hdc with hspace
    · rw [← hdc] at h
      exact absurd h (by decide)
    · exact hdc ▸ hd
  · intro hc
    refine ⟨c, hc, if_neg ?_⟩
    rintro rfl
    exact absurd h (by decide)

theorem Clean.trimmed {name : Str} (h : Clean name) : trimmedName name = name := by
  have hmap : (name.map fun c => if c = ' ' then '_' else c) = name := by
    refine (List.map_congr_left fun c hc => if_neg ?_).trans (List.map_id name)
    rintro rfl
    exact absurd (h.chars ' ' hc) (by decide)
  have hends {s : Str} (hs : ∀ c, s.head? = some c → isTrimmed c = false) : s.dropWhile isTrimmed = s := by
    cases s with
    | nil => rfl
    | cons c s => exact List.dropWhile_cons_of_neg (by simp [hs c rfl])
  unfold trimmedName
  dsimp only
  rw [simplified_clean h.chars, hmap, List.filter_eq_self.mpr h.chars, hends h.head, hends, List.reverse_reverse]
  intro c hc
  exact h.last c (by rwa [List.head?_reverse] at hc)

theorem trimmedName_eq_nil (name : Str) : trimmedName name = [] ↔ ∀ c ∈ name, isalnum c = false := by
  constructor
  · intro hnil c hc
    rw [Bool.eq_false_iff]
    intro hc'
    have hmem := (mem_trimmedName hc').mpr hc
    rw [hnil] at hmem
    cases hmem
  · intro h
    cases htrimmed : trimmedName name with
    | nil => rfl
    | cons c rest =>
      have hclean := trimmedName_clean name
      rw [htrimmed] at hclean
      have hc : isalnum c = true := (alphanum_iff c).mpr ⟨hclean.chars c List.mem_cons_self, hclean.head c rfl⟩
      have hmem : c ∈ name := (mem_trimmedName hc).mp (htrimmed ▸ List.mem_cons_self)
      rw [h c hmem] at hc
      cases hc

/-- What is cleaned is clean, short enough, and empty only without letters and digits. -/
theorem cleanComputerName_clean (name : Str) :
    Clean (cleanComputerName name) ∧ (cleanComputerName name).length ≤ 255 ∧
      (cleanComputerName name = [] ↔ ∀ c ∈ name, isalnum c = false) := by
  induction name using cleanComputerName.induct with
  | case1 name hlong ih =>
    rw [cleanComputerName, dif_pos hlong]
    obtain ⟨hclean, hlength, hnil⟩ := ih
    refine ⟨hclean, hlength, hnil.trans ?_⟩
    cases htrimmed : trimmedName name with
    | nil => simp [htrimmed] at hlong
    | cons c rest =>
      have hname := trimmedName_clean name
      rw [htrimmed] at hname
      have hc : isalnum c = true := (alphanum_iff c).mpr ⟨hname.chars c List.mem_cons_self, hname.head c rfl⟩
      have hmem : c ∈ name := (mem_trimmedName hc).mp (htrimmed ▸ List.mem_cons_self)
      have hcut : c ∈ (c :: rest).take 255 := by
        rw [List.take_succ_cons]
        exact List.mem_cons_self
      constructor
      · intro hnone
        rw [hnone c hcut] at hc
        cases hc
      · intro hnone
        rw [hnone c hmem] at hc
        cases hc
  | case2 name hshort =>
    rw [cleanComputerName, dif_neg hshort]
    exact ⟨trimmedName_clean name, not_lt.mp hshort, trimmedName_eq_nil name⟩

theorem Clean.fixed {name : Str} (h : Clean name) (hlength : name.length ≤ 255) : cleanComputerName name = name := by
  rw [cleanComputerName, h.trimmed, dif_neg (not_lt.mpr hlength)]

theorem Clean.plain {name : Str} (h : Clean name) : Plain name := by
  intro c hc
  obtain ⟨hlow, hhigh⟩ := nameChar_range (h.chars c hc)
  refine ⟨?_, ?_⟩
  · simp only [isgraph, Bool.and_eq_true, decide_eq_true_eq]
    omega
  · rintro rfl
    exact absurd hlow (by decide)

/-- Cleaning ends in a name of at most 255 characters that cleaning leaves as it is, and that is empty or
valid. Screens that are named so are read back as they are written if and only if each of the names that were
cleaned has a letter or a digit. -/
theorem cleaned_names (asserted : AssertedLink) (nameToAddr : Str → Except SocketAddressError (List Nat))
    (readRule : RuleReader) (forms : Forms) :
    (∀ name, (cleanComputerName name).length ≤ 255 ∧
      cleanComputerName (cleanComputerName name) = cleanComputerName name ∧
      (cleanComputerName name = [] ∨ isValidScreenName (cleanComputerName name) = true)) ∧
    ∀ (hosts : List Str) (c : Config), ofScreens (hosts.map cleanComputerName) = some c →
      (read asserted nameToAddr readRule (textOf (writtenLines forms c)) = .ok c ↔
        ∀ host ∈ hosts, ∃ ch ∈ host, isalnum ch = true) := by
  constructor
  · intro name
    obtain ⟨hclean, hlength, -⟩ := cleanComputerName_clean name
    refine ⟨hlength, hclean.fixed hlength, ?_⟩
    rw [isValidScreenName_eq]
    cases cleanComputerName name with
    | nil => exact .inl rfl
    | cons ch rest => exact .inr rfl
  · intro hosts c h
    have hplain : ∀ name ∈ hosts.map cleanComputerName, Plain name := by
      rw [List.forall_mem_map]
      exact fun host _ => (cleanComputerName_clean host).1.plain
    rw [read_written_iff asserted nameToAddr readRule forms h hplain, List.forall_mem_map]
    refine forall₂_congr fun host _ => ?_
    rw [Ne, (cleanComputerName_clean host).2.2]
    simp

private def noForms : Forms := ⟨fun _ _ => none, fun _ _ => [], fun _ => []⟩

theorem cleaned_names_laptop : ∃ c, ofScreens ["My_Laptop".toList] = some c ∧
    read noLink (fun _ => .ok []) noRule (textOf (writtenLines noForms c)) = .ok c := by
  have htrimmed : trimmedName " My\tLaptop.".toList = "My_Laptop".toList := by decide
  have hclean : cleanComputerName " My\tLaptop.".toList = "My_Laptop".toList := by
    rw [cleanComputerName, htrimmed]
    rfl
  obtain ⟨c, hc⟩ : ∃ c, ofScreens ["My_Laptop".toList] = some c := ⟨_, rfl⟩
  have hhosts : ofScreens ([" My\tLaptop.".toList].map cleanComputerName) = some c := by
    rw [List.map_singleton, hclean, hc]
  refine ⟨c, hc, ((cleaned_names noLink (fun _ => .ok []) noRule noForms).2 _ c hhosts).mpr ?_⟩
  rw [List.forall_mem_singleton]
  exact ⟨'M', by decide, rfl⟩

/-- A host whose name has no ASCII letter is given the empty name, which is written and then refused. -/
theorem foreign_host_refused : cleanComputerName "电脑".toList = [] ∧ ∃ c, ofScreens [cleanComputerName "电脑".toList] =
    some c ∧ read noLink (fun _ => .ok []) noRule (textOf (writtenLines noForms c)) ≠ .ok c := by
  have htrimmed : trimmedName "电脑".toList = [] := by decide
  have hclean : cleanComputerName "电脑".toList = [] := by
    rw [cleanComputerName, htrimmed]
    rfl
  obtain ⟨c, hc⟩ : ∃ c, ofScreens [[]] = some c := ⟨_, rfl⟩
  refine ⟨hclean, c, by rw [hclean, hc], fun hread => ?_⟩
  have hplain : ∀ name ∈ [([] : Str)], Plain name := by
    rw [List.forall_mem_singleton]
    exact fun _ hc => absurd hc List.not_mem_nil
  exact (read_written_iff noLink _ noRule noForms hc hplain).mp hread [] (List.mem_singleton_self _) rfl

end Settings
end Synergy
