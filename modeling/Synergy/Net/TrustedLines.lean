import Mathlib
import Synergy.Net.Fingerprint

/-! What the store of trusted fingerprints reads: everything that it wrote, and from other lines the fingerprints that
they denote, unless a line is sloppy. -/
namespace Synergy
open Fingerprint Fingerprints

/-! ### Digits -/

private theorem toNat_toLower (c : Char) :
    c.toLower.toNat = if 65 ≤ c.toNat ∧ c.toNat ≤ 90 then c.toNat + 32 else c.toNat := by
  rw [Char.toLower]
  split_ifs with hupper hnat hnat
  · change (c.val + 32).toNat = c.val.toNat + 32
    have hle : c.val.toNat ≤ 90 := hnat.2
    rw [UInt32.toNat_add]
    exact Nat.mod_eq_of_lt (by change c.val.toNat + 32 < 2 ^ 32; omega)
  · exact absurd ⟨UInt32.le_iff_toNat_le.mp hupper.1, UInt32.le_iff_toNat_le.mp hupper.2⟩ hnat
  · exact absurd ⟨UInt32.le_iff_toNat_le.mpr hnat.1, UInt32.le_iff_toNat_le.mpr hnat.2⟩ hupper
  · rfl

private theorem isHex_iff (c : Char) : isHex c = true ↔
    48 ≤ c.toNat ∧ c.toNat ≤ 57 ∨ 65 ≤ c.toNat ∧ c.toNat ≤ 70 ∨ 97 ≤ c.toNat ∧ c.toNat ≤ 102 := by
  simp only [isHex, isDigit, digitValue, Bool.and_eq_true, Bool.or_eq_true, decide_eq_true_eq]
  constructor
  · rintro ⟨hclass, -⟩
    omega
  · intro hclass
    refine ⟨by omega, ?_⟩
    split_ifs
    · exact decide_eq_true (by omega)
    · exact decide_eq_true (by omega)
    · exact decide_eq_true (by omega)

/-- A change of characters that digits and their values do not feel. -/
private def Harmless (g : Char → Char) : Prop :=
  ∀ c, isHex (g c) = isHex c ∧ (isHex c = true → digitValue (g c) = digitValue c)

private theorem harmless_toLower : Harmless Char.toLower := by
  intro c
  have hlower := toNat_toLower c
  have hiff : isHex c.toLower = true ↔ isHex c = true := by
    rw [isHex_iff, isHex_iff, hlower]
    split_ifs
    · omega
    · rfl
  refine ⟨Bool.eq_iff_iff.mpr hiff, fun hc => ?_⟩
  rw [isHex_iff] at hc
  rw [digitValue, digitValue, hlower]
  split_ifs <;> omega

private theorem harmless_toLatin1 : Harmless fun c => if c.toNat < 2 ^ 8 then c else '?' := by
  intro c
  dsimp only
  split_ifs with hsmall
  · exact ⟨rfl, fun _ => rfl⟩
  · have hnot : isHex c = false := by
      refine Bool.eq_false_iff.mpr fun hc => ?_
      rw [isHex_iff] at hc
      omega
    rw [hnot]
    exact ⟨rfl, fun h => by cases h⟩

private theorem fromHex_map {g : Char → Char} (h : Harmless g) (s : Str) : fromHex (s.map g) = fromHex s := by
  have hfilter : (s.map g).filter isHex = (s.filter isHex).map g := by
    rw [List.filter_map]
    exact congrArg (List.map g) (List.filter_congr fun c _ => (h c).1)
  rw [fromHex, fromHex, hfilter, List.map_map]
  refine congrArg (fun digits => bytesFromEnd digits.reverse) (List.map_congr_left fun c hc => ?_)
  exact (h c).2 (List.mem_filter.mp hc).2

private theorem length_bytesFromEnd (digits : List Nat) : (bytesFromEnd digits).length = (digits.length + 1) / 2 := by
  induction digits using bytesFromEnd.induct with
  | case1 => rfl
  | case2 lo => simp [bytesFromEnd]
  | case3 lo hi digits ih =>
    rw [bytesFromEnd, List.length_append, ih, List.length_singleton, List.length_cons, List.length_cons]
    omega

theorem length_fromHex (s : Str) : (fromHex s).length = (s.countP isHex + 1) / 2 := by
  rw [fromHex, length_bytesFromEnd, List.length_reverse, List.length_map, List.countP_eq_length_filter]

private theorem bytesFromEnd_append (digits : List Nat) (heven : digits.length % 2 = 0) (lo hi : Nat) :
    bytesFromEnd (digits ++ [lo, hi]) = UInt8.ofNat (lo + 16 * hi) :: bytesFromEnd digits := by
  induction digits using bytesFromEnd.induct with
  | case1 => rfl
  | case2 last => cases heven
  | case3 lo' hi' digits ih =>
    have hrest : digits.length % 2 = 0 := by
      rw [List.length_cons, List.length_cons] at heven
      omega
    rw [List.cons_append, List.cons_append, bytesFromEnd, ih hrest, bytesFromEnd, List.cons_append]

/-- Digits in pairs give the digest that they denote. -/
theorem fromHex_eq_digest {s : Str} (hdigits : ∀ c ∈ s, isHex c = true) (heven : s.length % 2 = 0) :
    fromHex s = digest s := by
  induction s using digest.induct with
  | case1 hi lo s ih =>
    have hrest : ∀ c ∈ s, isHex c = true := fun c hc => hdigits c (List.mem_cons_of_mem _ (List.mem_cons_of_mem _ hc))
    have hlength : s.length % 2 = 0 := by
      rw [List.length_cons, List.length_cons] at heven
      omega
    have hsame := ih hrest hlength
    rw [fromHex, List.filter_eq_self.mpr hrest] at hsame
    rw [fromHex, List.filter_eq_self.mpr hdigits, List.map_cons, List.map_cons, List.reverse_cons, List.reverse_cons,
      List.append_assoc, List.singleton_append, bytesFromEnd_append _ (by simpa using hlength), hsame, digest,
      Nat.add_comm]
  | case2 s hs =>
    match s, hs with
    | [], _ => rfl
    | [c], _ => cases heven
    | hi :: lo :: s, hs => exact absurd rfl (hs hi lo s)

/-! ### Colons -/

private theorem length_splitOn (x : Char) (s : Str) : (s.splitOn x).length = s.count x + 1 := by
  induction s with
  | nil => rfl
  | cons c s ih =>
    rw [List.splitOn_cons_eq_if_modifyHead, List.count_cons]
    split_ifs
    · rw [List.length_cons, ih]
    · rw [List.length_modifyHead, ih]

private theorem flatten_splitOn (x : Char) (s : Str) : (s.splitOn x).flatten = s.filter (· ≠ x) := by
  induction s with
  | nil => rfl
  | cons c s ih =>
    rw [List.splitOn_cons_eq_if_modifyHead, List.filter_cons]
    by_cases hc : c = x
    · rw [if_pos (beq_iff_eq.mpr hc), if_neg (by simp [hc]), List.flatten_cons, List.nil_append, ih]
    · rw [if_neg (by simpa using hc), if_pos (by simpa using hc)]
      obtain ⟨first, more, hsplit⟩ := List.exists_cons_of_ne_nil (List.splitOn_ne_nil x s)
      rw [hsplit] at ih ⊢
      rw [List.modifyHead_cons, List.flatten_cons, List.cons_append, ← List.flatten_cons, ih]

private theorem not_hex_colon : isHex ':' = false := by decide

private theorem countP_filter_colon (s : Str) : (s.filter (· ≠ ':')).countP isHex = s.countP isHex := by
  rw [List.countP_filter]
  refine List.countP_congr fun c _ => ?_
  rw [Bool.and_eq_true, decide_eq_true_eq]
  refine ⟨And.left, fun hc => ⟨hc, ?_⟩⟩
  rintro rfl
  rw [not_hex_colon] at hc
  cases hc

private theorem splitOn_v2 {line : Str} :
    "v2:".toList.isPrefixOf line = true ↔ (line.splitOn ':').head? = some "v2".toList ∧ line.count ':' ≠ 0 := by
  rw [List.isPrefixOf_iff_prefix]
  constructor
  · rintro ⟨t, rfl⟩
    have hcolon : ':' ∉ "v2".toList := by decide
    have hsplit : ("v2:".toList ++ t).splitOn ':' = "v2".toList :: t.splitOn ':' :=
      List.splitOn_append_cons_self_of_not_mem hcolon t
    rw [hsplit]
    refine ⟨rfl, ?_⟩
    rw [List.count_append]
    have hone : "v2:".toList.count ':' = 1 := by decide
    omega
  · rintro ⟨hhead, hcount⟩
    have hlength := length_splitOn ':' line
    have hline : [':'].intercalate (line.splitOn ':') = line := List.intercalate_splitOn ':'
    match hsplit : line.splitOn ':' with
    | [] => exact absurd hsplit (List.splitOn_ne_nil _ _)
    | [first] =>
      rw [hsplit, List.length_singleton] at hlength
      omega
    | first :: second :: more =>
      rw [hsplit] at hhead hline
      obtain rfl : first = "v2".toList := Option.some.inj hhead
      rw [← hline]
      exact ⟨[':'].intercalate (second :: more), by simp [List.intercalate]⟩

/-! ### Lines -/

/-- What lines denote, in the pieces between their colons. -/
theorem denotes_iff {line : Str} {f : Fingerprint} : Denotes line f ↔
    (∃ type digits, line.splitOn ':' = ["v2".toList, type, digits] ∧
      digestDigits (typeFromString type) = some digits.length ∧ (∀ c ∈ digits, isHex c = true) ∧
      f = ⟨typeFromString type, digest digits⟩) ∨
    ((line.splitOn ':').length = 20 ∧ (∀ g ∈ line.splitOn ':', g.length = 2 ∧ ∀ c ∈ g, isHex c = true) ∧
      f = ⟨.sha1, digest (line.splitOn ':').flatten⟩) := by
  have hnot {g : Str} (hg : ∀ c ∈ g, isHex c = true) : ':' ∉ g := fun hmem => by
    have hcolon := hg _ hmem
    rw [not_hex_colon] at hcolon
    cases hcolon
  constructor
  · rintro (⟨type, digits, algorithm, hdigits, htype, hname⟩ | ⟨groups, hlength, hgroups⟩)
    · have hfrom : typeFromString type = algorithm := by
        rw [typeFromString, hname]
        cases algorithm with
        | sha1 => decide
        | sha256 => decide
        | md4 => cases htype
        | other value => cases htype
      have hcolon : ':' ∉ type := by
        intro hmem
        have hlower : ':' ∈ toLower type := List.mem_map.mpr ⟨':', hmem, by decide⟩
        rw [hname] at hlower
        cases algorithm with
        | sha1 => exact absurd hlower (by decide)
        | sha256 => exact absurd hlower (by decide)
        | md4 => cases htype
        | other value => cases htype
      have hline : "v2:".toList ++ type ++ ':' :: digits = "v2".toList ++ ':' :: (type ++ ':' :: digits) := by simp
      refine Or.inl ⟨type, digits, ?_, hfrom ▸ htype, hdigits, by rw [hfrom]⟩
      rw [hline, List.splitOn_append_cons_self_of_not_mem (by decide), List.splitOn_append_cons_self_of_not_mem hcolon,
        List.splitOn_eq_singleton (hnot hdigits)]
    · have hsplit : ([':'].intercalate groups).splitOn ':' = groups := by
        refine List.splitOn_intercalate ':' (fun g hg => hnot (hgroups g hg).2) ?_
        rintro rfl
        cases hlength
      rw [hsplit]
      exact Or.inr ⟨hlength, hgroups, rfl⟩
  · have hline : [':'].intercalate (line.splitOn ':') = line := List.intercalate_splitOn ':'
    rintro (⟨type, digits, hsplit, htype, hdigits, rfl⟩ | ⟨hlength, hgroups, rfl⟩)
    · rw [hsplit] at hline
      have hname : toLower type = typeToString (typeFromString type) := by
        rw [typeFromString] at htype ⊢
        split_ifs at htype ⊢ with h1 h2
        · exact h1
        · exact h2
        · cases htype
      have hdenotes := Denotes.digits type digits _ hdigits htype hname
      rwa [← hline, show [':'].intercalate ["v2".toList, type, digits] = "v2:".toList ++ type ++ ':' :: digits by
        simp [List.intercalate]]
    · have hdenotes := Denotes.groups _ hlength hgroups
      rwa [hline] at hdenotes

private theorem isValid_iff (f : Fingerprint) : f.isValid = true ↔ digestDigits f.type = some (2 * f.data.length) := by
  obtain ⟨type, data⟩ := f
  cases type with
  | md4 => exact ⟨fun h => (by cases h), fun h => (by cases h)⟩
  | other value => exact ⟨fun h => (by cases h), fun h => (by cases h)⟩
  | sha1 =>
    change decide (data.length = 20) = true ↔ some 40 = some (2 * data.length)
    rw [decide_eq_true_eq, Option.some.injEq]
    omega
  | sha256 =>
    change decide (data.length = 32) = true ↔ some 64 = some (2 * data.length)
    rw [decide_eq_true_eq, Option.some.injEq]
    omega

private theorem digestDigits_even {algorithm : HashAlgorithm} {n : Nat} (h : digestDigits algorithm = some n) :
    n % 2 = 0 := by
  cases algorithm with
  | md4 => cases h
  | other value => cases h
  | sha1 => exact Option.some.inj h ▸ rfl
  | sha256 => exact Option.some.inj h ▸ rfl

private theorem qsize_ge (s : Str) : s.length ≤ qsize s := by
  induction s with
  | nil => exact Nat.le_refl _
  | cons c s ih =>
    rw [qsize, List.map_cons, List.sum_cons, ← qsize, List.length_cons]
    split_ifs
    · omega
    · omega

/-- The lines that are read, in the pieces between their colons. -/
theorem entry_iff {line : Str} {f : Fingerprint} : entry line = some f ↔
    (∃ type text n, line.splitOn ':' = ["v2".toList, type, text] ∧ digestDigits (typeFromString type) = some n ∧
      (text.countP isHex = n ∨ text.countP isHex + 1 = n) ∧ f = ⟨typeFromString type, fromHex text⟩) ∨
    ((line.splitOn ':').head? ≠ some "v2".toList ∧ qsize line = 59 ∧ line.count ':' = 19 ∧ 39 ≤ line.countP isHex ∧
      f = ⟨.sha1, fromHex (line.filter (· ≠ ':'))⟩) := by
  have hentry : entry line = if (fromDbLine line).isValid then some (fromDbLine line) else none := by
    rw [entry]
    cases line with
    | nil => rfl
    | cons c line => rfl
  have hcount := length_splitOn ':' line
  by_cases hprefix : "v2:".toList.isPrefixOf line = true
  · obtain ⟨hhead, -⟩ := splitOn_v2.mp hprefix
    have hempty : line.isEmpty = false := by
      cases line with
      | nil => cases hprefix
      | cons c line => rfl
    have hnot : ¬ (line.splitOn ':').head? ≠ some "v2".toList := not_not.mpr hhead
    rw [or_iff_left (fun h => hnot h.1), hentry]
    rw [fromDbLine, hempty, if_neg Bool.false_ne_true, if_pos hprefix]
    have hfew {l : List Str} (hshort : l.length ≠ 3) : ¬ ∃ type text n, l = ["v2".toList, type, text] ∧
        digestDigits (typeFromString type) = some n ∧ (text.countP isHex = n ∨ text.countP isHex + 1 = n) ∧
        f = ⟨typeFromString type, fromHex text⟩ := by
      rintro ⟨type, text, n, rfl, -⟩
      exact hshort rfl
    rcases hsplit : line.splitOn ':' with _ | ⟨first, _ | ⟨type, _ | ⟨text, _ | ⟨fourth, more⟩⟩⟩⟩
    · exact absurd hsplit (List.splitOn_ne_nil _ _)
    · exact ⟨fun h => (by cases h), fun h => absurd h (hfew (by simp))⟩
    · exact ⟨fun h => (by cases h), fun h => absurd h (hfew (by simp))⟩
    · rw [hsplit] at hhead
      obtain rfl : first = "v2".toList := Option.some.inj hhead
      have hdata : fromHex (toLatin1 (toLower text)) = fromHex text :=
        (fromHex_map harmless_toLatin1 _).trans (fromHex_map harmless_toLower text)
      simp only [hdata]
      constructor
      · intro h
        split_ifs at h with hvalid
        obtain rfl := Option.some.inj h
        have hsize := (isValid_iff _).mp hvalid
        refine ⟨type, text, _, rfl, hsize, ?_, rfl⟩
        have heven := digestDigits_even hsize
        rw [length_fromHex]
        omega
      · rintro ⟨type', text', n, heq, hsize, hdigits, rfl⟩
        obtain ⟨rfl, rfl⟩ : type = type' ∧ text = text' := by simpa using heq
        have hvalid : (⟨typeFromString type, fromHex text⟩ : Fingerprint).isValid = true := by
          have heven := digestDigits_even hsize
          refine (isValid_iff _).mpr (hsize.trans (congrArg some ?_))
          change n = 2 * (fromHex text).length
          rw [length_fromHex]
          omega
        rw [if_pos hvalid]
    · exact ⟨fun h => (by cases h), fun h => absurd h (hfew (by simp))⟩
  · have hleft : ¬ ∃ type text n, line.splitOn ':' = ["v2".toList, type, text] ∧
        digestDigits (typeFromString type) = some n ∧ (text.countP isHex = n ∨ text.countP isHex + 1 = n) ∧
        f = ⟨typeFromString type, fromHex text⟩ := by
      rintro ⟨type, text, n, hsplit, -⟩
      refine hprefix (splitOn_v2.mpr ⟨by rw [hsplit]; rfl, fun hzero => ?_⟩)
      rw [hsplit, hzero] at hcount
      cases hcount
    rw [or_iff_right hleft, hentry]
    by_cases hshape : qsize line = 59 ∧ line.count ':' = 19
    · obtain ⟨hsize, hcolons⟩ := hshape
      have hempty : line.isEmpty = false := by
        cases line with
        | nil => cases hsize
        | cons c line => rfl
      have hhead : (line.splitOn ':').head? ≠ some "v2".toList :=
        fun heq => hprefix (splitOn_v2.mpr ⟨heq, by rw [hcolons]; decide⟩)
      have hline : fromDbLine line = ⟨.sha1, fromHex (line.filter (· ≠ ':'))⟩ := by
        rw [fromDbLine, hempty, if_neg Bool.false_ne_true, if_neg hprefix, if_neg (by simp [hsize, hcolons])]
        exact congrArg (Fingerprint.mk _) (fromHex_map harmless_toLatin1 _)
      have hle : line.countP isHex ≤ 40 := by
        have hlength := qsize_ge line
        have hparts := List.length_eq_countP_add_countP (· ≠ ':') (l := line)
        have hfilter := List.countP_le_length (p := isHex) (l := line.filter (· ≠ ':'))
        rw [countP_filter_colon, ← List.countP_eq_length_filter] at hfilter
        have hcolon : line.countP (fun c => decide ¬ (decide (c ≠ ':')) = true) = line.count ':' := by
          rw [List.count]
          exact List.countP_congr fun c _ => by simp
        omega
      have hvalid : (⟨.sha1, fromHex (line.filter (· ≠ ':'))⟩ : Fingerprint).isValid = true ↔
          39 ≤ line.countP isHex := by
        change decide ((fromHex (line.filter (· ≠ ':'))).length = 20) = true ↔ _
        rw [decide_eq_true_eq, length_fromHex, countP_filter_colon]
        omega
      rw [hline]
      constructor
      · intro h
        split_ifs at h with hok
        exact ⟨hhead, hsize, hcolons, hvalid.mp hok, (Option.some.inj h).symm⟩
      · rintro ⟨-, -, -, hdigits, rfl⟩
        rw [if_pos (hvalid.mpr hdigits)]
    · have hline : fromDbLine line = ⟨.md4, []⟩ := by
        rw [fromDbLine]
        split_ifs with hempty hcond
        · rfl
        · rfl
        · exact absurd (by simpa using hcond) hshape
      rw [hline]
      exact ⟨fun h => (by cases h), fun h => absurd ⟨h.2.1, h.2.2.1⟩ hshape⟩

private theorem isHex_lt {c : Char} (h : isHex c = true) : c.toNat < 2 ^ 16 := by
  rw [isHex_iff] at h
  omega

/-- Twenty groups of two digits have the shape that the reader asks for. -/
private theorem groups_shape {line : Str} (hlength : (line.splitOn ':').length = 20)
    (hgroups : ∀ g ∈ line.splitOn ':', g.length = 2 ∧ ∀ c ∈ g, isHex c = true) :
    (line.splitOn ':').head? ≠ some "v2".toList ∧ qsize line = 59 ∧ line.count ':' = 19 ∧ line.countP isHex = 40 ∧
      fromHex (line.filter (· ≠ ':')) = digest (line.splitOn ':').flatten := by
  have hcount := length_splitOn ':' line
  have hflatten := flatten_splitOn ':' line
  have hdigits : ∀ c ∈ line.filter (· ≠ ':'), isHex c = true := by
    intro c hc
    rw [← hflatten] at hc
    obtain ⟨g, hg, hc⟩ := List.mem_flatten.mp hc
    exact (hgroups g hg).2 c hc
  have hforty : (line.filter (· ≠ ':')).length = 40 := by
    rw [← hflatten, List.length_flatten, List.map_congr_left fun g hg => (hgroups g hg).1, List.map_const',
      List.sum_replicate_nat, hlength]
  have hhex : line.countP isHex = 40 := by
    rw [← countP_filter_colon, List.countP_eq_length.mpr hdigits, hforty]
  have hsmall : ∀ c ∈ line, c.toNat < 2 ^ 16 := by
    intro c hc
    by_cases hcolon : c = ':'
    · rw [hcolon]
      decide
    · exact isHex_lt (hdigits c (List.mem_filter.mpr ⟨hc, by simpa using hcolon⟩))
  have hparts := List.length_eq_countP_add_countP (· ≠ ':') (l := line)
  have hcolons : line.countP (fun c => decide ¬ (decide (c ≠ ':')) = true) = line.count ':' := by
    rw [List.count]
    exact List.countP_congr fun c _ => by simp
  rw [List.countP_eq_length_filter, hforty, hcolons] at hparts
  have hsize : qsize line = line.length := by
    rw [qsize, List.map_congr_left fun c hc => if_pos (hsmall c hc), List.map_const', List.sum_replicate_nat,
      Nat.mul_one]
  refine ⟨fun hhead => ?_, by omega, by omega, hhex, ?_⟩
  · have hv := (hgroups _ (List.mem_of_head? hhead)).2 'v' (by decide)
    exact absurd hv (by decide)
  · rw [fromHex_eq_digest hdigits (by rw [hforty]), hflatten]

/-- A line that denotes a fingerprint is read as that. -/
theorem entry_of_denotes {line : Str} {f : Fingerprint} (h : Denotes line f) : entry line = some f := by
  rcases denotes_iff.mp h with ⟨type, digits, hsplit, hsize, hdigits, rfl⟩ | ⟨hlength, hgroups, rfl⟩
  · have hdata := fromHex_eq_digest hdigits (digestDigits_even hsize)
    exact entry_iff.mpr (Or.inl ⟨type, digits, _, hsplit, hsize, Or.inl (List.countP_eq_length.mpr hdigits),
      by rw [hdata]⟩)
  · obtain ⟨hhead, hsize, hcolons, hhex, hdata⟩ := groups_shape hlength hgroups
    exact entry_iff.mpr (Or.inr ⟨hhead, hsize, hcolons, by omega, by rw [hdata]⟩)

/-- A sloppy line is read, although it denotes nothing. -/
theorem sloppy_iff {line : Str} : Sloppy line ↔ (∃ f, entry line = some f) ∧ ∀ f, ¬ Denotes line f := by
  constructor
  · rintro (⟨type, text, n, hsplit, hsize, hcount, hnot⟩ | ⟨hhead, hsize, hcolons, hcount, hnot⟩)
    · refine ⟨⟨_, entry_iff.mpr (Or.inl ⟨type, text, n, hsplit, hsize, hcount, rfl⟩)⟩, fun f hdenotes => ?_⟩
      rcases denotes_iff.mp hdenotes with ⟨type', digits, hsplit', hsize', hdigits, -⟩ | ⟨hlength, -⟩
      · obtain ⟨rfl, rfl⟩ : type = type' ∧ text = digits := by simpa using hsplit.symm.trans hsplit'
        exact hnot ⟨Option.some.inj (hsize'.symm.trans hsize), hdigits⟩
      · rw [hsplit] at hlength
        cases hlength
    · refine ⟨⟨_, entry_iff.mpr (Or.inr ⟨hhead, hsize, hcolons, hcount, rfl⟩)⟩, fun f hdenotes => ?_⟩
      rcases denotes_iff.mp hdenotes with ⟨type, digits, hsplit, -⟩ | ⟨-, hgroups, -⟩
      · exact hhead (by rw [hsplit]; rfl)
      · exact hnot hgroups
  · rintro ⟨⟨f, hentry⟩, hnot⟩
    rcases entry_iff.mp hentry with ⟨type, text, n, hsplit, hsize, hcount, -⟩ | ⟨hhead, hsize, hcolons, hcount, -⟩
    · refine Or.inl ⟨type, text, n, hsplit, hsize, hcount, fun ⟨hlength, hdigits⟩ => ?_⟩
      exact hnot _ (denotes_iff.mpr (Or.inl ⟨type, text, hsplit, hlength ▸ hsize, hdigits, rfl⟩))
    · refine Or.inr ⟨hhead, hsize, hcolons, hcount, fun hgroups => ?_⟩
      exact hnot _ (denotes_iff.mpr (Or.inr ⟨by rw [length_splitOn, hcolons], hgroups, rfl⟩))

/-! ### The store -/

private theorem length_le_of_reads {lines : List Str} {fs : List Fingerprint} (h : LinesRead lines fs) :
    fs.length ≤ (lines.filterMap entry).length := by
  induction h with
  | nil => exact Nat.le_refl _
  | entry hline _ ih =>
    rw [List.filterMap_cons_some (entry_of_denotes hline)]
    exact Nat.succ_le_succ ih
  | @ignored line lines fs hline _ ih =>
    rw [List.filterMap_cons]
    cases entry line with
    | none => exact ih
    | some f => exact Nat.le_succ_of_le ih

private theorem reads_cons {line : Str} {lines : List Str} {fs : List Fingerprint} (h : LinesRead (line :: lines) fs) :
    (∃ f more, fs = f :: more ∧ Denotes line f ∧ LinesRead lines more) ∨ (∀ f, ¬ Denotes line f) ∧ LinesRead lines fs := by
  cases h with
  | entry hline hlines => exact Or.inl ⟨_, _, rfl, hline, hlines⟩
  | ignored hline hlines => exact Or.inr ⟨hline, hlines⟩

private theorem reads_iff (lines : List Str) :
    LinesRead lines (lines.filterMap entry) ↔ ∀ line ∈ lines, ¬ Sloppy line := by
  induction lines with
  | nil => exact ⟨fun _ => nofun, fun _ => .nil⟩
  | cons line lines ih =>
    rw [List.forall_mem_cons, ← ih]
    cases hentry : entry line with
    | none =>
      have hnot : ∀ f, ¬ Denotes line f := fun f h => by cases hentry.symm.trans (entry_of_denotes h)
      have hneat : ¬ Sloppy line := fun h => by
        obtain ⟨f, hf⟩ := (sloppy_iff.mp h).1
        cases hentry.symm.trans hf
      rw [List.filterMap_cons_none hentry]
      refine ⟨fun h => ⟨hneat, ?_⟩, fun h => .ignored hnot h.2⟩
      rcases reads_cons h with ⟨f, _, -, hline, -⟩ | ⟨-, hlines⟩
      · exact absurd hline (hnot f)
      · exact hlines
    | some f =>
      rw [List.filterMap_cons_some hentry]
      constructor
      · intro h
        rcases reads_cons h with ⟨g, more, heq, hline, hlines⟩ | ⟨-, hlines⟩
        · obtain ⟨rfl, rfl⟩ := List.cons.inj heq
          exact ⟨fun hsloppy => (sloppy_iff.mp hsloppy).2 _ hline, hlines⟩
        · exact absurd (length_le_of_reads hlines) (Nat.not_succ_le_self _)
      · rintro ⟨hneat, hlines⟩
        have hdenotes : ∃ g, Denotes line g := by
          by_contra hnone
          exact hneat (sloppy_iff.mpr ⟨⟨f, hentry⟩, fun g hg => hnone ⟨g, hg⟩⟩)
        obtain ⟨g, hg⟩ := hdenotes
        obtain rfl : f = g := Option.some.inj (hentry.symm.trans (entry_of_denotes hg))
        exact .entry hg hlines

private theorem isHex_digitChar {d : Nat} (h : d < 16) : isHex (Nat.digitChar d) = true :=
  isDigit_digitChar h (Nat.le_refl _)

private theorem toHex_spec (data : List UInt8) :
    (∀ c ∈ toHex data, isHex c = true) ∧ (toHex data).length = 2 * data.length ∧ digest (toHex data) = data := by
  induction data with
  | nil => exact ⟨nofun, rfl, rfl⟩
  | cons b data ih =>
    obtain ⟨hdigits, hlength, hdata⟩ := ih
    have hb := b.toNat_lt
    have hhi : b.toNat / 16 < 16 := by omega
    have hlo : b.toNat % 16 < 16 := by omega
    have hcons : toHex (b :: data) = Nat.digitChar (b.toNat / 16) :: Nat.digitChar (b.toNat % 16) :: toHex data := rfl
    rw [hcons]
    refine ⟨?_, ?_, ?_⟩
    · rw [List.forall_mem_cons, List.forall_mem_cons]
      exact ⟨isHex_digitChar hhi, isHex_digitChar hlo, hdigits⟩
    · rw [List.length_cons, List.length_cons, hlength, List.length_cons]
      omega
    · rw [digest, digitValue_digitChar hhi, digitValue_digitChar hlo, hdata, Nat.div_add_mod, UInt8.ofNat_toNat]

private theorem toLower_digits (data : List UInt8) : toLower (toHex data) = toHex data := by
  have hdigit : ∀ d < 16, (Nat.digitChar d).toLower = Nat.digitChar d := by decide
  have hall : ∀ c ∈ toHex data, c.toLower = c := by
    intro c hc
    obtain ⟨b, -, hc⟩ := List.mem_flatMap.mp hc
    have hb := b.toNat_lt
    rcases List.mem_cons.mp hc with rfl | hc
    · exact hdigit _ (by omega)
    · obtain rfl := List.mem_singleton.mp hc
      exact hdigit _ (by omega)
  exact (List.map_congr_left hall).trans (List.map_id _)

/-- What is written of a valid fingerprint denotes it. -/
theorem denotes_toDbLine {f : Fingerprint} (h : f.isValid = true) : Denotes f.toDbLine f := by
  obtain ⟨hdigits, hlength, hdata⟩ := toHex_spec f.data
  have hsize := (isValid_iff f).mp h
  have hname : toLower (typeToString f.type) = typeToString f.type := by
    cases htype : f.type with
    | sha1 => decide
    | sha256 => decide
    | md4 => decide
    | other value => exact (by decide : toLower "invalid".toList = "invalid".toList)
  have hdenotes := Denotes.digits (typeToString f.type) (toHex f.data) f.type hdigits (hlength ▸ hsize) hname
  rw [hdata] at hdenotes
  rwa [toDbLine, if_pos h, toLower_digits]

private theorem toDbLine_chars {f : Fingerprint} (h : f.isValid = true) :
    '\n' ∉ f.toDbLine ∧ f.toDbLine.getLast? ≠ some '\r' ∧ f.toDbLine ≠ [] := by
  obtain ⟨hdigits, -, -⟩ := toHex_spec f.data
  have hnot {c : Char} (hc : isHex c = false) : c ∉ toHex f.data := fun hmem => by
    cases hc.symm.trans (hdigits c hmem)
  have hname : ("v2:".toList ++ typeToString f.type ++ [':']).all (fun c => c ≠ '\n' && c ≠ '\r') = true := by
    cases htype : f.type with
    | sha1 => rfl
    | sha256 => rfl
    | md4 => rfl
    | other value => rfl
  have hline : f.toDbLine = ("v2:".toList ++ typeToString f.type ++ [':']) ++ toHex f.data := by
    rw [toDbLine, if_pos h, toLower_digits, List.append_assoc _ [':'], List.singleton_append]
  have hmem (c : Char) (hc : c = '\n' ∨ c = '\r') : c ∉ f.toDbLine := by
    rw [hline, List.mem_append]
    refine not_or.mpr ⟨fun hin => ?_, hnot (by rcases hc with rfl | rfl <;> decide)⟩
    have hother := List.all_eq_true.mp hname c hin
    rcases hc with rfl | rfl
    · exact absurd hother (by decide)
    · exact absurd hother (by decide)
  refine ⟨hmem '\n' (Or.inl rfl), fun hlast => ?_, ?_⟩
  · exact hmem '\r' (Or.inr rfl) (List.mem_of_getLast? hlast)
  · rw [hline]
    simp

private theorem splitOn_writeStream {fs : Fingerprints} (h : ∀ f ∈ fs, f.isValid = true) :
    (writeStream fs).splitOn '\n' = fs.map toDbLine ++ [[]] := by
  induction fs with
  | nil => rfl
  | cons f fs ih =>
    obtain ⟨hf, hfs⟩ := List.forall_mem_cons.mp h
    have hline : writeStream (f :: fs) = f.toDbLine ++ '\n' :: writeStream fs := by
      rw [writeStream, List.flatMap_cons, List.append_assoc, List.singleton_append, writeStream]
    rw [hline, List.splitOn_append_cons_self_of_not_mem (toDbLine_chars hf).1, ih hfs, List.map_cons, List.cons_append]

/-- The lines that are written are read again. -/
theorem streamLines_writeStream {fs : Fingerprints} (h : ∀ f ∈ fs, f.isValid = true) :
    streamLines (writeStream fs) = fs.map toDbLine := by
  rw [streamLines, splitOn_writeStream h, List.getLast?_concat, if_pos rfl, List.dropLast_concat,
    List.map_map]
  exact List.map_congr_left fun f hf => if_neg (toDbLine_chars (h f hf)).2.1

/-- The store reads what it wrote; and it reads what the lines of a text denote and nothing else exactly when none of
them is sloppy. -/
theorem readStream_writeStream_and_reads_iff (fs : Fingerprints) (text : Str) :
    ((∀ f ∈ fs, f.isValid = true) → readStream [] (writeStream fs) = fs ∧
      ∀ f, isTrusted (readStream [] (writeStream fs)) f = isTrusted fs f) ∧
    (LinesRead (streamLines text) (readStream [] text) ↔ ∀ line ∈ streamLines text, ¬ Sloppy line) := by
  constructor
  · intro h
    have hread : readStream [] (writeStream fs) = fs := by
      cases fs with
      | nil => rfl
      | cons f fs =>
        have hne : (writeStream (f :: fs)).isEmpty = false := by
          rw [writeStream, List.flatMap_cons, List.append_assoc]
          exact List.isEmpty_eq_false_iff.mpr (by simp)
        rw [readStream, hne, if_neg Bool.false_ne_true, List.nil_append, streamLines_writeStream h, List.filterMap_map]
        have hentry : ∀ g ∈ f :: fs, (entry ∘ toDbLine) g = some g :=
          fun g hg => entry_of_denotes (denotes_toDbLine (h g hg))
        rw [List.filterMap_congr hentry, List.filterMap_some]
    rw [hread]
    exact ⟨rfl, fun _ => rfl⟩
  · rw [readStream]
    split_ifs with hempty
    · have hlines : streamLines text = [] := by
        rw [List.isEmpty_iff.mp hempty]
        decide
      rw [hlines]
      exact ⟨fun _ => nofun, fun _ => .nil⟩
    · rw [List.nil_append]
      exact reads_iff _

set_option maxRecDepth 4096 in
/-- A line with two foreign characters in front of its digits is trusted. -/
theorem foreign_characters_trusted :
    let text := "v2:sha1:--000102030405060708090a0b0c0d0e0f10111213".toList
    readStream [] text = [⟨.sha1, (List.range 20).map UInt8.ofNat⟩] ∧ (∀ f, ¬ Denotes text f) ∧
      ¬ LinesRead (streamLines text) (readStream [] text) := by
  intro text
  have hlines : streamLines text = [text] := by decide
  have hsloppy : Sloppy text := by
    refine Or.inl ⟨"sha1".toList, "--000102030405060708090a0b0c0d0e0f10111213".toList, 40, by decide, by decide,
      Or.inl (by decide), ?_⟩
    exact fun h => absurd h.1 (by decide)
  have hread : readStream [] text = (streamLines text).filterMap entry := rfl
  refine ⟨by decide, (sloppy_iff.mp hsloppy).2, fun h => ?_⟩
  rw [hread] at h
  exact (reads_iff _).mp h text (by rw [hlines]; exact List.mem_singleton_self _) hsloppy

end Synergy
