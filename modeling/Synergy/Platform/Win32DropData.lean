import Mathlib.Data.List.TakeWhile
import Synergy.Clipboard.BitmapRoundTrip
import Synergy.Lib.Lines

/-! The list of files that Windows hands to the target of a drop: a header, and behind it paths that end with a NUL,
the list itself with one more. An access outside of the block is a failure. -/
namespace Synergy
open Synergy.Lib

/-- The code pages that text is converted with. -/
inductive CodePage
  | utf8
  | acp
  deriving DecidableEq

/-- The conversions of Windows, which are given a text and the number of its elements as an `int`; nothing comes of
one that fails. -/
structure WindowsText where
  multiByteToWideChar : CodePage → Bytes → Int → Option (List UInt16)
  wideCharToMultiByte : List UInt16 → Int → Option Bytes

namespace Win32DropData

/-- The header has an offset, a point and two flags. -/
def sizeofDropFiles : Nat := 20

def kMaxDropPaths : Nat := 4096

/-- `static_cast<int>`. -/
def toInt (n : Nat) : Int := Int.bmod n (2 ^ 32)

section
variable (w : WindowsText)

def wideToUtf8 (text : List UInt16) : Bytes :=
  if text.isEmpty then [] else (w.wideCharToMultiByte text (toInt text.length)).getD []

def toWide (codePage : CodePage) (text : Bytes) : List UInt16 :=
  if text.isEmpty then [] else (w.multiByteToWideChar codePage text (toInt text.length)).getD []

def ansiToUtf8 (text : Bytes) : Bytes := wideToUtf8 w (toWide w .acp text)

def utf8ToWide (text : Bytes) : List UInt16 := toWide w .utf8 text

/-- The walk over a list of paths whose units have a width, from the unit `i` on; `fuel` is the number of units that
are left. -/
def walk (width : Nat) (convert : List Nat → Bytes) (block : Bytes) (offset : Nat) :
    Nat → Nat → List Nat → List Bytes → Except Fault (List Bytes)
  | 0, _, _, paths => .ok paths
  | fuel + 1, i, current, paths =>
    if kMaxDropPaths ≤ paths.length then .ok paths
    else do
      let unit ← fromLE width block (offset + i * width)
      if unit = 0 then
        if current.isEmpty then return paths
        walk width convert block offset fuel (i + 1) [] (paths ++ [convert current])
      else walk width convert block offset fuel (i + 1) (current ++ [unit]) paths

def wideUnits (units : List Nat) : Bytes := wideToUtf8 w (units.map UInt16.ofNat)

def ansiUnits (units : List Nat) : Bytes := ansiToUtf8 w (units.map UInt8.ofNat)

def collectWide (block : Bytes) (offset listSize : Nat) : Except Fault (List Bytes) :=
  walk 2 (wideUnits w) block offset (listSize / 2) 0 [] []

def collectAnsi (block : Bytes) (offset listSize : Nat) : Except Fault (List Bytes) :=
  walk 1 (ansiUnits w) block offset listSize 0 [] []

/-- Without data there is no block. -/
def readDropFilePaths (data : Option Bytes) : Except Fault (List Bytes) :=
  match data with
  | none => .ok []
  | some block =>
    if block.length < sizeofDropFiles then .ok []
    else do
      let pFiles ← fromLE 4 block 0
      let fWide ← fromLE 4 block 16
      if pFiles < sizeofDropFiles ∨ block.length ≤ pFiles then return []
      if fWide ≠ 0 then collectWide w block pFiles (block.length - pFiles)
      else collectAnsi w block pFiles (block.length - pFiles)

/-- The paths as they are written; nothing comes of one that is not converted. -/
def wideList : List Bytes → Option (List UInt16)
  | [] => some []
  | path :: paths =>
    let wide := utf8ToWide w path
    if wide.isEmpty && !path.isEmpty then none else (wideList paths).map fun list => wide ++ 0 :: list

def listBytes (list : List UInt16) : Bytes := list.flatMap fun unit => littleEndian 2 unit.toNat

def buildDropFileBlock (utf8Paths : List Bytes) : Bytes :=
  if utf8Paths.isEmpty || kMaxDropPaths < utf8Paths.length then []
  else
    match wideList w utf8Paths with
    | none => []
    | some list =>
      littleEndian 4 sizeofDropFiles ++ littleEndian 8 0 ++ littleEndian 4 0 ++ littleEndian 4 1 ++ listBytes
          (list ++ [0])

end

/-! ### The entries of a list -/

/-- The units of a width that some bytes hold; what is left over is not one. -/
def units (width : Nat) (bytes : Bytes) : List Nat :=
  (List.range (bytes.length / width)).map fun i => ofLittleEndian ((bytes.drop (i * width)).take width)

/-- The entries that are terminated, up to the first empty one. -/
def entries (units : List Nat) : List (List Nat) := (lines 0 units).1.takeWhile (· ≠ [])

/-- What the walk makes of the units that are left. -/
def gathered (convert : List Nat → Bytes) (current : List Nat) (paths : List Bytes) (left : List Nat) : List Bytes :=
  paths ++ ((entries (current ++ left)).take (kMaxDropPaths - paths.length)).map convert

section
variable {width : Nat} {convert : List Nat → Bytes} {block : Bytes} {offset i unit : Nat} {current left : List Nat}
  {paths : List Bytes}

theorem gathered_full (h : kMaxDropPaths ≤ paths.length) : gathered convert current paths left = paths := by
  rw [gathered, Nat.sub_eq_zero_of_le h, List.take_zero, List.map_nil, List.append_nil]

theorem gathered_nil (h : 0 ∉ current) : gathered convert current paths [] = paths := by
  rw [gathered, List.append_nil, entries, lines_of_not_mem h, List.takeWhile_nil, List.take_nil, List.map_nil,
    List.append_nil]

theorem gathered_end (h : current = []) : gathered convert current paths (0 :: left) = paths := by
  have hline : lines 0 (0 :: left) = ([] :: (lines 0 left).1, (lines 0 left).2) := if_pos rfl
  rw [gathered, h, List.nil_append, entries, hline, List.takeWhile_cons_of_neg (by simp), List.take_nil, List.map_nil,
    List.append_nil]

theorem gathered_path (h : 0 ∉ current) (hsome : current ≠ []) (hroom : paths.length < kMaxDropPaths) :
    gathered convert current paths (0 :: left) = gathered convert [] (paths ++ [convert current]) left := by
  obtain ⟨room, hroom'⟩ : ∃ room, kMaxDropPaths - paths.length = room + 1 := ⟨_, (Nat.succ_pred (by omega)).symm⟩
  have hrest : kMaxDropPaths - (paths ++ [convert current]).length = room := by
    rw [List.length_append, List.length_singleton]
    omega
  rw [gathered, gathered, entries, entries, lines_line h, List.takeWhile_cons_of_pos (by simpa using hsome), hroom',
    hrest, List.take_succ_cons, List.map_cons, List.nil_append, List.append_assoc, List.singleton_append]

theorem gathered_unit : gathered convert current paths (unit :: left) =
    gathered convert (current ++ [unit]) paths left := by
  rw [gathered, gathered, List.append_assoc, List.singleton_append]

theorem length_units (width : Nat) (bytes : Bytes) : (units width bytes).length = bytes.length / width := by
  rw [units, List.length_map, List.length_range]

/-- A unit that is inside of the block is read. -/
theorem fromLE_unit (hwidth : 0 < width) (hi : i < (block.length - offset) / width) :
    ∃ unit, fromLE width block (offset + i * width) = .ok unit ∧
      (units width (block.drop offset)).drop i = unit :: (units width (block.drop offset)).drop (i + 1) := by
  have hinside : offset + i * width + width ≤ block.length := by
    have hmul : (i + 1) * width ≤ block.length - offset := (Nat.le_div_iff_mul_le hwidth).mp hi
    rw [Nat.succ_mul] at hmul
    omega
  have hcount : i < (units width (block.drop offset)).length := by
    rwa [length_units, List.length_drop]
  refine ⟨_, if_pos hinside, ?_⟩
  rw [List.drop_eq_getElem_cons hcount]
  congr 1
  rw [← List.drop_drop]
  simp only [units, List.getElem_map, List.getElem_range]

theorem walk_gathered (hwidth : 0 < width) {fuel : Nat} (hfuel : fuel + i = (block.length - offset) / width)
    (hcurrent : 0 ∉ current) : walk width convert block offset fuel i current paths =
      .ok (gathered convert current paths ((units width (block.drop offset)).drop i)) := by
  induction fuel generalizing i current paths with
  | zero =>
    have hall : (units width (block.drop offset)).length ≤ i := by
      rw [length_units, List.length_drop]
      omega
    rw [walk, List.drop_eq_nil_iff.mpr hall, gathered_nil hcurrent]
  | succ fuel ih =>
    obtain ⟨unit, hread, hleft⟩ := fromLE_unit hwidth (by omega : i < (block.length - offset) / width)
    rw [walk]
    split
    next hfull => rw [gathered_full hfull]
    next hroom =>
      simp only [hread, bind, Except.bind]
      rw [hleft]
      by_cases hzero : unit = 0
      · subst hzero
        rw [if_pos rfl]
        by_cases hnone : current = []
        · rw [if_pos (List.isEmpty_iff.mpr hnone), gathered_end hnone]
          rfl
        · rw [if_neg (mt List.isEmpty_iff.mp hnone), gathered_path hcurrent hnone (Nat.lt_of_not_le hroom)]
          exact ih (by omega) List.not_mem_nil
      · rw [if_neg hzero, gathered_unit]
        refine ih (by omega) fun hmem => ?_
        rcases List.mem_append.mp hmem with hmem | hmem
        · exact hcurrent hmem
        · exact hzero (List.mem_singleton.mp hmem).symm

end

/-! ### What is read -/

section
variable {w : WindowsText}

theorem length_gathered (convert : List Nat → Bytes) (left : List Nat) :
    (gathered convert [] [] left).length ≤ kMaxDropPaths := by
  rw [gathered, List.nil_append, List.length_map]
  exact List.length_take_le _ _

theorem gathered_isStart (convert : List Nat → Bytes) (left : List Nat) :
    gathered convert [] [] left <+: (entries left).map convert := by
  rw [gathered, List.nil_append, List.nil_append]
  exact (List.take_prefix _ _).map convert

theorem collectWide_eq (block : Bytes) (offset : Nat) : collectWide w block offset (block.length - offset) =
    .ok (gathered (wideUnits w) [] [] (units 2 (block.drop offset))) :=
  walk_gathered (by decide) (by omega) List.not_mem_nil

theorem collectAnsi_eq (block : Bytes) (offset : Nat) : collectAnsi w block offset (block.length - offset) =
    .ok (gathered (ansiUnits w) [] [] (units 1 (block.drop offset))) :=
  walk_gathered (by decide) (by omega) List.not_mem_nil

/-- What is read of a block are paths that end in it, in front of its first empty entry, and not too many. -/
def Contained (w : WindowsText) (block : Bytes) : Prop := ∃ paths, readDropFilePaths w (some block) = .ok paths ∧
  paths.length ≤ kMaxDropPaths ∧ ∃ offset ≤ block.length,
    paths <+: (entries (units 2 (block.drop offset))).map (wideUnits w) ∨
      paths <+: (entries (units 1 (block.drop offset))).map (ansiUnits w)

theorem contained (w : WindowsText) (block : Bytes) : Contained w block := by
  have hempty : ∀ read, read = .ok [] → readDropFilePaths w (some block) = read → Contained w block := by
    rintro _ rfl hread
    exact ⟨[], hread, Nat.zero_le _, 0, Nat.zero_le _, .inl List.nil_prefix⟩
  by_cases hshort : block.length < sizeofDropFiles
  · exact hempty _ rfl (if_pos hshort)
  · unfold sizeofDropFiles at hshort
    obtain ⟨pFiles, hpFiles, -⟩ := @fromLE_ok 4 0 block (by omega)
    obtain ⟨fWide, hfWide, -⟩ := @fromLE_ok 4 16 block (by omega)
    have hread : readDropFilePaths w (some block) =
        if pFiles < sizeofDropFiles ∨ block.length ≤ pFiles then .ok []
        else if fWide ≠ 0 then collectWide w block pFiles (block.length - pFiles)
        else collectAnsi w block pFiles (block.length - pFiles) := by
      unfold readDropFilePaths
      simp only [hpFiles, hfWide, bind, Except.bind]
      exact if_neg hshort
    split_ifs at hread with hreject hwide
    · exact hempty _ rfl hread
    · rw [collectWide_eq] at hread
      exact ⟨_, hread, length_gathered _ _, pFiles, by omega, .inl (gathered_isStart _ _)⟩
    · rw [collectAnsi_eq] at hread
      exact ⟨_, hread, length_gathered _ _, pFiles, by omega, .inr (gathered_isStart _ _)⟩

/-! ### What is written -/

/-- Valid UTF-8 is the encoding of some characters. -/
def ValidUtf8 (text : Bytes) : Prop := ∃ chars : List Char, text = chars.flatMap String.utf8EncodeChar

/-- What the documentation of Windows says of the conversions of valid text: they are inverse to each other, no unit is
zero that is not a character of its own, and UTF-16 has no more units than UTF-8 has bytes. -/
def WideOf (w : WindowsText) (text : Bytes) (wide : List UInt16) : Prop :=
  w.multiByteToWideChar .utf8 text text.length = some wide ∧ w.wideCharToMultiByte wide wide.length = some text ∧
    wide ≠ [] ∧ wide.length ≤ text.length ∧ (0 ∈ wide → 0 ∈ text)

def Conforms (w : WindowsText) : Prop :=
  ∀ text, ValidUtf8 text → text ≠ [] → text.length < 2 ^ 31 → ∃ wide, WideOf w text wide

/-- A path without a NUL in it. -/
structure DropPath where
  text : Bytes
  valid : ValidUtf8 text
  nulFree : 0 ∉ text

theorem toInt_small {n : Nat} (h : n < 2 ^ 31) : toInt n = n := by
  unfold toInt
  rw [Int.bmod_def]
  omega

/-- A path in the list: its units come back as the path, none is zero, and only an empty path has none. -/
theorem wide_path (hw : Conforms w) (p : DropPath) (hsmall : p.text.length < 2 ^ 31) :
    wideToUtf8 w (utf8ToWide w p.text) = p.text ∧ 0 ∉ utf8ToWide w p.text ∧
      (utf8ToWide w p.text = [] ↔ p.text = []) := by
  by_cases hempty : p.text = []
  · have hwide : utf8ToWide w p.text = [] := by rw [hempty]; rfl
    rw [hwide, hempty]
    exact ⟨rfl, List.not_mem_nil, iff_of_true rfl rfl⟩
  · obtain ⟨wide, hto, hfrom, hsome, hle, hzero⟩ := hw p.text p.valid hempty hsmall
    have hwide : utf8ToWide w p.text = wide := by
      rw [utf8ToWide, toWide, if_neg (mt List.isEmpty_iff.mp hempty), toInt_small hsmall, hto, Option.getD_some]
    rw [hwide, wideToUtf8, if_neg (mt List.isEmpty_iff.mp hsome), toInt_small (hle.trans_lt hsmall), hfrom]
    exact ⟨rfl, fun hmem => p.nulFree (hzero hmem), iff_of_false hsome hempty⟩

/-- The units of paths that are terminated. -/
def terminated (w : WindowsText) (paths : List DropPath) : List UInt16 :=
  paths.flatMap fun p => utf8ToWide w p.text ++ [0]

theorem wideList_eq (hw : Conforms w) {paths : List DropPath} (hsmall : ∀ p ∈ paths, p.text.length < 2 ^ 31) :
    wideList w (paths.map DropPath.text) =
      some (terminated w paths) := by
  induction paths with
  | nil => rfl
  | cons p paths ih =>
    obtain ⟨-, -, hiff⟩ := wide_path hw p (hsmall p List.mem_cons_self)
    have hconverted : ((utf8ToWide w p.text).isEmpty && !p.text.isEmpty) = false := by
      by_cases hempty : p.text = []
      · rw [hempty]
        exact Bool.and_false _
      · rw [List.isEmpty_eq_false_iff.mpr (mt hiff.mp hempty)]
        rfl
    rw [List.map_cons, wideList, ih fun q hq => hsmall q (List.mem_cons_of_mem p hq)]
    simp only [hconverted, Bool.false_eq_true, if_false, Option.map_some, terminated, List.flatMap_cons,
      List.append_assoc, List.singleton_append]

theorem units_listBytes (list : List UInt16) : units 2 (listBytes list) = list.map UInt16.toNat := by
  have hlength (list : List UInt16) : (listBytes list).length = 2 * list.length := by
    induction list with
    | nil => rfl
    | cons u list ih =>
      rw [listBytes, List.flatMap_cons, List.length_append, length_littleEndian, List.length_cons, Nat.mul_succ,
        Nat.add_comm]
      exact congrArg (· + 2) ih
  unfold units
  rw [hlength, Nat.mul_div_cancel_left _ (by decide)]
  induction list with
  | nil => rfl
  | cons u list ih =>
    have hfirst : ((listBytes (u :: list)).drop (0 * 2)).take 2 = littleEndian 2 u.toNat := by
      rw [Nat.zero_mul, List.drop_zero, listBytes, List.flatMap_cons, List.take_left' (length_littleEndian _ _)]
    have hmore (i : Nat) : (listBytes (u :: list)).drop ((i + 1) * 2) = (listBytes list).drop (i * 2) := by
      rw [listBytes, List.flatMap_cons, Nat.succ_mul, Nat.add_comm, ← List.drop_drop,
        List.drop_left' (length_littleEndian _ _)]
      rfl
    rw [List.length_cons, List.range_succ_eq_map, List.map_cons, List.map_map, hfirst, ofLittleEndian_littleEndian,
      Nat.mod_eq_of_lt (show u.toNat < 256 ^ 2 from u.toNat_lt), List.map_cons, ← ih]
    refine congrArg _ (List.map_congr_left fun i _ => ?_)
    rw [Function.comp_apply, hmore]

/-- The entries of a list that has been written are the paths in front of the first empty one. -/
theorem entries_written (hw : Conforms w) {paths : List DropPath} (hsmall : ∀ p ∈ paths, p.text.length < 2 ^ 31) :
    entries ((terminated w paths ++ [0]).map UInt16.toNat) =
      (paths.takeWhile (·.text ≠ [])).map fun p => (utf8ToWide w p.text).map UInt16.toNat := by
  have hend (rest : List Nat) : entries (0 :: rest) = [] := by
    have hline : lines 0 (0 :: rest) = ([] :: (lines 0 rest).1, (lines 0 rest).2) := if_pos rfl
    rw [entries, hline, List.takeWhile_cons_of_neg (by simp)]
  induction paths with
  | nil => exact hend []
  | cons p paths ih =>
    obtain ⟨-, hzero, hiff⟩ := wide_path hw p (hsmall p List.mem_cons_self)
    have hzero' : 0 ∉ (utf8ToWide w p.text).map UInt16.toNat := by
      intro hmem
      obtain ⟨u, hu, hzero'⟩ := List.mem_map.mp hmem
      have heq : u = 0 := UInt16.toNat_inj.mp (show u.toNat = (0 : UInt16).toNat from hzero')
      exact hzero (heq ▸ hu)
    rw [terminated, List.flatMap_cons, ← terminated, List.append_assoc, List.append_assoc, List.singleton_append,
      List.map_append, List.map_cons]
    by_cases hempty : p.text = []
    · rw [hiff.mpr hempty, List.takeWhile_cons_of_neg (by simpa using hempty)]
      exact hend _
    · have hsome : (utf8ToWide w p.text).map UInt16.toNat ≠ [] := mt List.map_eq_nil_iff.mp (mt hiff.mp hempty)
      have hline : lines 0 ((utf8ToWide w p.text).map UInt16.toNat ++ 0 :: (terminated w paths ++ [0]).map UInt16.toNat) =
          ((utf8ToWide w p.text).map UInt16.toNat :: (lines 0 ((terminated w paths ++ [0]).map UInt16.toNat)).1,
            (lines 0 ((terminated w paths ++ [0]).map UInt16.toNat)).2) := lines_line hzero'
      rw [List.takeWhile_cons_of_pos (by simpa using hempty), List.map_cons,
        ← ih fun q hq => hsmall q (List.mem_cons_of_mem p hq)]
      unfold entries
      change ((lines 0 (_ ++ 0 :: _)).1).takeWhile _ = _
      rw [hline, List.takeWhile_cons_of_pos (by simpa using hsome)]

/-- What has been written is read up to the first empty path. -/
theorem read_build (hw : Conforms w) {paths : List DropPath} (hsmall : ∀ p ∈ paths, p.text.length < 2 ^ 31)
    (hsome : paths ≠ []) (hmany : paths.length ≤ kMaxDropPaths) :
    readDropFilePaths w (some (buildDropFileBlock w (paths.map DropPath.text))) =
      .ok ((paths.map DropPath.text).takeWhile (· ≠ [])) := by
  have hbuild : buildDropFileBlock w (paths.map DropPath.text) = littleEndian 4 sizeofDropFiles ++
      (littleEndian 8 0 ++ littleEndian 4 0 ++ (littleEndian 4 1 ++
        listBytes (terminated w paths ++ [0]))) := by
    unfold buildDropFileBlock
    rw [wideList_eq hw hsmall, if_neg (by simpa [hsome] using hmany)]
    simp only [List.append_assoc]
  generalize hlist : listBytes (terminated w paths ++ [0]) = list at hbuild
  have hpos : 0 < list.length := by
    rw [← hlist, listBytes, List.flatMap_append, List.length_append]
    exact Nat.add_pos_right _ (by decide)
  have hlength : (buildDropFileBlock w (paths.map DropPath.text)).length = sizeofDropFiles + list.length := by
    simp only [hbuild, List.length_append, length_littleEndian, sizeofDropFiles]
    omega
  have hpFiles : fromLE 4 (buildDropFileBlock w (paths.map DropPath.text)) 0 = .ok sizeofDropFiles := by
    rw [hbuild, ← List.nil_append (littleEndian 4 _ ++ _), fromLE_append 4 _ [] _ List.length_nil]
    rfl
  have hfWide : fromLE 4 (buildDropFileBlock w (paths.map DropPath.text)) 16 = .ok 1 := by
    rw [hbuild, ← List.append_assoc, fromLE_append 4 _ _ _ (by simp)]
    rfl
  have hdrop : (buildDropFileBlock w (paths.map DropPath.text)).drop sizeofDropFiles = list := by
    rw [hbuild, ← List.append_assoc, ← List.append_assoc, List.drop_left' (by simp [sizeofDropFiles])]
  have hread : readDropFilePaths w (some (buildDropFileBlock w (paths.map DropPath.text))) =
      .ok (gathered (wideUnits w) [] [] (units 2 list)) := by
    unfold readDropFilePaths
    simp only [hpFiles, hfWide, bind, Except.bind]
    rw [if_neg (by omega), if_neg (by omega), if_pos (by decide), collectWide_eq, hdrop]
  have hconvert (p : DropPath) (hp : p ∈ paths.takeWhile (·.text ≠ [])) :
      wideUnits w ((utf8ToWide w p.text).map UInt16.toNat) = p.text := by
    have hinverse := (wide_path hw p (hsmall p ((List.takeWhile_sublist _).subset hp))).1
    rw [wideUnits, List.map_map]
    refine Eq.trans (congrArg _ ((List.map_congr_left fun u _ => ?_).trans (List.map_id _))) hinverse
    exact UInt16.ofNat_toNat
  have hfew : ((paths.takeWhile (·.text ≠ [])).map fun p => (utf8ToWide w p.text).map UInt16.toNat).length ≤
      kMaxDropPaths - ([] : List Bytes).length := by
    rw [List.length_map, List.length_nil, Nat.sub_zero]
    exact (List.takeWhile_sublist _).length_le.trans hmany
  rw [hread, ← hlist, units_listBytes, gathered, List.nil_append, List.nil_append, entries_written hw hsmall,
    List.take_of_length_le hfew, List.map_map, List.takeWhile_map]
  exact congrArg _ (List.map_congr_left hconvert)

end

/-- Of a list with an empty path no path behind that is lost, unless there is no block of it at all. -/
def KeepsPathsBehind (w : WindowsText) (texts : List Bytes) : Prop := ∀ before behind,
  texts = before ++ [] :: behind → [] ∉ before → buildDropFileBlock w texts ≠ [] →
    ∃ front, readDropFilePaths w (some (buildDropFileBlock w texts)) = .ok (front ++ behind) ∧
      before.length ≤ front.length

/-- When the list is not too long, nothing is behind its first empty path. -/
def EmptyPathLast (texts : List Bytes) : Prop := texts.length ≤ kMaxDropPaths →
  ∀ before behind, texts = before ++ [] :: behind → [] ∉ before → behind = []

private theorem takeWhile_before {before behind : List Bytes} (hbefore : [] ∉ before) :
    (before ++ [] :: behind).takeWhile (· ≠ []) = before := by
  have hall : ∀ text ∈ before, decide (text ≠ []) = true := by
    intro text htext
    refine decide_eq_true ?_
    rintro rfl
    exact hbefore htext
  rw [List.takeWhile_append_of_pos hall, List.takeWhile_cons_of_neg (by simp), List.append_nil]

theorem keepsPathsBehind_iff {w : WindowsText} (hw : Conforms w) {paths : List DropPath}
    (hsmall : ∀ p ∈ paths, p.text.length < 2 ^ 31) :
    KeepsPathsBehind w (paths.map DropPath.text) ↔ EmptyPathLast (paths.map DropPath.text) := by
  have hread {before behind : List Bytes} (hsplit : paths.map DropPath.text = before ++ [] :: behind)
      (hbefore : [] ∉ before) (hmany : paths.length ≤ kMaxDropPaths) :
      readDropFilePaths w (some (buildDropFileBlock w (paths.map DropPath.text))) = .ok before := by
    have hsome : paths ≠ [] := by
      rintro rfl
      exact absurd hsplit.symm (List.append_ne_nil_of_right_ne_nil _ (List.cons_ne_nil _ _))
    rw [read_build hw hsmall hsome hmany, hsplit, takeWhile_before hbefore]
  constructor
  · intro hkeeps hmany before behind hsplit hbefore
    rw [List.length_map] at hmany
    have hwritten := hread hsplit hbefore hmany
    have hblock : buildDropFileBlock w (paths.map DropPath.text) ≠ [] := by
      intro hnone
      unfold buildDropFileBlock at hnone
      rw [wideList_eq hw hsmall, if_neg] at hnone
      · have hlength := congrArg List.length hnone
        simp only [List.length_append, length_littleEndian, List.length_nil] at hlength
        omega
      · rw [hsplit]
        rw [← List.length_map (f := DropPath.text), hsplit] at hmany
        simpa using hmany
    obtain ⟨front, hfront, hlength⟩ := hkeeps before behind hsplit hbefore hblock
    have hsame : before = front ++ behind := Except.ok.inj (hwritten.symm.trans hfront)
    have hsum := congrArg List.length hsame
    rw [List.length_append] at hsum
    exact List.eq_nil_of_length_eq_zero (by omega)
  · intro hlast before behind hsplit hbefore hblock
    have hmany : paths.length ≤ kMaxDropPaths := by
      by_contra hlong
      refine hblock (if_pos ?_)
      rw [List.length_map, Bool.or_eq_true]
      exact .inr (decide_eq_true (by omega))
    obtain rfl := hlast (by rwa [List.length_map]) before behind hsplit hbefore
    exact ⟨before, by rw [List.append_nil]; exact hread hsplit hbefore hmany, le_rfl⟩

/-- Lists of paths come back as they were, one with an empty path keeps the paths behind that only when there are none,
and what is read of any block is in it. -/
theorem drop_file_blocks {w : WindowsText} (hw : Conforms w) :
    (∀ paths : List DropPath, paths ≠ [] → paths.length ≤ kMaxDropPaths → (∀ p ∈ paths, p.text ≠ []) →
        (∀ p ∈ paths, p.text.length < 2 ^ 31) →
        readDropFilePaths w (some (buildDropFileBlock w (paths.map DropPath.text))) = .ok (paths.map DropPath.text)) ∧
      (∀ paths : List DropPath, (∀ p ∈ paths, p.text.length < 2 ^ 31) →
        (KeepsPathsBehind w (paths.map DropPath.text) ↔ EmptyPathLast (paths.map DropPath.text))) ∧
      ∀ block, Contained w block := by
  refine ⟨fun paths hsome hmany hpaths hsmall => ?_, fun paths => keepsPathsBehind_iff hw, contained w⟩
  rw [read_build hw hsmall hsome hmany, List.takeWhile_eq_self_iff.mpr]
  intro text htext
  obtain ⟨p, hp, rfl⟩ := List.mem_map.mp htext
  exact decide_eq_true (hpaths p hp)

/-- Conversions between bytes and units of the same numbers, which ASCII text has. -/
def asciiText : WindowsText where
  multiByteToWideChar _ text _ := some (text.map UInt8.toUInt16)
  wideCharToMultiByte wide _ := some (wide.map UInt16.toUInt8)

private theorem conforms_asciiText : Conforms asciiText := by
  intro text _ hsome _
  refine ⟨text.map UInt8.toUInt16, rfl, ?_, mt List.map_eq_nil_iff.mp hsome, by rw [List.length_map], ?_⟩
  · refine congrArg some ?_
    rw [List.map_map]
    refine (List.map_congr_left fun b _ => ?_).trans (List.map_id _)
    simp
  · intro hmem
    obtain ⟨b, hb, hzero⟩ := List.mem_map.mp hmem
    have hzero' : b = 0 := UInt8.toNat_inj.mp (by simpa using congrArg UInt16.toNat hzero)
    exact hzero' ▸ hb

theorem drop_file_blocks_ascii :
    readDropFilePaths asciiText (some (buildDropFileBlock asciiText [[97], [98]])) = .ok [[97], [98]] :=
  (drop_file_blocks conforms_asciiText).1 [⟨[97], ⟨['a'], by decide⟩, by decide⟩, ⟨[98], ⟨['b'], by decide⟩, by decide⟩]
    (List.cons_ne_nil _ _) (by decide) (by decide) (by decide)

/-- Of a path, an empty one and another path, the last one is lost. -/
theorem drop_file_behind_empty : ¬ ∀ w, Conforms w → ∀ paths : List DropPath, (∀ p ∈ paths, p.text.length < 2 ^ 31) →
    KeepsPathsBehind w (paths.map DropPath.text) := by
  intro h
  have hkeeps := h asciiText conforms_asciiText [⟨[97], ⟨['a'], by decide⟩, by decide⟩, ⟨[], ⟨[], rfl⟩, by decide⟩,
    ⟨[98], ⟨['b'], by decide⟩, by decide⟩] (by decide)
  obtain ⟨front, hread, hlength⟩ := hkeeps [[97]] [[98]] rfl (by decide) (by decide)
  have hlost : readDropFilePaths asciiText (some (buildDropFileBlock asciiText [[97], [], [98]])) = .ok [[97]] := by
    decide +kernel
  have hsame : front ++ [[98]] = [[97]] := Except.ok.inj (hread.symm.trans hlost)
  have hsum := congrArg List.length hsame
  rw [List.length_append] at hsum
  simp only [List.length_cons, List.length_nil] at hlength hsum
  omega

end Win32DropData
end Synergy
