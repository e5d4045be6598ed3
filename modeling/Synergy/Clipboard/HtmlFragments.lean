import Synergy.Clipboard.BitmapRoundTrip
import Synergy.Clipboard.ClipboardChunk
import Synergy.Lib.StringSearch

/-! The HTML format of the Windows clipboard: a header that gives the offsets of a fragment in decimal, and the text
with the fragment. -/
namespace Synergy
open Synergy.Lib

/-- `sprintf("%010u", n)`. -/
def tenDigits (n : Nat) : Bytes := ((Nat.toDigits 10 (n % 2 ^ 32)).leftpad 10 '0').map byte

def decimalByte (b : UInt8) : Bool := 48 ≤ b && b ≤ 57

/-- The number that decimal digits stand for. -/
def decimalValue (digits : Bytes) : Nat := numeral 10 (digits.map fun b => Char.ofNat b.toNat)

/-- `atoi` of Windows, which gives the closest number to one that is out of range. -/
def atoi (s : Bytes) : Int := max (-2 ^ 31) (min (2 ^ 31 - 1) (strtol (s.map fun b => Char.ofNat b.toNat)).1)

/-- A byte of a string that is looked at. -/
def byteAt (s : Bytes) (i : Nat) : Except Fault UInt8 :=
  match s[i]? with
  | some b => .ok b
  | none => .error .outside

namespace MSWindowsClipboardHTMLConverter

def prefixPattern : Bytes :=
  ascii ("Version:0.9\r\nStartHTML:0000000105\r\nEndHTML:ZZZZZZZZZZ\r\n" ++
    "StartFragment:XXXXXXXXXX\r\nEndFragment:YYYYYYYYYY\r\n<!DOCTYPE><HTML><BODY><!--StartFragment-->")

def suffix : Bytes := ascii "<!--EndFragment--></BODY></HTML>\r\n"

/-- `prefix.replace(prefix.find(pattern), 10, …)`. -/
def patch (pattern : String) (n : Nat) (s : Bytes) : Except Fault Bytes :=
  match replaceFirst (ascii pattern) (tenDigits n) s with
  | some s => .ok s
  | none => .error .outOfRange

def doFromIClipboard (data : Bytes) : Except Fault Bytes := do
  let startFragment := prefixPattern.length % 2 ^ 32
  let endFragment := (startFragment + data.length % 2 ^ 32) % 2 ^ 32
  let endHTML := (endFragment + suffix.length % 2 ^ 32) % 2 ^ 32
  let s ← patch "XXXXXXXXXX" startFragment prefixPattern
  let s ← patch "YYYYYYYYYY" endFragment s
  let s ← patch "ZZZZZZZZZZ" endHTML s
  return s ++ data ++ suffix

def endOfLine (b : UInt8) : Bool := b == byte '\r' || b == byte '\n'

def findArg (data name : Bytes) : Except Fault Bytes :=
  match find name data with
  | none => .ok []
  | some i =>
    match findFirst (fun b => b == byte ':' || endOfLine b) data i with
    | none => .ok []
    | some i => do
      if (← byteAt data i) ≠ byte ':' then return []
      match findFirst (fun b => decimalByte b || endOfLine b) data (i + 1) with
      | none => return []
      | some i =>
        if endOfLine (← byteAt data i) then return []
        let j := (findFirst (fun b => !decimalByte b) data i).getD data.length
        substr data i (j - i)

def doToIClipboard (data : Bytes) : Except Fault Bytes := do
  let startArg ← findArg data (ascii "StartFragment")
  let endArg ← findArg data (ascii "EndFragment")
  if startArg.isEmpty || endArg.isEmpty then return []
  let start := atoi startArg
  let finish := atoi endArg
  if start ≤ 0 ∨ finish ≤ 0 ∨ finish ≤ start then return []
  substr data start.toNat (finish - start).toNat

end MSWindowsClipboardHTMLConverter

/-- The first `name` of a text is followed on its line by a colon and by these decimal digits, as many as there are. -/
def Keyed (h name digits : Bytes) : Prop := ∃ before line gap rest,
  h = before ++ (line ++ byte ':' :: (gap ++ (digits ++ rest))) ∧ name <+: h.drop before.length ∧
    (∀ k < before.length, ¬ name <+: h.drop k) ∧ byte ':' ∉ line ∧
    (∀ b ∈ line ++ gap, MSWindowsClipboardHTMLConverter.endOfLine b = false) ∧ (∀ b ∈ gap, decimalByte b = false) ∧
    digits ≠ [] ∧ (∀ b ∈ digits, decimalByte b = true) ∧ ∀ b ∈ rest.head?, decimalByte b = false

/-- The bytes of a text from one position to another. -/
def between (h : Bytes) (start finish : Nat) : Bytes := (h.drop start).take (finish - start)

namespace MSWindowsClipboardHTMLConverter
variable {h name digits rest : Bytes} {i : Nat} {b : UInt8}

theorem byteAt_of_drop (hdrop : h.drop i = b :: rest) : byteAt h i = .ok b := by
  have hhead : h[i]? = some b := by rw [← List.head?_drop, hdrop, List.head?_cons]
  rw [byteAt, hhead]

/-- The digits at a position are cut out. -/
theorem substr_digits (hdrop : h.drop i = digits ++ rest) (hdigits : ∀ b ∈ digits, decimalByte b = true)
    (hrest : ∀ b ∈ rest.head?, decimalByte b = false) (hne : digits ≠ []) :
    substr h i ((findFirst (fun b => !decimalByte b) h i).getD h.length - i) = .ok digits := by
  have hle : i ≤ h.length := by
    by_contra hlong
    rw [List.drop_eq_nil_iff.mpr (by omega)] at hdrop
    exact hne (List.append_eq_nil_iff.mp hdrop.symm).1
  have hlength := congrArg List.length hdrop
  rw [List.length_drop, List.length_append] at hlength
  have hall : ∀ b ∈ digits, (!decimalByte b) = false := fun b hb => by rw [hdigits b hb]; rfl
  rw [substr_ok hle, hdrop]
  cases rest with
  | nil =>
    have hnone : findFirst (fun b => !decimalByte b) h i = none := by
      refine findFirst_eq_none.mpr ?_
      rwa [hdrop, List.append_nil]
    rw [hnone, Option.getD_none, List.append_nil, List.take_of_length_le]
    rw [List.length_nil] at hlength
    omega
  | cons c rest =>
    have hsome := findFirst_of_drop hdrop hall (by rw [hrest c rfl]; rfl)
    rw [hsome, Option.getD_some, Nat.add_sub_cancel_left, List.take_left]

/-- The argument is always found without a fault, and what is found are the digits behind the key. -/
theorem findArg_sound (h name : Bytes) : ∃ digits, findArg h name = .ok digits ∧ (digits ≠ [] →
    Keyed h name digits) := by
  unfold findArg
  cases hname : find name h with
  | none => exact ⟨[], rfl, fun hne => absurd rfl hne⟩
  | some i =>
    obtain ⟨hle, hthere, hfirst⟩ := find_eq_some hname
    simp only
    cases hcolon : findFirst (fun b => b == byte ':' || endOfLine b) h i with
    | none => exact ⟨[], rfl, fun hne => absurd rfl hne⟩
    | some j =>
      obtain ⟨line, c, more, hdrop, rfl, hdrop', hline, hc⟩ := findFirst_eq_some hcolon
      simp only [byteAt_of_drop hdrop']
      by_cases hsep : c = byte ':'
      · subst hsep
        cases hdigit : findFirst (fun b => decimalByte b || endOfLine b) h (i + line.length + 1) with
        | none => exact ⟨[], rfl, fun hne => absurd rfl hne⟩
        | some k =>
          obtain ⟨gap, d, rest, hgapdrop, rfl, hdrop'', hgap, hd⟩ := findFirst_eq_some hdigit
          by_cases heol : endOfLine d = true
          · refine ⟨[], ?_, fun hne => absurd rfl hne⟩
            simp [byteAt_of_drop hdrop'', heol, bind, Except.bind, pure, Except.pure]
          · obtain ⟨digits, rest', hsplit, hdigits, hrest⟩ := exists_longest decimalByte (d :: rest)
            have hdec : decimalByte d = true := by simpa [heol] using hd
            have hne : digits ≠ [] := by
              rintro rfl
              rw [List.nil_append] at hsplit
              rw [← hsplit] at hrest
              exact absurd (hrest d rfl) (by rw [hdec]; decide)
            have hcut := substr_digits (hdrop''.trans hsplit) hdigits hrest hne
            refine ⟨digits, ?_, fun _ => ?_⟩
            · simp [byteAt_of_drop hdrop'', heol, bind, Except.bind, hcut]
            · have hmore : h.drop (i + line.length + 1) = more := by
                rw [← List.drop_drop, hdrop', List.drop_one, List.tail_cons]
              refine ⟨h.take i, line, gap, rest', ?_, ?_, ?_, ?_, ?_, ?_, hne, hdigits, hrest⟩
              · rw [← hsplit, ← hgapdrop, hmore, ← hdrop, List.take_append_drop]
              · rwa [List.length_take_of_le hle]
              · rwa [List.length_take_of_le hle]
              · intro hmem
                have := hline _ hmem
                simp at this
              · intro b hb
                rcases List.mem_append.mp hb with hb | hb
                · exact (Bool.or_eq_false_iff.mp (hline b hb)).2
                · exact (Bool.or_eq_false_iff.mp (hgap b hb)).2
              · exact fun b hb => (Bool.or_eq_false_iff.mp (hgap b hb)).1
      · refine ⟨[], ?_, fun hne => absurd rfl hne⟩
        simp [hsep, bind, Except.bind, pure, Except.pure]

theorem findArg_of_keyed (hkeyed : Keyed h name digits) : findArg h name = .ok digits := by
  obtain ⟨before, line, gap, rest, hh, hthere, hfirst, hcolon, heol, hgap, hne, hdigits, hrest⟩ := hkeyed
  have hdrop : h.drop before.length = line ++ byte ':' :: (gap ++ (digits ++ rest)) := by rw [hh, List.drop_left]
  have hname : find name h = some before.length := by
    refine find_of_first ?_ hthere hfirst
    rw [hh, List.length_append]
    exact Nat.le_add_right _ _
  have hline : ∀ b ∈ line, (b == byte ':' || endOfLine b) = false := by
    intro b hb
    rw [heol b (List.mem_append_left gap hb), Bool.or_false, beq_eq_false_iff_ne]
    rintro rfl
    exact hcolon hb
  have hcolonAt := findFirst_of_drop hdrop hline (by rfl)
  have hdrop' : h.drop (before.length + line.length) = byte ':' :: (gap ++ (digits ++ rest)) := by
    rw [← List.drop_drop, hdrop, List.drop_left]
  have hgapdrop : h.drop (before.length + line.length + 1) = gap ++ (digits ++ rest) := by
    rw [← List.drop_drop, hdrop', List.drop_one, List.tail_cons]
  have hskip : ∀ b ∈ gap, (decimalByte b || endOfLine b) = false := fun b hb => by
    rw [hgap b hb, heol b (List.mem_append_right line hb), Bool.or_false]
  obtain ⟨d, ds, rfl⟩ := List.exists_cons_of_ne_nil hne
  have hd := hdigits d List.mem_cons_self
  have hdigitAt := findFirst_of_drop hgapdrop hskip (by rw [hd]; rfl)
  have hdrop'' : h.drop (before.length + line.length + 1 + gap.length) = d :: ds ++ rest := by
    rw [← List.drop_drop, hgapdrop, List.drop_left]
  have hend : endOfLine d = false := by
    refine eq_false_of_ne_true fun heol => ?_
    rcases Bool.or_eq_true_iff.mp heol with hcr | hlf
    · exact absurd ((eq_of_beq hcr) ▸ hd) (by decide)
    · exact absurd ((eq_of_beq hlf) ▸ hd) (by decide)
  have hcut := substr_digits hdrop'' hdigits hrest hne
  unfold findArg
  simp only [hname, hcolonAt, byteAt_of_drop hdrop', hdigitAt]
  simp [byteAt_of_drop hdrop'', hend, bind, Except.bind, hcut]

end MSWindowsClipboardHTMLConverter

/-! ### Numbers of ten digits -/

theorem isDigit_char {b : UInt8} (hb : decimalByte b = true) : isDigit 10 (Char.ofNat b.toNat) = true := by
  obtain ⟨hlow, hhigh⟩ := Bool.and_eq_true_iff.mp hb
  have hlow : 48 ≤ b.toNat := UInt8.le_iff_toNat_le.mp (of_decide_eq_true hlow)
  have hhigh : b.toNat ≤ 57 := UInt8.le_iff_toNat_le.mp (of_decide_eq_true hhigh)
  generalize b.toNat = n at hlow hhigh
  interval_cases n <;> decide

/-- The number of some digits, or the largest one when it is out of range. -/
theorem atoi_digits {digits : Bytes} (hne : digits ≠ []) (hdigits : ∀ b ∈ digits, decimalByte b = true) :
    atoi digits = (min (decimalValue digits) (2 ^ 31 - 1) : Nat) := by
  have hall : ∀ c ∈ digits.map fun b => Char.ofNat b.toNat, isDigit 10 c = true := by
    intro c hc
    obtain ⟨b, hb, rfl⟩ := List.mem_map.mp hc
    exact isDigit_char (hdigits b hb)
  have hsome : (digits.map fun b => Char.ofNat b.toNat) ≠ [] := mt List.map_eq_nil_iff.mp hne
  unfold atoi decimalValue
  generalize (digits.map fun b => Char.ofNat b.toNat) = s at hall hsome
  have htake : s.takeWhile (isDigit 10) = s := List.takeWhile_eq_self_iff.mpr hall
  obtain ⟨c, t, rfl⟩ := List.exists_cons_of_ne_nil hsome
  have hc := hall c List.mem_cons_self
  obtain ⟨hspace, hplus⟩ := isspace_of_isDigit hc
  have hminus : c ≠ '-' := by
    rintro rfl
    exact absurd hc (by decide)
  have hsigned : signed (c :: t) = (false, c :: t) := by
    unfold signed
    split
    · next heq => exact absurd (List.cons.inj heq).1 hminus
    · next heq => exact absurd (List.cons.inj heq).1 hplus
    · rfl
  have hstart : (c :: t).dropWhile isspace = c :: t := List.dropWhile_cons_of_neg (by rw [hspace]; decide)
  unfold strtol
  simp only [hstart, hsigned, htake, List.isEmpty_cons, Bool.false_eq_true, if_false]
  generalize numeral 10 (c :: t) = n
  push_cast
  omega

theorem length_tenDigits (n : Nat) : (tenDigits n).length = 10 := by
  have hlt : n % 2 ^ 32 < 10 ^ 10 := (Nat.mod_lt n (by decide)).trans (by decide)
  have hlength : (Nat.toDigits 10 (n % 2 ^ 32)).length ≤ 10 :=
    (Nat.length_toDigits_le_iff (by decide) (by decide)).mpr hlt
  rw [tenDigits, List.length_map, List.leftpad, List.length_append, List.length_replicate, Nat.sub_add_cancel hlength]

theorem mem_tenDigits {n : Nat} {b : UInt8} (hb : b ∈ tenDigits n) : decimalByte b = true := by
  obtain ⟨c, hc, rfl⟩ := List.mem_map.mp hb
  rcases List.mem_append.mp hc with hzero | hdigit
  · rw [List.eq_of_mem_replicate hzero]
    decide
  · obtain ⟨hlow, hhigh⟩ := isDigit_ten (isDigit_of_mem_toDigits (by decide) (by decide) _ c hdigit)
    unfold byte
    generalize c.toNat = n at hlow hhigh
    interval_cases n <;> decide

private theorem numeral_zeros (k : Nat) (s : Str) : numeral 10 (List.replicate k '0' ++ s) = numeral 10 s := by
  induction k with
  | zero => rfl
  | succ k ih =>
    rw [List.replicate_succ, List.cons_append]
    exact ih

theorem decimalValue_tenDigits {n : Nat} (hn : n < 2 ^ 32) : decimalValue (tenDigits n) = n := by
  have hzero : Char.ofNat (byte '0').toNat = '0' := by decide
  rw [decimalValue, tenDigits, List.leftpad, List.map_append, List.map_append, List.map_replicate, List.map_replicate,
    hzero, chars_of_digits, numeral_zeros, numeral_toDigits (by decide) (by decide), Nat.mod_eq_of_lt hn]

namespace MSWindowsClipboardHTMLConverter

/-! ### Round trips -/

/-- The header of a fragment whose text ends at `endHTML`. -/
def header (endFragment endHTML : Nat) : Bytes :=
  ascii "Version:0.9\r\nStartHTML:0000000105\r\nEndHTML:" ++ (tenDigits endHTML ++
    (ascii "\r\nStartFragment:" ++ (tenDigits 147 ++ (ascii "\r\nEndFragment:" ++ (tenDigits endFragment ++
      ascii "\r\n<!DOCTYPE><HTML><BODY><!--StartFragment-->")))))

theorem length_header (endFragment endHTML : Nat) : (header endFragment endHTML).length = 147 := by
  simp only [header, List.length_append, length_tenDigits]
  decide

private theorem patch_append {pattern : String} {before behind : Bytes} (n : Nat)
    (h : find (ascii pattern) (before ++ ascii pattern) = some before.length) :
    patch pattern n (before ++ ascii pattern ++ behind) = .ok (before ++ tenDigits n ++ behind) := by
  rw [patch, replaceFirst_append h]

set_option maxRecDepth 4096 in
private theorem patch_start : patch "XXXXXXXXXX" 147 prefixPattern =
    .ok (
      ascii "Version:0.9\r\nStartHTML:0000000105\r\nEndHTML:ZZZZZZZZZZ\r\nStartFragment:0000000147\r\nEndFragment:" ++
      ascii "YYYYYYYYYY" ++ ascii "\r\n<!DOCTYPE><HTML><BODY><!--StartFragment-->") := by
  have hpattern : prefixPattern =
      ascii "Version:0.9\r\nStartHTML:0000000105\r\nEndHTML:ZZZZZZZZZZ\r\nStartFragment:" ++ ascii "XXXXXXXXXX" ++
        ascii "\r\nEndFragment:YYYYYYYYYY\r\n<!DOCTYPE><HTML><BODY><!--StartFragment-->" := by decide
  rw [hpattern, patch_append _ (by decide)]
  exact congrArg _ (by decide)

set_option maxRecDepth 4096 in
private theorem patch_end (n : Nat) : patch "YYYYYYYYYY" n
    (ascii "Version:0.9\r\nStartHTML:0000000105\r\nEndHTML:ZZZZZZZZZZ\r\nStartFragment:0000000147\r\nEndFragment:" ++
      ascii "YYYYYYYYYY" ++ ascii "\r\n<!DOCTYPE><HTML><BODY><!--StartFragment-->") =
    .ok (ascii "Version:0.9\r\nStartHTML:0000000105\r\nEndHTML:" ++ ascii "ZZZZZZZZZZ" ++
      (ascii "\r\nStartFragment:" ++ (tenDigits 147 ++ (ascii "\r\nEndFragment:" ++ (tenDigits n ++
        ascii "\r\n<!DOCTYPE><HTML><BODY><!--StartFragment-->"))))) := by
  have hclosed : ascii
      "Version:0.9\r\nStartHTML:0000000105\r\nEndHTML:ZZZZZZZZZZ\r\nStartFragment:0000000147\r\nEndFragment:" =
      ascii "Version:0.9\r\nStartHTML:0000000105\r\nEndHTML:" ++ ascii "ZZZZZZZZZZ" ++
        (ascii "\r\nStartFragment:" ++ (tenDigits 147 ++ ascii "\r\nEndFragment:")) := by decide
  rw [patch_append _ (by decide), hclosed]
  simp only [List.append_assoc]

set_option maxRecDepth 4096 in
private theorem patch_html (n m : Nat) : patch "ZZZZZZZZZZ" m
    (ascii "Version:0.9\r\nStartHTML:0000000105\r\nEndHTML:" ++ ascii "ZZZZZZZZZZ" ++
      (ascii "\r\nStartFragment:" ++ (tenDigits 147 ++ (ascii "\r\nEndFragment:" ++ (tenDigits n ++
        ascii "\r\n<!DOCTYPE><HTML><BODY><!--StartFragment-->"))))) = .ok (header n m) := by
  rw [patch_append _ (by decide), List.append_assoc]
  rfl

set_option maxRecDepth 4096 in
/-- The placeholders of the header are replaced. -/
theorem doFromIClipboard_eq {data : Bytes} (hsize : data.length < 2 ^ 31 - 256) :
    doFromIClipboard data = .ok (header (147 + data.length) (147 + data.length + 34) ++ data ++ suffix) := by
  have hlength : prefixPattern.length = 147 := by decide
  have hsuffix : suffix.length = 34 := by decide
  have hstart : prefixPattern.length % 2 ^ 32 = 147 := by omega
  have hend : (147 + data.length % 2 ^ 32) % 2 ^ 32 = 147 + data.length := by omega
  have hhtml : (147 + data.length + suffix.length % 2 ^ 32) % 2 ^ 32 = 147 + data.length + 34 := by omega
  unfold doFromIClipboard
  simp only [hstart, hend, hhtml, patch_start, patch_end, patch_html, bind, Except.bind]
  rfl

section
variable (endFragment endHTML : Nat) (rest : Bytes)

/-- The header, as its lines with the keys go. -/
private theorem header_append : header endFragment endHTML ++ rest =
    ascii "Version:0.9\r\nStartHTML:0000000105\r\nEndHTML" ++ byte ':' :: (tenDigits endHTML ++ byte '\r' ::
      (ascii "\nStartFragment" ++ byte ':' :: (tenDigits 147 ++ byte '\r' :: (ascii "\nEndFragment" ++ byte ':' ::
        (tenDigits endFragment ++
          (ascii "\r\n<!DOCTYPE><HTML><BODY><!--StartFragment-->" ++ rest)))))) := by
  have hhtml : ascii "Version:0.9\r\nStartHTML:0000000105\r\nEndHTML:" =
      ascii "Version:0.9\r\nStartHTML:0000000105\r\nEndHTML" ++ [byte ':'] := by decide
  have hstart : ascii "\r\nStartFragment:" = byte '\r' :: (ascii "\nStartFragment" ++ [byte ':']) := by decide
  have hend : ascii "\r\nEndFragment:" = byte '\r' :: (ascii "\nEndFragment" ++ [byte ':']) := by decide
  simp only [header, hhtml, hstart, hend, List.append_assoc, List.cons_append, List.nil_append]

private theorem find_tenDigits {pattern : Bytes} {b : UInt8} (hb : b ∈ pattern) (hnot : decimalByte b = false)
    (n : Nat) :
    find pattern (tenDigits n) = none :=
  find_eq_none hb fun hmem => absurd ((mem_tenDigits hmem).symm.trans hnot) (by decide)

private theorem keyed_of_find {key before digits : Bytes} (rest : Bytes) (hfind : find key h = some before.length)
    (hh : h = before ++ (key ++ byte ':' :: (digits ++ rest))) (hcolon : byte ':' ∉ key)
    (heol : ∀ b ∈ key, endOfLine b = false) (hne : digits ≠ []) (hdigits : ∀ b ∈ digits, decimalByte b = true)
    (hrest : ∀ b ∈ rest.head?, decimalByte b = false) : Keyed h key digits := by
  obtain ⟨-, hthere, hfirst⟩ := find_eq_some hfind
  exact ⟨before, key, [], rest, hh, hthere, hfirst, hcolon, by rwa [List.append_nil], nofun, hne, hdigits, hrest⟩

private theorem tenDigits_ne_nil (n : Nat) : tenDigits n ≠ [] :=
  List.length_pos_iff.mp (by rw [length_tenDigits]; decide)

set_option maxRecDepth 4096 in
theorem keyed_start : Keyed (header endFragment endHTML ++ rest) (ascii "StartFragment") (tenDigits 147) := by
  have hhtml : find (ascii "StartFragment") (ascii "Version:0.9\r\nStartHTML:0000000105\r\nEndHTML") = none := by
    decide
  have hline : find (ascii "StartFragment") (ascii "\nStartFragment") = some 1 := by decide
  have hfind : find (ascii "StartFragment") (header endFragment endHTML ++ rest) =
      some (ascii "Version:0.9\r\nStartHTML:0000000105\r\nEndHTML:" ++ (tenDigits endHTML ++ ascii "\r\n")).length := by
    rw [header_append, find_separated (by decide), hhtml, Option.none_or, find_separated (by decide),
      find_tenDigits (by decide : byte 'S' ∈ _) (by decide), Option.none_or, find_separated (by decide), hline,
      List.length_append, List.length_append, length_tenDigits]
    rfl
  refine keyed_of_find (byte '\r' :: (ascii "\nEndFragment" ++ byte ':' :: (tenDigits endFragment ++
    (ascii "\r\n<!DOCTYPE><HTML><BODY><!--StartFragment-->" ++ rest)))) hfind ?_ (by decide)
    (by decide) (tenDigits_ne_nil _) (fun b => mem_tenDigits) ?_
  · have hhtml : ascii "Version:0.9\r\nStartHTML:0000000105\r\nEndHTML:" =
        ascii "Version:0.9\r\nStartHTML:0000000105\r\nEndHTML" ++ [byte ':'] := by decide
    have hstart : ascii "\nStartFragment" = byte '\n' :: ascii "StartFragment" := by decide
    have hcrlf : ascii "\r\n" = [byte '\r', byte '\n'] := by decide
    rw [header_append, hhtml, hstart, hcrlf]
    simp only [List.append_assoc, List.cons_append, List.nil_append]
  · rintro b ⟨⟩
    decide

set_option maxRecDepth 4096 in
theorem keyed_end : Keyed (header endFragment endHTML ++ rest) (ascii "EndFragment") (tenDigits endFragment) := by
  have hhtml : find (ascii "EndFragment") (ascii "Version:0.9\r\nStartHTML:0000000105\r\nEndHTML") = none := by
    decide
  have hother : find (ascii "EndFragment") (ascii "\nStartFragment") = none := by decide
  have hline : find (ascii "EndFragment") (ascii "\nEndFragment") = some 1 := by decide
  have hfind : find (ascii "EndFragment") (header endFragment endHTML ++ rest) =
      some (ascii "Version:0.9\r\nStartHTML:0000000105\r\nEndHTML:" ++ (tenDigits endHTML ++
        (ascii "\r\nStartFragment:" ++ (tenDigits 147 ++ ascii "\r\n")))).length := by
    rw [header_append, find_separated (by decide), hhtml, Option.none_or, find_separated (by decide),
      find_tenDigits (by decide : byte 'E' ∈ _) (by decide), Option.none_or, find_separated (by decide), hother,
      Option.none_or, find_separated (by decide), find_tenDigits (by decide : byte 'E' ∈ _) (by decide),
      Option.none_or, find_separated (by decide), hline]
    simp only [List.length_append, length_tenDigits]
    rfl
  refine keyed_of_find (ascii "\r\n<!DOCTYPE><HTML><BODY><!--StartFragment-->" ++ rest) hfind ?_ (by decide)
    (by decide) (tenDigits_ne_nil _) (fun b => mem_tenDigits) ?_
  · have hend : ascii "\r\nEndFragment:" = ascii "\r\n" ++ (ascii "EndFragment" ++ [byte ':']) := by decide
    rw [header, hend]
    simp only [List.append_assoc, List.cons_append, List.nil_append]
  · rintro b ⟨⟩
    decide

end

theorem doToIClipboard_keyed {starts ends : Bytes} (hstart : Keyed h (ascii "StartFragment") starts)
    (hend : Keyed h (ascii "EndFragment") ends) : doToIClipboard h =
      if 0 < decimalValue starts ∧ decimalValue starts < min (decimalValue ends) (2 ^ 31 - 1) then
        substr h (decimalValue starts) (min (decimalValue ends) (2 ^ 31 - 1) - decimalValue starts)
      else .ok [] := by
  have hstartArg := findArg_of_keyed hstart
  have hendArg := findArg_of_keyed hend
  obtain ⟨-, -, -, -, -, -, -, -, -, -, hne, hdigits, -⟩ := hstart
  obtain ⟨-, -, -, -, -, -, -, -, -, -, hne', hdigits', -⟩ := hend
  have hatoi := atoi_digits hne hdigits
  have hatoi' := atoi_digits hne' hdigits'
  have hsome : (starts.isEmpty || ends.isEmpty) = false := by
    rw [List.isEmpty_eq_false_iff.mpr hne, List.isEmpty_eq_false_iff.mpr hne']
    rfl
  unfold doToIClipboard
  simp only [hstartArg, hendArg, bind, Except.bind, hsome, Bool.false_eq_true, if_false, hatoi, hatoi']
  generalize decimalValue starts = s
  generalize decimalValue ends = e
  by_cases hlt : 0 < s ∧ s < min e (2 ^ 31 - 1)
  · rw [if_neg (by omega), if_pos hlt]
    have hs : (min s (2 ^ 31 - 1) : Nat) = s := by omega
    rw [hs]
    congr 1
    omega
  · rw [if_pos (by omega), if_neg hlt]
    rfl

/-- A fragment is decoded from what it was encoded to. -/
theorem decode_encode {data : Bytes} (hne : data ≠ []) (hsize : data.length < 2 ^ 31 - 256) :
    (doFromIClipboard data >>= doToIClipboard) = .ok data := by
  have hpos := List.length_pos_iff.mpr hne
  have hvalue : decimalValue (tenDigits 147) = 147 := decimalValue_tenDigits (by decide)
  have hvalue' : decimalValue (tenDigits (147 + data.length)) = 147 + data.length := decimalValue_tenDigits (by omega)
  have hmin : min (147 + data.length) (2 ^ 31 - 1) = 147 + data.length := by omega
  rw [doFromIClipboard_eq hsize]
  change doToIClipboard _ = _
  rw [List.append_assoc, doToIClipboard_keyed (keyed_start ..) (keyed_end ..), hvalue, hvalue', hmin,
    if_pos ⟨by decide, by omega⟩, Nat.add_sub_cancel_left, substr_ok, List.drop_left' (length_header ..),
        List.take_left]
  rw [List.length_append, length_header]
  exact Nat.le_add_right _ _

/-! ### What other programs write -/

/-- A text is decoded without a fault, and what comes of it are its bytes between the two offsets that it names. -/
def Decodes (h : Bytes) : Prop := (∀ name, ∃ digits, findArg h name = .ok digits) ∧ ∃ fragment,
  doToIClipboard h = .ok fragment ∧ (fragment ≠ [] → ∃ starts ends, Keyed h (ascii "StartFragment") starts ∧
    Keyed h (ascii "EndFragment") ends ∧ fragment = between h (decimalValue starts) (decimalValue ends))

/-- When the first offset is an `int` and the second one is larger, the first is not behind the end of the text, and
the second is an `int` unless the text ends before the largest one. -/
def OffsetsFit (h : Bytes) : Prop := ∀ starts ends, Keyed h (ascii "StartFragment") starts →
  Keyed h (ascii "EndFragment") ends → 0 < decimalValue starts → decimalValue starts < decimalValue ends →
  decimalValue starts < 2 ^ 31 - 1 →
  decimalValue starts ≤ h.length ∧ (decimalValue ends < 2 ^ 31 ∨ h.length < 2 ^ 31)

theorem decodes_iff (h : Bytes) : Decodes h ↔ OffsetsFit h := by
  have hfound (name : Bytes) : ∃ digits, findArg h name = .ok digits := (findArg_sound h name).imp fun _ => And.left
  obtain ⟨starts, hstartArg, hstart⟩ := findArg_sound h (ascii "StartFragment")
  obtain ⟨ends, hendArg, hend⟩ := findArg_sound h (ascii "EndFragment")
  by_cases hnone : starts = [] ∨ ends = []
  · have hempty : (starts.isEmpty || ends.isEmpty) = true := by
      rcases hnone with rfl | rfl
      · rfl
      · exact Bool.or_true _
    have hdecoded : doToIClipboard h = .ok [] := by
      unfold doToIClipboard
      simp only [hstartArg, hendArg, bind, Except.bind, hempty, if_true]
      rfl
    refine iff_of_true ⟨hfound, [], hdecoded, fun hne => absurd rfl hne⟩ ?_
    intro starts' ends' hstart' hend'
    have hsame : starts = starts' := Except.ok.inj (hstartArg.symm.trans (findArg_of_keyed hstart'))
    have hsame' : ends = ends' := Except.ok.inj (hendArg.symm.trans (findArg_of_keyed hend'))
    obtain ⟨-, -, -, -, -, -, -, -, -, -, hne, -⟩ := hstart'
    obtain ⟨-, -, -, -, -, -, -, -, -, -, hne', -⟩ := hend'
    rcases hnone with hnil | hnil
    · exact absurd (hsame.symm.trans hnil) hne
    · exact absurd (hsame'.symm.trans hnil) hne'
  · obtain ⟨hne, hne'⟩ := not_or.mp hnone
    have hkeyed := hstart hne
    have hkeyed' := hend hne'
    have hdecoded := doToIClipboard_keyed hkeyed hkeyed'
    constructor
    · rintro ⟨-, fragment, hfragment, hbetween⟩ starts' ends' hstart' hend' hpos hlt hint
      obtain rfl : starts = starts' := Except.ok.inj (hstartArg.symm.trans (findArg_of_keyed hstart'))
      obtain rfl : ends = ends' := Except.ok.inj (hendArg.symm.trans (findArg_of_keyed hend'))
      rw [if_pos ⟨hpos, by omega⟩, hfragment] at hdecoded
      have hle : decimalValue starts ≤ h.length := by
        by_contra hbehind
        rw [substr, if_pos (by omega)] at hdecoded
        cases hdecoded
      refine ⟨hle, ?_⟩
      by_contra hlarge
      rw [substr_ok hle] at hdecoded
      have hcut := Except.ok.inj hdecoded
      have hlength := congrArg List.length hcut
      rw [List.length_take, List.length_drop] at hlength
      have hsome : fragment ≠ [] := List.length_pos_iff.mp (by omega)
      obtain ⟨starts', ends', hstart'', hend'', hwhole⟩ := hbetween hsome
      obtain rfl : starts = starts' := Except.ok.inj (hstartArg.symm.trans (findArg_of_keyed hstart''))
      obtain rfl : ends = ends' := Except.ok.inj (hendArg.symm.trans (findArg_of_keyed hend''))
      have hlength' := congrArg List.length hwhole
      rw [between, List.length_take, List.length_drop] at hlength'
      omega
    · intro hfit
      refine ⟨hfound, ?_⟩
      by_cases hcut : 0 < decimalValue starts ∧ decimalValue starts < min (decimalValue ends) (2 ^ 31 - 1)
      · obtain ⟨hle, hint⟩ := hfit starts ends hkeyed hkeyed' hcut.1 (by omega) (by omega)
        rw [if_pos hcut, substr_ok hle] at hdecoded
        refine ⟨_, hdecoded, fun _ => ⟨starts, ends, hkeyed, hkeyed', ?_⟩⟩
        rcases hint with hint | hshort
        · rw [between, Nat.min_eq_left (by omega)]
        · have hlength : (h.drop (decimalValue starts)).length ≤ 2 ^ 31 - 1 - decimalValue starts := by
            rw [List.length_drop]
            omega
          rcases Nat.lt_or_ge (decimalValue ends) (2 ^ 31) with hint | hlarge
          · rw [between, Nat.min_eq_left (by omega)]
          · rw [between, Nat.min_eq_right (by omega), List.take_of_length_le hlength, List.take_of_length_le (by omega)]
      · rw [if_neg hcut] at hdecoded
        exact ⟨[], hdecoded, fun hne => absurd rfl hne⟩

/-- Fragments come back as they were, and a text of another program is decoded if and only if its offsets fit. -/
theorem html_fragments (data h : Bytes) :
    (data ≠ [] → data.length < 2 ^ 31 - 256 → (doFromIClipboard data >>= doToIClipboard) = .ok data) ∧
      (Decodes h ↔ OffsetsFit h) :=
  ⟨decode_encode, decodes_iff h⟩

/-- A text whose first offset is behind its end is not decoded. -/
theorem html_fragment_behind_end :
    ¬ ((∀ data : Bytes, data ≠ [] → data.length < 2 ^ 31 - 256 →
        (doFromIClipboard data >>= doToIClipboard) = .ok data) ∧ ∀ h, Decodes h) := by
  rintro ⟨-, h⟩
  obtain ⟨-, fragment, hfragment, -⟩ := h (ascii "StartFragment:90 EndFragment:99")
  have hthrown : doToIClipboard (ascii "StartFragment:90 EndFragment:99") = .error .outOfRange := by decide
  rw [hthrown] at hfragment
  cases hfragment

end MSWindowsClipboardHTMLConverter
end Synergy
