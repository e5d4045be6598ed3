import Mathlib.Data.List.Basic
import Mathlib.Data.List.TakeWhile
import Synergy.Base.NetworkAddress

/-! The texts that stand for an address, against the ones that are accepted for one. -/
namespace Synergy
namespace NetworkAddress

/-- Decimal digits that end a text and denote a port. -/
def IsPort (digits : Str) : Prop := digits ≠ [] ∧ (∀ c ∈ digits, isDigit 10 c = true) ∧ numeral 10 digits ≤ 65535

/-- A link-local address has its scope. -/
def Scoped (address : Str) : Prop := "fe80:".toList <+: address → '%' ∈ address

/-- The grammar of addresses: the text, its host part and its port, which is `port` when there is none in it. -/
inductive AddressText (port : Int) : Str → Str → Int → Prop
  | name {host : Str} : ':' ∉ host → AddressText port host host port
  | nameWithPort {host digits : Str} : ':' ∉ host → IsPort digits →
      AddressText port (host ++ ':' :: digits) host (numeral 10 digits)
  | bare {address : Str} : 2 ≤ address.count ':' → address.head? ≠ some '[' → Scoped address →
      AddressText port address address port
  | bracketed {address digits : Str} : 2 ≤ address.count ':' → Scoped address → IsPort digits →
      AddressText port ('[' :: (address ++ ']' :: ':' :: digits)) address (numeral 10 digits)

/-- The address is what the grammar says, or the exception when the grammar has none. -/
def FollowsGrammar (s : Str) (port : Int) : Prop :=
  ∀ host n, ofHostname s port = .ok ⟨host, n, none⟩ ↔ AddressText port s host n

/-- The texts that a port is looked for in: behind a single colon, or behind the first bracket with a colon. -/
inductive PortText : Nat → Str → Str → Str → Prop
  | colon {host text : Str} : ':' ∉ host → ':' ∉ text → PortText 0 host text (host ++ ':' :: text)
  | bracket {host text : Str} : cutAtPort host = none → 1 ≤ host.count ':' + text.count ':' →
      PortText 1 host text ('[' :: (host ++ ']' :: ':' :: text))

/-- Where a number for a port is read, it is in digits only and the host is fit for it, or there is an address
without its scope both in the host and in what is kept of it. No bracket with a colon is inside another address. -/
structure PlainPorts (s : Str) : Prop where
  port : ∀ brackets host text, PortText brackets host text s → ∀ n, stoi text = some n → 0 ≤ n → n ≤ 65535 →
    (IsPort text ∧ (brackets = 1 → 2 ≤ host.count ':') ∧ brackets + host.length < 2 ^ 31) ∨
    (brackets = 1 ∧ ¬Scoped (upToInt 1 host) ∧ (IsPort text → 2 ≤ host.count ':' → ¬Scoped host))
  outer : ∀ address digits, s = '[' :: (address ++ ']' :: ':' :: digits) → 2 ≤ address.count ':' → Scoped address →
    IsPort digits → cutAtPort address = none

theorem upToInt_of_lt {behind : Nat} {host : Str} (h : behind + host.length < 2 ^ 31) : upToInt behind host = host := by
  have hcast : Int.bmod (behind + host.length : Nat) (2 ^ 32) = (behind + host.length : Nat) := by
    rw [Int.bmod]
    omega
  rw [upToInt, hcast]
  refine List.take_of_length_le ?_
  omega

/-- From a position of 2 ^ 31 on, some of the host is lost. -/
theorem upToInt_length {behind : Nat} (host : Str) (hb : behind ≤ 1) (h : 2 ^ 31 ≤ behind + host.length) :
    (upToInt behind host).length < host.length := by
  have hcast : Int.bmod (behind + host.length : Nat) (2 ^ 32) < 2 ^ 31 := by
    rw [Int.bmod]
    omega
  rw [upToInt, List.length_take]
  omega

theorem stoi_of_isPort {digits : Str} (h : IsPort digits) : stoi digits = some ((numeral 10 digits : Nat) : Int) := by
  obtain ⟨hne, hdigits, hle⟩ := h
  obtain ⟨c, rest, rfl⟩ := List.exists_cons_of_ne_nil hne
  have hc := hdigits c List.mem_cons_self
  have hspace : (c :: rest).dropWhile isspace = c :: rest := by
    rw [List.dropWhile_cons_of_neg]
    simp [(isspace_of_isDigit hc).1]
  have hsign : signed (c :: rest) = (false, c :: rest) := by
    have hrange := isDigit_ten hc
    have hminus : c ≠ '-' := by
      rintro rfl
      exact absurd hrange.1 (by decide)
    simp [signed, hminus, (isspace_of_isDigit hc).2]
  have htake : (c :: rest).takeWhile (isDigit 10) = c :: rest := List.takeWhile_eq_self_iff.mpr hdigits
  have hvalue : (strtol (c :: rest)).1 = ((numeral 10 (c :: rest) : Nat) : Int) := by
    unfold strtol
    rw [hspace, hsign]
    dsimp only
    rw [htake]
    simp only [List.isEmpty_cons, Bool.false_eq_true, if_false]
    omega
  unfold stoi
  rw [hspace, hsign, hvalue]
  dsimp only
  rw [htake, if_neg (by simp), if_pos (by omega)]

/-- The texts around the first bracket that a port follows. -/
theorem cutAtPort_iff {s host text : Str} :
    cutAtPort s = some (host, text) ↔ s = host ++ ']' :: ':' :: text ∧ cutAtPort host = none := by
  induction s generalizing host with
  | nil => simp [cutAtPort]
  | cons c s ih =>
    rw [cutAtPort]
    by_cases hc : c = ']' ∧ s.head? = some ':'
    · rw [if_pos hc]
      obtain ⟨rfl, hhead⟩ := hc
      obtain ⟨rest, rfl⟩ := List.head?_eq_some_iff.mp hhead
      cases host with
      | nil => simp [cutAtPort, eq_comm]
      | cons d host =>
        refine iff_of_false (by simp) ?_
        rintro ⟨hs, hnone⟩
        obtain ⟨rfl, hs⟩ := List.cons.inj hs
        cases host with
        | nil => simp at hs
        | cons e host =>
          have he : ':' = e := (List.cons.inj (List.cons.inj hs).2).1
          simp [cutAtPort, ← he] at hnone
    · rw [if_neg hc]
      cases host with
      | nil =>
        refine iff_of_false (by simp) ?_
        rintro ⟨hs, -⟩
        obtain ⟨rfl, rfl⟩ := List.cons.inj hs
        exact hc ⟨rfl, rfl⟩
      | cons d host =>
        have hmap : ((cutAtPort s).map fun x => (c :: x.1, x.2)) = some (d :: host, text) ↔
            c = d ∧ cutAtPort s = some (host, text) := by
          cases cutAtPort s <;> simp [Prod.ext_iff, and_assoc]
        rw [hmap, ih]
        constructor
        · rintro ⟨rfl, rfl, hnone⟩
          refine ⟨rfl, ?_⟩
          have hc' : ¬(c = ']' ∧ host.head? = some ':') := by
            rintro ⟨rfl, hhead⟩
            exact hc ⟨rfl, by simp [hhead]⟩
          rw [cutAtPort, if_neg hc', hnone]
          rfl
        · rintro ⟨hs, hnone⟩
          obtain ⟨rfl, rfl⟩ := List.cons.inj hs
          refine ⟨rfl, rfl, ?_⟩
          rw [cutAtPort] at hnone
          split_ifs at hnone
          exact Option.map_eq_none_iff.mp hnone

theorem cutAtPort_of_prefix {host longer : Str} (h : host <+: longer) (hnone : cutAtPort longer = none) :
    cutAtPort host = none := by
  obtain ⟨rest, rfl⟩ := h
  cases hcut : cutAtPort host with
  | none => rfl
  | some around =>
    obtain ⟨before, text⟩ := around
    obtain ⟨rfl, hbefore⟩ := cutAtPort_iff.mp hcut
    have hsome : cutAtPort (before ++ ']' :: ':' :: (text ++ rest)) = some (before, text ++ rest) :=
      cutAtPort_iff.mpr ⟨rfl, hbefore⟩
    rw [List.append_assoc, List.cons_append, List.cons_append, hsome] at hnone
    cases hnone

theorem cutAtPort_cons_bracket {s : Str} : cutAtPort ('[' :: s) = (cutAtPort s).map fun x => ('[' :: x.1, x.2) := by
  rw [cutAtPort, if_neg (by simp)]

theorem checkPort_ok_iff {host kept : Str} {n port : Int} :
    checkPort kept port = .ok ⟨host, n, none⟩ ↔ host = kept ∧ n = port ∧ 0 ≤ port ∧ port ≤ 65535 := by
  unfold checkPort
  split_ifs with h
  · refine iff_of_false (by simp) ?_
    rintro ⟨-, -, h0, h1⟩
    omega
  · simp only [Except.ok.injEq, NetworkAddress.mk.injEq, and_true]
    exact ⟨fun ⟨hhost, hport⟩ => ⟨hhost.symm, hport.symm, by omega, by omega⟩,
      fun ⟨hhost, hport, _, _⟩ => ⟨hhost.symm, hport.symm⟩⟩

variable {port n : Int} {s host text : Str}

private theorem count_eq_zero {s : Str} : s.count ':' = 0 ↔ ':' ∉ s := List.count_eq_zero

private theorem ofHostname_name (h : ':' ∉ s) : ofHostname s port = checkPort s port := by
  have hcount := count_eq_zero.mpr h
  unfold ofHostname
  rw [if_neg (by omega), if_pos hcount]

private theorem ofHostname_colon (hhost : ':' ∉ host) (htext : ':' ∉ text) :
    ofHostname (host ++ ':' :: text) port =
      match stoi text with
      | none => .error ⟨.badPort, host ++ ':' :: text, port⟩
      | some n => checkPort (upToInt 0 host) n := by
  have hcount : (host ++ ':' :: text).count ':' = 1 := by
    simp [count_eq_zero.mpr hhost, count_eq_zero.mpr htext]
  have hbefore : ∀ c ∈ host, decide (c ≠ ':') = true := fun c hc => by
    simpa using fun he : c = ':' => hhost (he ▸ hc)
  have htake : (host ++ ':' :: text).takeWhile (· ≠ ':') = host := by
    rw [List.takeWhile_append_of_pos hbefore]
    simp
  have hdrop : ((host ++ ':' :: text).dropWhile (· ≠ ':')).tail = text := by
    rw [List.dropWhile_append_of_pos hbefore]
    simp
  have hread (before behind : Str) (hb : before = host) (hd : behind = text) :
      (match stoi behind with
      | none => .error ⟨.badPort, host ++ ':' :: text, port⟩
      | some n => checkPort (upToInt 0 before) n) =
      (match stoi text with
      | none => (.error ⟨.badPort, host ++ ':' :: text, port⟩ : Except SocketAddressException NetworkAddress)
      | some n => checkPort (upToInt 0 host) n) := by
    rw [hb, hd]
  unfold ofHostname
  rw [if_pos hcount]
  exact hread _ _ htake hdrop

private theorem ofHostname_bare (hcount : 2 ≤ s.count ':') (hhead : s.head? ≠ some '[') :
    ofHostname s port =
      if "fe80:".toList <+: s ∧ '%' ∉ s then .error ⟨.unknown, s, port⟩ else checkPort s port := by
  unfold ofHostname
  rw [if_neg (by omega), if_neg (by omega)]
  simp only [hhead, if_false]

private theorem ofHostname_bracket (hcount : 2 ≤ ('[' :: s).count ':') :
    ofHostname ('[' :: s) port =
      match cutAtPort s with
      | none => .error ⟨.unknown, '[' :: s, port⟩
      | some (host, suffix) =>
        match stoi suffix with
        | none => .error ⟨.badPort, '[' :: s, port⟩
        | some port =>
          if "fe80:".toList <+: upToInt 1 host ∧ '%' ∉ upToInt 1 host then .error ⟨.unknown, upToInt 1 host, port⟩
          else checkPort (upToInt 1 host) port := by
  unfold ofHostname
  rw [if_neg (by omega), if_neg (by omega)]
  simp only [List.head?_cons, if_true, cutAtPort_cons_bracket]
  cases cutAtPort s with
  | none => rfl
  | some around => rfl

private theorem not_scoped {address : Str} : ("fe80:".toList <+: address ∧ '%' ∉ address) ↔ ¬Scoped address := by
  simp [Scoped]

private theorem ok_colon_iff (hhost : ':' ∉ host) (htext : ':' ∉ text) {h : Str} :
    ofHostname (host ++ ':' :: text) port = .ok ⟨h, n, none⟩ ↔
      stoi text = some n ∧ 0 ≤ n ∧ n ≤ 65535 ∧ h = upToInt 0 host := by
  rw [ofHostname_colon hhost htext]
  generalize upToInt 0 host = kept
  cases stoi text with
  | none => simp
  | some k =>
    dsimp only
    rw [checkPort_ok_iff, Option.some_inj]
    constructor
    · rintro ⟨rfl, rfl, h0, h1⟩
      exact ⟨rfl, h0, h1, rfl⟩
    · rintro ⟨rfl, h0, h1, rfl⟩
      exact ⟨rfl, rfl, h0, h1⟩

private theorem ok_bracket_iff (hcut : cutAtPort host = none) (hcount : 1 ≤ host.count ':' + text.count ':') {h : Str} :
    ofHostname ('[' :: (host ++ ']' :: ':' :: text)) port = .ok ⟨h, n, none⟩ ↔
      stoi text = some n ∧ 0 ≤ n ∧ n ≤ 65535 ∧ h = upToInt 1 host ∧ Scoped (upToInt 1 host) := by
  have hcolons : 2 ≤ ('[' :: (host ++ ']' :: ':' :: text)).count ':' := by
    simp
    omega
  rw [ofHostname_bracket hcolons, cutAtPort_iff.mpr ⟨rfl, hcut⟩]
  dsimp only
  generalize upToInt 1 host = kept
  cases stoi text with
  | none => simp
  | some k =>
    dsimp only
    split_ifs with hscope
    · refine iff_of_false (by simp) ?_
      rintro ⟨-, -, -, -, h⟩
      exact not_scoped.mp hscope h
    · rw [checkPort_ok_iff, Option.some_inj]
      constructor
      · rintro ⟨rfl, rfl, h0, h1⟩
        exact ⟨rfl, h0, h1, rfl, not_not.mp (not_scoped.not.mp hscope)⟩
      · rintro ⟨rfl, h0, h1, rfl, -⟩
        exact ⟨rfl, rfl, h0, h1⟩

private theorem isPort_no_colon {digits : Str} (h : IsPort digits) : ':' ∉ digits := fun hm =>
  absurd (isDigit_ten (h.2.1 ':' hm)) (by decide)

private theorem port_range {digits : Str} (h : IsPort digits) :
    (0 : Int) ≤ (numeral 10 digits : Nat) ∧ ((numeral 10 digits : Nat) : Int) ≤ 65535 := by
  have hle := h.2.2
  omega

private theorem count_colon (hhost : ':' ∉ host) (htext : ':' ∉ text) : (host ++ ':' :: text).count ':' = 1 := by
  simp [count_eq_zero.mpr hhost, count_eq_zero.mpr htext]

private theorem count_bracket (host text : Str) :
    ('[' :: (host ++ ']' :: ':' :: text)).count ':' = host.count ':' + text.count ':' + 1 := by
  simp
  omega

private theorem addressText_colon (hhost : ':' ∉ host) (htext : ':' ∉ text) {h : Str} :
    AddressText port (host ++ ':' :: text) h n ↔ IsPort text ∧ h = host ∧ n = (numeral 10 text : Nat) := by
  constructor
  · generalize hs : host ++ ':' :: text = s
    have hcount := count_colon hhost htext
    rw [hs] at hcount
    intro haddress
    cases haddress with
    | name hnone => rw [count_eq_zero.mpr hnone] at hcount; cases hcount
    | nameWithPort hnone hport =>
      obtain ⟨rfl, -, rfl⟩ := (List.append_cons_inj_of_notMem hhost htext).mp hs
      exact ⟨hport, rfl, rfl⟩
    | bare htwo => omega
    | bracketed htwo =>
      rw [count_bracket] at hcount
      omega
  · rintro ⟨hport, rfl, rfl⟩
    exact .nameWithPort hhost hport

/-- A text with a single colon. -/
private theorem follows_colon (hhost : ':' ∉ host) (htext : ':' ∉ text) :
    FollowsGrammar (host ++ ':' :: text) port ↔ PlainPorts (host ++ ':' :: text) := by
  constructor
  · intro hfollows
    refine ⟨fun brackets other text' hsplit n hn h0 h1 => ?_, fun address digits hs htwo _ _ => ?_⟩
    · generalize hs : host ++ ':' :: text = s at hsplit
      cases hsplit with
      | colon hother htext' =>
        obtain ⟨rfl, -, rfl⟩ := (List.append_cons_inj_of_notMem hhost htext).mp hs
        have haddress := (hfollows (upToInt 0 host) n).mp ((ok_colon_iff hhost htext).mpr ⟨hn, h0, h1, rfl⟩)
        obtain ⟨hport, hkept, -⟩ := (addressText_colon hhost htext).mp haddress
        refine .inl ⟨hport, by simp, ?_⟩
        by_contra hlong
        have hlost := upToInt_length host (Nat.zero_le 1) (by omega)
        rw [hkept] at hlost
        exact absurd hlost (lt_irrefl _)
      | bracket =>
        have hcount := count_colon hhost htext
        rw [hs, count_bracket] at hcount
        omega
    · have hcount := count_colon hhost htext
      rw [hs, count_bracket] at hcount
      omega
  · intro hplain h n
    rw [ok_colon_iff hhost htext, addressText_colon hhost htext]
    constructor
    · rintro ⟨hn, h0, h1, hkept⟩
      obtain ⟨hport, -, hshort⟩ := (hplain.port 0 host text (.colon hhost htext) n hn h0 h1).resolve_right (by simp)
      refine ⟨hport, hkept.trans (upToInt_of_lt hshort), ?_⟩
      exact Option.some.inj (hn.symm.trans (stoi_of_isPort hport))
    · rintro ⟨hport, rfl, rfl⟩
      obtain ⟨h0, h1⟩ := port_range hport
      obtain ⟨-, -, hshort⟩ := (hplain.port 0 h text (.colon hhost htext) _ (stoi_of_isPort hport) h0 h1).resolve_right
        (by simp)
      exact ⟨stoi_of_isPort hport, h0, h1, (upToInt_of_lt hshort).symm⟩

private theorem addressText_bracket {s h : Str} (hcount : 2 ≤ ('[' :: s).count ':') :
    AddressText port ('[' :: s) h n ↔
      ∃ digits, s = h ++ ']' :: ':' :: digits ∧ 2 ≤ h.count ':' ∧ Scoped h ∧ IsPort digits ∧
        n = (numeral 10 digits : Nat) := by
  constructor
  · generalize hs : '[' :: s = whole at hcount
    intro haddress
    cases haddress with
    | name hnone =>
      rw [count_eq_zero.mpr hnone] at hcount
      omega
    | nameWithPort hnone hport =>
      rw [count_colon hnone (isPort_no_colon hport)] at hcount
      omega
    | bare _ hhead => exact absurd (by rw [← hs]; rfl) hhead
    | bracketed htwo hscoped hport => exact ⟨_, (List.cons.inj hs).2, htwo, hscoped, hport, rfl⟩
  · rintro ⟨digits, rfl, htwo, hscoped, hport, rfl⟩
    exact .bracketed htwo hscoped hport

/-- The texts around the first bracket with a colon are the ones around any such bracket behind a text without one. -/
private theorem cut_unique (hcut : cutAtPort host = none) {h digits : Str} (hh : cutAtPort h = none)
    (hs : host ++ ']' :: ':' :: text = h ++ ']' :: ':' :: digits) : h = host ∧ digits = text := by
  have hfirst : cutAtPort (host ++ ']' :: ':' :: text) = some (host, text) := cutAtPort_iff.mpr ⟨rfl, hcut⟩
  rw [cutAtPort_iff.mpr ⟨hs, hh⟩] at hfirst
  simpa using hfirst

private theorem cut_none_ne {s h digits : Str} (hcut : cutAtPort s = none) : s ≠ h ++ ']' :: ':' :: digits := by
  rintro rfl
  have hprefix : h <+: h ++ ']' :: ':' :: digits := List.prefix_append _ _
  rw [cutAtPort_iff.mpr ⟨rfl, cutAtPort_of_prefix hprefix hcut⟩] at hcut
  cases hcut

/-- A text that starts with an address in brackets. -/
private theorem follows_bracket (hcut : cutAtPort host = none) (hcount : 1 ≤ host.count ':' + text.count ':') :
    FollowsGrammar ('[' :: (host ++ ']' :: ':' :: text)) port ↔ PlainPorts ('[' :: (host ++ ']' :: ':' :: text)) := by
  have htwo : 2 ≤ ('[' :: (host ++ ']' :: ':' :: text)).count ':' := by
    rw [count_bracket]
    omega
  have hprefix : upToInt 1 host <+: host := List.take_prefix _ _
  have hkeptCut : cutAtPort (upToInt 1 host) = none := cutAtPort_of_prefix hprefix hcut
  constructor
  · intro hfollows
    refine ⟨fun brackets other text' hsplit n hn h0 h1 => ?_, fun address digits hs haddress hscoped hport => ?_⟩
    · generalize hs : '[' :: (host ++ ']' :: ':' :: text) = s at hsplit
      cases hsplit with
      | colon hother htext' =>
        rw [hs, count_colon hother htext'] at htwo
        omega
      | bracket hother =>
        obtain ⟨rfl, rfl⟩ := cut_unique hcut hother (List.cons.inj hs).2
        by_cases hscoped : Scoped (upToInt 1 other)
        · have haddress := (hfollows _ n).mp ((ok_bracket_iff hcut hcount).mpr ⟨hn, h0, h1, rfl, hscoped⟩)
          obtain ⟨digits, hs, hcolons, -, hport, -⟩ := (addressText_bracket htwo).mp haddress
          obtain ⟨hkept, rfl⟩ := cut_unique hcut hkeptCut hs
          rw [hkept] at hcolons
          refine .inl ⟨hport, fun _ => hcolons, ?_⟩
          by_contra hlong
          have hlost := upToInt_length other (le_refl 1) (by omega)
          rw [hkept] at hlost
          exact absurd hlost (lt_irrefl _)
        · refine .inr ⟨rfl, hscoped, fun hport hcolons hother => hscoped ?_⟩
          have hok := (hfollows other _).mpr ((addressText_bracket htwo).mpr ⟨text', rfl, hcolons, hother, hport, rfl⟩)
          exact ((ok_bracket_iff hcut hcount).mp hok).2.2.2.2
    · have hs := (List.cons.inj hs).2
      have hok := (hfollows address _).mpr ((addressText_bracket htwo).mpr ⟨digits, hs, haddress, hscoped, hport, rfl⟩)
      rw [((ok_bracket_iff hcut hcount).mp hok).2.2.2.1]
      exact hkeptCut
  · intro hplain h n
    rw [ok_bracket_iff hcut hcount, addressText_bracket htwo]
    constructor
    · rintro ⟨hn, h0, h1, hkept, hscoped⟩
      obtain ⟨hport, hcolons, hshort⟩ := (hplain.port 1 host text (.bracket hcut hcount) n hn h0 h1).resolve_right
        fun hright => hright.2.1 hscoped
      have hwhole := upToInt_of_lt hshort
      rw [hwhole] at hkept hscoped
      subst hkept
      exact ⟨text, rfl, hcolons rfl, hscoped, hport, Option.some.inj (hn.symm.trans (stoi_of_isPort hport))⟩
    · rintro ⟨digits, hs, hcolons, hscoped, hport, rfl⟩
      have hh := hplain.outer h digits (by rw [hs]) hcolons hscoped hport
      obtain ⟨rfl, rfl⟩ := cut_unique hcut hh hs
      obtain ⟨h0, h1⟩ := port_range hport
      have hsplit := hplain.port 1 h digits (.bracket hcut hcount) _ (stoi_of_isPort hport) h0 h1
      obtain ⟨-, -, hshort⟩ := hsplit.resolve_right fun hright => hright.2.2 hport hcolons hscoped
      have hwhole := upToInt_of_lt hshort
      exact ⟨stoi_of_isPort hport, h0, h1, hwhole.symm, by rwa [hwhole]⟩

private theorem portText_of_cut {s : Str} (hcut : cutAtPort s = some (host, text)) (hcount : 2 ≤ ('[' :: s).count ':') :
    PortText 1 host text ('[' :: s) := by
  obtain ⟨rfl, hhost⟩ := cutAtPort_iff.mp hcut
  refine .bracket hhost ?_
  rw [count_bracket] at hcount
  omega

/-- A text without a port is plain. -/
private theorem plainPorts_of_none (h : ∀ brackets host text, ¬PortText brackets host text s) : PlainPorts s := by
  refine ⟨fun brackets host text hsplit => absurd hsplit (h brackets host text), ?_⟩
  rintro address digits rfl hcolons - -
  cases hcut : cutAtPort (address ++ ']' :: ':' :: digits) with
  | none =>
    have hshort : address <+: address ++ ']' :: ':' :: digits := List.prefix_append _ _
    exact cutAtPort_of_prefix hshort hcut
  | some around =>
    refine absurd (portText_of_cut hcut ?_) (h 1 around.1 around.2)
    rw [count_bracket]
    omega

private theorem not_portText {brackets : Nat} (hone : s.count ':' ≠ 1)
    (hbracket : ∀ host text, s ≠ '[' :: (host ++ ']' :: ':' :: text)) : ¬PortText brackets host text s := by
  intro hsplit
  cases hsplit with
  | colon hhost htext => exact hone (count_colon hhost htext)
  | bracket => exact hbracket _ _ rfl

/-- The constructor follows the grammar of addresses exactly when the texts that it reads ports from are plain. -/
theorem follows_grammar_iff (s : Str) (port : Int) (h0 : 0 ≤ port) (h1 : port ≤ 65535) :
    FollowsGrammar s port ↔ PlainPorts s := by
  by_cases hnone : ':' ∉ s
  · have hplain : PlainPorts s := by
      refine plainPorts_of_none fun _ _ _ => not_portText ?_ fun host text hs => hnone (by simp [hs])
      rw [count_eq_zero.mpr hnone]
      exact Nat.zero_ne_one
    refine iff_of_true (fun host n => ?_) hplain
    rw [ofHostname_name hnone, checkPort_ok_iff]
    constructor
    · rintro ⟨rfl, rfl, -, -⟩
      exact .name hnone
    · intro haddress
      cases haddress with
      | name => exact ⟨rfl, rfl, h0, h1⟩
      | nameWithPort => simp at hnone
      | bare htwo => simp [count_eq_zero.mpr hnone] at htwo
      | bracketed => simp at hnone
  · obtain ⟨host, text, rfl, hhost⟩ := List.eq_append_cons_of_mem (not_not.mp hnone)
    by_cases htext : ':' ∉ text
    · exact follows_colon hhost htext
    · have hcount : 2 ≤ (host ++ ':' :: text).count ':' := by
        have hpos := List.count_pos_iff.mpr (not_not.mp htext)
        simp
        omega
      generalize host ++ ':' :: text = s at hcount
      by_cases hhead : s.head? = some '['
      · obtain ⟨rest, rfl⟩ := List.head?_eq_some_iff.mp hhead
        cases hcut : cutAtPort rest with
        | some around =>
          obtain ⟨address, suffix⟩ := around
          obtain ⟨rfl, haddress⟩ := cutAtPort_iff.mp hcut
          refine follows_bracket haddress ?_
          rw [count_bracket] at hcount
          omega
        | none =>
          have hplain : PlainPorts ('[' :: rest) :=
            plainPorts_of_none fun _ _ _ => not_portText (by omega) fun _ _ hs => cut_none_ne hcut (List.cons.inj hs).2
          refine iff_of_true (fun h n => ?_) hplain
          rw [ofHostname_bracket hcount, hcut, addressText_bracket hcount]
          refine iff_of_false (by simp) ?_
          rintro ⟨digits, hs, -⟩
          exact cut_none_ne hcut hs
      · have hplain : PlainPorts s :=
          plainPorts_of_none fun _ _ _ => not_portText (by omega) fun _ _ hs => hhead (by rw [hs]; rfl)
        refine iff_of_true (fun h n => ?_) hplain
        rw [ofHostname_bare hcount hhead]
        constructor
        · split_ifs with hscope
          · intro herror
            cases herror
          · intro hok
            obtain ⟨rfl, rfl, -, -⟩ := checkPort_ok_iff.mp hok
            exact .bare hcount hhead (not_not.mp (not_scoped.not.mp hscope))
        · intro haddress
          cases haddress with
          | name hname => exact absurd (count_eq_zero.mpr hname) (by omega)
          | nameWithPort hname hport =>
            rw [count_colon hname (isPort_no_colon hport)] at hcount
            omega
          | bare _ _ hscoped =>
            rw [if_neg fun hscope => not_scoped.mp hscope hscoped]
            exact checkPort_ok_iff.mpr ⟨rfl, rfl, h0, h1⟩
          | bracketed => exact absurd rfl hhead

/-- Letters behind a number do not keep it from being a port. -/
theorem trailing_letters_accepted : ¬FollowsGrammar "host:12abc".toList 0 := by
  intro h
  have haddress : AddressText 0 ("host".toList ++ ':' :: "12abc".toList) "host".toList 12 := (h "host".toList 12).mp rfl
  obtain ⟨⟨-, hdigits, -⟩, -, -⟩ := (addressText_colon (by decide) (by decide)).mp haddress
  exact absurd (hdigits 'a' (by decide)) (by decide)

theorem follows_grammar_iff_trailing : FollowsGrammar "host:12abc".toList 0 ↔ PlainPorts "host:12abc".toList :=
  follows_grammar_iff "host:12abc".toList 0 (by decide) (by decide)

end NetworkAddress
end Synergy
