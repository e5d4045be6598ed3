import Synergy.Base.Types
import Synergy.Lib.Settings

/-! The options that the client takes from the server for itself. -/
namespace Synergy
open Synergy.Lib

/-- The members of the client that options set. -/
structure Client where
  enableClipboard : Bool
  maximumClipboardSize : Nat
  deriving DecidableEq

namespace Client

/-- The members as the client starts. -/
def initial : Client := ⟨true, 2 ^ 31 - 1⟩

/-- Only the screen resets anything. -/
def resetOptions (c : Client) : Client := c

/-- Options in turn. What is not looked for is passed over alone, without its value. -/
def applyOptions : Client → List Nat → Client
  | c, [] | c, [_] => c
  | c, id :: value :: rest =>
    if id = kOptionClipboardSharing then applyOptions { c with enableClipboard := value ≠ 0 } rest
    else if id = kOptionClipboardSharingSize then applyOptions { c with maximumClipboardSize := value } rest
    else applyOptions c (value :: rest)

/-- A size of zero turns sharing off. -/
def setOptions (c : Client) (options : List Nat) : Client :=
  if options.length % 2 ≠ 0 then c
  else
    let c := c.applyOptions options
    if c.enableClipboard && c.maximumClipboardSize = 0 then { c with enableClipboard := false } else c

/-- The settings that the options are taken for. -/
def settings : List Nat → List (OptionID × Nat)
  | [] | [_] => []
  | id :: value :: rest =>
    if id = kOptionClipboardSharing ∨ id = kOptionClipboardSharingSize then (id, value) :: settings rest
    else settings (value :: rest)

/-- The options hold a value under this id. -/
def Sets (id : OptionID) (options : List Nat) : Prop := ∃ o ∈ settings options, o.1 = id

instance (id : OptionID) (options : List Nat) : Decidable (Sets id options) :=
  inferInstanceAs (Decidable (∃ o ∈ settings options, o.1 = id))

private def ofSetting {β : Type} (id : OptionID) (f : Nat → β) (o : OptionID × Nat) : Option β :=
  if o.1 = id then some (f o.2) else none

/-- The size that the options set, or else the one from before. -/
def lastSize (size : Nat) (options : List Nat) : Nat :=
  ((settings options).filter (·.1 = kOptionClipboardSharingSize)).getLast?.elim size Prod.snd

private theorem settle_ofSetting {β : Type} (id : OptionID) (f : Nat → β) (x y : β) (options : List Nat) :
    settle (ofSetting id f) x (settings options) = settle (ofSetting id f) y (settings options) ↔ Sets id options ∨ x = y := by
  rw [settle_eq_iff]
  refine or_congr_left (exists_congr fun o => and_congr_right fun _ => ?_)
  unfold ofSetting
  split <;> simp [*]

private theorem lastSize_eq (size : Nat) (options : List Nat) :
    lastSize size options = settle (ofSetting kOptionClipboardSharingSize id) size (settings options) := by
  unfold lastSize
  induction settings options generalizing size with
  | nil => rfl
  | cons o rest ih =>
    have hcons : settle (ofSetting kOptionClipboardSharingSize id) size (o :: rest) =
        settle (ofSetting kOptionClipboardSharingSize id) ((ofSetting kOptionClipboardSharingSize id o).getD size) rest := rfl
    rw [hcons, ← ih, List.filter_cons]
    by_cases h : o.1 = kOptionClipboardSharingSize
    · simp only [h, decide_true, if_true, ofSetting, Option.getD_some, id, List.getLast?_cons, Option.elim_some]
      cases (rest.filter (·.1 = kOptionClipboardSharingSize)).getLast? <;> rfl
    · simp [h, ofSetting]

private theorem applyOptions_eq (c : Client) (options : List Nat) : c.applyOptions options =
    ⟨settle (ofSetting kOptionClipboardSharing fun v => decide (v ≠ 0)) c.enableClipboard (settings options),
      settle (ofSetting kOptionClipboardSharingSize id) c.maximumClipboardSize (settings options)⟩ := by
  have hne : kOptionClipboardSharingSize ≠ kOptionClipboardSharing := by decide
  fun_induction applyOptions c options with
  | case1 c => rfl
  | case2 c => rfl
  | case3 c value rest ih =>
    rw [ih, settings, if_pos (.inl rfl)]
    simp [settle, ofSetting, hne.symm]
  | case4 c value rest h ih =>
    rw [ih, settings, if_pos (.inr rfl)]
    simp [settle, ofSetting, hne]
  | case5 c id value rest h h' ih => rw [ih, settings, if_neg (by simp [h, h'])]

/-- For each member the options set it, or it was the same before, or the size turns
sharing off. Options of an odd length are refused. -/
def SetsAnew (options : List Nat) (c c' : Client) : Prop :=
  if options.length % 2 ≠ 0 then c = c'
  else
    (Sets kOptionClipboardSharingSize options ∨ c.maximumClipboardSize = c'.maximumClipboardSize) ∧
      (Sets kOptionClipboardSharing options ∨ c.enableClipboard = c'.enableClipboard ∨
        lastSize c.maximumClipboardSize options = 0)

/-- What options leave of the ones before them. -/
theorem setOptions_eq_iff (options : List Nat) (c c' : Client) :
    c.setOptions options = c'.setOptions options ↔ SetsAnew options c c' := by
  unfold setOptions SetsAnew
  split
  · exact Iff.rfl
  · rw [← settle_ofSetting kOptionClipboardSharingSize id, ← or_assoc,
      ← settle_ofSetting kOptionClipboardSharing fun v => decide (v ≠ 0), lastSize_eq, applyOptions_eq, applyOptions_eq]
    generalize settle (ofSetting kOptionClipboardSharingSize id) c.maximumClipboardSize (settings options) = m
    generalize settle (ofSetting kOptionClipboardSharingSize id) c'.maximumClipboardSize (settings options) = m'
    generalize settle _ c.enableClipboard (settings options) = b
    generalize settle _ c'.enableClipboard (settings options) = b'
    dsimp only
    cases b <;> cases b' <;> by_cases hm : m = 0 <;> by_cases hm' : m' = 0 <;> simp [hm, hm'] <;> omega

end Client
end Synergy

/-! Options as pairs of an id and a value, and as the client reads them. -/
namespace Synergy
open Synergy.Lib
namespace Client
variable {c : Client} {options : List Nat}

/-- An option that the client takes for itself. -/
def Known (id : Nat) : Prop := id = kOptionClipboardSharing ∨ id = kOptionClipboardSharingSize

instance : DecidablePred Known := fun id =>
  inferInstanceAs (Decidable (id = kOptionClipboardSharing ∨ id = kOptionClipboardSharingSize))

def assign (c : Client) (o : Nat × Nat) : Client :=
  if o.1 = kOptionClipboardSharing then { c with enableClipboard := o.2 ≠ 0 }
  else if o.1 = kOptionClipboardSharingSize then { c with maximumClipboardSize := o.2 }
  else c

/-- What the loop assigns, in order. Its iterator is moved past the end when the last element is an id that
it looks for, and then there is nothing that it can be said to do. -/
def assigned : List Nat → Option (List (Nat × Nat))
  | [] => some []
  | [id] => if Known id then none else some []
  | id :: value :: rest =>
    if Known id then (assigned rest).map ((id, value) :: ·) else assigned (value :: rest)

/-- The options pair by pair. -/
def pairs : List Nat → List (Nat × Nat)
  | id :: value :: rest => (id, value) :: pairs rest
  | _ => []

def lastValue (id : Nat) (ps : List (Nat × Nat)) : Option Nat := ((ps.filter (·.1 = id)).getLast?).map Prod.snd

/-- The members as the pairs set them: the last value of each option, and no sharing of size zero. -/
def asPairs (c : Client) (ps : List (Nat × Nat)) : Client :=
  let size := (lastValue kOptionClipboardSharingSize ps).getD c.maximumClipboardSize
  let enable := ((lastValue kOptionClipboardSharing ps).map fun v => decide (v ≠ 0)).getD c.enableClipboard
  ⟨enable && size ≠ 0, size⟩

/-- The loop makes the assignments, when it stays in the list. -/
theorem applyOptions_assigned {read : List (Nat × Nat)} (h : assigned options = some read) :
    c.applyOptions options = read.foldl assign c := by
  fun_induction assigned options generalizing c read with
  | case1 => obtain rfl := Option.some.inj h; rfl
  | case2 id hknown => cases h
  | case3 id hknown => obtain rfl := Option.some.inj h; rfl
  | case4 id value rest hknown ih =>
    obtain ⟨read', hrest, rfl⟩ := Option.map_eq_some_iff.mp h
    rw [List.foldl_cons, ← ih hrest, applyOptions]
    rcases hknown with rfl | rfl
    · rw [if_pos rfl, assign, if_pos rfl]
    · have hne : kOptionClipboardSharingSize ≠ kOptionClipboardSharing := by decide
      rw [if_neg hne, if_pos rfl, assign, if_neg hne, if_pos rfl]
  | case5 id value rest hknown ih =>
    have hid := not_or.mp hknown
    rw [applyOptions, if_neg hid.1, if_neg hid.2]
    exact ih h

private theorem lastValue_cons (id : Nat) (p : Nat × Nat) (ps : List (Nat × Nat)) : lastValue id (p :: ps) =
    if p.1 = id then some ((lastValue id ps).getD p.2) else lastValue id ps := by
  unfold lastValue
  by_cases h : p.1 = id
  · rw [List.filter_cons_of_pos (by simpa using h), if_pos h, List.getLast?_cons]
    cases (ps.filter (·.1 = id)).getLast? <;> rfl
  · rw [List.filter_cons_of_neg (by simpa using h), if_neg h]

private theorem foldl_assign (ps : List (Nat × Nat)) (c : Client) : ps.foldl assign c =
    ⟨((lastValue kOptionClipboardSharing ps).map fun v => decide (v ≠ 0)).getD c.enableClipboard,
      (lastValue kOptionClipboardSharingSize ps).getD c.maximumClipboardSize⟩ := by
  have hne : kOptionClipboardSharingSize ≠ kOptionClipboardSharing := by decide
  induction ps generalizing c with
  | nil => rfl
  | cons p ps ih =>
    rw [List.foldl_cons, ih, lastValue_cons, lastValue_cons, assign]
    by_cases hsharing : p.1 = kOptionClipboardSharing
    · rw [if_pos hsharing, if_pos hsharing, if_neg (hsharing ▸ hne.symm)]
      cases lastValue kOptionClipboardSharing ps <;> rfl
    · by_cases hsize : p.1 = kOptionClipboardSharingSize
      · rw [if_neg hsharing, if_pos hsize, if_neg hsharing, if_pos hsize]
        cases lastValue kOptionClipboardSharingSize ps <;> rfl
      · rw [if_neg hsharing, if_neg hsize, if_neg hsharing, if_neg hsize]

private theorem foldl_known (ps : List (Nat × Nat)) (c : Client) :
    (ps.filter fun p => decide (Known p.1)).foldl assign c = ps.foldl assign c := by
  induction ps generalizing c with
  | nil => rfl
  | cons p ps ih =>
    by_cases hknown : Known p.1
    · rw [List.filter_cons_of_pos (by simpa using hknown), List.foldl_cons, List.foldl_cons, ih]
    · have hid := not_or.mp hknown
      rw [List.filter_cons_of_neg (by simpa using hknown), List.foldl_cons, ih, assign, if_neg hid.1, if_neg hid.2]

/-- Assignments of the known pairs give the members as the pairs set them. -/
theorem setOptions_asPairs (heven : options.length % 2 = 0)
    (h : assigned options = some ((pairs options).filter fun p => decide (Known p.1))) (c : Client) :
    c.setOptions options = c.asPairs (pairs options) := by
  rw [setOptions, if_neg (not_not.mpr heven), applyOptions_assigned h, foldl_known, foldl_assign, asPairs]
  dsimp only
  generalize Option.getD _ c.enableClipboard = b
  generalize Option.getD _ c.maximumClipboardSize = n
  cases b <;> by_cases hn : n = 0 <;> simp [hn]

/-- The elements of pairs in order. -/
def flat (ps : List (Nat × Nat)) : List Nat := ps.flatMap fun p => [p.1, p.2]

private theorem pairs_flat (ps : List (Nat × Nat)) : pairs (flat ps) = ps := by
  induction ps with
  | nil => rfl
  | cons p ps ih =>
    change (p.1, p.2) :: pairs (flat ps) = p :: ps
    rw [ih]

private theorem exists_flat (options : List Nat) (heven : options.length % 2 = 0) : ∃ ps, options = flat ps := by
  fun_induction pairs options with
  | case1 id value rest ih =>
    rw [List.length_cons, List.length_cons] at heven
    obtain ⟨ps, rfl⟩ := ih (by omega)
    exact ⟨(id, value) :: ps, rfl⟩
  | case2 options hpair =>
    match options with
    | [] => exact ⟨[], rfl⟩
    | [id] => simp at heven
    | id :: value :: rest => exact absurd rfl (hpair id value rest)

private theorem assigned_flat_known {id value : Nat} (h : Known id) (rest : List Nat) :
    assigned (id :: value :: rest) = (assigned rest).map ((id, value) :: ·) := by
  rw [assigned, if_pos h]

/-- What is not looked for is passed over alone. -/
private theorem assigned_unknown {id : Nat} (h : ¬ Known id) (rest : List Nat) :
    assigned (id :: rest) = assigned rest := by
  cases rest with
  | nil => simp [assigned, h]
  | cons value rest => rw [assigned, if_neg h]

/-- No value of another option is taken for an id. -/
theorem assigned_of_apart {ps : List (Nat × Nat)} (h : ∀ p ∈ ps, ¬ Known p.1 → ¬ Known p.2) :
    assigned (flat ps) = some (ps.filter fun p => decide (Known p.1)) := by
  induction ps with
  | nil => rfl
  | cons p ps ih =>
    obtain ⟨hp, hps⟩ := List.forall_mem_cons.mp h
    change assigned (p.1 :: p.2 :: flat ps) = _
    by_cases hknown : Known p.1
    · rw [assigned_flat_known hknown, ih hps, List.filter_cons_of_pos (by simpa using hknown), Option.map_some]
    · rw [assigned_unknown hknown, assigned_unknown (hp hknown), ih hps,
        List.filter_cons_of_neg (by simpa using hknown)]

/-- From a value that is taken for an id on, at least as much is assigned as the pairs say, and something else. -/
private theorem assigned_slipped (ps : List (Nat × Nat)) :
    (∀ read, assigned (flat ps) = some read →
      (ps.filter fun p => decide (Known p.1)).length ≤ read.length ∧
        (read = (ps.filter fun p => decide (Known p.1)) → ∀ p ∈ ps, ¬ Known p.1 → ¬ Known p.2)) ∧
    ∀ v read, Known v → assigned (v :: flat ps) = some read →
      (ps.filter fun p => decide (Known p.1)).length ≤ read.length ∧ read ≠ ps.filter fun p => decide (Known p.1) := by
  induction ps with
  | nil =>
    refine ⟨fun read _ => ⟨Nat.zero_le _, fun _ p hp => absurd hp List.not_mem_nil⟩, fun v read hv h => ?_⟩
    change assigned [v] = some read at h
    rw [assigned, if_pos hv] at h
    cases h
  | cons p ps ih =>
    obtain ⟨hin, hout⟩ := ih
    refine ⟨fun read h => ?_, fun v read hv h => ?_⟩
    · change assigned (p.1 :: p.2 :: flat ps) = some read at h
      by_cases hknown : Known p.1
      · rw [assigned_flat_known hknown] at h
        obtain ⟨read', hread, rfl⟩ := Option.map_eq_some_iff.mp h
        obtain ⟨hlen, hapart⟩ := hin read' hread
        rw [List.filter_cons_of_pos (by simpa using hknown)]
        refine ⟨Nat.succ_le_succ hlen, fun heq => List.forall_mem_cons.mpr ⟨fun hno => absurd hknown hno, ?_⟩⟩
        exact hapart (List.cons.inj heq).2
      · rw [assigned_unknown hknown] at h
        rw [List.filter_cons_of_neg (by simpa using hknown)]
        by_cases hvalue : Known p.2
        · obtain ⟨hlen, hne⟩ := hout p.2 read hvalue h
          exact ⟨hlen, fun heq => absurd heq hne⟩
        · rw [assigned_unknown hvalue] at h
          obtain ⟨hlen, hapart⟩ := hin read h
          exact ⟨hlen, fun heq => List.forall_mem_cons.mpr ⟨fun _ => hvalue, hapart heq⟩⟩
    · change assigned (v :: p.1 :: p.2 :: flat ps) = some read at h
      rw [assigned_flat_known hv] at h
      obtain ⟨read', hread, rfl⟩ := Option.map_eq_some_iff.mp h
      have hrest : (ps.filter fun p => decide (Known p.1)).length ≤ read'.length ∧
          (Known p.2 → read' ≠ ps.filter fun p => decide (Known p.1)) := by
        by_cases hvalue : Known p.2
        · obtain ⟨hlen, hne⟩ := hout p.2 read' hvalue hread
          exact ⟨hlen, fun _ => hne⟩
        · rw [assigned_unknown hvalue] at hread
          exact ⟨(hin read' hread).1, fun hno => absurd hno hvalue⟩
      obtain ⟨hlen, hne⟩ := hrest
      by_cases hknown : Known p.1
      · rw [List.filter_cons_of_pos (by simpa using hknown)]
        refine ⟨Nat.succ_le_succ hlen, fun heq => ?_⟩
        obtain ⟨hfirst, hrest⟩ := List.cons.inj heq
        exact hne ((congrArg Prod.snd hfirst) ▸ hknown) hrest
      · rw [List.filter_cons_of_neg (by simpa using hknown)]
        refine ⟨hlen.trans (Nat.le_succ _), fun heq => ?_⟩
        rw [← heq] at hlen
        exact absurd hlen (Nat.not_succ_le_self _)

/-- For options of even length: the loop assigns the options of the client pair by pair, and so sets the members
as the pairs do, if and only if no other option has the number of one of them as its value. -/
theorem options_read_as_pairs_iff (options : List Nat) (heven : options.length % 2 = 0) :
    (assigned options = some ((pairs options).filter fun p => decide (Known p.1)) ∧
      ∀ c : Client, c.setOptions options = c.asPairs (pairs options)) ↔
    ∀ p ∈ pairs options, ¬ Known p.1 → ¬ Known p.2 := by
  obtain ⟨ps, rfl⟩ := exists_flat options heven
  constructor
  · rintro ⟨hread, -⟩
    rw [pairs_flat] at hread ⊢
    exact ((assigned_slipped ps).1 _ hread).2 rfl
  · intro hapart
    have hread : assigned (flat ps) = some ((pairs (flat ps)).filter fun p => decide (Known p.1)) := by
      rw [pairs_flat] at hapart ⊢
      exact assigned_of_apart hapart
    exact ⟨hread, setOptions_asPairs heven hread⟩

theorem options_read_as_pairs_size :
    Client.initial.setOptions [kOptionHeartbeat, 5000, kOptionClipboardSharingSize, 0] = ⟨false, 0⟩ := by
  have hall := (options_read_as_pairs_iff [kOptionHeartbeat, 5000, kOptionClipboardSharingSize, 0] (by decide)).mpr
    (by decide)
  rw [hall.2 Client.initial]
  decide

/-- A delay that is the number of the size makes the client take the next id for the size. -/
theorem value_taken_for_id : ¬ ∀ options : List Nat, options.length % 2 = 0 →
    ∀ c : Client, c.setOptions options = c.asPairs (pairs options) := by
  intro hall
  have h := hall [kOptionScreenSwitchDelay, kOptionClipboardSharingSize, kOptionHeartbeat, 5000] (by decide)
    Client.initial
  revert h
  decide

end Client
end Synergy
