import Mathlib.Data.List.Infix
import Mathlib.Tactic.Ring

/-! The attempts of a client that goes through a list of servers: each server has the addresses that its lookup gives,
or a lookup that fails, and the number of addresses is remembered until another lookup succeeds. -/
namespace Synergy

/-- What an attempt aims at: a server of the list, and one of its addresses unless its lookup fails. -/
structure Aim where
  server : Nat
  address : Option Nat
  deriving DecidableEq

/-- How far the attempts have come: the server and the address that are next, the number of addresses that the last
lookup gave, and the rounds that are complete. -/
structure Place where
  server : Nat
  address : Nat
  count : Nat
  rounds : Nat

/-- The attempts that a server gets in one round. -/
def aimsOf (server : Nat) : Option Nat → List Aim
  | none => [⟨server, none⟩]
  | some n => (List.range n).map fun i => ⟨server, some i⟩

/-- The attempts of one round, for the answers to the lookups of the servers. -/
def roundOf (answers : List (Option Nat)) : List Aim := answers.zipIdx.flatMap fun e => aimsOf e.2 e.1

def lastCount (count : Nat) (answers : List (Option Nat)) : Nat :=
  answers.foldl (fun count answer => answer.getD count) count

/-- Before a server whose lookup fails, the last lookup that did not gave no more than one address. -/
def SingleBefore (answers : List (Option Nat)) (count : Nat) : Prop :=
  ∀ i < answers.length, answers[i]? = some none → lastCount count (answers.take i) ≤ 1

instance (answers : List (Option Nat)) (count : Nat) : Decidable (SingleBefore answers count) :=
  inferInstanceAs (Decidable (∀ i < _, _ → _))

namespace Place
variable (answers : List (Option Nat)) (p : Place)

def answer : Option Nat := (answers[p.server]?).join

def aim : Aim := ⟨p.server, (p.answer answers).map fun n => min p.address (n - 1)⟩

/-- The place after an attempt that fails. -/
def next : Place :=
  let count := (p.answer answers).getD p.count
  if p.address + 1 < count then { p with address := p.address + 1, count := count }
  else
    let server := (p.server + 1) % answers.length
    { server := server
      address := 0
      count := count
      rounds := if server = 0 then p.rounds + 1 else p.rounds }

/-- What is left of the round. -/
def rest : List Aim :=
  (aimsOf p.server (p.answer answers)).drop p.address ++
    (answers.zipIdx.drop (p.server + 1)).flatMap fun e => aimsOf e.2 e.1

/-- The place is one of its round, which began with `start` addresses remembered. -/
structure OnCourse (start : Nat) : Prop where
  server : p.server < answers.length
  address : p.address < (aimsOf p.server (p.answer answers)).length
  count : p.answer answers = none → p.count = lastCount start (answers.take p.server)

section
variable {answers p} {start : Nat}

theorem answer_of_onCourse (h : p.OnCourse answers start) : answers[p.server]? = some (p.answer answers) := by
  rw [answer, List.getElem?_eq_getElem h.server]
  rfl

theorem lastCount_next (h : p.OnCourse answers start) :
    (p.answer answers).getD p.count = lastCount start (answers.take (p.server + 1)) := by
  have hanswer := answer_of_onCourse h
  have htake : lastCount start (answers.take (p.server + 1)) =
      (p.answer answers).getD (lastCount start (answers.take p.server)) := by
    rw [List.take_add_one, hanswer, lastCount, List.foldl_append]
    rfl
  rw [htake]
  cases hlookup : p.answer answers with
  | none => exact h.count hlookup
  | some n => rfl

private theorem head_aimsOf (h : p.OnCourse answers start) :
    (aimsOf p.server (p.answer answers))[p.address]? = some (p.aim answers) := by
  have haddress := h.address
  rw [aim]
  cases hanswer : p.answer answers with
  | none =>
    rw [hanswer, aimsOf, List.length_singleton, Nat.lt_one_iff] at haddress
    rw [aimsOf, haddress]
    rfl
  | some n =>
    rw [hanswer, aimsOf, List.length_map, List.length_range] at haddress
    rw [aimsOf, List.getElem?_map, List.getElem?_range haddress, Option.map_some, Option.map_some,
      Nat.min_eq_left (by omega)]

/-- What is left of a round begins with the next attempt. -/
theorem rest_eq (h : p.OnCourse answers start) : p.rest answers = p.aim answers ::
    ((aimsOf p.server (p.answer answers)).drop (p.address + 1) ++
      (answers.zipIdx.drop (p.server + 1)).flatMap fun e => aimsOf e.2 e.1) := by
  rw [rest, List.drop_eq_getElem?_toList_append, head_aimsOf h, Option.toList_some, List.singleton_append,
    List.cons_append]

/-- After an attempt the round goes on, or it is over and the next one begins. -/
theorem next_onCourse (h : p.OnCourse answers start) (hpositive : ∀ n, some n ∈ answers → 0 < n)
    (hsingle : SingleBefore answers start) :
    ((p.next answers).OnCourse answers start ∧ (p.next answers).rounds = p.rounds ∧
      p.rest answers = p.aim answers :: (p.next answers).rest answers) ∨
    (p.next answers = ⟨0, 0, lastCount start answers, p.rounds + 1⟩ ∧ p.rest answers = [p.aim answers]) := by
  have hanswer := answer_of_onCourse h
  have hcount := lastCount_next h
  have haddress := h.address
  rw [rest_eq h, next]
  dsimp only
  by_cases hmore : p.address + 1 < (p.answer answers).getD p.count
  · rw [if_pos hmore]
    refine Or.inl ⟨?_, rfl, rfl⟩
    cases hlookup : p.answer answers with
    | none =>
      rw [hlookup, aimsOf, List.length_singleton, Nat.lt_one_iff] at haddress
      have hle := hsingle p.server h.server (hlookup ▸ hanswer)
      rw [← h.count hlookup] at hle
      rw [hlookup, haddress, Option.getD_none] at hmore
      omega
    | some n =>
      rw [hlookup, Option.getD_some] at hmore
      refine ⟨h.server, ?_, fun hnone => absurd (hlookup.symm.trans hnone) (Option.some_ne_none n)⟩
      change p.address + 1 < (aimsOf p.server (p.answer answers)).length
      rw [hlookup, aimsOf, List.length_map, List.length_range]
      exact hmore
  · rw [if_neg hmore]
    have hdone : (aimsOf p.server (p.answer answers)).drop (p.address + 1) = [] := by
      refine List.drop_eq_nil_of_le ?_
      cases hlookup : p.answer answers with
      | none => exact Nat.succ_le_succ (Nat.zero_le _)
      | some n =>
        rw [hlookup, Option.getD_some] at hmore
        rw [aimsOf, List.length_map, List.length_range]
        omega
    rw [hdone, List.nil_append]
    by_cases hlast : p.server + 1 < answers.length
    · rw [Nat.mod_eq_of_lt hlast, if_neg (Nat.succ_ne_zero _), hcount]
      have hnext : answers[p.server + 1]? = some answers[p.server + 1] := List.getElem?_eq_getElem hlast
      refine Or.inl ⟨⟨hlast, ?_, fun _ => rfl⟩, rfl, ?_⟩
      · rw [answer, hnext]
        cases hlookup : answers[p.server + 1] with
        | none => exact Nat.one_pos
        | some n =>
          rw [Option.join_some, aimsOf, List.length_map, List.length_range]
          exact hpositive n (hlookup ▸ List.getElem_mem hlast)
      · have hzip : answers.zipIdx[p.server + 1]? = some (answers[p.server + 1], p.server + 1) := by
          rw [List.getElem?_zipIdx, hnext, Option.map_some, Nat.zero_add]
        rw [List.drop_eq_getElem?_toList_append, hzip, Option.toList_some, List.singleton_append, List.flatMap_cons,
          rest, answer, hnext, Option.join_some, List.drop_zero]
    · have hend : p.server + 1 = answers.length := by
        have hserver := h.server
        omega
      have hnil : answers.zipIdx.drop (p.server + 1) = [] :=
        List.drop_eq_nil_of_le (by rw [List.length_zipIdx, hend])
      rw [hnil, List.flatMap_nil, hend, Nat.mod_self, if_pos rfl, hcount, hend, List.take_length]
      exact Or.inr ⟨rfl, rfl⟩

end

/-! ### The attempts of a run -/

section
variable {answers}

/-- The place after a number of attempts. -/
def after (answers : List (Option Nat)) (p : Place) : Nat → Place
  | 0 => p
  | n + 1 => (after answers p n).next answers

/-- The attempts of a run, in order. -/
def attempts (answers : List (Option Nat)) (p : Place) (n : Nat) : List Aim :=
  (List.range n).map fun i => (after answers p i).aim answers

theorem begin_onCourse (hne : answers ≠ []) (hpositive : ∀ n, some n ∈ answers → 0 < n) (count rounds : Nat) :
    (⟨0, 0, count, rounds⟩ : Place).OnCourse answers count := by
  cases answers with
  | nil => exact absurd rfl hne
  | cons answer answers =>
    refine ⟨Nat.succ_pos _, ?_, fun _ => rfl⟩
    cases answer with
    | none => exact Nat.one_pos
    | some n =>
      change 0 < (aimsOf 0 (some n)).length
      rw [aimsOf, List.length_map, List.length_range]
      exact hpositive n List.mem_cons_self

theorem begin_rest (hne : answers ≠ []) (count rounds : Nat) :
    (⟨0, 0, count, rounds⟩ : Place).rest answers = roundOf answers := by
  cases answers with
  | nil => exact absurd rfl hne
  | cons answer answers =>
    rw [rest, roundOf, List.zipIdx_cons, List.flatMap_cons]
    rfl

theorem rest_suffix {p : Place} {start : Nat} (h : p.OnCourse answers start) : p.rest answers <:+ roundOf answers := by
  have hentry : answers.zipIdx[p.server]? = some (p.answer answers, p.server) := by
    rw [List.getElem?_zipIdx, answer_of_onCourse h, Option.map_some, Nat.zero_add]
  have hround : roundOf answers = (answers.zipIdx.take p.server).flatMap (fun e => aimsOf e.2 e.1) ++
      (aimsOf p.server (p.answer answers) ++ (answers.zipIdx.drop (p.server + 1)).flatMap fun e => aimsOf e.2 e.1) := by
    conv_lhs => rw [roundOf, ← List.take_append_drop p.server answers.zipIdx]
    rw [List.flatMap_append, List.drop_eq_getElem?_toList_append, hentry, Option.toList_some, List.singleton_append,
      List.flatMap_cons]
  have hvisit : p.rest answers <:+
      aimsOf p.server (p.answer answers) ++ (answers.zipIdx.drop (p.server + 1)).flatMap fun e => aimsOf e.2 e.1 :=
    ⟨(aimsOf p.server (p.answer answers)).take p.address, by
      rw [rest, ← List.append_assoc, List.take_append_drop]⟩
  rw [hround]
  exact hvisit.trans (List.suffix_append ..)

private theorem lastCount_fixed (answers : List (Option Nat)) :
    (∃ n, ∀ count, lastCount count answers = n) ∨ ∀ count, lastCount count answers = count := by
  induction answers with
  | nil => exact Or.inr fun _ => rfl
  | cons answer answers ih =>
    rcases ih with ⟨n, hn⟩ | hsame
    · exact Or.inl ⟨n, fun _ => hn _⟩
    · cases answer with
      | none => exact Or.inr hsame
      | some n => exact Or.inl ⟨n, fun _ => hsame n⟩

theorem lastCount_lastCount (count : Nat) (answers : List (Option Nat)) :
    lastCount (lastCount count answers) answers = lastCount count answers := by
  rcases lastCount_fixed answers with ⟨n, hn⟩ | hsame
  · rw [hn, hn]
  · rw [hsame]

/-- The attempts so far, with what is left of the round, are what was left of the first round and complete rounds. -/
theorem attempts_rounds {p : Place} {start : Nat} (hcourse : p.OnCourse answers start)
    (hpositive : ∀ n, some n ∈ answers → 0 < n) (hfirst : SingleBefore answers start)
    (hlater : SingleBefore answers (lastCount start answers)) (n : Nat) :
    ∃ k, k ≤ n ∧ (after answers p n).rounds = p.rounds + k ∧
      attempts answers p n ++ (after answers p n).rest answers =
        p.rest answers ++ (List.replicate k (roundOf answers)).flatten ∧
      ∃ begun, (after answers p n).OnCourse answers begun ∧ SingleBefore answers begun ∧
        lastCount begun answers = lastCount start answers := by
  have hne : answers ≠ [] := List.ne_nil_of_length_pos (Nat.zero_lt_of_lt hcourse.server)
  induction n with
  | zero => exact ⟨0, Nat.le_refl _, rfl, (List.append_nil _).symm, start, hcourse, hfirst, rfl⟩
  | succ n ih =>
    obtain ⟨k, hk, hcounted, hrounds, begun, hnow, hsingle, hlast⟩ := ih
    have hattempts : attempts answers p (n + 1) = attempts answers p n ++ [(after answers p n).aim answers] := by
      rw [attempts, List.range_succ, List.map_append]
      rfl
    rw [hattempts, after]
    rcases next_onCourse hnow hpositive hsingle with ⟨hnext, hsame, hrest⟩ | ⟨hnext, hrest⟩
    · refine ⟨k, Nat.le_succ_of_le hk, hsame.trans hcounted, ?_, begun, hnext, hsingle, hlast⟩
      rw [← hrounds, hrest, List.append_assoc, List.singleton_append]
    · have hbegin := begin_onCourse hne hpositive (lastCount start answers) ((after answers p n).rounds + 1)
      rw [hnext, hlast]
      refine ⟨k + 1, Nat.succ_le_succ hk, ?_, ?_, _, hbegin, hlater, lastCount_lastCount start answers⟩
      · rw [hcounted, Nat.add_assoc]
      · rw [begin_rest hne, List.replicate_succ', List.flatten_append, List.flatten_singleton, ← List.append_assoc,
          ← hrounds, hrest]

/-- Every attempt is the next one of its round, and the rounds that are complete are counted. -/
theorem attempts_spec {p : Place} {start : Nat} (hcourse : p.OnCourse answers start)
    (hpositive : ∀ n, some n ∈ answers → 0 < n) (hfirst : SingleBefore answers start)
    (hlater : SingleBefore answers (lastCount start answers)) (n : Nat) :
    (after answers p n).server < answers.length ∧
      attempts answers p n <+: p.rest answers ++ (List.replicate n (roundOf answers)).flatten ∧
      (after answers p n).rounds =
        p.rounds + (n + ((roundOf answers).length - (p.rest answers).length)) / (roundOf answers).length := by
  obtain ⟨k, hk, hcounted, hrounds, begun, hnow, -, -⟩ := attempts_rounds hcourse hpositive hfirst hlater n
  have hpos : 0 < ((after answers p n).rest answers).length := by
    rw [rest_eq hnow, List.length_cons]
    exact Nat.succ_pos _
  have hle := (rest_suffix hnow).length_le
  have hstart := (rest_suffix hcourse).length_le
  have hlength := congrArg List.length hrounds
  rw [List.length_append, attempts, List.length_map, List.length_range, List.length_append, List.length_flatten,
    List.map_replicate, List.sum_replicate_nat] at hlength
  have hcomplete :
      (n + ((roundOf answers).length - (p.rest answers).length)) / (roundOf answers).length = k := by
    refine Nat.div_eq_of_lt_le ?_ ?_
    · omega
    · rw [Nat.succ_mul]
      omega
  have hmore : (List.replicate n (roundOf answers)).flatten =
      (List.replicate k (roundOf answers)).flatten ++ (List.replicate (n - k) (roundOf answers)).flatten := by
    rw [← List.flatten_append, ← List.replicate_add, Nat.add_sub_cancel' hk]
  refine ⟨hnow.server, ?_, ?_⟩
  · rw [hmore, ← List.append_assoc, ← hrounds, List.append_assoc]
    exact List.prefix_append ..
  · rw [hcomplete, hcounted]

end

end Place
end Synergy
