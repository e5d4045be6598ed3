import Mathlib.Data.List.DropRight

/-! Data that arrives in parts: a start that declares how much there will be, the pieces, and an end. -/
namespace Synergy.Lib.Assembly
variable {α : Type*} {limit : Nat} {restarts : Bool}

inductive Part (α : Type*)
  | start (declared : Nat)
  | data (xs : List α)
  | finish
  | invalid

/-- Data that has been started: how much was declared and what has come. -/
structure Opened (α : Type*) where
  declared : Nat
  received : List α

inductive Reply
  | started
  | more
  | finished
  | error
  deriving DecidableEq

def Reply.goesOn : Reply → Bool
  | started | more => true
  | finished | error => false

/-- Take in one part. A start in the middle gives up what has come when `restarts`, and is an error otherwise. -/
def take (limit : Nat) (restarts : Bool) (o : Option (Opened α)) : Part α → Reply × Option (Opened α)
  | .start declared =>
    if (o.isSome && !restarts) || limit < declared then (.error, none)
    else (.started, some ⟨declared, []⟩)
  | .data xs =>
    match o with
    | none => (.error, none)
    | some o =>
      if o.declared < (o.received ++ xs).length then (.error, none)
      else (.more, some { o with received := o.received ++ xs })
  | .finish =>
    match o with
    | none => (.error, none)
    | some o => (if o.received.length = o.declared then .finished else .error, none)
  | .invalid => (.error, none)

/-- The parts taken in with the replies to them, and what is open after them. -/
inductive Run (limit : Nat) (restarts : Bool) : List (Part α × Reply) → Option (Opened α) → Prop
  | nil : Run limit restarts [] none
  | snoc {h : List (Part α × Reply)} {o : Option (Opened α)} (p : Part α) : Run limit restarts h o →
      Run limit restarts (h ++ [(p, (take limit restarts o p).1)]) (take limit restarts o p).2

/-- The parts are a start that declares `declared`, within the limit, and pieces that fit it. -/
structure Opens (limit : Nat) (parts : List (Part α)) (o : Opened α) (pieces : List (List α)) : Prop where
  parts : parts = .start o.declared :: pieces.map .data
  received : o.received = pieces.flatten
  fits : o.received.length ≤ o.declared
  limited : o.declared ≤ limit

theorem Opens.start {declared : Nat} (h : declared ≤ limit) :
    Opens limit [Part.start declared] (⟨declared, []⟩ : Opened α) [] :=
  ⟨rfl, rfl, Nat.zero_le _, h⟩

theorem Opens.data {parts : List (Part α)} {o : Opened α} {pieces : List (List α)} (h : Opens limit parts o pieces)
    {xs : List α} (hfit : (o.received ++ xs).length ≤ o.declared) :
    Opens limit (parts ++ [.data xs]) { o with received := o.received ++ xs } (pieces ++ [xs]) :=
  ⟨by simp [h.parts], by simp [h.received], hfit, h.limited⟩

/-- What one part can do: fail, end what is open, add to it or start anew. -/
theorem take_cases (limit : Nat) (restarts : Bool) (o : Option (Opened α)) (p : Part α) :
    take limit restarts o p = (.error, none) ∨
    (∃ x, o = some x ∧ p = .finish ∧ x.received.length = x.declared ∧
      take limit restarts o p = (.finished, none)) ∨
    (∃ x xs, o = some x ∧ p = .data xs ∧ (x.received ++ xs).length ≤ x.declared ∧
      take limit restarts o p = (.more, some { x with received := x.received ++ xs })) ∨
    (∃ declared, p = .start declared ∧ declared ≤ limit ∧ (restarts = true ∨ o = none) ∧
      take limit restarts o p = (.started, some ⟨declared, []⟩)) := by
  cases p with
  | start declared =>
    rw [take]
    by_cases hbad : ((o.isSome && !restarts) || decide (limit < declared)) = true
    · exact .inl (if_pos hbad)
    · simp only [Bool.or_eq_true, Bool.and_eq_true, Bool.not_eq_true', decide_eq_true_eq, not_or, not_and, not_lt,
        Bool.not_eq_false] at hbad
      refine .inr (.inr (.inr ⟨declared, rfl, hbad.2, ?_, ?_⟩))
      · cases o with
        | none => exact .inr rfl
        | some x => exact .inl (hbad.1 rfl)
      · rw [if_neg]
        cases o with
        | none => simpa using hbad.2
        | some x => simpa [hbad.1 rfl] using hbad.2
  | data xs =>
    cases o with
    | none => exact .inl rfl
    | some x =>
      by_cases hlong : x.declared < (x.received ++ xs).length
      · exact .inl (if_pos hlong)
      · exact .inr (.inr (.inl ⟨x, xs, rfl, rfl, not_lt.mp hlong, if_neg hlong⟩))
  | finish =>
    cases o with
    | none => exact .inl rfl
    | some x =>
      by_cases hall : x.received.length = x.declared
      · exact .inr (.inl ⟨x, rfl, rfl, hall, by simp [take, hall]⟩)
      · exact .inl (by simp [take, hall])
  | invalid => exact .inl rfl

/-- What is open was started by one of the parts, and only pieces have come since. -/
theorem Run.opens {h : List (Part α × Reply)} {o : Opened α} (hrun : Run limit restarts h (some o)) :
    ∃ before parts pieces, h.map Prod.fst = before ++ parts ∧ Opens limit parts o pieces := by
  generalize ho : some o = o' at hrun
  induction hrun generalizing o with
  | nil => cases ho
  | @snoc h o' p hrun ih =>
    rw [List.map_append, List.map_singleton]
    rcases take_cases limit restarts o' p with
      heq | ⟨x, -, -, -, heq⟩ | ⟨x, xs, rfl, rfl, hfit, heq⟩ | ⟨declared, rfl, hlimit, -, heq⟩ <;>
      simp only [heq] at ho
    · cases ho
    · cases ho
    · obtain rfl := Option.some.inj ho
      obtain ⟨before, parts, pieces, hparts, hopens⟩ := ih rfl
      exact ⟨before, _, _, by rw [hparts, List.append_assoc], hopens.data hfit⟩
    · obtain rfl := Option.some.inj ho
      exact ⟨_, _, _, rfl, Opens.start hlimit⟩

/-- What ends well is the data that has come in pieces since a start, as much as it declared. -/
theorem Run.finished {h : List (Part α × Reply)} {o : Option (Opened α)} (hrun : Run limit restarts h o) {p : Part α}
    (hfin : (take limit restarts o p).1 = .finished) :
    ∃ (x : Opened α) (before : List (Part α)) (pieces : List (List α)), o = some x ∧ p = .finish ∧
      h.map Prod.fst = before ++ .start pieces.flatten.length :: pieces.map .data ∧
      x.received = pieces.flatten ∧ pieces.flatten.length ≤ limit := by
  rcases take_cases limit restarts o p with
    heq | ⟨x, rfl, rfl, hall, -⟩ | ⟨x, xs, -, -, -, heq⟩ | ⟨declared, -, -, -, heq⟩
  · rw [heq] at hfin
    cases hfin
  · obtain ⟨before, parts, pieces, hparts, hopens⟩ := hrun.opens
    have hlen : pieces.flatten.length = x.declared := hopens.received ▸ hall
    exact ⟨x, before, pieces, rfl, rfl, by rw [hparts, hopens.parts, hlen], hopens.received, hlen ▸ hopens.limited⟩
  · rw [heq] at hfin
    cases hfin
  · rw [heq] at hfin
    cases hfin

/-- The parts since the last reply that was an end or an error. -/
def since (h : List (Part α × Reply)) : List (Part α) := (h.rtakeWhile fun x => x.2.goesOn).map Prod.fst

theorem since_append_pos (h : List (Part α × Reply)) {x : Part α × Reply} (hx : x.2.goesOn = true) :
    since (h ++ [x]) = since h ++ [x.1] := by
  have hkeep := List.rtakeWhile_concat_pos (fun x : Part α × Reply => x.2.goesOn) h x hx
  rw [since, hkeep, List.map_append, List.map_singleton, since]

theorem since_append_neg (h : List (Part α × Reply)) {x : Part α × Reply} (hx : x.2.goesOn = false) :
    since (h ++ [x]) = [] := by
  have hdrop := List.rtakeWhile_concat_neg (fun x : Part α × Reply => x.2.goesOn) h x (by simp [hx])
  rw [since, hdrop, List.map_nil]

/-- Without restarts, nothing is open unless the parts since the last end or error opened it. -/
theorem Run.since {h : List (Part α × Reply)} {o : Option (Opened α)} (hrun : Run limit false h o) :
    (o = none ∧ since h = []) ∨ ∃ x pieces, o = some x ∧ Opens limit (since h) x pieces := by
  induction hrun with
  | nil => exact .inl ⟨rfl, rfl⟩
  | @snoc h o p hrun ih =>
    rcases take_cases limit false o p with
      heq | ⟨x, -, -, -, heq⟩ | ⟨x, xs, rfl, rfl, hfit, heq⟩ | ⟨declared, rfl, hlimit, hnone, heq⟩
    · exact .inl ⟨by rw [heq], since_append_neg h (by rw [heq]; rfl)⟩
    · exact .inl ⟨by rw [heq], since_append_neg h (by rw [heq]; rfl)⟩
    · rcases ih with ⟨hnone, -⟩ | ⟨y, pieces, hy, hopens⟩
      · cases hnone
      obtain rfl := Option.some.inj hy
      rw [heq, since_append_pos h rfl]
      exact .inr ⟨_, _, rfl, hopens.data hfit⟩
    · obtain rfl := hnone.resolve_left Bool.false_ne_true
      rcases ih with ⟨-, hsince⟩ | ⟨x, pieces, hx, -⟩
      · rw [heq, since_append_pos h rfl, hsince]
        exact .inr ⟨_, _, rfl, Opens.start hlimit⟩
      · cases hx

private theorem map_data_injective : Function.Injective (List.map (Part.data : List α → Part α)) :=
  List.map_injective_iff.mpr fun _ _ heq => Part.data.inj heq

/-- Without restarts, the pieces since the last end or error are what is open. -/
theorem Run.opened_of_since {h : List (Part α × Reply)} {o : Option (Opened α)} (hrun : Run limit false h o) {n : Nat}
    {p : Part α} {pieces : List (List α)}
    (hparts : Assembly.since h ++ [p] = .start n :: (pieces.map .data ++ [.finish])) :
    o = some ⟨n, pieces.flatten⟩ ∧ p = .finish := by
  rw [← List.cons_append] at hparts
  obtain ⟨hsince, hlast⟩ := List.append_inj' hparts rfl
  refine ⟨?_, List.singleton_inj.mp hlast⟩
  rcases hrun.since with ⟨-, hnil⟩ | ⟨x, pieces', rfl, hopens⟩
  · rw [hnil] at hsince
    cases hsince
  · rw [hopens.parts, List.cons.injEq, Part.start.injEq] at hsince
    obtain ⟨rfl, hpieces⟩ := hsince
    rw [← map_data_injective hpieces, ← hopens.received]

/-- Without restarts, a part ends the data well if and only if the parts since the last end or error are
a start within the limit, pieces of the declared length together, and this end. -/
theorem Run.finished_iff {h : List (Part α × Reply)} {o : Option (Opened α)} (hrun : Run limit false h o) (p : Part α) :
    (take limit false o p).1 = .finished ↔ ∃ pieces : List (List α), pieces.flatten.length ≤ limit ∧
      Assembly.since h ++ [p] = .start pieces.flatten.length :: (pieces.map .data ++ [.finish]) := by
  constructor
  · intro hfin
    rcases hrun.since with ⟨rfl, -⟩ | ⟨x, pieces, rfl, hopens⟩
    · obtain ⟨x, -, -, hx, -⟩ := hrun.finished hfin
      cases hx
    · rcases take_cases limit false (some x) p with
        heq | ⟨y, hy, rfl, hall, -⟩ | ⟨y, xs, -, -, -, heq⟩ | ⟨declared, -, -, -, heq⟩
      · rw [heq] at hfin
        cases hfin
      · obtain rfl := Option.some.inj hy
        have hlen : pieces.flatten.length = x.declared := hopens.received ▸ hall
        exact ⟨pieces, hlen ▸ hopens.limited, by rw [hopens.parts, hlen, List.cons_append]⟩
      · rw [heq] at hfin
        cases hfin
      · rw [heq] at hfin
        cases hfin
  · rintro ⟨pieces, -, hparts⟩
    obtain ⟨rfl, rfl⟩ := hrun.opened_of_since hparts
    simp [take]

end Synergy.Lib.Assembly
