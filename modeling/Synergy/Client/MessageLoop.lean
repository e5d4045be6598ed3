import Synergy.Client.Turns

/-! The loop over the messages: that its fuel is enough, and what holds of a whole run when
something holds at each message. -/
namespace Synergy
open ProtocolUtil
namespace ProxyRun

/-- Every message that the loop comes to is as the predicate says, at its time. -/
def EachTurn (good : Answers → Bytes → ProxyRun → Prop) : Nat → (Nat → Answers) → Bytes → ProxyRun → Prop
  | 0, _, _, _ => True
  | fuel + 1, answers, code, r => code.length = 4 → good (answers 0) code r ∧
      ∀ next r', r.turn (answers 0) code = (some next, r') → EachTurn good fuel (fun n => answers (n + 1)) next r'

/-- The same of the messages that `handleData` comes to. -/
def EachMessage (good : Answers → Bytes → ProxyRun → Prop) (answers : Nat → Answers) (r : ProxyRun) : Prop :=
  EachTurn good (r.stream.flatten.length + 1) answers r.readCode.1 r.readCode.2

theorem eachTurn_true (fuel : Nat) (answers : Nat → Answers) (code : Bytes) (r : ProxyRun) :
    EachTurn (fun _ _ _ => True) fuel answers code r := by
  induction fuel generalizing answers code r with
  | zero => exact trivial
  | succ fuel ih => exact fun _ => ⟨trivial, fun _ _ _ => ih _ _ _⟩

/-- For a predicate that allows everything. -/
theorem permits_all (a : Answers) (code : Bytes) (r : ProxyRun) : Permits (fun _ => True) a code r :=
  ⟨⟨trivial, fun _ => trivial, trivial⟩, fun _ _ _ => trivial, fun _ _ _ => trivial⟩

theorem Turned.thrown {P : Effect → Prop} {silent : Bool} {r r' : ProxyRun} {next : Bytes}
    (h : Turned P silent r (some next, r')) : r'.thrown = none := by
  cases h with
  | silently hs stop onward ht => exact ht
  | goesOn hs onward ht => exact ht

/-- A turn that finds another code has taken it from the stream. -/
theorem length_turn_lt {a : Answers} {code next : Bytes} {r r' : ProxyRun} (hr : r.thrown = none)
    (h : r.turn a code = (some next, r')) (hnext : next ≠ []) :
    r'.stream.flatten.length < r.stream.flatten.length := by
  have hturned := turned (permits_all a code r) hr
  rw [h] at hturned
  cases hturned with
  | silently hs stop onward ht =>
    obtain ⟨mid, c, hmid, -, rfl⟩ := stop
    exact (IStream.length_read_lt hnext).trans_le (onward.stream.trans hmid.stream)
  | goesOn hs onward ht => exact (IStream.length_read_lt hnext).trans_le onward.stream

theorem handleLoop_fuel {fuel : Nat} {answers : Nat → Answers} {code : Bytes} {r : ProxyRun} (hr : r.thrown = none)
    (hpos : 0 < fuel) (hfuel : code ≠ [] → r.stream.flatten.length + 1 < fuel) (more : Nat) :
    handleLoop (fuel + more) answers code r = handleLoop fuel answers code r := by
  induction fuel generalizing answers code r with
  | zero => omega
  | succ fuel ih =>
    rw [Nat.succ_add]
    unfold handleLoop
    split
    next => rfl
    next hcode =>
      split
      next => rfl
      next =>
        have hlength := hfuel hcode
        cases h : r.turn (answers 0) code with
        | mk next r' =>
          cases next with
          | none => rfl
          | some next =>
            have hturned := turned (permits_all (answers 0) code r) hr
            rw [h] at hturned
            refine ih hturned.thrown (by omega) fun hnext => ?_
            have hless := length_turn_lt hr h hnext
            omega

/-- Handling the messages ends before its fuel does. -/
theorem handleData_fuel (answers : Nat → Answers) {r : ProxyRun} (hr : r.thrown = none) (more : Nat) :
    handleLoop (r.stream.flatten.length + 1 + more) answers r.readCode.1 r.readCode.2 = handleData answers r := by
  refine handleLoop_fuel (r := r.readCode.2) hr (by omega) (fun hcode => ?_) more
  have hless : r.readCode.2.stream.flatten.length < r.stream.flatten.length := IStream.length_read_lt hcode
  omega

theorem handleData_fuel_noop :
    let r : ProxyRun := ⟨{ drop := { receiver := { options := { dropDirectory := [] } }, files := fun _ => none } },
      [ascii "CNOP"], [], none⟩
    handleLoop (r.stream.flatten.length + 1 + 7) (fun _ => {}) r.readCode.1 r.readCode.2 =
      handleData (fun _ => {}) r :=
  handleData_fuel _ rfl 7

/-- A turn, where disconnecting is allowed too. -/
theorem Turned.onward {P : Effect → Prop} {silent : Bool} {r : ProxyRun} {out : Option Bytes × ProxyRun}
    (hP : Effect.Usual P) (hstop : ∀ c : ClientCall, c.stops = true → P (.call c)) (h : Turned P silent r out) :
    Onward P r out.2 := by
  cases h with
  | silently hs stop onward ht => exact ((stop.onward hstop).trans onward).trans (onward_readCode hP _)
  | goesOn hs onward ht => exact onward.trans (onward_readCode hP _)
  | leaves hs stop => exact stop.onward hstop

/-- What is allowed at each message is allowed in the whole run. -/
theorem onward_handleLoop {P : Effect → Prop} {good : Answers → Bytes → ProxyRun → Prop} {blocked : List KeyCombination}
    (hP : Effect.Usual P) (hcall : ∀ c : ClientCall, c.presses = false → P (.call c))
    (hgood : ∀ a code r, r.proxy.inputValidator.blockedCombinations = blocked → good a code r → Permits P a code r)
    {fuel : Nat} {answers : Nat → Answers} {code : Bytes} {r : ProxyRun} (hr : r.thrown = none)
    (hblocked : r.proxy.inputValidator.blockedCombinations = blocked) (h : EachTurn good fuel answers code r) :
    Onward P r (handleLoop fuel answers code r) := by
  have hstop : ∀ c : ClientCall, c.stops = true → P (.call c) := by
    intro c hc
    exact hcall c (by cases c <;> simp_all [ClientCall.stops, ClientCall.presses])
  induction fuel generalizing answers code r with
  | zero => exact .refl r
  | succ fuel ih =>
    unfold handleLoop
    unfold EachTurn at h
    split
    next => exact onward_endOfBatch hP (fun _ _ => hcall _ rfl) (fun _ _ => hcall _ rfl) r
    next =>
      split
      next => exact onward_call (hstop _ rfl) r
      next hlength =>
        obtain ⟨hmessage, hnext⟩ := h (by simpa using hlength)
        have hturned := turned (hgood _ _ _ hblocked hmessage) hr
        have honward := hturned.onward hP hstop
        cases hturn : r.turn (answers 0) code with
        | mk next r' =>
          rw [hturn] at hturned honward
          cases next with
          | none => exact honward
          | some next => exact honward.trans (ih hturned.thrown (honward.blocked.trans hblocked) (hnext next r' hturn))

private theorem onward_loop_all (fuel : Nat) (answers : Nat → Answers) (code : Bytes) {r : ProxyRun}
    (hr : r.thrown = none) : Onward (fun _ => True) r (handleLoop fuel answers code r) :=
  onward_handleLoop ⟨trivial, fun _ => trivial, trivial⟩ (fun _ _ => trivial) (fun a code r _ _ => permits_all a code r)
    hr rfl (eachTurn_true fuel answers code r)

/-- The run only ever adds to what has been done. -/
theorem handleLoop_appends (fuel : Nat) (answers : Nat → Answers) (code : Bytes) {r : ProxyRun} (hr : r.thrown = none) :
    ∃ more, (handleLoop fuel answers code r).effects = r.effects ++ more := by
  obtain ⟨more, hmore, -⟩ := (onward_loop_all fuel answers code hr).effects
  exact ⟨more, hmore⟩

theorem onward_handleData (answers : Nat → Answers) (r : ProxyRun) (hr : r.thrown = none) :
    Onward (fun _ => True) r (handleData answers r) :=
  (onward_readCode ⟨trivial, fun _ => trivial, trivial⟩ r).trans (onward_loop_all _ _ _ hr)

/-- A connection: the proxy handles one batch of messages after the other, each with the
answers at its time, until it has told the client to disconnect. -/
def connection : List ((Nat → Answers) × IStream) → ServerProxy → List Effect
  | [], _ => []
  | (answers, s) :: batches, p =>
    let r := handleData answers ⟨p, s, [], none⟩
    r.effects ++ if r.effects.any Effect.stops then [] else connection batches r.proxy

/-- Every message of the connection is as the predicate says, at its time. -/
def EachBatch (good : Answers → Bytes → ProxyRun → Prop) : List ((Nat → Answers) × IStream) → ServerProxy → Prop
  | [], _ => True
  | (answers, s) :: batches, p =>
    EachMessage good answers ⟨p, s, [], none⟩ ∧
      ((handleData answers ⟨p, s, [], none⟩).effects.any Effect.stops = false →
        EachBatch good batches (handleData answers ⟨p, s, [], none⟩).proxy)

end ProxyRun
end Synergy

/-! What is done after the client has been told to disconnect, which deletes the proxy and
its stream: nothing, unless a handler keeps the disconnection to itself. -/
namespace Synergy
open ProtocolUtil

def Hushed (effects : List Effect) : Prop := ∀ e ∈ effects, e.stops = false

/-- Nothing is done once the client has been told to disconnect. -/
def Quiet (effects : List Effect) : Prop :=
  ∀ before e after, effects = before ++ e :: after → e.stops = true → after = []

theorem Hushed.append {a b : List Effect} (ha : Hushed a) (hb : Hushed b) : Hushed (a ++ b) :=
  fun e he => (List.mem_append.mp he).elim (ha e) (hb e)

theorem Hushed.quiet {effects : List Effect} (h : Hushed effects) : Quiet effects := by
  rintro before e after rfl hstops
  rw [h e (by simp)] at hstops
  simp at hstops

/-- Up to the first disconnection nothing is wrong, and after it nothing is right. -/
theorem quiet_stop {new more : List Effect} {stop : Effect} (hnew : Hushed new) (hstop : stop.stops = true) :
    Quiet (new ++ stop :: more) ↔ more = [] := by
  constructor
  · intro h
    exact h new stop more rfl hstop
  · rintro rfl before e after heq he
    rcases List.append_eq_append_iff.mp heq with ⟨rest, rfl, hrest⟩ | ⟨rest, rfl, hrest⟩
    · cases rest with
      | nil => exact (List.cons.inj hrest).2.symm
      | cons x rest => simp at hrest
    · cases rest with
      | nil => exact (List.cons.inj hrest).2
      | cons x rest =>
        obtain ⟨rfl, -⟩ := List.cons.inj hrest
        rw [hnew e (by simp)] at he
        simp at he

private theorem Quiet.length_le {effects : List Effect} (h : Quiet effects) {n : Nat}
    (hn : (effects[n]?).any Effect.stops = true) : effects.length ≤ n + 1 := by
  obtain ⟨e, he, hstops⟩ := (Option.any_eq_true _ _).mp hn
  obtain ⟨hlt, rfl⟩ := List.getElem?_eq_some_iff.mp he
  have hsplit : effects = effects.take n ++ effects[n] :: effects.drop (n + 1) := by
    rw [← List.drop_eq_getElem_cons hlt, List.take_append_drop]
  exact List.drop_eq_nil_iff.mp (h _ _ _ hsplit hstops)

namespace ProxyRun

private theorem pressOf_stops {a : Answers} {code : Bytes} {r : ProxyRun} {c : ClientCall}
    (h : pressOf a code r = some c) : c.stops = false := by
  unfold pressOf at h
  obtain ⟨k, hk, hc⟩ := Option.bind_eq_some_iff.mp h
  split at hc
  next =>
    obtain rfl := Option.some.inj hc
    unfold keyEventOf at hk
    split_ifs at hk <;> split at hk <;> simp at hk <;> subst hk <;> rfl
  next => simp at hc

/-- Telling the client to disconnect is all that is not allowed. -/
private theorem permits_hushed (a : Answers) (code : Bytes) (r : ProxyRun) :
    Permits (fun e => e.stops = false) a code r where
  usual := ⟨rfl, fun _ => rfl, rfl⟩
  call := fun _ hc _ => hc
  press := fun _ _ h => pressOf_stops h

private theorem usual_hushed : Effect.Usual fun e => e.stops = false := ⟨rfl, fun _ => rfl, rfl⟩

theorem quiet_handleLoop (fuel : Nat) (answers : Nat → Answers) (code : Bytes) {r : ProxyRun} (hr : r.thrown = none)
    (hhush : Hushed r.effects) :
    Quiet (handleLoop fuel answers code r).effects ↔
      EachTurn (fun a code r => disconnectsSilently a code r = false) fuel answers code r := by
  induction fuel generalizing answers code r with
  | zero => exact ⟨fun _ => trivial, fun _ => hhush.quiet⟩
  | succ fuel ih =>
    unfold handleLoop EachTurn
    split
    next hcode =>
      obtain ⟨⟨new, hnew, hnewHush⟩, -⟩ :=
        onward_endOfBatch usual_hushed (fun _ _ => rfl) (fun _ _ => rfl) r
      rw [hnew]
      exact ⟨fun _ hlength => by simp [hcode] at hlength, fun _ => (hhush.append hnewHush).quiet⟩
    next =>
      split
      next hlength =>
        exact ⟨fun _ h => absurd h hlength, fun _ => (quiet_stop hhush rfl).mpr rfl⟩
      next hlength =>
        have hturned := turned (permits_hushed (answers 0) code r) hr
        rw [not_not] at hlength
        generalize r.turn (answers 0) code = out at hturned ⊢
        cases hturned with
        | @silently mid last hs stop onward ht =>
          obtain ⟨before, c, hbefore, hc, rfl⟩ := stop
          obtain ⟨⟨new, hnew, hnewHush⟩, -⟩ := hbefore
          obtain ⟨⟨more, hmore, -⟩, -⟩ := onward
          obtain ⟨rest, hrest⟩ := handleLoop_appends fuel (fun n => answers (n + 1)) last.readCode.1 (r := last.readCode.2) ht
          have heffects : (handleLoop fuel (fun n => answers (n + 1)) last.readCode.1 last.readCode.2).effects =
              (r.effects ++ new) ++ .call c :: (more ++ [.read] ++ rest) := by
            rw [hrest]
            simp [readCode, read, hmore, call, hnew]
          have hstop : (Effect.call c).stops = true := hc
          dsimp only
          rw [heffects, quiet_stop (hhush.append hnewHush) hstop]
          simp [hs, hlength]
        | @goesOn last hs onward ht =>
          obtain ⟨⟨new, hnew, hnewHush⟩, -⟩ :=
            onward.trans (onward_readCode usual_hushed last)
          have hlast : Hushed last.readCode.2.effects := by
            rw [hnew]
            exact hhush.append hnewHush
          have hrest := ih (fun n => answers (n + 1)) last.readCode.1 (r := last.readCode.2) ht hlast
          simp [hs, hlength, hrest]
        | @leaves r' hs stop =>
          obtain ⟨before, c, hbefore, hc, rfl⟩ := stop
          obtain ⟨⟨new, hnew, hnewHush⟩, -⟩ := hbefore
          have hstop : (Effect.call c).stops = true := hc
          have hquiet : Quiet (before.call c).effects := by
            rw [call, hnew]
            exact (quiet_stop (hhush.append hnewHush) hstop).mpr rfl
          simp [hs, hquiet]

/-- Nothing is done after the disconnection exactly when no message that is come to
disconnects silently. -/
theorem quiet_after_disconnect_iff (answers : Nat → Answers) (p : ServerProxy) (s : IStream) :
    Quiet (handleData answers ⟨p, s, [], none⟩).effects ↔
      EachMessage (fun a code r => disconnectsSilently a code r = false) answers ⟨p, s, [], none⟩ := by
  unfold handleData EachMessage
  refine quiet_handleLoop _ _ _ rfl ?_
  simp [read, Hushed, Effect.stops]

/-- The proxy as it is built for a connection, with nowhere to store files. -/
private def newProxy : ServerProxy where
  drop := { receiver := { options := { dropDirectory := [] } }, files := fun _ => none }

/-- After the handshake a mouse motion that is cut short: the loop goes on reading. -/
theorem reads_on_after_disconnect :
    ¬ ∀ (answers : Nat → Answers) (p : ServerProxy) (s : IStream),
      Quiet (handleData answers ⟨p, s, [], none⟩).effects := by
  intro hall
  have hquiet := hall (fun _ => {}) newProxy [ascii "DSOP" ++ [0, 0, 0, 0], ascii "DMMV" ++ [0]]
  exact absurd (hquiet.length_le (n := 7) (by decide)) (by decide)

end ProxyRun
end Synergy
