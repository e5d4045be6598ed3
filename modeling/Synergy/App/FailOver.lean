import Synergy.App.OneWayForward
import Synergy.App.ServerRounds

/-! Runs of the client application in which every attempt fails: which server and which of its addresses each attempt
aims at, and what is counted. -/
namespace Synergy
open Synergy.Lib

namespace ClientApp
variable {a : ClientApp} {c : AppClient} {lookup : Str → Option Nat} {p : Place}

/-- The attempt that begins with the answer that the client waits for. -/
def attempted (a : ClientApp) : ClientAppMove → Option Aim
  | .lookedUp i addresses _ =>
    match a.client with
    | none => none
    | some c =>
      if a.exited = false ∧ c.lookups[i]? = some c.resolveGeneration ∧ c.stream = none ∧ c.suspended = false then
        some ⟨a.currentServerIndex, (addresses.filter (0 < ·)).map fun n => min a.lastServerAddressIndex (n - 1)⟩
      else none
  | _ => none

/-- The attempts of a run. -/
def attemptsOf (a : ClientApp) : List ClientAppMove → List Aim
  | [] => []
  | move :: moves => (a.attempted move).toList ++ attemptsOf (a.step move) moves

/-- No attempt gets as far as to be joined or to be closed by the server, and a lookup of a host has always the same
answer. -/
def Fails (lookup : Str → Option Nat) (a : ClientApp) (move : ClientAppMove) (_ : ClientApp) : Prop :=
  match move with
  | .lookedUp i addresses _ =>
    ∀ c ∈ a.client, c.lookups[i]? = some c.resolveGeneration → addresses = lookup c.hostname
  | .hello isKnownProtocol => isKnownProtocol = false
  | .disconnected | .suspend => False
  | _ => True

instance (lookup : Str → Option Nat) (a : ClientApp) (move : ClientAppMove) (t : ClientApp) :
    Decidable (Fails lookup a move t) :=
  match move with
  | .lookedUp _ _ _ => inferInstanceAs (Decidable (∀ c ∈ a.client, _ → _))
  | .hello _ => inferInstanceAs (Decidable (_ = _))
  | .disconnected | .suspend => .isFalse id
  | .restart _ _ _ | .dispatch | .connected | .connectionFailed | .connectTimeout | .handshakeComplete
  | .disconnect _ | .refuseConnection | .resume _ | .quit => .isTrue trivial

/-- An attempt has begun, and its failure has not been handled. -/
def isUnderWay (a : ClientApp) : Bool := a.events ≠ [] || a.client.any fun c => c.stream.isSome

def answers (a : ClientApp) (lookup : Str → Option Nat) : List (Option Nat) := a.serverAddresses.map lookup

/-- What the application has of a place, and what goes on whatever it does. -/
structure Holds (a : ClientApp) (p : Place) (c : AppClient) : Prop where
  client : a.client = some c
  server : a.currentServerIndex = p.server
  inside : p.server < a.serverAddresses.length
  address : a.lastServerAddressIndex = p.address
  rounds : a.retryCount = p.rounds
  running : a.exited = false
  awake : a.suspended = false
  clientAwake : c.suspended = false
  lookups : ∀ generation ∈ c.lookups, generation ≤ c.resolveGeneration

/-- The next attempt is due: a timer runs, or a lookup has not been answered. -/
structure Waiting (a : ClientApp) (p : Place) (c : AppClient) : Prop extends Holds a p c where
  count : c.resolvedAddressesCount = p.count
  stream : c.stream = none
  events : a.events = []
  one : a.restartTimers.length + c.lookups.count c.resolveGeneration = 1
  hostname : c.resolveGeneration ∈ c.lookups → a.serverAddresses[p.server]? = some c.hostname

/-- An attempt is under way. -/
structure Busy (a : ClientApp) (lookup : Str → Option Nat) (p : Place) (c : AppClient) : Prop extends Holds a p c where
  count : c.resolvedAddressesCount = (p.answer (a.answers lookup)).getD p.count
  timers : a.restartTimers = []
  answered : c.resolveGeneration ∉ c.lookups
  way : c.stream = none ∧ a.events = [.clientConnectionFailed true] ∨
    (c.stream = some .connecting ∨ c.stream = some .waitingForHello) ∧ a.events = []

private theorem post_self (h : a.client = some c) : a.post (c, []) = a := by
  obtain ⟨_, _, _, _, _, _, _, events, client, _, _⟩ := a
  obtain rfl : client = some c := h
  rw [post, List.append_nil]

private theorem inPhase_none (h : a.client = some c) (hstream : c.stream = none) (phases : List StreamPhase)
    (handler : AppClient → AppClient × List ClientEvent) : a.inPhase phases handler = a := by
  rw [inPhase, h]
  dsimp only
  rw [hstream]
  rfl

private theorem Waiting.restart (h : a.Waiting p c) (hnames : ∀ host ∈ a.serverAddresses, host ≠ []) {timer : Nat}
    (htimer : timer < a.restartTimers.length) (opening : ScreenOpening) (dialing : Dialing) :
    ∃ c', (a.handleClientRestart timer opening dialing).Waiting p c' := by
  obtain ⟨host, hhost⟩ : ∃ host, a.serverAddresses[p.server]? = some host :=
    ⟨_, List.getElem?_eq_getElem h.inside⟩
  have hempty : host.isEmpty = false := List.isEmpty_eq_false_iff.mpr (hnames _ (List.mem_of_getElem? hhost))
  have hone := h.one
  have hnew : c.lookups.count (c.resolveGeneration + 1) = 0 :=
    List.count_eq_zero.mpr fun hmem => absurd (h.lookups _ hmem) (Nat.not_succ_le_self _)
  have hrestart : a.handleClientRestart timer opening dialing = { a with
      restartTimers := a.restartTimers.eraseIdx timer
      events := a.events ++ []
      client := some { c with
        hostname := host
        resolveGeneration := c.resolveGeneration + 1
        lookups := c.lookups ++ [c.resolveGeneration + 1] } } := by
    rw [handleClientRestart, startClient.eq_def]
    simp only [h.client, connectClient, h.server, hhost, AppClient.connect, h.stream, h.clientAwake, hempty, post,
      Option.isSome_none, Bool.false_eq_true, if_false]
  rw [hrestart]
  refine ⟨_, ⟨rfl, h.server, h.inside, h.address, h.rounds, h.running, h.awake, h.clientAwake, ?_⟩, h.count, h.stream,
    ?_, ?_, fun _ => hhost⟩
  · intro generation hmem
    rcases List.mem_append.mp hmem with hold | hlast
    · exact Nat.le_succ_of_le (h.lookups generation hold)
    · exact (List.mem_singleton.mp hlast).le
  · rw [h.events, List.append_nil]
  · rw [List.length_eraseIdx_of_lt htimer, List.count_append, hnew, List.count_singleton_self]
    omega

private theorem answers_eq {host : Str} (hhost : a.serverAddresses[p.server]? = some host) :
    p.answer (a.answers lookup) = lookup host := by
  rw [Place.answer, answers, List.getElem?_map, hhost]
  rfl

/-- Without the lookup that was waited for, none is waited for. -/
private theorem Waiting.erased (h : a.Waiting p c) {i : Nat} (hlookup : c.lookups[i]? = some c.resolveGeneration) :
    c.resolveGeneration ∉ c.lookups.eraseIdx i := by
  have hcount := AppClient.count_eraseIdx c.lookups i c.resolveGeneration c.resolveGeneration hlookup
  rw [if_pos rfl] at hcount
  have hone := h.one
  exact List.count_eq_zero.mp (by omega)

/-- An answer that the client still waits for begins an attempt. -/
private theorem Waiting.answered (h : a.Waiting p c) (hpositive : ∀ host, lookup host ≠ some 0) {i : Nat}
    (hlookup : c.lookups[i]? = some c.resolveGeneration) (dialing : Dialing) :
    ∃ c', (a.post ({ c with lookups := c.lookups.eraseIdx i }.lookedUp c.resolveGeneration (lookup c.hostname)
      dialing)).Busy lookup p c' := by
  have hmem := List.mem_of_getElem? hlookup
  have hanswer : p.answer (a.answers lookup) = lookup c.hostname := answers_eq (h.hostname hmem)
  have hpos := List.count_pos_iff.mpr hmem
  have hone := h.one
  have htimers : a.restartTimers = [] := List.length_eq_zero_iff.mp (by omega)
  have herased := h.erased hlookup
  have hlookups : ∀ generation ∈ c.lookups.eraseIdx i, generation ≤ c.resolveGeneration :=
    fun generation hgeneration => h.lookups generation (List.mem_of_mem_eraseIdx hgeneration)
  have hguard : (decide (c.resolveGeneration ≠ c.resolveGeneration) || c.stream.isSome || c.suspended) = false := by
    simp [h.stream, h.clientAwake]
  rw [AppClient.lookedUp.eq_def]
  dsimp only
  rw [hguard, if_neg Bool.false_ne_true]
  match hhost : lookup c.hostname with
  | none =>
    refine ⟨_, ⟨rfl, h.server, h.inside, h.address, h.rounds, h.running, h.awake, h.clientAwake, hlookups⟩, ?_, htimers,
      herased, Or.inl ⟨h.stream, congrArg (· ++ _) h.events⟩⟩
    change c.resolvedAddressesCount = (p.answer (a.answers lookup)).getD p.count
    rw [hanswer, hhost, h.count, Option.getD_none]
  | some 0 => exact absurd hhost (hpositive _)
  | some (n + 1) =>
    have hcount : n + 1 = (p.answer (a.answers lookup)).getD p.count := by
      rw [hanswer, hhost, Option.getD_some]
    change ∃ c', (a.post (AppClient.continueConnect
      { c with lookups := c.lookups.eraseIdx i, resolvedIps := n + 1 } dialing)).Busy lookup p c'
    rw [AppClient.continueConnect.eq_def]
    simp only [Nat.add_eq_zero_iff, Nat.one_ne_zero, and_false, decide_false, Bool.false_and, Bool.false_eq_true,
        if_false]
    cases dialing.connects with
    | true =>
      exact ⟨_, ⟨rfl, h.server, h.inside, h.address, h.rounds, h.running, h.awake, h.clientAwake, hlookups⟩, hcount,
        htimers, herased, Or.inr ⟨Or.inl rfl, congrArg (· ++ _) h.events⟩⟩
    | false =>
      exact ⟨_, ⟨rfl, h.server, h.inside, h.address, h.rounds, h.running, h.awake, h.clientAwake, hlookups⟩, hcount,
        htimers, herased, Or.inl ⟨h.stream, congrArg (· ++ _) h.events⟩⟩

/-- A lookup that is not waited for any more changes nothing. -/
private theorem lookedUp_stale {i generation : Nat} (hstale : generation ≠ c.resolveGeneration) (addresses : Option Nat)
    (dialing : Dialing) : { c with lookups := c.lookups.eraseIdx i }.lookedUp generation addresses dialing =
      ({ c with lookups := c.lookups.eraseIdx i }, []) := by
  rw [AppClient.lookedUp.eq_def]
  simp [hstale]

private theorem count_stale {i generation : Nat} (hlookup : c.lookups[i]? = some generation)
    (hstale : generation ≠ c.resolveGeneration) :
    (c.lookups.eraseIdx i).count c.resolveGeneration = c.lookups.count c.resolveGeneration := by
  have hcount := AppClient.count_eraseIdx c.lookups i generation c.resolveGeneration hlookup
  rwa [if_neg hstale] at hcount

private theorem Holds.erase (h : a.Holds p c) (i : Nat) :
    (a.post ({ c with lookups := c.lookups.eraseIdx i }, [])).Holds p { c with lookups := c.lookups.eraseIdx i } :=
  ⟨rfl, h.server, h.inside, h.address, h.rounds, h.running, h.awake, h.clientAwake,
    fun generation hgeneration => h.lookups generation (List.mem_of_mem_eraseIdx hgeneration)⟩

/-- While an attempt is due, it begins, or it stays due. -/
theorem waiting_step (hnames : ∀ host ∈ a.serverAddresses, host ≠ []) (hpositive : ∀ host, lookup host ≠ some 0)
    (h : a.Waiting p c) {move : ClientAppMove} (hfails : Fails lookup a move (a.step move)) :
    (a.attempted move = none ∧ ∃ c', (a.step move).Waiting p c') ∨
      (a.attempted move = some (p.aim (a.answers lookup)) ∧ ∃ c', (a.step move).Busy lookup p c') := by
  have hstay (phases : List StreamPhase) (handler : AppClient → AppClient × List ClientEvent) :
      ∃ c', (a.inPhase phases handler).Waiting p c' := by
    rw [inPhase_none h.client h.stream]
    exact ⟨c, h⟩
  rw [step.eq_def, if_neg (by rw [h.running]; exact Bool.false_ne_true)]
  cases move with
  | restart timer opening dialing =>
    refine Or.inl ⟨rfl, ?_⟩
    dsimp only
    split_ifs with htimer
    · exact h.restart hnames htimer opening dialing
    · exact ⟨c, h⟩
  | dispatch =>
    refine Or.inl ⟨rfl, c, ?_⟩
    dsimp only
    rw [h.events]
    exact h
  | lookedUp i addresses dialing =>
    dsimp only
    rw [attempted, h.client]
    dsimp only
    cases hlookup : c.lookups[i]? with
    | none =>
      rw [if_neg fun hready => by cases hready.2.1]
      exact Or.inl ⟨rfl, c, h⟩
    | some generation =>
      dsimp only
      by_cases hstale : generation = c.resolveGeneration
      · subst hstale
        have haddresses := hfails c h.client hlookup
        have hanswer : p.answer (a.answers lookup) = lookup c.hostname :=
          answers_eq (h.hostname (List.mem_of_getElem? hlookup))
        rw [if_pos ⟨h.running, rfl, h.stream, h.clientAwake⟩, haddresses]
        refine Or.inr ⟨?_, h.answered hpositive hlookup dialing⟩
        rw [Place.aim, hanswer, h.server, h.address]
        rcases hhost : lookup c.hostname with _ | _ | n
        · rfl
        · exact absurd hhost (hpositive _)
        · rfl
      · rw [if_neg fun hready => hstale (Option.some.inj hready.2.1), lookedUp_stale hstale]
        refine Or.inl ⟨rfl, _, h.toHolds.erase i, h.count, h.stream, ?_, ?_, fun hmem => ?_⟩
        · exact (List.append_nil _).trans h.events
        · exact (congrArg _ (count_stale hlookup hstale)).trans h.one
        · exact h.hostname (List.mem_of_mem_eraseIdx hmem)
  | connected => exact Or.inl ⟨rfl, hstay _ _⟩
  | connectionFailed => exact Or.inl ⟨rfl, hstay _ _⟩
  | connectTimeout => exact Or.inl ⟨rfl, hstay _ _⟩
  | disconnected => exact Or.inl ⟨rfl, hstay _ _⟩
  | hello isKnownProtocol => exact Or.inl ⟨rfl, hstay _ _⟩
  | handshakeComplete => exact Or.inl ⟨rfl, hstay _ _⟩
  | disconnect hasMessage => exact Or.inl ⟨rfl, hstay _ _⟩
  | refuseConnection => exact Or.inl ⟨rfl, hstay _ _⟩
  | suspend => exact absurd hfails id
  | resume dialing =>
    refine Or.inl ⟨rfl, c, ?_⟩
    dsimp only
    rw [h.client]
    dsimp only
    rw [AppClient.handleResume, if_neg (by rw [h.clientAwake]; exact Bool.false_ne_true), post_self h.client]
    exact h
  | quit =>
    exact Or.inl ⟨rfl, c, ⟨h.client, h.server, h.inside, h.address, h.rounds, h.running, h.awake, h.clientAwake,
      h.lookups⟩, h.count, h.stream, h.events, h.one, h.hostname⟩

/-! ### Attempts under way -/

private theorem Busy.inPhase (h : a.Busy lookup p c) (phases : List StreamPhase)
    {handler : AppClient → AppClient × List ClientEvent}
    (hhandler : handler c = ({ c with stream := some .waitingForHello }, []) ∨
      handler c = ({ c with stream := none }, [.clientConnectionFailed true])) :
    ∃ c', (a.inPhase phases handler).Busy lookup p c' := by
  rcases h.way with ⟨hstream, hevents⟩ | ⟨hstream, hevents⟩
  · rw [inPhase_none h.client hstream]
    exact ⟨c, h⟩
  · rw [ClientApp.inPhase, h.client]
    dsimp only
    split_ifs
    · rcases hhandler with hhandler | hhandler
      · rw [hhandler]
        exact ⟨_, ⟨rfl, h.server, h.inside, h.address, h.rounds, h.running, h.awake, h.clientAwake, h.lookups⟩, h.count,
          h.timers, h.answered, Or.inr ⟨Or.inr rfl, (List.append_nil _).trans hevents⟩⟩
      · rw [hhandler]
        exact ⟨_, ⟨rfl, h.server, h.inside, h.address, h.rounds, h.running, h.awake, h.clientAwake, h.lookups⟩, h.count,
          h.timers, h.answered, Or.inl ⟨rfl, congrArg (· ++ _) hevents⟩⟩
    · exact ⟨c, h⟩

private theorem Busy.not_joined (h : a.Busy lookup p c) (handler : AppClient → AppClient × List ClientEvent) :
    ∃ c', (a.inPhase [.joined] handler).Busy lookup p c' := by
  rcases h.way with ⟨hstream, -⟩ | ⟨hstream, -⟩
  · rw [inPhase_none h.client hstream]
    exact ⟨c, h⟩
  · have hnot : c.stream.any (· ∈ [StreamPhase.joined]) = false := by
      rcases hstream with hstream | hstream
      · rw [hstream]
        rfl
      · rw [hstream]
        rfl
    rw [ClientApp.inPhase, h.client]
    dsimp only
    rw [hnot]
    exact ⟨c, h⟩

private theorem tryNextServer_eq (h : a.currentServerIndex < a.serverAddresses.length) :
    a.tryNextServer = { a with currentServerIndex := (a.currentServerIndex + 1) % a.serverAddresses.length } := by
  rw [tryNextServer]
  split_ifs with hmany
  · rfl
  · have hone : a.serverAddresses.length = 1 := by omega
    have hzero : a.currentServerIndex = 0 := by omega
    have hmod : (a.currentServerIndex + 1) % a.serverAddresses.length = a.currentServerIndex := by
      rw [hone, hzero]
    rw [hmod]

/-- What is left to do when the failure has been handled is to wait. -/
private theorem Busy.scheduled (h : a.Busy lookup p c) (hstream : c.stream = none) {q : Place} {t : ClientApp}
    (hclient : t.client = some c) (hservers : t.serverAddresses = a.serverAddresses)
    (hserver : t.currentServerIndex = q.server) (hinside : q.server < a.serverAddresses.length)
    (haddress : t.lastServerAddressIndex = q.address) (hrounds : t.retryCount = q.rounds)
    (hexited : t.exited = false) (hawake : t.suspended = false) (hcount : c.resolvedAddressesCount = q.count)
    (hevents : t.events = []) (htimers : t.restartTimers.length = 1) : t.Waiting q c := by
  refine ⟨⟨hclient, hserver, hservers ▸ hinside, haddress, hrounds, hexited, hawake, h.clientAwake, h.lookups⟩, hcount,
    hstream, hevents, ?_, fun hmem => absurd hmem h.answered⟩
  rw [htimers, List.count_eq_zero.mpr h.answered]

/-- When the failure is handled, the next place is due. -/
private theorem Busy.handled (h : a.Busy lookup p c) (hstream : c.stream = none) :
    ({ a with events := [] }.handleClientFailed true).Waiting (p.next (a.answers lookup)) c := by
  have hlength : (a.answers lookup).length = a.serverAddresses.length := List.length_map _
  have htry := tryNextServer_eq (a := { a with events := [], lastServerAddressIndex := 0 })
    (h.server ▸ h.inside : a.currentServerIndex < a.serverAddresses.length)
  have hmod : (p.server + 1) % a.serverAddresses.length < a.serverAddresses.length :=
    Nat.mod_lt _ (Nat.zero_lt_of_lt h.inside)
  have hone : (a.restartTimers ++ [a.retryTime]).length = 1 := by
    rw [h.timers]
    rfl
  rw [handleClientFailed]
  dsimp only
  rw [htry, h.client, Option.elim_some, h.address, h.server, h.count, Place.next, hlength]
  dsimp only
  by_cases hmore : p.address + 1 < (p.answer (a.answers lookup)).getD p.count
  · rw [if_pos hmore, if_pos hmore, scheduleUnlessSuspended]
    simp only [h.awake, Bool.not_false, if_true]
    exact h.scheduled hstream rfl rfl rfl h.inside rfl h.rounds h.running rfl h.count rfl hone
  · rw [if_neg hmore, if_neg hmore]
    split_ifs with hzero
    · rw [handleClientRefused]
      simp only [h.awake, Bool.not_false, Bool.not_true, Bool.false_eq_true, if_true, if_false]
      exact h.scheduled hstream rfl rfl rfl hmod rfl (congrArg (· + 1) h.rounds) h.running rfl h.count rfl hone
    · rw [scheduleUnlessSuspended]
      simp only [h.awake, Bool.not_false, if_true]
      exact h.scheduled hstream rfl rfl rfl hmod rfl h.rounds h.running rfl h.count rfl hone

/-- An attempt under way stays so until its failure is handled. -/
theorem busy_step (h : a.Busy lookup p c) {move : ClientAppMove} (hfails : Fails lookup a move (a.step move)) :
    a.attempted move = none ∧ ((∃ c', (a.step move).Busy lookup p c') ∨
      ∃ c', (a.step move).Waiting (p.next (a.answers lookup)) c') := by
  rw [step.eq_def, if_neg (by rw [h.running]; exact Bool.false_ne_true)]
  cases move with
  | restart timer opening dialing =>
    refine ⟨rfl, Or.inl ⟨c, ?_⟩⟩
    dsimp only
    rw [h.timers, List.length_nil, if_neg (Nat.not_lt_zero _)]
    exact h
  | dispatch =>
    refine ⟨rfl, ?_⟩
    dsimp only
    rcases h.way with ⟨hstream, hevents⟩ | ⟨-, hevents⟩
    · rw [hevents]
      exact Or.inr ⟨c, h.handled hstream⟩
    · rw [hevents]
      exact Or.inl ⟨c, h⟩
  | lookedUp i addresses dialing =>
    dsimp only
    rw [attempted, h.client]
    dsimp only
    cases hlookup : c.lookups[i]? with
    | none =>
      rw [if_neg fun hready => by cases hready.2.1]
      exact ⟨rfl, Or.inl ⟨c, h⟩⟩
    | some generation =>
      have hstale : generation ≠ c.resolveGeneration := by
        rintro rfl
        exact h.answered (List.mem_of_getElem? hlookup)
      dsimp only
      rw [if_neg fun hready => hstale (Option.some.inj hready.2.1), lookedUp_stale hstale]
      refine ⟨rfl, Or.inl ⟨_, h.toHolds.erase i, h.count, h.timers, ?_, ?_⟩⟩
      · exact fun hmem => h.answered (List.mem_of_mem_eraseIdx hmem)
      · exact h.way.imp (And.imp_right fun hevents => (List.append_nil _).trans hevents)
          (And.imp_right fun hevents => (List.append_nil _).trans hevents)
  | connected => exact ⟨rfl, Or.inl (h.inPhase _ (Or.inl rfl))⟩
  | connectionFailed => exact ⟨rfl, Or.inl (h.inPhase _ (Or.inr rfl))⟩
  | connectTimeout => exact ⟨rfl, Or.inl (h.inPhase _ (Or.inr rfl))⟩
  | disconnected => exact absurd hfails id
  | hello isKnownProtocol =>
    obtain rfl : isKnownProtocol = false := hfails
    exact ⟨rfl, Or.inl (h.inPhase _ (Or.inr rfl))⟩
  | handshakeComplete => exact ⟨rfl, Or.inl (h.not_joined _)⟩
  | disconnect hasMessage => exact ⟨rfl, Or.inl (h.not_joined _)⟩
  | refuseConnection => exact ⟨rfl, Or.inl (h.not_joined _)⟩
  | suspend => exact absurd hfails id
  | resume dialing =>
    refine ⟨rfl, Or.inl ⟨c, ?_⟩⟩
    dsimp only
    rw [h.client]
    dsimp only
    rw [AppClient.handleResume, if_neg (by rw [h.clientAwake]; exact Bool.false_ne_true), post_self h.client]
    exact h
  | quit =>
    exact ⟨rfl, Or.inl ⟨c, ⟨h.client, h.server, h.inside, h.address, h.rounds, h.running, h.awake, h.clientAwake,
      h.lookups⟩, h.count, h.timers, h.answered, h.way⟩⟩

/-! ### Where a run begins -/

/-- The place that the application has come to. -/
def place (a : ClientApp) : Place where
  server := a.currentServerIndex
  address := a.lastServerAddressIndex
  count := a.client.elim 0 AppClient.resolvedAddressesCount
  rounds := a.retryCount

/-- The application comes to a state, with one way forward all along, and it goes on. -/
def Reached (a : ClientApp) : Prop :=
  ∃ serverAddresses dynamicConnectionRetry opening dialing moves, serverAddresses ≠ [] ∧
    EachStep Orderly (startNode serverAddresses dynamicConnectionRetry opening dialing)
      (runTrace step (startNode serverAddresses dynamicConnectionRetry opening dialing) moves) ∧
    a = moves.foldl step (startNode serverAddresses dynamicConnectionRetry opening dialing) ∧
    a.exited = false ∧ a.quit = false

/-- The application has just created its client, or it has just handled that its client is disconnected. -/
inductive Begun : ClientApp → Prop
  | started (serverAddresses : List Str) (dynamicConnectionRetry : Bool) (dialing : Dialing)
      (hservers : serverAddresses ≠ []) : Begun (startNode serverAddresses dynamicConnectionRetry .opened dialing)
  | restarted (a : ClientApp) (timer : Nat) (dialing : Dialing) (hreached : Reached a) (hclient : a.client = none)
      (htimer : timer < a.restartTimers.length) : Begun (a.step (.restart timer .opened dialing))
  | disconnected (a : ClientApp) (hreached : Reached a) (hawake : a.isSuspended = false)
      (hevents : a.events = [.clientDisconnected]) : Begun (a.step .dispatch)

/-- The server index is one of the list, and nothing has happened before there is a client. -/
structure Indexed (a : ClientApp) : Prop where
  server : a.currentServerIndex < a.serverAddresses.length
  fresh : a.client = none → a.events = [] ∧ a.currentServerIndex = 0 ∧ a.lastServerAddressIndex = 0

private theorem inPhase_same (phases : List StreamPhase) (handler : AppClient → AppClient × List ClientEvent) :
    (a.inPhase phases handler).serverAddresses = a.serverAddresses ∧
      (Indexed a → Indexed (a.inPhase phases handler)) := by
  rw [inPhase.eq_def]
  split
  · exact ⟨rfl, id⟩
  · split_ifs
    · exact ⟨rfl, fun h => ⟨h.server, nofun⟩⟩
    · exact ⟨rfl, id⟩

private theorem connectClient_same (openClient : Str → AppClient) (dialing : Dialing) :
    (a.connectClient openClient dialing).serverAddresses = a.serverAddresses ∧
      (Indexed a → Indexed (a.connectClient openClient dialing)) := by
  rw [connectClient.eq_def]
  split
  · exact ⟨rfl, fun h => ⟨h.server, h.fresh⟩⟩
  · exact ⟨rfl, fun h => ⟨h.server, nofun⟩⟩

private theorem startClient_same (opening : ScreenOpening) (dialing : Dialing) :
    (a.startClient opening dialing).1.serverAddresses = a.serverAddresses ∧
      (Indexed a → Indexed (a.startClient opening dialing).1) := by
  rw [startClient.eq_def]
  split
  · exact connectClient_same _ _
  · cases opening with
    | opened => exact connectClient_same _ _
    | screenUnavailable => exact ⟨rfl, fun h => ⟨h.server, h.fresh⟩⟩
    | failed => exact ⟨rfl, fun h => ⟨h.server, h.fresh⟩⟩

/-- What the handlers of events do to the index. -/
private theorem handle_same (event : ClientEvent) :
    (a.handle event).serverAddresses = a.serverAddresses ∧ (a.handle event).client = a.client ∧
      (a.currentServerIndex < a.serverAddresses.length →
        (a.handle event).currentServerIndex < a.serverAddresses.length) := by
  have hrefused (b : ClientApp) (retry : Bool) : (b.handleClientRefused retry).serverAddresses = b.serverAddresses ∧
      (b.handleClientRefused retry).client = b.client ∧
      (b.handleClientRefused retry).currentServerIndex = b.currentServerIndex := by
    rw [handleClientRefused]
    split_ifs <;> exact ⟨rfl, rfl, rfl⟩
  have hscheduled (b : ClientApp) : b.scheduleUnlessSuspended.serverAddresses = b.serverAddresses ∧
      b.scheduleUnlessSuspended.client = b.client ∧
      b.scheduleUnlessSuspended.currentServerIndex = b.currentServerIndex := by
    rw [scheduleUnlessSuspended]
    split_ifs <;> exact ⟨rfl, rfl, rfl⟩
  have hnext (b : ClientApp) : b.tryNextServer.serverAddresses = b.serverAddresses ∧
      b.tryNextServer.client = b.client ∧ (b.currentServerIndex < b.serverAddresses.length →
        b.tryNextServer.currentServerIndex < b.serverAddresses.length) := by
    rw [tryNextServer]
    split_ifs
    · exact ⟨rfl, rfl, fun h => Nat.mod_lt _ (Nat.zero_lt_of_lt h)⟩
    · exact ⟨rfl, rfl, id⟩
  cases event with
  | clientConnected => exact ⟨rfl, rfl, fun h => Nat.zero_lt_of_lt h⟩
  | clientConnectionFailed retry =>
    rw [handle, handleClientFailed]
    dsimp only
    split_ifs
    · obtain ⟨hservers, hclient, hserver⟩ :=
        hscheduled { a with lastServerAddressIndex := a.lastServerAddressIndex + 1 }
      exact ⟨hservers, hclient, fun h => hserver.trans_lt h⟩
    · obtain ⟨hservers, hclient, hserver⟩ := hnext { a with lastServerAddressIndex := 0 }
      obtain ⟨hservers', hclient', hserver'⟩ := hrefused (tryNextServer { a with lastServerAddressIndex := 0 }) retry
      exact ⟨hservers'.trans hservers, hclient'.trans hclient, fun h => hserver'.trans_lt (hserver h)⟩
    · obtain ⟨hservers, hclient, hserver⟩ := hnext { a with lastServerAddressIndex := 0 }
      obtain ⟨hservers', hclient', hserver'⟩ := hscheduled (tryNextServer { a with lastServerAddressIndex := 0 })
      exact ⟨hservers'.trans hservers, hclient'.trans hclient, fun h => hserver'.trans_lt (hserver h)⟩
  | clientConnectionRefused retry =>
    obtain ⟨hservers, hclient, hserver⟩ := hrefused a retry
    exact ⟨hservers, hclient, fun h => hserver.trans_lt h⟩
  | clientDisconnected =>
    obtain ⟨hservers, hclient, hserver⟩ := hscheduled { a with retryCount := 0 }
    exact ⟨hservers, hclient, fun h => hserver.trans_lt h⟩

/-- The list of servers never changes, and the server index stays one of it. -/
theorem step_same (a : ClientApp) (move : ClientAppMove) :
    (a.step move).serverAddresses = a.serverAddresses ∧ (Indexed a → Indexed (a.step move)) := by
  rw [step.eq_def]
  split_ifs
  · exact ⟨rfl, id⟩
  cases move with
  | restart timer opening dialing =>
    dsimp only
    split_ifs
    · obtain ⟨hservers, hindexed⟩ := startClient_same
        (a := { a with restartTimers := a.restartTimers.eraseIdx timer }) opening dialing
      exact ⟨hservers, fun h => hindexed ⟨h.server, h.fresh⟩⟩
    · exact ⟨rfl, id⟩
  | dispatch =>
    dsimp only
    split
    · exact ⟨rfl, id⟩
    · rename_i event events hevents
      obtain ⟨hservers, hclient, hserver⟩ := handle_same (a := { a with events := events }) event
      refine ⟨hservers, fun h => ⟨(hserver h.server).trans_eq (congrArg _ hservers.symm), fun hnone => ?_⟩⟩
      have hempty := (h.fresh (hclient.symm.trans hnone)).1
      cases hempty.symm.trans hevents
  | lookedUp i addresses dialing =>
    dsimp only
    split
    · exact ⟨rfl, id⟩
    · split
      · exact ⟨rfl, id⟩
      · exact ⟨rfl, fun h => ⟨h.server, nofun⟩⟩
  | connected => exact inPhase_same _ _
  | connectionFailed => exact inPhase_same _ _
  | connectTimeout => exact inPhase_same _ _
  | disconnected => exact inPhase_same _ _
  | hello isKnownProtocol => exact inPhase_same _ _
  | handshakeComplete => exact inPhase_same _ _
  | disconnect hasMessage => exact inPhase_same _ _
  | refuseConnection => exact inPhase_same _ _
  | suspend =>
    dsimp only
    split
    · exact ⟨rfl, id⟩
    · exact ⟨rfl, fun h => ⟨h.server, nofun⟩⟩
  | resume dialing =>
    dsimp only
    split
    · exact ⟨rfl, id⟩
    · exact ⟨rfl, fun h => ⟨h.server, nofun⟩⟩
  | quit => exact ⟨rfl, fun h => ⟨h.server, h.fresh⟩⟩

private theorem Reached.kept (h : Reached a) : Kept a ∧ Indexed a ∧ a.exited = false := by
  obtain ⟨servers, retry, opening, dialing, moves, hservers, horderly, rfl, hexited, hquit⟩ := h
  refine ⟨settled_run servers retry opening dialing moves horderly hexited hquit, ?_, hexited⟩
  have hstart : Indexed (startNode servers retry opening dialing) := by
    rw [startNode]
    dsimp only
    generalize hb : ClientApp.mk servers retry 0 0 0 false [] [] none false false = b
    have hb : Indexed b := by
      rw [← hb]
      exact ⟨List.length_pos_of_ne_nil hservers, fun _ => ⟨rfl, rfl, rfl⟩⟩
    obtain ⟨-, hindexed⟩ := startClient_same (a := b) opening dialing
    have hnow := hindexed hb
    split_ifs
    · exact hnow
    · exact ⟨hnow.server, hnow.fresh⟩
  exact List.foldlRecOn moves step hstart fun b hb move _ => (step_same b move).2 hb

/-- The first client waits for the answer to its first lookup. -/
private theorem connected_waiting {b : ClientApp} (hindexed : Indexed b) (hclient : b.client = none)
    (hnames : ∀ host ∈ b.serverAddresses, host ≠ []) (hexited : b.exited = false) (hawake : b.suspended = false)
    (htimers : b.restartTimers = []) (dialing : Dialing) :
    ∃ c, (b.connectClient .initial dialing).Waiting (b.connectClient .initial dialing).place c := by
  obtain ⟨host, hhost⟩ : ∃ host, b.serverAddresses[b.currentServerIndex]? = some host :=
    ⟨_, List.getElem?_eq_getElem hindexed.server⟩
  have hempty : host.isEmpty = false := List.isEmpty_eq_false_iff.mpr (hnames _ (List.mem_of_getElem? hhost))
  have hconnect : b.connectClient .initial dialing = { b with
      client := some { AppClient.initial host with resolveGeneration := 1, lookups := [1] }
      events := b.events ++ [] } := by
    rw [connectClient.eq_def, hhost]
    simp only [AppClient.connect, AppClient.initial, hempty, post, Option.isSome_none, Bool.false_eq_true, if_false]
    rfl
  rw [hconnect]
  refine ⟨_, ⟨rfl, rfl, hindexed.server, rfl, rfl, hexited, hawake, rfl, ?_⟩, rfl, rfl, ?_, ?_, fun _ => hhost⟩
  · exact fun generation hmem => (List.mem_singleton.mp hmem).le
  · rw [List.append_nil]
    exact (hindexed.fresh hclient).1
  · rw [htimers]
    rfl

/-- When a run begins an attempt is due. -/
theorem Begun.waiting (h : Begun a) (hnames : ∀ host ∈ a.serverAddresses, host ≠ []) : ∃ c, a.Waiting a.place c := by
  cases h with
  | started servers retry dialing hservers =>
    have hstart : startNode servers retry .opened dialing =
        (ClientApp.mk servers retry 0 0 0 false [] [] none false false).connectClient .initial dialing := rfl
    rw [hstart] at hnames ⊢
    rw [(connectClient_same _ _).1] at hnames
    exact connected_waiting ⟨List.length_pos_of_ne_nil hservers, fun _ => ⟨rfl, rfl,
        rfl⟩⟩ rfl hnames rfl rfl rfl dialing
  | restarted b timer dialing hreached hclient htimer =>
    obtain ⟨hkept, hindexed, hexited⟩ := hreached.kept
    have hone := hkept.one (by rw [isSuspended, hclient]; rfl)
    rw [waysForward, hclient, ends, (hindexed.fresh hclient).1] at hone
    have hsingle : b.restartTimers.length = 1 := hone
    have hstep : b.step (.restart timer .opened dialing) =
        { b with restartTimers := b.restartTimers.eraseIdx timer }.connectClient .initial dialing := by
      rw [step.eq_def, if_neg (by rw [hexited]; exact Bool.false_ne_true)]
      dsimp only
      rw [if_pos htimer, handleClientRestart, startClient.eq_def]
      simp only [hclient]
    rw [hstep] at hnames ⊢
    rw [(connectClient_same _ _).1] at hnames
    refine connected_waiting (b := { b with restartTimers := b.restartTimers.eraseIdx timer })
      ⟨hindexed.server, hindexed.fresh⟩ hclient hnames hexited hkept.awake (List.length_eq_zero_iff.mp ?_) dialing
    change (b.restartTimers.eraseIdx timer).length = 0
    rw [List.length_eraseIdx_of_lt htimer, hsingle]
  | disconnected b hreached hawake hevents =>
    obtain ⟨hkept, hindexed, hexited⟩ := hreached.kept
    obtain ⟨c, hclient⟩ : ∃ c, b.client = some c := by
      refine Option.ne_none_iff_exists'.mp fun hnone => ?_
      cases hevents.symm.trans (hindexed.fresh hnone).1
    have hfit := hkept.client c hclient
    have hone := hkept.one hawake
    rw [waysForward, hclient, ends, hevents, Option.elim_some] at hone
    change b.restartTimers.length + c.attempts + 1 = 1 at hone
    have htimers : b.restartTimers = [] := List.length_eq_zero_iff.mp (by omega)
    have hattempts : c.attempts = 0 := by omega
    rw [AppClient.attempts] at hattempts
    have hcount : c.lookups.count c.resolveGeneration = 0 := by omega
    have hstream : c.stream = none := by
      refine Option.not_isSome_iff_eq_none.mp fun hsome => ?_
      rw [if_pos hsome] at hattempts
      omega
    have hstep : b.step .dispatch =
        { b with events := [], retryCount := 0, restartTimers := [{ b with retryCount := 0 }.retryTime] } := by
      rw [step.eq_def, if_neg (by rw [hexited]; exact Bool.false_ne_true)]
      dsimp only
      rw [hevents]
      dsimp only
      rw [handle, handleClientDisconnected, scheduleUnlessSuspended]
      simp only [hkept.awake, Bool.not_false, if_true, scheduleClientRestart, htimers]
      rfl
    rw [hstep]
    have hplace : b.client.elim 0 AppClient.resolvedAddressesCount = c.resolvedAddressesCount := by
      rw [hclient]
      rfl
    rw [isSuspended, hclient] at hawake
    refine ⟨c, ⟨hclient, rfl, hindexed.server, rfl, rfl, hexited, hkept.awake, hawake, hfit.lookups⟩, hplace.symm,
      hstream, rfl, ?_, fun hmem => ?_⟩
    · exact congrArg (1 + ·) hcount
    · exact absurd hmem (List.count_eq_zero.mp hcount)

/-! ### Runs -/

/-- An application that has begun a number of attempts: the next one is due, or the last one is under way. -/
def Stage (servers : List Str) (lookup : Str → Option Nat) (p : Place) (n : Nat) (t : ClientApp) : Prop :=
  t.serverAddresses = servers ∧
    ((∃ c, t.Waiting (p.after (servers.map lookup) n) c) ∨
      ∃ m c, n = m + 1 ∧ t.Busy lookup (p.after (servers.map lookup) m) c)

private theorem stage_run {servers : List Str} {lookup : Str → Option Nat} (hnames : ∀ host ∈ servers, host ≠ [])
    (hpositive : ∀ host, lookup host ≠ some 0) (p : Place) (moves : List ClientAppMove) {n : Nat} {t : ClientApp}
    (h : Stage servers lookup p n t) (hfails : EachStep (Fails lookup) t (runTrace step t moves)) :
    p.attempts (servers.map lookup) n ++ t.attemptsOf moves =
        p.attempts (servers.map lookup) (n + (t.attemptsOf moves).length) ∧
      Stage servers lookup p (n + (t.attemptsOf moves).length) (moves.foldl step t) := by
  induction moves generalizing n t with
  | nil => exact ⟨List.append_nil _, h⟩
  | cons move moves ih =>
    obtain ⟨hmove, hmoves⟩ := hfails
    obtain ⟨rfl, hwaiting | ⟨m, c, rfl, hbusy⟩⟩ := h
    · obtain ⟨c, hwaiting⟩ := hwaiting
      have hservers := (step_same t move).1
      rcases waiting_step hnames hpositive hwaiting hmove with ⟨hnone, hnext⟩ | ⟨hsome, c', hnext⟩
      · obtain ⟨hattempts, hstage⟩ := ih ⟨hservers, Or.inl hnext⟩ hmoves
        rw [attemptsOf, hnone, Option.toList_none, List.nil_append]
        exact ⟨hattempts, hstage⟩
      · obtain ⟨hattempts, hstage⟩ := ih (n := n + 1) ⟨hservers, Or.inr ⟨n, c', rfl, hnext⟩⟩ hmoves
        have hmore : p.attempts (t.serverAddresses.map lookup) (n + 1) =
            p.attempts (t.serverAddresses.map lookup) n ++ [(p.after (t.answers lookup) n).aim (t.answers lookup)] := by
          rw [Place.attempts, List.range_succ, List.map_append]
          rfl
        rw [hmore, List.append_assoc, List.singleton_append] at hattempts
        rw [attemptsOf, hsome, Option.toList_some, List.singleton_append, List.length_cons, ← Nat.add_assoc,
          Nat.add_right_comm]
        exact ⟨hattempts, hstage⟩
    · have hservers := (step_same t move).1
      obtain ⟨hnone, hnext⟩ := busy_step hbusy hmove
      rw [attemptsOf, hnone, Option.toList_none, List.nil_append]
      rcases hnext with ⟨c', hnext⟩ | ⟨c', hnext⟩
      · exact ih ⟨hservers, Or.inr ⟨m, c', rfl, hnext⟩⟩ hmoves
      · exact ih ⟨hservers, Or.inl ⟨c', hnext⟩⟩ hmoves

/-- When every attempt fails, the attempts are what is left of the round and complete rounds, and the rounds are
counted, if the lookup before each one that fails never gives more than one address. -/
theorem attempts_in_rounds {lookup : Str → Option Nat} {start : Nat} (hbegun : Begun a)
    (hnames : ∀ host ∈ a.serverAddresses, host ≠ []) (hpositive : ∀ host, lookup host ≠ some 0)
    (hcourse : a.place.OnCourse (a.answers lookup) start) (hfirst : SingleBefore (a.answers lookup) start)
    (hlater : SingleBefore (a.answers lookup) (lastCount start (a.answers lookup))) (moves : List ClientAppMove)
    (hfails : EachStep (Fails lookup) a (runTrace step a moves)) :
    let t := moves.foldl step a
    let round := roundOf (a.answers lookup)
    let left := a.place.rest (a.answers lookup)
    let attempts := a.attemptsOf moves
    t.currentServerIndex < a.serverAddresses.length ∧
      attempts <+: left ++ (List.replicate attempts.length round).flatten ∧
      t.retryCount =
        a.retryCount + (attempts.length - t.isUnderWay.toNat + (round.length - left.length)) / round.length := by
  intro t round left attempts
  obtain ⟨c, hwaiting⟩ := hbegun.waiting hnames
  have hpos : ∀ n, some n ∈ a.answers lookup → 0 < n := by
    intro n hmem
    obtain ⟨host, -, hhost⟩ := List.mem_map.mp hmem
    exact Nat.pos_of_ne_zero fun hzero => hpositive host (hhost.trans (congrArg some hzero))
  obtain ⟨hattempts, hservers, hstage⟩ := stage_run hnames hpositive a.place moves (n := 0)
    ⟨rfl, Or.inl ⟨c, hwaiting⟩⟩ hfails
  rw [Nat.zero_add] at hattempts hstage
  have hlength : (a.answers lookup).length = a.serverAddresses.length := List.length_map _
  have hspec := Place.attempts_spec hcourse hpos hfirst hlater
  have hnow : ∃ m c', m = attempts.length - t.isUnderWay.toNat ∧
      t.Holds (a.place.after (a.answers lookup) m) c' := by
    rcases hstage with ⟨c', hnow⟩ | ⟨m, c', hm, hnow⟩
    · refine ⟨attempts.length, c', ?_, hnow.toHolds⟩
      have hnot : t.isUnderWay = false := by
        rw [isUnderWay, hnow.events, hnow.client, Option.any_some, hnow.stream]
        rfl
      rw [hnot]
      rfl
    · refine ⟨m, c', ?_, hnow.toHolds⟩
      have hway : t.isUnderWay = true := by
        rw [isUnderWay, hnow.client, Option.any_some]
        rcases hnow.way with ⟨-, hevents⟩ | ⟨hstream | hstream, -⟩
        · rw [hevents]
          rfl
        · rw [hstream, Option.isSome_some, Bool.or_true]
        · rw [hstream, Option.isSome_some, Bool.or_true]
      have hcounted : attempts.length = m + 1 := hm
      rw [hway, hcounted]
      rfl
  obtain ⟨m, c', hm, hholds⟩ := hnow
  obtain ⟨hserver, -, hrounds⟩ := hspec m
  refine ⟨?_, ?_, ?_⟩
  · rw [hholds.server, ← hlength]
    exact hserver
  · have hprefix := (hspec attempts.length).2.1
    have hsame : a.place.attempts (a.answers lookup) attempts.length = attempts := hattempts.symm
    rwa [hsame] at hprefix
  · rw [hholds.rounds, hrounds, ← hm]
    rfl

/-- Two servers: the first one has two addresses, the second one has one, and no attempt comes to a stream. -/
theorem two_servers_in_rounds :
    let lookup (host : Str) : Option Nat := if host = "two".toList then some 2 else some 1
    let failing : List ClientAppMove := [.lookedUp 0 (some 2) ⟨none, false⟩, .dispatch, .restart 0 .opened ⟨none,
        false⟩]
    let a := startNode ["two".toList, "one".toList] false .opened ⟨none, false⟩
    let moves := failing ++ failing ++ [.lookedUp 0 (some 1) ⟨none, false⟩]
    a.attemptsOf moves = [⟨0, some 0⟩, ⟨0, some 1⟩, ⟨1, some 0⟩] ∧
      (moves.foldl step a).currentServerIndex < a.serverAddresses.length ∧
      a.attemptsOf moves <+: a.place.rest (a.answers lookup) ++
        (List.replicate (a.attemptsOf moves).length (roundOf (a.answers lookup))).flatten ∧
      (moves.foldl step a).retryCount = a.retryCount +
        ((a.attemptsOf moves).length - (moves.foldl step a).isUnderWay.toNat +
          ((roundOf (a.answers lookup)).length - (a.place.rest (a.answers lookup)).length)) /
            (roundOf (a.answers lookup)).length := by
  intro lookup failing a moves
  have hpositive : ∀ host, lookup host ≠ some 0 := by
    intro host
    dsimp only [lookup]
    split_ifs
    · decide
    · decide
  have hone : ∀ n, some n ∈ a.answers lookup → 0 < n :=
    fun n hmem => Nat.pos_of_ne_zero fun hzero => absurd (hzero ▸ hmem) (by decide)
  exact ⟨by decide, attempts_in_rounds (Begun.started _ _ _ (by decide)) (by decide) hpositive
    (Place.begin_onCourse (by decide) hone 0 0) (by decide) (by decide) moves (by decide)⟩

/-- A server with two addresses, and one whose lookup fails: it gets two attempts. -/
theorem gone_server_twice :
    let lookup (host : Str) : Option Nat := if host = "two".toList then some 2 else none
    let restart : List ClientAppMove := [.dispatch, .restart 0 .opened ⟨none, false⟩]
    let a := startNode ["two".toList, "gone".toList] false .opened ⟨none, false⟩
    let moves := .lookedUp 0 (some 2) ⟨none, false⟩ :: restart ++ .lookedUp 0 (some 2) ⟨none, false⟩ :: restart ++
      .lookedUp 0 none ⟨none, false⟩ :: restart ++ [.lookedUp 0 none ⟨none, false⟩]
    Begun a ∧ EachStep (Fails lookup) a (runTrace step a moves) ∧
      a.attemptsOf moves = [⟨0, some 0⟩, ⟨0, some 1⟩, ⟨1, none⟩, ⟨1, none⟩] ∧
      ¬ a.attemptsOf moves <+: (List.replicate 4 (roundOf (a.answers lookup))).flatten := by
  intro lookup restart a moves
  exact ⟨Begun.started _ _ _ (by decide), by decide, by decide, by decide⟩

end ClientApp
end Synergy
